import Mathlib.Algebra.Ring.Int.Defs
import Mathlib.Algebra.Ring.Nat
import Mathlib.Data.List.Basic

/-!
# Messages over a byte stream

A sender marshals its messages one after the other into a stream of bytes, and a receiver takes
from the stream as many bytes as the message it expects has.  Nothing in the stream marks where a
message begins.

The receiver sees values.  To say what it received, a byte in flight is an `Octet`, which also
knows the message it was marshalled from and its place in it.  `InFlight stream cut ms` says that
the stream holds the messages `ms`, or the beginning of them if the connection was `cut`.
`InFlight.recv` is the framing rule: a receiver that takes as many bytes as the first message has
gets the first message.  Which messages a sequence of bytes consists of is not open to doubt
(`prefix_of_octets`).

`toNetwork` and `ofNetwork` are `htonl` and `ntohl`, with the bytes in memory order.
-/

namespace LaptopRaft

/-! ## 32-bit integers in network order -/

/-- The four bytes of an `int`, most significant first. -/
def toNetwork (n : ℤ) : List UInt8 :=
  let w := (n % 2 ^ 32).toNat
  [.ofNat (w / 2 ^ 24), .ofNat (w / 2 ^ 16), .ofNat (w / 2 ^ 8), .ofNat w]

/-- The `int` in the first four bytes. -/
def ofNetwork (bytes : List UInt8) : ℤ :=
  let w := (bytes.take 4).foldl (fun (w : ℕ) b => w * 2 ^ 8 + b.toNat) 0
  if w < 2 ^ 31 then w else w - 2 ^ 32

/-- The values of an `int`. -/
def IsInt (n : ℤ) : Prop := -2 ^ 31 ≤ n ∧ n < 2 ^ 31

instance (n : ℤ) : Decidable (IsInt n) := inferInstanceAs (Decidable (_ ∧ _))

@[simp] lemma toNetwork_length (n : ℤ) : (toNetwork n).length = 4 := rfl

theorem ofNetwork_toNetwork {n : ℤ} (h : IsInt n) (bytes : List UInt8) :
    ofNetwork (toNetwork n ++ bytes) = n := by
  obtain ⟨hlow, hhigh⟩ := h
  have hrange : 0 ≤ n % 2 ^ 32 ∧ n % 2 ^ 32 < 2 ^ 32 :=
    ⟨Int.emod_nonneg n (by decide), Int.emod_lt_of_pos n (by decide)⟩
  simp only [ofNetwork, toNetwork, List.cons_append, List.nil_append, List.take_succ_cons,
    List.take_zero, List.foldl_cons, List.foldl_nil, UInt8.toNat_ofNat']
  split <;> omega

/-! ## Streams -/

section Stream

variable {M : Type*} (marshal : M → List UInt8)

/-- A byte in flight. -/
structure Octet (M : Type*) where
  message : M
  offset : ℕ
deriving DecidableEq

/-- What the receiver sees of it. -/
def Octet.value (o : Octet M) : UInt8 := (marshal o.message).getD o.offset 0

/-- The bytes of a message. -/
def octets (m : M) : List (Octet M) := (List.range (marshal m).length).map (Octet.mk m)

@[simp] lemma octets_length (m : M) : (octets marshal m).length = (marshal m).length := by
  simp [octets]

lemma octets_value (m : M) : (octets marshal m).map (Octet.value marshal) = marshal m := by
  refine List.ext_getElem (by simp) fun k hk hk' => ?_
  simp [octets, Octet.value, hk']

lemma message_of_mem_octets {m : M} {o : Octet M} (h : o ∈ octets marshal m) : o.message = m := by
  obtain ⟨k, -, rfl⟩ := List.mem_map.1 h
  rfl

/-- The messages `ms` are in the stream, as far as the connection has not been cut. -/
structure InFlight (stream : List (Octet M)) (cut : Bool) (ms : List M) : Prop where
  upTo : stream <+: ms.flatMap (octets marshal)
  whole : cut = false → stream = ms.flatMap (octets marshal)

namespace InFlight

variable {marshal} {stream : List (Octet M)} {cut : Bool} {ms : List M}

lemma nil (cut : Bool) : InFlight marshal [] cut [] := ⟨List.prefix_rfl, fun _ => rfl⟩

lemma send (h : InFlight marshal stream false ms) (m : M) :
    InFlight marshal (stream ++ octets marshal m) false (ms ++ [m]) := by
  have heq : stream ++ octets marshal m = (ms ++ [m]).flatMap (octets marshal) := by
    rw [h.whole rfl, List.flatMap_append, List.flatMap_singleton]
  exact ⟨heq ▸ List.prefix_rfl, fun _ => heq⟩

/-- What is sent over a cut connection is lost. -/
lemma sendAll (h : InFlight marshal stream cut ms) (sent : List M) :
    InFlight marshal (if cut then stream else stream ++ sent.flatMap (octets marshal)) cut
      (ms ++ sent) := by
  cases cut with
  | true =>
      refine ⟨h.upTo.trans ?_, by simp⟩
      rw [List.flatMap_append]
      exact List.prefix_append _ _
  | false =>
      have heq : stream ++ sent.flatMap (octets marshal) =
          (ms ++ sent).flatMap (octets marshal) := by
        rw [h.whole rfl, List.flatMap_append]
      exact ⟨heq ▸ List.prefix_rfl, fun _ => heq⟩

lemma cutOff (h : InFlight marshal stream cut ms) (n : ℕ) :
    InFlight marshal (stream.take n) true ms :=
  ⟨(List.take_prefix n stream).trans h.upTo, nofun⟩

/-- **Framing.** -/
theorem recv (h : InFlight marshal stream cut ms) {n : ℕ} (hpos : 0 < n)
    (hn : n ≤ stream.length) : ∃ m rest, ms = m :: rest ∧
      ((marshal m).length = n → stream.take n = octets marshal m ∧
        InFlight marshal (stream.drop n) cut rest) := by
  cases ms with
  | nil =>
      have hnil : stream = [] := List.prefix_nil.1 h.upTo
      rw [hnil, List.length_nil] at hn
      omega
  | cons m rest =>
      refine ⟨m, rest, rfl, fun hlen => ?_⟩
      have hsize : (octets marshal m).length = n := (octets_length marshal m).trans hlen
      obtain ⟨lost, hlost⟩ := h.upTo
      rw [List.flatMap_cons] at hlost
      refine ⟨?_, ⟨lost, ?_⟩, fun hcut => ?_⟩
      · rw [← List.take_append_of_le_length hn, hlost, List.take_left' hsize]
      · rw [← List.drop_append_of_le_length hn, hlost, List.drop_left' hsize]
      · rw [h.whole hcut, List.flatMap_cons, List.drop_left' hsize]

end InFlight

/-- **Messages are told by their bytes.** -/
theorem prefix_of_octets {marshal : M → List UInt8} {ms ms' : List M}
    (hpos : ∀ m, 0 < (marshal m).length)
    (h : ms.flatMap (octets marshal) <+: ms'.flatMap (octets marshal)) : ms <+: ms' := by
  have hfirst : ∀ m, ∃ os, octets marshal m = ⟨m, 0⟩ :: os := by
    intro m
    obtain ⟨k, hk⟩ := Nat.exists_eq_succ_of_ne_zero (Nat.ne_of_gt (hpos m))
    exact ⟨_, by rw [octets, hk, List.range_succ_eq_map, List.map_cons]⟩
  induction ms generalizing ms' with
  | nil => exact List.nil_prefix
  | cons m ms ih =>
      obtain ⟨os, hos⟩ := hfirst m
      cases ms' with
      | nil =>
          rw [List.flatMap_cons, hos, List.flatMap_nil] at h
          exact absurd h (by simp)
      | cons m' ms' =>
          obtain ⟨os', hos'⟩ := hfirst m'
          have hsame : (⟨m, 0⟩ : Octet M) = ⟨m', 0⟩ := by
            rw [List.flatMap_cons, List.flatMap_cons, hos, hos'] at h
            exact (List.cons_prefix_cons.1 h).1
          obtain rfl : m = m' := congrArg Octet.message hsame
          rw [List.flatMap_cons, List.flatMap_cons, List.prefix_append_right_inj] at h
          exact List.cons_prefix_cons.2 ⟨rfl, ih h⟩

end Stream

end LaptopRaft
