import LaptopRaft.Framework.Framing
import Mathlib.Order.Basic

/-!
# Integers in a buffer

A buffer is a list of bytes of a fixed length.  `memcpy` is `copyTo` and `copyFrom`, undefined
outside of the buffer.  An `int` lies in memory in the byte order of the host, and `htonl` turns
it into one whose bytes are those of the network order, whatever that order is
(`store_htonl`, `ntohl_load`).

A `Layout` is a class of objects that are marshalled as a row of `int`s, one behind the other.
The layout knows that its two halves fit: what `assign` makes of the `fields` of an object is the
object, and the other way round.  That this carries over from the integers to the bytes is
`Layout.roundTrips`.
-/

namespace LaptopRaft

/-! ## The byte order of a host -/

inductive ByteOrder
  | little
  | big
deriving DecidableEq, Repr

/-- The `int` whose four bytes are those of `n` in reverse. -/
def swapBytes (n : ℤ) : ℤ := ofNetwork (toNetwork n).reverse

namespace ByteOrder

/-- The bytes of an `int` in the memory of the host. -/
def store : ByteOrder → ℤ → List UInt8
  | little, n => (toNetwork n).reverse
  | big, n => toNetwork n

/-- The `int` at the beginning of some memory. -/
def load : ByteOrder → List UInt8 → ℤ
  | little, bytes => ofNetwork (bytes.take 4).reverse
  | big, bytes => ofNetwork bytes

def htonl : ByteOrder → ℤ → ℤ
  | little, n => swapBytes n
  | big, n => n

def ntohl : ByteOrder → ℤ → ℤ
  | little, n => swapBytes n
  | big, n => n

end ByteOrder

/-- Four bytes are those of the `int` they make up. -/
theorem toNetwork_ofNetwork {bytes : List UInt8} (h : bytes.length = 4) :
    toNetwork (ofNetwork bytes) = bytes := by
  match bytes, h with
  | [a, b, c, d], _ =>
    have ha := a.toNat_lt
    have hb := b.toNat_lt
    have hc := c.toNat_lt
    have hd := d.toNat_lt
    have hword : (ofNetwork [a, b, c, d] % 2 ^ 32).toNat =
        ((a.toNat * 2 ^ 8 + b.toNat) * 2 ^ 8 + c.toNat) * 2 ^ 8 + d.toNat := by
      simp only [ofNetwork, List.take_succ_cons, List.take_zero, List.foldl_cons, List.foldl_nil]
      split_ifs <;> omega
    simp only [toNetwork, hword]
    refine congrArg₂ _ ?_ (congrArg₂ _ ?_ (congrArg₂ _ ?_ (congrArg₂ _ ?_ rfl)))
    all_goals
      apply UInt8.toNat_inj.1
      rw [UInt8.toNat_ofNat']
      omega

lemma ofNetwork_take (bytes : List UInt8) : ofNetwork (bytes.take 4) = ofNetwork bytes := by
  rw [ofNetwork, ofNetwork, List.take_take, Nat.min_self]

lemma toNetwork_swapBytes (n : ℤ) : toNetwork (swapBytes n) = (toNetwork n).reverse :=
  toNetwork_ofNetwork (by simp)

namespace ByteOrder

@[simp] lemma store_length (host : ByteOrder) (n : ℤ) : (host.store n).length = 4 := by
  cases host <;> simp [store]

/-- `htonl` is there for this. -/
theorem store_htonl (host : ByteOrder) (n : ℤ) : host.store (host.htonl n) = toNetwork n := by
  cases host with
  | little => rw [store, htonl, toNetwork_swapBytes, List.reverse_reverse]
  | big => rfl

theorem ntohl_load (host : ByteOrder) {bytes : List UInt8} (h : bytes.length = 4) :
    host.ntohl (host.load bytes) = ofNetwork bytes := by
  cases host with
  | little =>
      have hreverse : bytes.reverse.length = 4 := by simpa using h
      rw [load, ntohl, List.take_of_length_le h.le, swapBytes, toNetwork_ofNetwork hreverse,
        List.reverse_reverse]
  | big => rfl

end ByteOrder

/-! ## `memcpy` -/

/-- A buffer after `bytes` were written at `offset`. -/
def overwrite (buffer : List UInt8) (offset : ℕ) (bytes : List UInt8) : List UInt8 :=
  buffer.take offset ++ bytes ++ buffer.drop (offset + bytes.length)

/-- `memcpy` into a buffer. -/
def copyTo (buffer : List UInt8) (offset : ℕ) (bytes : List UInt8) : Option (List UInt8) :=
  if offset + bytes.length ≤ buffer.length then some (overwrite buffer offset bytes) else none

/-- `memcpy` out of a buffer. -/
def copyFrom (buffer : List UInt8) (offset size : ℕ) : Option (List UInt8) :=
  if offset + size ≤ buffer.length then some ((buffer.drop offset).take size) else none

section Overwrite

variable {buffer bytes : List UInt8} {offset : ℕ}

lemma overwrite_length (h : offset + bytes.length ≤ buffer.length) :
    (overwrite buffer offset bytes).length = buffer.length := by
  simp only [overwrite, List.length_append, List.length_take, List.length_drop]
  omega

lemma overwrite_nil (buffer : List UInt8) (offset : ℕ) : overwrite buffer offset [] = buffer := by
  simp [overwrite]

/-- What has been filled of the buffer grows by the bytes written. -/
lemma take_overwrite (h : offset + bytes.length ≤ buffer.length) :
    (overwrite buffer offset bytes).take (offset + bytes.length) = buffer.take offset ++ bytes := by
  have hlen : (buffer.take offset ++ bytes).length = offset + bytes.length := by
    simp only [List.length_append, List.length_take]
    omega
  rw [overwrite, ← hlen, List.take_left]

lemma drop_overwrite (h : offset + bytes.length ≤ buffer.length) :
    (overwrite buffer offset bytes).drop (offset + bytes.length) =
      buffer.drop (offset + bytes.length) := by
  have hlen : (buffer.take offset ++ bytes).length = offset + bytes.length := by
    simp only [List.length_append, List.length_take]
    omega
  rw [overwrite, List.drop_left' hlen]

/-- Two writes one behind the other are one. -/
lemma overwrite_overwrite (h : offset + bytes.length ≤ buffer.length) (more : List UInt8) :
    overwrite (overwrite buffer offset bytes) (offset + bytes.length) more =
      overwrite buffer offset (bytes ++ more) := by
  rw [overwrite, take_overwrite h, ← List.drop_drop, drop_overwrite h, List.drop_drop, overwrite]
  simp only [List.append_assoc, List.length_append, Nat.add_assoc]

end Overwrite

/-! ## Rows of integers -/

/-- `htonl` and `memcpy` for one `int` after the other. -/
def marshalInts (host : ByteOrder) : List ℤ → ℕ → List UInt8 → Option (List UInt8)
  | [], _, buffer => some buffer
  | n :: ns, offset, buffer => do
      let buffer ← copyTo buffer offset (host.store (host.htonl n))
      marshalInts host ns (offset + 4) buffer

/-- `memcpy` and `ntohl` for one `int` after the other. -/
def unmarshalInts (host : ByteOrder) (buffer : List UInt8) :
    (count : ℕ) → (offset : ℕ) → Option (List ℤ)
  | 0, _ => some []
  | count + 1, offset => do
      let bytes ← copyFrom buffer offset 4
      let rest ← unmarshalInts host buffer count (offset + 4)
      some (host.ntohl (host.load bytes) :: rest)

/-- The integers that some bytes are, one behind the other. -/
def intsOf (bytes : List UInt8) (count : ℕ) : List ℤ :=
  (List.range count).map fun k => ofNetwork (bytes.drop (4 * k))

section Ints

variable {host : ByteOrder} {ns : List ℤ} {buffer : List UInt8} {count offset : ℕ}

lemma flatMap_toNetwork_length (ns : List ℤ) : (ns.flatMap toNetwork).length = 4 * ns.length := by
  simp [List.length_flatMap, Nat.mul_comm]

theorem marshalInts_eq (h : offset + 4 * ns.length ≤ buffer.length) :
    marshalInts host ns offset buffer = some (overwrite buffer offset (ns.flatMap toNetwork)) := by
  induction ns generalizing offset buffer with
  | nil => rw [marshalInts, List.flatMap_nil, overwrite_nil]
  | cons n ns ih =>
      rw [List.length_cons] at h
      have hroom : offset + (toNetwork n).length ≤ buffer.length := by
        rw [toNetwork_length]
        omega
      have hrest : offset + 4 + 4 * ns.length ≤ (overwrite buffer offset (toNetwork n)).length := by
        rw [overwrite_length hroom]
        omega
      rw [marshalInts, ByteOrder.store_htonl, copyTo, if_pos hroom, Option.bind_eq_bind,
        Option.bind_some, ih hrest, List.flatMap_cons, ← overwrite_overwrite hroom,
        toNetwork_length]

theorem marshalInts_eq_none (h : buffer.length < offset + 4 * ns.length) (hne : ns ≠ []) :
    marshalInts host ns offset buffer = none := by
  induction ns generalizing offset buffer with
  | nil => exact (hne rfl).elim
  | cons n ns ih =>
      rw [List.length_cons] at h
      rw [marshalInts, ByteOrder.store_htonl, copyTo, toNetwork_length]
      split
      · rename_i hroom
        have hlen : (overwrite buffer offset (toNetwork n)).length = buffer.length :=
          overwrite_length hroom
        rw [Option.bind_eq_bind, Option.bind_some]
        -- the last `int` still had room
        rcases eq_or_ne ns [] with rfl | hns
        · rw [List.length_nil] at h
          omega
        · exact ih (by rw [hlen]; omega) hns
      · rfl

lemma intsOf_succ (bytes : List UInt8) (count : ℕ) :
    intsOf bytes (count + 1) = ofNetwork bytes :: intsOf (bytes.drop 4) count := by
  rw [intsOf, List.range_succ_eq_map, List.map_cons, List.map_map, Nat.mul_zero, List.drop_zero]
  refine congrArg _ (List.map_congr_left fun k _ => ?_)
  rw [Function.comp_apply, List.drop_drop, Nat.mul_succ, Nat.add_comm]

theorem unmarshalInts_eq (h : offset + 4 * count ≤ buffer.length) :
    unmarshalInts host buffer count offset = some (intsOf (buffer.drop offset) count) := by
  induction count generalizing offset with
  | zero => rfl
  | succ count ih =>
      have hroom : offset + 4 ≤ buffer.length := by omega
      have hlen : ((buffer.drop offset).take 4).length = 4 := by
        rw [List.length_take, List.length_drop]
        omega
      rw [unmarshalInts, copyFrom, if_pos hroom, Option.bind_eq_bind, Option.bind_some,
        ih (by omega), Option.bind_eq_bind, Option.bind_some, ByteOrder.ntohl_load host hlen,
        ofNetwork_take, intsOf_succ, List.drop_drop]

/-- Writing a row of integers and reading it again. -/
lemma intsOf_flatMap (h : ∀ n ∈ ns, IsInt n) (rest : List UInt8) :
    intsOf (ns.flatMap toNetwork ++ rest) ns.length = ns := by
  induction ns with
  | nil => rfl
  | cons n ns ih =>
      rw [List.flatMap_cons, List.append_assoc, List.length_cons, intsOf_succ,
        ofNetwork_toNetwork (h n List.mem_cons_self), List.drop_left' (toNetwork_length n),
        ih fun m hm => h m (List.mem_cons_of_mem n hm)]

/-- Reading a row of integers and writing it again. -/
lemma flatMap_intsOf {bytes : List UInt8} (h : bytes.length = 4 * count) :
    (intsOf bytes count).flatMap toNetwork = bytes := by
  induction count generalizing bytes with
  | zero => exact (List.eq_nil_of_length_eq_zero h).symm
  | succ count ih =>
      have hfirst : (bytes.take 4).length = 4 := by
        rw [List.length_take]
        omega
      have hrest : (bytes.drop 4).length = 4 * count := by
        rw [List.length_drop]
        omega
      rw [intsOf_succ, List.flatMap_cons, ih hrest, ← ofNetwork_take, toNetwork_ofNetwork hfirst]
      exact List.take_append_drop 4 bytes

/-- Nothing behind the integers is looked at. -/
lemma intsOf_take (bytes : List UInt8) (count : ℕ) :
    intsOf (bytes.take (4 * count)) count = intsOf bytes count := by
  refine List.map_congr_left fun k hk => ?_
  have hlt : k < count := List.mem_range.1 hk
  rw [← ofNetwork_take ((bytes.take (4 * count)).drop _), ← ofNetwork_take (bytes.drop _),
    List.drop_take, List.take_take, Nat.min_eq_left (by omega)]

end Ints

/-! ## Layouts -/

/-- A class whose objects are marshalled as `count` integers: `fields` in the order in which
`Marshal` copies them, `assign` as `Unmarshal` stores them, and `Size()`. -/
structure Layout (α : Type*) where
  count : ℕ
  size : ℕ
  fields : α → List ℤ
  assign : (ℕ → ℤ) → α
  size_eq : size = 4 * count := by rfl
  assign_fields : ∀ a, assign (fun k => (fields a).getD k 0) = a := by intro a; rfl
  fields_assign : ∀ net, fields (assign net) = (List.range count).map net := by intro net; rfl

namespace Layout

variable {α : Type*} (L : Layout α)

/-- `Marshal`. -/
def marshal (host : ByteOrder) (a : α) (buffer : List UInt8) : Option (List UInt8) :=
  marshalInts host (L.fields a) 0 buffer

/-- `Unmarshal`. -/
def unmarshal (host : ByteOrder) (buffer : List UInt8) : Option α :=
  (unmarshalInts host buffer L.count 0).map fun net => L.assign fun k => net.getD k 0

/-- The bytes of an object. -/
def bytes (a : α) : List UInt8 := (L.fields a).flatMap toNetwork

/-- The object some bytes make up. -/
def decode (bytes : List UInt8) : α := L.assign fun k => ofNetwork (bytes.drop (4 * k))

/-- The fields are values of `int`s. -/
def Fits (a : α) : Prop := ∀ n ∈ L.fields a, IsInt n

instance (a : α) : Decidable (L.Fits a) := inferInstanceAs (Decidable (∀ _ ∈ _, _))

/-- What one expects of a pair of functions that marshal and unmarshal the objects of a class. -/
structure RoundTrips (host : ByteOrder) : Prop where
  /-- `Unmarshal` after `Marshal` restores every field. -/
  restores_object : ∀ a, L.Fits a → ∀ buffer, L.size ≤ buffer.length →
    (L.marshal host a buffer).bind (L.unmarshal host) = some a
  /-- `Marshal` after `Unmarshal` restores the bytes. -/
  restores_bytes : ∀ bytes, bytes.length = L.size → ∃ a, L.unmarshal host bytes = some a ∧
    ∀ buffer, L.size ≤ buffer.length →
      (L.marshal host a buffer).map (List.take L.size) = some bytes
  /-- `Marshal` writes the first `Size()` bytes, with what does not depend on the buffer, and
  leaves the others as they are. -/
  writes_exactly : ∀ a, ∃ bytes, bytes.length = L.size ∧ ∀ buffer, L.size ≤ buffer.length →
    L.marshal host a buffer = some (bytes ++ buffer.drop L.size)
  /-- It has no room in any smaller buffer. -/
  needs_size : ∀ a buffer, buffer.length < L.size → L.marshal host a buffer = none

variable {L} {host : ByteOrder} {a : α} {buffer : List UInt8}

@[simp] lemma fields_length (a : α) : (L.fields a).length = L.count := by
  have hfields := L.fields_assign fun k => (L.fields a).getD k 0
  rw [L.assign_fields] at hfields
  rw [hfields, List.length_map, List.length_range]

@[simp] lemma bytes_length (a : α) : (L.bytes a).length = L.size := by
  rw [bytes, flatMap_toNetwork_length, fields_length, L.size_eq]

/-- `assign` looks at the first `count` integers only. -/
lemma assign_getD (net : ℕ → ℤ) :
    L.assign (fun k => ((List.range L.count).map net).getD k 0) = L.assign net := by
  rw [← L.fields_assign, L.assign_fields]

lemma decode_eq (bytes : List UInt8) :
    L.decode bytes = L.assign fun k => (intsOf bytes L.count).getD k 0 :=
  (assign_getD _).symm

theorem marshal_eq (h : L.size ≤ buffer.length) :
    L.marshal host a buffer = some (L.bytes a ++ buffer.drop L.size) := by
  have hroom : 0 + 4 * (L.fields a).length ≤ buffer.length := by
    rw [fields_length, Nat.zero_add, ← L.size_eq]
    exact h
  rw [marshal, marshalInts_eq hroom, overwrite, List.take_zero, List.nil_append, Nat.zero_add]
  exact congrArg (fun n => some (L.bytes a ++ buffer.drop n)) (bytes_length a)

theorem marshal_eq_none (h : buffer.length < L.size) : L.marshal host a buffer = none := by
  have hlength := fields_length (L := L) a
  rw [L.size_eq] at h
  refine marshalInts_eq_none (by omega) fun hnil => ?_
  rw [hnil, List.length_nil] at hlength
  omega

theorem unmarshal_eq (h : L.size ≤ buffer.length) :
    L.unmarshal host buffer = some (L.decode buffer) := by
  rw [L.size_eq] at h
  rw [unmarshal, unmarshalInts_eq (by omega), List.drop_zero, Option.map_some, decode_eq]

theorem decode_bytes (h : L.Fits a) (rest : List UInt8) : L.decode (L.bytes a ++ rest) = a := by
  rw [decode_eq, bytes, ← fields_length a, intsOf_flatMap h, L.assign_fields]

/-- Nothing behind the first `Size()` bytes is looked at. -/
lemma decode_take (bytes : List UInt8) : L.decode (bytes.take L.size) = L.decode bytes := by
  rw [decode_eq, decode_eq, L.size_eq, intsOf_take]

theorem bytes_decode {bytes : List UInt8} (h : bytes.length = L.size) :
    L.bytes (L.decode bytes) = bytes := by
  rw [Layout.bytes, decode, L.fields_assign]
  exact flatMap_intsOf (h.trans L.size_eq)

/-- **Marshalling by a layout.** -/
theorem roundTrips (L : Layout α) (host : ByteOrder) : L.RoundTrips host where
  restores_object a hfits buffer hroom := by
    have hlen : L.size ≤ (L.bytes a ++ buffer.drop L.size).length := by simp
    rw [marshal_eq hroom, Option.bind_some, unmarshal_eq hlen, decode_bytes hfits]
  restores_bytes bytes hlen := by
    refine ⟨L.decode bytes, unmarshal_eq hlen.ge, fun buffer hroom => ?_⟩
    rw [marshal_eq hroom, bytes_decode hlen, Option.map_some, List.take_left' hlen]
  writes_exactly a := ⟨L.bytes a, bytes_length a, fun _ => marshal_eq⟩
  needs_size _ _ := marshal_eq_none

end Layout

end LaptopRaft
