import LaptopRaft.Framework.LogMatching
import Mathlib.Logic.Relation
import Mathlib.Order.WellFounded

/-!
# Bringing a log up to date by trial and error

A sender with a fixed log `L` keeps a position `x` for a receiver with log `P`.  While `x` is not
the length of `L` it offers the entry at `x`: a receiver that agrees with it just before `x` moves
the position up and appends the entry if its log ends there, any other moves the position down.
Entries are never removed, and only their terms are compared.

* `Repairable` says that some agreeing position at or below `x` has no disagreement above it, the
  last position of `L` apart.  An exchange neither creates nor destroys this
  (`repairable_exchange`), and without it the position never reaches the end
  (`exchange_ne_length`): it goes back and forth below the disagreement.
* With it, `distance` decreases in every exchange (`distance_exchange`).

`reaches_of_measure` is the rule that turns a decreasing measure into a terminating run.
-/

namespace LaptopRaft

/-- **Progress.**  If every state that satisfies `I` is final or has a step to a smaller one
that satisfies `I`, a final state is reached. -/
theorem reaches_of_measure {σ β : Type*} [LT β] [WellFoundedLT β] {r : σ → σ → Prop}
    {I final : σ → Prop} (m : σ → β)
    (hprogress : ∀ a, I a → ¬ final a → ∃ b, r a b ∧ I b ∧ m b < m a) {a : σ} (ha : I a) :
    ∃ b, Relation.ReflTransGen r a b ∧ I b ∧ final b := by
  have hwf : WellFounded fun a b => m a < m b := InvImage.wf m wellFounded_lt
  induction a using hwf.induction with
  | h a ih =>
      by_cases hfinal : final a
      · exact ⟨a, .refl, ha, hfinal⟩
      · obtain ⟨b, hab, hb, hlt⟩ := hprogress a ha hfinal
        obtain ⟨z, hbz, hz⟩ := ih b hlt hb
        exact ⟨z, .head hab hbz, hz⟩

section CatchUp

variable {α τ : Type*} (term : α → τ) (L : List α)

/-- The two logs have the same term at index `j`. -/
def MatchAt (P : List α) (j : ℕ) : Prop := P[j]?.map term = L[j]?.map term

/-- The receiver's log reaches position `x`, and the last term before it is the sender's. -/
def AgreesAt (P : List α) (x : ℕ) : Prop :=
  x ≤ P.length ∧ (x ≠ 0 → MatchAt term L P (x - 1))

instance [DecidableEq τ] (P : List α) (j : ℕ) : Decidable (MatchAt term L P j) :=
  inferInstanceAs (Decidable (_ = _))

instance [DecidableEq τ] (P : List α) (x : ℕ) : Decidable (AgreesAt term L P x) :=
  inferInstanceAs (Decidable (_ ∧ _))

/-- The receiver's log after it has accepted the entry at `x`. -/
def accepted (P : List α) (x : ℕ) : List α := if P.length = x then P ++ L[x]?.toList else P

/-- One offer and its answer. -/
def exchange [DecidableEq τ] (p : ℕ × List α) : ℕ × List α :=
  if AgreesAt term L p.2 p.1 then (p.1 + 1, accepted L p.2 p.1) else (p.1 - 1, p.2)

/-- Some agreeing position `k` at or below `x` has no disagreement between it and the last
position of `L`. -/
def Repairable (x : ℕ) (P : List α) : Prop :=
  ∃ k ≤ x, AgreesAt term L P k ∧
    ∀ j, k ≤ j → j < P.length → j + 1 < L.length → MatchAt term L P j

/-- How many exchanges may still be needed. -/
def distance [DecidableEq τ] (x : ℕ) (P : List α) : ℕ :=
  if x = L.length then 0
  else if AgreesAt term L P x then L.length - x
  else L.length + 1 + x

variable {term L} {P : List α} {x : ℕ}

lemma agreesAt_zero : AgreesAt term L P 0 := ⟨Nat.zero_le _, fun h => absurd rfl h⟩

lemma accepted_getElem?_of_lt {j : ℕ} (hj : j < P.length) : (accepted L P x)[j]? = P[j]? := by
  unfold accepted
  split
  · exact List.getElem?_append_left hj
  · rfl

lemma length_accepted (hx : x < L.length) :
    (accepted L P x).length = if P.length = x then x + 1 else P.length := by
  unfold accepted
  split
  · rename_i hlen
    simp [hlen, hx]
  · rfl

/-- The accepted entry matches. -/
lemma matchAt_accepted (hx : x < L.length) (hlen : P.length = x) :
    MatchAt term L (accepted L P x) x := by
  subst hlen
  simp [MatchAt, accepted, hx]

lemma matchAt_accepted_of_lt {j : ℕ} (hj : j < P.length) :
    MatchAt term L (accepted L P x) j ↔ MatchAt term L P j := by
  rw [MatchAt, MatchAt, accepted_getElem?_of_lt hj]

lemma agreesAt_accepted {k : ℕ} (hk : k ≤ P.length) :
    AgreesAt term L (accepted L P x) k ↔ AgreesAt term L P k := by
  have hmono : P.length ≤ (accepted L P x).length := by
    unfold accepted
    split <;> simp
  unfold AgreesAt
  by_cases hzero : k = 0
  · simp [hzero]
  · rw [matchAt_accepted_of_lt (show k - 1 < P.length by omega)]
    exact and_congr_left fun _ => ⟨fun _ => hk, fun _ => hk.trans hmono⟩

/-- An accepted entry brings no disagreement with it. -/
lemma Repairable.accepted (h : Repairable term L x P) (hx : x < L.length)
    (hagree : AgreesAt term L P x) : Repairable term L (x + 1) (accepted L P x) := by
  obtain ⟨k, hk, hk', hmatch⟩ := h
  refine ⟨k, by omega, (agreesAt_accepted hk'.1).2 hk', fun j hj hlt hend => ?_⟩
  by_cases hold : j < P.length
  · exact (matchAt_accepted_of_lt hold).2 (hmatch j hj hold hend)
  · rw [length_accepted hx] at hlt
    split at hlt
    · rename_i hlen
      obtain rfl : j = x := by omega
      exact matchAt_accepted hx hlen
    · exact absurd hlt hold

lemma Repairable.of_accepted (h : Repairable term L (x + 1) (LaptopRaft.accepted L P x))
    (hx : x < L.length) (hagree : AgreesAt term L P x) : Repairable term L x P := by
  obtain ⟨k, hk, hk', hmatch⟩ := h
  have hback : ∀ j, k ≤ j → j < P.length → j + 1 < L.length → MatchAt term L P j := by
    intro j hj hlt hend
    refine (matchAt_accepted_of_lt hlt).1 (hmatch j hj ?_ hend)
    rw [length_accepted hx]
    split <;> omega
  have hreach := hagree.1
  rcases Nat.lt_or_ge x k with hlast | hle
  · -- the agreeing position is the new one, so the old one agrees as well
    obtain rfl : k = x + 1 := by omega
    refine ⟨x, le_refl x, hagree, fun j hj hlt hend => ?_⟩
    rcases Nat.lt_or_ge x j with habove | hat
    · exact hback j habove hlt hend
    · obtain rfl : j = x := by omega
      exact (matchAt_accepted_of_lt hlt).1 (hk'.2 (Nat.succ_ne_zero _))
  · exact ⟨k, hle, (agreesAt_accepted (hle.trans hreach)).1 hk', hback⟩

/-- A receiver that holds a beginning of the sender's log. -/
lemma repairable_of_isPrefix (h : P <+: L) : Repairable term L x P := by
  refine ⟨0, Nat.zero_le x, agreesAt_zero, fun j _ hlt _ => ?_⟩
  have hget : P[j]? = some P[j] := List.getElem?_eq_getElem hlt
  rw [MatchAt, hget, getElem?_of_isPrefix h hget]

variable [DecidableEq τ]

/-- **An exchange decides nothing**: what could be repaired before it can be repaired after it,
and conversely. -/
theorem repairable_exchange (hx : x < L.length) :
    Repairable term L (exchange term L (x, P)).1 (exchange term L (x, P)).2 ↔
      Repairable term L x P := by
  unfold exchange
  dsimp only
  by_cases hagree : AgreesAt term L P x
  · rw [if_pos hagree]
    exact ⟨fun h => h.of_accepted hx hagree, fun h => h.accepted hx hagree⟩
  · rw [if_neg hagree]
    constructor
    · rintro ⟨k, hk, h⟩
      exact ⟨k, by omega, h⟩
    · rintro ⟨k, hk, hk', h⟩
      have hne : k ≠ x := fun heq => hagree (heq ▸ hk')
      exact ⟨k, by omega, hk', h⟩

/-- A position that cannot be repaired does not reach the end. -/
theorem exchange_ne_length (hx : x < L.length) (h : ¬ Repairable term L x P) :
    (exchange term L (x, P)).1 ≠ L.length := by
  unfold exchange
  dsimp only
  by_cases hagree : AgreesAt term L P x
  · rw [if_pos hagree]
    intro hend
    exact h ⟨x, le_refl x, hagree, fun j hj _ hlt => absurd hlt (by omega)⟩
  · rw [if_neg hagree]
    omega

/-- **Every exchange brings the end nearer**, when it can be reached at all. -/
theorem distance_exchange (hx : x < L.length) (h : Repairable term L x P) :
    distance term L (exchange term L (x, P)).1 (exchange term L (x, P)).2 <
      distance term L x P := by
  have hne : x ≠ L.length := hx.ne
  by_cases hagree : AgreesAt term L P x
  · have hnow : distance term L x P = L.length - x := by
      rw [distance, if_neg hne, if_pos hagree]
    have hmoved : exchange term L (x, P) = (x + 1, accepted L P x) := if_pos hagree
    rw [hnow, hmoved]
    by_cases hend : x + 1 = L.length
    · rw [distance, if_pos hend]
      omega
    · have hnext : AgreesAt term L (accepted L P x) (x + 1) := by
        have hlen := length_accepted (P := P) hx
        by_cases hlast : P.length = x
        · rw [if_pos hlast] at hlen
          exact ⟨hlen.ge, fun _ => matchAt_accepted hx hlast⟩
        · -- an entry above the position was compared when it was repaired
          obtain ⟨k, hk, -, hmatch⟩ := h
          have hlt : x < P.length := lt_of_le_of_ne hagree.1 (Ne.symm hlast)
          rw [agreesAt_accepted hlt]
          exact ⟨hlt, fun _ => hmatch x hk hlt (by omega)⟩
      rw [distance, if_neg hend, if_pos hnext]
      omega
  · have hnow : distance term L x P = L.length + 1 + x := by
      rw [distance, if_neg hne, if_neg hagree]
    have hpos : x ≠ 0 := fun hzero => hagree (hzero ▸ agreesAt_zero)
    have hmoved : exchange term L (x, P) = (x - 1, P) := if_neg hagree
    rw [hnow, hmoved, distance]
    split
    · omega
    · split <;> omega

/-- A receiver that holds exactly the entries before the position gets the next one. -/
lemma exchange_take (hx : x < L.length) :
    exchange term L (x, L.take x) = (x + 1, L.take (x + 1)) := by
  have hlen : (L.take x).length = x := by
    rw [List.length_take]
    omega
  have hagree : AgreesAt term L (L.take x) x := by
    refine ⟨hlen.ge, fun hne => ?_⟩
    rw [MatchAt, List.getElem?_take_of_lt (by omega)]
  unfold exchange
  rw [if_pos hagree]
  unfold accepted
  rw [if_pos hlen, List.take_add_one]

/-- A receiver that has a prefix of the log goes on to have one. -/
lemma accepted_isPrefix (h : P <+: L) : accepted L P x <+: L := by
  unfold accepted
  split
  · rename_i hlen
    obtain ⟨more, rfl⟩ := h
    rw [← hlen, List.getElem?_append_right le_rfl, Nat.sub_self, List.prefix_append_right_inj]
    cases more with
    | nil => exact List.prefix_rfl
    | cons a more => exact ⟨more, rfl⟩
  · exact h

/-- The last entry completes it. -/
lemma accepted_last (h : P <+: L) (hreach : x ≤ P.length) (hlast : x + 1 = L.length) :
    accepted L P x = L := by
  refine (accepted_isPrefix h).eq_of_length_le ?_
  rw [length_accepted (by omega)]
  split <;> omega

lemma exchange_fst_le (hx : x < L.length) : (exchange term L (x, P)).1 ≤ L.length := by
  unfold exchange
  split
  · exact hx
  · exact (Nat.sub_le x 1).trans hx.le

lemma exchange_isPrefix (h : P <+: L) : (exchange term L (x, P)).2 <+: L := by
  unfold exchange
  split
  · exact accepted_isPrefix h
  · exact h

/-- A position that reaches the end leaves the whole log behind. -/
lemma exchange_completes (h : P <+: L) (hx : x < L.length)
    (hend : (exchange term L (x, P)).1 = L.length) : (exchange term L (x, P)).2 = L := by
  unfold exchange at hend ⊢
  split at hend
  · rename_i hagree
    rw [if_pos hagree]
    exact accepted_last h hagree.1 hend
  · dsimp only at hend
    omega

end CatchUp

end LaptopRaft
