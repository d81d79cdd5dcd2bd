import Mathlib.Data.Finset.Card
import Mathlib.Data.List.Basic

/-!
# Quorums

A quorum of a finite set of members is a subset of more than half of them.  Any two quorums
meet (smaller sets need not: `exists_disjoint_subsets`), and what a quorum witnesses stays
witnessed.  `HasQuorum.of_slots` finds the quorum behind an array with a slot for each member,
more than half of which satisfy a test.
-/

namespace LaptopRaft

variable {α : Type*} {members Q Q' : Finset α}

structure IsQuorum (members Q : Finset α) : Prop where
  subset : Q ⊆ members
  majority : members.card < 2 * Q.card

/-- **Quorums intersect.** -/
theorem IsQuorum.meet [DecidableEq α] (h : IsQuorum members Q) (h' : IsQuorum members Q') :
    ∃ x, x ∈ Q ∧ x ∈ Q' := by
  by_contra hnone
  have hdisjoint : Disjoint Q Q' :=
    Finset.disjoint_left.2 fun x hx hx' => hnone ⟨x, hx, hx'⟩
  have hunion : (Q ∪ Q').card ≤ members.card :=
    Finset.card_le_card (Finset.union_subset h.subset h'.subset)
  rw [Finset.card_union_of_disjoint hdisjoint] at hunion
  have hQ := h.majority
  have hQ' := h'.majority
  omega

/-- Disjoint subsets of any two sizes that fit together. -/
lemma exists_disjoint_subsets [DecidableEq α] {m n : ℕ} (hfit : m + n ≤ members.card) :
    ∃ V W, V ⊆ members ∧ W ⊆ members ∧ Disjoint V W ∧ V.card = m ∧ W.card = n := by
  obtain ⟨V, hV, hVcard⟩ := Finset.exists_subset_card_eq (show m ≤ members.card by omega)
  have hrest : n ≤ (members \ V).card := by
    rw [Finset.card_sdiff_of_subset hV]
    omega
  obtain ⟨W, hW, hWcard⟩ := Finset.exists_subset_card_eq hrest
  refine ⟨V, W, hV, hW.trans Finset.sdiff_subset, ?_, hVcard, hWcard⟩
  exact Finset.disjoint_sdiff.mono_right hW

/-- Some quorum of `members` has the property. -/
def HasQuorum (members : Finset α) (p : α → Prop) : Prop :=
  ∃ Q, IsQuorum members Q ∧ ∀ x ∈ Q, p x

lemma HasQuorum.mono {p q : α → Prop} (h : HasQuorum members p) (himp : ∀ x, p x → q x) :
    HasQuorum members q := by
  obtain ⟨Q, hQ, hall⟩ := h
  exact ⟨Q, hQ, fun x hx => himp x (hall x hx)⟩

/-- Two properties with a quorum each have a common witness. -/
theorem HasQuorum.meet [DecidableEq α] {p q : α → Prop} (hp : HasQuorum members p)
    (hq : HasQuorum members q) : ∃ x ∈ members, p x ∧ q x := by
  obtain ⟨Q, hQ, hpQ⟩ := hp
  obtain ⟨Q', hQ', hqQ'⟩ := hq
  obtain ⟨x, hx, hx'⟩ := hQ.meet hQ'
  exact ⟨x, hQ.subset hx, hpQ x hx, hqQ' x hx'⟩

/-! ## Counting slots -/

section Slots

variable {β : Type*} {slots : List α} {xs : List β} {p : β → Bool}

/-- The members whose slot satisfies the test. -/
def marked (slots : List α) (xs : List β) (p : β → Bool) : List α :=
  ((slots.zip xs).filter (p ·.2)).map Prod.fst

lemma marked_sublist (hlen : xs.length = slots.length) : (marked slots xs p).Sublist slots := by
  have hall : (slots.zip xs).map Prod.fst = slots := List.map_fst_zip (by omega)
  have hsub := (List.filter_sublist (p := (p ·.2)) (l := slots.zip xs)).map Prod.fst
  rwa [hall] at hsub

lemma length_marked (hlen : xs.length = slots.length) :
    (marked slots xs p).length = xs.countP p := by
  have hall : (slots.zip xs).map Prod.snd = xs := List.map_snd_zip (by omega)
  rw [marked, List.length_map, ← List.countP_eq_length_filter]
  conv_rhs => rw [← hall]
  rw [List.countP_map]
  rfl

lemma of_mem_marked {x : α} (hx : x ∈ marked slots xs p) :
    ∃ (i : ℕ) (b : β), slots[i]? = some x ∧ xs[i]? = some b ∧ p b := by
  obtain ⟨⟨y, b⟩, hmem, rfl⟩ := List.mem_map.1 hx
  obtain ⟨hzip, hp⟩ := List.mem_filter.1 hmem
  obtain ⟨i, hi⟩ := List.mem_iff_getElem?.1 hzip
  obtain ⟨hy, hb⟩ := List.getElem?_zip_eq_some.1 hi
  exact ⟨i, b, hy, hb, hp⟩

/-- More than half of the slots of an array, one for each member, make a quorum. -/
theorem HasQuorum.of_slots [DecidableEq α] (hnodup : slots.Nodup)
    (hmembers : slots.toFinset = members) (hlen : xs.length = slots.length)
    (hmajority : xs.length < xs.countP p * 2) :
    HasQuorum members fun x => ∃ (i : ℕ) (b : β), slots[i]? = some x ∧ xs[i]? = some b ∧ p b := by
  have hsublist : (marked slots xs p).Sublist slots := marked_sublist hlen
  refine ⟨(marked slots xs p).toFinset, ?_, fun x hx => of_mem_marked (List.mem_toFinset.1 hx)⟩
  constructor
  · intro x hx
    rw [← hmembers, List.mem_toFinset]
    exact hsublist.subset (List.mem_toFinset.1 hx)
  · rw [List.toFinset_card_of_nodup (hnodup.sublist hsublist), length_marked hlen, ← hmembers,
      List.toFinset_card_of_nodup hnodup]
    omega

/-- A member whose slot satisfies the test. -/
lemma mem_marked {x : α} {i : ℕ} {b : β} (hx : slots[i]? = some x) (hb : xs[i]? = some b)
    (hp : p b) : x ∈ marked slots xs p := by
  refine List.mem_map.2 ⟨(x, b), List.mem_filter.2 ⟨?_, hp⟩, rfl⟩
  exact List.mem_of_getElem? (List.getElem?_zip_eq_some.2 ⟨hx, hb⟩)

/-- The slots of a quorum are more than half of the array. -/
theorem IsQuorum.majority_slots [DecidableEq α] (hQ : IsQuorum members Q) (hnodup : slots.Nodup)
    (hmembers : slots.toFinset = members) (hlen : xs.length = slots.length)
    (hmarked : ∀ x ∈ Q, ∃ (i : ℕ) (b : β), slots[i]? = some x ∧ xs[i]? = some b ∧ p b) :
    xs.length < xs.countP p * 2 := by
  have hsub : Q ⊆ (marked slots xs p).toFinset := by
    intro x hx
    obtain ⟨i, b, hi, hb, hp⟩ := hmarked x hx
    exact List.mem_toFinset.2 (mem_marked hi hb hp)
  have hcard : Q.card ≤ xs.countP p := by
    rw [← length_marked hlen]
    exact (Finset.card_le_card hsub).trans (List.toFinset_card_le _)
  have hmajority := hQ.majority
  rw [← hmembers, List.toFinset_card_of_nodup hnodup] at hmajority
  omega

end Slots

end LaptopRaft
