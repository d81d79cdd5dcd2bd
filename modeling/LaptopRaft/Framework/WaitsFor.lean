import Mathlib.Logic.Relation
import Mathlib.Order.WellFoundedSet

/-!
# Waiting for each other

A relation `R`, read as "waits for", is `Acyclic` when nobody waits, through a chain of others,
for itself.  Ending a wait keeps a relation acyclic (`Acyclic.mono`), and so does a new wait of
`a` for `b` unless `b` already waits for `a` through a chain (`Acyclic.add`).  A finite group each
of whose members waits for another has a cycle (`not_acyclic_of_group`), and a cycle is such a group
(`exists_group`).
-/

namespace LaptopRaft

open Relation

variable {α : Type*} {R R' : α → α → Prop} {a b : α}

def Acyclic (R : α → α → Prop) : Prop := ∀ x, ¬ TransGen R x x

lemma Acyclic.mono (h : Acyclic R) (hsub : ∀ x y, R' x y → R x y) : Acyclic R' :=
  fun x hcycle => h x (TransGen.mono hsub x x hcycle)

/-- A chain in the extended relation either does without the new wait, or passes through it. -/
lemma chain_cases (hnew : ∀ x y, R' x y → R x y ∨ (x = a ∧ y = b)) {x y : α}
    (h : TransGen R' x y) :
    TransGen R x y ∨ (ReflTransGen R x a ∧ ReflTransGen R b y) := by
  induction h with
  | single hxy =>
      rcases hnew _ _ hxy with hold | ⟨rfl, rfl⟩
      · exact Or.inl (.single hold)
      · exact Or.inr ⟨.refl, .refl⟩
  | tail _ hyz ih =>
      rcases hnew _ _ hyz with hold | ⟨rfl, rfl⟩
      · rcases ih with hchain | ⟨hto, hfrom⟩
        · exact Or.inl (hchain.tail hold)
        · exact Or.inr ⟨hto, hfrom.tail hold⟩
      · rcases ih with hchain | ⟨hto, -⟩
        · exact Or.inr ⟨hchain.to_reflTransGen, .refl⟩
        · exact Or.inr ⟨hto, .refl⟩

/-- **A new wait** closes no cycle if it is not for somebody who waits already. -/
theorem Acyclic.add (h : Acyclic R) (hnew : ∀ x y, R' x y → R x y ∨ (x = a ∧ y = b))
    (hnot : ¬ ReflTransGen R b a) : Acyclic R' := by
  intro x hcycle
  rcases chain_cases hnew hcycle with hold | ⟨hto, hfrom⟩
  · exact h x hold
  · exact hnot (hfrom.trans hto)

/-- Somebody in a finite group waits for nobody, if waits are acyclic. -/
theorem not_acyclic_of_group {K : Set α} (hfin : K.Finite) (hne : K.Nonempty)
    (hwaits : ∀ x ∈ K, ∃ y ∈ K, R x y) : ¬ Acyclic R := by
  intro hacyclic
  have hstrict : IsStrictOrder α (fun x y => TransGen R y x) :=
    { irrefl := hacyclic, trans := fun _ _ _ hyx hzy => hzy.trans hyx }
  have hwf : K.WellFoundedOn (fun x y => TransGen R y x) := hfin.wellFoundedOn
  obtain ⟨x, hx⟩ := hne
  refine hwf.induction hx (P := fun _ => False) fun y hy ih => ?_
  obtain ⟨z, hz, hyz⟩ := hwaits y hy
  exact ih z hz (.single hyz)

/-- Those who wait for `a` while `a` waits for them. -/
lemma exists_group (h : TransGen R a a) :
    ∃ K : Set α, K.Nonempty ∧ ∀ x ∈ K, ∃ y ∈ K, R x y := by
  refine ⟨{x | TransGen R a x ∧ TransGen R x a}, ⟨a, h, h⟩, ?_⟩
  rintro x ⟨hto, hback⟩
  obtain ⟨y, hxy, hya⟩ := TransGen.head'_iff.1 hback
  refine ⟨y, ⟨hto.tail hxy, ?_⟩, hxy⟩
  rcases reflTransGen_iff_eq_or_transGen.1 hya with rfl | hchain
  · exact h
  · exact hchain

/-- Everybody on a cycle waits for somebody who waits. -/
lemma waits_of_cycle (h : TransGen R a a) : ∃ b c, R a b ∧ R b c := by
  obtain ⟨b, hab, hba⟩ := TransGen.head'_iff.1 h
  rcases ReflTransGen.cases_head hba with rfl | ⟨c, hbc, -⟩
  · exact ⟨b, b, hab, hab⟩
  · exact ⟨b, c, hab, hbc⟩

/-- Somebody who waits for nobody is at the end of every chain. -/
lemma not_chain_of_idle (hidle : ∀ y, ¬ R b y) (hne : b ≠ a) : ¬ ReflTransGen R b a := by
  intro hchain
  rcases ReflTransGen.cases_head hchain with rfl | ⟨y, hby, -⟩
  · exact hne rfl
  · exact hidle y hby

end LaptopRaft
