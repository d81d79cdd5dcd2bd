import LaptopRaft.Framework.Simulation
import Mathlib.Logic.Function.Basic
import Mathlib.Data.List.Infix

/-!
# One history, applied by many replicas

What a replicated log is for, without leaders, messages or terms: there is one history of
operations, which grows at its end, and each replica has applied a beginning of it, which grows as
well.  Whoever reads at a replica is answered from what the replica has applied.

`replicas eval` is this as a system, of which only the reads are observed.  `Versioned` is what
readers can rely on: every answer is that of some version of the one history, and at any one
replica the versions do not go back (`versioned_of_run`).

`Replicas.path_grow` and `Replicas.path_apply` give the steps, for a simulation by this system.
-/

namespace LaptopRaft

/-- The history, and how much of it each replica has applied. -/
structure Replicas (ι α : Type*) where
  history : List α
  applied : ι → ℕ
  applied_le : ∀ i, applied i ≤ history.length

inductive ReplicaLabel (ι α κ : Type*)
  | extend (a : α)
  | apply (i : ι)
  | read (i : ι) (k : κ)

/-- A question asked at a replica, and what it was answered. -/
structure Reading (ι κ β : Type*) where
  replica : ι
  question : κ
  answer : β
deriving DecidableEq

namespace Replicas

variable {ι α : Type*} (r : Replicas ι α)

def empty : Replicas ι α := ⟨[], fun _ => 0, fun _ => Nat.zero_le _⟩

/-- What a replica has applied. -/
def view (i : ι) : List α := r.history.take (r.applied i)

def extend (a : α) : Replicas ι α where
  history := r.history ++ [a]
  applied := r.applied
  applied_le i := (r.applied_le i).trans (by simp)

variable [DecidableEq ι]

lemma update_le {h : List α} {applied : ι → ℕ} (hle : ∀ i, applied i ≤ h.length) {i : ι} {k : ℕ}
    (hk : k ≤ h.length) (j : ι) : Function.update applied i k j ≤ h.length := by
  by_cases hj : j = i
  · subst hj
    rw [Function.update_self]
    exact hk
  · rw [Function.update_of_ne hj]
    exact hle j

/-- Replica `i` applies the next operation, if there is one. -/
def apply (i : ι) : Option (Replicas ι α) :=
  if h : r.applied i < r.history.length then
    some ⟨r.history, Function.update r.applied i (r.applied i + 1), update_le r.applied_le h⟩
  else none

lemma apply_cases {r r' : Replicas ι α} {i : ι} (h : r.apply i = some r') :
    r'.history = r.history ∧ ∀ j, r.applied j ≤ r'.applied j := by
  unfold apply at h
  split at h
  · obtain rfl := Option.some.inj h
    refine ⟨rfl, fun j => ?_⟩
    show r.applied j ≤ Function.update r.applied i (r.applied i + 1) j
    by_cases hj : j = i
    · subst hj
      rw [Function.update_self]
      exact Nat.le_succ _
    · rw [Function.update_of_ne hj]
  · cases h

end Replicas

variable {ι α κ β : Type*} {eval : List α → κ → β}

/-! ## What readers can rely on -/

/-- The reads with the version of the history each was answered from. -/
structure Versioned (eval : List α → κ → β) (history : List α)
    (reads : List (Reading ι κ β × ℕ)) : Prop where
  bounded : ∀ p ∈ reads, p.2 ≤ history.length
  answered : ∀ p ∈ reads, p.1.answer = eval (history.take p.2) p.1.question
  /-- At one replica, versions do not go back. -/
  forward : reads.Pairwise fun p q => p.1.replica = q.1.replica → p.2 ≤ q.2

lemma Versioned.extend {history more : List α} {reads : List (Reading ι κ β × ℕ)}
    (h : Versioned eval history reads) : Versioned eval (history ++ more) reads := by
  refine ⟨fun p hp => (h.bounded p hp).trans (by simp), fun p hp => ?_, h.forward⟩
  rw [h.answered p hp, List.take_append_of_le_length (h.bounded p hp)]

/-- A read of the newest version of some replica. -/
lemma Versioned.concat {history : List α} {reads : List (Reading ι κ β × ℕ)}
    (h : Versioned eval history reads) {i : ι} {k : κ} {v : ℕ} (hv : v ≤ history.length)
    (hnew : ∀ p ∈ reads, p.1.replica = i → p.2 ≤ v) :
    Versioned eval history (reads ++ [(⟨i, k, eval (history.take v) k⟩, v)]) := by
  refine ⟨fun p hp => ?_, fun p hp => ?_, ?_⟩
  · rcases List.mem_append.1 hp with hold | hlast
    · exact h.bounded p hold
    · rw [List.mem_singleton.1 hlast]
      exact hv
  · rcases List.mem_append.1 hp with hold | hlast
    · exact h.answered p hold
    · rw [List.mem_singleton.1 hlast]
  · rw [List.pairwise_append]
    refine ⟨h.forward, List.pairwise_singleton _ _, fun p hp q hq hsame => ?_⟩
    rw [List.mem_singleton.1 hq] at hsame ⊢
    exact hnew p hp hsame

/-! ## The system -/

section System

variable [DecidableEq ι]

/-- **The replicas and their readers.**  `eval` answers a question from a list of operations. -/
def replicas (eval : List α → κ → β) :
    TransitionSystem (Replicas ι α) (ReplicaLabel ι α κ) (Reading ι κ β) where
  init r := r = Replicas.empty
  step r
    | .extend a => some (r.extend a, [])
    | .apply i => (r.apply i).map fun r => (r, [])
    | .read i k => some (r, [⟨i, k, eval (r.view i) k⟩])

variable {r : Replicas ι α} {tr : List (Reading ι κ β)}

namespace Replicas

lemma path_extend (r : Replicas ι α) (more : List α) (hle : ∀ i, r.applied i ≤
    (r.history ++ more).length) : (replicas eval).Path TransitionSystem.anyStep (r, tr)
      (⟨r.history ++ more, r.applied, hle⟩, tr) := by
  induction more using List.reverseRecOn with
  | nil =>
      simp only [List.append_nil]
      exact .refl
  | append_singleton more a ih =>
      have hle' : ∀ i, r.applied i ≤ (r.history ++ more).length := fun i =>
        (r.applied_le i).trans (by simp)
      refine (ih hle').tail ⟨.extend a, [], trivial, ?_, (List.append_nil tr).symm⟩
      simp only [replicas, extend, List.append_assoc]

/-- The history grows. -/
theorem path_grow (r : Replicas ι α) {history : List α} (hgrow : r.history <+: history) :
    ∃ hle, (replicas eval).Path TransitionSystem.anyStep (r, tr)
      (⟨history, r.applied, hle⟩, tr) := by
  obtain ⟨more, rfl⟩ := hgrow
  have hle : ∀ j, r.applied j ≤ (r.history ++ more).length := fun j =>
    (r.applied_le j).trans (by simp)
  exact ⟨hle, path_extend r more hle⟩

/-- One replica applies the next operation. -/
theorem path_apply (r : Replicas ι α) {i : ι} (hlt : r.applied i < r.history.length) :
    ∃ hle, (replicas eval).Path TransitionSystem.anyStep (r, tr)
      (⟨r.history, Function.update r.applied i (r.applied i + 1), hle⟩, tr) := by
  refine ⟨update_le r.applied_le hlt,
    .single ⟨.apply i, [], trivial, ?_, (List.append_nil tr).symm⟩⟩
  simp only [replicas, apply, hlt, dif_pos, Option.map_some]

end Replicas

/-- **Every read is of some version of the history**, and no replica goes back to an older one. -/
theorem versioned_of_run (hrun : (replicas eval).Run TransitionSystem.anyStep r tr) :
    ∃ reads, reads.map Prod.fst = tr ∧ Versioned eval r.history reads ∧
      ∀ p ∈ reads, p.2 ≤ r.applied p.1.replica := by
  refine TransitionSystem.Run.invariant (I := fun (r : Replicas ι α) tr =>
    ∃ reads, reads.map Prod.fst = tr ∧ Versioned eval r.history reads ∧
      ∀ p ∈ reads, p.2 ≤ r.applied p.1.replica) ?_ ?_ hrun
  · rintro _ rfl
    exact ⟨[], rfl, ⟨by simp, by simp, List.Pairwise.nil⟩, by simp⟩
  · rintro r tr l r' es - ⟨reads, rfl, hversioned, happlied⟩ - hst
    cases l with
    | extend a =>
        obtain ⟨rfl, rfl⟩ := Prod.mk.inj (Option.some.inj hst)
        exact ⟨reads, (List.append_nil _).symm, hversioned.extend, happlied⟩
    | apply i =>
        obtain ⟨r₁, happly, hp⟩ := Option.map_eq_some_iff.1 hst
        obtain ⟨rfl, rfl⟩ := Prod.mk.inj hp
        obtain ⟨hhistory, hle⟩ := Replicas.apply_cases happly
        rw [hhistory]
        exact ⟨reads, (List.append_nil _).symm, hversioned, fun p hp =>
          (happlied p hp).trans (hle _)⟩
    | read i k =>
        obtain ⟨rfl, rfl⟩ := Prod.mk.inj (Option.some.inj hst)
        refine ⟨reads ++ [(⟨i, k, eval (r.view i) k⟩, r.applied i)], by simp,
          hversioned.concat (r.applied_le i) fun p hp hi => by rw [← hi]; exact happlied p hp,
          fun p hp => ?_⟩
        rcases List.mem_append.1 hp with hold | hlast
        · exact happlied p hold
        · rw [List.mem_singleton.1 hlast]

end System

end LaptopRaft
