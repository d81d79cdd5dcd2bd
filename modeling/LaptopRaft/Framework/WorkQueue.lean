import Mathlib.Algebra.BigOperators.Group.Finset.Basic
import Mathlib.Data.Fintype.Basic
import Mathlib.Data.Multiset.Range

/-!
# A queue and its workers

Tasks arrive and are numbered in order of arrival.  Each waits in a queue until one of the
workers `ι` takes it; the worker has it in hand until it is done.

That no task is lost and none is there twice is part of the type: `balanced` says that the tasks
that have arrived are those in the queue, those in hand and those done, each in one place, and
`ordered` that they are taken in the order of their arrival.  The three operations keep both.
What is proved about a program is then that its data follow these operations.
-/

namespace LaptopRaft

/-- What a worker has in hand, as a multiset. -/
def tasks : Option ℕ → Multiset ℕ
  | some k => {k}
  | none => 0

@[simp] lemma tasks_some (k : ℕ) : tasks (some k) = {k} := rfl

@[simp] lemma tasks_none : tasks none = 0 := rfl

section InHand

variable {ι : Type*} [Fintype ι]

/-- What all the workers have in hand. -/
def inHand (held : ι → Option ℕ) : Multiset ℕ := ∑ i, tasks (held i)

/-- One worker exchanges what it has in hand. -/
lemma inHand_update [DecidableEq ι] (held : ι → Option ℕ) (i : ι) (o : Option ℕ) :
    tasks (held i) + inHand (Function.update held i o) = inHand held + tasks o := by
  have hothers : ∑ j ∈ Finset.univ.erase i, tasks (Function.update held i o j) =
      ∑ j ∈ Finset.univ.erase i, tasks (held j) := by
    refine Finset.sum_congr rfl fun j hj => ?_
    rw [Function.update_of_ne (Finset.ne_of_mem_erase hj)]
  unfold inHand
  rw [← Finset.add_sum_erase _ _ (Finset.mem_univ i),
    ← Finset.add_sum_erase _ (fun j => tasks (held j)) (Finset.mem_univ i), hothers,
    Function.update_self]
  simp only [add_assoc, add_comm (tasks o)]

end InHand

/-- The tasks that have arrived, and where they are. -/
structure WorkQueue (ι : Type*) [Fintype ι] where
  arrived : ℕ
  queue : List ℕ
  held : ι → Option ℕ
  done : List ℕ
  /-- The tasks that were taken from the queue, in this order. -/
  taken : List ℕ
  balanced : Multiset.range arrived = queue + inHand held + done
  ordered : List.range arrived = taken ++ queue

namespace WorkQueue

variable {ι : Type*} [Fintype ι]

def empty : WorkQueue ι where
  arrived := 0
  queue := []
  held _ := none
  done := []
  taken := []
  balanced := by simp [inHand]
  ordered := rfl

variable (w : WorkQueue ι)

/-! ## What the type says -/

/-- No task is taken twice, and none that has been taken is still in the queue. -/
theorem taken_nodup : (w.taken ++ w.queue).Nodup := w.ordered ▸ List.nodup_range

lemma lt_of_mem_queue {k : ℕ} (hk : k ∈ w.queue) : k < w.arrived :=
  List.mem_range.1 (w.ordered ▸ List.mem_append_right _ hk)

lemma lt_of_mem_taken {k : ℕ} (hk : k ∈ w.taken) : k < w.arrived :=
  List.mem_range.1 (w.ordered ▸ List.mem_append_left _ hk)

lemma lt_of_mem_done {k : ℕ} (hk : k ∈ w.done) : k < w.arrived := by
  rw [← Multiset.mem_range, w.balanced]
  exact Multiset.mem_add.2 (Or.inr hk)

lemma lt_of_held {i : ι} {k : ℕ} (hk : w.held i = some k) : k < w.arrived := by
  have hin : k ∈ inHand w.held :=
    Multiset.mem_sum.2 ⟨i, Finset.mem_univ i, by rw [hk]; exact Multiset.mem_singleton_self k⟩
  rw [← Multiset.mem_range, w.balanced]
  exact Multiset.mem_add.2 (Or.inl (Multiset.mem_add.2 (Or.inr hin)))

/-! ## The operations -/

/-- A task arrives. -/
def arrive : WorkQueue ι :=
  { w with
    arrived := w.arrived + 1
    queue := w.queue ++ [w.arrived]
    balanced := by
      rw [Multiset.range_succ, w.balanced, ← Multiset.singleton_add, ← Multiset.coe_add,
        Multiset.coe_singleton]
      simp only [add_assoc, add_left_comm {w.arrived}]
    ordered := by
      rw [List.range_succ, w.ordered, List.append_assoc] }

variable [DecidableEq ι]

/-- Worker `i`, if it is free, takes the next task. -/
def take (i : ι) : WorkQueue ι :=
  match hqueue : w.queue, hheld : w.held i with
  | k :: rest, none =>
      { w with
        queue := rest
        held := Function.update w.held i (some k)
        taken := w.taken ++ [k]
        balanced := by
          have hin := inHand_update w.held i (some k)
          simp only [hheld, tasks_none, tasks_some, zero_add] at hin
          rw [w.balanced, hqueue, hin, ← Multiset.cons_coe, ← Multiset.singleton_add]
          simp only [add_assoc, add_left_comm {k}]
        ordered := by
          rw [w.ordered, hqueue, List.append_assoc, List.singleton_append] }
  | _, _ => w

/-- Worker `i` is done with its task. -/
def finish (i : ι) : WorkQueue ι :=
  match hheld : w.held i with
  | some k =>
      { w with
        held := Function.update w.held i none
        done := w.done ++ [k]
        balanced := by
          have hin := inHand_update w.held i none
          simp only [hheld, tasks_none, tasks_some, add_zero] at hin
          rw [w.balanced, ← hin, ← Multiset.coe_add, Multiset.coe_singleton]
          simp only [add_assoc, add_comm {k}] }
  | none => w

/-! ## What the operations do -/

variable {w} {i : ι} {k : ℕ} {rest : List ℕ}

lemma take_eq (hqueue : w.queue = k :: rest) (hheld : w.held i = none) :
    (w.take i).arrived = w.arrived ∧ (w.take i).queue = rest ∧
      (w.take i).held = Function.update w.held i (some k) ∧ (w.take i).done = w.done ∧
      (w.take i).taken = w.taken ++ [k] := by
  unfold take
  split
  · rename_i hqueue' hheld'
    rw [hqueue, List.cons.injEq] at hqueue'
    obtain ⟨rfl, rfl⟩ := hqueue'
    exact ⟨rfl, rfl, rfl, rfl, rfl⟩
  · rename_i hnot
    exact absurd hheld (hnot k rest hqueue)

lemma finish_eq (hheld : w.held i = some k) :
    (w.finish i).arrived = w.arrived ∧ (w.finish i).queue = w.queue ∧
      (w.finish i).held = Function.update w.held i none ∧ (w.finish i).done = w.done ++ [k] ∧
      (w.finish i).taken = w.taken := by
  unfold finish
  split
  · rename_i hheld'
    rw [hheld, Option.some.injEq] at hheld'
    subst hheld'
    exact ⟨rfl, rfl, rfl, rfl, rfl⟩
  · rename_i hnone
    rw [hheld] at hnone
    cases hnone

end WorkQueue

end LaptopRaft
