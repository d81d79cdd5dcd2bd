import LaptopRaft.Framework.TransitionSystem
import Mathlib.Algebra.BigOperators.Group.Finset.Basic
import Mathlib.Data.Fintype.Basic

/-!
# A queue behind a mutex and a condition variable

Clients `κ` push items and call `notify_one`, workers `ι` wait for the queue not to be empty and pop
one, everything with the mutex locked.  One step is one operation on the mutex, the condition
variable or the queue.  A worker that waits may wake up without having been notified; whom
`notify_one` wakes is not determined.

`Monitor.Sound` is what holds throughout: one thread at a time is inside, nobody pops from an empty
queue, and no notification is lost.  If a worker is asleep, then each item in the queue has a worker
that is awake, except for one that its client is about to give notice of (`Sound.heard`).

It follows that items do not get stuck: `Sound.stuck` says when no thread can go on, and by
`step_lt` that point is reached.
-/

namespace LaptopRaft

/-- A worker: about to lock the mutex; testing whether the queue is empty, which the predicate of
`wait` does again and again; asleep in `wait`; woken, and about to lock the mutex again; about to
pop; about to unlock; and outside, at work. -/
inductive WorkerPc
  | atLock
  | testing
  | asleep
  | woken
  | popping
  | unlocking
  | busy
deriving DecidableEq

/-- A client: outside; about to lock the mutex; about to push, to notify, and to unlock. -/
inductive ClientPc (α : Type*)
  | outside
  | atLock (a : α)
  | pushing (a : α)
  | notifying
  | unlocking
deriving DecidableEq

def WorkerPc.Inside : WorkerPc → Prop
  | testing | popping | unlocking => True
  | _ => False

def ClientPc.Inside {α : Type*} : ClientPc α → Prop
  | pushing _ | notifying | unlocking => True
  | _ => False

/-- `1` for a worker that is going to look at the queue without further notice. -/
def WorkerPc.awake : WorkerPc → ℕ
  | testing | woken | popping => 1
  | _ => 0

structure Monitor (ι κ α : Type*) where
  lock : Option (ι ⊕ κ) := none
  worker : ι → WorkerPc := fun _ => .atLock
  client : κ → ClientPc α := fun _ => .outside

inductive MonitorLabel (ι κ : Type*)
  | clientLock (j : κ)
  | push (j : κ)
  /-- `notify_one`: the worker that is woken, if any is asleep. -/
  | notify (j : κ) (i : Option ι)
  | clientUnlock (j : κ)
  | workerLock (i : ι)
  | test (i : ι)
  | pop (i : ι)
  | workerUnlock (i : ι)
  /-- Waking up without notice. -/
  | wake (i : ι)
  /-- The worker comes back for the next item. -/
  | finish (i : ι)
deriving DecidableEq

namespace Monitor

variable {ι κ α : Type*}

section Worker

variable [DecidableEq ι] (m : Monitor ι κ α)

def setWorker (i : ι) (pc : WorkerPc) : Monitor ι κ α :=
  { m with worker := Function.update m.worker i pc }

@[simp] lemma setWorker_self (i : ι) (pc : WorkerPc) : (m.setWorker i pc).worker i = pc :=
  Function.update_self _ _ _

lemma setWorker_of_ne {i k : ι} (hk : k ≠ i) (pc : WorkerPc) :
    (m.setWorker i pc).worker k = m.worker k :=
  Function.update_of_ne hk _ _

end Worker

section Client

variable [DecidableEq κ] (m : Monitor ι κ α)

def setClient (j : κ) (pc : ClientPc α) : Monitor ι κ α :=
  { m with client := Function.update m.client j pc }

@[simp] lemma setClient_self (j : κ) (pc : ClientPc α) : (m.setClient j pc).client j = pc :=
  Function.update_self _ _ _

lemma setClient_of_ne {j k : κ} (hk : k ≠ j) (pc : ClientPc α) :
    (m.setClient j pc).client k = m.client k :=
  Function.update_of_ne hk _ _

/-- A client comes with an item. -/
def offer (j : κ) (a : α) : Option (Monitor ι κ α) :=
  match m.client j with
  | .outside => some (m.setClient j (.atLock a))
  | _ => none

end Client

def withLock (m : Monitor ι κ α) (owner : Option (ι ⊕ κ)) : Monitor ι κ α :=
  { m with lock := owner }

section Steps

variable [DecidableEq ι] [DecidableEq κ] (m : Monitor ι κ α)

variable [Fintype ι]

/-- A step of a thread, with the queue before and after it.  To pop from an empty queue is
undefined. -/
def step (queue : List α) : MonitorLabel ι κ → Option (Monitor ι κ α × List α)
  | .clientLock j =>
      match m.lock, m.client j with
      | none, .atLock a => some ((m.setClient j (.pushing a)).withLock (some (.inr j)), queue)
      | _, _ => none
  | .push j =>
      match m.client j with
      | .pushing a => some (m.setClient j .notifying, queue ++ [a])
      | _ => none
  | .notify j woken =>
      match m.client j, woken with
      | .notifying, some i =>
          if m.worker i = .asleep then some ((m.setClient j .unlocking).setWorker i .woken, queue)
          else none
      | .notifying, none =>
          if ∀ i, m.worker i ≠ .asleep then some (m.setClient j .unlocking, queue) else none
      | _, _ => none
  | .clientUnlock j =>
      match m.client j with
      | .unlocking => some ((m.setClient j .outside).withLock none, queue)
      | _ => none
  | .workerLock i =>
      if m.lock = none ∧ (m.worker i = .atLock ∨ m.worker i = .woken) then
        some ((m.setWorker i .testing).withLock (some (.inl i)), queue)
      else none
  | .test i =>
      if m.worker i = .testing then
        if queue = [] then some ((m.setWorker i .asleep).withLock none, queue)
        else some (m.setWorker i .popping, queue)
      else none
  | .pop i =>
      match m.worker i, queue with
      | .popping, _ :: rest => some (m.setWorker i .unlocking, rest)
      | _, _ => none
  | .workerUnlock i =>
      if m.worker i = .unlocking then some ((m.setWorker i .busy).withLock none, queue) else none
  | .wake i => if m.worker i = .asleep then some (m.setWorker i .woken, queue) else none
  | .finish i => if m.worker i = .busy then some (m.setWorker i .atLock, queue) else none

end Steps

section Counting

variable [DecidableEq ι] [Fintype ι]

/-! ## Counting -/

/-- How many workers are going to look at the queue without further notice. -/
def awake (m : Monitor ι κ α) : ℕ := ∑ i, (m.worker i).awake

/-- One value changes in a sum. -/
lemma sum_update {β γ : Type*} [DecidableEq β] (s : Finset β) (weight : γ → ℕ) (g : β → γ) {b : β}
    (hb : b ∈ s) (y : γ) :
    ∑ x ∈ s, weight (Function.update g b y x) + weight (g b) =
      ∑ x ∈ s, weight (g x) + weight y := by
  have hothers : ∑ x ∈ s.erase b, weight (Function.update g b y x) =
      ∑ x ∈ s.erase b, weight (g x) := by
    refine Finset.sum_congr rfl fun x hx => ?_
    rw [Function.update_of_ne (Finset.ne_of_mem_erase hx)]
  rw [← Finset.add_sum_erase s _ hb, ← Finset.add_sum_erase s (fun x => weight (g x)) hb, hothers,
    Function.update_self]
  omega

lemma awake_setWorker (m : Monitor ι κ α) (i : ι) (pc : WorkerPc) :
    (m.setWorker i pc).awake + (m.worker i).awake = m.awake + pc.awake :=
  sum_update Finset.univ WorkerPc.awake m.worker (Finset.mem_univ i) pc

end Counting

section Lemmas

variable [DecidableEq ι] [DecidableEq κ] [Fintype ι] {m m' : Monitor ι κ α}
  {queue queue' : List α} {l : MonitorLabel ι κ}

/-! ## What a step does -/

/-- The steps, guards included. -/
inductive Step (m : Monitor ι κ α) (queue : List α) :
    MonitorLabel ι κ → Monitor ι κ α → List α → Prop
  | clientLock {j : κ} {a : α} (hlock : m.lock = none) (hpc : m.client j = .atLock a) :
      Step m queue (.clientLock j) ((m.setClient j (.pushing a)).withLock (some (.inr j))) queue
  | push {j : κ} {a : α} (hpc : m.client j = .pushing a) :
      Step m queue (.push j) (m.setClient j .notifying) (queue ++ [a])
  | notify {j : κ} {i : ι} (hpc : m.client j = .notifying) (hasleep : m.worker i = .asleep) :
      Step m queue (.notify j (some i)) ((m.setClient j .unlocking).setWorker i .woken) queue
  | notifyNone {j : κ} (hpc : m.client j = .notifying) (hnone : ∀ i, m.worker i ≠ .asleep) :
      Step m queue (.notify j none) (m.setClient j .unlocking) queue
  | clientUnlock {j : κ} (hpc : m.client j = .unlocking) :
      Step m queue (.clientUnlock j) ((m.setClient j .outside).withLock none) queue
  | workerLock {i : ι} (hlock : m.lock = none)
      (hpc : m.worker i = .atLock ∨ m.worker i = .woken) :
      Step m queue (.workerLock i) ((m.setWorker i .testing).withLock (some (.inl i))) queue
  | sleep {i : ι} (hpc : m.worker i = .testing) (hempty : queue = []) :
      Step m queue (.test i) ((m.setWorker i .asleep).withLock none) queue
  | goOn {i : ι} (hpc : m.worker i = .testing) (hne : queue ≠ []) :
      Step m queue (.test i) (m.setWorker i .popping) queue
  | pop {i : ι} {a : α} {rest : List α} (hpc : m.worker i = .popping) (hqueue : queue = a :: rest) :
      Step m queue (.pop i) (m.setWorker i .unlocking) rest
  | workerUnlock {i : ι} (hpc : m.worker i = .unlocking) :
      Step m queue (.workerUnlock i) ((m.setWorker i .busy).withLock none) queue
  | wake {i : ι} (hpc : m.worker i = .asleep) :
      Step m queue (.wake i) (m.setWorker i .woken) queue
  | finish {i : ι} (hpc : m.worker i = .busy) :
      Step m queue (.finish i) (m.setWorker i .atLock) queue

theorem step_cases (h : m.step queue l = some (m', queue')) : Step m queue l m' queue' := by
  have hpair : ∀ {x : Monitor ι κ α × List α}, some x = some (m', queue') →
      x.1 = m' ∧ x.2 = queue' := by
    rintro x hx
    rw [Option.some.inj hx]
    exact ⟨rfl, rfl⟩
  cases l with
  | clientLock j =>
      simp only [step] at h
      split at h
      · rename_i a hlock hpc
        obtain ⟨rfl, rfl⟩ := hpair h
        exact .clientLock hlock hpc
      · cases h
  | push j =>
      simp only [step] at h
      split at h
      · rename_i a hpc
        obtain ⟨rfl, rfl⟩ := hpair h
        exact .push hpc
      · cases h
  | notify j woken =>
      simp only [step] at h
      split at h
      · rename_i i hpc
        split at h
        · rename_i hasleep
          obtain ⟨rfl, rfl⟩ := hpair h
          exact .notify hpc hasleep
        · cases h
      · rename_i hpc
        split at h
        · rename_i hnone
          obtain ⟨rfl, rfl⟩ := hpair h
          exact .notifyNone hpc hnone
        · cases h
      · cases h
  | clientUnlock j =>
      simp only [step] at h
      split at h
      · rename_i hpc
        obtain ⟨rfl, rfl⟩ := hpair h
        exact .clientUnlock hpc
      · cases h
  | workerLock i =>
      simp only [step] at h
      split at h
      · rename_i hguard
        obtain ⟨rfl, rfl⟩ := hpair h
        exact .workerLock hguard.1 hguard.2
      · cases h
  | test i =>
      simp only [step] at h
      split at h
      · rename_i hpc
        split at h
        · rename_i hempty
          obtain ⟨rfl, rfl⟩ := hpair h
          exact .sleep hpc hempty
        · rename_i hne
          obtain ⟨rfl, rfl⟩ := hpair h
          exact .goOn hpc hne
      · cases h
  | pop i =>
      simp only [step] at h
      split at h
      · rename_i hpc
        obtain ⟨rfl, rfl⟩ := hpair h
        exact .pop hpc rfl
      · cases h
  | workerUnlock i =>
      simp only [step] at h
      split at h
      · rename_i hpc
        obtain ⟨rfl, rfl⟩ := hpair h
        exact .workerUnlock hpc
      · cases h
  | wake i =>
      simp only [step] at h
      split at h
      · rename_i hpc
        obtain ⟨rfl, rfl⟩ := hpair h
        exact .wake hpc
      · cases h
  | finish i =>
      simp only [step] at h
      split at h
      · rename_i hpc
        obtain ⟨rfl, rfl⟩ := hpair h
        exact .finish hpc
      · cases h

end Lemmas

/-! ## What holds throughout -/

/-- A thread is between `lock` and `unlock`. -/
def Inside (m : Monitor ι κ α) : ι ⊕ κ → Prop
  | .inl i => (m.worker i).Inside
  | .inr j => (m.client j).Inside

/-- The mutex is locked by the thread that is inside. -/
def Exclusive (m : Monitor ι κ α) : Prop := ∀ t, m.Inside t ↔ m.lock = some t

/-- If a worker is asleep, there are enough of the others for what is in the queue; a client that
is about to notify will see to one item more. -/
def Heard [Fintype ι] (m : Monitor ι κ α) (queue : List α) : Prop :=
  ∀ i, m.worker i = .asleep →
    queue.length ≤ m.awake ∨ ∃ j, m.client j = .notifying ∧ queue.length ≤ m.awake + 1

structure Sound [Fintype ι] (m : Monitor ι κ α) (queue : List α) : Prop where
  exclusive : m.Exclusive
  nonempty : ∀ i, m.worker i = .popping → queue ≠ []
  heard : m.Heard queue

section Exclusive

variable {m m' : Monitor ι κ α} {t : ι ⊕ κ}

lemma Exclusive.enter (h : m.Exclusive) (hfree : m.lock = none)
    (hothers : ∀ t', t' ≠ t → (m'.Inside t' ↔ m.Inside t')) (hin : m'.Inside t)
    (hlock : m'.lock = some t) : m'.Exclusive := by
  intro t'
  rw [hlock]
  by_cases ht : t' = t
  · rw [ht]
    exact iff_of_true hin rfl
  · rw [hothers t' ht, h t', hfree]
    exact iff_of_false (by simp) (by simpa using Ne.symm ht)

lemma Exclusive.leave (h : m.Exclusive) (hin : m.Inside t)
    (hothers : ∀ t', t' ≠ t → (m'.Inside t' ↔ m.Inside t')) (hout : ¬ m'.Inside t)
    (hfree : m'.lock = none) : m'.Exclusive := by
  intro t'
  rw [hfree]
  by_cases ht : t' = t
  · rw [ht]
    exact iff_of_false hout (by simp)
  · rw [hothers t' ht, h t', (h t).1 hin]
    exact iff_of_false (by simpa using Ne.symm ht) (by simp)

lemma Exclusive.stay (h : m.Exclusive) (hsame : ∀ t, m'.Inside t ↔ m.Inside t)
    (hlock : m'.lock = m.lock) : m'.Exclusive := by
  intro t
  rw [hsame t, hlock]
  exact h t

/-- Two threads inside are one. -/
lemma Exclusive.eq (h : m.Exclusive) {t' : ι ⊕ κ} (ht : m.Inside t) (ht' : m.Inside t') :
    t = t' :=
  Option.some.inj (((h t).1 ht).symm.trans ((h t').1 ht'))

end Exclusive

section Inside

variable {m : Monitor ι κ α} {t : ι ⊕ κ}

@[simp] lemma inside_withLock (owner : Option (ι ⊕ κ)) :
    (m.withLock owner).Inside t ↔ m.Inside t := by
  cases t <;> rfl

section Worker

variable [DecidableEq ι]

lemma inside_setWorker (i : ι) (pc : WorkerPc) :
    (m.setWorker i pc).Inside (.inl i) ↔ pc.Inside := by
  rw [Inside, setWorker_self]

lemma inside_setWorker_of_ne {i : ι} (pc : WorkerPc) (ht : t ≠ .inl i) :
    (m.setWorker i pc).Inside t ↔ m.Inside t := by
  cases t with
  | inl k =>
      have hk : k ≠ i := fun heq => ht (congrArg Sum.inl heq)
      rw [Inside, setWorker_of_ne m hk, Inside]
  | inr j => rfl

/-- A worker that is inside before and after, or outside before and after. -/
lemma inside_setWorker_iff {i : ι} {pc : WorkerPc} (hpc : pc.Inside ↔ (m.worker i).Inside) :
    (m.setWorker i pc).Inside t ↔ m.Inside t := by
  by_cases ht : t = .inl i
  · rw [ht, inside_setWorker, hpc, Inside]
  · exact inside_setWorker_of_ne pc ht

end Worker

variable [DecidableEq κ]

lemma inside_setClient (j : κ) (pc : ClientPc α) :
    (m.setClient j pc).Inside (.inr j) ↔ pc.Inside := by
  rw [Inside, setClient_self]

lemma inside_setClient_of_ne {j : κ} (pc : ClientPc α) (ht : t ≠ .inr j) :
    (m.setClient j pc).Inside t ↔ m.Inside t := by
  cases t with
  | inl i => rfl
  | inr k =>
      have hk : k ≠ j := fun heq => ht (congrArg Sum.inr heq)
      rw [Inside, setClient_of_ne m hk, Inside]

lemma inside_setClient_iff {j : κ} {pc : ClientPc α} (hpc : pc.Inside ↔ (m.client j).Inside) :
    (m.setClient j pc).Inside t ↔ m.Inside t := by
  by_cases ht : t = .inr j
  · rw [ht, inside_setClient, hpc, Inside]
  · exact inside_setClient_of_ne pc ht

end Inside

lemma Step.exclusive [DecidableEq ι] [DecidableEq κ] {m m' : Monitor ι κ α}
    {queue queue' : List α} {l : MonitorLabel ι κ} (hstep : Step m queue l m' queue')
    (h : m.Exclusive) : m'.Exclusive := by
  cases hstep with
  | @clientLock j a hlock hpc =>
      refine h.enter (t := .inr j) hlock (fun t ht => ?_) ?_ rfl
      · rw [inside_withLock]
        exact inside_setClient_of_ne _ ht
      · rw [inside_withLock, inside_setClient]
        trivial
  | push hpc | notifyNone hpc =>
      refine h.stay (fun t => inside_setClient_iff ?_) rfl
      rw [hpc]
      exact Iff.rfl
  | notify hpc hasleep =>
      refine h.stay (fun t => ?_) rfl
      rw [inside_setWorker_iff, inside_setClient_iff]
      · rw [hpc]
        exact Iff.rfl
      · change _ ↔ (m.worker _).Inside
        rw [hasleep]
        exact Iff.rfl
  | @clientUnlock j hpc =>
      refine h.leave (t := .inr j) ?_ (fun t ht => ?_) ?_ rfl
      · rw [Inside, hpc]
        trivial
      · rw [inside_withLock]
        exact inside_setClient_of_ne _ ht
      · rw [inside_withLock, inside_setClient]
        exact id
  | @workerLock i hlock hpc =>
      refine h.enter (t := .inl i) hlock (fun t ht => ?_) ?_ rfl
      · rw [inside_withLock]
        exact inside_setWorker_of_ne _ ht
      · rw [inside_withLock, inside_setWorker]
        trivial
  | @sleep i hpc | @workerUnlock i hpc =>
      refine h.leave (t := .inl i) ?_ (fun t ht => ?_) ?_ rfl
      · rw [Inside, hpc]
        trivial
      · rw [inside_withLock]
        exact inside_setWorker_of_ne _ ht
      · rw [inside_withLock, inside_setWorker]
        exact id
  | goOn hpc | pop hpc | wake hpc | finish hpc =>
      refine h.stay (fun t => inside_setWorker_iff ?_) rfl
      rw [hpc]
      exact Iff.rfl

section Within

variable [DecidableEq κ] {m m' : Monitor ι κ α}

/-- The clients that are not outside are among these. -/
def Within (m : Monitor ι κ α) (clients : Finset κ) : Prop :=
  ∀ j, m.client j ≠ .outside → j ∈ clients

lemma Within.setClient {clients : Finset κ} (h : m.Within clients) {j : κ}
    (hpc : m.client j ≠ .outside) (pc : ClientPc α) : (m.setClient j pc).Within clients := by
  intro k hk
  by_cases hkj : k = j
  · rw [hkj]
    exact h j hpc
  · rw [setClient_of_ne m hkj] at hk
    exact h k hk

lemma Within.offer {clients : Finset κ} (h : m.Within clients) {j : κ} {a : α}
    (hst : m.offer j a = some m') : m'.Within (insert j clients) := by
  intro k hk
  unfold Monitor.offer at hst
  split at hst
  · obtain rfl := Option.some.inj hst
    by_cases hkj : k = j
    · rw [hkj]
      exact Finset.mem_insert_self _ _
    · rw [setClient_of_ne m hkj] at hk
      exact Finset.mem_insert_of_mem (h k hk)
  · cases hst

end Within

section Threads

variable [DecidableEq ι] [DecidableEq κ] {m m' : Monitor ι κ α} {queue queue' : List α}
  {l : MonitorLabel ι κ}

/-- A worker that has an item, and has not come back for the next one. -/
def Holds (m : Monitor ι κ α) (i : ι) : Prop := m.worker i = .unlocking ∨ m.worker i = .busy

/-- A client that has not pushed its item yet. -/
def Offers (m : Monitor ι κ α) (j : κ) (a : α) : Prop :=
  m.client j = .atLock a ∨ m.client j = .pushing a

lemma Step.holds (hstep : Step m queue l m' queue') {i : ι} (h : m.Holds i)
    (hl : l ≠ .finish i) : m'.Holds i := by
  have hother : ∀ {k : ι} {pc : WorkerPc}, k ≠ i → (m.setWorker k pc).Holds i := by
    intro k pc hk
    unfold Holds
    rw [setWorker_of_ne m (Ne.symm hk)]
    exact h
  have hne : ∀ {k : ι}, m.worker k ≠ .unlocking → m.worker k ≠ .busy → k ≠ i := by
    rintro k hunlocking hbusy rfl
    rcases h with h | h
    · exact hunlocking h
    · exact hbusy h
  cases hstep with
  | clientLock | push | notifyNone | clientUnlock => exact h
  | notify hpc hasleep => exact hother (hne (by simp [hasleep]) (by simp [hasleep]))
  | workerLock hlock hpc =>
      refine hother (hne ?_ ?_) <;> rcases hpc with hpc | hpc <;> simp [hpc]
  | sleep hpc | goOn hpc | pop hpc | wake hpc => exact hother (hne (by simp [hpc]) (by simp [hpc]))
  | @workerUnlock k hpc =>
      by_cases hk : k = i
      · subst hk
        exact Or.inr (setWorker_self m k _)
      · exact hother hk
  | finish => exact hother fun hk => hl (congrArg _ hk)

lemma Step.offers (hstep : Step m queue l m' queue') {j : κ} {a : α} (h : m'.Offers j a) :
    m.Offers j a ∧ l ≠ .push j := by
  have hother : ∀ {k : κ} {pc : ClientPc α}, (∀ b, pc ≠ .atLock b) → (∀ b, pc ≠ .pushing b) →
      (m.setClient k pc).Offers j a → m.Offers j a ∧ k ≠ j := by
    intro k pc hatLock hpushing h
    unfold Offers at h
    by_cases hk : j = k
    · subst hk
      rw [setClient_self] at h
      rcases h with h | h
      · exact absurd h (hatLock a)
      · exact absurd h (hpushing a)
    · rw [setClient_of_ne m hk] at h
      exact ⟨h, Ne.symm hk⟩
  cases hstep with
  | @clientLock k b hlock hpc =>
      refine ⟨?_, by simp⟩
      unfold Offers at h
      change (m.setClient k _).client j = _ ∨ (m.setClient k _).client j = _ at h
      by_cases hk : j = k
      · subst hk
        rw [setClient_self] at h
        rcases h with h | h
        · cases h
        · obtain rfl := ClientPc.pushing.inj h
          exact Or.inl hpc
      · rwa [setClient_of_ne m hk] at h
  | push hpc =>
      obtain ⟨hold, hk⟩ := hother (by simp) (by simp) h
      exact ⟨hold, fun heq => hk (MonitorLabel.push.inj heq)⟩
  | notify | notifyNone | clientUnlock => exact ⟨(hother (by simp) (by simp) h).1, by simp⟩
  | _ => exact ⟨h, by simp⟩

/-- Only a push and a pop change the queue. -/
lemma Step.queue_eq (hstep : Step m queue l m' queue') (hpush : ∀ j, l ≠ .push j)
    (hpop : ∀ i, l ≠ .pop i) : queue' = queue := by
  cases hstep with
  | @push j => exact absurd rfl (hpush j)
  | @pop i => exact absurd rfl (hpop i)
  | _ => rfl

/-- A worker gets an item by popping it. -/
lemma Step.unlocking (hstep : Step m queue l m' queue') {i : ι} (h : m'.worker i = .unlocking)
    (hl : l ≠ .pop i) : m.worker i = .unlocking := by
  have hother : ∀ {k : ι} {pc : WorkerPc}, (m.setWorker k pc).worker i = .unlocking →
      k ≠ i ∨ pc ≠ .unlocking → m.worker i = .unlocking := by
    intro k pc h hne
    by_cases hk : i = k
    · subst hk
      rw [setWorker_self] at h
      rcases hne with hne | hne
      · exact absurd rfl hne
      · exact absurd h hne
    · rwa [setWorker_of_ne m hk] at h
  cases hstep with
  | clientLock | push | notifyNone | clientUnlock => exact h
  | notify | workerLock | sleep | goOn | workerUnlock | wake | finish =>
      exact hother h (Or.inr (by simp))
  | pop => exact hother h (Or.inl fun hk => hl (congrArg _ hk))

/-- A worker is busy after it has unlocked the mutex. -/
lemma Step.busy (hstep : Step m queue l m' queue') {i : ι} (h : m'.worker i = .busy) :
    m.worker i = .busy ∨ m.worker i = .unlocking := by
  have hother : ∀ {k : ι} {pc : WorkerPc}, pc ≠ .busy → (m.setWorker k pc).worker i = .busy →
      m.worker i = .busy := by
    intro k pc hne h
    by_cases hk : i = k
    · subst hk
      rw [setWorker_self] at h
      exact absurd h hne
    · rwa [setWorker_of_ne m hk] at h
  cases hstep with
  | clientLock | push | notifyNone | clientUnlock => exact Or.inl h
  | notify | workerLock | sleep | goOn | pop | wake | finish => exact Or.inl (hother (by simp) h)
  | @workerUnlock k hpc =>
      by_cases hk : i = k
      · exact Or.inr (hk ▸ hpc)
      · change (m.setWorker k .busy).worker i = _ at h
        rw [setWorker_of_ne m hk] at h
        exact Or.inl h

lemma Step.within (hstep : Step m queue l m' queue') (h : ∃ clients, m.Within clients) :
    ∃ clients, m'.Within clients := by
  obtain ⟨clients, h⟩ := h
  refine ⟨clients, ?_⟩
  cases hstep with
  | clientLock hlock hpc => exact h.setClient (by simp [hpc]) _
  | push hpc | notify hpc | notifyNone hpc | clientUnlock hpc =>
      exact h.setClient (by simp [hpc]) _
  | _ => exact h

end Threads

section Sound

variable [Fintype ι] {m m' : Monitor ι κ α} {queue queue' : List α} {l : MonitorLabel ι κ}

lemma Heard.mono (h : m.Heard queue)
    (hasleep : ∀ i, m'.worker i = .asleep → m.worker i = .asleep)
    (hnotify : ∀ j, m.client j = .notifying → m'.client j = .notifying)
    (hle : queue'.length + m.awake ≤ queue.length + m'.awake) : m'.Heard queue' := by
  intro i hi
  rcases h i (hasleep i hi) with hle' | ⟨j, hj, hle'⟩
  · exact Or.inl (by omega)
  · exact Or.inr ⟨j, hnotify j hj, by omega⟩

lemma Sound.init : ({} : Monitor ι κ α).Sound [] := by
  refine ⟨fun t => ?_, fun i hi => ?_, fun i hi => ?_⟩
  · refine iff_of_false ?_ (by simp)
    cases t <;> exact id
  · cases hi
  · cases hi

/-- A worker that does not go to sleep. -/
lemma Heard.setWorker [DecidableEq ι] (h : m.Heard queue) {i : ι} {pc : WorkerPc}
    (hpc : pc ≠ .asleep)
    (hle : queue'.length + (m.worker i).awake ≤ queue.length + pc.awake) :
    (m.setWorker i pc).Heard queue' := by
  have hawake := m.awake_setWorker i pc
  refine h.mono (fun k hk => ?_) (fun _ => id) (by omega)
  by_cases hki : k = i
  · subst hki
    rw [setWorker_self] at hk
    exact absurd hk hpc
  · rwa [setWorker_of_ne m hki] at hk

/-- A client that was not about to notify. -/
lemma Heard.setClient [DecidableEq κ] (h : m.Heard queue) {j : κ} {pc : ClientPc α}
    (hpc : m.client j ≠ .notifying) : (m.setClient j pc).Heard queue := by
  refine h.mono (fun _ => id) (fun k hk => ?_) le_rfl
  have hkj : k ≠ j := by
    rintro rfl
    exact hpc hk
  rw [setClient_of_ne m hkj]
  exact hk

theorem Sound.offer [DecidableEq κ] (h : m.Sound queue) {j : κ} {a : α}
    (hst : m.offer j a = some m') : m'.Sound queue := by
  unfold Monitor.offer at hst
  split at hst
  · rename_i hpc
    obtain rfl := Option.some.inj hst
    refine ⟨h.exclusive.stay (fun t => inside_setClient_iff ?_) rfl, h.nonempty,
      h.heard.setClient (by simp [hpc])⟩
    rw [hpc]
    exact Iff.rfl
  · cases hst

variable [DecidableEq ι] [DecidableEq κ]

lemma Step.heard (hstep : Step m queue l m' queue') (h : m.Sound queue) : m'.Heard queue' := by
  have hheard := h.heard
  cases hstep with
  | clientLock hlock hpc => exact hheard.setClient (by simp [hpc])
  | @push j a hpc =>
      intro i hi
      refine Or.inr ⟨j, setClient_self m j _, ?_⟩
      rw [List.length_append, List.length_singleton]
      rcases hheard i hi with hle | ⟨k, hk, hle⟩
      · exact Nat.succ_le_succ hle
      · -- `k` would be inside as well
        have hin : m.Inside (.inr k) := by
          rw [Inside, hk]
          trivial
        have hin' : m.Inside (.inr j) := by
          rw [Inside, hpc]
          trivial
        obtain rfl := Sum.inr.inj (h.exclusive.eq hin hin')
        rw [hpc] at hk
        cases hk
  | @notify j i hpc hasleep =>
      have hawake := (m.setClient j .unlocking).awake_setWorker i .woken
      have hbefore : ((m.setClient j .unlocking).worker i).awake = 0 := by
        change (m.worker i).awake = 0
        rw [hasleep]
        rfl
      rw [hbefore, Nat.add_zero] at hawake
      intro k hk
      rw [hawake]
      rcases hheard i hasleep with hle | ⟨-, -, hle⟩
      · exact Or.inl (hle.trans (Nat.le_succ _))
      · exact Or.inl hle
  | notifyNone hpc hnone => exact fun i hi => absurd hi (hnone i)
  | clientUnlock hpc => exact hheard.setClient (by simp [hpc])
  | workerLock hlock hpc =>
      refine hheard.setWorker (by simp) ?_
      rcases hpc with hpc | hpc <;> simp [hpc, WorkerPc.awake]
  | sleep hpc hempty =>
      intro i hi
      rw [hempty]
      exact Or.inl (Nat.zero_le _)
  | goOn hpc | workerUnlock hpc | wake hpc | finish hpc =>
      exact hheard.setWorker (by simp) (by simp [hpc, WorkerPc.awake])
  | pop hpc hqueue => exact hheard.setWorker (by simp) (by simp [hpc, hqueue, WorkerPc.awake])

lemma Step.nonempty (hstep : Step m queue l m' queue') (h : m.Sound queue) :
    ∀ i, m'.worker i = .popping → queue' ≠ [] := by
  intro k hk
  have hother : ∀ {i : ι} {pc : WorkerPc}, pc ≠ .popping →
      (m.setWorker i pc).worker k = .popping → m.worker k = .popping ∧ k ≠ i := by
    intro i pc hpc hk
    by_cases hki : k = i
    · subst hki
      rw [setWorker_self] at hk
      exact absurd hk hpc
    · rw [setWorker_of_ne m hki] at hk
      exact ⟨hk, hki⟩
  cases hstep with
  | clientLock | notifyNone | clientUnlock => exact h.nonempty k hk
  | push => exact List.append_ne_nil_of_right_ne_nil _ (by simp)
  | notify => exact h.nonempty k (hother (by simp) hk).1
  | workerLock | sleep | workerUnlock | wake | finish => exact h.nonempty k (hother (by simp) hk).1
  | goOn hpc hne => exact hne
  | @pop i a rest hpc hqueue =>
      obtain ⟨hpopping, hki⟩ := hother (by simp) hk
      have hin : m.Inside (.inl k) := by
        rw [Inside, hpopping]
        trivial
      have hin' : m.Inside (.inl i) := by
        rw [Inside, hpc]
        trivial
      exact absurd (Sum.inl.inj (h.exclusive.eq hin hin')) hki

/-- **Every step keeps the monitor sound.** -/
theorem Sound.step (h : m.Sound queue) (hst : m.step queue l = some (m', queue')) :
    m'.Sound queue' :=
  ⟨(step_cases hst).exclusive h.exclusive, (step_cases hst).nonempty h, (step_cases hst).heard h⟩

end Sound

end Monitor

/-! ## Items do not get stuck -/

/-- A step that is neither a spurious wake-up nor one of a worker outside. -/
def MonitorLabel.Internal {ι κ : Type*} : MonitorLabel ι κ → Prop
  | wake _ | finish _ => False
  | _ => True

/-- How many more steps a worker may take by itself. -/
def WorkerPc.weight : WorkerPc → ℕ
  | atLock | woken => 4
  | testing => 3
  | popping => 2
  | unlocking => 1
  | asleep | busy => 0

/-- The same for a client; to notify is also to wake a worker. -/
def ClientPc.weight {α : Type*} : ClientPc α → ℕ
  | atLock _ => 8
  | pushing _ => 7
  | notifying => 6
  | unlocking => 1
  | outside => 0

namespace Monitor

variable {ι κ α : Type*}

variable {m m' : Monitor ι κ α} {queue queue' : List α} {l : MonitorLabel ι κ} {clients : Finset κ}

variable [Fintype ι]

/-- A bound on the internal steps. -/
def measure (m : Monitor ι κ α) (clients : Finset κ) : ℕ :=
  ∑ i, (m.worker i).weight + ∑ j ∈ clients, (m.client j).weight

lemma measure_setWorker [DecidableEq ι] (m : Monitor ι κ α) (clients : Finset κ) (i : ι)
    (pc : WorkerPc) :
    (m.setWorker i pc).measure clients + (m.worker i).weight = m.measure clients + pc.weight := by
  have hsum := sum_update Finset.univ WorkerPc.weight m.worker (Finset.mem_univ i) pc
  unfold measure setWorker
  dsimp only
  omega

variable [DecidableEq κ]

lemma measure_setClient {j : κ} (hj : j ∈ clients) (pc : ClientPc α) :
    (m.setClient j pc).measure clients + (m.client j).weight = m.measure clients + pc.weight := by
  have hsum := sum_update clients ClientPc.weight m.client hj pc
  unfold measure setClient
  dsimp only
  omega

variable [DecidableEq ι]

/-- **Internal steps come to an end.** -/
theorem step_lt (hst : m.step queue l = some (m', queue')) (hinternal : l.Internal)
    (hwithin : m.Within clients) : m'.measure clients < m.measure clients ∧ m'.Within clients := by
  have hclient : ∀ {j : κ} {pc : ClientPc α}, m.client j ≠ .outside →
      pc.weight < (m.client j).weight →
      (m.setClient j pc).measure clients < m.measure clients ∧
        (m.setClient j pc).Within clients := by
    intro j pc hpc hlt
    have hmeasure := measure_setClient (m := m) (hwithin j hpc) pc
    exact ⟨by omega, hwithin.setClient hpc pc⟩
  have hworker : ∀ {i : ι} {pc : WorkerPc}, pc.weight < (m.worker i).weight →
      (m.setWorker i pc).measure clients < m.measure clients := by
    intro i pc hlt
    have hmeasure := m.measure_setWorker clients i pc
    omega
  cases step_cases hst with
  | clientLock hlock hpc => exact hclient (by simp [hpc]) (by simp [hpc, ClientPc.weight])
  | push hpc | notifyNone hpc | clientUnlock hpc =>
      exact hclient (by simp [hpc]) (by simp [hpc, ClientPc.weight])
  | @notify j i hpc hasleep =>
      have hin : m.client j ≠ .outside := by simp [hpc]
      have hnotify := measure_setClient (m := m) (hwithin j hin) .unlocking
      have hwoken := (m.setClient j .unlocking).measure_setWorker clients i .woken
      have hbefore : (m.setClient j .unlocking).worker i = .asleep := hasleep
      rw [hpc] at hnotify
      rw [hbefore] at hwoken
      simp only [ClientPc.weight, WorkerPc.weight] at hnotify hwoken
      exact ⟨by omega, hwithin.setClient hin _⟩
  | workerLock hlock hpc =>
      refine ⟨hworker ?_, hwithin⟩
      rcases hpc with hpc | hpc <;> simp [hpc, WorkerPc.weight]
  | sleep hpc | goOn hpc | pop hpc | workerUnlock hpc =>
      exact ⟨hworker (by simp [hpc, WorkerPc.weight]), hwithin⟩
  | wake | finish => exact absurd hinternal id

/-- **Where they end**: the clients have pushed what they came with, and nothing is left in the
queue, unless all the workers are busy. -/
theorem Sound.stuck (h : m.Sound queue)
    (hstuck : ∀ l : MonitorLabel ι κ, l.Internal → m.step queue l = none) :
    (∀ j, m.client j = .outside) ∧ (queue = [] ∨ ∀ i, m.worker i = .busy) := by
  -- nobody is inside: whoever was would go on
  have hworkers : ∀ i, ¬ (m.worker i).Inside := by
    intro i hin
    have htest := hstuck (.test i) trivial
    have hpop := hstuck (.pop i) trivial
    have hunlock := hstuck (.workerUnlock i) trivial
    cases hpc : m.worker i with
    | testing =>
        simp only [Monitor.step, hpc, if_true] at htest
        split at htest <;> cases htest
    | popping =>
        obtain ⟨a, rest, rfl⟩ := List.exists_cons_of_ne_nil (h.nonempty i hpc)
        simp [Monitor.step, hpc] at hpop
    | unlocking => simp [Monitor.step, hpc] at hunlock
    | _ => simp [hpc, WorkerPc.Inside] at hin
  have hclients : ∀ j, ¬ (m.client j).Inside := by
    intro j hin
    have hpush := hstuck (.push j) trivial
    have hunlock := hstuck (.clientUnlock j) trivial
    cases hpc : m.client j with
    | pushing a => simp [Monitor.step, hpc] at hpush
    | notifying =>
        by_cases hasleep : ∃ i, m.worker i = .asleep
        · obtain ⟨i, hi⟩ := hasleep
          have hnotify := hstuck (.notify j (some i)) trivial
          simp [Monitor.step, hpc, hi] at hnotify
        · have hnotify := hstuck (.notify j none) trivial
          simp only [not_exists] at hasleep
          simp [Monitor.step, hpc, hasleep] at hnotify
    | unlocking => simp [Monitor.step, hpc] at hunlock
    | _ => simp [hpc, ClientPc.Inside] at hin
  have hfree : m.lock = none := by
    cases hlock : m.lock with
    | none => rfl
    | some t =>
        have hin := (h.exclusive t).2 hlock
        cases t with
        | inl i => exact absurd hin (hworkers i)
        | inr j => exact absurd hin (hclients j)
  have hrunnable : ∀ i, m.worker i = .asleep ∨ m.worker i = .busy := by
    intro i
    have hlock := hstuck (.workerLock i) trivial
    have hout := hworkers i
    cases hpc : m.worker i with
    | asleep => exact Or.inl rfl
    | busy => exact Or.inr rfl
    | atLock | woken => simp [Monitor.step, hfree, hpc] at hlock
    | _ => simp [hpc, WorkerPc.Inside] at hout
  have houtside : ∀ j, m.client j = .outside := by
    intro j
    have hlock := hstuck (.clientLock j) trivial
    have hout := hclients j
    cases hpc : m.client j with
    | outside => rfl
    | atLock a => simp [Monitor.step, hfree, hpc] at hlock
    | _ => simp [hpc, ClientPc.Inside] at hout
  refine ⟨houtside, ?_⟩
  by_cases hasleep : ∃ i, m.worker i = .asleep
  · obtain ⟨i, hi⟩ := hasleep
    have hnone : m.awake = 0 := by
      refine Finset.sum_eq_zero fun k _ => ?_
      rcases hrunnable k with hk | hk <;> simp [hk, WorkerPc.awake]
    left
    rcases h.heard i hi with hle | ⟨j, hj, -⟩
    · exact List.length_eq_zero_iff.1 (by omega)
    · rw [houtside j] at hj
      cases hj
  · right
    intro i
    rcases hrunnable i with hi | hi
    · exact absurd ⟨i, hi⟩ hasleep
    · exact hi

end Monitor

end LaptopRaft
