import LaptopRaft.Framework.Monitor
import LaptopRaft.Framework.Simulation
import LaptopRaft.Properties.Customers
import LaptopRaft.Replication.Agreement
import LaptopRaft.Service.Journal
import LaptopRaft.Service.Ledger
import Mathlib.Algebra.Order.BigOperators.Group.Finset

/-!
# The queue of updates, thread by thread

In `Model/Cluster` an update is queued in one step, and a `LeaderThread` takes it and resolves its
future in another.  In the source `CreateLaptop` and `LeaderThread` lock `erq_lock`, wait for and
notify `erq_cv`, push and pop, and keep the promise when the lock is released again.  `threaded` is
the cluster in which each of these is a step of its own.

* `threads_refine`: every run of `threaded` is a run of `system`, with the same observations.  What
  a `CustomerHandler` finds in its future it finds later than in `system`; nothing else differs.
* `queue_safe`: at every server one thread at a time touches `erq`, none pops from an empty queue,
  and no notification is lost.
* `queue_drains`: the threads do not get stuck.
-/

namespace LaptopRaft

open ServerMetadata TransitionSystem

/-! ## The threads of one server -/

/-- `erq_lock`, `erq_cv` and the threads that use them: the `LeaderThread`s, and the
`CustomerHandler`s in `CreateLaptop`.  A `LeaderThread` `owes` when it has a request whose promise
it has not kept yet. -/
structure Dispatch where
  monitor : Monitor (Fin 4) ℕ LeaderRequest := {}
  owes : Fin 4 → Bool := fun _ => false

inductive DispatchLabel
  /-- `CreateLaptop` is called. -/
  | call (stub : ℕ) (request : CustomerRequest)
  | monitor (l : MonitorLabel (Fin 4) ℕ)
  /-- `req->prom.set_value(req->laptop)`. -/
  | setValue (i : Fin 4)
deriving DecidableEq

namespace Dispatch

variable (d : Dispatch)

/-- What a step on `erq_lock`, `erq_cv` or `erq` does besides.  The request that is popped belongs
to the `LeaderThread` alone; `SetAdminId` is not told apart from the `pop`. -/
def effect (f : LaptopFactory) (m : Monitor (Fin 4) ℕ LeaderRequest) (erq : List LeaderRequest) :
    MonitorLabel (Fin 4) ℕ → Dispatch × LaptopFactory
  | .push stub =>
      ({ d with monitor := m },
        { f with erq := erq, customer := Function.update f.customer stub .waiting })
  | .pop i =>
      ({ monitor := m, owes := Function.update d.owes i true },
        { f with
          erq := erq
          leaderThread := Function.update f.leaderThread i (f.erq.head?.map (·.takenBy i)) })
  | _ => ({ d with monitor := m }, f)

/-- A step of a thread of the server.  A `LeaderThread` comes back to the head of its loop when
`LeaderMaintainLog` has returned. -/
def step (f : LaptopFactory) : DispatchLabel → Option (Dispatch × LaptopFactory)
  | .call stub request =>
      if f.customer stub = .idle then
        (d.monitor.offer stub ⟨LaptopInfo.ofRequest request stub, stub⟩).map fun m =>
          ({ d with monitor := m }, f)
      else none
  | .monitor l =>
      if ∀ i, l = .finish i → f.leaderThread i = none then
        (d.monitor.step f.erq l).map fun p => d.effect f p.1 p.2 l
      else none
  | .setValue i =>
      match f.leaderThread i with
      | some req =>
          if d.owes i ∧ d.monitor.worker i = .busy then
            some
              ({ d with owes := Function.update d.owes i false },
                { f with customer := Function.update f.customer req.stub (.resolved req.laptop) })
          else none
      | none => none

end Dispatch

/-- The steps of the cluster that are left as they are.  `LeaderMaintainLog` comes after the promise
is kept. -/
def Unchanged (ds : ℤ → Dispatch) : Label → Prop
  | .createLaptop .. | .dequeue .. => False
  | .leaderMaintainLog s i _ => (ds s).owes i = false
  | _ => True

instance (ds : ℤ → Dispatch) : DecidablePred (Unchanged ds) := by
  intro l
  cases l <;> dsimp only [Unchanged] <;> infer_instance

/-- **The cluster, thread by thread.** -/
def threaded (cfg : Config) :
    TransitionSystem (Cluster × (ℤ → Dispatch)) (Label ⊕ ℤ × DispatchLabel) Event where
  init p := (system cfg).init p.1 ∧ p.2 = fun _ => {}
  step p
    | .inl l =>
        if Unchanged p.2 l then ((system cfg).step p.1 l).map fun q => ((q.1, p.2), q.2) else none
    | .inr (s, l) =>
        if s ∈ cfg.ids then
          ((p.2 s).step (p.1.server s) l).map fun q =>
            ((p.1.setServer s q.2, Function.update p.2 s q.1), [])
        else none

/-! ## What holds of a server and its threads -/

/-- `LeaderThread` `i` has `req` in hand, and its promise is not kept. -/
def Dispatch.Owes (d : Dispatch) (f : LaptopFactory) (i : Fin 4) (req : LeaderRequest) : Prop :=
  d.owes i = true ∧ f.leaderThread i = some req

/-- A server in the midst of its threads, and the futures as the atomic steps have them: what is
owed has been received. -/
structure Ahead (d : Dispatch) (f : LaptopFactory) (cu : ℕ → Customer) : Prop where
  sound : d.monitor.Sound f.erq
  holds : ∀ i, f.leaderThread i ≠ none → d.monitor.Holds i
  owed : ∀ i, d.owes i = true → ∃ req, f.leaderThread i = some req
  unlocking : ∀ i, d.monitor.worker i = .unlocking → d.owes i = true
  busy : ∀ i, f.Maintains i → d.owes i = false ∧ f.leaderThread i ≠ none
  resolved : ∀ i req, d.Owes f i req →
    f.customer req.stub = .waiting ∧ cu req.stub = .resolved req.laptop
  distinct : ∀ i j req req', d.Owes f i req → d.Owes f j req' → req.stub = req'.stub → i = j
  queued : ∀ req ∈ f.erq, f.customer req.stub = .waiting ∧ cu req.stub = .waiting
  nodup : (f.erq.map LeaderRequest.stub).Nodup
  asked : ∀ stub req, d.monitor.Offers stub req → f.customer stub = .idle ∧
    ∃ request, req = ⟨LaptopInfo.ofRequest request stub, stub⟩
  same : ∀ stub, (∀ i req, d.Owes f i req → req.stub ≠ stub) → cu stub = f.customer stub
  waits : ∀ stub, f.customer stub = .waiting →
    (∃ req ∈ f.erq, req.stub = stub) ∨ ∃ i req, d.Owes f i req ∧ req.stub = stub
  active : ∃ clients, d.monitor.Within clients

section Ahead

variable {d d' : Dispatch} {f f' : LaptopFactory} {cu : ℕ → Customer}

/-- A connection that does not wait has its own future. -/
lemma Ahead.same_of_ne (h : Ahead d f cu) {stub : ℕ} (hne : f.customer stub ≠ .waiting) :
    cu stub = f.customer stub := by
  refine h.same stub fun i req howes hstub => hne ?_
  rw [← hstub]
  exact (h.resolved i req howes).1

/-- A step of the cluster that leaves the queue and the futures alone. -/
lemma Ahead.frame (h : Ahead d f cu) (herq : f'.erq = f.erq) (hcustomer : f'.customer = f.customer)
    (hthread : ∀ i, f'.leaderThread i = f.leaderThread i ∨
      (f.Maintains i ∧ f'.leaderThread i = none))
    (hlock : ∀ i, f'.Maintains i → d.owes i = false ∧ f'.leaderThread i ≠ none) :
    Ahead d f' cu := by
  have howing : ∀ i, d.owes i = true → f'.leaderThread i = f.leaderThread i := by
    intro i hi
    rcases hthread i with hsame | ⟨hmaintains, -⟩
    · exact hsame
    · rw [(h.busy i hmaintains).1] at hi
      cases hi
  have howes : ∀ i req, d.Owes f' i req ↔ d.Owes f i req := by
    intro i req
    unfold Dispatch.Owes
    constructor
    · rintro ⟨hi, hreq⟩
      exact ⟨hi, howing i hi ▸ hreq⟩
    · rintro ⟨hi, hreq⟩
      exact ⟨hi, (howing i hi).trans hreq⟩
  refine ⟨herq ▸ h.sound, fun i hi => ?_, fun i hi => ?_, h.unlocking, hlock, fun i req hi => ?_,
    fun i j req req' hi hj => ?_, ?_, ?_, fun stub req hoffers => ?_, fun stub hstub => ?_,
    fun stub hstub => ?_, h.active⟩
  · rcases hthread i with hsame | ⟨-, hnone⟩
    · exact h.holds i (hsame ▸ hi)
    · exact absurd hnone hi
  · rw [howing i hi]
    exact h.owed i hi
  · rw [hcustomer]
    exact h.resolved i req ((howes i req).1 hi)
  · exact h.distinct i j req req' ((howes i req).1 hi) ((howes j req').1 hj)
  · rw [herq, hcustomer]
    exact h.queued
  · rw [herq]
    exact h.nodup
  · rw [hcustomer]
    exact h.asked stub req hoffers
  · rw [hcustomer]
    exact h.same stub fun i req hi => hstub i req ((howes i req).2 hi)
  · rw [hcustomer] at hstub
    rw [herq]
    refine (h.waits stub hstub).imp_right ?_
    rintro ⟨i, req, hi, hreq⟩
    exact ⟨i, req, (howes i req).2 hi, hreq⟩

/-- A reply is shipped. -/
lemma Ahead.ship (h : Ahead d f cu) {stub : ℕ} {laptop : LaptopInfo}
    (hresolved : f.customer stub = .resolved laptop) :
    Ahead d { f with customer := Function.update f.customer stub .idle }
      (Function.update cu stub .idle) := by
  have hwaits : ∀ {stub' : ℕ} {future : Customer}, f.customer stub' = .waiting ∧ cu stub' = future →
      Function.update f.customer stub .idle stub' = .waiting ∧
        Function.update cu stub .idle stub' = future := by
    rintro stub' future ⟨hwaiting, hfuture⟩
    have hne : stub' ≠ stub := by
      rintro rfl
      rw [hresolved] at hwaiting
      cases hwaiting
    rw [Function.update_of_ne hne, Function.update_of_ne hne]
    exact ⟨hwaiting, hfuture⟩
  refine ⟨h.sound, h.holds, h.owed, h.unlocking, h.busy,
    fun i req hi => hwaits (h.resolved i req hi), h.distinct,
    fun req hreq => hwaits (h.queued req hreq), h.nodup, fun stub' req hoffers => ?_,
    fun stub' hstub => ?_, fun stub' hstub => ?_, h.active⟩
  · obtain ⟨hidle, hrequest⟩ := h.asked stub' req hoffers
    refine ⟨?_, hrequest⟩
    change Function.update f.customer stub .idle stub' = _
    by_cases hs : stub' = stub
    · rw [hs, Function.update_self]
    · rw [Function.update_of_ne hs]
      exact hidle
  · change Function.update cu stub .idle stub' = Function.update f.customer stub .idle stub'
    by_cases hs : stub' = stub
    · rw [hs, Function.update_self, Function.update_self]
    · rw [Function.update_of_ne hs, Function.update_of_ne hs]
      exact h.same stub' hstub
  · change Function.update f.customer stub .idle stub' = _ at hstub
    by_cases hs : stub' = stub
    · rw [hs, Function.update_self] at hstub
      cases hstub
    · rw [Function.update_of_ne hs] at hstub
      exact h.waits stub' hstub

/-- A thread locks, unlocks, tests, waits or notifies. -/
lemma Ahead.monitor (h : Ahead d f cu) {m : Monitor (Fin 4) ℕ LeaderRequest}
    (hsound : m.Sound f.erq) (hholds : ∀ i, f.leaderThread i ≠ none → m.Holds i)
    (hunlocking : ∀ i, m.worker i = .unlocking → d.monitor.worker i = .unlocking)
    (hoffers : ∀ stub req, m.Offers stub req → d.monitor.Offers stub req)
    (hactive : ∃ clients, m.Within clients) : Ahead { d with monitor := m } f cu :=
  ⟨hsound, hholds, h.owed, fun i hi => h.unlocking i (hunlocking i hi), h.busy, h.resolved,
    h.distinct, h.queued, h.nodup, fun stub req hreq => h.asked stub req (hoffers stub req hreq),
    h.same, h.waits, hactive⟩

/-- `CreateLaptop` is called. -/
lemma Ahead.call (h : Ahead d f cu) {stub : ℕ} {request : CustomerRequest}
    (hidle : f.customer stub = .idle) {m : Monitor (Fin 4) ℕ LeaderRequest}
    (hoffer : d.monitor.offer stub ⟨LaptopInfo.ofRequest request stub, stub⟩ = some m) :
    Ahead { d with monitor := m } f cu := by
  have hsound := h.sound.offer hoffer
  obtain ⟨clients, hwithin⟩ := h.active
  have hactive := hwithin.offer hoffer
  unfold Monitor.offer at hoffer
  split at hoffer
  · obtain rfl := Option.some.inj hoffer
    refine ⟨hsound, h.holds, h.owed, h.unlocking, h.busy, h.resolved, h.distinct, h.queued,
      h.nodup, fun stub' req hreq => ?_, h.same, h.waits, _, hactive⟩
    by_cases hs : stub' = stub
    · subst hs
      refine ⟨hidle, request, ?_⟩
      rcases hreq with hreq | hreq
      · rw [Monitor.setClient_self] at hreq
        exact (ClientPc.atLock.inj hreq).symm
      · rw [Monitor.setClient_self] at hreq
        cases hreq
    · refine h.asked stub' req ?_
      unfold Monitor.Offers at hreq
      rwa [Monitor.setClient_of_ne _ hs] at hreq
  · cases hoffer

/-- The update is pushed: `createLaptop`. -/
lemma Ahead.push (h : Ahead d f cu) {stub : ℕ} {m : Monitor (Fin 4) ℕ LeaderRequest}
    {erq : List LeaderRequest} (hst : d.monitor.step f.erq (.push stub) = some (m, erq)) :
    ∃ request, cu stub = .idle ∧ erq = f.erq ++ [⟨LaptopInfo.ofRequest request stub, stub⟩] ∧
      Ahead { d with monitor := m }
        { f with erq := erq, customer := Function.update f.customer stub .waiting }
        (Function.update cu stub .waiting) := by
  have hsound := h.sound.step hst
  have hstep := Monitor.step_cases hst
  have hholds : ∀ i, d.monitor.Holds i → m.Holds i := fun i hi => hstep.holds hi (by simp)
  have hactive := hstep.within h.active
  have hoffers : ∀ stub' req, m.Offers stub' req → d.monitor.Offers stub' req ∧ stub' ≠ stub := by
    intro stub' req hreq
    obtain ⟨hold, hne⟩ := hstep.offers hreq
    exact ⟨hold, fun heq => hne (heq ▸ rfl)⟩
  generalize hlabel : MonitorLabel.push stub = l at hstep
  cases hstep with
  | @push j req hpc =>
      obtain rfl := MonitorLabel.push.inj hlabel
      obtain ⟨hidle, request, rfl⟩ := h.asked stub req (Or.inr hpc)
      have hfuture : cu stub = .idle := by
        rw [h.same_of_ne (by simp [hidle]), hidle]
      have hwaits : ∀ {stub' : ℕ} {future : Customer},
          f.customer stub' = .waiting ∧ cu stub' = future →
          Function.update f.customer stub .waiting stub' = .waiting ∧
            Function.update cu stub .waiting stub' = future ∧ stub' ≠ stub := by
        rintro stub' future ⟨hwaiting, hfuture'⟩
        have hne : stub' ≠ stub := by
          rintro rfl
          rw [hidle] at hwaiting
          cases hwaiting
        rw [Function.update_of_ne hne, Function.update_of_ne hne]
        exact ⟨hwaiting, hfuture', hne⟩
      refine ⟨request, hfuture, rfl, hsound, fun i hi => hholds i (h.holds i hi), h.owed,
        h.unlocking, h.busy, fun i req hi => ?_, h.distinct, fun req hreq => ?_, ?_,
        fun stub' req hreq => ?_, fun stub' hstub => ?_, fun stub' hstub => ?_, hactive⟩
      · obtain ⟨hwaiting, hresolved, -⟩ := hwaits (h.resolved i req hi)
        exact ⟨hwaiting, hresolved⟩
      · rcases List.mem_append.1 hreq with hold | hnew
        · obtain ⟨hwaiting, hresolved, -⟩ := hwaits (h.queued req hold)
          exact ⟨hwaiting, hresolved⟩
        · obtain rfl := List.mem_singleton.1 hnew
          exact ⟨Function.update_self _ _ _, Function.update_self _ _ _⟩
      · change ((f.erq ++ [_]).map LeaderRequest.stub).Nodup
        rw [List.map_append, List.nodup_append]
        refine ⟨h.nodup, List.nodup_singleton _, ?_⟩
        rintro _ hold _ hnew rfl
        obtain ⟨req, hreq, hstub⟩ := List.mem_map.1 hold
        have hsame := (hwaits (h.queued req hreq)).2.2
        exact hsame (hstub.trans (List.mem_singleton.1 hnew))
      · obtain ⟨hold, hne⟩ := hoffers stub' req hreq
        obtain ⟨hidle', hrequest⟩ := h.asked stub' req hold
        refine ⟨?_, hrequest⟩
        change Function.update f.customer stub .waiting stub' = _
        rw [Function.update_of_ne hne]
        exact hidle'
      · change Function.update cu stub .waiting stub' =
          Function.update f.customer stub .waiting stub'
        by_cases hs : stub' = stub
        · rw [hs, Function.update_self, Function.update_self]
        · rw [Function.update_of_ne hs, Function.update_of_ne hs]
          exact h.same stub' hstub
      · change Function.update f.customer stub .waiting stub' = _ at hstub
        by_cases hs : stub' = stub
        · exact Or.inl ⟨_, List.mem_append_right _ (List.mem_singleton_self _), hs.symm⟩
        · rw [Function.update_of_ne hs] at hstub
          refine (h.waits stub' hstub).imp_left ?_
          rintro ⟨req, hreq, hreqStub⟩
          exact ⟨req, List.mem_append_left _ hreq, hreqStub⟩
  | _ => cases hlabel

/-- A `LeaderThread` pops the first request: `dequeue`. -/
lemma Ahead.pop (h : Ahead d f cu) {i : Fin 4} {m : Monitor (Fin 4) ℕ LeaderRequest}
    {erq : List LeaderRequest} (hst : d.monitor.step f.erq (.pop i) = some (m, erq)) :
    ∃ req, f.erq = req :: erq ∧ f.leaderThread i = none ∧
      Ahead { monitor := m, owes := Function.update d.owes i true }
        { f with
          erq := erq
          leaderThread := Function.update f.leaderThread i (some (req.takenBy i)) }
        (Function.update cu req.stub (.resolved (req.takenBy i).laptop)) := by
  have hsound := h.sound.step hst
  have hstep := Monitor.step_cases hst
  have hholds : ∀ k, d.monitor.Holds k → m.Holds k := fun k hk => hstep.holds hk (by simp)
  have hactive := hstep.within h.active
  have hoffers : ∀ stub req, m.Offers stub req → d.monitor.Offers stub req :=
    fun stub req hreq => (hstep.offers hreq).1
  generalize hlabel : MonitorLabel.pop i = l at hstep
  cases hstep with
  | @pop k req _ hpc hqueue =>
      obtain rfl := MonitorLabel.pop.inj hlabel
      have hnone : f.leaderThread i = none := by
        by_contra hsome
        rcases h.holds i hsome with hpc' | hpc' <;> simp [hpc] at hpc'
      have hfree : ¬ f.Maintains i := fun hmaintains => (h.busy i hmaintains).2 hnone
      have hqueued := h.queued
      have hnodup := h.nodup
      rw [hqueue] at hqueued hnodup
      obtain ⟨hwaiting, hfuture⟩ := hqueued req List.mem_cons_self
      obtain ⟨hhead, hnodup⟩ := List.nodup_cons.1 hnodup
      -- what is in the hands of the others stays there
      have hothers : ∀ {k : Fin 4} {req' : LeaderRequest}, k ≠ i →
          Dispatch.Owes ⟨d.monitor.setWorker i .unlocking, Function.update d.owes i true⟩
            { f with
              erq := erq
              leaderThread := Function.update f.leaderThread i (some (req.takenBy i)) } k req' →
          d.Owes f k req' := by
        rintro k req' hk ⟨howes, hreq⟩
        change Function.update d.owes i true k = true at howes
        change Function.update f.leaderThread i _ k = _ at hreq
        rw [Function.update_of_ne hk] at howes hreq
        exact ⟨howes, hreq⟩
      have hself : ∀ {req' : LeaderRequest},
          Dispatch.Owes ⟨d.monitor.setWorker i .unlocking, Function.update d.owes i true⟩
            { f with
              erq := erq
              leaderThread := Function.update f.leaderThread i (some (req.takenBy i)) } i req' →
          req' = req.takenBy i := by
        rintro req' ⟨-, hreq⟩
        change Function.update f.leaderThread i _ i = _ at hreq
        rw [Function.update_self] at hreq
        exact (Option.some.inj hreq).symm
      have hapart : ∀ {k : Fin 4} {req' : LeaderRequest}, d.Owes f k req' →
          req'.stub ≠ req.stub := by
        intro k req' hk heq
        have hresolved := (h.resolved k req' hk).2
        rw [heq, hfuture] at hresolved
        cases hresolved
      -- and what was in the hands of `LeaderThread`s still is
      have hkept : ∀ {k : Fin 4} {req' : LeaderRequest}, d.Owes f k req' →
          Dispatch.Owes ⟨d.monitor.setWorker i .unlocking, Function.update d.owes i true⟩
            { f with
              erq := erq
              leaderThread := Function.update f.leaderThread i (some (req.takenBy i)) } k req' := by
        rintro k req' ⟨howes, hreq⟩
        have hki : k ≠ i := by
          rintro rfl
          rw [hnone] at hreq
          cases hreq
        exact ⟨(Function.update_of_ne hki _ _).trans howes,
          (Function.update_of_ne hki _ _).trans hreq⟩
      refine ⟨req, hqueue, hnone, hsound, fun k hk => ?_, fun k hk => ?_, fun k hk => ?_,
        fun k hk => ?_, fun k req' hk => ?_, fun k k' req₁ req₂ hk hk' hstub => ?_,
        fun req' hreq => ?_, hnodup,
        fun stub req' hreq => h.asked stub req' (hoffers stub req' hreq), fun stub hstub => ?_,
        fun stub hstub => ?_, hactive⟩
      · by_cases hki : k = i
        · subst hki
          exact Or.inl (Monitor.setWorker_self _ _ _)
        · change Function.update f.leaderThread i _ k ≠ none at hk
          rw [Function.update_of_ne hki] at hk
          exact hholds k (h.holds k hk)
      · change ∃ req', Function.update f.leaderThread i _ k = some req'
        by_cases hki : k = i
        · subst hki
          exact ⟨_, Function.update_self _ _ _⟩
        · change Function.update d.owes i true k = true at hk
          rw [Function.update_of_ne hki] at hk ⊢
          exact h.owed k hk
      · change Function.update d.owes i true k = true
        by_cases hki : k = i
        · rw [hki, Function.update_self]
        · change (d.monitor.setWorker i .unlocking).worker k = _ at hk
          rw [Monitor.setWorker_of_ne _ hki] at hk
          rw [Function.update_of_ne hki]
          exact h.unlocking k hk
      · change f.Maintains k at hk
        have hki : k ≠ i := by
          rintro rfl
          exact hfree hk
        change Function.update d.owes i true k = false ∧ Function.update f.leaderThread i _ k ≠ none
        rw [Function.update_of_ne hki, Function.update_of_ne hki]
        exact h.busy k hk
      · change f.customer req'.stub = _ ∧ Function.update cu req.stub _ req'.stub = _
        by_cases hki : k = i
        · subst hki
          rw [hself hk]
          exact ⟨hwaiting, Function.update_self _ _ _⟩
        · have hold := hothers hki hk
          rw [Function.update_of_ne (hapart hold)]
          exact h.resolved k req' hold
      · by_cases hki : k = i
        · by_cases hki' : k' = i
          · rw [hki, hki']
          · subst hki
            rw [hself hk] at hstub
            exact absurd hstub.symm (hapart (hothers hki' hk'))
        · by_cases hki' : k' = i
          · subst hki'
            rw [hself hk'] at hstub
            exact absurd hstub (hapart (hothers hki hk))
          · exact h.distinct k k' req₁ req₂ (hothers hki hk) (hothers hki' hk') hstub
      · change f.customer req'.stub = _ ∧ Function.update cu req.stub _ req'.stub = _
        have hne : req'.stub ≠ req.stub := by
          intro heq
          exact hhead (heq ▸ List.mem_map_of_mem hreq)
        rw [Function.update_of_ne hne]
        exact hqueued req' (List.mem_cons_of_mem _ hreq)
      · change Function.update cu req.stub _ stub = f.customer stub
        have hne : stub ≠ req.stub := by
          refine Ne.symm (hstub i (req.takenBy i) ⟨?_, ?_⟩)
          · exact Function.update_self _ _ _
          · exact Function.update_self _ _ _
        rw [Function.update_of_ne hne]
        exact h.same stub fun k req' hk => hstub k req' (hkept hk)
      · rcases h.waits stub hstub with ⟨req', hreq, hreqStub⟩ | ⟨k, req', hk, hreqStub⟩
        · rw [hqueue, List.mem_cons] at hreq
          rcases hreq with rfl | hrest
          · refine Or.inr ⟨i, req'.takenBy i, ⟨?_, ?_⟩, hreqStub⟩
            · exact Function.update_self _ _ _
            · exact Function.update_self _ _ _
          · exact Or.inl ⟨req', hrest, hreqStub⟩
        · exact Or.inr ⟨k, req', hkept hk, hreqStub⟩
  | _ => cases hlabel

/-- A promise is kept.  The atomic step has been before. -/
lemma Ahead.setValue (h : Ahead d f cu) {i : Fin 4} {req : LeaderRequest} (howes : d.Owes f i req)
    (hbusy : d.monitor.worker i = .busy) :
    Ahead { d with owes := Function.update d.owes i false }
      { f with customer := Function.update f.customer req.stub (.resolved req.laptop) } cu := by
  obtain ⟨hwaiting, hfuture⟩ := h.resolved i req howes
  have hothers : ∀ {k : Fin 4} {req' : LeaderRequest},
      Dispatch.Owes { d with owes := Function.update d.owes i false }
        { f with customer := Function.update f.customer req.stub (.resolved req.laptop) } k req' →
      d.Owes f k req' ∧ req'.stub ≠ req.stub := by
    rintro k req' ⟨hk, hreq⟩
    change Function.update d.owes i false k = true at hk
    have hki : k ≠ i := by
      rintro rfl
      rw [Function.update_self] at hk
      cases hk
    rw [Function.update_of_ne hki] at hk
    have hold : d.Owes f k req' := ⟨hk, hreq⟩
    exact ⟨hold, fun heq => hki (h.distinct k i req' req hold howes heq)⟩
  refine ⟨h.sound, h.holds, fun k hk => ?_, fun k hk => ?_, fun k hk => ?_, fun k req' hk => ?_,
    fun k k' req₁ req₂ hk hk' => h.distinct k k' req₁ req₂ (hothers hk).1 (hothers hk').1,
    fun req' hreq => ?_, h.nodup, fun stub req' hreq => ?_, fun stub hstub => ?_,
    fun stub hstub => ?_, h.active⟩
  · change Function.update d.owes i false k = true at hk
    by_cases hki : k = i
    · subst hki
      rw [Function.update_self] at hk
      cases hk
    · rw [Function.update_of_ne hki] at hk
      exact h.owed k hk
  · change Function.update d.owes i false k = true
    have hki : k ≠ i := by
      rintro rfl
      have hpc : d.monitor.worker k = .unlocking := hk
      rw [hbusy] at hpc
      cases hpc
    rw [Function.update_of_ne hki]
    exact h.unlocking k hk
  · obtain ⟨hkept, hsome⟩ := h.busy k hk
    refine ⟨?_, hsome⟩
    change Function.update d.owes i false k = false
    by_cases hki : k = i
    · rw [hki, Function.update_self]
    · rw [Function.update_of_ne hki]
      exact hkept
  · obtain ⟨hold, hne⟩ := hothers hk
    change Function.update f.customer req.stub _ req'.stub = _ ∧ _
    rw [Function.update_of_ne hne]
    exact h.resolved k req' hold
  · have hne : req'.stub ≠ req.stub := by
      intro heq
      have hqueued := (h.queued req' hreq).2
      rw [heq, hfuture] at hqueued
      cases hqueued
    change Function.update f.customer req.stub _ req'.stub = _ ∧ _
    rw [Function.update_of_ne hne]
    exact h.queued req' hreq
  · obtain ⟨hidle, hrequest⟩ := h.asked stub req' hreq
    have hne : stub ≠ req.stub := by
      rintro rfl
      rw [hwaiting] at hidle
      cases hidle
    refine ⟨?_, hrequest⟩
    change Function.update f.customer req.stub _ stub = _
    rw [Function.update_of_ne hne]
    exact hidle
  · change _ = Function.update f.customer req.stub _ stub
    by_cases hs : stub = req.stub
    · rw [hs, Function.update_self]
      exact hfuture
    · rw [Function.update_of_ne hs]
      refine h.same stub fun k req' hk heq => ?_
      by_cases hki : k = i
      · subst hki
        have hreq := hk.2
        rw [howes.2, Option.some.injEq] at hreq
        exact hs (heq ▸ hreq ▸ rfl)
      · refine hstub k req' ⟨?_, hk.2⟩ heq
        exact (Function.update_of_ne hki _ _).trans hk.1
  · change Function.update f.customer req.stub _ stub = _ at hstub
    have hs : stub ≠ req.stub := by
      rintro rfl
      rw [Function.update_self] at hstub
      cases hstub
    rw [Function.update_of_ne hs] at hstub
    refine (h.waits stub hstub).imp_right ?_
    rintro ⟨k, req', hk, rfl⟩
    have hki : k ≠ i := by
      rintro rfl
      have hreq := hk.2
      rw [howes.2, Option.some.injEq] at hreq
      exact hs (hreq ▸ rfl)
    exact ⟨k, req', ⟨(Function.update_of_ne hki _ _).trans hk.1, hk.2⟩, rfl⟩

/-- **A step of a thread** is one of the atomic steps, or none. -/
lemma Ahead.step (h : Ahead d f cu) {l : DispatchLabel} (hst : d.step f l = some (d', f')) :
    (∃ customer, f' = f.withCustomer customer ∧ Ahead d' f' cu) ∨
    (∃ stub request, cu stub = .idle ∧
      f' = { f with
        erq := f.erq ++ [⟨LaptopInfo.ofRequest request stub, stub⟩]
        customer := Function.update f.customer stub .waiting } ∧
      Ahead d' f' (Function.update cu stub .waiting)) ∨
    ∃ i req rest, f.erq = req :: rest ∧ f.leaderThread i = none ∧
      f' = { f with
        erq := rest
        leaderThread := Function.update f.leaderThread i (some (req.takenBy i)) } ∧
      Ahead d' f' (Function.update cu req.stub (.resolved (req.takenBy i).laptop)) := by
  cases l with
  | call stub request =>
      simp only [Dispatch.step] at hst
      split at hst
      · rename_i hidle
        obtain ⟨m, hoffer, hp⟩ := Option.map_eq_some_iff.1 hst
        obtain ⟨rfl, rfl⟩ := Prod.mk.inj hp
        exact Or.inl ⟨f.customer, rfl, h.call hidle hoffer⟩
      · cases hst
  | setValue i =>
      simp only [Dispatch.step] at hst
      split at hst
      · rename_i req hreq
        split at hst
        · rename_i howes
          obtain ⟨rfl, rfl⟩ := Prod.mk.inj (Option.some.inj hst)
          exact Or.inl ⟨Function.update f.customer req.stub (.resolved req.laptop), rfl,
            h.setValue ⟨howes.1, hreq⟩ howes.2⟩
        · cases hst
      · cases hst
  | monitor l =>
      simp only [Dispatch.step] at hst
      split at hst
      · rename_i hreturned
        obtain ⟨⟨m, erq⟩, hmonitor, hp⟩ := Option.map_eq_some_iff.1 hst
        have hother : (∀ j, l ≠ .push j) → (∀ i, l ≠ .pop i) →
            ({ d with monitor := m }, f) = (d', f') →
            ∃ customer, f' = f.withCustomer customer ∧ Ahead d' f' cu := by
          intro hpush hpop heq
          obtain ⟨rfl, rfl⟩ := Prod.mk.inj heq
          have hsound := h.sound.step hmonitor
          have hstep := Monitor.step_cases hmonitor
          rw [hstep.queue_eq hpush hpop] at hsound
          exact ⟨f.customer, rfl, h.monitor hsound
            (fun i hi => hstep.holds (h.holds i hi) fun heq => hi (hreturned i heq))
            (fun i hi => hstep.unlocking hi (hpop i))
            (fun stub req hreq => (hstep.offers hreq).1) (hstep.within h.active)⟩
        cases l with
        | push stub =>
            obtain ⟨request, hidle, rfl, hahead⟩ := h.push hmonitor
            obtain ⟨rfl, rfl⟩ := Prod.mk.inj hp
            exact Or.inr (Or.inl ⟨stub, request, hidle, rfl, hahead⟩)
        | pop i =>
            obtain ⟨req, herq, hnone, hahead⟩ := h.pop hmonitor
            have hhead : f.erq.head?.map (·.takenBy i) = some (req.takenBy i) := by rw [herq]; rfl
            simp only [Dispatch.effect, hhead] at hp
            obtain ⟨rfl, rfl⟩ := Prod.mk.inj hp
            exact Or.inr (Or.inr ⟨i, req, erq, herq, hnone, rfl, hahead⟩)
        | _ => exact Or.inl (hother (by simp) (by simp) hp)
      · cases hst

end Ahead

/-! ## The simulation -/

/-- A state of `threaded`, and one of `system` that differs from it in the futures only. -/
def InStep (cfg : Config) (p : Cluster × (ℤ → Dispatch)) (a : Cluster) : Prop :=
  ∃ cu, a = p.1.withCustomers cu ∧ ∀ s ∈ cfg.ids, Ahead (p.2 s) (p.1.server s) (cu s)

/-- A condition on the steps of the cluster that does not concern the queue. -/
structure IgnoresQueue (ok : Cluster → Label → Prop) : Prop where
  customers : ∀ c cu l, ok c l → ok (c.withCustomers cu) l
  queue : ∀ c l, l.OfQueue → ok c l

/-- The condition, for the steps of the cluster that are left as they are. -/
def onCluster (ok : Cluster → Label → Prop) (p : Cluster × (ℤ → Dispatch)) :
    Label ⊕ ℤ × DispatchLabel → Prop
  | .inl l => ok p.1 l
  | .inr _ => True

instance (ok : Cluster → Label → Prop) [∀ c l, Decidable (ok c l)] (p : Cluster × (ℤ → Dispatch)) :
    DecidablePred (onCluster ok p)
  | .inl l => inferInstanceAs (Decidable (ok p.1 l))
  | .inr _ => .isTrue trivial

lemma anyStep_ignoresQueue : IgnoresQueue anyStep := ⟨fun _ _ _ _ => trivial, fun _ _ _ => trivial⟩

lemma keepsAcks_ignoresQueue : IgnoresQueue KeepsAcks := by
  constructor
  · intro c cu l h
    have hclean : StartsClean (c.withCustomers cu) l := by cases l <;> exact h.clean
    have hmajority : DecidesByMajority (c.withCustomers cu) l := by cases l <;> exact h.majority
    have hgenuine : NoGarbageVote (c.withCustomers cu) l := by cases l <;> exact h.genuine
    have hacts : ActsAsLeader (c.withCustomers cu) l := by cases l <;> exact h.acts
    exact ⟨⟨⟨⟨h.fresh, h.named⟩, hclean, hmajority, hgenuine⟩, hacts⟩, h.honest⟩
  · intro c l hl
    cases l with
    | createLaptop | dequeue | shipLaptop =>
        exact ⟨⟨⟨⟨trivial, trivial⟩, trivial, trivial, trivial⟩, trivial⟩, trivial⟩
    | _ => exact absurd hl id

section Simulation

variable {cfg : Config} {ok : Cluster → Label → Prop} {c c' a : Cluster} {ds : ℤ → Dispatch}
  {cu : ℤ → ℕ → Customer} {tr es : List Event} {l : Label}

lemma step_of_act (hactor : ∀ s ∈ l.actor, s ∈ cfg.ids) (hact : c.act l = some (c', es)) :
    (system cfg).step c l = some (c', es) := by
  change (if ∀ s ∈ l.actor, s ∈ cfg.ids then c.act l else none) = _
  rw [if_pos hactor, hact]

/-- The step of a run, as far as the updates of server `q` are concerned. -/
lemma updateStep_of_run (hrun : (system cfg).Run ok a tr) {a' : Cluster}
    (hst : (system cfg).step a l = some (a', es)) {q : ℤ} (hq : q ∈ cfg.ids) :
    ∃ j j', UpdateStep q l (a.server q) (a'.server q) j j' := by
  obtain ⟨js, hobserved⟩ : ∃ js, (journaled cfg).Run (fun p l => ok p.1 l) (a, js) tr :=
    hrun.observe
  have hstep : (journaled cfg).step (a, js) l = some ((a', watchJournals js a l), es) :=
    observed_step_iff.2 ⟨hst, rfl⟩
  exact ⟨_, _, updateStep_of_step hobserved hstep hq⟩

/-- A step outside of the queue leaves the futures as they are. -/
lemma customer_eq (hl : ¬ l.OfQueue) (hact : c.act l = some (c', es)) (q : ℤ) :
    (c'.server q).customer = (c.server q).customer := by
  have hown := c.act_withCustomers (fun s => (c.server s).customer) hl
  have hsame : c.withCustomers (fun s => (c.server s).customer) = c := rfl
  rw [hsame, hact] at hown
  have hc' := congrArg Prod.fst (Option.some.inj hown)
  have hq := congrArg (fun c => (c.server q).customer) hc'
  exact hq

lemma InStep.other (hrun : (system cfg).Run ok (c.withCustomers cu) tr)
    (hahead : ∀ s ∈ cfg.ids, Ahead (ds s) (c.server s) (cu s)) (hl : ¬ l.OfQueue)
    (hunchanged : Unchanged ds l) (hst : (system cfg).step c l = some (c', es)) :
    (system cfg).step (c.withCustomers cu) l = some (c'.withCustomers cu, es) ∧
      ∀ s ∈ cfg.ids, Ahead (ds s) (c'.server s) (cu s) := by
  have hact := act_of_step hst
  have hst' : (system cfg).step (c.withCustomers cu) l = some (c'.withCustomers cu, es) := by
    refine step_of_act (mem_of_step hst) ?_
    rw [c.act_withCustomers cu hl, hact]
    rfl
  refine ⟨hst', fun q hq => ?_⟩
  have h := hahead q hq
  obtain ⟨j, j', hupdate⟩ := updateStep_of_run hrun hst' hq
  have hcustomer := customer_eq hl hact q
  cases hupdate with
  | arrive hlabel | take hlabel | ship hlabel =>
      subst hlabel
      exact absurd trivial hl
  | @append i req accepts ack hlabel hreq hfree hserver hjournal =>
      subst hlabel
      have hfields : ((c'.withCustomers cu).server q).erq = (c.server q).erq ∧
          ((c'.withCustomers cu).server q).leaderThread = (c.server q).leaderThread := by
        rw [hserver]
        exact ⟨rfl, rfl⟩
      have hthread : (c'.server q).leaderThread = (c.server q).leaderThread := hfields.2
      refine h.frame hfields.1 hcustomer (fun k => Or.inl (by rw [hthread])) fun k hk => ?_
      · obtain ⟨loop, hlock⟩ : ∃ loop, ((c'.withCustomers cu).server q).metaLock =
            .replicateLog (.leaderThread i) loop := by
          rw [hserver]
          exact ⟨_, rfl⟩
        have hcaller := (LaptopFactory.maintains_iff_of_caller hlock k).1 hk
        obtain rfl := Caller.leaderThread.inj hcaller
        have hsome : (c.server q).leaderThread i = some req := hreq
        rw [hthread, hsome]
        exact ⟨hunchanged, by simp⟩
  | @leave i hlock hfree hthread herq _ hlog hjournal =>
      refine h.frame herq hcustomer (fun k => ?_) fun k hk => ?_
      · have hleft : (c'.server q).leaderThread =
            Function.update (c.server q).leaderThread i none := hthread
        rw [hleft]
        by_cases hk : k = i
        · subst hk
          exact Or.inr ⟨hlock, Function.update_self _ _ _⟩
        · exact Or.inl (Function.update_of_ne hk _ _)
      · exact absurd hk (LaptopFactory.not_maintains_of_free hfree k)
  | other hthread herq _ hlock =>
      have hsame : (c'.server q).leaderThread = (c.server q).leaderThread := hthread
      refine h.frame herq hcustomer (fun k => Or.inl (by rw [hsame])) fun k hk => ?_
      rw [hsame]
      exact h.busy k ((hlock k).1 hk)

/-- A step of the cluster. -/
lemma InStep.cluster (hrun : (system cfg).Run ok (c.withCustomers cu) tr)
    (hahead : ∀ s ∈ cfg.ids, Ahead (ds s) (c.server s) (cu s)) (hunchanged : Unchanged ds l)
    (hst : (system cfg).step c l = some (c', es)) :
    ∃ cu', (system cfg).step (c.withCustomers cu) l = some (c'.withCustomers cu', es) ∧
      ∀ s ∈ cfg.ids, Ahead (ds s) (c'.server s) (cu' s) := by
  cases l with
  | createLaptop | dequeue => exact absurd hunchanged id
  | shipLaptop s stub =>
      have hs : s ∈ cfg.ids := mem_of_step hst s rfl
      have hact := act_of_step hst
      simp only [Cluster.act, LaptopFactory.shipLaptop] at hact
      obtain ⟨r, hship, hp⟩ := Option.map_eq_some_iff.1 hact
      split at hship
      · rename_i laptop hresolved
        obtain rfl := Option.some.inj hship
        obtain ⟨rfl, rfl⟩ := Prod.mk.inj hp
        have hfuture : ((c.withCustomers cu).server s).customer stub = .resolved laptop := by
          change cu s stub = _
          rw [(hahead s hs).same_of_ne (by simp [hresolved]), hresolved]
        refine ⟨Function.update cu s (Function.update (cu s) stub .idle), ?_, fun q hq => ?_⟩
        · refine step_of_act (mem_of_step hst) ?_
          simp only [Cluster.act, LaptopFactory.shipLaptop, hfuture]
          rw [Option.map_some, ← Cluster.setServer_withCustomers]
          rfl
        · by_cases hqs : q = s
          · subst hqs
            change Ahead _ (Function.update c.server q _ q) _
            rw [Function.update_self, Function.update_self]
            exact (hahead q hq).ship hresolved
          · change Ahead _ (Function.update c.server s _ q) _
            rw [Function.update_of_ne hqs, Function.update_of_ne hqs]
            exact hahead q hq
      · cases hship
  | _ => exact ⟨cu, InStep.other hrun hahead id hunchanged hst⟩

/-- A step of a thread on its way through the queue. -/
lemma InStep.thread (hok : IgnoresQueue ok)
    (hahead : ∀ s ∈ cfg.ids, Ahead (ds s) (c.server s) (cu s)) {s : ℤ} (hs : s ∈ cfg.ids)
    {d' : Dispatch} {f' : LaptopFactory} {l : DispatchLabel}
    (hst : (ds s).step (c.server s) l = some (d', f')) (tr : List Event) :
    ∃ cu', (system cfg).Path ok (c.withCustomers cu, tr)
        ((c.setServer s f').withCustomers cu', tr) ∧
      ∀ q ∈ cfg.ids, Ahead (Function.update ds s d' q) ((c.setServer s f').server q) (cu' q) := by
  -- the other servers are not concerned
  have hothers : ∀ customer, Ahead d' f' customer → ∀ q ∈ cfg.ids,
      Ahead (Function.update ds s d' q) ((c.setServer s f').server q)
        (Function.update cu s customer q) := by
    intro customer hself q hq
    change Ahead _ (Function.update c.server s f' q) _
    by_cases hqs : q = s
    · subst hqs
      rw [Function.update_self, Function.update_self, Function.update_self]
      exact hself
    · rw [Function.update_of_ne hqs, Function.update_of_ne hqs, Function.update_of_ne hqs]
      exact hahead q hq
  have hstep : ∀ {l : Label} {customer : ℕ → Customer}, l.OfQueue → l.actor = some s →
      (c.withCustomers cu).act l =
        some ((c.withCustomers cu).setServer s (f'.withCustomer customer), []) →
      (system cfg).Path ok (c.withCustomers cu, tr)
        ((c.setServer s f').withCustomers (Function.update cu s customer), tr) := by
    intro l customer hl hactor hact
    refine .single ⟨l, [], hok.queue _ _ hl, step_of_act (fun q hq => ?_) ?_,
      (List.append_nil tr).symm⟩
    · rw [hactor] at hq
      obtain rfl := Option.some.inj hq
      exact hs
    · rw [hact, Cluster.setServer_withCustomers]
  rcases (hahead s hs).step hst with ⟨customer, hserver, hself⟩ |
    ⟨stub, request, hidle, hserver, hself⟩ | ⟨i, req, rest, herq, hnone, hserver, hself⟩
  · refine ⟨Function.update cu s (cu s), ?_, hothers _ hself⟩
    have hsame : (c.setServer s f').withCustomers (Function.update cu s (cu s)) =
        c.withCustomers cu := by
      rw [← Cluster.setServer_withCustomers, hserver]
      exact congrArg (fun g => { c.withCustomers cu with server := g })
        (Function.update_eq_self s _)
    rw [hsame]
    exact .refl
  · refine ⟨_, hstep (l := .createLaptop s stub request) trivial rfl ?_, hothers _ hself⟩
    have hfuture : ((c.withCustomers cu).server s).customer stub = .idle := hidle
    simp only [Cluster.act, Cluster.move, LaptopFactory.createLaptop, hfuture, if_true,
      Option.map_some, hserver]
    rfl
  · refine ⟨_, hstep (l := .dequeue s i) trivial rfl ?_, hothers _ hself⟩
    have herq' : ((c.withCustomers cu).server s).erq = req :: rest := herq
    have hnone' : ((c.withCustomers cu).server s).leaderThread i = none := hnone
    simp only [Cluster.act, Cluster.move, LaptopFactory.dequeue, herq', hnone', Option.map_some,
      hserver]
    rfl

/-- **Simulation** of the cluster of threads by the cluster of atomic steps. -/
theorem threads_simulate (cfg : Config) (hok : IgnoresQueue ok) :
    Simulation (threaded cfg) (onCluster ok) (system cfg) ok some (InStep cfg) := by
  constructor
  · rintro ⟨_, ds⟩ ⟨⟨connects, rfl⟩, hds⟩
    change ds = _ at hds
    subst hds
    refine ⟨boot cfg connects, ⟨connects, rfl⟩, fun _ _ => .idle, rfl, fun s _ => ?_⟩
    have hoffers : ∀ stub req, ¬ ({} : Monitor (Fin 4) ℕ LeaderRequest).Offers stub req := by
      rintro stub req (h | h) <;> cases h
    exact ⟨Monitor.Sound.init, fun i hi => absurd rfl hi, nofun, nofun, nofun,
      fun i req h => absurd h.1 (by simp), fun i j req req' h => absurd h.1 (by simp), nofun,
      List.nodup_nil, fun stub req h => absurd h (hoffers stub req), fun _ _ => rfl, nofun,
      ∅, fun j hj => absurd rfl hj⟩
  · rintro ⟨c, ds⟩ tr l ⟨c', ds'⟩ es a tr' - ha hokl hst ⟨cu, rfl, hahead⟩
    rw [List.filterMap_some]
    cases l with
    | inl l =>
        simp only [threaded] at hst
        split at hst
        · rename_i hunchanged
          obtain ⟨⟨c₁, es₁⟩, hcluster, hp⟩ := Option.map_eq_some_iff.1 hst
          simp only [Prod.mk.injEq] at hp
          obtain ⟨⟨rfl, rfl⟩, rfl⟩ := hp
          obtain ⟨cu', hst', hahead'⟩ := InStep.cluster ha hahead hunchanged hcluster
          exact ⟨_, .single ⟨l, es₁, hok.customers _ _ _ hokl, hst', rfl⟩, cu', rfl, hahead'⟩
        · cases hst
    | inr k =>
        obtain ⟨s, l⟩ := k
        simp only [threaded] at hst
        split at hst
        · rename_i hs
          obtain ⟨⟨d', f'⟩, hthread, hp⟩ := Option.map_eq_some_iff.1 hst
          simp only [Prod.mk.injEq] at hp
          obtain ⟨⟨rfl, rfl⟩, rfl⟩ := hp
          obtain ⟨cu', hpath, hahead'⟩ := InStep.thread hok hahead hs hthread tr'
          rw [List.append_nil]
          exact ⟨_, hpath, cu', rfl, hahead'⟩
        · cases hst

end Simulation

/-! ## The threads do not get stuck -/

/-- A step that a thread of the queue takes by itself: not a call, nor a wake-up without notice. -/
def DispatchLabel.Internal : DispatchLabel → Prop
  | .call .. | .monitor (.wake _) => False
  | _ => True

instance : DecidablePred DispatchLabel.Internal := by
  rintro (_ | l | _)
  · exact .isFalse id
  · cases l <;> first | exact .isTrue trivial | exact .isFalse id
  · exact .isTrue trivial

/-- The threads of one server, left to themselves. -/
def alone : TransitionSystem (Dispatch × LaptopFactory) DispatchLabel Event where
  init _ := True
  step a l := if l.Internal then (a.1.step a.2 l).map fun b => (b, []) else none

lemma alone_step_iff {a b : Dispatch × LaptopFactory} {l : DispatchLabel} {es : List Event} :
    alone.step a l = some (b, es) ↔ l.Internal ∧ a.1.step a.2 l = some b ∧ es = [] := by
  constructor
  · intro h
    simp only [alone] at h
    split at h
    · rename_i hinternal
      obtain ⟨b', hst, hp⟩ := Option.map_eq_some_iff.1 h
      obtain ⟨rfl, rfl⟩ := Prod.mk.inj hp
      exact ⟨hinternal, hst, rfl⟩
    · cases h
  · rintro ⟨hinternal, hst, rfl⟩
    simp only [alone, if_pos hinternal, hst, Option.map_some]

/-- Nobody is on its way through the queue, and nobody waits for a future, unless all the
`LeaderThread`s are in `LeaderMaintainLog` or on their way to it. -/
structure Drained (d : Dispatch) (f : LaptopFactory) : Prop where
  calls : ∀ stub, d.monitor.client stub = .outside
  promises : ∀ i, d.owes i = false
  served : (f.erq = [] ∧ ∀ stub, f.customer stub ≠ .waiting) ∨ ∀ i, (f.leaderThread i).isSome

section Drain

variable {d d' : Dispatch} {f f' : LaptopFactory} {cu : ℕ → Customer}

/-- A `LeaderThread` that has returned from `LeaderMaintainLog` comes back once. -/
def returning : WorkerPc → Option LeaderRequest → ℕ
  | .busy, none => 9
  | _, _ => 0

lemma returning_eq_zero {pc : WorkerPc} {req : Option LeaderRequest}
    (h : pc = .busy → req ≠ none) : returning pc req = 0 := by
  cases pc <;> cases req <;> first | rfl | exact absurd rfl (h rfl)

/-- How many steps the threads may take by themselves. -/
def Dispatch.measure (clients : Finset ℕ) (a : Dispatch × LaptopFactory) : ℕ :=
  2 * a.1.monitor.measure clients +
    ∑ i, returning (a.1.monitor.worker i) (a.2.leaderThread i) + ∑ i, (a.1.owes i).toNat

/-- A step of a `LeaderThread` or of a call on the queue. -/
lemma Ahead.monitor_lt (h : Ahead d f cu) {clients : Finset ℕ}
    (hwithin : d.monitor.Within clients) {l : MonitorLabel (Fin 4) ℕ} (hinternal : l.Internal)
    {m : Monitor (Fin 4) ℕ LeaderRequest} {erq : List LeaderRequest}
    (hst : d.monitor.step f.erq l = some (m, erq)) :
    Dispatch.measure clients (d.effect f m erq l) < Dispatch.measure clients (d, f) := by
  have hlt := (Monitor.step_lt hst hinternal hwithin).1
  have hstep := Monitor.step_cases hst
  -- a `LeaderThread` that gets out of the lock has a request
  have hreturning : ∀ g : LaptopFactory, (∀ i, g.leaderThread i = none → f.leaderThread i = none) →
      ∑ i, returning (m.worker i) (g.leaderThread i) ≤
        ∑ i, returning (d.monitor.worker i) (f.leaderThread i) := by
    intro g hg
    refine Finset.sum_le_sum fun i _ => ?_
    by_cases hi : m.worker i = .busy ∧ g.leaderThread i = none
    · have hnone := hg i hi.2
      rcases hstep.busy hi.1 with hsame | hunlocking
      · rw [hi.1, hi.2, hsame, hnone]
      · obtain ⟨req, hreq⟩ := h.owed i (h.unlocking i hunlocking)
        rw [hnone] at hreq
        cases hreq
    · rw [returning_eq_zero fun hbusy hnone => hi ⟨hbusy, hnone⟩]
      exact Nat.zero_le _
  unfold Dispatch.measure
  cases l with
  | pop i =>
      obtain ⟨req, herq, -⟩ := h.pop hst
      have hhead : f.erq.head?.map (·.takenBy i) = some (req.takenBy i) := by rw [herq]; rfl
      have hsum := Monitor.sum_update Finset.univ Bool.toNat d.owes (Finset.mem_univ i) true
      have hle := hreturning
        { f with leaderThread := Function.update f.leaderThread i (some (req.takenBy i)) }
        fun k hk => by
          change Function.update f.leaderThread i _ k = none at hk
          by_cases hki : k = i
          · subst hki
            rw [Function.update_self] at hk
            cases hk
          · rwa [Function.update_of_ne hki] at hk
      simp only [Dispatch.effect, hhead, Bool.toNat_true] at hsum hle ⊢
      omega
  | push stub =>
      have hle := hreturning f fun _ => id
      simp only [Dispatch.effect]
      omega
  | finish | wake => exact absurd hinternal id
  | _ =>
      have hle := hreturning f fun _ => id
      simp only [Dispatch.effect]
      omega

/-- A `LeaderThread` that has returned comes back for the next request. -/
lemma finish_lt {i : Fin 4} (hpc : d.monitor.worker i = .busy) (hnone : f.leaderThread i = none)
    (clients : Finset ℕ) :
    Dispatch.measure clients ({ d with monitor := d.monitor.setWorker i .atLock }, f) <
      Dispatch.measure clients (d, f) := by
  have hmonitor := d.monitor.measure_setWorker clients i .atLock
  have hsum := Monitor.sum_update Finset.univ
    (fun r : WorkerPc × Option LeaderRequest => returning r.1 r.2)
    (fun j => (d.monitor.worker j, f.leaderThread j)) (Finset.mem_univ i)
    (.atLock, f.leaderThread i)
  have hpairs : ∀ j, Function.update (fun j => (d.monitor.worker j, f.leaderThread j)) i
      (.atLock, f.leaderThread i) j =
        ((d.monitor.setWorker i .atLock).worker j, f.leaderThread j) := by
    intro j
    by_cases hj : j = i
    · subst hj
      rw [Function.update_self, Monitor.setWorker_self]
    · rw [Function.update_of_ne hj, Monitor.setWorker_of_ne _ hj]
  simp only [hpairs] at hsum
  have hbefore : returning (d.monitor.worker i) (f.leaderThread i) = 9 := by rw [hpc, hnone]; rfl
  have hafter : returning .atLock (f.leaderThread i) = 0 := by rw [hnone]; rfl
  rw [hbefore, hafter] at hsum
  simp only [hpc, WorkerPc.weight] at hmonitor
  simp only [Dispatch.measure]
  omega

/-- **Internal steps come to an end.** -/
lemma Ahead.step_lt (h : Ahead d f cu) {clients : Finset ℕ} (hwithin : d.monitor.Within clients)
    {l : DispatchLabel} (hinternal : l.Internal) (hst : d.step f l = some (d', f')) :
    Dispatch.measure clients (d', f') < Dispatch.measure clients (d, f) ∧
      d'.monitor.Within clients := by
  cases l with
  | call => exact absurd hinternal id
  | setValue i =>
      simp only [Dispatch.step] at hst
      split at hst
      · split at hst
        · rename_i req hreq howes
          obtain ⟨rfl, rfl⟩ := Prod.mk.inj (Option.some.inj hst)
          have hsum := Monitor.sum_update Finset.univ Bool.toNat d.owes (Finset.mem_univ i) false
          rw [howes.1] at hsum
          refine ⟨?_, hwithin⟩
          simp only [Dispatch.measure, Bool.toNat_true, Bool.toNat_false] at hsum ⊢
          omega
        · cases hst
      · cases hst
  | monitor l =>
      simp only [Dispatch.step] at hst
      split at hst
      · rename_i hreturned
        obtain ⟨⟨m, erq⟩, hmonitor, hp⟩ := Option.map_eq_some_iff.1 hst
        by_cases hl : l.Internal
        · have hlt := h.monitor_lt hwithin hl hmonitor
          have hwithin' := (Monitor.step_lt hmonitor hl hwithin).2
          rw [hp] at hlt
          refine ⟨hlt, ?_⟩
          have hsame : d'.monitor = m := by
            have hfst := congrArg (fun r => r.1.monitor) hp
            rw [← hfst]
            cases l <;> rfl
          rw [hsame]
          exact hwithin'
        · cases l with
          | finish i =>
              have hnone := hreturned i rfl
              have hstep := Monitor.step_cases hmonitor
              generalize hlabel : MonitorLabel.finish i = l at hstep
              cases hstep with
              | @finish k hpc =>
                  obtain rfl := MonitorLabel.finish.inj hlabel
                  obtain ⟨rfl, rfl⟩ := Prod.mk.inj hp
                  exact ⟨finish_lt hpc hnone clients, hwithin⟩
              | _ => cases hlabel
          | wake => exact absurd hinternal id
          | _ => exact absurd trivial hl
      · cases hst

/-- **Where they end.** -/
lemma Ahead.drained (h : Ahead d f cu)
    (hstuck : ∀ l : DispatchLabel, l.Internal → d.step f l = none) : Drained d f := by
  have hmonitor : ∀ l : MonitorLabel (Fin 4) ℕ, l.Internal → d.monitor.step f.erq l = none := by
    intro l hl
    have hnot : ∀ i, l = .finish i → f.leaderThread i = none := by
      rintro i rfl
      exact absurd hl id
    have hnone := hstuck (.monitor l) (by cases l <;> trivial)
    simp only [Dispatch.step] at hnone
    rw [if_pos hnot] at hnone
    exact Option.map_eq_none_iff.1 hnone
  have hkept : ∀ i, d.owes i = false := by
    intro i
    by_contra howes
    rw [Bool.not_eq_false] at howes
    obtain ⟨req, hreq⟩ := h.owed i howes
    rcases h.holds i (by simp [hreq]) with hpc | hpc
    · have hunlock := hmonitor (.workerUnlock i) trivial
      simp [Monitor.step, hpc] at hunlock
    · have hset := hstuck (.setValue i) trivial
      simp [Dispatch.step, hreq, howes, hpc] at hset
  obtain ⟨hcalls, hqueue⟩ := h.sound.stuck hmonitor
  refine ⟨hcalls, hkept, ?_⟩
  rcases hqueue with hempty | hbusy
  · refine Or.inl ⟨hempty, fun stub hwaiting => ?_⟩
    rcases h.waits stub hwaiting with ⟨req, hreq, -⟩ | ⟨i, req, hi, -⟩
    · rw [hempty] at hreq
      cases hreq
    · have howes := hi.1
      rw [hkept i] at howes
      cases howes
  · refine Or.inr fun i => ?_
    by_contra hnone
    rw [Option.not_isSome_iff_eq_none] at hnone
    have hfinish := hstuck (.monitor (.finish i)) trivial
    simp [Dispatch.step, Monitor.step, hbusy i, hnone] at hfinish

end Drain

/-! ## Runs -/

section Runs

variable {cfg : Config} {ok : Cluster → Label → Prop} {p : Cluster × (ℤ → Dispatch)}
  {tr : List Event} {s : ℤ}

/-- **The threads do what the atomic steps do.** -/
theorem threads_refine (hok : IgnoresQueue ok) (hrun : (threaded cfg).Run (onCluster ok) p tr) :
    ∃ a, (system cfg).Run ok a tr ∧ InStep cfg p a := by
  have h := (threads_simulate cfg hok).run hrun
  rwa [List.filterMap_some] at h

/-- What holds of the logs of all runs of `system` holds of them thread by thread, for one: the
servers execute the same entries in the same order. -/
theorem threads_agree (hrun : (threaded cfg).Run (onCluster KeepsAcks) p tr) {t : ℤ}
    (hs : s ∈ cfg.ids) (ht : t ∈ cfg.ids) :
    p.1.executed s <+: p.1.executed t ∨ p.1.executed t <+: p.1.executed s := by
  have hsim := (threads_simulate cfg keepsAcks_ignoresQueue).run hrun
  rw [List.filterMap_some] at hsim
  obtain ⟨a, hrun', cu, rfl, -⟩ := hsim
  have hagreeing := agreeing_of_run hrun'
  exact (hagreeing.executed s hs).comparable (hagreeing.executed t ht)

lemma ahead_of_run (hrun : (threaded cfg).Run anyStep p tr) (hs : s ∈ cfg.ids) :
    ∃ cu, Ahead (p.2 s) (p.1.server s) cu := by
  have hrun' : (threaded cfg).Run (onCluster anyStep) p tr :=
    hrun.mono fun p l _ => by cases l <;> trivial
  obtain ⟨a, -, cu, -, hahead⟩ := (threads_simulate cfg anyStep_ignoresQueue).run hrun'
  exact ⟨cu s, hahead s hs⟩

/-- What holds at every moment of the threads that use `erq`. -/
structure QueueSafe (d : Dispatch) (f : LaptopFactory) : Prop where
  /-- Whoever is between `lock` and `unlock` has the lock. -/
  exclusive : d.monitor.Exclusive
  /-- Nobody pops from an empty queue. -/
  nonempty : ∀ i, d.monitor.worker i = .popping → f.erq ≠ []
  /-- While a `LeaderThread` is asleep, somebody is awake for whatever is in the queue. -/
  heard : d.monitor.Heard f.erq
  /-- A connection that waits has its request in the queue or in the hands of one `LeaderThread`. -/
  waits : ∀ stub, f.customer stub = .waiting →
    (∃ req ∈ f.erq, req.stub = stub) ∨ ∃ i req, d.Owes f i req ∧ req.stub = stub
  /-- Nobody is in `LeaderMaintainLog` whose promise is not kept. -/
  kept : ∀ i, f.Maintains i → d.owes i = false

/-- **The queue is safe.** -/
theorem queue_safe (hrun : (threaded cfg).Run anyStep p tr) (hs : s ∈ cfg.ids) :
    QueueSafe (p.2 s) (p.1.server s) := by
  obtain ⟨cu, h⟩ := ahead_of_run hrun hs
  exact ⟨h.sound.exclusive, h.sound.nonempty, h.sound.heard, h.waits, fun i hi => (h.busy i hi).1⟩

/-- **The queue drains.**  Left to themselves, in any order, the threads take finitely many steps;
when they have come to a rest, the queue is drained. -/
theorem queue_drains (hrun : (threaded cfg).Run anyStep p tr) (hs : s ∈ cfg.ids) :
    (∀ run : ℕ → Dispatch × LaptopFactory, run 0 = (p.2 s, p.1.server s) →
      ¬ ∀ n, ∃ l es, alone.step (run n) l = some (run (n + 1), es)) ∧
    ∀ d f, alone.Path anyStep ((p.2 s, p.1.server s), []) ((d, f), []) →
      (∀ l, alone.step (d, f) l = none) → Drained d f := by
  obtain ⟨cu, h⟩ := ahead_of_run hrun hs
  have hahead : ∀ {a b : Dispatch × LaptopFactory} {l : DispatchLabel}, a.1.step a.2 l = some b →
      (∃ cu, Ahead a.1 a.2 cu) → ∃ cu, Ahead b.1 b.2 cu := by
    rintro a b l hst ⟨cu, h⟩
    rcases h.step hst with ⟨customer, -, h'⟩ | ⟨stub, request, -, -, h'⟩ |
      ⟨i, req, rest, -, -, -, h'⟩
    · exact ⟨_, h'⟩
    · exact ⟨_, h'⟩
    · exact ⟨_, h'⟩
  constructor
  · intro run hzero
    obtain ⟨clients, hwithin⟩ := h.active
    refine no_infinite_run (I := fun a => (∃ cu, Ahead a.1 a.2 cu) ∧ a.1.monitor.Within clients)
      (Dispatch.measure clients) (fun a l b es hinv hst => ?_)
      (by rw [hzero]; exact ⟨⟨cu, h⟩, hwithin⟩)
    obtain ⟨⟨⟨cu, ha⟩, hclients⟩, hinternal, hst, -⟩ := And.intro hinv (alone_step_iff.1 hst)
    obtain ⟨hlt, hclients'⟩ := ha.step_lt hclients hinternal hst
    exact ⟨⟨hahead hst ⟨cu, ha⟩, hclients'⟩, hlt⟩
  · intro d f hpath hstuck
    have hend := hpath.invariant (I := fun a => ∃ cu, Ahead a.1 a.2 cu)
      (fun a _ l b es _ _ hst => hahead (alone_step_iff.1 hst).2.1) (.init trivial) ⟨cu, h⟩
    obtain ⟨cu', h'⟩ := hend
    refine h'.drained fun l hinternal => ?_
    have hnone := hstuck l
    simp only [alone, if_pos hinternal] at hnone
    exact Option.map_eq_none_iff.1 hnone

end Runs

/-! ## One update, thread by thread -/

/-- Server 0 is elected.  `LeaderThread` `i` finds no update and sleeps; connection 0 has pushed one
and is about to notify. -/
def pushed (i : Fin 4) : List (Label ⊕ ℤ × DispatchLabel) :=
  (stand 0 ++ callVote 0).map .inl ++
    [.inr (0, .monitor (.workerLock i)), .inr (0, .monitor (.test i)), .inr (0, .call 0 ⟨7, 1, 1⟩),
      .inr (0, .monitor (.clientLock 0)), .inr (0, .monitor (.push 0))]

/-- `LeaderMaintainLog`, with two rounds of `ReplicateLog`. -/
def replicated (i : Fin 4) : List Label :=
  [.leaderMaintainLog 0 i [], .shipLaptop 0 0] ++ callLog 0 ++ callLog 0 ++ [.endRound 0] ++
    callLog 0 ++ callLog 0 ++ [.endRound 0]

/-- It is woken, takes the update, and the update is replicated. -/
def servedByThread (i : Fin 4) : List (Label ⊕ ℤ × DispatchLabel) :=
  pushed i ++
    [.inr (0, .monitor (.notify 0 (some i))), .inr (0, .monitor (.clientUnlock 0)),
      .inr (0, .monitor (.workerLock i)), .inr (0, .monitor (.test i)), .inr (0, .monitor (.pop i)),
      .inr (0, .monitor (.workerUnlock i)), .inr (0, .setValue i)] ++
    (replicated i).map .inl

lemma run_of_threads (ok : Cluster → Label → Prop) [∀ c l, Decidable (ok c l)]
    {P : Cluster × (ℤ → Dispatch) → List Event → Prop} [∀ p tr, Decidable (P p tr)]
    (labels : List (Label ⊕ ℤ × DispatchLabel))
    (h : ((threaded three).exec (onCluster ok) (boot three fun _ _ => true, fun _ => {}) []
      labels).any fun q => P q.1 q.2) :
    ∃ p tr, (threaded three).Run (onCluster ok) p tr ∧ P p tr :=
  run_of_exec (threaded three) (onCluster ok) _ ⟨⟨_, rfl⟩, rfl⟩ labels h

theorem threads_refine_served : ∃ p tr, (threaded three).Run (onCluster KeepsAcks) p tr ∧
    (p.1.server 0).metadata.commitLength = 1 ∧
    ∃ a, (system three).Run KeepsAcks a tr ∧ InStep three p a := by
  obtain ⟨p, tr, hrun, hcommit⟩ := run_of_threads KeepsAcks
    (P := fun p _ => (p.1.server 0).metadata.commitLength = 1) (servedByThread 0)
    (by decide +kernel)
  exact ⟨p, tr, hrun, hcommit, threads_refine keepsAcks_ignoresQueue hrun⟩

theorem threads_agree_served : ∃ p tr, (threaded three).Run (onCluster KeepsAcks) p tr ∧
    p.1.executed 0 = [⟨1, 7, 1⟩] ∧ p.1.executed 2 = [⟨1, 7, 1⟩] ∧
    (p.1.executed 0 <+: p.1.executed 2 ∨ p.1.executed 2 <+: p.1.executed 0) := by
  obtain ⟨p, tr, hrun, hleader, hfollower⟩ := run_of_threads KeepsAcks
    (P := fun p _ => p.1.executed 0 = [⟨1, 7, 1⟩] ∧ p.1.executed 2 = [⟨1, 7, 1⟩]) (servedByThread 0)
    (by decide +kernel)
  exact ⟨p, tr, hrun, hleader, hfollower, threads_agree hrun (by decide) (by decide)⟩

lemma pushed_run : ∃ p tr, (threaded three).Run anyStep p tr ∧
    (p.2 0).monitor.worker 0 = .asleep ∧ (p.1.server 0).erq.length = 1 := by
  obtain ⟨p, tr, hrun, hp⟩ := run_of_threads KeepsAcks
    (P := fun p _ => (p.2 0).monitor.worker 0 = .asleep ∧ (p.1.server 0).erq.length = 1) (pushed 0)
    (by decide +kernel)
  exact ⟨p, tr, hrun.mono fun _ _ _ => trivial, hp⟩

theorem queue_safe_pushed : ∃ p tr, (threaded three).Run anyStep p tr ∧
    (p.2 0).monitor.worker 0 = .asleep ∧ (p.1.server 0).erq.length = 1 ∧
    QueueSafe (p.2 0) (p.1.server 0) := by
  obtain ⟨p, tr, hrun, hasleep, hqueue⟩ := pushed_run
  exact ⟨p, tr, hrun, hasleep, hqueue, queue_safe hrun (by decide)⟩

theorem queue_drains_pushed : ∃ p tr, (threaded three).Run anyStep p tr ∧
    (p.2 0).monitor.worker 0 = .asleep ∧ (p.1.server 0).erq.length = 1 ∧
    (∀ run : ℕ → Dispatch × LaptopFactory, run 0 = (p.2 0, p.1.server 0) →
      ¬ ∀ n, ∃ l es, alone.step (run n) l = some (run (n + 1), es)) ∧
    ∀ d f, alone.Path anyStep ((p.2 0, p.1.server 0), []) ((d, f), []) →
      (∀ l, alone.step (d, f) l = none) → Drained d f := by
  obtain ⟨p, tr, hrun, hasleep, hqueue⟩ := pushed_run
  exact ⟨p, tr, hrun, hasleep, hqueue, queue_drains hrun (by decide)⟩

end LaptopRaft
