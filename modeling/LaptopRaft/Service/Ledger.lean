import LaptopRaft.Framework.Observer
import LaptopRaft.Framework.WorkQueue
import LaptopRaft.Model.Scenario
import LaptopRaft.Properties.Steps

/-!
# No update is lost or duplicated before the log

Every call of `CreateLaptop` makes a `LeaderRequest` of its own.  It lies in `erq`, then a
`LeaderThread` has it, then it is appended; on the way its promise is kept once.  Requests may be
equal in all their fields, so the cluster is observed by a `Ledger` for each server, in which they
have numbers: a `WorkQueue` whose workers are the four `LeaderThread`s.

The balance of arrivals and places is part of the type `WorkQueue`.  What is proved here is that
the server follows its ledger in every state (`Follows`): the requests in `erq`, in the hands of
the `LeaderThread`s and in the log are the ones whose numbers are there.  `updates_balanced` puts
the two together.
-/

namespace LaptopRaft

open ServerMetadata

/-! ## The ledger -/

/-- The request as a `LeaderThread` resolves it. -/
def LeaderRequest.takenBy (i : Fin 4) (req : LeaderRequest) : LeaderRequest :=
  { req with laptop := { req.laptop with adminId := i } }

structure Ledger where
  work : WorkQueue (Fin 4) := .empty
  /-- The update requests in the order of their arrival, with the connection of each. -/
  requests : List (CustomerRequest × ℕ) := []
  /-- What the promises were resolved with. -/
  resolved : List (ℕ × LaptopInfo) := []

namespace Ledger

variable (g : Ledger)

/-- What `CreateLaptop` queues for request `k`. -/
def queued (k : ℕ) : Option LeaderRequest :=
  (g.requests[k]?).map fun r => ⟨LaptopInfo.ofRequest r.1 r.2, r.2⟩

/-- What a step of the server's own threads adds. -/
def watch (f : LaptopFactory) : Label → Ledger
  | .createLaptop _ stub request =>
      { g with work := g.work.arrive, requests := g.requests ++ [(request, stub)] }
  | .dequeue _ i =>
      match g.work.queue, f.erq with
      | k :: _, req :: _ =>
          { g with
            work := g.work.take i
            resolved := g.resolved ++ [(k, (req.takenBy i).laptop)] }
      | _, _ => g
  | .leaderMaintainLog _ i _ => { g with work := g.work.finish i }
  | _ => g

end Ledger

def watchLedgers (gs : ℤ → Ledger) (c : Cluster) (l : Label) : ℤ → Ledger :=
  match l.actor with
  | some s => Function.update gs s ((gs s).watch (c.server s) l)
  | none => gs

/-- **The cluster, with a ledger for each server.** -/
def ledgered (cfg : Config) : TransitionSystem (Cluster × (ℤ → Ledger)) Label Event :=
  (system cfg).observed watchLedgers fun _ => {}

/-! ## What the server has -/

namespace LaptopFactory

variable (f : LaptopFactory)

/-- The `LeaderThread` that is inside `LeaderMaintainLog`, past the append. -/
def maintaining : Option (Fin 4) :=
  match f.metaLock with
  | .replicateLog (.leaderThread i) _ => some i
  | _ => none

/-- The request that `LeaderThread` `i` has dequeued and not yet appended. -/
def unappended (i : Fin 4) : Option LeaderRequest :=
  if f.maintaining = some i then none else f.leaderThread i

end LaptopFactory

/-- The entries server `s` appends by `LeaderMaintainLog`. -/
def appendsOf (s : ℤ) (tr : List Event) : List MapOp :=
  tr.filterMap fun
    | .append q op => if q = s then some op else none
    | _ => none

/-- The server is where its ledger says. -/
structure Follows (s : ℤ) (f : LaptopFactory) (tr : List Event) (g : Ledger) : Prop where
  arrived : g.requests.length = g.work.arrived
  erq : f.erq.map some = g.work.queue.map g.queued
  unappended : ∀ i, (f.unappended i).map some =
    (g.work.held i).map fun k => (g.queued k).map (·.takenBy i)
  appended : (appendsOf s tr).map (fun op => some (op.arg1, op.arg2)) =
    g.work.done.map fun k => (g.queued k).map fun req =>
      (req.laptop.customerId, req.laptop.orderNumber)
  numbers : g.resolved.map Prod.fst = g.work.taken
  resolved : ∀ r ∈ g.resolved, ∃ req i, g.queued r.1 = some req ∧ r.2 = (req.takenBy i).laptop
  futures : ∀ stub laptop, f.customer stub = .resolved laptop →
    ∃ k req, (k, laptop) ∈ g.resolved ∧ g.queued k = some req ∧ req.stub = stub
  busy : ∀ i, f.maintaining = some i → (f.leaderThread i).isSome

/-! ## Steps -/

section Follows

variable {s : ℤ} {f f' : LaptopFactory} {tr es : List Event} {l : Label} {g : Ledger}

lemma appendsOf_append (s : ℤ) (tr es : List Event) :
    appendsOf s (tr ++ es) = appendsOf s tr ++ appendsOf s es := by
  rw [appendsOf, List.filterMap_append, appendsOf, appendsOf]

/-- No entry is appended. -/
def NoAppend (es : List Event) : Prop := ∀ s op, .append s op ∉ es

lemma NoAppend.appendsOf (h : NoAppend es) (s : ℤ) : appendsOf s es = [] := by
  refine List.filterMap_eq_nil_iff.2 fun e he => ?_
  cases e with
  | append q op => exact absurd he (h q op)
  | _ => rfl

lemma noAppend_served {p : ℤ} {log : List MapOp} {rpc : Rpc} {reply : Reply} :
    NoAppend (serveEvents p log rpc reply) := by
  intro s op hop
  rcases serveEvents_cases hop with ⟨_, _, -, -, -, he⟩ | ⟨_, _, -, -, -, -, he⟩ <;> cases he

lemma noAppend_commit {q : ℤ} {before after : ServerMetadata} :
    NoAppend (commitEvents q before after) := by
  intro s op hop
  obtain ⟨k, -, hk⟩ := List.mem_filterMap.1 hop
  obtain ⟨op', -, he⟩ := Option.map_eq_some_iff.1 hk
  cases he

/-- A step that moves no request. -/
lemma Follows.of_same (h : Follows s f tr g) (herq : f'.erq = f.erq)
    (hthread : f'.leaderThread = f.leaderThread)
    (hcustomer : ∀ stub laptop, f'.customer stub = .resolved laptop →
      f.customer stub = .resolved laptop)
    (hlock : f'.maintaining = f.maintaining) (hes : appendsOf s es = []) :
    Follows s f' (tr ++ es) g := by
  refine ⟨h.arrived, herq ▸ h.erq, fun i => ?_, ?_, h.numbers, h.resolved,
    fun stub laptop hstub => h.futures stub laptop (hcustomer stub laptop hstub), fun i hi => ?_⟩
  · rw [LaptopFactory.unappended, hthread, hlock]
    exact h.unappended i
  · rw [appendsOf_append, hes, List.append_nil]
    exact h.appended
  · rw [hthread]
    exact h.busy i (hlock ▸ hi)

/-- The requests that are there keep their numbers when another one arrives. -/
lemma queued_arrive {work : WorkQueue (Fin 4)} {r : CustomerRequest × ℕ} {k : ℕ}
    (hk : k < g.requests.length) :
    Ledger.queued { g with work := work, requests := g.requests ++ [r] } k = g.queued k := by
  rw [Ledger.queued, Ledger.queued, List.getElem?_append_left hk]

lemma Follows.create (h : Follows s f tr g) (stub : ℕ) (request : CustomerRequest) :
    Follows s
      { f with
        erq := f.erq ++ [⟨LaptopInfo.ofRequest request stub, stub⟩]
        customer := Function.update f.customer stub .waiting }
      (tr ++ []) (g.watch f (.createLaptop s stub request)) := by
  have hold : ∀ k < g.work.arrived,
      (g.watch f (.createLaptop s stub request)).queued k = g.queued k :=
    fun k hk => queued_arrive (h.arrived ▸ hk)
  have hnew : (g.watch f (.createLaptop s stub request)).queued g.work.arrived =
      some ⟨LaptopInfo.ofRequest request stub, stub⟩ := by
    rw [← h.arrived]
    simp [Ledger.watch, Ledger.queued]
  rw [List.append_nil]
  refine ⟨?_, ?_, fun i => ?_, ?_, h.numbers, fun r hr => ?_, fun stub' laptop hstub => ?_, h.busy⟩
  · simp [Ledger.watch, WorkQueue.arrive, h.arrived]
  · change (f.erq ++ [_]).map some = (g.work.queue ++ [g.work.arrived]).map _
    rw [List.map_append, List.map_append, h.erq, List.map_singleton, List.map_singleton, hnew]
    congr 1
    exact List.map_congr_left fun k hk => (hold k (g.work.lt_of_mem_queue hk)).symm
  · change (f.unappended i).map some = (g.work.held i).map _
    rw [h.unappended i]
    cases hheld : g.work.held i with
    | none => rfl
    | some k => rw [Option.map_some, Option.map_some, hold k (g.work.lt_of_held hheld)]
  · rw [h.appended]
    exact List.map_congr_left fun k hk => by rw [hold k (g.work.lt_of_mem_done hk)]
  · obtain ⟨req, i, hreq, hlaptop⟩ := h.resolved r hr
    have htaken : r.1 ∈ g.work.taken := h.numbers ▸ List.mem_map_of_mem hr
    exact ⟨req, i, (hold r.1 (g.work.lt_of_mem_taken htaken)).trans hreq, hlaptop⟩
  · change Function.update f.customer stub .waiting stub' = _ at hstub
    by_cases hsame : stub' = stub
    · subst hsame
      rw [Function.update_self] at hstub
      cases hstub
    · rw [Function.update_of_ne hsame] at hstub
      obtain ⟨k, req, hk, hreq, hreqStub⟩ := h.futures stub' laptop hstub
      have htaken : k ∈ g.work.taken := h.numbers ▸ List.mem_map_of_mem hk
      exact ⟨k, req, hk, (hold k (g.work.lt_of_mem_taken htaken)).trans hreq, hreqStub⟩

lemma Follows.dequeue (h : Follows s f tr g) {i : Fin 4} {req : LeaderRequest}
    {rest : List LeaderRequest} (herq : f.erq = req :: rest) (hidle : f.leaderThread i = none) :
    Follows s
      { f with
        erq := rest
        leaderThread := Function.update f.leaderThread i (some (req.takenBy i))
        customer := Function.update f.customer req.stub (.resolved (req.takenBy i).laptop) }
      (tr ++ []) (g.watch f (.dequeue s i)) := by
  obtain ⟨k, queue, hqueue, hk, hrest⟩ : ∃ k queue, g.work.queue = k :: queue ∧
      g.queued k = some req ∧ rest.map some = queue.map g.queued := by
    have hfollows := h.erq
    rw [herq, List.map_cons] at hfollows
    obtain ⟨k, queue, hqueue, hk, hrest⟩ := List.map_eq_cons_iff.1 hfollows.symm
    exact ⟨k, queue, hqueue, hk, hrest.symm⟩
  have hfree : f.maintaining ≠ some i := by
    intro hbusy
    have hsome := h.busy i hbusy
    rw [hidle] at hsome
    cases hsome
  have hheld : g.work.held i = none := by
    have hfollows := h.unappended i
    rw [LaptopFactory.unappended, if_neg hfree, hidle] at hfollows
    exact Option.map_eq_none_iff.1 hfollows.symm
  have hwatch : g.watch f (.dequeue s i) =
      { g with
        work := g.work.take i
        resolved := g.resolved ++ [(k, (req.takenBy i).laptop)] } := by
    simp only [Ledger.watch, hqueue, herq]
  obtain ⟨harrived, hqueue', hheld', hdone, htaken⟩ := WorkQueue.take_eq hqueue hheld
  rw [hwatch, List.append_nil]
  refine ⟨h.arrived.trans harrived.symm, ?_, fun j => ?_, ?_, ?_, fun r hr => ?_,
    fun stub laptop hstub => ?_, fun j hj => ?_⟩
  · change rest.map some = (g.work.take i).queue.map g.queued
    rw [hqueue']
    exact hrest
  · change (if f.maintaining = some j then none
      else Function.update f.leaderThread i (some (req.takenBy i)) j).map some =
        ((g.work.take i).held j).map fun k => (g.queued k).map (·.takenBy j)
    rw [hheld']
    by_cases hj : j = i
    · subst hj
      rw [if_neg hfree, Function.update_self, Function.update_self, Option.map_some,
        Option.map_some, hk, Option.map_some]
    · rw [Function.update_of_ne hj, Function.update_of_ne hj]
      exact h.unappended j
  · change _ = (g.work.take i).done.map _
    rw [hdone]
    exact h.appended
  · rw [htaken, List.map_append, h.numbers]
    rfl
  · rcases List.mem_append.1 hr with hold | hnew
    · exact h.resolved r hold
    · rw [List.mem_singleton.1 hnew]
      exact ⟨req, i, hk, rfl⟩
  · change Function.update f.customer req.stub _ stub = _ at hstub
    by_cases hsame : stub = req.stub
    · subst hsame
      rw [Function.update_self, Customer.resolved.injEq] at hstub
      subst hstub
      exact ⟨k, req, List.mem_append_right _ (List.mem_singleton_self _), hk, rfl⟩
    · rw [Function.update_of_ne hsame] at hstub
      obtain ⟨k', req', hk', hreq', hstub'⟩ := h.futures stub laptop hstub
      exact ⟨k', req', List.mem_append_left _ hk', hreq', hstub'⟩
  · change (Function.update f.leaderThread i (some (req.takenBy i)) j).isSome
    by_cases hji : j = i
    · subst hji
      rw [Function.update_self]
      rfl
    · rw [Function.update_of_ne hji]
      exact h.busy j hj

lemma maintaining_of_free (hfree : f.metaLock = .free) : f.maintaining = none := by
  rw [LaptopFactory.maintaining, hfree]

lemma Follows.maintain (h : Follows s f tr g) {i : Fin 4} {req : LeaderRequest}
    (hreq : f.leaderThread i = some req) (hfree : f.metaLock = .free) (accepts : List Bool)
    (ack : List ℤ) (n : ℤ) :
    Follows s
      (f.enterReplicateLog (.leaderThread i)
        ((f.metadata.reconnected accepts).maintained (f.metadata.newEntry req) ack))
      (tr ++ [.append s (f.metadata.newEntry req), .accept s f.metadata.currentTerm n])
      (g.watch f (.leaderMaintainLog s i accepts)) := by
  have hnone := maintaining_of_free hfree
  obtain ⟨k, hheld, req', hk, rfl⟩ : ∃ k, g.work.held i = some k ∧
      ∃ req', g.queued k = some req' ∧ req'.takenBy i = req := by
    have hfollows := h.unappended i
    rw [LaptopFactory.unappended, hnone, if_neg (by simp), hreq] at hfollows
    obtain ⟨k, hheld, hk⟩ := Option.map_eq_some_iff.1 hfollows.symm
    exact ⟨k, hheld, Option.map_eq_some_iff.1 hk⟩
  obtain ⟨harrived, hqueue, hheld', hdone, htaken⟩ := WorkQueue.finish_eq hheld
  have hwatch : g.watch f (.leaderMaintainLog s i accepts) =
      { g with work := g.work.finish i } := rfl
  rw [hwatch]
  refine ⟨h.arrived.trans harrived.symm, ?_, fun j => ?_, ?_, h.numbers.trans htaken.symm,
    h.resolved, h.futures, fun j hj => ?_⟩
  · change f.erq.map some = (g.work.finish i).queue.map g.queued
    rw [hqueue]
    exact h.erq
  · change (if some i = some j then none else f.leaderThread j).map some =
      ((g.work.finish i).held j).map fun k => (g.queued k).map (·.takenBy j)
    rw [hheld']
    by_cases hj : j = i
    · subst hj
      rw [if_pos rfl, Function.update_self]
      rfl
    · have hfollows := h.unappended j
      rw [LaptopFactory.unappended, hnone, if_neg (by simp)] at hfollows
      rw [if_neg (by simpa using Ne.symm hj), Function.update_of_ne hj]
      exact hfollows
  · change _ = (g.work.finish i).done.map _
    rw [hdone, appendsOf_append, List.map_append, List.map_append, h.appended]
    have hk' : Ledger.queued { g with work := g.work.finish i } k = some req' := hk
    congr 1
    simp [appendsOf, newEntry, hk', LeaderRequest.takenBy]
  · obtain rfl : i = j := Option.some.inj hj
    change (f.leaderThread i).isSome
    rw [hreq]
    rfl

lemma Follows.returned (h : Follows s f tr g) {caller : Caller} {loop : ReplicateLoop}
    (hlock : f.metaLock = .replicateLog caller loop) (md : ServerMetadata) :
    Follows s (LaptopFactory.returnTo { f with metadata := md } caller) (tr ++ []) g := by
  cases caller with
  | timeoutThread =>
      refine h.of_same rfl rfl (fun _ _ => id) ?_ rfl
      rw [LaptopFactory.maintaining, LaptopFactory.maintaining, hlock]
      rfl
  | leaderThread i =>
      have hbusy : f.maintaining = some i := by rw [LaptopFactory.maintaining, hlock]
      rw [List.append_nil]
      refine ⟨h.arrived, h.erq, fun j => ?_, h.appended, h.numbers, h.resolved, h.futures, nofun⟩
      rw [← h.unappended j]
      change (Function.update f.leaderThread i none j).map some = _
      rw [LaptopFactory.unappended, hbusy]
      by_cases hj : j = i
      · subst hj
        rw [Function.update_self, if_pos rfl]
      · rw [Function.update_of_ne hj, if_neg (by simpa using Ne.symm hj)]

/-- **A thread's step**, written down, keeps the server where its ledger says. -/
theorem ThreadStep.follows (hstep : ThreadStep s f l f' es) (h : Follows s f tr g) :
    Follows s f' (tr ++ es) (g.watch f l) := by
  have hvote : ∀ {res}, VoteArrives s f l res → g.watch f l = g := by
    rintro res (⟨rfl, -⟩ | rfl) <;> rfl
  -- a loop that goes on keeps its caller
  have hloop : ∀ {caller : Caller} {loop loop' : ReplicateLoop} {g : LaptopFactory},
      f.metaLock = .replicateLog caller loop → g.metaLock = .replicateLog caller loop' →
      g.maintaining = f.maintaining := by
    intro caller loop loop' g hbefore hafter
    rw [LaptopFactory.maintaining, LaptopFactory.maintaining, hbefore, hafter]
    cases caller <;> rfl
  have hnone : ∀ {g : LaptopFactory}, f.maintaining = none → g.maintaining = none →
      g.maintaining = f.maintaining := fun hbefore hafter => hafter.trans hbefore.symm
  cases hstep with
  | readStatus | rest | timeOut | askVote => exact h.of_same rfl rfl (fun _ _ => id) rfl rfl
  | stand hthread hfree =>
      exact h.of_same rfl rfl (fun _ _ => id) (hnone (maintaining_of_free hfree) rfl) rfl
  | countVote hlock harrives | ignoreVote hlock harrives | outvoted hlock harrives =>
      rw [hvote harrives]
      refine h.of_same rfl rfl (fun _ _ => id) (hnone ?_ rfl) rfl
      rw [LaptopFactory.maintaining, hlock]
  | elected hlock harrives =>
      rw [hvote harrives]
      refine h.of_same rfl rfl (fun _ _ => id) (hnone ?_ rfl) rfl
      rw [LaptopFactory.maintaining, hlock]
  | endVote hlock =>
      refine h.of_same rfl rfl (fun _ _ => id) (hnone ?_ rfl) rfl
      rw [LaptopFactory.maintaining, hlock]
  | queue hqueue =>
      cases hqueue with
      | create => exact h.create _ _
      | dequeue herq hidle => exact h.dequeue herq hidle
      | @ship stub laptop hresolved =>
          refine h.of_same rfl rfl (fun stub' laptop' hstub => ?_) rfl rfl
          change Function.update f.customer stub .idle stub' = _ at hstub
          by_cases hsame : stub' = stub
          · subst hsame
            rw [Function.update_self] at hstub
            cases hstub
          · rwa [Function.update_of_ne hsame] at hstub
  | maintain hreq hfree => exact h.maintain hreq hfree _ _ _
  | replicate hthread hfree =>
      exact h.of_same rfl rfl (fun _ _ => id) (hnone (maintaining_of_free hfree) rfl) rfl
  | sendLog => exact h.of_same rfl rfl (fun _ _ => id) rfl rfl
  | fail hlock hlabel hfail =>
      have hwatch : g.watch f l = g := by rcases hlabel with rfl | rfl <;> rfl
      rw [hwatch]
      exact h.of_same rfl rfl (fun _ _ => id) (hloop hlock rfl) rfl
  | heartbeatAnswered hlock | nextRound hlock =>
      exact h.of_same rfl rfl (fun _ _ => id) (hloop hlock rfl) rfl
  | entryAnswered hlock =>
      exact h.of_same rfl rfl (fun _ _ => id) (hloop hlock rfl) (noAppend_commit.appendsOf s)
  | deposed hlock | «return» hlock => exact h.returned hlock _

end Follows

/-! ## Runs -/

section Runs

variable {cfg : Config} {ok : Cluster × (ℤ → Ledger) → Label → Prop}
  {p : Cluster × (ℤ → Ledger)} {tr : List Event} {s : ℤ}

lemma watchLedgers_of_actor {gs : ℤ → Ledger} {c : Cluster} {l : Label} {s : ℤ}
    (h : l.actor = some s) :
    watchLedgers gs c l = Function.update gs s ((gs s).watch (c.server s) l) := by
  unfold watchLedgers
  rw [h]

/-- Nothing is written down when a request of a peer is handled. -/
lemma watchLedgers_of_delivered {gs : ℤ → Ledger} {c : Cluster} {l : Label} {r : ℤ × Rpc}
    (h : c.delivered l = some r) : watchLedgers gs c l = gs := by
  cases l with
  | handle s | handleGarbage s msg => exact Function.update_eq_self s gs
  | handlePending k => rfl
  | _ => cases h

/-- Entries of other servers are not looked at. -/
lemma appendsOf_other {q : ℤ} {es : List Event} (hes : ∀ e ∈ es, e.server = q) (hq : s ≠ q) :
    appendsOf s es = [] := by
  refine List.filterMap_eq_nil_iff.2 fun e he => ?_
  have hserver := hes e he
  cases e with
  | append q' op =>
      obtain rfl : q' = q := hserver
      exact if_neg (Ne.symm hq)
  | _ => rfl

/-- Handling a request moves no update. -/
lemma withMetadata_eq (c : Cluster) (n : ℤ) (md : ServerMetadata) (q : ℤ) :
    ∃ md', c.withMetadata n md q = { c.server q with metadata := md' } := by
  unfold Cluster.withMetadata
  by_cases hq : q = n
  · subst hq
    exact ⟨md, Function.update_self _ _ _⟩
  · exact ⟨(c.server q).metadata, Function.update_of_ne hq _ _⟩

theorem follows_of_run (hrun : (ledgered cfg).Run ok p tr) (s : ℤ) :
    Follows s (p.1.server s) tr (p.2 s) := by
  refine TransitionSystem.Run.invariant
    (I := fun p tr => ∀ s, Follows s (p.1.server s) tr (p.2 s)) ?_ ?_ hrun s
  · rintro ⟨c, gs⟩ ⟨⟨connects, hc⟩, hgs⟩ s
    subst hc
    change gs = _ at hgs
    subst hgs
    exact ⟨rfl, rfl, fun i => rfl, rfl, rfl, fun r hr => absurd hr List.not_mem_nil, nofun, nofun⟩
  · intro p tr l p' es hrun ih _ hst q
    obtain ⟨hst, hledgers⟩ := TransitionSystem.observed_step_iff.1 hst
    have hunmoved : ∀ es md wire, NoAppend es →
        p'.1.server q = { p.1.server q with metadata := md, wire := wire } →
        p'.2 = p.2 → Follows q (p'.1.server q) (tr ++ es) (p'.2 q) := by
      intro es md wire hes hserver hsame
      rw [hserver, hsame]
      exact (ih q).of_same rfl rfl (fun _ _ => id) rfl (hes.appendsOf q)
    cases effect_of_step hst with
    | @thread s f _ hmem hstep hserver hpending hnone =>
        rw [watchLedgers_of_actor hstep.actor] at hledgers
        by_cases hq : q = s
        · subst hq
          rw [hserver, hledgers, Function.update_self, Function.update_self]
          exact hstep.follows (ih q)
        · rw [hserver, hledgers, Function.update_of_ne hq, Function.update_of_ne hq]
          exact (ih q).of_same rfl rfl (fun _ _ => id) rfl (appendsOf_other hstep.server_eq hq)
    | @answer s node rpc md reply hmem hwire hserved hserver hpending hdelivered =>
        rw [watchLedgers_of_delivered hdelivered] at hledgers
        obtain ⟨md', hmd'⟩ := withMetadata_eq p.1 node.id md q
        by_cases hq : q = s
        · subst hq
          refine hunmoved _ md' (.response reply) noAppend_served ?_ hledgers
          rw [hserver, Function.update_self, hmd']
        · refine hunmoved _ md' (p.1.server q).wire noAppend_served ?_ hledgers
          rw [hserver, Function.update_of_ne hq, hmd']
    | @discard n rpc md reply hfrom hserved hserver hpending hdelivered =>
        rw [watchLedgers_of_delivered hdelivered] at hledgers
        obtain ⟨md', hmd'⟩ := withMetadata_eq p.1 n md q
        refine hunmoved _ md' (p.1.server q).wire noAppend_served ?_ hledgers
        rw [hserver, hmd']

/-- The requests that have been queued, and where they are.  The numbers tell apart requests that
are equal in all their fields. -/
structure UpdatesBalanced (s : ℤ) (f : LaptopFactory) (tr : List Event) (g : Ledger) : Prop where
  /-- The requests queued so far are those in `erq`, those dequeued and not yet appended, and
  those appended. -/
  balance : Multiset.range g.requests.length = g.work.queue + inHand g.work.held + g.work.done
  erq : f.erq.map some = g.work.queue.map g.queued
  unappended : ∀ i, (f.unappended i).map some =
    (g.work.held i).map fun k => (g.queued k).map (·.takenBy i)
  appended : (appendsOf s tr).map (fun op => some (op.arg1, op.arg2)) =
    g.work.done.map fun k => (g.queued k).map fun req =>
      (req.laptop.customerId, req.laptop.orderNumber)
  /-- No promise is kept twice, and each with the data of its own request. -/
  once : (g.resolved.map Prod.fst).Nodup
  own : ∀ r ∈ g.resolved, ∃ request stub, g.requests[r.1]? = some (request, stub) ∧
    r.2.customerId = request.customerId ∧ r.2.orderNumber = request.orderNumber ∧
    r.2.requestType = request.requestType ∧ r.2.engineerId = stub
  /-- What a connection finds in its future comes from a request of its own. -/
  futures : ∀ stub laptop, f.customer stub = .resolved laptop →
    ∃ k request, (k, laptop) ∈ g.resolved ∧ g.requests[k]? = some (request, stub)

lemma queued_eq_some {g : Ledger} {k : ℕ} {req : LeaderRequest} (h : g.queued k = some req) :
    ∃ request stub, g.requests[k]? = some (request, stub) ∧
      req = ⟨LaptopInfo.ofRequest request stub, stub⟩ := by
  obtain ⟨⟨request, stub⟩, hget, rfl⟩ := Option.map_eq_some_iff.1 h
  exact ⟨request, stub, hget, rfl⟩

/-- **No update is lost or duplicated before the log.** -/
theorem updates_balanced (hrun : (ledgered cfg).Run ok p tr) (s : ℤ) :
    UpdatesBalanced s (p.1.server s) tr (p.2 s) := by
  have h := follows_of_run hrun s
  constructor
  · rw [h.arrived]
    exact (p.2 s).work.balanced
  · exact h.erq
  · exact h.unappended
  · exact h.appended
  · rw [h.numbers]
    exact (List.nodup_append.1 (p.2 s).work.taken_nodup).1
  · intro r hr
    obtain ⟨req, i, hreq, hlaptop⟩ := h.resolved r hr
    obtain ⟨request, stub, hget, rfl⟩ := queued_eq_some hreq
    rw [hlaptop]
    exact ⟨request, stub, hget, rfl, rfl, rfl, rfl⟩
  · intro stub laptop hstub
    obtain ⟨k, req, hk, hreq, rfl⟩ := h.futures stub laptop hstub
    obtain ⟨request, stub', hget, rfl⟩ := queued_eq_some hreq
    exact ⟨k, request, hk, hget⟩

end Runs

/-- Of three updates one is in the log, one in the hands of `LeaderThread` 1, and one queued. -/
theorem updates_balanced_onTheWay : ∃ p tr, (ledgered three).Run TransitionSystem.anyStep p tr ∧
    (p.2 0).work.done = [0] ∧ (p.2 0).work.held 1 = some 1 ∧ (p.2 0).work.queue = [2] ∧
    UpdatesBalanced 0 (p.1.server 0) tr (p.2 0) := by
  obtain ⟨p, tr, hrun, hdone, hheld, hqueue⟩ := TransitionSystem.run_of_exec (ledgered three)
    TransitionSystem.anyStep (boot three fun _ _ => true, fun _ => {}) ⟨⟨_, rfl⟩, rfl⟩
    (stand 0 ++ callVote 0 ++ [.createLaptop 0 0 ⟨7, 1, 1⟩, .createLaptop 0 1 ⟨8, 1, 1⟩,
      .createLaptop 0 2 ⟨7, 1, 1⟩, .dequeue 0 0, .leaderMaintainLog 0 0 [], .dequeue 0 1])
    (P := fun p _ => (p.2 0).work.done = [0] ∧ (p.2 0).work.held 1 = some 1 ∧
      (p.2 0).work.queue = [2])
    (by decide +kernel)
  exact ⟨p, tr, hrun, hdone, hheld, hqueue, updates_balanced hrun 0⟩

end LaptopRaft
