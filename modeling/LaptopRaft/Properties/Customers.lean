import LaptopRaft.Model.Cluster

/-!
# Steps that do not look at the customers

What a `CustomerHandler` waits for is looked at by the steps on the way of an update from its
connection to a `LeaderThread` and back, and by no others: replaced by something else, it stays
replaced, and nothing else changes (`Cluster.act_withCustomers`).
-/

namespace LaptopRaft

def LaptopFactory.withCustomer (f : LaptopFactory) (cu : ℕ → Customer) : LaptopFactory :=
  { f with customer := cu }

def Cluster.withCustomers (c : Cluster) (cu : ℤ → ℕ → Customer) : Cluster :=
  { c with server := fun s => (c.server s).withCustomer (cu s) }

/-- The steps on the way of an update from its connection to a `LeaderThread` and back. -/
def Label.OfQueue : Label → Prop
  | .createLaptop .. | .dequeue .. | .shipLaptop .. => True
  | _ => False

/-! ## One server -/

namespace LaptopFactory

variable (f : LaptopFactory) (cu : ℕ → Customer)

lemma readStatus_withCustomer :
    (f.withCustomer cu).readStatus = f.readStatus.map (·.withCustomer cu) := by
  unfold readStatus
  rw [apply_ite (Option.map _)]
  rfl

lemma testHeartbeat_withCustomer :
    (f.withCustomer cu).testHeartbeat = f.testHeartbeat.map (·.withCustomer cu) := by
  unfold testHeartbeat
  rw [apply_ite (Option.map _)]
  rfl

lemma requestVote_withCustomer :
    (f.withCustomer cu).requestVote = f.requestVote.map (·.withCustomer cu) := by
  unfold requestVote
  rw [apply_ite (Option.map _)]
  rfl

lemma sendRequestVote_withCustomer :
    (f.withCustomer cu).sendRequestVote = f.sendRequestVote.map (·.withCustomer cu) := by
  unfold sendRequestVote withCustomer
  dsimp only
  split
  · rw [Option.map_map]
    rfl
  · rfl

lemma countVote_withCustomer (rest : List ServerNode) (res : RequestVoteResponse) :
    (f.withCustomer cu).countVote rest res = (f.countVote rest res).withCustomer cu := by
  unfold countVote withCustomer
  dsimp only
  split <;> rfl

lemma recvVoteResponse_withCustomer :
    (f.withCustomer cu).recvVoteResponse = f.recvVoteResponse.map (·.withCustomer cu) := by
  unfold recvVoteResponse
  simp only [countVote_withCustomer]
  unfold withCustomer
  dsimp only
  split <;> rfl

lemma voteLinkFails_withCustomer (res : RequestVoteResponse) :
    (f.withCustomer cu).voteLinkFails res = (f.voteLinkFails res).map (·.withCustomer cu) := by
  unfold voteLinkFails
  simp only [countVote_withCustomer]
  unfold withCustomer
  dsimp only
  split <;> rfl

lemma endRequestVote_withCustomer :
    (f.withCustomer cu).endRequestVote = f.endRequestVote.map (·.withCustomer cu) := by
  unfold endRequestVote withCustomer
  dsimp only
  split <;> rfl

lemma leaderMaintainLog_withCustomer (i : Fin 4) (accepts : List Bool) :
    (f.withCustomer cu).leaderMaintainLog i accepts =
      (f.leaderMaintainLog i accepts).map (·.withCustomer cu) := by
  unfold leaderMaintainLog withCustomer
  dsimp only
  split
  · rw [apply_ite (Option.map _), Option.map_map]
    rfl
  · rfl

lemma replicateLog_withCustomer (accepts : List Bool) :
    (f.withCustomer cu).replicateLog accepts =
      (f.replicateLog accepts).map (·.withCustomer cu) := by
  unfold replicateLog
  rw [apply_ite (Option.map _)]
  rfl

lemma sendLogRequest_withCustomer :
    (f.withCustomer cu).sendLogRequest = f.sendLogRequest.map (·.withCustomer cu) := by
  unfold sendLogRequest withCustomer
  dsimp only
  split
  · rw [Option.map_map]
    rfl
  · rfl

lemma failFollower_withCustomer (caller : Caller) (node : ServerNode) (loop : ReplicateLoop) :
    (f.withCustomer cu).failFollower caller node loop =
      (f.failFollower caller node loop).map (·.withCustomer cu) := by
  unfold failFollower
  rw [Option.map_map]
  rfl

lemma returnTo_withCustomer (caller : Caller) :
    (f.withCustomer cu).returnTo caller = (f.returnTo caller).withCustomer cu := by
  cases caller <;> rfl

lemma recvLogResponse_withCustomer :
    (f.withCustomer cu).recvLogResponse = f.recvLogResponse.map (·.withCustomer cu) := by
  unfold recvLogResponse
  simp only [failFollower_withCustomer]
  unfold withCustomer
  dsimp only
  split
  · rw [apply_ite (Option.map _), apply_ite (Option.map _), Option.map_map]
    refine ite_congr rfl (fun _ => rfl) fun _ => ite_congr rfl (fun _ => rfl) fun _ => ?_
    refine congrArg (fun g => Option.map g _) (funext fun p => ?_)
    simp only [Function.comp_apply]
    split
    · rfl
    · exact returnTo_withCustomer { f with metadata := p.1 } cu _
  · rfl

lemma logLinkFails_withCustomer :
    (f.withCustomer cu).logLinkFails = f.logLinkFails.map (·.withCustomer cu) := by
  unfold logLinkFails
  simp only [failFollower_withCustomer]
  unfold withCustomer
  dsimp only
  split <;> rfl

lemma endRound_withCustomer :
    (f.withCustomer cu).endRound = f.endRound.map (·.withCustomer cu) := by
  unfold endRound withCustomer
  dsimp only
  split
  · rw [apply_ite (Option.map _)]
    refine ite_congr rfl (fun _ => congrArg some ?_) fun _ => rfl
    exact returnTo_withCustomer { f with metadata := { f.metadata with nodeSocket := _ } } cu _
  · rfl

lemma serve_withCustomer (rpc : Rpc) :
    (f.withCustomer cu).serve rpc = (f.serve rpc).map fun p => (p.1.withCustomer cu, p.2) := by
  cases rpc with
  | vote msg | log req =>
      unfold serve
      dsimp only
      rw [apply_ite (Option.map _), Option.map_map]
      rfl

end LaptopFactory

/-! ## The cluster -/

namespace Cluster

variable (c : Cluster) (cu : ℤ → ℕ → Customer)

lemma setServer_withCustomers (s : ℤ) (f : LaptopFactory) (customer : ℕ → Customer) :
    (c.withCustomers cu).setServer s (f.withCustomer customer) =
      (c.setServer s f).withCustomers (Function.update cu s customer) := by
  unfold setServer withCustomers
  congr 1
  funext q
  change Function.update (fun q => (c.server q).withCustomer (cu q)) s (f.withCustomer customer) q =
    (Function.update c.server s f q).withCustomer (Function.update cu s customer q)
  by_cases hq : q = s
  · subst hq
    rw [Function.update_self, Function.update_self, Function.update_self]
  · rw [Function.update_of_ne hq, Function.update_of_ne hq, Function.update_of_ne hq]

lemma move_withCustomers (s : ℤ) {g g' : Option LaptopFactory}
    {events : LaptopFactory → List Event} (hg : g' = g.map (·.withCustomer (cu s)))
    (hevents : ∀ f, events (f.withCustomer (cu s)) = events f) :
    (c.withCustomers cu).move s g' events =
      (c.move s g events).map fun p => (p.1.withCustomers cu, p.2) := by
  unfold move
  rw [hg, Option.map_map, Option.map_map]
  refine congrArg (fun k => Option.map k g) (funext fun f => ?_)
  simp only [Function.comp_apply]
  rw [setServer_withCustomers, Function.update_eq_self, hevents]

lemma dropLink_withCustomers (s : ℤ) :
    (c.withCustomers cu).dropLink s = (c.dropLink s).withCustomers cu := by
  unfold dropLink
  have hcallee : ((c.withCustomers cu).server s).callee = (c.server s).callee := rfl
  rw [hcallee]
  split <;> rfl

lemma serveAt_withCustomers (p : ℤ) (rpc : Rpc) {answer answer' : Cluster → Reply → Cluster}
    (hanswer : ∀ c reply, answer (c.withCustomers cu) reply = (answer' c reply).withCustomers cu) :
    (c.withCustomers cu).serveAt p rpc answer =
      (c.serveAt p rpc answer').map fun p => (p.1.withCustomers cu, p.2) := by
  have hserve : ((c.withCustomers cu).server p).serve rpc =
      ((c.server p).serve rpc).map fun q => (q.1.withCustomer (cu p), q.2) :=
    LaptopFactory.serve_withCustomer _ _ _
  unfold serveAt
  rw [hserve, Option.map_map, Option.map_map]
  refine congrArg (fun k => Option.map k _) (funext fun q => ?_)
  simp only [Function.comp_apply]
  rw [setServer_withCustomers, Function.update_eq_self, hanswer]
  rfl

/-- **The customers do not matter** outside of their own path. -/
theorem act_withCustomers {l : Label} (hl : ¬ l.OfQueue) :
    (c.withCustomers cu).act l = (c.act l).map fun p => (p.1.withCustomers cu, p.2) := by
  cases l with
  | createLaptop | dequeue | shipLaptop => exact absurd trivial hl
  | readStatus s =>
      simp only [act]
      exact move_withCustomers c cu s (LaptopFactory.readStatus_withCustomer _ _) fun _ => rfl
  | testHeartbeat s =>
      simp only [act]
      exact move_withCustomers c cu s (LaptopFactory.testHeartbeat_withCustomer _ _) fun _ => rfl
  | requestVote s =>
      simp only [act]
      exact move_withCustomers c cu s (LaptopFactory.requestVote_withCustomer _ _) fun _ => rfl
  | sendRequestVote s =>
      simp only [act]
      rw [apply_ite (Option.map _)]
      refine if_congr Iff.rfl ?_ rfl
      exact move_withCustomers c cu s (LaptopFactory.sendRequestVote_withCustomer _ _) fun _ => rfl
  | recvVoteResponse s =>
      have hwire : ((c.withCustomers cu).server s).wire = (c.server s).wire := rfl
      simp only [act]
      rw [hwire]
      split
      · exact move_withCustomers c cu s
          (LaptopFactory.recvVoteResponse_withCustomer _ _) fun _ => rfl
      · rfl
  | voteLinkFails s res =>
      simp only [act]
      rw [dropLink_withCustomers]
      exact move_withCustomers (c.dropLink s) cu s
        (LaptopFactory.voteLinkFails_withCustomer _ _ res) fun _ => rfl
  | endRequestVote s =>
      simp only [act]
      exact move_withCustomers c cu s (LaptopFactory.endRequestVote_withCustomer _ _) fun _ => rfl
  | leaderMaintainLog s i accepts =>
      simp only [act]
      exact move_withCustomers (c.openLinks s accepts) cu s
        (LaptopFactory.leaderMaintainLog_withCustomer _ _ i accepts) fun _ => rfl
  | replicateLog s accepts =>
      simp only [act]
      exact move_withCustomers (c.openLinks s accepts) cu s
        (LaptopFactory.replicateLog_withCustomer _ _ accepts) fun _ => rfl
  | sendLogRequest s =>
      simp only [act]
      rw [apply_ite (Option.map _)]
      refine if_congr Iff.rfl ?_ rfl
      exact move_withCustomers c cu s (LaptopFactory.sendLogRequest_withCustomer _ _) fun _ => rfl
  | recvLogResponse s =>
      simp only [act]
      exact move_withCustomers c cu s (LaptopFactory.recvLogResponse_withCustomer _ _) fun _ => rfl
  | logLinkFails s =>
      simp only [act]
      rw [dropLink_withCustomers]
      exact move_withCustomers (c.dropLink s) cu s
        (LaptopFactory.logLinkFails_withCustomer _ _) fun _ => rfl
  | endRound s =>
      simp only [act]
      exact move_withCustomers c cu s (LaptopFactory.endRound_withCustomer _ _) fun _ => rfl
  | handle s =>
      have hwire : ((c.withCustomers cu).server s).wire = (c.server s).wire := rfl
      simp only [act, handle]
      rw [hwire]
      split
      · refine serveAt_withCustomers c cu _ _ fun c reply => ?_
        have hset := setServer_withCustomers c cu s
          { c.server s with wire := .response reply } (cu s)
        rw [Function.update_eq_self] at hset
        exact hset
      · rfl
  | handlePending k =>
      have hpending : (c.withCustomers cu).pending = c.pending := rfl
      simp only [act, handlePending]
      rw [hpending]
      split
      · exact serveAt_withCustomers c cu _ _ fun _ _ => rfl
      · rfl
  | handleGarbage s msg =>
      simp only [act, handleGarbage]
      rw [apply_ite (Option.map _)]
      exact if_congr Iff.rfl (serveAt_withCustomers c cu _ _ fun _ _ => rfl) rfl

end Cluster

end LaptopRaft
