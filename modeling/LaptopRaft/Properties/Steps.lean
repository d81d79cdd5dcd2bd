import LaptopRaft.Model.Cluster
import LaptopRaft.Properties.Metadata

/-!
# What one step of the cluster does

`Model/Cluster.lean` defines a step by the label's function.  This module inverts those
functions once and for all:

* `ThreadStep s f l f' es` lists the locked steps a thread of server `s` can take, guards
  included.
* `Served f rpc md reply` is what a handler does.
* `Effect` is a step of the system: a thread moved, a request was answered, or a request nobody
  waits for was handled (`effect_of_step`).
* `run_invariant` and `run_forall_server` are the induction rules for a property of single
  servers, the form most invariants take.

Every proof about runs goes through these; none unfolds `act`.
-/

namespace LaptopRaft

open ServerMetadata

/-! ## Observations of one server -/

/-- The server an observation is of. -/
def Event.server : Event → ℤ
  | .vote voter _ _ _ => voter
  | .initLeader server _ _ => server
  | .append server _ => server
  | .sendLogRequest server _ => server
  | .accept server _ _ => server
  | .commit server _ _ _ => server
  | .ship server _ => server

lemma commitEvents_eq_nil {s : ℤ} {before after : ServerMetadata}
    (h : after.commitLength = before.commitLength) : commitEvents s before after = [] := by
  simp [commitEvents, h]

lemma commitEvents_server {s : ℤ} {before after : ServerMetadata} {e : Event}
    (h : e ∈ commitEvents s before after) : e.server = s := by
  obtain ⟨k, -, hk⟩ := List.mem_filterMap.1 h
  obtain ⟨op, -, rfl⟩ := Option.map_eq_some_iff.1 hk
  rfl

/-- A handled request is observed as a granted vote or as an accepted entry. -/
lemma serveEvents_cases {p : ℤ} {log : List MapOp} {rpc : Rpc} {reply : Reply} {e : Event}
    (h : e ∈ serveEvents p log rpc reply) :
    (∃ msg res, rpc = .vote msg ∧ reply = .vote res ∧ res.voted ≠ 0 ∧
      e = .vote p res.currentTerm msg.id log) ∨
    ∃ req res, rpc = .log req ∧ reply = .log res ∧ res.success ≠ 0 ∧ req.opTerm ≠ -1 ∧
      e = .accept p res.currentTerm res.ack := by
  unfold serveEvents at h
  split at h
  · rename_i msg res
    split at h
    · rename_i hvoted
      exact Or.inl ⟨msg, res, rfl, rfl, hvoted, List.mem_singleton.1 h⟩
    · cases h
  · rename_i req res
    split at h
    · rename_i haccepted
      exact Or.inr ⟨req, res, rfl, rfl, haccepted.1, haccepted.2, List.mem_singleton.1 h⟩
    · cases h
  · cases h

lemma serveEvents_server {p : ℤ} {log : List MapOp} {rpc : Rpc} {reply : Reply} {e : Event}
    (h : e ∈ serveEvents p log rpc reply) : e.server = p := by
  rcases serveEvents_cases h with ⟨_, _, -, -, -, rfl⟩ | ⟨_, _, -, -, -, -, rfl⟩ <;> rfl

/-! ## Metadata on entry to `ReplicateLog` -/

namespace ServerMetadata

/-- The entry a request appends in the current term. -/
def newEntry (md : ServerMetadata) (req : LeaderRequest) : MapOp :=
  ⟨md.currentTerm, req.laptop.customerId, req.laptop.orderNumber⟩

/-- `op` is appended and acknowledged to the own slot. -/
def maintained (md : ServerMetadata) (op : MapOp) (ack : List ℤ) : ServerMetadata :=
  { md with
    smrLog := md.smrLog ++ [op]
    logSize := md.logSize + 1
    ackLength := some (ack.set md.getPeerSize (md.logSize + 1)) }

/-- `TryReconnect`, as a change of two fields. -/
def reconnected (md : ServerMetadata) (accepts : List Bool) : ServerMetadata :=
  { md with
    nodeSocket := (md.tryReconnect accepts).nodeSocket
    failedNeighbors := (md.tryReconnect accepts).failedNeighbors }

/-- A response from a higher term. -/
def demoted (md : ServerMetadata) (term : ℤ) : ServerMetadata :=
  { md with currentTerm := term, status := .follower, votedFor := -1, voteReceived := ∅ }

/-- The candidate counts the vote of `voter`. -/
def counted (md : ServerMetadata) (voter : ℤ) : ServerMetadata :=
  { md with voteReceived := insert voter md.voteReceived }

lemma tryReconnect_maintained (md : ServerMetadata) (op : MapOp) (ack : List ℤ)
    (accepts : List Bool) :
    (md.maintained op ack).tryReconnect accepts = (md.reconnected accepts).maintained op ack := by
  unfold reconnected tryReconnect maintained
  split <;> rfl

end ServerMetadata

/-! ## Steps of threads -/

/-- Where the response that `RequestVote` looks at comes from. -/
def VoteArrives (s : ℤ) (f : LaptopFactory) (l : Label) (res : RequestVoteResponse) : Prop :=
  (l = .recvVoteResponse s ∧ f.wire = .response (.vote res)) ∨ l = .voteLinkFails s res

/-- The path of a client's update from its connection to a `LeaderThread` and back. -/
inductive QueueStep (s : ℤ) (f : LaptopFactory) : Label → List LeaderRequest →
    (Fin 4 → Option LeaderRequest) → (ℕ → Customer) → List Event → Prop
  | create {stub : ℕ} {request : CustomerRequest} (hidle : f.customer stub = .idle) :
      QueueStep s f (.createLaptop s stub request)
        (f.erq ++ [⟨LaptopInfo.ofRequest request stub, stub⟩]) f.leaderThread
        (Function.update f.customer stub .waiting) []
  | dequeue {i : Fin 4} {req : LeaderRequest} {rest : List LeaderRequest}
      (herq : f.erq = req :: rest) (hidle : f.leaderThread i = none) :
      QueueStep s f (.dequeue s i) rest
        (Function.update f.leaderThread i
          (some { req with laptop := { req.laptop with adminId := i } }))
        (Function.update f.customer req.stub (.resolved { req.laptop with adminId := i })) []
  | ship {stub : ℕ} {laptop : LaptopInfo} (hresolved : f.customer stub = .resolved laptop) :
      QueueStep s f (.shipLaptop s stub) f.erq f.leaderThread
        (Function.update f.customer stub .idle) [.ship s laptop]

/-- The steps of the threads of server `s`. -/
inductive ThreadStep (s : ℤ) (f : LaptopFactory) : Label → LaptopFactory → List Event → Prop
  | readStatus (htop : f.timeoutThread = .top) :
      ThreadStep s f (.readStatus s) { f with timeoutThread := .branch f.metadata.status } []
  | rest (hthread : f.timeoutThread = .branch .follower) (hfree : f.metaLock = .free)
      (hheartbeat : f.metadata.heartbeat = true) :
      ThreadStep s f (.testHeartbeat s)
        { f with metadata := f.metadata.setHeartbeat false, timeoutThread := .top } []
  | timeOut (hthread : f.timeoutThread = .branch .follower) (hfree : f.metaLock = .free)
      (hheartbeat : f.metadata.heartbeat = false) :
      ThreadStep s f (.testHeartbeat s)
        { f with metadata := f.metadata.setStatus .candidate, timeoutThread := .top } []
  | stand (hthread : f.timeoutThread = .branch .candidate) (hfree : f.metaLock = .free) :
      ThreadStep s f (.requestVote s)
        { f with
          metadata := f.metadata.requestVote
          metaLock := .requestVote f.metadata.nodeSocket }
        (standEvents s f.metadata.requestVote)
  | askVote {node : ServerNode} {rest : List ServerNode} {msg : RequestVoteMessage}
      (hlock : f.metaLock = .requestVote (node :: rest)) (hquiet : f.wire = .quiet)
      (hmsg : f.metadata.sendRequestVote = some msg) :
      ThreadStep s f (.sendRequestVote s) { f with wire := .request node (.vote msg) } []
  | countVote {node : ServerNode} {rest : List ServerNode} {res : RequestVoteResponse} {l : Label}
      (hlock : f.metaLock = .requestVote (node :: rest)) (harrives : VoteArrives s f l res)
      (hterm : f.metadata.currentTerm = res.currentTerm) (hvoted : res.voted ≠ 0) :
      ThreadStep s f l
        { f with
          metadata := f.metadata.counted res.id
          metaLock := .requestVote rest
          wire := .quiet } []
  | ignoreVote {node : ServerNode} {rest : List ServerNode} {res : RequestVoteResponse} {l : Label}
      (hlock : f.metaLock = .requestVote (node :: rest)) (harrives : VoteArrives s f l res) :
      ThreadStep s f l { f with metaLock := .requestVote rest, wire := .quiet } []
  | elected {node : ServerNode} {rest : List ServerNode} {res : RequestVoteResponse} {l : Label}
      (hlock : f.metaLock = .requestVote (node :: rest)) (harrives : VoteArrives s f l res)
      (hterm : f.metadata.currentTerm = res.currentTerm) (hvoted : res.voted ≠ 0)
      (hwon : (f.metadata.counted res.id).wonElection = true) :
      ThreadStep s f l
        { f with
          metadata := (f.metadata.counted res.id).initLeader
          metaLock := .free
          wire := .quiet
          timeoutThread := .top }
        [.initLeader s f.metadata.currentTerm f.metadata.smrLog]
  | outvoted {node : ServerNode} {rest : List ServerNode} {res : RequestVoteResponse} {l : Label}
      (hlock : f.metaLock = .requestVote (node :: rest)) (harrives : VoteArrives s f l res)
      (hlt : f.metadata.currentTerm < res.currentTerm) :
      ThreadStep s f l
        { f with
          metadata := f.metadata.demoted res.currentTerm
          metaLock := .free
          wire := .quiet
          timeoutThread := .top } []
  | endVote (hlock : f.metaLock = .requestVote []) :
      ThreadStep s f (.endRequestVote s) { f with metaLock := .free, timeoutThread := .top } []
  | queue {l : Label} {erq : List LeaderRequest} {leaderThread : Fin 4 → Option LeaderRequest}
      {customer : ℕ → Customer} {es : List Event}
      (hqueue : QueueStep s f l erq leaderThread customer es) :
      ThreadStep s f l { f with erq := erq, leaderThread := leaderThread, customer := customer } es
  | maintain {i : Fin 4} {req : LeaderRequest} {accepts : List Bool} {ack : List ℤ}
      (hreq : f.leaderThread i = some req) (hfree : f.metaLock = .free)
      (haccepts : accepts.length = f.metadata.failedNeighbors.length)
      (hack : f.metadata.ackLength = some ack) (hlt : f.metadata.getPeerSize < ack.length) :
      ThreadStep s f (.leaderMaintainLog s i accepts)
        (f.enterReplicateLog (.leaderThread i)
          ((f.metadata.reconnected accepts).maintained (f.metadata.newEntry req) ack))
        [.append s (f.metadata.newEntry req),
          .accept s f.metadata.currentTerm (f.metadata.logSize + 1)]
  | replicate {accepts : List Bool} (hthread : f.timeoutThread = .branch .leader)
      (hfree : f.metaLock = .free)
      (haccepts : accepts.length = f.metadata.failedNeighbors.length) :
      ThreadStep s f (.replicateLog s accepts)
        (f.enterReplicateLog .timeoutThread (f.metadata.reconnected accepts)) []
  | sendLog {caller : Caller} {node : ServerNode} {rest new : List ServerNode} {change : ℕ}
      {req : LogRequest} (hlock : f.metaLock = .replicateLog caller ⟨node :: rest, new, change⟩)
      (hquiet : f.wire = .quiet) (hreq : f.metadata.logRequestFor node = some req) :
      ThreadStep s f (.sendLogRequest s) { f with wire := .request node (.log req) }
        [.sendLogRequest s req]
  | fail {caller : Caller} {node : ServerNode} {rest new : List ServerNode} {change : ℕ}
      {md : ServerMetadata} {l : Label}
      (hlock : f.metaLock = .replicateLog caller ⟨node :: rest, new, change⟩)
      (hlabel : l = .recvLogResponse s ∨ l = .logLinkFails s)
      (hfail : f.metadata.failNode node = some md) :
      ThreadStep s f l
        { f with
          metadata := md
          metaLock := .replicateLog caller ⟨rest, new, change⟩
          wire := .quiet } []
  | heartbeatAnswered {caller : Caller} {node : ServerNode} {rest new : List ServerNode}
      {change : ℕ} {res : LogResponse}
      (hlock : f.metaLock = .replicateLog caller ⟨node :: rest, new, change⟩)
      (hwire : f.wire = .response (.log res))
      (hsent : f.metadata.sentTo node = some f.metadata.logSize) :
      ThreadStep s f (.recvLogResponse s)
        { f with
          metaLock := .replicateLog caller ⟨rest, insertSocket new node, change⟩
          wire := .quiet } []
  | entryAnswered {caller : Caller} {node : ServerNode} {rest new : List ServerNode} {change : ℕ}
      {res : LogResponse} {md : ServerMetadata}
      (hlock : f.metaLock = .replicateLog caller ⟨node :: rest, new, change⟩)
      (hwire : f.wire = .response (.log res))
      (hsent : f.metadata.sentTo node ≠ some f.metadata.logSize)
      (hreact : EntryReaction f.metadata node res md true) (hvalid : res.followerId ≠ -1) :
      ThreadStep s f (.recvLogResponse s)
        { f with
          metadata := md
          metaLock := .replicateLog caller ⟨rest, insertSocket new node, change + 1⟩
          wire := .quiet }
        (commitEvents s f.metadata md)
  | deposed {caller : Caller} {node : ServerNode} {rest new : List ServerNode} {change : ℕ}
      {res : LogResponse}
      (hlock : f.metaLock = .replicateLog caller ⟨node :: rest, new, change⟩)
      (hwire : f.wire = .response (.log res))
      (hsent : f.metadata.sentTo node ≠ some f.metadata.logSize)
      (hlt : f.metadata.currentTerm < res.currentTerm) :
      ThreadStep s f (.recvLogResponse s)
        (LaptopFactory.returnTo { f with metadata := f.metadata.demoted res.currentTerm } caller)
        []
  | nextRound {caller : Caller} {new : List ServerNode} {change : ℕ}
      (hlock : f.metaLock = .replicateLog caller ⟨[], new, change⟩) (hchange : change ≠ 0) :
      ThreadStep s f (.endRound s)
        { f with
          metadata := { f.metadata with nodeSocket := new }
          metaLock := .replicateLog caller ⟨new, new, 0⟩ } []
  | return {caller : Caller} {new : List ServerNode}
      (hlock : f.metaLock = .replicateLog caller ⟨[], new, 0⟩) :
      ThreadStep s f (.endRound s)
        (LaptopFactory.returnTo { f with metadata := { f.metadata with nodeSocket := new } } caller)
        []

/-- Nothing of the protocol is observed of a client's path but the reply. -/
lemma QueueStep.events {s : ℤ} {f : LaptopFactory} {l : Label} {erq : List LeaderRequest}
    {leaderThread : Fin 4 → Option LeaderRequest} {customer : ℕ → Customer} {es : List Event}
    (h : QueueStep s f l erq leaderThread customer es) :
    ∀ e ∈ es, ∃ laptop, e = .ship s laptop := by
  cases h <;> simp

lemma ThreadStep.server_eq {s : ℤ} {f f' : LaptopFactory} {l : Label} {es : List Event}
    (h : ThreadStep s f l f' es) : ∀ e ∈ es, e.server = s := by
  cases h
  case entryAnswered => exact fun e he => commitEvents_server he
  case queue hqueue =>
    intro e he
    obtain ⟨laptop, rfl⟩ := hqueue.events e he
    rfl
  all_goals simp [standEvents, Event.server]

lemma ThreadStep.actor {s : ℤ} {f f' : LaptopFactory} {l : Label} {es : List Event}
    (h : ThreadStep s f l f' es) : l.actor = some s := by
  cases h with
  | countVote _ harrives | ignoreVote _ harrives | elected _ harrives | outvoted _ harrives =>
      rcases harrives with ⟨rfl, -⟩ | rfl <;> rfl
  | queue hqueue => cases hqueue <;> rfl
  | fail _ hlabel => rcases hlabel with rfl | rfl <;> rfl
  | _ => rfl

/-! ## The functions of `LaptopFactory`, inverted -/

namespace LaptopFactory

variable {s : ℤ} {f f' : LaptopFactory}

@[simp] lemma returnTo_metadata (f : LaptopFactory) (caller : Caller) :
    (f.returnTo caller).metadata = f.metadata := by
  cases caller <;> rfl

@[simp] lemma returnTo_metaLock (f : LaptopFactory) (caller : Caller) :
    (f.returnTo caller).metaLock = .free := by
  cases caller <;> rfl

/-- A call that returns lets go of the lock. -/
lemma free_of_returnTo {caller : Caller} (h : f' = f.returnTo caller) : f'.metaLock = .free := by
  rw [h]
  exact returnTo_metaLock f caller

@[simp] lemma returnTo_wire (f : LaptopFactory) (caller : Caller) :
    (f.returnTo caller).wire = .quiet := by
  cases caller <;> rfl

lemma returnTo_timeoutThread (f : LaptopFactory) (caller : Caller) :
    (f.returnTo caller).timeoutThread = .top ∨
      (f.returnTo caller).timeoutThread = f.timeoutThread := by
  cases caller
  · exact Or.inl rfl
  · exact Or.inr rfl

lemma countVote_step {node : ServerNode} {rest : List ServerNode} {res : RequestVoteResponse}
    {l : Label} (hlock : f.metaLock = .requestVote (node :: rest))
    (harrives : VoteArrives s f l res) :
    ThreadStep s f l (f.countVote rest res) (electionEvents s f.metadata res) := by
  have hreact := recvVoteResponse_cases f.metadata res
  unfold countVote electionEvents
  generalize f.metadata.recvVoteResponse res = p at hreact ⊢
  obtain ⟨md, outcome⟩ := p
  cases hreact with
  | won hterm hvoted hwon => exact .elected hlock harrives hterm hvoted hwon
  | counted hterm hvoted => exact .countVote hlock harrives hterm hvoted
  | demoted hlt => exact .outvoted hlock harrives hlt
  | ignored => exact .ignoreVote hlock harrives

lemma testHeartbeat_step (h : f.testHeartbeat = some f') :
    ThreadStep s f (.testHeartbeat s) f' [] := by
  unfold testHeartbeat at h
  split at h
  · rename_i hguard
    obtain rfl := Option.some.inj h
    by_cases hheartbeat : f.metadata.heartbeat = true
    · simp only [hheartbeat, if_true]
      exact .rest hguard.1 hguard.2 hheartbeat
    · rw [if_neg hheartbeat]
      exact .timeOut hguard.1 hguard.2 (by simpa using hheartbeat)
  · cases h

lemma readStatus_step (h : f.readStatus = some f') : ThreadStep s f (.readStatus s) f' [] := by
  unfold readStatus at h
  split at h
  · rename_i htop
    obtain rfl := Option.some.inj h
    exact .readStatus htop
  · cases h

lemma requestVote_step (h : f.requestVote = some f') :
    ThreadStep s f (.requestVote s) f' (standEvents s f'.metadata) := by
  unfold requestVote at h
  split at h
  · rename_i hguard
    obtain rfl := Option.some.inj h
    exact .stand hguard.1 hguard.2
  · cases h

lemma sendRequestVote_step (h : f.sendRequestVote = some f') :
    ThreadStep s f (.sendRequestVote s) f' [] := by
  unfold sendRequestVote at h
  split at h
  · rename_i node rest hlock hquiet
    obtain ⟨msg, hmsg, rfl⟩ := Option.map_eq_some_iff.1 h
    exact .askVote hlock hquiet hmsg
  · cases h

lemma recvVoteResponse_step {res : RequestVoteResponse} (hwire : f.wire = .response (.vote res))
    (h : f.recvVoteResponse = some f') :
    ThreadStep s f (.recvVoteResponse s) f' (electionEvents s f.metadata res) := by
  unfold recvVoteResponse at h
  split at h
  · rename_i node rest res' hlock hwire'
    rw [hwire] at hwire'
    cases hwire'
    obtain rfl := Option.some.inj h
    exact countVote_step hlock (Or.inl ⟨rfl, hwire⟩)
  · cases h

lemma voteLinkFails_step {res : RequestVoteResponse} (h : f.voteLinkFails res = some f') :
    ThreadStep s f (.voteLinkFails s res) f' (electionEvents s f.metadata res) := by
  unfold voteLinkFails at h
  split at h
  · rename_i node rest hlock
    obtain rfl := Option.some.inj h
    exact countVote_step hlock (Or.inr rfl)
  · cases h

lemma endRequestVote_step (h : f.endRequestVote = some f') :
    ThreadStep s f (.endRequestVote s) f' [] := by
  unfold endRequestVote at h
  split at h
  · rename_i hlock
    obtain rfl := Option.some.inj h
    exact .endVote hlock
  · cases h

lemma createLaptop_step {stub : ℕ} {request : CustomerRequest}
    (h : f.createLaptop stub request = some f') :
    ThreadStep s f (.createLaptop s stub request) f' [] := by
  unfold createLaptop at h
  split at h
  · rename_i hidle
    obtain rfl := Option.some.inj h
    exact .queue (.create hidle)
  · cases h

lemma dequeue_step {i : Fin 4} (h : f.dequeue i = some f') :
    ThreadStep s f (.dequeue s i) f' [] := by
  unfold dequeue at h
  split at h
  · rename_i req rest herq hidle
    obtain rfl := Option.some.inj h
    exact .queue (.dequeue herq hidle)
  · cases h

lemma shipLaptop_step {stub : ℕ} {laptop : LaptopInfo}
    (h : f.shipLaptop stub = some (f', laptop)) :
    ThreadStep s f (.shipLaptop s stub) f' [.ship s laptop] := by
  unfold shipLaptop at h
  split at h
  · rename_i hresolved
    simp only [Option.some.injEq, Prod.mk.injEq] at h
    obtain ⟨rfl, rfl⟩ := h
    exact .queue (.ship hresolved)
  · cases h

lemma leaderMaintainLog_step {i : Fin 4} {accepts : List Bool}
    (h : f.leaderMaintainLog i accepts = some f') :
    ThreadStep s f (.leaderMaintainLog s i accepts) f' (appendEvents s f'.metadata) := by
  unfold leaderMaintainLog at h
  split at h
  · rename_i req hreq
    split at h
    · rename_i hguard
      obtain ⟨md, hmd, rfl⟩ := Option.map_eq_some_iff.1 h
      obtain ⟨ack, hack, hlt, rfl⟩ := setAckLength_own hmd
      change ThreadStep s f _ (f.enterReplicateLog (.leaderThread i)
        ((f.metadata.maintained (f.metadata.newEntry req) ack).tryReconnect accepts))
        (appendEvents s
          ((f.metadata.maintained (f.metadata.newEntry req) ack).tryReconnect accepts))
      rw [tryReconnect_maintained]
      have hevents : appendEvents s
          ((f.metadata.reconnected accepts).maintained (f.metadata.newEntry req) ack) =
          [.append s (f.metadata.newEntry req),
            .accept s f.metadata.currentTerm (f.metadata.logSize + 1)] := by
        simp [appendEvents, maintained, reconnected, newEntry]
      rw [hevents]
      exact .maintain hreq hguard.1 hguard.2 hack hlt
    · cases h
  · cases h

lemma replicateLog_step {accepts : List Bool} (h : f.replicateLog accepts = some f') :
    ThreadStep s f (.replicateLog s accepts) f' [] := by
  unfold replicateLog at h
  split at h
  · rename_i hguard
    obtain rfl := Option.some.inj h
    rw [tryReconnect_eq]
    exact .replicate hguard.1 hguard.2.1 hguard.2.2
  · cases h

lemma failFollower_step {caller : Caller} {node : ServerNode} {rest new : List ServerNode}
    {change : ℕ} {l : Label} (hlock : f.metaLock = .replicateLog caller ⟨node :: rest, new, change⟩)
    (hlabel : l = .recvLogResponse s ∨ l = .logLinkFails s)
    (h : f.failFollower caller node ⟨rest, new, change⟩ = some f') :
    ThreadStep s f l f' [] ∧ f'.metadata.commitLength = f.metadata.commitLength := by
  obtain ⟨md, hmd, rfl⟩ := Option.map_eq_some_iff.1 h
  refine ⟨.fail hlock hlabel hmd, ?_⟩
  obtain ⟨ack, sent, -, -, -, -, rfl⟩ := failNode_cases hmd
  rfl

lemma recvLogResponse_step (h : f.recvLogResponse = some f') :
    ThreadStep s f (.recvLogResponse s) f' (commitEvents s f.metadata f'.metadata) := by
  unfold recvLogResponse at h
  split at h
  · rename_i caller node rest new change res hlock hwire
    split at h
    · obtain ⟨hstep, hcommit⟩ := failFollower_step hlock (Or.inl rfl) h
      rw [commitEvents_eq_nil hcommit]
      exact hstep
    · rename_i hvalid
      split at h
      · rename_i hsent
        obtain rfl := Option.some.inj h
        rw [commitEvents_eq_nil rfl]
        exact .heartbeatAnswered hlock hwire hsent
      · rename_i hsent
        obtain ⟨⟨md, goOn⟩, hreact, rfl⟩ := Option.map_eq_some_iff.1 h
        have hreact := recvEntryResponse_cases hreact
        cases goOn with
        | true => exact .entryAnswered hlock hwire hsent hreact hvalid
        | false =>
            cases hreact with
            | deposed hlt =>
                have hnone : commitEvents s f.metadata (LaptopFactory.returnTo
                    { f with metadata := f.metadata.demoted res.currentTerm } caller).metadata =
                    [] := commitEvents_eq_nil (by rw [returnTo_metadata]; rfl)
                exact hnone ▸ .deposed hlock hwire hsent hlt
  · cases h

lemma sendLogRequest_step (h : f.sendLogRequest = some f') :
    ThreadStep s f (.sendLogRequest s) f' (requestEvents s f'.wire) := by
  unfold sendLogRequest at h
  split at h
  · rename_i caller node rest new change hlock hquiet
    obtain ⟨req, hreq, rfl⟩ := Option.map_eq_some_iff.1 h
    exact .sendLog hlock hquiet hreq
  · cases h

lemma logLinkFails_step (h : f.logLinkFails = some f') :
    ThreadStep s f (.logLinkFails s) f' [] := by
  unfold logLinkFails at h
  split at h
  · rename_i caller node rest new change hlock
    exact (failFollower_step hlock (Or.inr rfl) h).1
  · cases h

lemma endRound_step (h : f.endRound = some f') : ThreadStep s f (.endRound s) f' [] := by
  unfold endRound at h
  split at h
  · rename_i caller new change hlock
    by_cases hchange : change = 0
    · subst hchange
      obtain rfl := Option.some.inj h
      exact .return hlock
    · simp only [hchange, if_false, Option.some.injEq] at h
      obtain rfl := h
      exact .nextRound hlock hchange
  · cases h

end LaptopFactory

/-! ## Handled requests -/

/-- A handler takes a request and answers it. -/
inductive Served (f : LaptopFactory) : Rpc → ServerMetadata → Reply → Prop
  | vote {msg : RequestVoteMessage} {md : ServerMetadata} {res : RequestVoteResponse}
      (hfree : f.metaLock = .free) (hanswer : VoteAnswer f.metadata msg md res) :
      Served f (.vote msg) md (.vote res)
  | log {req : LogRequest} {md : ServerMetadata} {res : LogResponse}
      (hfree : f.metaLock = .free) (hvalid : req.isValid)
      (hanswer : f.metadata.getLogResponse req = some (md, res)) :
      Served f (.log req) md (.log res)

lemma Served.free {f : LaptopFactory} {rpc : Rpc} {md : ServerMetadata} {reply : Reply}
    (h : Served f rpc md reply) : f.metaLock = .free := by
  cases h <;> assumption

lemma served_of_serve {f f' : LaptopFactory} {rpc : Rpc} {reply : Reply}
    (h : f.serve rpc = some (f', reply)) :
    ∃ md, f' = { f with metadata := md } ∧ Served f rpc md reply := by
  cases rpc with
  | vote msg =>
      simp only [LaptopFactory.serve] at h
      split at h
      · rename_i hfree
        obtain ⟨⟨md, res⟩, hres, rfl, rfl⟩ := TransitionSystem.exists_of_map_eq_some h
        exact ⟨md, rfl, .vote hfree (getVoteResponse_cases hres)⟩
      · cases h
  | log req =>
      simp only [LaptopFactory.serve] at h
      split at h
      · rename_i hguard
        obtain ⟨⟨md, res⟩, hres, rfl, rfl⟩ := TransitionSystem.exists_of_map_eq_some h
        exact ⟨md, rfl, .log hguard.1 hguard.2 hres⟩
      · cases h

/-- The request a step handles, with its addressee. -/
def Cluster.delivered (c : Cluster) : Label → Option (ℤ × Rpc)
  | .handle s =>
      match (c.server s).wire with
      | .request node rpc => some (node.id, rpc)
      | _ => none
  | .handlePending k => c.pending[k]?
  | .handleGarbage s msg => some (s, .vote msg)
  | _ => none

/-- Where a request that is handed to a handler comes from. -/
lemma Cluster.delivered_cases {c : Cluster} {l : Label} {p : ℤ} {rpc : Rpc}
    (h : c.delivered l = some (p, rpc)) :
    (∃ s ∈ l.actor, ∃ node, (c.server s).wire = .request node rpc ∧ p = node.id) ∨
      (p, rpc) ∈ c.pending ∨
      ∃ msg, l = .handleGarbage p msg ∧ rpc = .vote msg := by
  unfold Cluster.delivered at h
  split at h
  · rename_i s
    split at h
    · rename_i node rpc' hwire
      simp only [Option.some.injEq, Prod.mk.injEq] at h
      obtain ⟨rfl, rfl⟩ := h
      exact .inl ⟨s, rfl, node, hwire, rfl⟩
    · cases h
  · exact .inr (.inl (List.mem_of_getElem? h))
  · rename_i s msg
    simp only [Option.some.injEq, Prod.mk.injEq] at h
    obtain ⟨rfl, rfl⟩ := h
    exact .inr (.inr ⟨msg, rfl, rfl⟩)
  · cases h

/-! ## Steps of the system -/

/-- The observations of server `p` handling `rpc`. -/
abbrev Cluster.served (c : Cluster) (p : ℤ) (rpc : Rpc) (reply : Reply) : List Event :=
  serveEvents p (c.server p).metadata.smrLog rpc reply

/-- The servers after `p` has handled a request. -/
def Cluster.withMetadata (c : Cluster) (p : ℤ) (md : ServerMetadata) : ℤ → LaptopFactory :=
  Function.update c.server p { c.server p with metadata := md }

/-- The three kinds of steps. -/
inductive Effect (cfg : Config) (c : Cluster) (l : Label) (c' : Cluster) : List Event → Prop
  /-- A thread of a server moved; if it gave up a call, the request may still be on its way. -/
  | thread {s : ℤ} {f : LaptopFactory} {es : List Event} (hmem : s ∈ cfg.ids)
      (hstep : ThreadStep s (c.server s) l f es)
      (hserver : c'.server = Function.update c.server s f)
      (hpending : ∀ x ∈ c'.pending, x ∈ c.pending ∨ x ∈ (c.server s).wire.abandoned)
      (hnone : c.delivered l = none) :
      Effect cfg c l c' es
  /-- The request a server waits for was handled. -/
  | answer {s : ℤ} {node : ServerNode} {rpc : Rpc} {md : ServerMetadata} {reply : Reply}
      (hmem : s ∈ cfg.ids) (hwire : (c.server s).wire = .request node rpc)
      (hserved : Served (c.server node.id) rpc md reply)
      (hserver : c'.server = Function.update (c.withMetadata node.id md) s
        { c.withMetadata node.id md s with wire := .response reply })
      (hpending : c'.pending = c.pending) (hdelivered : c.delivered l = some (node.id, rpc)) :
      Effect cfg c l c' (c.served node.id rpc reply)
  /-- A request nobody waits for was handled. -/
  | discard {p : ℤ} {rpc : Rpc} {md : ServerMetadata} {reply : Reply}
      (hfrom : (p, rpc) ∈ c.pending ∨ p ∈ cfg.ids ∧ ∃ msg, rpc = .vote msg)
      (hserved : Served (c.server p) rpc md reply)
      (hserver : c'.server = c.withMetadata p md)
      (hpending : ∀ x ∈ c'.pending, x ∈ c.pending)
      (hdelivered : c.delivered l = some (p, rpc)) :
      Effect cfg c l c' (c.served p rpc reply)

section Act

variable {cfg : Config} {c c' : Cluster} {l : Label} {es : List Event} {s : ℤ}

lemma Wire.eq_of_mem_abandoned {w : Wire} {p : ℤ} {rpc : Rpc} (h : (p, rpc) ∈ w.abandoned) :
    ∃ node : ServerNode, w = .request node rpc ∧ node.id = p := by
  unfold Wire.abandoned at h
  split at h
  · rename_i node rpc'
    simp only [List.mem_singleton, Prod.mk.injEq] at h
    obtain ⟨rfl, rfl⟩ := h
    exact ⟨node, rfl, rfl⟩
  · cases h

lemma dropLink_server (c : Cluster) (s : ℤ) : (c.dropLink s).server = c.server := by
  unfold Cluster.dropLink
  split <;> rfl

lemma dropLink_pending (c : Cluster) (s : ℤ) (x : ℤ × Rpc)
    (hx : x ∈ (c.dropLink s).pending) : x ∈ c.pending ∨ x ∈ (c.server s).wire.abandoned := by
  unfold Cluster.dropLink at hx
  split at hx
  · exact List.mem_append.1 hx
  · exact Or.inl hx

/-- A thread moves, in a cluster whose links its step may have changed. -/
lemma Effect.of_links {c₀ : Cluster} {f : Option LaptopFactory}
    {events : LaptopFactory → List Event} (hmem : s ∈ cfg.ids) (hnone : c.delivered l = none)
    (hserver : c₀.server = c.server)
    (hpending : ∀ x ∈ c₀.pending, x ∈ c.pending ∨ x ∈ (c.server s).wire.abandoned)
    (hstep : ∀ f', f = some f' → ThreadStep s (c.server s) l f' (events f'))
    (h : c₀.move s f events = some (c', es)) : Effect cfg c l c' es := by
  obtain ⟨f', hf, rfl, rfl⟩ := TransitionSystem.exists_of_map_eq_some h
  refine .thread hmem (hstep f' hf) ?_ hpending hnone
  rw [Cluster.setServer, hserver]

lemma Effect.of_move {f : Option LaptopFactory} {events : LaptopFactory → List Event}
    (hmem : s ∈ cfg.ids) (hnone : c.delivered l = none)
    (hstep : ∀ f', f = some f' → ThreadStep s (c.server s) l f' (events f'))
    (h : c.move s f events = some (c', es)) : Effect cfg c l c' es :=
  Effect.of_links hmem hnone rfl (fun _ => Or.inl) hstep h

lemma serveAt_cases {p : ℤ} {rpc : Rpc} {answer : Cluster → Reply → Cluster}
    (h : c.serveAt p rpc answer = some (c', es)) :
    ∃ md reply, Served (c.server p) rpc md reply ∧
      c' = answer (c.setServer p { c.server p with metadata := md }) reply ∧
      es = c.served p rpc reply := by
  obtain ⟨⟨f', reply⟩, hserve, rfl, rfl⟩ := TransitionSystem.exists_of_map_eq_some h
  obtain ⟨md, rfl, hserved⟩ := served_of_serve hserve
  exact ⟨md, reply, hserved, rfl, rfl⟩

lemma Effect.of_discard {p : ℤ} {rpc : Rpc} {answer : Cluster → Reply → Cluster}
    (hfrom : (p, rpc) ∈ c.pending ∨ p ∈ cfg.ids ∧ ∃ msg, rpc = .vote msg)
    (hdelivered : c.delivered l = some (p, rpc))
    (hserver : ∀ c reply, (answer c reply).server = c.server)
    (hpending : ∀ f reply, ∀ x ∈ (answer (c.setServer p f) reply).pending, x ∈ c.pending)
    (h : c.serveAt p rpc answer = some (c', es)) : Effect cfg c l c' es := by
  obtain ⟨md, reply, hserved, rfl, rfl⟩ := serveAt_cases h
  exact .discard hfrom hserved (hserver _ _) (hpending _ _) hdelivered

lemma Effect.of_handle (hmem : s ∈ cfg.ids) (h : c.handle s = some (c', es)) :
    Effect cfg c (.handle s) c' es := by
  unfold Cluster.handle at h
  split at h
  · rename_i node rpc hwire
    obtain ⟨md, reply, hserved, rfl, rfl⟩ := serveAt_cases h
    refine .answer hmem hwire hserved rfl rfl ?_
    simp only [Cluster.delivered, hwire]
  · cases h

/-- **Inversion of a step.** -/
theorem effect_of_step (h : (system cfg).step c l = some (c', es)) : Effect cfg c l c' es := by
  change (if ∀ s ∈ l.actor, s ∈ cfg.ids then c.act l else none) = some (c', es) at h
  split at h
  swap
  · cases h
  rename_i hactor
  cases l with
  | readStatus s =>
      exact Effect.of_move (hactor s rfl) rfl (fun f' => LaptopFactory.readStatus_step) h
  | testHeartbeat s =>
      exact Effect.of_move (hactor s rfl) rfl (fun f' => LaptopFactory.testHeartbeat_step) h
  | requestVote s =>
      exact Effect.of_move (hactor s rfl) rfl (fun f' => LaptopFactory.requestVote_step) h
  | sendRequestVote s =>
      simp only [Cluster.act] at h
      split at h
      · exact Effect.of_move (hactor s rfl) rfl (fun f' => LaptopFactory.sendRequestVote_step) h
      · cases h
  | recvVoteResponse s =>
      simp only [Cluster.act] at h
      split at h
      · rename_i res hwire
        exact Effect.of_move (hactor s rfl) rfl
          (fun f' => LaptopFactory.recvVoteResponse_step hwire) h
      · cases h
  | voteLinkFails s res =>
      exact Effect.of_links (hactor s rfl) rfl (dropLink_server c s) (dropLink_pending c s)
        (fun f' => LaptopFactory.voteLinkFails_step) h
  | endRequestVote s =>
      exact Effect.of_move (hactor s rfl) rfl (fun f' => LaptopFactory.endRequestVote_step) h
  | createLaptop s stub request =>
      exact Effect.of_move (hactor s rfl) rfl (fun f' => LaptopFactory.createLaptop_step) h
  | dequeue s i =>
      exact Effect.of_move (hactor s rfl) rfl (fun f' => LaptopFactory.dequeue_step) h
  | shipLaptop s stub =>
      obtain ⟨⟨f', laptop⟩, hship, rfl, rfl⟩ := TransitionSystem.exists_of_map_eq_some h
      exact .thread (hactor s rfl) (LaptopFactory.shipLaptop_step hship) rfl
        (fun x hx => Or.inl hx) rfl
  | leaderMaintainLog s i accepts =>
      have hserver : (c.openLinks s accepts).server = c.server := rfl
      exact Effect.of_links (hactor s rfl) rfl hserver (fun x hx => Or.inl hx)
        (fun f' => LaptopFactory.leaderMaintainLog_step) h
  | replicateLog s accepts =>
      have hserver : (c.openLinks s accepts).server = c.server := rfl
      exact Effect.of_links (hactor s rfl) rfl hserver (fun x hx => Or.inl hx)
        (fun f' => LaptopFactory.replicateLog_step) h
  | sendLogRequest s =>
      simp only [Cluster.act] at h
      split at h
      · exact Effect.of_move (hactor s rfl) rfl (fun f' => LaptopFactory.sendLogRequest_step) h
      · cases h
  | recvLogResponse s =>
      exact Effect.of_move (hactor s rfl) rfl (fun f' => LaptopFactory.recvLogResponse_step) h
  | logLinkFails s =>
      exact Effect.of_links (hactor s rfl) rfl (dropLink_server c s) (dropLink_pending c s)
        (fun f' => LaptopFactory.logLinkFails_step) h
  | endRound s =>
      exact Effect.of_move (hactor s rfl) rfl (fun f' => LaptopFactory.endRound_step) h
  | handle s => exact Effect.of_handle (hactor s rfl) h
  | handlePending k =>
      simp only [Cluster.act, Cluster.handlePending] at h
      split at h
      · rename_i p rpc hk
        refine Effect.of_discard (Or.inl (List.mem_of_getElem? hk)) hk ?_ ?_ h
        · exact fun _ _ => rfl
        · exact fun _ _ x hx => List.mem_of_mem_eraseIdx hx
      · cases h
  | handleGarbage s msg =>
      simp only [Cluster.act, Cluster.handleGarbage] at h
      split at h
      · exact Effect.of_discard (Or.inr ⟨hactor s rfl, msg, rfl⟩) rfl (fun _ _ => rfl)
          (fun _ _ x hx => hx) h
      · cases h

end Act

/-- Server `p` handled `rpc`, and nothing else happened but on the wire. -/
structure Handled (c c' : Cluster) (p : ℤ) (rpc : Rpc) (reply : Reply) : Prop where
  served : Served (c.server p) rpc (c'.server p).metadata reply
  others : ∀ q, q ≠ p → (c'.server q).metadata = (c.server q).metadata
  pending : ∀ x ∈ c'.pending, x ∈ c.pending

/-- A step that delivers a request is the handling of it. -/
lemma handled_of_step {cfg : Config} {c c' : Cluster} {l : Label} {es : List Event} {p : ℤ}
    {rpc : Rpc} (hst : (system cfg).step c l = some (c', es))
    (hdelivered : c.delivered l = some (p, rpc)) :
    ∃ reply, Handled c c' p rpc reply ∧ es = c.served p rpc reply := by
  have hwith : ∀ p md, (∀ q, (c'.server q).metadata = (c.withMetadata p md q).metadata) →
      (c'.server p).metadata = md ∧
        ∀ q, q ≠ p → (c'.server q).metadata = (c.server q).metadata := by
    intro p md hmetadata
    constructor
    · rw [hmetadata p, Cluster.withMetadata, Function.update_self]
    · intro q hq
      rw [hmetadata q, Cluster.withMetadata, Function.update_of_ne hq]
  cases effect_of_step hst with
  | thread hmem hstep hserver hpending hnone =>
      rw [hnone] at hdelivered
      cases hdelivered
  | @answer s node rpc' md reply hmem hwire hserved hserver hpending hdelivered' =>
      rw [hdelivered'] at hdelivered
      simp only [Option.some.injEq, Prod.mk.injEq] at hdelivered
      obtain ⟨rfl, rfl⟩ := hdelivered
      obtain ⟨hself, hothers⟩ := hwith node.id md fun q => by
        rw [hserver]
        by_cases hq : q = s
        · subst hq
          rw [Function.update_self]
        · rw [Function.update_of_ne hq]
      exact ⟨reply, ⟨hself.symm ▸ hserved, hothers, fun x hx => hpending ▸ hx⟩, rfl⟩
  | @discard p' rpc' md reply hfrom hserved hserver hpending hdelivered' =>
      rw [hdelivered'] at hdelivered
      simp only [Option.some.injEq, Prod.mk.injEq] at hdelivered
      obtain ⟨rfl, rfl⟩ := hdelivered
      obtain ⟨hself, hothers⟩ := hwith p' md fun q => by rw [hserver]
      exact ⟨reply, ⟨hself.symm ▸ hserved, hothers, hpending⟩, rfl⟩

/-- **The two kinds of steps**, when what happens on the wire does not matter. -/
theorem step_cases {cfg : Config} {c c' : Cluster} {l : Label} {es : List Event}
    (hst : (system cfg).step c l = some (c', es)) :
    (∃ s f, s ∈ cfg.ids ∧ ThreadStep s (c.server s) l f es ∧
      c'.server = Function.update c.server s f ∧
      ∀ x ∈ c'.pending, x ∈ c.pending ∨ x ∈ (c.server s).wire.abandoned) ∨
    ∃ p rpc reply, c.delivered l = some (p, rpc) ∧ Handled c c' p rpc reply ∧
      es = c.served p rpc reply := by
  cases hdelivered : c.delivered l with
  | some request =>
      obtain ⟨p, rpc⟩ := request
      obtain ⟨reply, hhandled, hes⟩ := handled_of_step hst hdelivered
      exact Or.inr ⟨p, rpc, reply, rfl, hhandled, hes⟩
  | none =>
      cases effect_of_step hst with
      | thread hmem hstep hserver hpending hnone =>
          exact Or.inl ⟨_, _, hmem, hstep, hserver, hpending⟩
      | answer hmem hwire hserved hserver hpending hsome =>
          rw [hsome] at hdelivered
          cases hdelivered
      | discard hfrom hserved hserver hpending hsome =>
          rw [hsome] at hdelivered
          cases hdelivered

/-! ## A step, seen from a server that holds its lock -/

section Held

variable {cfg : Config} {c c' : Cluster} {l : Label} {es : List Event} {s : ℤ}

lemma act_of_step {r : Cluster × List Event} (hst : (system cfg).step c l = some r) :
    c.act l = some r := by
  change (if ∀ s ∈ l.actor, s ∈ cfg.ids then c.act l else none) = some r at hst
  split at hst
  · exact hst
  · cases hst

lemma handle_cases (h : c.handle s = some (c', es)) :
    ∃ node rpc md reply, (c.server s).wire = .request node rpc ∧
      Served (c.server node.id) rpc md reply ∧
      c'.server = Function.update (c.withMetadata node.id md) s
        { c.withMetadata node.id md s with wire := .response reply } := by
  unfold Cluster.handle at h
  split at h
  · rename_i node rpc hwire
    obtain ⟨md, reply, hserved, rfl, -⟩ := serveAt_cases h
    exact ⟨node, rpc, md, reply, hwire, hserved, rfl⟩
  · cases h

/-- The answer to a server that holds its lock. -/
structure Answered (c c' : Cluster) (s : ℤ) (node : ServerNode) (rpc : Rpc)
    (md : ServerMetadata) (reply : Reply) : Prop where
  wire : (c.server s).wire = .request node rpc
  served : Served (c.server node.id) rpc md reply
  caller : c'.server s = { c.server s with wire := .response reply }
  callee : (c'.server node.id).metadata = md
  others : ∀ q, q ≠ node.id → (c'.server q).metadata = (c.server q).metadata

/-- **A step, seen from a server that holds its lock**: it is not concerned, one of its threads
moved, or its request was answered. -/
theorem held_cases (hst : (system cfg).step c l = some (c', es))
    (hheld : (c.server s).metaLock ≠ .free) :
    (l ≠ .handle s ∧ (c'.server s = c.server s ∨
      ThreadStep s (c.server s) l (c'.server s) es)) ∨
    (l = .handle s ∧ ∃ node rpc md reply, Answered c c' s node rpc md reply) := by
  have hother : ∀ {p rpc md reply}, Served (c.server p) rpc md reply → s ≠ p := by
    rintro p rpc md reply hserved rfl
    exact hheld hserved.free
  have hwith : ∀ {p rpc md reply}, Served (c.server p) rpc md reply →
      c.withMetadata p md s = c.server s :=
    fun hserved => Function.update_of_ne (hother hserved) _ _
  have hact := act_of_step hst
  cases hdelivered : c.delivered l with
  | none =>
      refine Or.inl ⟨?_, ?_⟩
      · rintro rfl
        obtain ⟨node, rpc, md, reply, hwire, -⟩ := handle_cases hact
        simp [Cluster.delivered, hwire] at hdelivered
      · cases effect_of_step hst with
        | @thread q f _ hmem hstep hserver hpending hnone =>
            rw [hserver]
            by_cases hq : s = q
            · subst hq
              rw [Function.update_self]
              exact Or.inr hstep
            · rw [Function.update_of_ne hq]
              exact Or.inl rfl
        | answer hmem hwire hserved hserver hpending hsome =>
            rw [hsome] at hdelivered
            cases hdelivered
        | discard hfrom hserved hserver hpending hsome =>
            rw [hsome] at hdelivered
            cases hdelivered
  | some request =>
      unfold Cluster.delivered at hdelivered
      split at hdelivered
      · rename_i q
        obtain ⟨node, rpc, md, reply, hwire, hserved, hserver⟩ := handle_cases hact
        by_cases hq : s = q
        · subst hq
          refine Or.inr ⟨rfl, node, rpc, md, reply, hwire, hserved, ?_, ?_, fun q hne => ?_⟩
          · rw [hserver, Function.update_self, hwith hserved]
          · rw [hserver, Function.update_of_ne (Ne.symm (hother hserved)), Cluster.withMetadata,
              Function.update_self]
          · rw [hserver]
            by_cases hqs : q = s
            · subst hqs
              rw [Function.update_self, hwith hserved]
            · rw [Function.update_of_ne hqs, Cluster.withMetadata, Function.update_of_ne hne]
        · refine Or.inl ⟨fun hl => hq (Label.handle.inj hl).symm, Or.inl ?_⟩
          rw [hserver, Function.update_of_ne hq, hwith hserved]
      · rename_i k
        refine Or.inl ⟨by simp, Or.inl ?_⟩
        simp only [Cluster.act, Cluster.handlePending, hdelivered] at hact
        obtain ⟨md, reply, hserved, rfl, -⟩ := serveAt_cases hact
        exact hwith hserved
      · rename_i q msg
        refine Or.inl ⟨by simp, Or.inl ?_⟩
        simp only [Cluster.act, Cluster.handleGarbage] at hact
        split at hact
        · obtain ⟨md, reply, hserved, rfl, -⟩ := serveAt_cases hact
          exact hwith hserved
        · cases hact
      · cases hdelivered

end Held

/-! ## A free lock means a quiet wire -/

/-- Only a loop that is at some peer waits for an answer. -/
def Idle (f : LaptopFactory) : Prop := f.callee = none → f.wire = .quiet

lemma Idle.quiet {f : LaptopFactory} (h : Idle f) (hfree : f.metaLock = .free) :
    f.wire = .quiet :=
  h (by simp [LaptopFactory.callee, hfree])

lemma ThreadStep.idle {s : ℤ} {f f' : LaptopFactory} {l : Label} {es : List Event}
    (h : ThreadStep s f l f' es) (hidle : Idle f) : Idle f' := by
  unfold Idle LaptopFactory.callee at *
  cases h
  case deposed => exact fun _ => LaptopFactory.returnTo_wire _ _
  case «return» => exact fun _ => LaptopFactory.returnTo_wire _ _
  all_goals simp_all [LaptopFactory.enterReplicateLog]

section Runs

variable {cfg : Config} {ok : Cluster → Label → Prop} {c : Cluster} {tr : List Event}

theorem idle_of_run (hrun : (system cfg).Run ok c tr) (s : ℤ) : Idle (c.server s) := by
  refine TransitionSystem.Run.invariant (I := fun c _ => ∀ s, Idle (c.server s)) ?_ ?_ hrun s
  · rintro _ ⟨connects, rfl⟩ s _
    rfl
  · intro c tr l c' es _ ih _ hst q
    have hwith : ∀ p md, Idle (c.withMetadata p md q) := by
      intro p md
      unfold Cluster.withMetadata
      by_cases hq : q = p
      · subst hq
        rw [Function.update_self]
        exact ih q
      · rw [Function.update_of_ne hq]
        exact ih q
    cases effect_of_step hst with
    | thread hmem hstep hserver hpending hnone =>
        rename_i s f
        rw [hserver]
        by_cases hq : q = s
        · subst hq
          rw [Function.update_self]
          exact hstep.idle (ih q)
        · rw [Function.update_of_ne hq]
          exact ih q
    | answer hmem hwire hserved hserver hpending hdelivered =>
        rename_i s node rpc md reply
        rw [hserver]
        by_cases hq : q = s
        · subst hq
          rw [Function.update_self]
          have hne : q ≠ node.id := by
            rintro rfl
            have hquiet := (ih node.id).quiet hserved.free
            rw [hwire] at hquiet
            cases hquiet
          have hsame : c.withMetadata node.id md q = c.server q := Function.update_of_ne hne _ _
          rw [hsame]
          intro hcallee
          have hquiet := ih q hcallee
          rw [hwire] at hquiet
          cases hquiet
        · rw [Function.update_of_ne hq]
          exact hwith node.id md
    | discard hfrom hserved hserver hpending hdelivered =>
        rename_i p rpc md reply
        rw [hserver]
        exact hwith p md

/-- A server does not answer its own request. -/
lemma ne_of_served {s : ℤ} {node : ServerNode} {rpc : Rpc} {md : ServerMetadata} {reply : Reply}
    (hrun : (system cfg).Run ok c tr) (hwire : (c.server s).wire = .request node rpc)
    (hserved : Served (c.server node.id) rpc md reply) : s ≠ node.id := by
  rintro rfl
  have hquiet := (idle_of_run hrun node.id).quiet hserved.free
  rw [hwire] at hquiet
  cases hquiet

/-! ## Induction over runs, one server at a time -/

/-- **Invariants of single servers.**  `P s f tr` is to survive what other servers are observed
to do, the steps of the server's own threads, the requests it handles, and the arrival of the
answer it waits for.  `Q p rpc` holds of every request `rpc` on its way to `p`; it is to follow
from `P` of the sender. -/
theorem run_invariant {P : ℤ → LaptopFactory → List Event → Prop} {Q : ℤ → Rpc → Prop}
    (hboot : ∀ connects s, P s ((boot cfg connects).server s) [])
    (hother : ∀ s f tr es, (∀ e ∈ es, e.server ≠ s) → P s f tr → P s f (tr ++ es))
    (hthread : ∀ c tr l s f es, (system cfg).Run ok c tr → ok c l → s ∈ cfg.ids →
      ThreadStep s (c.server s) l f es → P s (c.server s) tr → P s f (tr ++ es))
    (hsent : ∀ c tr s node rpc, (system cfg).Run ok c tr → s ∈ cfg.ids →
      (c.server s).wire = .request node rpc → P s (c.server s) tr → Q node.id rpc)
    (hgarbage : ∀ p ∈ cfg.ids, ∀ msg, Q p (.vote msg))
    (hserve : ∀ c tr l p rpc md reply, (system cfg).Run ok c tr → ok c l → Q p rpc →
      c.delivered l = some (p, rpc) → Served (c.server p) rpc md reply → P p (c.server p) tr →
      P p { c.server p with metadata := md } (tr ++ c.served p rpc reply))
    (hanswer : ∀ c tr s node rpc md reply, (system cfg).Run ok c tr → s ∈ cfg.ids →
      (c.server s).wire = .request node rpc → Served (c.server node.id) rpc md reply →
      P s (c.server s) (tr ++ c.served node.id rpc reply) →
      P s { c.server s with wire := .response reply } (tr ++ c.served node.id rpc reply))
    (hrun : (system cfg).Run ok c tr) :
    (∀ s, P s (c.server s) tr) ∧ ∀ p rpc, (p, rpc) ∈ c.pending → Q p rpc := by
  refine TransitionSystem.Run.invariant (I := fun c tr => (∀ s, P s (c.server s) tr) ∧
    ∀ p rpc, (p, rpc) ∈ c.pending → Q p rpc) ?_ ?_ hrun
  · rintro _ ⟨connects, rfl⟩
    exact ⟨hboot connects, fun p rpc hmem => absurd hmem List.not_mem_nil⟩
  · rintro c tr l c' es hrun ⟨ihP, ihQ⟩ hok hst
    -- what one server is observed to do does not concern the others
    have hframe : ∀ p q es, (∀ e ∈ es, e.server = p) → q ≠ p → P q (c.server q) (tr ++ es) := by
      intro p q es hes hq
      refine hother q _ tr es (fun e he => ?_) (ihP q)
      rw [hes e he]
      exact Ne.symm hq
    have hwith : ∀ p rpc md reply, Q p rpc → c.delivered l = some (p, rpc) →
        Served (c.server p) rpc md reply →
        ∀ q, P q (c.withMetadata p md q) (tr ++ c.served p rpc reply) := by
      intro p rpc md reply hrpc hdelivered hserved q
      unfold Cluster.withMetadata
      by_cases hq : q = p
      · subst hq
        rw [Function.update_self]
        exact hserve c tr l q rpc md reply hrun hok hrpc hdelivered hserved (ihP q)
      · rw [Function.update_of_ne hq]
        exact hframe p q _ (fun e he => serveEvents_server he) hq
    cases effect_of_step hst with
    | thread hmem hstep hserver hpending hnone =>
        rename_i s f
        refine ⟨fun q => ?_, fun p rpc hin => ?_⟩
        · rw [hserver]
          by_cases hq : q = s
          · subst hq
            rw [Function.update_self]
            exact hthread c tr l q f es hrun hok hmem hstep (ihP q)
          · rw [Function.update_of_ne hq]
            exact hframe s q es hstep.server_eq hq
        · rcases hpending _ hin with hold | habandoned
          · exact ihQ p rpc hold
          · obtain ⟨node, hwire, rfl⟩ := Wire.eq_of_mem_abandoned habandoned
            exact hsent c tr s node rpc hrun hmem hwire (ihP s)
    | answer hmem hwire hserved hserver hpending hdelivered =>
        rename_i s node rpc md reply
        have hne : s ≠ node.id := ne_of_served hrun hwire hserved
        have hrpc := hsent c tr s node rpc hrun hmem hwire (ihP s)
        refine ⟨fun q => ?_, fun p rpc hin => ihQ p rpc (hpending ▸ hin)⟩
        rw [hserver]
        by_cases hq : q = s
        · subst hq
          rw [Function.update_self, Cluster.withMetadata, Function.update_of_ne hne]
          exact hanswer c tr q node rpc md reply hrun hmem hwire hserved
            (hframe node.id q _ (fun e he => serveEvents_server he) hne)
        · rw [Function.update_of_ne hq]
          exact hwith node.id rpc md reply hrpc hdelivered hserved q
    | discard hfrom hserved hserver hpending hdelivered =>
        rename_i p rpc md reply
        have hrpc : Q p rpc := by
          rcases hfrom with hin | ⟨hmem, msg, rfl⟩
          · exact ihQ p rpc hin
          · exact hgarbage p hmem msg
        rw [hserver]
        exact ⟨hwith p rpc md reply hrpc hdelivered hserved,
          fun p' rpc' hin => ihQ p' rpc' (hpending _ hin)⟩

/-- The rule for an invariant that needs to know nothing about the requests. -/
theorem run_forall_server {P : ℤ → LaptopFactory → List Event → Prop}
    (hboot : ∀ connects s, P s ((boot cfg connects).server s) [])
    (hother : ∀ s f tr es, (∀ e ∈ es, e.server ≠ s) → P s f tr → P s f (tr ++ es))
    (hthread : ∀ c tr l s f es, (system cfg).Run ok c tr → ok c l → s ∈ cfg.ids →
      ThreadStep s (c.server s) l f es → P s (c.server s) tr → P s f (tr ++ es))
    (hserve : ∀ c tr l p rpc md reply, (system cfg).Run ok c tr → ok c l →
      c.delivered l = some (p, rpc) → Served (c.server p) rpc md reply → P p (c.server p) tr →
      P p { c.server p with metadata := md } (tr ++ c.served p rpc reply))
    (hanswer : ∀ c tr s node rpc md reply, (system cfg).Run ok c tr → s ∈ cfg.ids →
      (c.server s).wire = .request node rpc → Served (c.server node.id) rpc md reply →
      P s (c.server s) (tr ++ c.served node.id rpc reply) →
      P s { c.server s with wire := .response reply } (tr ++ c.served node.id rpc reply))
    (hrun : (system cfg).Run ok c tr) (s : ℤ) : P s (c.server s) tr :=
  (run_invariant (Q := fun _ _ => True) hboot hother hthread (fun _ _ _ _ _ _ _ _ _ => trivial)
    (fun _ _ _ => trivial)
    (fun c tr l p rpc md reply hrun hok _ => hserve c tr l p rpc md reply hrun hok)
    hanswer hrun).1 s

end Runs

end LaptopRaft
