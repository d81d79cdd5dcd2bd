import LaptopRaft.Framework.TransitionSystem
import LaptopRaft.Model.Metadata

/-!
# The cluster: threads, locks and messages

One step of the cluster is one step of one thread of one server.  A server (`LaptopFactory`) has
its metadata, the queue `erq` of client updates, four `LeaderThread`s, the `TimeoutThread`, and
the handler threads of its connections; they exclude each other through `meta_lock`.

* `RequestVote` and `ReplicateLog` run their network loops while holding `meta_lock`.  The state
  of the loop is kept in `MetaLock`, and a server that holds the lock in this way has at most one
  request outstanding (`Wire`), which it waits for.
* A request is handled by its addressee in one step, taken when the addressee's lock is free.
* `TimeoutThread` reads the status without the lock (`readStatus`) and acts on what it read in a
  later, locked step.
* A client's update is queued, dequeued (which resolves the client's future), and appended, in
  three steps of which only the last takes `meta_lock`.

Servers do not crash.  A connection may fail at any point of a call: in `ReplicateLog` the caller
notices, in `RequestVote` it goes on with a response object unmarshalled from a buffer that
nothing filled, which the label supplies.  A request that was sent before the failure may still
be handled later (`pending`), and the receiving end of a failed connection decodes what was in
its buffers: a vote request with arbitrary fields (`handleGarbage`); a log request would be
recognised as invalid.

Timeouts are steps that may happen at any time, so the durations the source waits for are not
modelled. The handshake of a client connection and the read requests change no metadata; they are
the subject of `Model/Customer`.
-/

namespace LaptopRaft

/-! ## Threads and locks -/

/-- A queued update (`struct LeaderRequest`); `stub` names the client connection, whose promise
it carries. -/
structure LeaderRequest where
  laptop : LaptopInfo
  stub : ℕ
deriving DecidableEq

/-- A `CustomerHandler` between two requests, blocked in `fut.get()`, or past it. -/
inductive Customer
  | idle
  | waiting
  | resolved (laptop : LaptopInfo)
deriving DecidableEq

/-- `TimeoutThread`: about to read the status, or inside the `switch` case of the status read. -/
inductive TimeoutThread
  | top
  | branch (status : Status)
deriving DecidableEq

/-- Who called `ReplicateLog`. -/
inductive Caller
  | timeoutThread
  | leaderThread (i : Fin 4)
deriving DecidableEq

/-- The locals of `ReplicateLog`: the part of `node_socket` the current round has still to
visit, the map the next round will use (it keeps what earlier rounds put there), and the number
of entry requests answered in this round.  `rand_num` is drawn from `[1, 1]`, so heartbeats are
sent in every round. -/
structure ReplicateLoop where
  rest : List ServerNode
  newNodeSocket : List ServerNode
  numChange : ℕ
deriving DecidableEq

/-- Who holds `meta_lock` across steps. -/
inductive MetaLock
  | free
  | requestVote (rest : List ServerNode)
  | replicateLog (caller : Caller) (loop : ReplicateLoop)
deriving DecidableEq

inductive Rpc
  | vote (msg : RequestVoteMessage)
  | log (req : LogRequest)
deriving DecidableEq

inductive Reply
  | vote (res : RequestVoteResponse)
  | log (res : LogResponse)
deriving DecidableEq

/-- The outstanding call of a server. -/
inductive Wire
  | quiet
  | request (node : ServerNode) (rpc : Rpc)
  | response (reply : Reply)
deriving DecidableEq

/-- The request that is still on its way when the caller gives up. -/
def Wire.abandoned : Wire → List (ℤ × Rpc)
  | .request node rpc => [(node.id, rpc)]
  | _ => []

/-- A server process. -/
structure LaptopFactory where
  metadata : ServerMetadata
  metaLock : MetaLock := .free
  wire : Wire := .quiet
  timeoutThread : TimeoutThread := .top
  erq : List LeaderRequest := []
  leaderThread : Fin 4 → Option LeaderRequest := fun _ => none
  customer : ℕ → Customer := fun _ => .idle

namespace LaptopFactory

variable (f : LaptopFactory)

/-- The peer the loop that holds the lock is at. -/
def callee : Option ServerNode :=
  match f.metaLock with
  | .requestVote (node :: _) => some node
  | .replicateLog _ ⟨node :: _, _, _⟩ => some node
  | _ => none

/-! ## `TimeoutThread` -/

def readStatus : Option LaptopFactory :=
  if f.timeoutThread = .top then
    some { f with timeoutThread := .branch f.metadata.status }
  else none

/-- Case `FOLLOWER`, after the wait. -/
def testHeartbeat : Option LaptopFactory :=
  if f.timeoutThread = .branch .follower ∧ f.metaLock = .free then
    some
      { f with
        metadata := if f.metadata.heartbeat then f.metadata.setHeartbeat false
          else f.metadata.setStatus .candidate
        timeoutThread := .top }
  else none

/-- Case `CANDIDATE`: enter `RequestVote`. -/
def requestVote : Option LaptopFactory :=
  if f.timeoutThread = .branch .candidate ∧ f.metaLock = .free then
    some
      { f with
        metadata := f.metadata.requestVote
        metaLock := .requestVote f.metadata.nodeSocket }
  else none

def sendRequestVote : Option LaptopFactory :=
  match f.metaLock, f.wire with
  | .requestVote (node :: _), .quiet =>
      f.metadata.sendRequestVote.map fun msg => { f with wire := .request node (.vote msg) }
  | _, _ => none

/-- The reaction of `RequestVote` to a response: `WonElection` and a higher term end the call,
anything else goes on with the next peer. -/
def countVote (rest : List ServerNode) (res : RequestVoteResponse) : LaptopFactory :=
  match f.metadata.recvVoteResponse res with
  | (md, .next) => { f with metadata := md, metaLock := .requestVote rest, wire := .quiet }
  | (md, _) =>
      { f with metadata := md, metaLock := .free, wire := .quiet, timeoutThread := .top }

def recvVoteResponse : Option LaptopFactory :=
  match f.metaLock, f.wire with
  | .requestVote (_ :: rest), .response (.vote res) => some (f.countVote rest res)
  | _, _ => none

/-- The connection fails during `RequestVote`, which does not notice: `res` is what the
unfilled buffer decodes to. -/
def voteLinkFails (res : RequestVoteResponse) : Option LaptopFactory :=
  match f.metaLock with
  | .requestVote (_ :: rest) => some (f.countVote rest res)
  | _ => none

def endRequestVote : Option LaptopFactory :=
  match f.metaLock with
  | .requestVote [] => some { f with metaLock := .free, timeoutThread := .top }
  | _ => none

/-! ## Client connections and `LeaderThread` -/

/-- `CreateLaptop`: queue the update and wait for its future. -/
def createLaptop (stub : ℕ) (request : CustomerRequest) : Option LaptopFactory :=
  if f.customer stub = .idle then
    some
      { f with
        erq := f.erq ++ [⟨LaptopInfo.ofRequest request stub, stub⟩]
        customer := Function.update f.customer stub .waiting }
  else none

/-- `LeaderThread` `i` takes a request off the queue and resolves its promise. -/
def dequeue (i : Fin 4) : Option LaptopFactory :=
  match f.erq, f.leaderThread i with
  | req :: rest, none =>
      let laptop := { req.laptop with adminId := i }
      some
        { f with
          erq := rest
          leaderThread := Function.update f.leaderThread i (some { req with laptop := laptop })
          customer := Function.update f.customer req.stub (.resolved laptop) }
  | _, _ => none

def shipLaptop (stub : ℕ) : Option (LaptopFactory × LaptopInfo) :=
  match f.customer stub with
  | .resolved laptop =>
      some ({ f with customer := Function.update f.customer stub .idle }, laptop)
  | _ => none

/-! ## `ReplicateLog` and its callers -/

/-- Enter the loop of `ReplicateLog`, after `TryReconnect`. -/
def enterReplicateLog (caller : Caller) (md : ServerMetadata) : LaptopFactory :=
  { f with metadata := md, metaLock := .replicateLog caller ⟨md.nodeSocket, [], 0⟩ }

/-- The end of a call of `ReplicateLog`. -/
def returnTo : Caller → LaptopFactory
  | .timeoutThread => { f with metaLock := .free, wire := .quiet, timeoutThread := .top }
  | .leaderThread i =>
      { f with
        metaLock := .free
        wire := .quiet
        leaderThread := Function.update f.leaderThread i none }

/-- `LeaderMaintainLog`: append with the current term, acknowledge to itself, replicate. -/
def leaderMaintainLog (i : Fin 4) (accepts : List Bool) : Option LaptopFactory :=
  match f.leaderThread i with
  | some req =>
      if f.metaLock = .free ∧ accepts.length = f.metadata.failedNeighbors.length then
        let md := f.metadata.appendLog f.metadata.currentTerm req.laptop.customerId
          req.laptop.orderNumber
        (md.setAckLength (-1) md.logSize).map fun md =>
          f.enterReplicateLog (.leaderThread i) (md.tryReconnect accepts)
      else none
  | none => none

/-- Case `LEADER` of `TimeoutThread`. -/
def replicateLog (accepts : List Bool) : Option LaptopFactory :=
  if f.timeoutThread = .branch .leader ∧ f.metaLock = .free ∧
      accepts.length = f.metadata.failedNeighbors.length then
    some (f.enterReplicateLog .timeoutThread (f.metadata.tryReconnect accepts))
  else none

def sendLogRequest : Option LaptopFactory :=
  match f.metaLock, f.wire with
  | .replicateLog _ ⟨node :: _, _, _⟩, .quiet =>
      (f.metadata.logRequestFor node).map fun req => { f with wire := .request node (.log req) }
  | _, _ => none

/-- A follower failed during the call: go on with the next one. -/
def failFollower (caller : Caller) (node : ServerNode) (loop : ReplicateLoop) :
    Option LaptopFactory :=
  (f.metadata.failNode node).map fun md =>
    { f with metadata := md, metaLock := .replicateLog caller loop, wire := .quiet }

def recvLogResponse : Option LaptopFactory :=
  match f.metaLock, f.wire with
  | .replicateLog caller ⟨node :: rest, new, change⟩, .response (.log res) =>
      if res.followerId = -1 then f.failFollower caller node ⟨rest, new, change⟩
      else
        let new' := ServerMetadata.insertSocket new node
        if f.metadata.sentTo node = some f.metadata.logSize then
          -- nothing in the response to a heartbeat is looked at
          some { f with metaLock := .replicateLog caller ⟨rest, new', change⟩, wire := .quiet }
        else
          (f.metadata.recvEntryResponse node res).map fun p =>
            if p.2 then
              { f with
                metadata := p.1
                metaLock := .replicateLog caller ⟨rest, new', change + 1⟩
                wire := .quiet }
            else { f with metadata := p.1 }.returnTo caller
  | _, _ => none

def logLinkFails : Option LaptopFactory :=
  match f.metaLock with
  | .replicateLog caller ⟨node :: rest, new, change⟩ =>
      f.failFollower caller node ⟨rest, new, change⟩
  | _ => none

/-- The end of a round of the outer loop: another one if an entry request was answered. -/
def endRound : Option LaptopFactory :=
  match f.metaLock with
  | .replicateLog caller ⟨[], new, change⟩ =>
      let f := { f with metadata := { f.metadata with nodeSocket := new } }
      if change = 0 then some (f.returnTo caller)
      else
        -- `new_node_socket` is not cleared between the rounds
        some { f with metaLock := .replicateLog caller ⟨new, new, 0⟩ }
  | _ => none

/-! ## Handlers -/

/-- `CandidateVoteHandler` and `AppendLogHandler`: the handler takes the lock, computes the
answer and releases it.  An invalid log request is not answered. -/
def serve : Rpc → Option (LaptopFactory × Reply)
  | .vote msg =>
      if f.metaLock = .free then
        (f.metadata.getVoteResponse msg).map fun p => ({ f with metadata := p.1 }, .vote p.2)
      else none
  | .log req =>
      if f.metaLock = .free ∧ req.isValid then
        (f.metadata.getLogResponse req).map fun p => ({ f with metadata := p.1 }, .log p.2)
      else none

end LaptopFactory

/-! ## Observations -/

/-- What a run is observed to do.  The logs a `vote` and an `initLeader` carry are the logs of
the voter and of the new leader at that moment. -/
inductive Event
  | vote (voter term candidate : ℤ) (log : List MapOp)
  | initLeader (server term : ℤ) (log : List MapOp)
  | append (server : ℤ) (op : MapOp)
  | sendLogRequest (server : ℤ) (req : LogRequest)
  | accept (server term length : ℤ)
  | commit (server term : ℤ) (index : ℕ) (op : MapOp)
  | ship (server : ℤ) (laptop : LaptopInfo)
deriving DecidableEq

/-- The self vote of `RequestVote`. -/
def standEvents (s : ℤ) (after : ServerMetadata) : List Event :=
  [.vote s after.currentTerm s after.smrLog]

/-- `InitLeader`, when a response decides the election. -/
def electionEvents (s : ℤ) (before : ServerMetadata) (res : RequestVoteResponse) : List Event :=
  if (before.recvVoteResponse res).2 = .won then [.initLeader s before.currentTerm before.smrLog]
  else []

/-- The append of `LeaderMaintainLog`, by which the server also acknowledges its whole log to
itself. -/
def appendEvents (s : ℤ) (after : ServerMetadata) : List Event :=
  (after.smrLog.getLast?.map fun op => [.append s op, .accept s op.term after.logSize]).getD []

def requestEvents (s : ℤ) : Wire → List Event
  | .request _ (.log req) => [.sendLogRequest s req]
  | _ => []

/-- What is observed of a handled request: a vote that is granted, an entry that is
accepted. -/
def serveEvents (p : ℤ) (log : List MapOp) : Rpc → Reply → List Event
  | .vote msg, .vote res =>
      if res.voted ≠ 0 then [.vote p res.currentTerm msg.id log] else []
  | .log req, .log res =>
      if res.success ≠ 0 ∧ req.opTerm ≠ -1 then [.accept p res.currentTerm res.ack] else []
  | _, _ => []

/-- The entries by which `CommitLog` moved the commit length. -/
def commitEvents (s : ℤ) (before after : ServerMetadata) : List Event :=
  (List.range (after.commitLength - before.commitLength).toNat).filterMap fun k =>
    (after.smrLog[before.commitLength.toNat + k]?).map fun op =>
      .commit s after.currentTerm (before.commitLength.toNat + k) op

/-! ## The configuration -/

/-- The members of a cluster, and for each the command line it was started with: all the other
members, in some order and at some addresses. -/
structure Config where
  ids : Finset ℤ
  peers : ℤ → List ServerNode
  peers_nodup : ∀ s ∈ ids, ((peers s).map ServerNode.id).Nodup
  mem_peers : ∀ s ∈ ids, ∀ x, x ∈ (peers s).map ServerNode.id ↔ x ∈ ids ∧ x ≠ s

/-- The state of the cluster.  `link s p` says that the socket `s` holds for `p` is open, `cut p`
that some connection into `p` has failed. -/
structure Cluster where
  server : ℤ → LaptopFactory
  link : ℤ → ℤ → Bool
  pending : List (ℤ × Rpc)
  cut : ℤ → Bool

namespace Cluster

variable (c : Cluster)

def setServer (s : ℤ) (f : LaptopFactory) : Cluster :=
  { c with server := Function.update c.server s f }

def setWire (s : ℤ) (w : Wire) : Cluster := c.setServer s { c.server s with wire := w }

/-- The connection of `s` to the peer it is calling fails.  A request that is on its way may
still be handled. -/
def dropLink (s : ℤ) : Cluster :=
  match (c.server s).callee with
  | some node =>
      { c with
        link := Function.update c.link s (Function.update (c.link s) node.id false)
        pending := c.pending ++ (c.server s).wire.abandoned
        cut := Function.update c.cut node.id true }
  | none => c

/-- The sockets `TryReconnect` opened. -/
def openLinks (s : ℤ) (accepts : List Bool) : Cluster :=
  { c with
    link := Function.update c.link s fun p => c.link s p ||
      ((c.server s).metadata.failedNeighbors.zip accepts).any fun q => q.2 && q.1.id == p }

/-- The connection over which `s` makes its next call is open. -/
def linkUp (s : ℤ) : Bool :=
  match (c.server s).callee with
  | some node => c.link s node.id
  | none => false

end Cluster

/-! ## Steps -/

/-- A step: a thread of a server and what the environment supplies to it. -/
inductive Label
  /-- `TimeoutThread` reads the status. -/
  | readStatus (s : ℤ)
  /-- `TimeoutThread`, case `FOLLOWER`. -/
  | testHeartbeat (s : ℤ)
  /-- `TimeoutThread`, case `CANDIDATE`: enter `RequestVote`. -/
  | requestVote (s : ℤ)
  | sendRequestVote (s : ℤ)
  | recvVoteResponse (s : ℤ)
  | voteLinkFails (s : ℤ) (res : RequestVoteResponse)
  | endRequestVote (s : ℤ)
  /-- A client connection queues an update. -/
  | createLaptop (s : ℤ) (stub : ℕ) (request : CustomerRequest)
  /-- `LeaderThread` `i` takes an update from the queue and resolves its future. -/
  | dequeue (s : ℤ) (i : Fin 4)
  | shipLaptop (s : ℤ) (stub : ℕ)
  /-- `LeaderThread` `i` takes the lock and enters `LeaderMaintainLog`. -/
  | leaderMaintainLog (s : ℤ) (i : Fin 4) (accepts : List Bool)
  /-- `TimeoutThread`, case `LEADER`: enter `ReplicateLog`. -/
  | replicateLog (s : ℤ) (accepts : List Bool)
  | sendLogRequest (s : ℤ)
  | recvLogResponse (s : ℤ)
  | logLinkFails (s : ℤ)
  /-- The end of a round of `ReplicateLog`'s outer loop. -/
  | endRound (s : ℤ)
  /-- The request `s` waits for is handled by its addressee. -/
  | handle (s : ℤ)
  /-- A request whose caller has given up is handled. -/
  | handlePending (k : ℕ)
  /-- A handler of `s` whose connection failed decodes a vote request from stale buffers. -/
  | handleGarbage (s : ℤ) (msg : RequestVoteMessage)
deriving DecidableEq

namespace Cluster

variable (c : Cluster)

/-- A thread of `s` moves its server to `f`. -/
def move (s : ℤ) (f : Option LaptopFactory) (events : LaptopFactory → List Event) :
    Option (Cluster × List Event) :=
  f.map fun f => (c.setServer s f, events f)

/-- `p` handles a request; the answer goes to `answer`. -/
def serveAt (p : ℤ) (rpc : Rpc) (answer : Cluster → Reply → Cluster) :
    Option (Cluster × List Event) :=
  ((c.server p).serve rpc).map fun r =>
    (answer (c.setServer p r.1) r.2, serveEvents p (c.server p).metadata.smrLog rpc r.2)

def handle (s : ℤ) : Option (Cluster × List Event) :=
  match (c.server s).wire with
  | .request node rpc => c.serveAt node.id rpc fun c reply => c.setWire s (.response reply)
  | _ => none

def handlePending (k : ℕ) : Option (Cluster × List Event) :=
  match c.pending[k]? with
  | some (p, rpc) => c.serveAt p rpc fun c _ => { c with pending := c.pending.eraseIdx k }
  | none => none

def handleGarbage (s : ℤ) (msg : RequestVoteMessage) : Option (Cluster × List Event) :=
  if c.cut s then c.serveAt s (.vote msg) fun c _ => c else none

/-- The effect of a label. -/
def act : Label → Option (Cluster × List Event)
  | .readStatus s => c.move s (c.server s).readStatus fun _ => []
  | .testHeartbeat s => c.move s (c.server s).testHeartbeat fun _ => []
  | .requestVote s => c.move s (c.server s).requestVote fun f => standEvents s f.metadata
  | .sendRequestVote s =>
      if c.linkUp s then c.move s (c.server s).sendRequestVote fun _ => [] else none
  | .recvVoteResponse s =>
      match (c.server s).wire with
      | .response (.vote res) => c.move s (c.server s).recvVoteResponse fun _ =>
          electionEvents s (c.server s).metadata res
      | _ => none
  | .voteLinkFails s res =>
      (c.dropLink s).move s ((c.server s).voteLinkFails res) fun _ =>
        electionEvents s (c.server s).metadata res
  | .endRequestVote s => c.move s (c.server s).endRequestVote fun _ => []
  | .createLaptop s stub request =>
      c.move s ((c.server s).createLaptop stub request) fun _ => []
  | .dequeue s i => c.move s ((c.server s).dequeue i) fun _ => []
  | .shipLaptop s stub => ((c.server s).shipLaptop stub).map fun p =>
      (c.setServer s p.1, [.ship s p.2])
  | .leaderMaintainLog s i accepts =>
      (c.openLinks s accepts).move s ((c.server s).leaderMaintainLog i accepts) fun f =>
        appendEvents s f.metadata
  | .replicateLog s accepts =>
      (c.openLinks s accepts).move s ((c.server s).replicateLog accepts) fun _ => []
  | .sendLogRequest s =>
      if c.linkUp s then
        c.move s (c.server s).sendLogRequest fun f => requestEvents s f.wire
      else none
  | .recvLogResponse s => c.move s (c.server s).recvLogResponse fun f =>
      commitEvents s (c.server s).metadata f.metadata
  | .logLinkFails s => (c.dropLink s).move s (c.server s).logLinkFails fun _ => []
  | .endRound s => c.move s (c.server s).endRound fun _ => []
  | .handle s => c.handle s
  | .handlePending k => c.handlePending k
  | .handleGarbage s msg => c.handleGarbage s msg

end Cluster

/-- The server whose thread takes the step. -/
def Label.actor : Label → Option ℤ
  | .readStatus s | .testHeartbeat s | .requestVote s | .sendRequestVote s
  | .recvVoteResponse s | .voteLinkFails s _ | .endRequestVote s | .createLaptop s _ _
  | .dequeue s _ | .shipLaptop s _ | .leaderMaintainLog s _ _ | .replicateLog s _
  | .sendLogRequest s | .recvLogResponse s | .logLinkFails s | .endRound s | .handle s
  | .handleGarbage s _ => some s
  | .handlePending _ => none

/-- The metadata `main` builds before it starts the threads. -/
def bootMetadata (cfg : Config) (connects : ℤ → ServerNode → Bool) (s : ℤ) : ServerMetadata :=
  let md : ServerMetadata := { factoryId := s }
  ((cfg.peers s).zipIdx.foldl (fun md p => md.addNeighbors p.1 p.2) md).initNeighbors (connects s)

/-- The cluster after start-up; `connects s p` says whether `p` accepted the connection of
`s`. -/
def boot (cfg : Config) (connects : ℤ → ServerNode → Bool) : Cluster where
  server s := { metadata := bootMetadata cfg connects s }
  link s p := (bootMetadata cfg connects s).nodeSocket.any fun node => node.id == p
  pending := []
  cut _ := false

/-- **The system**: only members take steps, from any start-up. -/
def system (cfg : Config) : TransitionSystem Cluster Label Event where
  init c := ∃ connects, c = boot cfg connects
  step c l := if ∀ s ∈ l.actor, s ∈ cfg.ids then c.act l else none

end LaptopRaft
