import LaptopRaft.Model.Messages
import Mathlib.Data.Finset.Card
import Mathlib.Data.Finset.Insert
import Mathlib.Data.List.Sort
import Mathlib.Logic.Function.Basic

/-!
# `ServerMetadata`: the state of one server and its operations

A transcription of `ServerMetadata.cpp`.  Every function is the source function of the same
name on an explicit state; the two that talk to other servers in a loop (`RequestVote` and
`ReplicateLog`) are cut at their network calls, into the message each round builds and the
reaction to the answer it receives.  `Model/Cluster.lean` drives the loops.

Undefined behaviour is `none`: reading `smr_log` outside its bounds, popping an empty vector,
and using `sent_length` / `ack_length` before `InitLeader` has allocated them (the constructor
leaves both pointers unset) or outside the allocated block.
-/

namespace LaptopRaft

/-- `FOLLOWER`, `LEADER`, `CANDIDATE`. -/
inductive Status
  | follower
  | leader
  | candidate
deriving DecidableEq, Repr

/-- The fields of `class ServerMetadata` the protocol uses.  `sentLength` and `ackLength` are
`none` until `InitLeader` allocates them; `nodeSocket` is the key set of the map
`node_socket` in iteration order. -/
structure ServerMetadata where
  leaderId : ℤ := -1
  factoryId : ℤ := -1
  currentTerm : ℤ := 0
  status : Status := .follower
  commitLength : ℤ := 0
  logSize : ℤ := 0
  votedFor : ℤ := -1
  voteReceived : Finset ℤ := ∅
  sentLength : Option (List ℤ) := none
  ackLength : Option (List ℤ) := none
  heartbeat : Bool := false
  customerRecord : ℤ → Option ℤ := fun _ => none
  smrLog : List MapOp := []
  serverIndexMap : ℤ → ℕ := fun _ => 0
  neighbors : List ServerNode := []
  nodeSocket : List ServerNode := []
  failedNeighbors : List ServerNode := []

namespace ServerMetadata

variable (md : ServerMetadata)

/-! ## Getters -/

def getPeerSize : ℕ := md.neighbors.length

/-- `GetOp`: `smr_log[idx]`, undefined outside the vector. -/
def getOp (idx : ℤ) : Option MapOp :=
  if idx < 0 then none else md.smrLog[idx.toNat]?

/-- `GetTermAtIdx`: negative indices are answered with `-1`. -/
def getTermAtIdx (idx : ℤ) : Option ℤ :=
  if idx < 0 then some (-1) else (md.smrLog[idx.toNat]?).map MapOp.term

def getLastTerm : Option ℤ :=
  if md.logSize ≠ 0 then (md.getOp (md.logSize - 1)).map MapOp.term else some 0

def getPrefixTerm (prefixLength : ℤ) : Option ℤ :=
  if 0 < prefixLength then md.getTermAtIdx (prefixLength - 1) else some 0

/-- `GetValue`: the recorded order number of a customer, `-1` when there is none. -/
def getValue (customerId : ℤ) : ℤ := (md.customerRecord customerId).getD (-1)

/-- `IsLeader`: `-1` while no leader is known, otherwise whether the known leader is this
server. -/
def isLeader : ℤ :=
  if md.leaderId ≠ -1 then (if md.leaderId = md.factoryId then 1 else 0) else -1

/-! ## Setters -/

def setHeartbeat (heartbeat : Bool) : ServerMetadata := { md with heartbeat := heartbeat }

def setStatus (status : Status) : ServerMetadata := { md with status := status }

/-! ## Start-up -/

/-- `AddNeighbors`: the `idx`-th peer of the command line. -/
def addNeighbors (node : ServerNode) (idx : ℕ) : ServerMetadata :=
  { md with
    serverIndexMap := Function.update md.serverIndexMap node.id idx
    neighbors := md.neighbors ++ [node] }

/-- `node_socket[node] = socket`: a map keyed by pointer iterates in address order. -/
def insertSocket (sockets : List ServerNode) (node : ServerNode) : List ServerNode :=
  if node ∈ sockets then sockets else sockets.orderedInsert (fun a b => a.addr ≤ b.addr) node

/-- `InitNeighbors`, for the set of peers that accept the connection.  A peer that does not is
recorded nowhere. -/
def initNeighbors (connects : ServerNode → Bool) : ServerMetadata :=
  { md with
    nodeSocket := (md.neighbors.filter connects).foldl insertSocket []
    failedNeighbors := [] }

/-! ## Leadership -/

def wonElection : Bool := md.getPeerSize ≤ md.voteReceived.card * 2

def initLeader : ServerMetadata :=
  { md with
    sentLength := some (List.replicate (md.getPeerSize + 1) md.logSize)
    ackLength := some (List.replicate (md.getPeerSize + 1) 0)
    leaderId := md.factoryId
    status := .leader }

/-- `SetAckLength`: node index `-1` stands for the last slot, the server's own. -/
def setAckLength (nodeIdx size : ℤ) : Option ServerMetadata := do
  let idx := if nodeIdx = -1 then (md.getPeerSize : ℤ) else nodeIdx
  let ack ← md.ackLength
  if 0 ≤ idx ∧ idx < ack.length then
    some { md with ackLength := some (ack.set idx.toNat size) }
  else none

/-! ## The request-vote RPC -/

/-- `RequestVote` up to its loop: vote for itself in the next term. -/
def requestVote : ServerMetadata :=
  { md with
    votedFor := md.factoryId
    voteReceived := insert md.factoryId md.voteReceived
    currentTerm := md.currentTerm + 1 }

/-- `SendRequestVote`: the message sent to every peer. -/
def sendRequestVote : Option RequestVoteMessage :=
  md.getLastTerm.map fun lastTerm => ⟨md.factoryId, md.currentTerm, md.logSize, lastTerm⟩

/-- How the loop of `RequestVote` goes on after a response. -/
inductive VoteOutcome
  | won
  | demoted
  | next
deriving DecidableEq, Repr

/-- The body of `RequestVote`'s loop after `RecvVoteResponse`. -/
def recvVoteResponse (res : RequestVoteResponse) : ServerMetadata × VoteOutcome :=
  if md.currentTerm = res.currentTerm ∧ res.voted ≠ 0 then
    let counted := { md with voteReceived := insert res.id md.voteReceived }
    if counted.wonElection then (counted.initLeader, .won) else (counted, .next)
  else if md.currentTerm < res.currentTerm then
    ({ md with currentTerm := res.currentTerm, status := .follower, votedFor := -1,
               voteReceived := ∅ }, .demoted)
  else (md, .next)

/-- The first `if` of `GetVoteResponse`: a candidate of a higher term. -/
def adoptCandidate (msg : RequestVoteMessage) : ServerMetadata :=
  if md.currentTerm < msg.currentTerm then
    { md with currentTerm := msg.currentTerm, status := .follower, voteReceived := ∅,
              votedFor := msg.id }
  else md

/-- `GetVoteResponse`. -/
def getVoteResponse (msg : RequestVoteMessage) :
    Option (ServerMetadata × RequestVoteResponse) := do
  let lastTerm ← md.getLastTerm
  let md := md.adoptCandidate msg
  let valid := lastTerm < msg.lastTerm ∨ (msg.lastTerm = lastTerm ∧ md.logSize ≤ msg.logSize)
  let res : RequestVoteResponse :=
    if valid ∧ msg.currentTerm = md.currentTerm ∧ md.votedFor = msg.id then
      ⟨md.factoryId, md.currentTerm, 1⟩
    else ⟨md.factoryId, md.currentTerm, 0⟩
  some (md.setHeartbeat true, res)

/-! ## The log -/

def appendLog (opTerm customerId orderNum : ℤ) : ServerMetadata :=
  { md with
    smrLog := md.smrLog ++ [⟨opTerm, customerId, orderNum⟩]
    logSize := md.logSize + 1 }

/-- `ExecuteLog`. -/
def executeLog (idx : ℤ) : Option ServerMetadata :=
  (md.getOp idx).map fun op =>
    { md with
      customerRecord := Function.update md.customerRecord op.arg1 (some op.arg2)
      commitLength := md.commitLength + 1 }

/-- `smr_log.pop_back()`. -/
def popBack : Option ServerMetadata :=
  if md.smrLog = [] then none else some { md with smrLog := md.smrLog.dropLast }

/-- `DropUncommittedLog`: `for (; size < req_prefix_length; size++) smr_log.pop_back()`. -/
def dropUncommittedLog (size reqPrefixLength : ℤ) : Option ServerMetadata :=
  (List.range (reqPrefixLength - size).toNat).foldlM (fun md _ => md.popBack) md

/-- The inner loop of `CommitLog`: how many of the `GetPeerSize() + 1` slots reach `i`. -/
def countAcks (i : ℤ) : Option ℕ := do
  let ack ← md.ackLength
  (List.range (md.getPeerSize + 1)).foldlM
    (fun count j => ack[j]?.map fun a => if i ≤ a then count + 1 else count) 0

/-- The outer loop of `CommitLog`: the last index from `commit_length` to `log_size` that a
majority of the slots reaches, `0` when there is none. -/
def commitUntil : Option ℤ :=
  (List.range (md.logSize + 1 - md.commitLength).toNat).foldlM
    (fun found (k : ℕ) => (md.countAcks (md.commitLength + k)).map fun count =>
      if md.getPeerSize + 1 < count * 2 then md.commitLength + k else found) 0

/-- `CommitLog`. -/
def commitLog : Option ServerMetadata := do
  let found ← md.commitUntil
  if found = 0 then some md
  else
    let start := md.commitLength
    let md ← (List.range (found - start).toNat).foldlM
      (fun md (k : ℕ) => md.executeLog (start + k)) md
    some { md with commitLength := found }

/-! ## The replicate-log RPC, follower side -/

/-- The first `if` of `GetLogResponse`: follow the sender. -/
def adoptLeader (req : LogRequest) : ServerMetadata :=
  if md.currentTerm ≤ req.currentTerm ∨ md.status = .follower then
    { md with currentTerm := req.currentTerm, status := .follower, leaderId := req.leaderId,
              voteReceived := ∅, votedFor := -1, heartbeat := true }
  else md

/-- `included`: the log already has an entry at the request's prefix length. -/
def included (req : LogRequest) : Prop := req.prefixLength < md.logSize

instance (req : LogRequest) : Decidable (md.included req) :=
  inferInstanceAs (Decidable (req.prefixLength < md.logSize))

/-- `can_log`: the log reaches the prefix and its last term there is the announced one. -/
def canLog (req : LogRequest) : Option Bool :=
  if req.prefixLength ≤ md.logSize then
    if req.prefixLength = 0 then some true
    else (md.getTermAtIdx (req.prefixLength - 1)).map fun term => term = req.prefixTerm
  else some false

/-- The body of `if (!included)`: drop, append unless it is a heartbeat, execute one entry. -/
def appendEntry (req : LogRequest) : Option ServerMetadata := do
  let md ← (if md.included req then md.dropUncommittedLog md.logSize req.prefixLength
    else some md)
  let md := if req.opTerm ≠ -1 then md.appendLog req.opTerm req.opArg1 req.opArg2 else md
  if md.commitLength < req.commitLength then md.executeLog md.commitLength else some md

/-- `GetLogResponse`. -/
def getLogResponse (req : LogRequest) : Option (ServerMetadata × LogResponse) := do
  let md := md.adoptLeader req
  let canLog ← md.canLog req
  if md.currentTerm = req.currentTerm ∧ canLog then
    let md ← (if md.included req then some md else md.appendEntry req)
    some (md.setHeartbeat true, ⟨md.factoryId, md.currentTerm, req.prefixLength + 1, 1⟩)
  else
    some (md.setHeartbeat true, ⟨md.factoryId, md.currentTerm, 0, 0⟩)

/-! ## The replicate-log RPC, leader side -/

/-- The slot of a peer in `sent_length` and `ack_length`. -/
def slot (node : ServerNode) : ℕ := md.serverIndexMap node.id

/-- `sent_length[i]` of a peer. -/
def sentTo (node : ServerNode) : Option ℤ := do (← md.sentLength)[md.slot node]?

/-- The request `ReplicateLog` builds for a peer: a heartbeat when everything has been sent,
otherwise the entry at `sent_length[i]`. -/
def logRequestFor (node : ServerNode) : Option LogRequest := do
  let prefixLength ← md.sentTo node
  let prefixTerm ← md.getPrefixTerm prefixLength
  if md.logSize = prefixLength then
    some ⟨md.factoryId, md.currentTerm, prefixLength, prefixTerm, md.commitLength, -1, -1, -1⟩
  else
    (md.getOp prefixLength).map fun op =>
      ⟨md.factoryId, md.currentTerm, prefixLength, prefixTerm, md.commitLength,
        op.term, op.arg1, op.arg2⟩

/-- `CleanNodeState`. -/
def cleanNodeState (idx : ℕ) : Option ServerMetadata := do
  let ack ← md.ackLength
  let sent ← md.sentLength
  if idx < ack.length ∧ idx < sent.length then
    some { md with ackLength := some (ack.set idx 0), sentLength := some (sent.set idx 0) }
  else none

/-- A follower failed: reset its slot and queue it for reconnection. -/
def failNode (node : ServerNode) : Option ServerMetadata :=
  (md.cleanNodeState (md.slot node)).map fun md =>
    { md with failedNeighbors := md.failedNeighbors ++ [node] }

/-- The reaction of `ReplicateLog` to the answer of an entry request.  The second component
says whether the loop goes on; `false` is the early `return 0`. -/
def recvEntryResponse (node : ServerNode) (res : LogResponse) :
    Option (ServerMetadata × Bool) := do
  let i := md.slot node
  if res.currentTerm = md.currentTerm ∧ md.status = .leader then
    let sent ← md.sentLength
    let ack ← md.ackLength
    let sentI ← sent[i]?
    if res.success ≠ 0 then
      if i < ack.length then
        let md := { md with sentLength := some (sent.set i res.ack),
                            ackLength := some (ack.set i res.ack) }
        -- `ack >= ack_length[i]` is tested right after the assignment, so it always holds
        let md ← md.commitLog
        some (md, true)
      else none
    else if 0 < sentI then
      some ({ md with sentLength := some (sent.set i (sentI - 1)) }, true)
    else some (md, true)
  else if md.currentTerm < res.currentTerm then
    some ({ md with currentTerm := res.currentTerm, status := .follower, votedFor := -1,
                    voteReceived := ∅ }, false)
  else some (md, true)

/-- `TryReconnect`, given for each queued peer whether the connection is accepted. -/
def tryReconnect (accepts : List Bool) : ServerMetadata :=
  if md.failedNeighbors = [] then md
  else
    { md with
      nodeSocket := ((md.failedNeighbors.zip accepts).filter (·.2)).foldl
        (fun sockets p => insertSocket sockets p.1) md.nodeSocket
      failedNeighbors := ((md.failedNeighbors.zip accepts).filter (!·.2)).map (·.1) }

end ServerMetadata

end LaptopRaft
