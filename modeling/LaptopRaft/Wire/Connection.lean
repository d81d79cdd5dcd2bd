import LaptopRaft.Framework.TransitionSystem
import LaptopRaft.Framework.Transfer
import LaptopRaft.Model.Cluster
import LaptopRaft.Properties.Metadata
import LaptopRaft.Wire.Layouts

/-!
# A connection between two servers, byte by byte

`Model/Cluster` takes the exchange of a request for one step.  Here is one connection at the level
of the system calls: the caller at one end sends RPCs with `SendIdentifier`, `SendRequestVote` and
`SendLogRequest`, each of which marshals into a buffer of its own and loops around `send`; at the
other end `ServerHandler` loops around `IdentifyRPC`, and `RecvRequestVote` or `RecvLogRequest`,
each of which loops around `recv` and unmarshals.

* The caller goes on to its next call at any time.  The answers, which it waits for, travel the
  other way and say nothing about what the handler reads.
* A call of `send` or `recv` moves any number of bytes from 1 to the size it was given.
* The caller may die after any number of bytes (`cutAt`).  `recv` then fails once the handler has
  read all of them, and always after that, since a failed `Recv` closes the socket.
* A buffer and an object that has no value yet hold what lies on the stack (`StackFrame`).
* The metadata belong to all threads, so the label says what they are when the handler comes to
  them.  Of them it is known that the log is as long as it says.

In the other direction go the answers.  `voteCall` is the loop of `RequestVote` with the bytes it
gets from its peers, which may be any.
-/

namespace LaptopRaft

/-! ## RPCs as bytes -/

/-- `REQUESTVOTE_RPC`. -/
def requestvoteRpc : ℤ := 0

/-- `APPENDLOG_RPC`. -/
def appendlogRpc : ℤ := 1

/-- One call of the caller: what it sends. -/
inductive SendCall
  | sendIdentifier (identifier : Identifier)
  | sendRequestVote (msg : RequestVoteMessage)
  | sendLogRequest (req : LogRequest)
deriving DecidableEq

namespace SendCall

def size : SendCall → ℕ
  | sendIdentifier _ => Identifier.layout.size
  | sendRequestVote _ => RequestVoteMessage.layout.size
  | sendLogRequest _ => LogRequest.layout.size

def bytes : SendCall → List UInt8
  | sendIdentifier identifier => Identifier.layout.bytes identifier
  | sendRequestVote msg => RequestVoteMessage.layout.bytes msg
  | sendLogRequest req => LogRequest.layout.bytes req

end SendCall

namespace Rpc

def calls : Rpc → List SendCall
  | vote msg => [.sendIdentifier ⟨requestvoteRpc⟩, .sendRequestVote msg]
  | log req => [.sendIdentifier ⟨appendlogRpc⟩, .sendLogRequest req]

def bytes (rpc : Rpc) : List UInt8 := rpc.calls.flatMap SendCall.bytes

/-- The fields are values of `int`s. -/
def Fits : Rpc → Prop
  | vote msg => RequestVoteMessage.layout.Fits msg
  | log req => LogRequest.layout.Fits req

instance : (rpc : Rpc) → Decidable rpc.Fits
  | vote msg => inferInstanceAs (Decidable (RequestVoteMessage.layout.Fits msg))
  | log req => inferInstanceAs (Decidable (LogRequest.layout.Fits req))

end Rpc

/-! ## The two ends -/

/-- A buffer on the stack. -/
def stackBuffer (stack : ℕ → UInt8) (size : ℕ) : List UInt8 := (List.range size).map stack

/-- Marshal an object into a buffer on the stack and call `Send`. -/
def startSend {α : Type*} (L : Layout α) (host : ByteOrder) (a : α) (buffer : List UInt8) :
    Option Transfer :=
  (L.marshal host a buffer).map fun buffer => { buffer := buffer, size := L.size }

/-- Up to the loop of `Send`, with the size of each function's buffer. -/
def SendCall.start (host : ByteOrder) (stack : ℕ → UInt8) : SendCall → Option Transfer
  | sendIdentifier identifier =>
      startSend Identifier.layout host identifier (stackBuffer stack 4)
  | sendRequestVote msg => startSend RequestVoteMessage.layout host msg (stackBuffer stack 32)
  | sendLogRequest req => startSend LogRequest.layout host req (stackBuffer stack 64)

/-- Where `ServerHandler` is: in one of the functions that receive, with the object that it is to
fill. -/
inductive RecvCall
  | identifyRPC
  | recvRequestVote (msg : RequestVoteMessage)
  | recvLogRequest (req : LogRequest)
deriving DecidableEq

/-- Up to the loop of `Recv`. -/
def RecvCall.start (stack : ℕ → UInt8) : RecvCall → Transfer
  | identifyRPC => { buffer := stackBuffer stack 4, size := Identifier.layout.size }
  | recvRequestVote _ =>
      { buffer := stackBuffer stack 32, size := RequestVoteMessage.layout.size }
  | recvLogRequest _ => { buffer := stackBuffer stack 64, size := LogRequest.layout.size }

/-- What the handler finds on the stack, and the metadata. -/
structure StackFrame where
  stack : ℕ → UInt8
  msg : RequestVoteMessage
  req : LogRequest
  metadata : ServerMetadata
  sized : metadata.Sized

instance : Inhabited StackFrame :=
  ⟨⟨fun _ => 0, ⟨0, 0, 0, 0⟩, ⟨0, 0, 0, 0, 0, 0, 0, 0⟩, {}, ⟨rfl, le_rfl, le_rfl⟩⟩⟩

/-- The `switch` of `ServerHandler`: the next function that receives.  Of a new message no field
has a value, of a new log request the leader id is `-1`. -/
def RecvCall.next (frame : StackFrame) (rpc : ℤ) : RecvCall :=
  if rpc = requestvoteRpc then .recvRequestVote frame.msg
  else if rpc = appendlogRpc then .recvLogRequest { frame.req with leaderId := -1 }
  else .identifyRPC

/-- `CandidateVoteHandler` and `AppendLogHandler` past the receiving. -/
def ServerMetadata.handleRpc (md : ServerMetadata) : Rpc → Option ServerMetadata
  | .vote msg => (md.getVoteResponse msg).map Prod.fst
  | .log req => if req.isValid then (md.getLogResponse req).map Prod.fst else some md

/-- What the handler takes for a request, whether `Recv` got all of it, and the metadata it
finds. -/
structure HandlerCall where
  request : Rpc
  complete : Bool
  before : ServerMetadata

/-- The metadata that the handler leaves. -/
def HandlerCall.after (e : HandlerCall) : Option ServerMetadata := e.before.handleRpc e.request

/-- The state of the connection.  `written` and `consumed` are all the bytes that have gone in and
come out, `failed` that the `Recv` the handler is in has returned `0`. -/
structure RpcConnection where
  pending : List SendCall
  sending : Option Transfer := none
  written : List UInt8 := []
  stream : List UInt8 := []
  consumed : List UInt8 := []
  call : RecvCall := .identifyRPC
  receiving : Transfer
  failed : Bool := false
  closed : Bool := false

/-- The RPCs of the caller, the byte at which it dies, and the byte orders of the two hosts. -/
structure RpcConfig where
  rpcs : List Rpc
  cutAt : Option ℕ := none
  caller : ByteOrder := .little
  handler : ByteOrder := .little

inductive RpcLabel
  /-- The caller enters its next call. -/
  | marshal (stack : ℕ → UInt8)
  | send (k : ℕ)
  | sendReturns
  | recv (k : ℕ)
  | recvFails
  /-- The function that receives returns, and the handler goes on to the next one. -/
  | recvReturns (frame : StackFrame)

namespace RpcConnection

variable (cfg : RpcConfig) (c : RpcConnection)

/-- The caller lives on past its first `n` bytes. -/
def alive (n : ℕ) : Prop := ∀ k ∈ cfg.cutAt, n ≤ k

instance (n : ℕ) : Decidable (alive cfg n) := by
  unfold alive
  infer_instance

def marshal (stack : ℕ → UInt8) : Option RpcConnection :=
  match c.sending, c.pending with
  | none, call :: pending =>
      (call.start cfg.caller stack).map fun t => { c with pending := pending, sending := some t }
  | _, _ => none

def send (k : ℕ) : Option RpcConnection :=
  match c.sending with
  | some t =>
      if 0 < k ∧ k ≤ t.size ∧ alive cfg (c.written.length + k) then
        (t.send k).map fun p =>
          { c with
            sending := some p.1
            written := c.written ++ p.2
            stream := c.stream ++ p.2 }
      else none
  | none => none

def sendReturns : Option RpcConnection :=
  match c.sending with
  | some t => if t.size = 0 then some { c with sending := none } else none
  | none => none

def recv (k : ℕ) : Option RpcConnection :=
  if 0 < k ∧ k ≤ c.receiving.size ∧ k ≤ c.stream.length ∧ c.closed = false then
    (c.receiving.recv (c.stream.take k)).map fun t =>
      { c with
        receiving := t
        stream := c.stream.drop k
        consumed := c.consumed ++ c.stream.take k }
  else none

/-- `recv` fails, and with it `Recv`. -/
def recvFails : Option RpcConnection :=
  if 0 < c.receiving.size ∧ c.failed = false ∧
      (c.closed = true ∨ (c.stream = [] ∧ ¬ alive cfg (c.written.length + 1))) then
    some { c with failed := true, closed := true }
  else none

/-- The handler enters the next function that receives. -/
def enter (call : RecvCall) (stack : ℕ → UInt8) : RpcConnection :=
  { c with call := call, receiving := call.start stack, failed := false }

/-- The object that a failed `Recv` leaves as it is, and else the buffer is unmarshalled into. -/
def filled {α : Type*} (L : Layout α) (a : α) : Option α :=
  if c.failed then some a else L.unmarshal cfg.handler c.receiving.buffer

/-- The handler at a request: handle it and go back to the head of the loop. -/
def handled (frame : StackFrame) (request : Rpc) : RpcConnection × List HandlerCall :=
  (c.enter .identifyRPC frame.stack, [⟨request, !c.failed, frame.metadata⟩])

/-- Only `IdentifyRPC` unmarshals the buffer even after a failed `Recv`. -/
def recvReturns (frame : StackFrame) : Option (RpcConnection × List HandlerCall) :=
  if c.receiving.size = 0 ∨ c.failed = true then
    match c.call with
    | .identifyRPC =>
        (Identifier.layout.unmarshal cfg.handler c.receiving.buffer).map fun identifier =>
          (c.enter (RecvCall.next frame identifier.identifier) frame.stack, [])
    | .recvRequestVote msg =>
        (c.filled cfg RequestVoteMessage.layout msg).map fun msg => c.handled frame (.vote msg)
    | .recvLogRequest req =>
        (c.filled cfg LogRequest.layout req).map fun req => c.handled frame (.log req)
  else none

def act : RpcLabel → Option (RpcConnection × List HandlerCall)
  | .marshal stack => (c.marshal cfg stack).map fun c => (c, [])
  | .send k => (c.send cfg k).map fun c => (c, [])
  | .sendReturns => c.sendReturns.map fun c => (c, [])
  | .recv k => (c.recv k).map fun c => (c, [])
  | .recvFails => (c.recvFails cfg).map fun c => (c, [])
  | .recvReturns frame => c.recvReturns cfg frame

end RpcConnection

/-- The connection before the first RPC, with the handler in `IdentifyRPC`. -/
def openConnection (cfg : RpcConfig) (stack : ℕ → UInt8) : RpcConnection where
  pending := cfg.rpcs.flatMap Rpc.calls
  receiving := RecvCall.identifyRPC.start stack

/-- **The connection.** -/
def rpcConnection (cfg : RpcConfig) : TransitionSystem RpcConnection RpcLabel HandlerCall where
  init c := ∃ stack, c = openConnection cfg stack
  step c l := c.act cfg l

/-! ## The answers to `RequestVote` -/

/-- `RequestVote` in its loop: the peers to visit, and the `Recv` of `RecvVoteResponse`. -/
structure VoteCall where
  metadata : ServerMetadata
  rest : List ServerNode
  receiving : Option Transfer := none
  failed : Bool := false

inductive VoteLabel
  | recvVoteResponse (stack : ℕ → UInt8)
  | recv (bytes : List UInt8)
  | recvFails
  | returns

/-- The bytes that arrived of a response, what the caller takes for it, and the metadata. -/
structure ResponseCall where
  arrived : List UInt8
  response : RequestVoteResponse
  before : ServerMetadata

/-- The metadata that the loop leaves, and how it goes on. -/
def ResponseCall.after (e : ResponseCall) : ServerMetadata × ServerMetadata.VoteOutcome :=
  e.before.recvVoteResponse e.response

namespace VoteCall

variable (host : ByteOrder) (v : VoteCall)

/-- At the next peer, past `SendIdentifier` and `SendRequestVote`, whose results are ignored: up
to the loop of `Recv`. -/
def recvVoteResponse (stack : ℕ → UInt8) : Option VoteCall :=
  match v.rest, v.receiving with
  | _ :: _, none =>
      some
        { v with
          receiving := some
            { buffer := stackBuffer stack 32, size := RequestVoteResponse.layout.size }
          failed := false }
  | _, _ => none

def recv (bytes : List UInt8) : Option VoteCall :=
  match v.receiving with
  | some t =>
      if 0 < bytes.length ∧ bytes.length ≤ t.size ∧ v.failed = false then
        (t.recv bytes).map fun t => { v with receiving := some t }
      else none
  | none => none

/-- The peer dies, after however many bytes. -/
def recvFails : Option VoteCall :=
  match v.receiving with
  | some t => if 0 < t.size ∧ v.failed = false then some { v with failed := true } else none
  | none => none

/-- `RecvVoteResponse` unmarshals the buffer in any case, and `RequestVote` goes on with that. -/
def returns : Option (VoteCall × List ResponseCall) :=
  match v.rest, v.receiving with
  | _ :: rest, some t =>
      if t.size = 0 ∨ v.failed = true then
        (RequestVoteResponse.layout.unmarshal host t.buffer).map fun res =>
          let p := v.metadata.recvVoteResponse res
          ({ metadata := p.1, rest := if p.2 = .next then rest else [] },
            [⟨t.received, res, v.metadata⟩])
      else none
  | _, _ => none

def act : VoteLabel → Option (VoteCall × List ResponseCall)
  | .recvVoteResponse stack => (v.recvVoteResponse stack).map fun v => (v, [])
  | .recv bytes => (v.recv bytes).map fun v => (v, [])
  | .recvFails => v.recvFails.map fun v => (v, [])
  | .returns => v.returns host

end VoteCall

/-- **A call of `RequestVote`**, which holds the lock throughout. -/
def voteCall (host : ByteOrder) : TransitionSystem VoteCall VoteLabel ResponseCall where
  init v := ∃ md : ServerMetadata, v = { metadata := md.requestVote, rest := md.nodeSocket }
  step v l := v.act host l

end LaptopRaft
