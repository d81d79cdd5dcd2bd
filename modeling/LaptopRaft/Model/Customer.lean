import LaptopRaft.Framework.Framing
import LaptopRaft.Framework.TransitionSystem
import LaptopRaft.Model.Metadata

/-!
# A customer and the servers it connects to

One client thread (`ClientThreadClass::ThreadBody`) and the `CustomerHandler`s at the other ends of
its connections, of which it opens at most two: the first one, and one to the leader it is
redirected to.  What a server sends is a stream of bytes, from which the client takes as many as
the message it expects has, and decodes them.

The metadata of the servers change at any time (`HandshakeLabel.update`); each `IsLeader` of a
handler is a step of its own, and so is each comparison in the loop of `GetLeader`, which
`GetLeaderIp` and `GetLeaderPort` call.  A connection fails at any time and at any byte
(`HandshakeLabel.fail`), and what is sent over a failed connection is lost.

What the client sends is kept as messages: first comes the identifier, and whatever follows is a
request, on both sides.  The reply to an update is resolved by a `LeaderThread`, which only adds
its id; here the label supplies it.
-/

namespace LaptopRaft

/-! ## Messages -/

/-- The `k`-th `int` in a buffer. -/
def intAt (bytes : List UInt8) (k : ℕ) : ℤ := ofNetwork (bytes.drop (4 * k))

/-- `CustomerRecord`, as constructed. -/
structure CustomerRecord where
  customerId : ℤ := -2
  lastOrder : ℤ := -1
deriving DecidableEq, Repr

/-- `LeaderInfo`, as constructed. -/
structure LeaderInfo where
  ip0 : ℤ := 0
  ip1 : ℤ := 0
  ip2 : ℤ := 0
  ip3 : ℤ := 0
  port : ℤ := 0
deriving DecidableEq, Repr

/-- `LaptopInfo`, as constructed. -/
def LaptopInfo.constructed : LaptopInfo := ⟨-1, -1, -1, -1, -1⟩

def LaptopInfo.marshal (laptop : LaptopInfo) : List UInt8 :=
  toNetwork laptop.customerId ++ toNetwork laptop.orderNumber ++ toNetwork laptop.requestType ++
    toNetwork laptop.engineerId ++ toNetwork laptop.adminId

def LaptopInfo.unmarshal (bytes : List UInt8) : LaptopInfo :=
  ⟨intAt bytes 0, intAt bytes 1, intAt bytes 2, intAt bytes 3, intAt bytes 4⟩

def CustomerRecord.marshal (record : CustomerRecord) : List UInt8 :=
  toNetwork record.customerId ++ toNetwork record.lastOrder

def CustomerRecord.unmarshal (bytes : List UInt8) : CustomerRecord :=
  ⟨intAt bytes 0, intAt bytes 1⟩

namespace LeaderInfo

def marshal (info : LeaderInfo) : List UInt8 :=
  toNetwork info.ip0 ++ toNetwork info.ip1 ++ toNetwork info.ip2 ++ toNetwork info.ip3 ++
    toNetwork info.port

def unmarshal (bytes : List UInt8) : LeaderInfo :=
  ⟨intAt bytes 0, intAt bytes 1, intAt bytes 2, intAt bytes 3, intAt bytes 4⟩

def getIp (info : LeaderInfo) : String :=
  toString info.ip0 ++ "." ++ toString info.ip1 ++ "." ++ toString info.ip2 ++ "." ++
    toString info.ip3

/-- The loop of `ParseIp`: `ips` and `i` are the locals, `curNum` the number being read.  A write
past the end of `ips` is undefined. -/
def parseIpFrom (ips : List ℤ) (i : ℕ) (curNum : ℤ) : List Char → Option (List ℤ)
  | [] => if i < ips.length then some (ips.set i curNum) else none
  | c :: cs =>
      if c = '.' then
        if i < ips.length then parseIpFrom (ips.set i curNum) (i + 1) 0 cs else none
      else parseIpFrom ips i (curNum * 10 + ((c.toNat : ℤ) - 48)) cs

/-- `SetLeaderInfo`.  `ParseIp` does not initialise its array: `ips` is what it holds. -/
def setLeaderInfo (ips : Fin 4 → ℤ) (ip : String) (port : ℤ) : Option LeaderInfo :=
  match parseIpFrom (List.ofFn ips) 0 0 ip.toList with
  | some [ip0, ip1, ip2, ip3] => some ⟨ip0, ip1, ip2, ip3, port⟩
  | _ => none

end LeaderInfo

/-- The types of the messages a customer receives. -/
inductive MessageType
  | isLeader
  | leaderInfo
  | laptopInfo
  | customerRecord
deriving DecidableEq, Repr

/-- `Size()`; `RecvIsLeader` has the literal. -/
def MessageType.size : MessageType → ℕ
  | .isLeader => 4
  | .leaderInfo => 20
  | .laptopInfo => 20
  | .customerRecord => 8

/-- What a server sends to a customer. -/
inductive ServerMessage
  | isLeader (identifier : ℤ)
  | leaderInfo (info : LeaderInfo)
  | laptopInfo (laptop : LaptopInfo)
  | customerRecord (record : CustomerRecord)
deriving DecidableEq, Repr

namespace ServerMessage

def type : ServerMessage → MessageType
  | isLeader _ => .isLeader
  | leaderInfo _ => .leaderInfo
  | laptopInfo _ => .laptopInfo
  | customerRecord _ => .customerRecord

def marshal : ServerMessage → List UInt8
  | isLeader identifier => toNetwork identifier
  | leaderInfo info => info.marshal
  | laptopInfo laptop => laptop.marshal
  | customerRecord record => record.marshal

end ServerMessage

/-- What a customer sends to a server. -/
inductive CustomerMessage
  | identifier (identifier : ℤ)
  | request (request : CustomerRequest)
deriving DecidableEq, Repr

/-! ## `ThreadBody` -/

def customerIdentifier : ℤ := 2

def updateRequest : ℤ := 1
def readRequest : ℤ := 2
def debugRequest : ℤ := 3

/-- What the client takes a server for that sends `1`. -/
def followerFlag : ℤ := 1

/-- The first connection, and the one to the announced leader. -/
inductive Leg
  | first
  | redirected
deriving DecidableEq, Repr

/-- The arguments of `ThreadBody`. -/
structure ThreadArgs where
  ip : String
  port : ℤ
  customerId : ℤ
  numRequests : ℤ
  requestType : ℤ
deriving DecidableEq, Repr

/-- Where `ThreadBody` is: about to call `Init`, `SendIdentifier`, `RecvIsLeader`,
`RecvLeaderInfo`, at the head of the loop, or past the `Send` of `Order` or `ReadRecord`. -/
inductive ThreadPc
  | init (leg : Leg) (ip : String) (port : ℤ)
  | sendIdentifier
  | recvIsLeader
  | recvLeaderInfo
  | loop (i isLeader : ℤ)
  | order (i isLeader : ℤ)
  | readRecord (i isLeader : ℤ)
  | returned
deriving DecidableEq, Repr

/-- The message the thread waits for. -/
def ThreadPc.expects : ThreadPc → Option MessageType
  | recvIsLeader => some .isLeader
  | recvLeaderInfo => some .leaderInfo
  | order _ _ => some .laptopInfo
  | readRecord _ _ => some .customerRecord
  | _ => none

namespace ThreadArgs

variable (a : ThreadArgs)

/-- The request of iteration `i`, and where the thread waits for the reply. -/
def requestOf (i isLeader : ℤ) : Option (CustomerRequest × ThreadPc) :=
  if a.requestType = updateRequest then
    some (⟨a.customerId, i, updateRequest⟩, .order i isLeader)
  else if a.requestType = readRequest ∨ a.requestType = debugRequest then
    some (⟨i, -1, readRequest⟩, .readRecord i isLeader)
  else none

/-- `ThreadBody` after a `Recv` on a connection, up to the next operation on a socket.  A `Recv`
that failed leaves the object as it was constructed. -/
def afterRecv (leg : Leg) (pc : ThreadPc) (bytes : Option (List UInt8)) : ThreadPc :=
  match pc with
  | .recvIsLeader =>
      let isLeader := (bytes.map ofNetwork).getD 0
      if leg = .first ∧ isLeader = followerFlag then .recvLeaderInfo else .loop 0 isLeader
  | .recvLeaderInfo =>
      let info := (bytes.map LeaderInfo.unmarshal).getD {}
      if a.requestType = updateRequest then .init .redirected info.getIp info.port
      else .loop 0 followerFlag
  | .order i isLeader =>
      let laptop := (bytes.map LaptopInfo.unmarshal).getD .constructed
      if laptop.customerId = -1 then .returned else .loop (i + 1) isLeader
  | .readRecord i isLeader =>
      let record := (bytes.map CustomerRecord.unmarshal).getD {}
      if record.customerId = -2 then .returned else .loop (i + 1) isLeader
  | pc => pc

end ThreadArgs

/-- The client thread.  `leg` is the connection its socket was last initialised with, and
`isOpen` says that the socket has not been closed since. -/
structure ClientThread where
  pc : ThreadPc
  leg : Leg := .first
  isOpen : Bool := false
deriving DecidableEq, Repr

/-! ## `CustomerHandler` -/

/-- Where the thread of a connection is: in `IdentifySender`, about to call `IsLeader` for the
first or the second time, in `GetLeaderIp` or `GetLeaderPort`, with the neighbors that the loop of
`GetLeader` has still to compare, about to call `SendLeaderInfo`, in `ReceiveRequest`, at work on a
request, or outside of `CustomerHandler` for good. -/
inductive HandlerPc
  | identifySender
  | sendIsLeader
  | testLeader
  | getLeaderIp (nodes : List ServerNode)
  | getLeaderPort (ip : String) (nodes : List ServerNode)
  | sendLeaderInfo (ip : String) (port : ℤ)
  | receiveRequest
  | serve (request : CustomerRequest)
  | returned
deriving DecidableEq, Repr

/-- A connection, seen from the server: the messages on their way to it, the bytes on their way to
the customer, and the handler.  The handler does not keep the flag it sent; here it is kept. -/
structure Connection where
  server : ℤ
  inbox : List CustomerMessage := []
  stream : List (Octet ServerMessage) := []
  failed : Bool := false
  pc : HandlerPc := .returned
  flag : Option ℤ := none

/-- A round of the loop of `GetLeader`, which reads `leader_id` anew for each neighbor: the node it
returns, or the neighbors that are left.  After the last one it returns `nullptr`. -/
def ServerMetadata.getLeader (md : ServerMetadata) :
    List ServerNode → Option (ServerNode ⊕ List ServerNode)
  | node :: nodes => some (if node.id = md.leaderId then .inl node else .inr nodes)
  | [] => none

namespace Connection

variable (conn : Connection)

def send (m : ServerMessage) : Connection :=
  if conn.failed then conn
  else { conn with stream := conn.stream ++ octets ServerMessage.marshal m }

/-- The customer sends a message. -/
def deliver (m : CustomerMessage) : Connection :=
  if conn.failed then conn else { conn with inbox := conn.inbox ++ [m] }

/-- `EngineerThread`: only a customer gets to `CustomerHandler`. -/
def identifySender : Option Connection :=
  match conn.pc, conn.inbox with
  | .identifySender, .identifier n :: inbox =>
      some
        { conn with
          inbox := inbox
          pc := if n = customerIdentifier then .sendIsLeader else .returned }
  | _, _ => none

def sendIsLeader (md : ServerMetadata) : Option Connection :=
  if conn.pc = .sendIsLeader then
    some
      { conn.send (.isLeader (md.isLeader + 1)) with
        pc := .testLeader
        flag := some (md.isLeader + 1) }
  else none

/-- `if (!metadata->IsLeader())`. -/
def testLeader (md : ServerMetadata) : Option Connection :=
  if conn.pc = .testLeader then
    some { conn with pc := if md.isLeader = 0 then .getLeaderIp md.neighbors else .receiveRequest }
  else none

/-- `GetLeaderIp`, a round of `GetLeader` at a time.  To dereference `nullptr` is undefined. -/
def getLeaderIp (md : ServerMetadata) : Option Connection :=
  match conn.pc with
  | .getLeaderIp nodes => (md.getLeader nodes).map fun
      | .inl leader => { conn with pc := .getLeaderPort leader.ip md.neighbors }
      | .inr nodes => { conn with pc := .getLeaderIp nodes }
  | _ => none

/-- `GetLeaderPort`, a round of `GetLeader` at a time. -/
def getLeaderPort (md : ServerMetadata) : Option Connection :=
  match conn.pc with
  | .getLeaderPort ip nodes => (md.getLeader nodes).map fun
      | .inl leader => { conn with pc := .sendLeaderInfo ip leader.port }
      | .inr nodes => { conn with pc := .getLeaderPort ip nodes }
  | _ => none

def sendLeaderInfo (ips : Fin 4 → ℤ) : Option Connection :=
  match conn.pc with
  | .sendLeaderInfo ip port =>
      (LeaderInfo.setLeaderInfo ips ip port).map fun info =>
        { conn.send (.leaderInfo info) with pc := .receiveRequest }
  | _ => none

/-- `ReceiveRequest` and the `switch`: an invalid request ends the handler, an undefined one is
passed over. -/
def receiveRequest : Option Connection :=
  match conn.pc, conn.inbox with
  | .receiveRequest, .request request :: inbox =>
      some
        { conn with
          inbox := inbox
          pc :=
            if request.customerId = -1 then .returned
            else if request.requestType = updateRequest ∨ request.requestType = readRequest then
              .serve request
            else .receiveRequest }
  | _, _ => none

/-- The reply to a request: the laptop that a `LeaderThread` has put its id on, or the record. -/
def replyTo (md : ServerMetadata) (request : CustomerRequest) (engineerId adminId : ℤ) :
    ServerMessage :=
  if request.requestType = updateRequest then
    .laptopInfo { LaptopInfo.ofRequest request engineerId with adminId := adminId }
  else .customerRecord ⟨request.customerId, md.getValue request.customerId⟩

/-- `ShipLaptop` or `ReturnRecord`. -/
def serve (md : ServerMetadata) (engineerId adminId : ℤ) : Option Connection :=
  match conn.pc with
  | .serve request =>
      some
        { conn.send (replyTo md request engineerId adminId) with pc := .receiveRequest }
  | _ => none

/-- A `Recv` of the handler fails. -/
def hangUp : Option Connection :=
  if conn.pc = .identifySender ∨ conn.pc = .receiveRequest then
    some { conn with pc := .returned }
  else none

/-- The connection fails; the first `n` bytes on their way to the customer still get there. -/
def fail (n : ℕ) : Connection :=
  { conn with stream := conn.stream.take n, failed := true }

end Connection

/-! ## The two together -/

/-- The state of a client thread and its surroundings. -/
structure Handshake where
  thread : ClientThread
  metadata : ℤ → ServerMetadata
  connection : Leg → Connection

/-- A block of bytes the client has unmarshalled, and the type as which it has. -/
structure Decoded where
  type : MessageType
  block : List (Octet ServerMessage)
deriving DecidableEq

inductive HandshakeLabel
  /-- The metadata of a server change. -/
  | update (s : ℤ) (md : ServerMetadata)
  /-- A connection fails. -/
  | fail (leg : Leg) (n : ℕ)
  /-- `Init` returns. -/
  | init (connects : Bool)
  /-- The next `Send` or `Recv` of the thread returns. -/
  | thread (succeeds : Bool)
  | identifySender (leg : Leg)
  | sendIsLeader (leg : Leg)
  | testLeader (leg : Leg)
  | getLeaderIp (leg : Leg)
  | getLeaderPort (leg : Leg)
  | sendLeaderInfo (leg : Leg) (ips : Fin 4 → ℤ)
  | receiveRequest (leg : Leg)
  | serve (leg : Leg) (engineerId adminId : ℤ)
  | hangUp (leg : Leg)

/-- Who listens at an address. -/
abbrev Network := String → ℤ → Option ℤ

namespace Handshake

variable (net : Network) (a : ThreadArgs) (w : Handshake)

def setConnection (leg : Leg) (conn : Connection) : Handshake :=
  { w with connection := Function.update w.connection leg conn }

/-- The connection the thread's socket was last initialised with. -/
def current : Connection := w.connection w.thread.leg

/-- An operation on the socket may fail. -/
def mayFail : Prop := w.thread.isOpen = false ∨ w.current.failed = true

instance : Decidable w.mayFail := by
  unfold mayFail
  infer_instance

/-- The thread goes on, after an operation that succeeded. -/
def goOn (pc : ThreadPc) : Handshake := { w with thread := { w.thread with pc := pc } }

/-- The thread goes on, after an operation that failed and closed the socket. -/
def close (pc : ThreadPc) : Handshake :=
  { w with thread := { w.thread with pc := pc, isOpen := false } }

/-- `Init`: a new socket in place of the old one. -/
def init (connects : Bool) : Option Handshake :=
  match w.thread.pc with
  | .init leg ip port =>
      if connects then
        (net ip port).map fun s =>
          { w.setConnection leg { server := s, pc := .identifySender } with
            thread := ⟨.sendIdentifier, leg, true⟩ }
      else some (w.close .returned)
  | _ => none

/-- A `Send` of the thread. -/
def threadSend (m : CustomerMessage) (succeeds : Bool) (sent failed : ThreadPc) :
    Option Handshake :=
  if succeeds then
    if w.thread.isOpen then
      some ((w.setConnection w.thread.leg (w.current.deliver m)).goOn sent)
    else none
  else if w.mayFail then some (w.close failed) else none

/-- A `Recv` of the thread. -/
def threadRecv (type : MessageType) (succeeds : Bool) : Option (Handshake × List Decoded) :=
  let after := a.afterRecv w.thread.leg w.thread.pc
  if succeeds then
    if w.thread.isOpen ∧ type.size ≤ w.current.stream.length then
      let block := w.current.stream.take type.size
      let conn := { w.current with stream := w.current.stream.drop type.size }
      some ((w.setConnection w.thread.leg conn).goOn
        (after (some (block.map (Octet.value ServerMessage.marshal)))), [⟨type, block⟩])
    else none
  else if w.mayFail then some (w.close (after none), []) else none

/-- `ThreadBody`, up to and including the next operation on the socket.  A failed `Send` leaves
the reply as it was constructed. -/
def threadBody (succeeds : Bool) : Option (Handshake × List Decoded) :=
  match w.thread.pc with
  | .sendIdentifier =>
      (w.threadSend (.identifier customerIdentifier) succeeds .recvIsLeader .recvIsLeader).map
        fun w => (w, [])
  | .loop i isLeader =>
      if i < a.numRequests ∧ ¬ (a.requestType = updateRequest ∧ isLeader = 0) then
        match a.requestOf i isLeader with
        | some (request, pc) =>
            (w.threadSend (.request request) succeeds pc
              (a.afterRecv w.thread.leg pc none)).map fun w => (w, [])
        | none => some (w.goOn (.loop (i + 1) isLeader), [])
      else some (w.goOn .returned, [])
  | pc => pc.expects.bind fun type => w.threadRecv a type succeeds

/-- A handler moves. -/
def move (leg : Leg) (conn : Option Connection) : Option (Handshake × List Decoded) :=
  conn.map fun conn => (w.setConnection leg conn, [])

/-- The metadata of the server of a connection. -/
def metadataAt (leg : Leg) : ServerMetadata := w.metadata (w.connection leg).server

/-- The effect of a label.  Id and neighbors of a server never change. -/
def act : HandshakeLabel → Option (Handshake × List Decoded)
  | .update s md =>
      if md.factoryId = (w.metadata s).factoryId ∧ md.neighbors = (w.metadata s).neighbors then
        some ({ w with metadata := Function.update w.metadata s md }, [])
      else none
  | .fail leg n => w.move leg ((w.connection leg).fail n)
  | .init connects => (w.init net connects).map fun w => (w, [])
  | .thread succeeds => w.threadBody a succeeds
  | .identifySender leg => w.move leg (w.connection leg).identifySender
  | .sendIsLeader leg => w.move leg ((w.connection leg).sendIsLeader (w.metadataAt leg))
  | .testLeader leg => w.move leg ((w.connection leg).testLeader (w.metadataAt leg))
  | .getLeaderIp leg => w.move leg ((w.connection leg).getLeaderIp (w.metadataAt leg))
  | .getLeaderPort leg => w.move leg ((w.connection leg).getLeaderPort (w.metadataAt leg))
  | .sendLeaderInfo leg ips => w.move leg ((w.connection leg).sendLeaderInfo ips)
  | .receiveRequest leg => w.move leg (w.connection leg).receiveRequest
  | .serve leg engineerId adminId =>
      w.move leg ((w.connection leg).serve (w.metadataAt leg) engineerId adminId)
  | .hangUp leg =>
      if (w.connection leg).failed ∨ ¬ (w.thread.leg = leg ∧ w.thread.isOpen) then
        w.move leg (w.connection leg).hangUp
      else none

end Handshake

/-- A client thread at its start, among servers in any state. -/
def startThread (a : ThreadArgs) (metadata : ℤ → ServerMetadata) : Handshake where
  thread := { pc := .init .first a.ip a.port }
  metadata := metadata
  connection _ := { server := -1 }

/-- **The client thread with its servers.** -/
def handshake (net : Network) (a : ThreadArgs) :
    TransitionSystem Handshake HandshakeLabel Decoded where
  init w := ∃ metadata, w = startThread a metadata
  step w l := w.act net a l

end LaptopRaft
