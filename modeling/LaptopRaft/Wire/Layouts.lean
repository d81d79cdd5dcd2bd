import LaptopRaft.Framework.Buffer
import LaptopRaft.Model.Customer

/-!
# The messages on the wire

Each of the ten classes of `Messages.cpp` marshals its members by hand, at offsets it counts up
itself.  Here each is a `Layout`: the members in the order of the copies of `Marshal`, the object
`Unmarshal` stores them in, and the sum that `Size()` returns.  Only `ReplicationRequest`
marshals its members in another order than it declares them.

The customer's side of `Model/Customer` has its own byte strings for the classes it exchanges;
they are those of the layouts.
-/

namespace LaptopRaft

/-- `Identifier`, as constructed. -/
structure Identifier where
  identifier : ℤ := 0
deriving DecidableEq, Repr

/-- `ReplicationRequest`.  Nothing sends one. -/
structure ReplicationRequest where
  lastIdx : ℤ
  committedIdx : ℤ
  leaderId : ℤ
  term : ℤ
  opArg1 : ℤ
  opArg2 : ℤ
deriving DecidableEq, Repr

def CustomerRequest.layout : Layout CustomerRequest where
  count := 3
  size := 4 + 4 + 4
  fields request := [request.customerId, request.orderNumber, request.requestType]
  assign net := ⟨net 0, net 1, net 2⟩

def LaptopInfo.layout : Layout LaptopInfo where
  count := 5
  size := 4 + 4 + 4 + 4 + 4
  fields laptop := [laptop.customerId, laptop.orderNumber, laptop.requestType,
    laptop.engineerId, laptop.adminId]
  assign net := ⟨net 0, net 1, net 2, net 3, net 4⟩

def CustomerRecord.layout : Layout CustomerRecord where
  count := 2
  size := 4 + 4
  fields record := [record.customerId, record.lastOrder]
  assign net := ⟨net 0, net 1⟩

def Identifier.layout : Layout Identifier where
  count := 1
  size := 4
  fields identifier := [identifier.identifier]
  assign net := ⟨net 0⟩

def ReplicationRequest.layout : Layout ReplicationRequest where
  count := 6
  size := 4 + 4 + 4 + 4 + 4 + 4
  fields req := [req.leaderId, req.lastIdx, req.committedIdx, req.term, req.opArg1, req.opArg2]
  assign net := { leaderId := net 0, lastIdx := net 1, committedIdx := net 2, term := net 3,
                  opArg1 := net 4, opArg2 := net 5 }

def LeaderInfo.layout : Layout LeaderInfo where
  count := 5
  size := 4 + 4 + 4 + 4 + 4
  fields info := [info.ip0, info.ip1, info.ip2, info.ip3, info.port]
  assign net := ⟨net 0, net 1, net 2, net 3, net 4⟩

def RequestVoteMessage.layout : Layout RequestVoteMessage where
  count := 4
  size := 4 + 4 + 4 + 4
  fields msg := [msg.id, msg.currentTerm, msg.logSize, msg.lastTerm]
  assign net := ⟨net 0, net 1, net 2, net 3⟩

def RequestVoteResponse.layout : Layout RequestVoteResponse where
  count := 3
  size := 4 + 4 + 4
  fields res := [res.id, res.currentTerm, res.voted]
  assign net := ⟨net 0, net 1, net 2⟩

def LogRequest.layout : Layout LogRequest where
  count := 8
  size := 4 + 4 + 4 + 4 + 4 + 4 + 4 + 4
  fields req := [req.leaderId, req.currentTerm, req.prefixLength, req.prefixTerm,
    req.commitLength, req.opTerm, req.opArg1, req.opArg2]
  assign net := ⟨net 0, net 1, net 2, net 3, net 4, net 5, net 6, net 7⟩

def LogResponse.layout : Layout LogResponse where
  count := 4
  size := 4 + 4 + 4 + 4
  fields res := [res.followerId, res.currentTerm, res.ack, res.success]
  assign net := ⟨net 0, net 1, net 2, net 3⟩

/-- **The round trip on the wire.**  On every host, each of the ten message classes marshals
into exactly the first `Size()` bytes of the buffer, and `Marshal` and `Unmarshal` undo each
other. -/
theorem messages_roundTrip (host : ByteOrder) :
    CustomerRequest.layout.RoundTrips host ∧ LaptopInfo.layout.RoundTrips host ∧
    CustomerRecord.layout.RoundTrips host ∧ Identifier.layout.RoundTrips host ∧
    ReplicationRequest.layout.RoundTrips host ∧ LeaderInfo.layout.RoundTrips host ∧
    RequestVoteMessage.layout.RoundTrips host ∧ RequestVoteResponse.layout.RoundTrips host ∧
    LogRequest.layout.RoundTrips host ∧ LogResponse.layout.RoundTrips host :=
  ⟨CustomerRequest.layout.roundTrips host, LaptopInfo.layout.roundTrips host,
    CustomerRecord.layout.roundTrips host, Identifier.layout.roundTrips host,
    ReplicationRequest.layout.roundTrips host, LeaderInfo.layout.roundTrips host,
    RequestVoteMessage.layout.roundTrips host, RequestVoteResponse.layout.roundTrips host,
    LogRequest.layout.roundTrips host, LogResponse.layout.roundTrips host⟩

example : RequestVoteResponse.layout.marshal .little ⟨258, -1, 1⟩ (List.replicate 14 7) =
    some [0, 0, 1, 2, 255, 255, 255, 255, 0, 0, 0, 1, 7, 7] := by decide

/-! ## The byte strings of the customer's side -/

lemma LaptopInfo.layout_bytes (laptop : LaptopInfo) :
    LaptopInfo.layout.bytes laptop = laptop.marshal := by
  simp [Layout.bytes, layout, marshal]

lemma CustomerRecord.layout_bytes (record : CustomerRecord) :
    CustomerRecord.layout.bytes record = record.marshal := by
  simp [Layout.bytes, layout, marshal]

lemma LeaderInfo.layout_bytes (info : LeaderInfo) :
    LeaderInfo.layout.bytes info = info.marshal := by
  simp [Layout.bytes, layout, marshal]

lemma LaptopInfo.layout_decode (bytes : List UInt8) :
    LaptopInfo.layout.decode bytes = LaptopInfo.unmarshal bytes := rfl

lemma CustomerRecord.layout_decode (bytes : List UInt8) :
    CustomerRecord.layout.decode bytes = CustomerRecord.unmarshal bytes := rfl

lemma LeaderInfo.layout_decode (bytes : List UInt8) :
    LeaderInfo.layout.decode bytes = LeaderInfo.unmarshal bytes := rfl

end LaptopRaft
