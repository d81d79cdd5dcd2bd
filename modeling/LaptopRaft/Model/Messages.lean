import Mathlib.Data.Int.Notation
import Mathlib.Data.Nat.Notation

/-!
# The messages of the wire protocol

The message classes of `Messages.h` that the replication protocol exchanges, as plain records
of their integer fields.  A message is here the record the receiver unmarshals; the bytes in
between are the subject of `Wire/Layouts`.

`int` is `ℤ`, and the sentinel values are the literal `-1` of the source.  Terms and log lengths are
counted up without a check, and a term that a handler decodes from stale buffers may be any number.
What `current_term++` does beyond the largest `int` is undefined in C++, and left out here.
-/

namespace LaptopRaft

/-- One entry of the replicated log (`struct MapOp`). -/
structure MapOp where
  /-- Term of the leader that created the entry. -/
  term : ℤ
  /-- The customer id. -/
  arg1 : ℤ
  /-- The order number to record. -/
  arg2 : ℤ
deriving DecidableEq, Repr

/-- A peer as configured on the command line (`struct ServerNode`).  The source handles it
through a `shared_ptr` and keys maps by that pointer, so the record also carries the address of
the shared object: `addr` is what `std::map` orders the nodes by. -/
structure ServerNode where
  addr : ℕ
  id : ℤ
  ip : String
  port : ℤ
deriving DecidableEq, Repr

structure RequestVoteMessage where
  id : ℤ
  currentTerm : ℤ
  logSize : ℤ
  lastTerm : ℤ
deriving DecidableEq, Repr

structure RequestVoteResponse where
  id : ℤ
  currentTerm : ℤ
  voted : ℤ
deriving DecidableEq, Repr

structure LogRequest where
  leaderId : ℤ
  currentTerm : ℤ
  prefixLength : ℤ
  prefixTerm : ℤ
  commitLength : ℤ
  /-- `-1` marks a heartbeat. -/
  opTerm : ℤ
  opArg1 : ℤ
  opArg2 : ℤ
deriving DecidableEq, Repr

/-- `LogRequest::IsValid`: a request object that no receive filled still has leader id `-1`. -/
def LogRequest.isValid (req : LogRequest) : Prop := req.leaderId ≠ -1

instance (req : LogRequest) : Decidable req.isValid :=
  inferInstanceAs (Decidable (req.leaderId ≠ -1))

/-- The entry a non-heartbeat request carries. -/
def LogRequest.op (req : LogRequest) : MapOp := ⟨req.opTerm, req.opArg1, req.opArg2⟩

structure LogResponse where
  followerId : ℤ
  currentTerm : ℤ
  ack : ℤ
  success : ℤ
deriving DecidableEq, Repr

structure CustomerRequest where
  customerId : ℤ
  orderNumber : ℤ
  requestType : ℤ
deriving DecidableEq, Repr

structure LaptopInfo where
  customerId : ℤ
  orderNumber : ℤ
  requestType : ℤ
  engineerId : ℤ
  adminId : ℤ
deriving DecidableEq, Repr

/-- `LaptopInfo::CopyRequest` on a fresh object, followed by `SetEngineerId`. -/
def LaptopInfo.ofRequest (request : CustomerRequest) (engineerId : ℤ) : LaptopInfo where
  customerId := request.customerId
  orderNumber := request.orderNumber
  requestType := request.requestType
  engineerId := engineerId
  adminId := -1

end LaptopRaft
