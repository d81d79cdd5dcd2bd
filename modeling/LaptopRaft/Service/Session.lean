import LaptopRaft.Framework.Observer
import LaptopRaft.Service.Handshake

/-!
# The session of a customer

A client thread sends its requests one at a time, the next one after the reply to the last.  A
`Session` records, for each of its two connections, what the handler has received and sent and what
the thread has read.

Of a connection, `Balanced` says that what was sent is what was read and what is in the stream, and
that the handler answers the requests in order.  Of the thread, `Progress` says that the requests
sent so far are the first of its plan, one more than the replies it has read at most.
-/

namespace LaptopRaft

/-! ## The record -/

structure Session where
  /-- What `ReceiveRequest` returned. -/
  received : Leg → List CustomerRequest := fun _ => []
  /-- What the handler has handed to `Send`. -/
  sent : Leg → List ServerMessage := fun _ => []
  /-- What the thread has unmarshalled. -/
  read : Leg → List Decoded := fun _ => []

namespace Connection

variable (conn : Connection) (md : ServerMetadata)

/-- What `ReceiveRequest` returns. -/
def incoming : List CustomerRequest :=
  match conn.pc, conn.inbox with
  | .receiveRequest, .request request :: _ => [request]
  | _, _ => []

/-- What `SendLeaderInfo` is given. -/
def announced (ips : Fin 4 → ℤ) : List ServerMessage :=
  match conn.pc with
  | .sendLeaderInfo ip port =>
      ((LeaderInfo.setLeaderInfo ips ip port).map ServerMessage.leaderInfo).toList
  | _ => []

/-- What `ShipLaptop` or `ReturnRecord` is given. -/
def reply (engineerId adminId : ℤ) : List ServerMessage :=
  match conn.pc with
  | .serve request => [replyTo md request engineerId adminId]
  | _ => []

end Connection

namespace Session

variable (m : Session)

def receive (leg : Leg) (requests : List CustomerRequest) : Session :=
  { m with received := Function.update m.received leg (m.received leg ++ requests) }

def send (leg : Leg) (messages : List ServerMessage) : Session :=
  { m with sent := Function.update m.sent leg (m.sent leg ++ messages) }

def decode (leg : Leg) (ds : List Decoded) : Session :=
  { m with read := Function.update m.read leg (m.read leg ++ ds) }

def watch (a : ThreadArgs) (w : Handshake) : HandshakeLabel → Session
  | .thread succeeds =>
      m.decode w.thread.leg (((w.threadBody a succeeds).map Prod.snd).getD [])
  | .sendIsLeader leg => m.send leg [.isLeader ((w.metadataAt leg).isLeader + 1)]
  | .sendLeaderInfo leg ips => m.send leg ((w.connection leg).announced ips)
  | .receiveRequest leg => m.receive leg (w.connection leg).incoming
  | .serve leg engineerId adminId =>
      m.send leg ((w.connection leg).reply (w.metadataAt leg) engineerId adminId)
  | _ => m

end Session

/-- **A client thread with its servers, and the record of it.** -/
def session (net : Network) (a : ThreadArgs) :
    TransitionSystem (Handshake × Session) HandshakeLabel Decoded :=
  (handshake net a).observed (fun m w l => m.watch a w l) {}

/-! ## The plan of the thread -/

namespace ThreadArgs

variable (a : ThreadArgs)

/-- The request of iteration `i`. -/
def request (i : ℤ) : CustomerRequest :=
  if a.requestType = updateRequest then ⟨a.customerId, i, updateRequest⟩ else ⟨i, -1, readRequest⟩

/-- The requests of the first `k` iterations. -/
def requests (k : ℕ) : List CustomerRequest := (List.range k).map fun (i : ℕ) => a.request i

lemma requests_succ (k : ℕ) : a.requests (k + 1) = a.requests k ++ [a.request k] := by
  rw [requests, List.range_succ, List.map_append]
  rfl

lemma requestType_of_mem {a : ThreadArgs} {k : ℕ} {request : CustomerRequest}
    (h : request ∈ a.requests k) :
    request.requestType = updateRequest ∨ request.requestType = readRequest := by
  obtain ⟨i, -, rfl⟩ := List.mem_map.1 h
  unfold ThreadArgs.request
  split
  · exact Or.inl rfl
  · exact Or.inr rfl

/-- What the thread sends is according to plan. -/
lemma eq_request_of_requestOf {a : ThreadArgs} {i isLeader : ℤ} {request : CustomerRequest}
    {pc : ThreadPc} (h : a.requestOf i isLeader = some (request, pc)) : request = a.request i := by
  unfold ThreadArgs.requestOf at h
  unfold ThreadArgs.request
  split at h
  · rename_i hupdate
    rw [if_pos hupdate]
    exact (Prod.mk.inj (Option.some.inj h)).1.symm
  · rename_i hupdate
    rw [if_neg hupdate]
    split at h
    · exact (Prod.mk.inj (Option.some.inj h)).1.symm
    · cases h

end ThreadArgs

/-! ## One connection -/

/-- The requests among the messages on their way to the server. -/
def requestsOf : List CustomerMessage → List CustomerRequest
  | [] => []
  | .request request :: inbox => request :: requestsOf inbox
  | .identifier _ :: inbox => requestsOf inbox

lemma requestsOf_append (inbox inbox' : List CustomerMessage) :
    requestsOf (inbox ++ inbox') = requestsOf inbox ++ requestsOf inbox' := by
  induction inbox with
  | nil => rfl
  | cons message inbox ih =>
      cases message with
      | identifier n => exact ih
      | request r => exact congrArg (r :: ·) ih

def MessageType.IsReply : MessageType → Prop
  | .laptopInfo | .customerRecord => True
  | .isLeader | .leaderInfo => False

instance : DecidablePred MessageType.IsReply
  | .laptopInfo | .customerRecord => isTrue trivial
  | .isLeader | .leaderInfo => isFalse id

/-- The message is a reply to the request. -/
def IsReplyTo (request : CustomerRequest) (message : ServerMessage) : Prop :=
  request.customerId ≠ -1 ∧
    ∃ md engineerId adminId, message = Connection.replyTo md request engineerId adminId

/-- The handler has not come to `ReceiveRequest`. -/
def HandlerPc.Greets : HandlerPc → Prop
  | .identifySender | .sendIsLeader | .testLeader | .getLeaderIp _ | .getLeaderPort _ _
  | .sendLeaderInfo _ _ => True
  | .receiveRequest | .serve _ | .returned => False

/-- **The handler answers the requests in order.**  Behind what it sends first come the replies to
the requests it has received, but for one that it is at work on, or has refused. -/
inductive Serves : HandlerPc → List ServerMessage → List CustomerRequest → Prop
  | greets {pc : HandlerPc} {sent : List ServerMessage} (hpc : pc.Greets)
      (hsent : ∀ g ∈ sent, ¬ g.type.IsReply) : Serves pc sent []
  | receives {greetings replies : List ServerMessage} {received : List CustomerRequest}
      (hgreetings : ∀ g ∈ greetings, ¬ g.type.IsReply)
      (hreplies : List.Forall₂ IsReplyTo received replies) :
      Serves .receiveRequest (greetings ++ replies) received
  | serves {greetings replies : List ServerMessage} {received : List CustomerRequest}
      {request : CustomerRequest} (hgreetings : ∀ g ∈ greetings, ¬ g.type.IsReply)
      (hreplies : List.Forall₂ IsReplyTo received replies) (hid : request.customerId ≠ -1) :
      Serves (.serve request) (greetings ++ replies) (received ++ [request])
  | returned {greetings replies : List ServerMessage} {received pending : List CustomerRequest}
      (hgreetings : ∀ g ∈ greetings, ¬ g.type.IsReply)
      (hreplies : List.Forall₂ IsReplyTo received replies) :
      Serves .returned (greetings ++ replies) (received ++ pending)

/-- A step of the handler that takes `incoming` from its inbox and sends `outgoing`. -/
structure HandlerStep (conn conn' : Connection) (incoming : List CustomerRequest)
    (outgoing : List ServerMessage) : Prop where
  started : conn.pc ≠ .returned
  stream : conn'.stream = if conn.failed then conn.stream
    else conn.stream ++ outgoing.flatMap (octets ServerMessage.marshal)
  failed : conn'.failed = conn.failed
  inbox : incoming ++ requestsOf conn'.inbox = requestsOf conn.inbox
  serves : ∀ {sent received}, Serves conn.pc sent received →
    (∀ r ∈ incoming, r.requestType = updateRequest ∨ r.requestType = readRequest) →
    Serves conn'.pc (sent ++ outgoing) (received ++ incoming)

namespace HandlerStep

variable {conn conn' : Connection} {md : ServerMetadata}

/-- A step that neither receives nor sends. -/
lemma silent (hstarted : conn.pc ≠ .returned) (hstream : conn'.stream = conn.stream)
    (hfailed : conn'.failed = conn.failed)
    (hinbox : requestsOf conn'.inbox = requestsOf conn.inbox)
    (hserves : ∀ {sent received}, Serves conn.pc sent received → Serves conn'.pc sent received) :
    HandlerStep conn conn' [] [] where
  started := hstarted
  stream := by simp [hstream]
  failed := hfailed
  inbox := hinbox
  serves h _ := by
    rw [List.append_nil, List.append_nil]
    exact hserves h

lemma send_stream (m : ServerMessage) : (conn.send m).stream = if conn.failed then conn.stream
    else conn.stream ++ [m].flatMap (octets ServerMessage.marshal) := by
  unfold Connection.send
  split <;> simp

/-- A greeting handler has received nothing. -/
lemma serves_greets {pc : HandlerPc} {sent : List ServerMessage} {received : List CustomerRequest}
    (h : Serves pc sent received) (hpc : pc.Greets) :
    received = [] ∧ ∀ g ∈ sent, ¬ g.type.IsReply := by
  cases h with
  | greets _ hsent => exact ⟨rfl, hsent⟩
  | receives | serves | returned => exact hpc.elim

/-- What it has sent is not a reply, wherever it goes on. -/
lemma serves_of_greetings {pc : HandlerPc} {sent : List ServerMessage}
    (hpc : pc.Greets ∨ pc = .receiveRequest ∨ pc = .returned)
    (hsent : ∀ g ∈ sent, ¬ g.type.IsReply) : Serves pc sent [] := by
  rcases hpc with hpc | rfl | rfl
  · exact .greets hpc hsent
  · simpa using Serves.receives hsent .nil
  · simpa using @Serves.returned sent [] [] [] hsent .nil

lemma identifySender (h : conn.identifySender = some conn') : HandlerStep conn conn' [] [] := by
  unfold Connection.identifySender at h
  split at h
  · rename_i n inbox hpc hinbox
    obtain rfl := Option.some.inj h
    refine silent (by rw [hpc]; simp) rfl rfl (by rw [hinbox]; rfl) fun hserves => ?_
    rw [hpc] at hserves
    obtain ⟨rfl, hsent⟩ := serves_greets hserves trivial
    refine serves_of_greetings ?_ hsent
    simp only
    split
    · exact Or.inl trivial
    · exact Or.inr (Or.inr rfl)
  · cases h

lemma sendIsLeader (h : conn.sendIsLeader md = some conn') :
    HandlerStep conn conn' [] [.isLeader (md.isLeader + 1)] := by
  unfold Connection.sendIsLeader at h
  split at h
  · rename_i hpc
    obtain rfl := Option.some.inj h
    refine ⟨by rw [hpc]; simp, send_stream _, Connection.send_failed _ _,
      by rw [Connection.send_inbox]; rfl, fun hserves _ => ?_⟩
    rw [hpc] at hserves
    obtain ⟨rfl, hsent⟩ := serves_greets hserves trivial
    exact .greets trivial (List.forall_mem_append.2 ⟨hsent, by simp [ServerMessage.type,
      MessageType.IsReply]⟩)
  · cases h

lemma testLeader (h : conn.testLeader md = some conn') : HandlerStep conn conn' [] [] := by
  unfold Connection.testLeader at h
  split at h
  · rename_i hpc
    obtain rfl := Option.some.inj h
    refine silent (by rw [hpc]; simp) rfl rfl rfl fun hserves => ?_
    rw [hpc] at hserves
    obtain ⟨rfl, hsent⟩ := serves_greets hserves trivial
    refine serves_of_greetings ?_ hsent
    simp only
    split
    · exact Or.inl trivial
    · exact Or.inr (Or.inl rfl)
  · cases h

lemma greets_of_announces {pc : HandlerPc} (h : pc.Announces) : pc.Greets := by
  cases pc <;> first | exact trivial | exact h.elim

/-- The handler goes on looking for the leader. -/
lemma looks (h : conn.Looks conn') : HandlerStep conn conn' [] [] := by
  obtain ⟨hannounces, pc', hannounces', rfl⟩ := h
  have hstarted : conn.pc ≠ .returned := by
    intro hpc
    rw [hpc] at hannounces
    exact hannounces.elim
  refine silent hstarted rfl rfl rfl fun hserves => ?_
  obtain ⟨rfl, hsent⟩ := serves_greets hserves (greets_of_announces hannounces)
  exact .greets (greets_of_announces hannounces') hsent

lemma sendLeaderInfo {ips : Fin 4 → ℤ} (h : conn.sendLeaderInfo ips = some conn') :
    HandlerStep conn conn' [] (conn.announced ips) := by
  unfold Connection.sendLeaderInfo at h
  split at h
  · rename_i ip port hpc
    obtain ⟨info, hinfo, rfl⟩ := Option.map_eq_some_iff.1 h
    have hannounced : conn.announced ips = [.leaderInfo info] := by
      simp only [Connection.announced, hpc, hinfo, Option.map_some, Option.toList_some]
    rw [hannounced]
    refine ⟨by rw [hpc]; simp, send_stream _, Connection.send_failed _ _,
      by rw [Connection.send_inbox]; rfl, fun hserves _ => ?_⟩
    rw [hpc] at hserves
    obtain ⟨rfl, hsent⟩ := serves_greets hserves trivial
    exact serves_of_greetings (Or.inr (Or.inl rfl)) (List.forall_mem_append.2 ⟨hsent, by
      simp [ServerMessage.type, MessageType.IsReply]⟩)
  · cases h

lemma receiveRequest (h : conn.receiveRequest = some conn') :
    HandlerStep conn conn' conn.incoming [] := by
  unfold Connection.receiveRequest at h
  split at h
  · rename_i request inbox hpc hinbox
    obtain rfl := Option.some.inj h
    have hincoming : conn.incoming = [request] := by
      simp only [Connection.incoming, hpc, hinbox]
    rw [hincoming]
    refine ⟨by rw [hpc]; simp, by simp, rfl, by rw [hinbox]; rfl, fun hserves htype => ?_⟩
    rw [hpc] at hserves
    rw [List.append_nil]
    cases hserves with
    | greets hpc => exact hpc.elim
    | receives hgreetings hreplies =>
        simp only
        split
        · exact .returned hgreetings hreplies
        · rename_i hid
          rw [if_pos (htype _ List.mem_cons_self)]
          exact .serves hgreetings hreplies hid
  · cases h

lemma serve {engineerId adminId : ℤ} (h : conn.serve md engineerId adminId = some conn') :
    HandlerStep conn conn' [] (conn.reply md engineerId adminId) := by
  unfold Connection.serve at h
  split at h
  · rename_i request hpc
    obtain rfl := Option.some.inj h
    have hreply : conn.reply md engineerId adminId =
        [Connection.replyTo md request engineerId adminId] := by
      simp only [Connection.reply, hpc]
    rw [hreply]
    refine ⟨by rw [hpc]; simp, send_stream _, Connection.send_failed _ _,
      by rw [Connection.send_inbox]; rfl, fun hserves _ => ?_⟩
    rw [hpc] at hserves
    rw [List.append_nil]
    cases hserves with
    | greets hpc => exact hpc.elim
    | serves hgreetings hreplies hid =>
        rw [List.append_assoc]
        exact .receives hgreetings (List.rel_append hreplies (.cons ⟨hid, _, _, _, rfl⟩ .nil))
  · cases h

lemma hangUp (h : conn.hangUp = some conn') : HandlerStep conn conn' [] [] := by
  unfold Connection.hangUp at h
  split at h
  · rename_i hpc
    obtain rfl := Option.some.inj h
    have hstarted : conn.pc ≠ .returned := by rcases hpc with hpc | hpc <;> rw [hpc] <;> simp
    refine silent hstarted rfl rfl rfl fun hserves => ?_
    rcases hpc with hpc | hpc <;> rw [hpc] at hserves
    · obtain ⟨rfl, hsent⟩ := serves_greets hserves trivial
      exact serves_of_greetings (Or.inr (Or.inr rfl)) hsent
    · cases hserves with
      | greets hpc => exact hpc.elim
      | receives hgreetings hreplies =>
          simpa using @Serves.returned _ _ _ [] hgreetings hreplies
  · cases h

end HandlerStep

/-- What was sent is what was read and what is in the stream, as far as nothing was lost, and the
handler answers the requests in order. -/
structure Balanced (conn : Connection) (received : List CustomerRequest)
    (sent : List ServerMessage) (read : List Decoded) : Prop where
  flight : InFlight ServerMessage.marshal (read.flatMap Decoded.block ++ conn.stream)
    conn.failed sent
  serves : Serves conn.pc sent received

namespace Balanced

variable {conn conn' : Connection} {received incoming : List CustomerRequest}
  {sent outgoing : List ServerMessage} {read : List Decoded}

lemma step (h : Balanced conn received sent read) (hst : HandlerStep conn conn' incoming outgoing)
    (htype : ∀ r ∈ incoming, r.requestType = updateRequest ∨ r.requestType = readRequest) :
    Balanced conn' (received ++ incoming) (sent ++ outgoing) read where
  flight := by
    have hsent := h.flight.sendAll outgoing
    rw [hst.stream, hst.failed]
    split at hsent
    · rename_i hcut
      rw [if_pos hcut]
      exact hsent
    · rename_i hcut
      rw [if_neg hcut, ← List.append_assoc]
      exact hsent
  serves := hst.serves h.serves htype

lemma fail (h : Balanced conn received sent read) (n : ℕ) :
    Balanced (conn.fail n) received sent read where
  flight := by
    refine ⟨List.IsPrefix.trans ?_ h.flight.upTo, by simp [Connection.fail]⟩
    rw [List.prefix_append_right_inj]
    exact List.take_prefix n conn.stream
  serves := h.serves

/-- The thread reads. -/
lemma recv (h : Balanced conn received sent read) (t : MessageType) :
    Balanced { conn with stream := conn.stream.drop t.size } received sent
      (read ++ [⟨t, conn.stream.take t.size⟩]) where
  flight := by
    have hsame : (read ++ [(⟨t, conn.stream.take t.size⟩ : Decoded)]).flatMap Decoded.block ++
        conn.stream.drop t.size = read.flatMap Decoded.block ++ conn.stream := by
      simp
    rw [hsame]
    exact h.flight
  serves := h.serves

end Balanced

/-! ## The thread -/

/-- The thread has not come to its loop. -/
def ThreadPc.Greets : ThreadPc → Prop
  | .init _ _ _ | .sendIdentifier | .recvIsLeader | .recvLeaderInfo => True
  | .loop _ _ | .order _ _ | .readRecord _ _ | .returned => False

/-- A thread that was told `isLeader` sends requests. -/
def ThreadArgs.Orders (a : ThreadArgs) (isLeader : ℤ) : Prop :=
  ¬ (a.requestType = updateRequest ∧ isLeader = 0) ∧ (a.requestOf 0 isLeader).isSome

/-- The thread waits for the reply to request `i`. -/
def ThreadPc.Expects (a : ThreadArgs) (i : ℤ) : ThreadPc → Prop
  | .order j isLeader | .readRecord j isLeader => j = i ∧ a.Orders isLeader
  | _ => False

def Decoded.value (d : Decoded) : List UInt8 := d.block.map (Octet.value ServerMessage.marshal)

/-- A reply after which the thread returns. -/
def Decoded.Last (d : Decoded) : Prop :=
  (d.type = .laptopInfo ∧ (LaptopInfo.unmarshal d.value).customerId = -1) ∨
    (d.type = .customerRecord ∧ (CustomerRecord.unmarshal d.value).customerId = -2)

/-- The replies among what was read. -/
def repliesIn (tr : List Decoded) : List Decoded := tr.filter fun d => d.type.IsReply

/-- The thread has been told that there is no leader. -/
def ToldLeaderless (tr : List Decoded) : Prop :=
  ∃ d ∈ tr, d.type = .isLeader ∧ ofNetwork d.value = 0

/-- Why a thread whose connection is open has returned. -/
inductive Ended (a : ThreadArgs) (k : ℕ) (tr : List Decoded) : Prop
  | answered (h : (repliesIn tr).length = a.numRequests.toNat)
  | leaderless (htype : a.requestType = updateRequest) (htold : ToldLeaderless tr) (hk : k = 0)
  | idle (hnone : ∀ i isLeader, a.requestOf i isLeader = none) (hk : k = 0)
  | last {d : Decoded} (hd : d ∈ repliesIn tr) (h : d.Last)

/-- **How far the thread is**, given the number `k` of requests that were sent. -/
inductive Progress (a : ThreadArgs) (isOpen failed : Bool) (k : ℕ) (tr : List Decoded) :
    ThreadPc → Prop
  | greets {pc : ThreadPc} (hpc : pc.Greets) (hk : k = 0) (hn : repliesIn tr = []) :
      Progress a isOpen failed k tr pc
  | loop {i : ℕ} {isLeader : ℤ} (horders : i ≠ 0 → a.Orders isLeader) (hk : k ≤ i)
      (hall : failed = false → k = i) (hn : (repliesIn tr).length = i)
      (hi : i ≤ a.numRequests.toNat)
      (htold : isOpen = true → a.requestType = updateRequest → isLeader = 0 → ToldLeaderless tr) :
      Progress a isOpen failed k tr (.loop i isLeader)
  | idle {i isLeader : ℤ} (hnone : ∀ i isLeader, a.requestOf i isLeader = none) (hk : k = 0)
      (hn : repliesIn tr = []) : Progress a isOpen failed k tr (.loop i isLeader)
  | expects {i : ℕ} {pc : ThreadPc} (hpc : pc.Expects a i) (hk : k ≤ i + 1)
      (hall : failed = false → k = i + 1) (hn : (repliesIn tr).length = i)
      (hi : (i : ℤ) < a.numRequests) : Progress a isOpen failed k tr pc
  | returned (hk : k ≤ (repliesIn tr).length + 1) (hk' : k ≤ a.numRequests.toNat)
      (hended : isOpen = true → Ended a k tr) : Progress a isOpen failed k tr .returned

lemma expects_of_requestOf {a : ThreadArgs} {i isLeader : ℤ} {request : CustomerRequest}
    {pc : ThreadPc} (h : a.requestOf i isLeader = some (request, pc)) :
    pc = .order i isLeader ∨ pc = .readRecord i isLeader := by
  unfold ThreadArgs.requestOf at h
  split at h
  · exact Or.inl (Prod.mk.inj (Option.some.inj h)).2.symm
  · split at h
    · exact Or.inr (Prod.mk.inj (Option.some.inj h)).2.symm
    · cases h

lemma repliesIn_append (tr es : List Decoded) :
    repliesIn (tr ++ es) = repliesIn tr ++ repliesIn es := List.filter_append ..

namespace Progress

variable {a : ThreadArgs} {isOpen failed : Bool} {k : ℕ} {tr : List Decoded}
  {i isLeader : ℤ} {pc : ThreadPc} {leg : Leg}

lemma fail (h : Progress a isOpen failed k tr pc) : Progress a isOpen true k tr pc := by
  cases h with
  | greets hpc hk hn => exact .greets hpc hk hn
  | loop horders hk hall hn hi htold => exact .loop horders hk (by simp) hn hi htold
  | idle hnone hk hn => exact .idle hnone hk hn
  | expects hpc hk hall hn hi => exact .expects hpc hk (by simp) hn hi
  | returned hk hk' hended => exact .returned hk hk' hended

/-- Before the loop nothing was sent. -/
lemma of_greets (h : Progress a isOpen failed k tr pc) (hpc : pc.Greets) :
    k = 0 ∧ repliesIn tr = [] := by
  cases h with
  | greets _ hk hn => exact ⟨hk, hn⟩
  | loop | idle | returned => exact hpc.elim
  | expects hexpects => cases pc <;> first | exact hexpects.elim | exact hpc.elim

/-- At the first iteration. -/
lemma start (hk : k = 0) (hn : repliesIn tr = [])
    (htold : isOpen = true → isLeader = 0 → ToldLeaderless tr) :
    Progress a isOpen failed k tr (.loop 0 isLeader) :=
  .loop (i := 0) (fun h => absurd rfl h) hk.le (fun _ => hk) (by rw [hn]; rfl) (Nat.zero_le _)
    fun hopen _ => htold hopen

/-- After `RecvIsLeader` and `RecvLeaderInfo`.  The flag is what was decoded, or the connection is
closed. -/
lemma afterGreeting (hpc : pc = .recvIsLeader ∨ pc = .recvLeaderInfo) (hk : k = 0)
    (hn : repliesIn tr = []) {bytes : Option (List UInt8)}
    (htold : isOpen = true → pc = .recvIsLeader → (bytes.map ofNetwork).getD 0 = 0 →
      ToldLeaderless tr) :
    Progress a isOpen failed k tr (a.afterRecv leg pc bytes) := by
  rcases hpc with rfl | rfl
  · simp only [ThreadArgs.afterRecv]
    split
    · exact .greets trivial hk hn
    · exact start hk hn fun hopen => htold hopen rfl
  · simp only [ThreadArgs.afterRecv]
    split
    · exact .greets trivial hk hn
    · exact start hk hn fun _ hzero => absurd hzero (by decide)

/-- The thread gives up. -/
lemma close (h : Progress a isOpen failed k tr pc) : Progress a false failed k tr .returned := by
  cases h with
  | greets _ hk hn =>
      subst hk
      exact .returned (Nat.zero_le _) (Nat.zero_le _) (by simp)
  | loop horders hk hall hn hi =>
      exact .returned (by omega) (by omega) (by simp)
  | idle hnone hk hn =>
      subst hk
      exact .returned (Nat.zero_le _) (Nat.zero_le _) (by simp)
  | expects hpc hk hall hn hi => exact .returned (by omega) (by omega) (by simp)
  | returned hk hk' hended => exact .returned hk hk' (by simp)

/-- The loop ends. -/
lemma endLoop (h : Progress a isOpen failed k tr (.loop i isLeader))
    (hends : ¬ (i < a.numRequests ∧ ¬ (a.requestType = updateRequest ∧ isLeader = 0))) :
    Progress a isOpen failed k tr .returned := by
  cases h with
  | greets hpc => exact hpc.elim
  | expects hpc => exact hpc.elim
  | idle hnone hk hn =>
      subst hk
      exact .returned (Nat.zero_le _) (Nat.zero_le _) fun _ => .idle hnone rfl
  | @loop i _ horders hk hall hn hi htold =>
      refine .returned (by omega) (by omega) fun hopen => ?_
      by_cases hlast : (i : ℤ) < a.numRequests
      · have hleaderless := not_not.1 fun hnot => hends ⟨hlast, hnot⟩
        have hzero : i = 0 := by
          by_contra hne
          exact (horders hne).1 hleaderless
        exact .leaderless hleaderless.1 (htold hopen hleaderless.1 hleaderless.2) (by omega)
      · exact .answered (by omega)

/-- An undefined request type. -/
lemma pass (h : Progress a isOpen failed k tr (.loop i isLeader))
    (hnone : a.requestOf i isLeader = none) :
    Progress a isOpen failed k tr (.loop (i + 1) isLeader) := by
  have hnever : ∀ i isLeader, a.requestOf i isLeader = none := by
    intro i isLeader
    unfold ThreadArgs.requestOf at hnone ⊢
    split_ifs at hnone ⊢
    rfl
  cases h with
  | greets hpc => exact hpc.elim
  | expects hpc => exact hpc.elim
  | idle _ hk hn => exact .idle hnever hk hn
  | @loop i _ horders hk hall hn hi =>
      have hzero : i = 0 := by
        by_contra hne
        have hsome := (horders hne).2
        rw [hnever] at hsome
        cases hsome
      subst hzero
      exact .idle hnever (Nat.le_zero.1 hk) (List.length_eq_zero_iff.1 hn)

/-- A request is sent.  Over a failed connection it does not arrive. -/
lemma send (h : Progress a isOpen failed k tr (.loop i isLeader))
    (hgoes : i < a.numRequests ∧ ¬ (a.requestType = updateRequest ∧ isLeader = 0))
    {request : CustomerRequest} (hrequest : a.requestOf i isLeader = some (request, pc)) :
    ∃ k', (failed = true → k' = k) ∧
      (failed = false → a.requests k' = a.requests k ++ [request]) ∧
        Progress a isOpen failed k' tr pc := by
  cases h with
  | greets hpc => exact hpc.elim
  | expects hpc => exact hpc.elim
  | idle hnone =>
      rw [hnone] at hrequest
      cases hrequest
  | @loop i _ horders hk hall hn hi =>
      have hsome : (a.requestOf 0 isLeader).isSome := by
        cases hnone : a.requestOf 0 isLeader with
        | none =>
            rw [Handshake.requestOf_eq_none hnone] at hrequest
            cases hrequest
        | some _ => rfl
      have hexpects : pc.Expects a i := by
        rcases expects_of_requestOf hrequest with rfl | rfl <;> exact ⟨rfl, hgoes.2, hsome⟩
      cases failed with
      | true =>
          exact ⟨k, fun _ => rfl, by simp, .expects hexpects (by omega) (by simp) hn hgoes.1⟩
      | false =>
          obtain rfl := hall rfl
          refine ⟨k + 1, by simp, fun _ => ?_, .expects hexpects le_rfl (fun _ => rfl) hn hgoes.1⟩
          rw [ThreadArgs.requests_succ, ThreadArgs.eq_request_of_requestOf hrequest]

/-- Behind the reply to request `j`. -/
lemma answered {j : ℕ} {d : Decoded} {pc' : ThreadPc} (hreply : d.type.IsReply)
    (horders : a.Orders isLeader) (hk : k ≤ j + 1) (hall : failed = false → k = j + 1)
    (hn : (repliesIn tr).length = j) (hj : (j : ℤ) < a.numRequests)
    (hpc : pc' = .returned ∧ d.Last ∨ pc' = .loop (j + 1) isLeader) :
    Progress a isOpen failed k (tr ++ [d]) pc' := by
  have hone : repliesIn [d] = [d] := List.filter_cons_of_pos (by simpa using hreply)
  have hlength : (repliesIn (tr ++ [d])).length = j + 1 := by
    rw [repliesIn_append, hone, List.length_append, hn]
    rfl
  rcases hpc with ⟨rfl, hlast⟩ | rfl
  · refine .returned (by omega) (by omega) fun _ => .last (d := d) ?_ hlast
    rw [repliesIn_append, hone]
    simp
  · exact .loop (i := j + 1) (fun _ => horders) hk hall hlength (by omega)
      fun _ htype hzero => absurd ⟨htype, hzero⟩ horders.1

/-- The reply. -/
lemma reply (h : Progress a isOpen failed k tr pc) {i : ℤ} (hpc : pc.Expects a i)
    {d : Decoded} (htype : pc.expects = some d.type) :
    Progress a isOpen failed k (tr ++ [d]) (a.afterRecv leg pc (some d.value)) := by
  cases h with
  | greets hgreets =>
      cases pc <;> first | exact hpc.elim | exact hgreets.elim
  | loop | idle | returned => exact hpc.elim
  | @expects j _ hpc hk hall hn hi =>
      cases pc with
      | order i' isLeader =>
          obtain ⟨rfl, horders⟩ := hpc
          have hlaptop : d.type = .laptopInfo := (Option.some.inj htype).symm
          refine answered (by rw [hlaptop]; trivial) horders hk hall hn hi ?_
          simp only [ThreadArgs.afterRecv, Option.map_some, Option.getD_some]
          split
          · rename_i hlast
            exact Or.inl ⟨rfl, Or.inl ⟨hlaptop, hlast⟩⟩
          · exact Or.inr rfl
      | readRecord i' isLeader =>
          obtain ⟨rfl, horders⟩ := hpc
          have hrecord : d.type = .customerRecord := (Option.some.inj htype).symm
          refine answered (by rw [hrecord]; trivial) horders hk hall hn hi ?_
          simp only [ThreadArgs.afterRecv, Option.map_some, Option.getD_some]
          split
          · rename_i hlast
            exact Or.inl ⟨rfl, Or.inr ⟨hrecord, hlast⟩⟩
          · exact Or.inr rfl
      | _ => exact hpc.elim

/-- A `Recv` of the thread. -/
lemma recv (h : Progress a isOpen failed k tr pc) {t : MessageType} (hexpects : pc.expects = some t)
    {block : List (Octet ServerMessage)} :
    Progress a isOpen failed k (tr ++ [⟨t, block⟩])
      (a.afterRecv leg pc (some (block.map (Octet.value ServerMessage.marshal)))) := by
  cases hpc : pc with
  | init | sendIdentifier | loop | returned => rw [hpc] at hexpects; cases hexpects
  | recvIsLeader | recvLeaderInfo =>
      rw [hpc] at h hexpects
      obtain ⟨hk, hn⟩ := h.of_greets trivial
      refine afterGreeting (by simp) hk ?_ fun _ hflag hzero => ?_
      · rw [repliesIn_append, hn, ← Option.some.inj hexpects]
        rfl
      · rw [hflag] at hexpects
        exact ⟨⟨t, block⟩, by simp, (Option.some.inj hexpects).symm, hzero⟩
  | order i isLeader | readRecord i isLeader =>
      rw [hpc] at h hexpects
      have hwaits : ∃ j : ℤ, ThreadPc.Expects a j pc := by
        rw [hpc]
        cases h with
        | greets hgreets => exact hgreets.elim
        | expects hexpects' => exact ⟨_, hexpects'⟩
      obtain ⟨j, hj⟩ := hwaits
      rw [hpc] at hj
      exact h.reply hj (d := ⟨t, block⟩) hexpects

/-- A `Recv` that fails. -/
lemma recvFails (h : Progress a isOpen failed k tr pc) {t : MessageType}
    (hexpects : pc.expects = some t) :
    Progress a false failed k tr (a.afterRecv leg pc none) := by
  cases hpc : pc with
  | init | sendIdentifier | loop | returned => rw [hpc] at hexpects; cases hexpects
  | recvIsLeader | recvLeaderInfo =>
      rw [hpc] at h
      obtain ⟨hk, hn⟩ := h.of_greets trivial
      exact afterGreeting (by simp) hk hn (by simp)
  | order | readRecord => exact h.close

end Progress

end LaptopRaft
