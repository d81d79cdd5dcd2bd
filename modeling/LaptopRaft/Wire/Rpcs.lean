import LaptopRaft.Wire.Flow

/-!
# RPC framing

Nothing in the stream marks where an RPC begins.  The handler finds out from the identifier
how many bytes it is to read next, and the caller writes just as many behind that identifier.  So
if what the handler has consumed is a number of whole RPCs and the beginning of the next one, then
this stays so (`Framed`): four bytes read where an RPC begins are its identifier, and the `switch`
takes the handler to the function that receives its message.  What the bytes of a message look
like does not matter.

Everything here but the last section is also about a caller that dies.  A handler whose socket
has been closed receives nothing more, so the requests that it received in full are the first of
the RPCs in any case.
-/

namespace LaptopRaft

open TransitionSystem

/-- The requests that were received in full. -/
def receivedInFull (tr : List HandlerCall) : List Rpc :=
  (tr.filter HandlerCall.complete).map HandlerCall.request

namespace RecvCall

/-- The identifier that made the handler enter the function. -/
def announced : RecvCall → List UInt8
  | identifyRPC => []
  | recvRequestVote _ => Identifier.layout.bytes ⟨requestvoteRpc⟩
  | recvLogRequest _ => Identifier.layout.bytes ⟨appendlogRpc⟩

/-- The function is the right one for the first of some RPCs. -/
def Expects : RecvCall → List Rpc → Prop
  | identifyRPC, _ => True
  | recvRequestVote _, rpcs => ∃ msg rest, rpcs = .vote msg :: rest
  | recvLogRequest _, rpcs => ∃ req rest, rpcs = .log req :: rest

end RecvCall

namespace Rpc

/-- The identifier of an RPC. -/
def identifier : Rpc → ℤ
  | vote _ => requestvoteRpc
  | log _ => appendlogRpc

/-- Its message. -/
def message : Rpc → List UInt8
  | vote msg => RequestVoteMessage.layout.bytes msg
  | log req => LogRequest.layout.bytes req

lemma bytes_eq (rpc : Rpc) :
    rpc.bytes = Identifier.layout.bytes ⟨rpc.identifier⟩ ++ rpc.message := by
  cases rpc <;> simp [bytes, calls, SendCall.bytes, identifier, message]

/-- The switch of `ServerHandler` takes each RPC to the function that receives it. -/
lemma next_expects (rpc : Rpc) (frame : StackFrame) (rest : List Rpc) :
    (RecvCall.next frame rpc.identifier).Expects (rpc :: rest) ∧
      (RecvCall.next frame rpc.identifier).announced =
        Identifier.layout.bytes ⟨rpc.identifier⟩ := by
  cases rpc with
  | vote msg => exact ⟨⟨msg, rest, rfl⟩, rfl⟩
  | log req => exact ⟨⟨req, rest, rfl⟩, rfl⟩

lemma identifier_fits (rpc : Rpc) : Identifier.layout.Fits ⟨rpc.identifier⟩ := by
  cases rpc with
  | vote msg => exact (by decide : Identifier.layout.Fits ⟨requestvoteRpc⟩)
  | log req => exact (by decide : Identifier.layout.Fits ⟨appendlogRpc⟩)

end Rpc

namespace RecvCall.Expects

variable {call : RecvCall} {rpcs : List Rpc}

lemma eq_identifyRPC (h : call.Expects []) : call = .identifyRPC := by
  cases call with
  | identifyRPC => rfl
  | recvRequestVote msg => obtain ⟨_, _, h⟩ := h; cases h
  | recvLogRequest req => obtain ⟨_, _, h⟩ := h; cases h

/-- What the function receives is no more than what the first of the RPCs has. -/
lemma length_le (h : call.Expects rpcs) (hne : rpcs ≠ []) :
    call.announced.length + call.size ≤ (rpcs.flatMap Rpc.bytes).length := by
  obtain ⟨rpc, rest, rfl⟩ := List.exists_cons_of_ne_nil hne
  rw [List.flatMap_cons, List.length_append, rpc.bytes_eq, List.length_append,
    Layout.bytes_length]
  cases call with
  | identifyRPC =>
      rw [announced, List.length_nil, size]
      omega
  | recvRequestVote msg =>
      obtain ⟨msg, rest', heq⟩ := h
      obtain ⟨rfl, rfl⟩ := List.cons.inj heq
      rw [announced, Layout.bytes_length, size, Rpc.message, Layout.bytes_length]
      omega
  | recvLogRequest req =>
      obtain ⟨req, rest', heq⟩ := h
      obtain ⟨rfl, rfl⟩ := List.cons.inj heq
      rw [announced, Layout.bytes_length, size, Rpc.message, Layout.bytes_length]
      omega

end RecvCall.Expects

namespace Transfer

variable {α : Type*} {L : Layout α} {t : Transfer} {a : α}

/-- A complete transfer fills the part of the buffer that is unmarshalled. -/
lemma unmarshal_received (host : ByteOrder) (hbounds : t.InBounds) (hsize : t.size = 0)
    (hall : t.offset + t.size = L.size) (hfits : L.Fits a) (hreceived : t.received = L.bytes a) :
    L.unmarshal host t.buffer = some a := by
  have hroom : L.size ≤ t.buffer.length := by
    unfold InBounds at hbounds
    omega
  have hbuffer : t.buffer = L.bytes a ++ t.buffer.drop t.offset := by
    rw [← hreceived]
    exact (List.take_append_drop t.offset t.buffer).symm
  rw [Layout.unmarshal_eq hroom, hbuffer, Layout.decode_bytes hfits]

end Transfer

namespace RpcConnection

variable {cfg : RpcConfig} {c c' : RpcConnection} {tr es : List HandlerCall}

/-- While the socket is open the handler has consumed the RPCs it received in full, and the
beginning of the one it is at. -/
structure Framed (cfg : RpcConfig) (c : RpcConnection) (tr : List HandlerCall) : Prop where
  split : ∃ rest, cfg.rpcs = receivedInFull tr ++ rest ∧
    (c.closed = false → c.call.Expects rest ∧
      c.consumed = (receivedInFull tr).flatMap Rpc.bytes ++ c.call.announced ++
        c.receiving.received)
  inFull : (receivedInFull tr).flatMap Rpc.bytes <+: c.consumed

/-- Nothing has been received yet. -/
lemma enter_received (c : RpcConnection) (call : RecvCall) (stack : ℕ → UInt8) :
    (c.enter call stack).receiving.received = [] := by
  rw [enter, Transfer.received, (call.start_spec stack).1, List.take_zero]

/-- What the handler has begun to receive is the first of the RPCs to come. -/
lemma Flows.ahead (h : Flows cfg c) {rest : List Rpc}
    (hsplit : cfg.rpcs = receivedInFull tr ++ rest)
    (hconsumed : c.consumed = (receivedInFull tr).flatMap Rpc.bytes ++ c.call.announced ++
      c.receiving.received) :
    c.call.announced ++ c.receiving.received ++ (c.stream ++ c.toWrite) =
      rest.flatMap Rpc.bytes := by
  have hall := h.written
  rw [← h.consumed, hconsumed, hsplit, List.flatMap_append] at hall
  simp only [List.append_assoc] at hall ⊢
  exact List.append_cancel_left hall

/-- Four bytes read at the beginning of an RPC are its identifier. -/
lemma Flows.identified (h : Flows cfg c) (hcall : c.call = .identifyRPC)
    (hsize : c.receiving.size = 0) {rest : List Rpc} {ahead : List UInt8}
    (hahead : c.call.announced ++ c.receiving.received ++ ahead = rest.flatMap Rpc.bytes) :
    ∃ rpc rest', rest = rpc :: rest' ∧
      c.receiving.received = Identifier.layout.bytes ⟨rpc.identifier⟩ := by
  have hlength : c.receiving.received.length = Identifier.layout.size := by
    rw [Transfer.received_length h.receiving, ← Nat.add_zero c.receiving.offset, ← hsize, h.size,
      hcall]
    rfl
  rw [hcall, RecvCall.announced, List.nil_append] at hahead
  cases rest with
  | nil =>
      have hnil := congrArg List.length hahead
      rw [List.length_append, hlength] at hnil
      exact absurd hnil (by simp [Identifier.layout])
  | cons rpc rest =>
      rw [List.flatMap_cons, rpc.bytes_eq, List.append_assoc] at hahead
      exact ⟨rpc, rest, rfl,
        (List.append_inj hahead (hlength.trans (Layout.bytes_length _).symm)).1⟩

/-- As many bytes behind it as the message has are the message, and this is what the handler
unmarshals. -/
lemma Flows.takes_message {α : Type*} {L : Layout α} {a object got : α} (h : Flows cfg c)
    (rpc : Rpc) (hopen : c.closed = false) (hsize : c.receiving.size = 0)
    (hgot : c.filled cfg L object = some got) {rest : List Rpc} {ahead : List UInt8}
    (hannounced : c.call.announced = Identifier.layout.bytes ⟨rpc.identifier⟩)
    (hmessage : rpc.message = L.bytes a) (hcall : c.call.size = L.size) (hfits : L.Fits a)
    (hahead : c.call.announced ++ c.receiving.received ++ ahead =
      (rpc :: rest).flatMap Rpc.bytes) :
    got = a ∧ c.call.announced ++ c.receiving.received = rpc.bytes := by
  have hsum : c.receiving.offset + c.receiving.size = L.size := h.size.trans hcall
  have hlength : c.receiving.received.length = rpc.message.length := by
    rw [Transfer.received_length h.receiving, hmessage, Layout.bytes_length, ← hsum, hsize,
      Nat.add_zero]
  have hreceived : c.receiving.received = rpc.message := by
    rw [List.flatMap_cons, rpc.bytes_eq, hannounced, List.append_assoc, List.append_assoc]
      at hahead
    exact (List.append_inj (List.append_cancel_left hahead) hlength).1
  rw [filled, h.filled_of_open hopen, if_neg Bool.false_ne_true,
    Transfer.unmarshal_received cfg.handler h.receiving hsize hsum hfits
      (hreceived.trans hmessage), Option.some.injEq] at hgot
  exact ⟨hgot.symm, by rw [hannounced, hreceived, ← rpc.bytes_eq]⟩

/-- The handler takes for a request the one it is to receive next. -/
lemma Flows.takes_first (h : Flows cfg c) (hopen : c.closed = false)
    (hsize : c.receiving.size = 0) {request : Rpc} (htakes : Takes cfg c request)
    {rest : List Rpc} {ahead : List UInt8} (hexpects : c.call.Expects rest)
    (hfits : ∀ rpc ∈ rest, rpc.Fits)
    (hahead : c.call.announced ++ c.receiving.received ++ ahead = rest.flatMap Rpc.bytes) :
    ∃ rest', rest = request :: rest' ∧
      c.call.announced ++ c.receiving.received = request.bytes := by
  cases htakes with
  | vote hcall hgot =>
      rw [hcall] at hexpects
      obtain ⟨msg, rest', rfl⟩ := hexpects
      obtain ⟨rfl, hbytes⟩ := h.takes_message (.vote msg) hopen hsize hgot
        (by rw [hcall]; rfl) rfl (by rw [hcall]; rfl) (hfits _ List.mem_cons_self) hahead
      exact ⟨rest', rfl, hbytes⟩
  | log hcall hgot =>
      rw [hcall] at hexpects
      obtain ⟨req, rest', rfl⟩ := hexpects
      obtain ⟨rfl, hbytes⟩ := h.takes_message (.log req) hopen hsize hgot
        (by rw [hcall]; rfl) rfl (by rw [hcall]; rfl) (hfits _ List.mem_cons_self) hahead
      exact ⟨rest', rfl, hbytes⟩

lemma receivedInFull_append (tr es : List HandlerCall) :
    receivedInFull (tr ++ es) = receivedInFull tr ++ receivedInFull es := by
  rw [receivedInFull, List.filter_append, List.map_append]
  rfl

namespace Framed

lemma openConnection (cfg : RpcConfig) (stack : ℕ → UInt8) :
    Framed cfg (openConnection cfg stack) [] where
  split := ⟨cfg.rpcs, rfl, fun _ => ⟨trivial, rfl⟩⟩
  inFull := List.prefix_rfl

/-- A step of the caller is none of the handler's. -/
lemma of_same (h : Framed cfg c tr) (hcall : c'.call = c.call)
    (hreceiving : c'.receiving = c.receiving) (hconsumed : c'.consumed = c.consumed)
    (hclosed : c'.closed = c.closed) : Framed cfg c' tr := by
  constructor
  · rw [hcall, hreceiving, hconsumed, hclosed]
    exact h.split
  · rw [hconsumed]
    exact h.inFull

/-- `IdentifyRPC` returns. -/
lemma identifyRPC (h : Framed cfg c tr) (hflows : Flows cfg c) (hcall : c.call = .identifyRPC)
    (hdone : c.receiving.size = 0 ∨ c.failed = true) {frame : StackFrame}
    {identifier : Identifier}
    (hgot : Identifier.layout.unmarshal cfg.handler c.receiving.buffer = some identifier) :
    Framed cfg (c.enter (RecvCall.next frame identifier.identifier) frame.stack) tr := by
  obtain ⟨rest, hsplit, hat⟩ := h.split
  refine ⟨⟨rest, hsplit, fun hopen => ?_⟩, h.inFull⟩
  have hopen' : c.closed = false := hopen
  obtain ⟨-, hconsumed⟩ := hat hopen'
  have hsize : c.receiving.size = 0 := by
    refine hdone.resolve_right ?_
    rw [hflows.filled_of_open hopen']
    exact Bool.false_ne_true
  obtain ⟨rpc, rest', rfl, hreceived⟩ :=
    hflows.identified hcall hsize (hflows.ahead hsplit hconsumed)
  have hsum := hflows.size
  rw [hcall] at hsum
  have hidentifier := Transfer.unmarshal_received cfg.handler hflows.receiving hsize hsum
    rpc.identifier_fits hreceived
  obtain rfl : _ = identifier := Option.some.inj (hidentifier.symm.trans hgot)
  obtain ⟨hexpects, hannounced⟩ := rpc.next_expects frame rest'
  refine ⟨hexpects, ?_⟩
  rw [enter_received, List.append_nil]
  change c.consumed = _ ++ (RecvCall.next frame rpc.identifier).announced
  rw [hannounced, hconsumed, hcall, hreceived, RecvCall.announced, List.append_nil]

/-- The function that receives a message returns. -/
lemma handled (h : Framed cfg c tr) (hfits : ∀ rpc ∈ cfg.rpcs, rpc.Fits) (hflows : Flows cfg c)
    (hdone : c.receiving.size = 0 ∨ c.failed = true) {request : Rpc}
    (htakes : Takes cfg c request) (frame : StackFrame) :
    Framed cfg (c.enter .identifyRPC frame.stack)
      (tr ++ [⟨request, !c.failed, frame.metadata⟩]) := by
  obtain ⟨rest, hsplit, hat⟩ := h.split
  rcases Bool.eq_false_or_eq_true c.closed with hclosed | hopen
  · -- a `Recv` that waits for something on a closed socket has failed
    have hfailed : c.failed = true :=
      hdone.resolve_left (hflows.closed hclosed).1.ne'
    have hsame : receivedInFull (tr ++ [⟨request, !c.failed, frame.metadata⟩]) =
        receivedInFull tr := by
      rw [receivedInFull_append, hfailed]
      exact List.append_nil _
    refine ⟨⟨rest, hsame ▸ hsplit, fun hopen => ?_⟩, hsame ▸ h.inFull⟩
    rw [enter, hclosed] at hopen
    cases hopen
  · obtain ⟨hexpects, hconsumed⟩ := hat hopen
    have hfailed : c.failed = false := hflows.filled_of_open hopen
    have hsize : c.receiving.size = 0 := hdone.resolve_right (by simp [hfailed])
    obtain ⟨rest', rfl, hbytes⟩ := hflows.takes_first hopen hsize htakes hexpects
      (fun rpc hrpc => hfits rpc (hsplit ▸ List.mem_append_right _ hrpc))
      (hflows.ahead hsplit hconsumed)
    have hmore : receivedInFull (tr ++ [⟨request, !c.failed, frame.metadata⟩]) =
        receivedInFull tr ++ [request] := by
      rw [receivedInFull_append, hfailed]
      rfl
    have hall : c.consumed = (receivedInFull tr ++ [request]).flatMap Rpc.bytes := by
      rw [hconsumed, List.append_assoc, hbytes, List.flatMap_append, List.flatMap_singleton]
    refine ⟨⟨rest', ?_, fun _ => ⟨trivial, ?_⟩⟩, ?_⟩
    · rw [hmore, hsplit, List.append_assoc]
      rfl
    · rw [hmore, enter_received, List.append_nil]
      exact hall.trans (List.append_nil _).symm
    · rw [hmore, ← hall]
      exact List.prefix_rfl

/-- One step of either end. -/
theorem step (h : Framed cfg c tr) (hfits : ∀ rpc ∈ cfg.rpcs, rpc.Fits) (hflows : Flows cfg c)
    {l : RpcLabel} (hstep : c.act cfg l = some (c', es)) : Framed cfg c' (tr ++ es) := by
  cases l with
  | marshal stack =>
      obtain ⟨_, hact, rfl, rfl⟩ := exists_of_map_eq_some hstep
      obtain ⟨call, pending, t, -, -, -, -, -, rfl⟩ := marshal_cases hact
      exact (List.append_nil tr).symm ▸ h.of_same rfl rfl rfl rfl
  | send k =>
      obtain ⟨_, hact, rfl, rfl⟩ := exists_of_map_eq_some hstep
      obtain ⟨t, t', bytes, -, -, -, -, -, rfl⟩ := send_cases hact
      exact (List.append_nil tr).symm ▸ h.of_same rfl rfl rfl rfl
  | sendReturns =>
      obtain ⟨_, hact, rfl, rfl⟩ := exists_of_map_eq_some hstep
      obtain ⟨t, -, -, rfl⟩ := sendReturns_cases hact
      exact (List.append_nil tr).symm ▸ h.of_same rfl rfl rfl rfl
  | recv k =>
      obtain ⟨_, hact, rfl, rfl⟩ := exists_of_map_eq_some hstep
      obtain ⟨t, -, hk, hstream, hclosed, hrecv, rfl⟩ := recv_cases hact
      have hlength : (c.stream.take k).length = k := by rw [List.length_take]; omega
      obtain ⟨hreceived, -⟩ := Transfer.recv_spec (hlength.le.trans hk) hrecv
      obtain ⟨rest, hsplit, hat⟩ := h.split
      obtain ⟨hexpects, hconsumed⟩ := hat hclosed
      rw [List.append_nil]
      refine ⟨⟨rest, hsplit, fun _ => ⟨hexpects, ?_⟩⟩, h.inFull.trans (List.prefix_append _ _)⟩
      simp only [hconsumed, hreceived, List.append_assoc]
  | recvFails =>
      obtain ⟨_, hact, rfl, rfl⟩ := exists_of_map_eq_some hstep
      obtain ⟨-, -, -, rfl⟩ := recvFails_cases hact
      obtain ⟨rest, hsplit, -⟩ := h.split
      rw [List.append_nil]
      exact ⟨⟨rest, hsplit, nofun⟩, h.inFull⟩
  | recvReturns frame =>
      obtain ⟨hdone, ⟨hcall, rfl, identifier, hgot, rfl⟩ | ⟨request, htakes, rfl, rfl⟩⟩ :=
        recvReturns_cases hstep
      · rw [List.append_nil]
        exact h.identifyRPC hflows hcall hdone hgot
      · exact h.handled hfits hflows hdone htakes frame

end Framed

/-- An open connection that is at rest is at its end: there is no beginning of an RPC. -/
lemma Framed.ends (h : Framed cfg c tr) (hflows : Flows cfg c) (huncut : cfg.cutAt = none)
    (hopen : c.closed = false) (hrest : ∀ l, c.act cfg l = none) :
    receivedInFull tr = cfg.rpcs ∧ c.call = .identifyRPC ∧ c.receiving.offset = 0 ∧
      c.consumed = cfg.rpcs.flatMap Rpc.bytes := by
  obtain ⟨hsending, hpending⟩ := hflows.caller_ends huncut hrest
  obtain ⟨hpos, hstream⟩ := hflows.handler_waits hopen hrest
  have hwrite : c.toWrite = [] := by
    rw [toWrite, hsending, hpending]
    rfl
  obtain ⟨rest, hsplit, hat⟩ := h.split
  obtain ⟨hexpects, hconsumed⟩ := hat hopen
  have hahead := hflows.ahead hsplit hconsumed
  rw [hstream, hwrite, List.append_nil, List.append_nil] at hahead
  have hlength := congrArg List.length hahead
  rw [List.length_append, Transfer.received_length hflows.receiving] at hlength
  have hsize := hflows.size
  have hnil : rest = [] := by
    by_contra hne
    have hle := hexpects.length_le hne
    omega
  rw [hnil] at hsplit hlength hexpects
  have hcall := hexpects.eq_identifyRPC
  rw [hcall] at hlength
  have hoffset : 0 + c.receiving.offset = 0 := hlength
  rw [List.append_nil] at hsplit
  refine ⟨hsplit.symm, hcall, by omega, ?_⟩
  have hall := hflows.written
  rw [hwrite, List.append_nil, ← hflows.consumed, hstream, List.append_nil] at hall
  exact hall

theorem framed_of_run (hfits : ∀ rpc ∈ cfg.rpcs, rpc.Fits) {ok : RpcConnection → RpcLabel → Prop}
    (hrun : (rpcConnection cfg).Run ok c tr) : Framed cfg c tr := by
  refine Run.invariant ?_ ?_ hrun
  · rintro _ ⟨stack, rfl⟩
    exact .openConnection cfg stack
  · intro c tr l c' es hrun hframed _ hstep
    exact hframed.step hfits (flows_of_run hrun) hstep

end RpcConnection

open RpcConnection

/-- The handler takes in the RPCs, and nothing but the RPCs. -/
structure DecodesRpcs (cfg : RpcConfig) (c : RpcConnection) (tr : List HandlerCall) : Prop where
  complete : ∀ e ∈ tr, e.complete = true
  inOrder : tr.map HandlerCall.request <+: cfg.rpcs
  consumed : c.consumed <+: cfg.rpcs.flatMap Rpc.bytes
  /-- When nothing more can happen, it has taken in all of them, and waits for the next. -/
  atRest : (∀ l, (rpcConnection cfg).step c l = none) →
    tr.map HandlerCall.request = cfg.rpcs ∧ c.consumed = cfg.rpcs.flatMap Rpc.bytes ∧
      c.call = .identifyRPC ∧ c.receiving.offset = 0
  /-- This is what every run comes to. -/
  terminates : ∀ run : ℕ → RpcConnection, run 0 = c →
    ¬ ∀ n, ∃ l es, (rpcConnection cfg).step (run n) l = some (run (n + 1), es)

/-- **RPC framing.**  However the bytes are split, `ServerHandler` decodes exactly the RPCs that
were sent, in order and with their fields. -/
theorem rpcs_decoded {cfg : RpcConfig} (hfits : ∀ rpc ∈ cfg.rpcs, rpc.Fits)
    (huncut : cfg.cutAt = none) {c : RpcConnection} {tr : List HandlerCall}
    (hrun : (rpcConnection cfg).Run anyStep c tr) : DecodesRpcs cfg c tr := by
  have hflows := flows_of_run hrun
  have hframed := framed_of_run hfits hrun
  have hcomplete := complete_of_uncut huncut hrun
  have hall : receivedInFull tr = tr.map HandlerCall.request := by
    rw [receivedInFull, List.filter_eq_self.2 hcomplete]
  refine ⟨hcomplete, ?_, ?_, fun hrest => ?_, ?_⟩
  · obtain ⟨rest, hsplit, -⟩ := hframed.split
    exact ⟨rest, hall ▸ hsplit.symm⟩
  · exact ⟨c.stream ++ c.toWrite, by
      rw [← List.append_assoc, hflows.consumed, hflows.written]⟩
  · obtain ⟨hrpcs, hcall, hoffset, hconsumed⟩ :=
      hframed.ends hflows huncut (hflows.open_of_uncut huncut) hrest
    exact ⟨hall ▸ hrpcs, hconsumed, hcall, hoffset⟩
  · rintro run rfl
    refine no_infinite_run (I := Flows cfg) work (fun c l c' es hflows hstep => ?_) hflows
    exact ⟨hflows.step hstep,
      work_step (hflows.filled_of_uncut huncut) (not_recvFails hflows huncut hstep) hstep⟩

/-- Two RPCs with fields that look like identifiers, between hosts of either byte order. -/
def twoRpcs : RpcConfig where
  rpcs := [.vote ⟨1, 0, 0, 1⟩, .log ⟨0, 1, -1, 1, 0, -1, 1, 0⟩]
  handler := .big

/-- A call whose bytes are sent in some pieces and received in others. -/
def inPieces (sent received : List ℕ) : List RpcLabel :=
  [.marshal fun _ => 255] ++ sent.map .send ++ [.sendReturns] ++ received.map .recv ++
    [.recvReturns default]

theorem rpcs_decoded_inPieces : ∃ c tr, (rpcConnection twoRpcs).Run anyStep c tr ∧
    tr.map HandlerCall.request = twoRpcs.rpcs ∧ DecodesRpcs twoRpcs c tr := by
  obtain ⟨c, tr, hrun, hall⟩ := run_of_exec (rpcConnection twoRpcs) anyStep
    (openConnection twoRpcs fun _ => 0) ⟨_, rfl⟩
    (inPieces [1, 3] [2, 2] ++ inPieces [16] [5, 11] ++ inPieces [4] [1, 1, 1, 1] ++
      inPieces [30, 2] [7, 25])
    (P := fun _ tr => tr.map HandlerCall.request = twoRpcs.rpcs) (by decide +kernel)
  exact ⟨c, tr, hrun, hall, rpcs_decoded (by decide) rfl hrun⟩

end LaptopRaft
