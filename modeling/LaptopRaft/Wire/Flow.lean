import LaptopRaft.Wire.Connection

/-!
# Where the bytes of a connection are

Every byte of the RPCs has been consumed, or is in the stream, or has still to be written
(`Flows`), at every point of a run, and each of these is a piece of the bytes of all RPCs.  What
the transfers at the two ends are at is part of it: they stay within their buffers, and the one of
the handler is as large as the message it waits for.

A caller that does not die comes to the end of its calls, and the handler goes on as long as
there are bytes for it.  The two come to rest, since every step that is not a failure of `Recv`
takes from the `work` that is left.
-/

namespace LaptopRaft

open TransitionSystem

/-! ## What a call sends, and what a function receives -/

lemma stackBuffer_length (stack : ℕ → UInt8) (size : ℕ) :
    (stackBuffer stack size).length = size := by
  rw [stackBuffer, List.length_map, List.length_range]

/-- A buffer that is large enough takes the object, and `Send` sends just that. -/
lemma startSend_spec {α : Type*} {L : Layout α} {host : ByteOrder} {a : α} {buffer : List UInt8}
    (h : L.size ≤ buffer.length) : ∃ t, startSend L host a buffer = some t ∧
      t.remaining = L.bytes a ∧ t.size = L.size ∧ t.InBounds := by
  refine ⟨_, by rw [startSend, Layout.marshal_eq h, Option.map_some], ?_, rfl, ?_⟩
  · rw [Transfer.remaining, List.drop_zero, List.take_left' (Layout.bytes_length a)]
  · simp [Transfer.InBounds]

/-- The size of its buffer suffices for every call. -/
theorem SendCall.start_spec (call : SendCall) (host : ByteOrder) (stack : ℕ → UInt8) :
    ∃ t, call.start host stack = some t ∧ t.remaining = call.bytes ∧ t.size = call.size ∧
      t.InBounds := by
  cases call with
  | sendIdentifier identifier =>
      exact startSend_spec (by rw [stackBuffer_length]; decide)
  | sendRequestVote msg => exact startSend_spec (by rw [stackBuffer_length]; decide)
  | sendLogRequest req => exact startSend_spec (by rw [stackBuffer_length]; decide)

namespace RecvCall

/-- The size of the message the function receives. -/
def size : RecvCall → ℕ
  | identifyRPC => Identifier.layout.size
  | recvRequestVote _ => RequestVoteMessage.layout.size
  | recvLogRequest _ => LogRequest.layout.size

lemma size_pos (call : RecvCall) : 0 < call.size := by
  cases call <;> simp only [size] <;> decide

/-- The size of its buffer suffices for every function. -/
theorem start_spec (call : RecvCall) (stack : ℕ → UInt8) :
    (call.start stack).offset = 0 ∧ (call.start stack).size = call.size ∧
      (call.start stack).InBounds := by
  cases call <;> refine ⟨rfl, rfl, ?_⟩ <;>
    simp only [start, Transfer.InBounds, stackBuffer_length] <;> decide

end RecvCall

/-! ## The steps -/

namespace RpcConnection

variable {cfg : RpcConfig} {c c' : RpcConnection} {es : List HandlerCall}

lemma marshal_cases {stack : ℕ → UInt8} (h : c.marshal cfg stack = some c') :
    ∃ call pending t, c.sending = none ∧ c.pending = call :: pending ∧
      t.remaining = call.bytes ∧ t.size = call.size ∧ t.InBounds ∧
      c' = { c with pending := pending, sending := some t } := by
  unfold marshal at h
  split at h
  · rename_i call pending hsending hpending
    obtain ⟨t, ht, hremaining, hsize, hbounds⟩ := call.start_spec cfg.caller stack
    rw [ht, Option.map_some, Option.some.injEq] at h
    exact ⟨call, pending, t, hsending, hpending, hremaining, hsize, hbounds, h.symm⟩
  · cases h

lemma send_cases {k : ℕ} (h : c.send cfg k = some c') :
    ∃ t t' bytes, c.sending = some t ∧ 0 < k ∧ k ≤ t.size ∧ alive cfg (c.written.length + k) ∧
      t.send k = some (t', bytes) ∧
      c' = { c with
        sending := some t', written := c.written ++ bytes, stream := c.stream ++ bytes } := by
  unfold send at h
  split at h
  · rename_i t hsending
    split at h
    · rename_i hk
      obtain ⟨⟨t', bytes⟩, hsend, rfl⟩ := Option.map_eq_some_iff.1 h
      exact ⟨t, t', bytes, hsending, hk.1, hk.2.1, hk.2.2, hsend, rfl⟩
    · cases h
  · cases h

lemma sendReturns_cases (h : c.sendReturns = some c') :
    ∃ t, c.sending = some t ∧ t.size = 0 ∧ c' = { c with sending := none } := by
  unfold sendReturns at h
  split at h
  · rename_i t hsending
    split at h
    · rename_i hsize
      exact ⟨t, hsending, hsize, (Option.some.inj h).symm⟩
    · cases h
  · cases h

lemma recv_cases {k : ℕ} (h : c.recv k = some c') :
    ∃ t, 0 < k ∧ k ≤ c.receiving.size ∧ k ≤ c.stream.length ∧ c.closed = false ∧
      c.receiving.recv (c.stream.take k) = some t ∧
      c' = { c with
        receiving := t, stream := c.stream.drop k, consumed := c.consumed ++ c.stream.take k } := by
  unfold recv at h
  split at h
  · rename_i hk
    obtain ⟨t, ht, rfl⟩ := Option.map_eq_some_iff.1 h
    exact ⟨t, hk.1, hk.2.1, hk.2.2.1, hk.2.2.2, ht, rfl⟩
  · cases h

lemma recvFails_cases (h : c.recvFails cfg = some c') :
    0 < c.receiving.size ∧ c.failed = false ∧
      (c.closed = true ∨ ¬ alive cfg (c.written.length + 1)) ∧
      c' = { c with failed := true, closed := true } := by
  unfold recvFails at h
  split at h
  · rename_i hfail
    exact ⟨hfail.1, hfail.2.1, hfail.2.2.imp_right And.right, (Option.some.inj h).symm⟩
  · cases h

/-- The request that the handler has when the function that receives returns. -/
inductive Takes (cfg : RpcConfig) (c : RpcConnection) : Rpc → Prop
  | vote {msg got : RequestVoteMessage} : c.call = .recvRequestVote msg →
      c.filled cfg RequestVoteMessage.layout msg = some got → Takes cfg c (.vote got)
  | log {req got : LogRequest} : c.call = .recvLogRequest req →
      c.filled cfg LogRequest.layout req = some got → Takes cfg c (.log got)

theorem recvReturns_cases {frame : StackFrame} (h : c.recvReturns cfg frame = some (c', es)) :
    (c.receiving.size = 0 ∨ c.failed = true) ∧
      ((c.call = .identifyRPC ∧ es = [] ∧ ∃ identifier,
          Identifier.layout.unmarshal cfg.handler c.receiving.buffer = some identifier ∧
          c' = c.enter (RecvCall.next frame identifier.identifier) frame.stack) ∨
        (∃ request, Takes cfg c request ∧ es = [⟨request, !c.failed, frame.metadata⟩] ∧
          c' = c.enter .identifyRPC frame.stack)) := by
  unfold recvReturns at h
  split at h
  · rename_i hdone
    refine ⟨hdone, ?_⟩
    split at h
    · rename_i hcall
      obtain ⟨identifier, hidentifier, heq⟩ := Option.map_eq_some_iff.1 h
      obtain ⟨rfl, rfl⟩ := Prod.mk.inj heq
      exact .inl ⟨hcall, rfl, identifier, hidentifier, rfl⟩
    · rename_i msg hcall
      obtain ⟨got, hgot, heq⟩ := Option.map_eq_some_iff.1 h
      obtain ⟨rfl, rfl⟩ := Prod.mk.inj heq
      exact .inr ⟨.vote got, .vote hcall hgot, rfl, rfl⟩
    · rename_i req hcall
      obtain ⟨got, hgot, heq⟩ := Option.map_eq_some_iff.1 h
      obtain ⟨rfl, rfl⟩ := Prod.mk.inj heq
      exact .inr ⟨.log got, .log hcall hgot, rfl, rfl⟩
  · cases h

/-- Between two returns the handler makes no call and stays in the function that receives. -/
theorem quiet_or_returns {l : RpcLabel} (h : c.act cfg l = some (c', es)) :
    (es = [] ∧ c'.call = c.call) ∨ ∃ frame, c.recvReturns cfg frame = some (c', es) := by
  cases l with
  | marshal stack =>
      obtain ⟨_, hact, rfl, rfl⟩ := exists_of_map_eq_some h
      obtain ⟨call, pending, t, -, -, -, -, -, rfl⟩ := marshal_cases hact
      exact .inl ⟨rfl, rfl⟩
  | send k =>
      obtain ⟨_, hact, rfl, rfl⟩ := exists_of_map_eq_some h
      obtain ⟨t, t', bytes, -, -, -, -, -, rfl⟩ := send_cases hact
      exact .inl ⟨rfl, rfl⟩
  | sendReturns =>
      obtain ⟨_, hact, rfl, rfl⟩ := exists_of_map_eq_some h
      obtain ⟨t, -, -, rfl⟩ := sendReturns_cases hact
      exact .inl ⟨rfl, rfl⟩
  | recv k =>
      obtain ⟨_, hact, rfl, rfl⟩ := exists_of_map_eq_some h
      obtain ⟨t, -, -, -, -, -, rfl⟩ := recv_cases hact
      exact .inl ⟨rfl, rfl⟩
  | recvFails =>
      obtain ⟨_, hact, rfl, rfl⟩ := exists_of_map_eq_some h
      obtain ⟨-, -, -, rfl⟩ := recvFails_cases hact
      exact .inl ⟨rfl, rfl⟩
  | recvReturns frame => exact .inr ⟨frame, h⟩

/-! ## The bytes on their way -/

/-- What the caller has still to write. -/
def toWrite (c : RpcConnection) : List UInt8 :=
  (c.sending.map Transfer.remaining).getD [] ++ c.pending.flatMap SendCall.bytes

/-- Every byte of the RPCs is at one place, and in order: consumed by the handler, in the stream,
or still to be written. -/
structure Flows (cfg : RpcConfig) (c : RpcConnection) : Prop where
  sending : ∀ t ∈ c.sending, t.InBounds
  receiving : c.receiving.InBounds
  size : c.receiving.offset + c.receiving.size = c.call.size
  written : c.written ++ c.toWrite = cfg.rpcs.flatMap Rpc.bytes
  consumed : c.consumed ++ c.stream = c.written
  alive : alive cfg c.written.length
  /-- A closed socket gives no `Recv` what it waits for. -/
  closed : c.closed = true → 0 < c.receiving.size ∧ cfg.cutAt ≠ none
  failed : c.failed = true → c.closed = true

namespace Flows

lemma openConnection (cfg : RpcConfig) (stack : ℕ → UInt8) :
    Flows cfg (openConnection cfg stack) where
  sending := nofun
  receiving := (RecvCall.identifyRPC.start_spec stack).2.2
  size := rfl
  written := (List.flatMap_assoc).trans rfl
  consumed := rfl
  alive := fun _ _ => Nat.zero_le _
  closed := nofun
  failed := nofun

lemma enter (h : Flows cfg c) (call : RecvCall) (stack : ℕ → UInt8) :
    Flows cfg (c.enter call stack) where
  sending := h.sending
  receiving := (call.start_spec stack).2.2
  size := by
    obtain ⟨hoffset, hsize, -⟩ := call.start_spec stack
    rw [RpcConnection.enter, hoffset, hsize, Nat.zero_add]
  written := h.written
  consumed := h.consumed
  alive := h.alive
  closed hclosed := by
    obtain ⟨-, hsize, -⟩ := call.start_spec stack
    exact ⟨hsize ▸ call.size_pos, (h.closed hclosed).2⟩
  failed := nofun

/-- One step of either end. -/
theorem step (h : Flows cfg c) {l : RpcLabel} (hstep : c.act cfg l = some (c', es)) :
    Flows cfg c' := by
  cases l with
  | marshal stack =>
      obtain ⟨_, hact, rfl, -⟩ := exists_of_map_eq_some hstep
      obtain ⟨call, pending, t, hsending, hpending, hremaining, -, hbounds, rfl⟩ :=
        marshal_cases hact
      refine { h with sending := ?_, written := ?_ }
      · rintro t' ⟨⟩
        exact hbounds
      · have hbefore := h.written
        simp only [toWrite, hsending, hpending, Option.map_none, Option.getD_none,
          List.nil_append, List.flatMap_cons] at hbefore
        simp only [toWrite, Option.map_some, Option.getD_some, hremaining]
        exact hbefore
  | send k =>
      obtain ⟨_, hact, rfl, -⟩ := exists_of_map_eq_some hstep
      obtain ⟨t, t', bytes, hsending, -, hk, halive, hsend, rfl⟩ := send_cases hact
      obtain ⟨hremaining, -, hlength, hbounds⟩ := Transfer.send_spec hk hsend
      refine { h with sending := ?_, written := ?_, consumed := ?_, alive := ?_ }
      · rintro t'' ⟨⟩
        exact hbounds (h.sending t hsending)
      · have hbefore := h.written
        simp only [toWrite, hsending, Option.map_some, Option.getD_some, hremaining] at hbefore
        simpa only [toWrite, Option.map_some, Option.getD_some, List.append_assoc] using hbefore
      · simp only [← h.consumed, List.append_assoc]
      · simpa only [List.length_append, hlength] using halive
  | sendReturns =>
      obtain ⟨_, hact, rfl, -⟩ := exists_of_map_eq_some hstep
      obtain ⟨t, hsending, hsize, rfl⟩ := sendReturns_cases hact
      refine { h with sending := nofun, written := ?_ }
      have hbefore := h.written
      simpa only [toWrite, hsending, Option.map_some, Option.getD_some, Option.map_none,
        Option.getD_none, Transfer.remaining_of_size_eq_zero hsize] using hbefore
  | recv k =>
      obtain ⟨_, hact, rfl, -⟩ := exists_of_map_eq_some hstep
      obtain ⟨t, -, hk, hstream, hclosed, hrecv, rfl⟩ := recv_cases hact
      have hlength : (c.stream.take k).length = k := by rw [List.length_take]; omega
      obtain ⟨-, hsum, -, hbounds⟩ := Transfer.recv_spec (hlength.le.trans hk) hrecv
      refine { h with
        receiving := hbounds h.receiving
        size := hsum.trans h.size
        consumed := ?_
        closed := fun hclosed' => ?_ }
      · rw [List.append_assoc, List.take_append_drop]
        exact h.consumed
      · exact absurd (hclosed.symm.trans hclosed') Bool.false_ne_true
  | recvFails =>
      obtain ⟨_, hact, rfl, -⟩ := exists_of_map_eq_some hstep
      obtain ⟨hsize, -, hcut, rfl⟩ := recvFails_cases hact
      refine { h with closed := fun _ => ⟨hsize, ?_⟩, failed := fun _ => rfl }
      rcases hcut with hclosed | hdead
      · exact (h.closed hclosed).2
      · intro hnone
        exact hdead fun k hk => by simp [hnone] at hk
  | recvReturns frame =>
      obtain ⟨-, ⟨-, -, identifier, -, rfl⟩ | ⟨request, -, -, rfl⟩⟩ := recvReturns_cases hstep
      · exact h.enter _ _
      · exact h.enter _ _

end Flows

/-! ## Progress -/

/-- The work left.  A byte counts more as long as it has not been written than in the stream,
and a call more than the return from it. -/
def work (c : RpcConnection) : ℕ :=
  3 * ((c.sending.map Transfer.size).getD 0 + (c.pending.map SendCall.size).sum) +
    2 * c.pending.length + (if c.sending = none then 0 else 1) +
    2 * c.stream.length + (if c.receiving.size = 0 then 1 else 0)

/-- While no `Recv` fails, every step is progress. -/
lemma work_step (hopen : c.failed = false) {l : RpcLabel} (hl : l ≠ .recvFails)
    (hstep : c.act cfg l = some (c', es)) : c'.work < c.work := by
  cases l with
  | marshal stack =>
      obtain ⟨_, hact, rfl, -⟩ := exists_of_map_eq_some hstep
      obtain ⟨call, pending, t, hsending, hpending, -, hsize, -, rfl⟩ := marshal_cases hact
      simp only [work, hsending, hpending, hsize, Option.map_some, Option.map_none,
        Option.getD_some, Option.getD_none, List.map_cons, List.sum_cons, List.length_cons,
        reduceCtorEq, if_true, if_false]
      omega
  | send k =>
      obtain ⟨_, hact, rfl, -⟩ := exists_of_map_eq_some hstep
      obtain ⟨t, t', bytes, hsending, hpos, hk, -, hsend, rfl⟩ := send_cases hact
      obtain ⟨-, hsize, hlength, -⟩ := Transfer.send_spec hk hsend
      simp only [work, hsending, hsize, hlength, Option.map_some, Option.getD_some,
        List.length_append, reduceCtorEq, if_false]
      omega
  | sendReturns =>
      obtain ⟨_, hact, rfl, -⟩ := exists_of_map_eq_some hstep
      obtain ⟨t, hsending, hsize, rfl⟩ := sendReturns_cases hact
      simp only [work, hsending, hsize, Option.map_some, Option.map_none, Option.getD_some,
        Option.getD_none, reduceCtorEq, if_true, if_false]
      omega
  | recv k =>
      obtain ⟨_, hact, rfl, -⟩ := exists_of_map_eq_some hstep
      obtain ⟨t, hpos, hk, hstream, -, hrecv, rfl⟩ := recv_cases hact
      simp only [work, List.length_drop]
      split_ifs <;> omega
  | recvFails => exact (hl rfl).elim
  | recvReturns frame =>
      have henter : ∀ call stack, c.receiving.size = 0 → (c.enter call stack).work < c.work := by
        intro call stack hsize
        have hpos : (c.enter call stack).receiving.size ≠ 0 := by
          rw [enter, (call.start_spec stack).2.1]
          exact call.size_pos.ne'
        rw [work, work, if_neg hpos, if_pos hsize]
        exact Nat.lt_succ_self _
      obtain ⟨hdone, ⟨-, -, identifier, -, rfl⟩ | ⟨request, -, -, rfl⟩⟩ :=
        recvReturns_cases hstep
      · exact henter _ _ (hdone.resolve_right (by simp [hopen]))
      · exact henter _ _ (hdone.resolve_right (by simp [hopen]))

namespace Flows

/-- A caller that does not die comes to the end of its calls. -/
lemma caller_ends (h : Flows cfg c) (huncut : cfg.cutAt = none)
    (hrest : ∀ l, c.act cfg l = none) : c.sending = none ∧ c.pending = [] := by
  have hsending : c.sending = none := by
    by_contra hne
    obtain ⟨t, ht⟩ := Option.ne_none_iff_exists'.1 hne
    rcases Nat.eq_zero_or_pos t.size with hsize | hpos
    · have hstep := hrest .sendReturns
      rw [act, sendReturns, ht] at hstep
      simp only [if_pos hsize] at hstep
      cases hstep
    · have hstep := hrest (.send 1)
      have halive : RpcConnection.alive cfg (c.written.length + 1) :=
        fun k hk => by simp [huncut] at hk
      obtain ⟨p, hp⟩ := Transfer.send_defined (h.sending t ht) (k := 1) hpos
      rw [act, send, ht] at hstep
      simp only [hp, Nat.one_pos, Nat.succ_le_of_lt hpos, halive, and_self, if_true] at hstep
      cases hstep
  refine ⟨hsending, ?_⟩
  by_contra hne
  obtain ⟨call, pending, hpending⟩ := List.exists_cons_of_ne_nil hne
  obtain ⟨t, ht, -⟩ := call.start_spec cfg.caller fun _ => 0
  have hstep := hrest (.marshal fun _ => 0)
  rw [act, marshal, hsending, hpending] at hstep
  simp only [ht] at hstep
  cases hstep

/-- The buffer of the handler has what it unmarshals. -/
lemma recvReturns_defined (h : Flows cfg c) (hsize : c.receiving.size = 0) (frame : StackFrame) :
    ∃ p, c.recvReturns cfg frame = some p := by
  have hroom : c.call.size ≤ c.receiving.buffer.length := by
    have hbounds := h.receiving
    unfold Transfer.InBounds at hbounds
    rw [← h.size]
    exact hbounds
  rw [recvReturns, if_pos (Or.inl hsize)]
  cases hcall : c.call with
  | identifyRPC =>
      rw [hcall] at hroom
      exact ⟨_, by rw [Layout.unmarshal_eq hroom, Option.map_some]⟩
  | recvRequestVote msg =>
      rw [hcall] at hroom
      simp only [filled]
      split
      · exact ⟨_, rfl⟩
      · exact ⟨_, by rw [Layout.unmarshal_eq hroom, Option.map_some]⟩
  | recvLogRequest req =>
      rw [hcall] at hroom
      simp only [filled]
      split
      · exact ⟨_, rfl⟩
      · exact ⟨_, by rw [Layout.unmarshal_eq hroom, Option.map_some]⟩

/-- The handler goes on as long as there are bytes for it. -/
lemma handler_waits (h : Flows cfg c) (hopen : c.closed = false)
    (hrest : ∀ l, c.act cfg l = none) : 0 < c.receiving.size ∧ c.stream = [] := by
  have hpos : 0 < c.receiving.size := by
    by_contra hzero
    have hsize : c.receiving.size = 0 := Nat.eq_zero_of_not_pos hzero
    obtain ⟨p, hp⟩ := h.recvReturns_defined hsize default
    have hstep := hrest (.recvReturns default)
    rw [act, hp] at hstep
    cases hstep
  refine ⟨hpos, ?_⟩
  by_contra hne
  have hstream : 1 ≤ c.stream.length := List.length_pos_iff.2 hne
  have hlength : (c.stream.take 1).length ≤ c.receiving.size := by
    rw [List.length_take]
    omega
  obtain ⟨t, ht⟩ := Transfer.recv_defined h.receiving hlength
  have hstep := hrest (.recv 1)
  rw [act, recv, if_pos ⟨Nat.one_pos, hpos, hstream, hopen⟩, ht] at hstep
  cases hstep

end Flows

/-! ## The runs -/

theorem flows_of_run {ok : RpcConnection → RpcLabel → Prop}
    (hrun : (rpcConnection cfg).Run ok c tr) : Flows cfg c := by
  refine Run.invariant (I := fun c _ => Flows cfg c) ?_ ?_ hrun
  · rintro _ ⟨stack, rfl⟩
    exact .openConnection cfg stack
  · intro c tr l c' es _ hflows _ hstep
    exact hflows.step hstep

lemma Flows.open_of_uncut (h : Flows cfg c) (huncut : cfg.cutAt = none) : c.closed = false :=
  Bool.eq_false_of_not_eq_true fun hclosed => (h.closed hclosed).2 huncut

/-- A `Recv` that failed has closed the socket. -/
lemma Flows.filled_of_open (h : Flows cfg c) (hopen : c.closed = false) : c.failed = false :=
  Bool.eq_false_of_not_eq_true fun hfailed =>
    absurd (hopen.symm.trans (h.failed hfailed)) Bool.false_ne_true

lemma Flows.filled_of_uncut (h : Flows cfg c) (huncut : cfg.cutAt = none) : c.failed = false :=
  h.filled_of_open (h.open_of_uncut huncut)

/-- Only a failed `Recv` leaves a request incomplete. -/
lemma complete_of_act (hfilled : c.failed = false) {l : RpcLabel}
    (hstep : c.act cfg l = some (c', es)) : ∀ e ∈ es, e.complete = true := by
  obtain ⟨rfl, -⟩ | ⟨frame, hreturns⟩ := quiet_or_returns hstep
  · exact List.forall_mem_nil _
  · obtain ⟨-, ⟨-, rfl, -⟩ | ⟨request, -, rfl, -⟩⟩ := recvReturns_cases hreturns
    · exact List.forall_mem_nil _
    · intro e he
      rw [List.mem_singleton.1 he, hfilled]
      rfl

lemma complete_of_uncut (huncut : cfg.cutAt = none) {ok : RpcConnection → RpcLabel → Prop}
    (hrun : (rpcConnection cfg).Run ok c tr) : ∀ e ∈ tr, e.complete = true := by
  refine Run.invariant (I := fun _ tr => ∀ e ∈ tr, e.complete = true)
    (fun _ _ => List.forall_mem_nil _) ?_ hrun
  intro c tr l c' es hrun hcomplete _ hstep e he
  rcases List.mem_append.1 he with hbefore | hnow
  · exact hcomplete e hbefore
  · exact complete_of_act ((flows_of_run hrun).filled_of_uncut huncut) hstep e hnow

lemma not_recvFails (hflows : Flows cfg c) (huncut : cfg.cutAt = none) {l : RpcLabel}
    (hstep : c.act cfg l = some (c', es)) : l ≠ .recvFails := by
  rintro rfl
  obtain ⟨_, hact, rfl, -⟩ := exists_of_map_eq_some hstep
  obtain ⟨-, -, -, rfl⟩ := recvFails_cases hact
  exact ((hflows.step hstep).closed rfl).2 huncut

end RpcConnection

end LaptopRaft
