import LaptopRaft.Wire.Rpcs

/-!
# A connection that is cut

When `Recv` gives up, the function around it returns all the same, and whether anybody notices is
up to what it received.  A log request is made with the leader id `-1`, and `AppendLogHandler`
asks for that before it goes on.  A vote request has no value that says so: `CandidateVoteHandler`
hands `GetVoteResponse` an object that nobody filled.  On the calling side `RecvVoteResponse`
unmarshals its buffer whatever `Recv` said.

So what a cut does depends on what lies on the stack.  It is harmless to a handler that is at a log
request, or whose stale vote request is of no higher term than the metadata and comes when the
heartbeat flag is set already (`HandlerCall.Harmless`), and to a caller whose stale response is
neither of a higher term nor a vote that still counts (`ResponseCall.Harmless`).  These are
exactly the cases in which it changes nothing.
-/

namespace LaptopRaft

open TransitionSystem

/-! ## What the handlers do with something that is no request -/

namespace ServerMetadata

variable {md : ServerMetadata}

/-- `GetVoteResponse` always answers, and always sets the heartbeat flag. -/
lemma handleRpc_vote (h : md.Sized) (msg : RequestVoteMessage) :
    md.handleRpc (.vote msg) = some ((md.adoptCandidate msg).setHeartbeat true) := by
  obtain ⟨⟨md', res⟩, hanswer⟩ : ∃ p, md.getVoteResponse msg = some p := by
    exact ⟨_, by rw [getVoteResponse, getLastTerm_eq h.logSize]; rfl⟩
  rw [handleRpc, hanswer, Option.map_some, (getVoteResponse_cases hanswer).state]

/-- A vote request leaves the metadata as they are if it is of no higher term and the flag is set
already. -/
theorem handleRpc_vote_unchanged (h : md.Sized) (msg : RequestVoteMessage) :
    md.handleRpc (.vote msg) = some md ↔
      md.heartbeat = true ∧ msg.currentTerm ≤ md.currentTerm := by
  rw [handleRpc_vote h, Option.some.injEq, adoptCandidate]
  constructor
  · intro hsame
    refine ⟨congrArg heartbeat hsame.symm, ?_⟩
    by_contra hhigher
    rw [not_le] at hhigher
    rw [if_pos hhigher] at hsame
    have hterm : msg.currentTerm = md.currentTerm := congrArg currentTerm hsame
    omega
  · rintro ⟨hheartbeat, hterm⟩
    rw [if_neg (not_lt.2 hterm), ← hheartbeat]
    rfl

/-- A log request that no `Recv` filled is recognised. -/
lemma handleRpc_log_unchanged {req : LogRequest} (h : ¬ req.isValid) :
    md.handleRpc (.log req) = some md := if_neg h

/-- A vote of the current term is inserted. -/
lemma recvVoteResponse_vote {res : RequestVoteResponse} (hterm : md.currentTerm = res.currentTerm)
    (hvoted : res.voted ≠ 0) : md.recvVoteResponse res = (md, .next) ↔
      res.id ∈ md.voteReceived ∧ md.wonElection = false := by
  have hunfold : md.recvVoteResponse res =
      if { md with voteReceived := insert res.id md.voteReceived }.wonElection then
        ({ md with voteReceived := insert res.id md.voteReceived }.initLeader, .won)
      else ({ md with voteReceived := insert res.id md.voteReceived }, .next) :=
    if_pos ⟨hterm, hvoted⟩
  rw [hunfold]
  constructor
  · intro h
    split at h
    · cases congrArg Prod.snd h
    · rename_i hwon
      have hsame : { md with voteReceived := insert res.id md.voteReceived } = md :=
        congrArg Prod.fst h
      have hset : insert res.id md.voteReceived = md.voteReceived := congrArg voteReceived hsame
      rw [hsame] at hwon
      exact ⟨Finset.insert_eq_self.1 hset, Bool.eq_false_of_not_eq_true hwon⟩
  · rintro ⟨hcounted, hwon⟩
    rw [Finset.insert_eq_of_mem hcounted, hwon]
    rfl

/-- `RequestVote` is unmoved by a response if it is neither of a higher term nor a vote of the
current term, except for a vote that it has counted already, and that has not decided. -/
theorem recvVoteResponse_unchanged (res : RequestVoteResponse) :
    md.recvVoteResponse res = (md, .next) ↔
      res.currentTerm ≤ md.currentTerm ∧
        (res.currentTerm = md.currentTerm → res.voted ≠ 0 →
          res.id ∈ md.voteReceived ∧ md.wonElection = false) := by
  by_cases hvote : md.currentTerm = res.currentTerm ∧ res.voted ≠ 0
  · rw [recvVoteResponse_vote hvote.1 hvote.2]
    exact ⟨fun h => ⟨hvote.1.ge, fun _ _ => h⟩, fun h => h.2 hvote.1.symm hvote.2⟩
  · rw [recvVoteResponse, if_neg hvote]
    by_cases hhigher : md.currentTerm < res.currentTerm
    · rw [if_pos hhigher]
      constructor
      · intro h
        cases congrArg Prod.snd h
      · rintro ⟨hle, -⟩
        omega
    · rw [if_neg hhigher]
      have himp : res.currentTerm = md.currentTerm → res.voted ≠ 0 →
          res.id ∈ md.voteReceived ∧ md.wonElection = false :=
        fun hterm hvoted => (hvote ⟨hterm.symm, hvoted⟩).elim
      exact ⟨fun _ => ⟨not_lt.1 hhigher, himp⟩, fun _ => rfl⟩

end ServerMetadata

/-! ## The handler -/

/-- A vote request of no higher term that finds the heartbeat flag set, or a log request. -/
def HandlerCall.Harmless (e : HandlerCall) : Prop :=
  ∀ msg, e.request = .vote msg →
    e.before.heartbeat = true ∧ msg.currentTerm ≤ e.before.currentTerm

/-- What is known of every call of the handler. -/
structure HandlerCall.Sound (e : HandlerCall) : Prop where
  sized : e.before.Sized
  invalid : e.complete = false → ∀ req, e.request = .log req → ¬ req.isValid

/-- The handler is harmless with what it did not receive exactly if it leaves the metadata. -/
lemma HandlerCall.Sound.unchanged_iff {e : HandlerCall} (h : e.Sound)
    (hincomplete : e.complete = false) : e.after = some e.before ↔ e.Harmless := by
  cases hrequest : e.request with
  | vote msg =>
      rw [HandlerCall.after, hrequest, ServerMetadata.handleRpc_vote_unchanged h.sized]
      refine ⟨fun hharmless msg' hmsg => ?_, fun hharmless => hharmless msg hrequest⟩
      obtain rfl := Rpc.vote.inj (hrequest.symm.trans hmsg)
      exact hharmless
  | log req =>
      have hinvalid := h.invalid hincomplete req hrequest
      rw [HandlerCall.after, hrequest, ServerMetadata.handleRpc_log_unchanged hinvalid]
      refine ⟨fun _ msg hmsg => ?_, fun _ => rfl⟩
      cases hrequest.symm.trans hmsg

namespace RpcConnection

variable {cfg : RpcConfig} {c c' : RpcConnection} {tr es : List HandlerCall}

/-- The log request that the handler is about to fill is not valid. -/
def AwaitsInvalid (c : RpcConnection) : Prop :=
  ∀ req, c.call = .recvLogRequest req → ¬ req.isValid

lemma next_awaitsInvalid (frame : StackFrame) (rpc : ℤ) (stack : ℕ → UInt8) :
    (c.enter (RecvCall.next frame rpc) stack).AwaitsInvalid := by
  intro req hcall
  rw [enter, RecvCall.next] at hcall
  split_ifs at hcall
  obtain rfl := RecvCall.recvLogRequest.inj hcall
  exact not_not_intro rfl

lemma AwaitsInvalid.step (h : c.AwaitsInvalid) {l : RpcLabel}
    (hstep : c.act cfg l = some (c', es)) : c'.AwaitsInvalid := by
  obtain ⟨-, hcall⟩ | ⟨frame, hreturns⟩ := quiet_or_returns hstep
  · intro req hreq
    exact h req (hcall.symm.trans hreq)
  · obtain ⟨-, ⟨-, -, identifier, -, rfl⟩ | ⟨request, -, -, rfl⟩⟩ := recvReturns_cases hreturns
    · exact next_awaitsInvalid frame identifier.identifier frame.stack
    · exact nofun

/-- What the handler takes for a request after a failed `Recv` is the object it began with. -/
lemma AwaitsInvalid.sound (h : c.AwaitsInvalid) {l : RpcLabel}
    (hstep : c.act cfg l = some (c', es)) : ∀ e ∈ es, e.Sound := by
  obtain ⟨rfl, -⟩ | ⟨frame, hreturns⟩ := quiet_or_returns hstep
  · exact List.forall_mem_nil _
  · obtain ⟨-, ⟨-, rfl, -⟩ | ⟨request, htakes, rfl, -⟩⟩ := recvReturns_cases hreturns
    · exact List.forall_mem_nil _
    · intro e he
      obtain rfl := List.mem_singleton.1 he
      refine ⟨frame.sized, fun hincomplete req hrequest => ?_⟩
      obtain rfl : request = .log req := hrequest
      have hfailed : c.failed = true := by simpa using hincomplete
      cases htakes with
      | log hcall hgot =>
          rw [filled, if_pos hfailed, Option.some.injEq] at hgot
          exact hgot ▸ h _ hcall

lemma sound_of_run {ok : RpcConnection → RpcLabel → Prop}
    (hrun : (rpcConnection cfg).Run ok c tr) : ∀ e ∈ tr, e.Sound := by
  suffices h : c.AwaitsInvalid ∧ ∀ e ∈ tr, e.Sound from h.2
  refine Run.invariant (I := fun c tr => c.AwaitsInvalid ∧ ∀ e ∈ tr, e.Sound) ?_ ?_ hrun
  · rintro _ ⟨stack, rfl⟩
    exact ⟨nofun, List.forall_mem_nil _⟩
  · rintro c tr l c' es - ⟨hawaits, hsound⟩ - hstep
    refine ⟨hawaits.step hstep, fun e he => ?_⟩
    rcases List.mem_append.1 he with hbefore | hnow
    · exact hsound e hbefore
    · exact hawaits.sound hstep e hnow

end RpcConnection

/-- The handler changes the metadata only for requests that it received in full.  These are the
first of the RPCs, and all their bytes lie before the cut. -/
structure ChangesForReceived (cfg : RpcConfig) (tr : List HandlerCall) : Prop where
  changes : ∀ e ∈ tr, e.after ≠ some e.before → e.complete = true
  received : receivedInFull tr <+: cfg.rpcs
  uncut : ∀ k ∈ cfg.cutAt, ((receivedInFull tr).flatMap Rpc.bytes).length ≤ k

namespace RpcConnection

variable {cfg : RpcConfig} {c : RpcConnection} {tr : List HandlerCall}

/-- A connection that is cut does no harm exactly if the handler never handles a vote request that
it did not receive in full, or that one does none. -/
theorem changes_iff (hfits : ∀ rpc ∈ cfg.rpcs, rpc.Fits)
    (hrun : (rpcConnection cfg).Run anyStep c tr) :
    ChangesForReceived cfg tr ↔ ∀ e ∈ tr, e.complete = false → e.Harmless := by
  have hflows := flows_of_run hrun
  have hframed := framed_of_run hfits hrun
  have hsound := sound_of_run hrun
  constructor
  · intro h e he hincomplete
    rw [← (hsound e he).unchanged_iff hincomplete]
    by_contra hchanged
    exact absurd (hincomplete.symm.trans (h.changes e he hchanged)) Bool.false_ne_true
  · intro h
    refine ⟨fun e he hchanged => ?_, ?_, fun k hk => ?_⟩
    · by_contra hcomplete
      have hincomplete : e.complete = false := Bool.eq_false_of_not_eq_true hcomplete
      exact hchanged (((hsound e he).unchanged_iff hincomplete).2 (h e he hincomplete))
    · obtain ⟨rest, hsplit, -⟩ := hframed.split
      exact ⟨rest, hsplit.symm⟩
    · have hconsumed : c.consumed <+: c.written := ⟨c.stream, hflows.consumed⟩
      exact ((hframed.inFull.trans hconsumed).length_le).trans (hflows.alive k hk)

end RpcConnection

/-! ## `RequestVote` -/

/-- A response of no higher term, and no vote of the current term either, except for one that
has been counted and has not decided. -/
def ResponseCall.Harmless (e : ResponseCall) : Prop :=
  e.response.currentTerm ≤ e.before.currentTerm ∧
    (e.response.currentTerm = e.before.currentTerm → e.response.voted ≠ 0 →
      e.response.id ∈ e.before.voteReceived ∧ e.before.wonElection = false)

namespace VoteCall

variable {host : ByteOrder} {v v' : VoteCall} {es tr : List ResponseCall}

/-- The `Recv` of `RecvVoteResponse`, at any point. -/
def Receives (v : VoteCall) : Prop :=
  ∀ t ∈ v.receiving, t.InBounds ∧ t.offset + t.size = RequestVoteResponse.layout.size

lemma recvVoteResponse_receives {stack : ℕ → UInt8} (h : v.recvVoteResponse stack = some v') :
    v'.Receives := by
  unfold recvVoteResponse at h
  split at h
  · obtain rfl := Option.some.inj h
    rintro t ⟨⟩
    refine ⟨?_, rfl⟩
    rw [Transfer.InBounds, stackBuffer_length]
    exact (by decide : 0 + RequestVoteResponse.layout.size ≤ 32)
  · cases h

lemma recv_receives (hreceives : v.Receives) {bytes : List UInt8} (h : v.recv bytes = some v') :
    v'.Receives := by
  unfold recv at h
  split at h
  · rename_i t ht
    split at h
    · rename_i hbytes
      obtain ⟨t', hrecv, rfl⟩ := Option.map_eq_some_iff.1 h
      obtain ⟨hbounds, hsum⟩ := hreceives t ht
      obtain ⟨-, hsum', -, hbounds'⟩ := Transfer.recv_spec hbytes.2.1 hrecv
      rintro t'' ⟨⟩
      exact ⟨hbounds' hbounds, hsum'.trans hsum⟩
    · cases h
  · cases h

lemma recvFails_receives (hreceives : v.Receives) (h : v.recvFails = some v') : v'.Receives := by
  unfold recvFails at h
  split at h
  · split at h
    · obtain rfl := Option.some.inj h
      exact hreceives
    · cases h
  · cases h

lemma returns_cases (h : v.returns host = some (v', es)) : ∃ t res, v.receiving = some t ∧
    (t.size = 0 ∨ v.failed = true) ∧
    RequestVoteResponse.layout.unmarshal host t.buffer = some res ∧
    v'.receiving = none ∧ es = [⟨t.received, res, v.metadata⟩] := by
  unfold returns at h
  split at h
  · rename_i t hrest ht
    split at h
    · rename_i hdone
      obtain ⟨res, hres, heq⟩ := Option.map_eq_some_iff.1 h
      obtain ⟨rfl, rfl⟩ := Prod.mk.inj heq
      exact ⟨t, res, ht, hdone, hres, rfl, rfl⟩
    · cases h
  · cases h

lemma Receives.step (h : v.Receives) {l : VoteLabel} (hstep : v.act host l = some (v', es)) :
    v'.Receives := by
  cases l with
  | recvVoteResponse stack =>
      obtain ⟨_, hact, rfl, -⟩ := exists_of_map_eq_some hstep
      exact recvVoteResponse_receives hact
  | recv bytes =>
      obtain ⟨_, hact, rfl, -⟩ := exists_of_map_eq_some hstep
      exact recv_receives h hact
  | recvFails =>
      obtain ⟨_, hact, rfl, -⟩ := exists_of_map_eq_some hstep
      exact recvFails_receives h hact
  | returns =>
      obtain ⟨t, res, -, -, -, hnone, -⟩ := returns_cases hstep
      intro t ht
      rw [hnone] at ht
      cases ht

end VoteCall

/-- The caller takes the response for what it is, if all of it arrived. -/
structure ResponseCall.Sound (e : ResponseCall) : Prop where
  arrived : e.arrived.length ≤ RequestVoteResponse.layout.size
  decoded : e.arrived.length = RequestVoteResponse.layout.size →
    e.response = RequestVoteResponse.layout.decode e.arrived

namespace VoteCall

variable {host : ByteOrder} {v v' : VoteCall} {es tr : List ResponseCall}

lemma Receives.sound (h : v.Receives) (hstep : v.returns host = some (v', es)) :
    ∀ e ∈ es, e.Sound := by
  obtain ⟨t, res, ht, -, hres, -, rfl⟩ := returns_cases hstep
  obtain ⟨hbounds, hsum⟩ := h t ht
  have hlength := Transfer.received_length hbounds
  intro e he
  obtain rfl := List.mem_singleton.1 he
  refine ⟨by rw [hlength]; omega, fun hall => ?_⟩
  have hoffset : t.offset = RequestVoteResponse.layout.size := hlength.symm.trans hall
  have hroom : RequestVoteResponse.layout.size ≤ t.buffer.length := by
    unfold Transfer.InBounds at hbounds
    omega
  rw [Layout.unmarshal_eq hroom, ← Layout.decode_take, ← hoffset] at hres
  exact (Option.some.inj hres).symm

lemma sound_of_run {ok : VoteCall → VoteLabel → Prop} (hrun : (voteCall host).Run ok v tr) :
    ∀ e ∈ tr, e.Sound := by
  suffices h : v.Receives ∧ ∀ e ∈ tr, e.Sound from h.2
  refine Run.invariant (I := fun v tr => v.Receives ∧ ∀ e ∈ tr, e.Sound) ?_ ?_ hrun
  · rintro _ ⟨md, rfl⟩
    exact ⟨nofun, List.forall_mem_nil _⟩
  · rintro v tr l v' es - ⟨hreceives, hsound⟩ - hstep
    refine ⟨hreceives.step hstep, fun e he => ?_⟩
    rcases List.mem_append.1 he with hbefore | hnow
    · exact hsound e hbefore
    · cases l with
      | returns => exact hreceives.sound hstep e hnow
      | _ =>
          obtain ⟨_, -, -, hnil⟩ := exists_of_map_eq_some hstep
          rw [← hnil] at hnow
          cases hnow

end VoteCall

/-- `RequestVote` counts votes and adopts terms only from responses that it received in full. -/
def CountsReceived (tr : List ResponseCall) : Prop :=
  ∀ e ∈ tr, e.after ≠ (e.before, .next) →
    e.arrived.length = RequestVoteResponse.layout.size ∧
      e.response = RequestVoteResponse.layout.decode e.arrived

/-- It does exactly if what it takes for a response when not all of it arrived is harmless. -/
theorem VoteCall.counts_iff {host : ByteOrder} {v : VoteCall} {tr : List ResponseCall}
    (hrun : (voteCall host).Run anyStep v tr) :
    CountsReceived tr ↔ ∀ e ∈ tr, e.arrived.length < RequestVoteResponse.layout.size →
      e.Harmless := by
  refine forall₂_congr fun e he => ?_
  obtain ⟨harrived, hdecoded⟩ := sound_of_run hrun e he
  have hunchanged : e.after = (e.before, .next) ↔ e.Harmless :=
    ServerMetadata.recvVoteResponse_unchanged e.response
  rw [← hunchanged]
  constructor
  · intro h hcut
    by_contra hchanged
    exact absurd (h hchanged).1 hcut.ne
  · intro h hchanged
    have hall : e.arrived.length = RequestVoteResponse.layout.size := by
      by_contra hne
      exact hchanged (h (lt_of_le_of_ne harrived hne))
    exact ⟨hall, hdecoded hall⟩

/-! ## Both sides -/

/-- **A connection that is cut.**  It does no harm, at either end, exactly if nothing that was not
received in full is handled, or only such as does none. -/
theorem cut_connection_iff {cfg : RpcConfig} (hfits : ∀ rpc ∈ cfg.rpcs, rpc.Fits)
    {c : RpcConnection} {tr : List HandlerCall} (hrun : (rpcConnection cfg).Run anyStep c tr)
    {host : ByteOrder} {v : VoteCall} {answers : List ResponseCall}
    (hcall : (voteCall host).Run anyStep v answers) :
    (ChangesForReceived cfg tr ↔ ∀ e ∈ tr, e.complete = false → e.Harmless) ∧
    (CountsReceived answers ↔ ∀ e ∈ answers,
      e.arrived.length < RequestVoteResponse.layout.size → e.Harmless) :=
  ⟨RpcConnection.changes_iff hfits hrun, VoteCall.counts_iff hcall⟩

/-- A vote request whose caller dies after `k` bytes. -/
def cutVote (k : ℕ) : RpcConfig := { rpcs := [.vote ⟨1, 1, 0, 0⟩], cutAt := some k }

/-- A stack with something that looks like a vote request of term 5. -/
def staleFrame : StackFrame := { (default : StackFrame) with msg := ⟨7, 5, 0, 0⟩ }

/-- The identifier arrives, and nothing behind it. -/
def onlyIdentifier (frame : StackFrame) : List RpcLabel :=
  [.marshal fun _ => 0, .send 4, .sendReturns, .recv 4, .recvReturns frame, .recvFails,
    .recvReturns frame]

/-- A candidate of two servers, about to stand in term 1. -/
def lonelyCandidate : ServerMetadata where
  factoryId := 0
  neighbors := [⟨0, 1, "", 0⟩]
  nodeSocket := [⟨0, 1, "", 0⟩]

/-- A stack with something that looks like a vote of server 1 in term 1. -/
def staleVote (k : ℕ) : UInt8 := if k = 3 ∨ k = 7 ∨ k = 11 then 1 else 0

/-- Nothing of the response arrives. -/
def noResponse (stack : ℕ → UInt8) : List VoteLabel :=
  [.recvVoteResponse stack, .recvFails, .returns]

theorem cut_connection_iff_cut : ∃ c tr v answers,
    (rpcConnection (cutVote 4)).Run anyStep c tr ∧ tr.map HandlerCall.complete = [false] ∧
    (voteCall .little).Run anyStep v answers ∧ answers.map ResponseCall.arrived = [[]] ∧
    (ChangesForReceived (cutVote 4) tr ↔ ∀ e ∈ tr, e.complete = false → e.Harmless) ∧
    (CountsReceived answers ↔ ∀ e ∈ answers,
      e.arrived.length < RequestVoteResponse.layout.size → e.Harmless) := by
  obtain ⟨c, tr, hrun, hcut⟩ := run_of_exec (rpcConnection (cutVote 4)) anyStep
    (openConnection (cutVote 4) fun _ => 0) ⟨_, rfl⟩ (onlyIdentifier default)
    (P := fun _ tr => tr.map HandlerCall.complete = [false]) (by decide +kernel)
  obtain ⟨v, answers, hcall, hnothing⟩ := run_of_exec (voteCall .little) anyStep
    _ ⟨lonelyCandidate, rfl⟩ (noResponse fun _ => 0)
    (P := fun _ answers => answers.map ResponseCall.arrived = [[]]) (by decide +kernel)
  exact ⟨c, tr, v, answers, hrun, hcut, hcall, hnothing,
    cut_connection_iff (by decide) hrun hcall⟩

/-- The handler of a vote request of which only the identifier arrived adopts the term it finds
on the stack, and a candidate that got no answer at all becomes the leader. -/
theorem cut_connection_harms :
    (∃ c tr, (rpcConnection (cutVote 4)).Run anyStep c tr ∧ ¬ ChangesForReceived (cutVote 4) tr) ∧
    (∃ v answers, (voteCall .little).Run anyStep v answers ∧ v.metadata.status = .leader ∧
      ¬ CountsReceived answers) := by
  constructor
  · obtain ⟨c, tr, hrun, e, he, hincomplete, hterm⟩ := run_of_exec
      (rpcConnection (cutVote 4)) anyStep (openConnection (cutVote 4) fun _ => 0) ⟨_, rfl⟩
      (onlyIdentifier staleFrame)
      (P := fun _ tr => ∃ e ∈ tr, e.complete = false ∧
        e.after.map ServerMetadata.currentTerm ≠ some e.before.currentTerm) (by decide +kernel)
    refine ⟨c, tr, hrun, fun h => ?_⟩
    have hchanged : e.after ≠ some e.before := by
      intro hsame
      rw [hsame] at hterm
      exact hterm rfl
    exact absurd (hincomplete.symm.trans (h.changes e he hchanged)) Bool.false_ne_true
  · obtain ⟨v, answers, hcall, hleader, e, he, hnothing, hwon⟩ := run_of_exec
      (voteCall .little) anyStep _ ⟨lonelyCandidate, rfl⟩ (noResponse staleVote)
      (P := fun v answers => v.metadata.status = .leader ∧
        ∃ e ∈ answers, e.arrived = [] ∧ e.after.2 = .won) (by decide +kernel)
    refine ⟨v, answers, hcall, hleader, fun h => ?_⟩
    have hchanged : e.after ≠ (e.before, .next) := by
      intro hsame
      rw [hsame] at hwon
      cases hwon
    have hall := (h e he hchanged).1
    rw [hnothing] at hall
    cases hall

end LaptopRaft
