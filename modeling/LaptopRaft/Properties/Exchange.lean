import LaptopRaft.Framework.CatchUp
import LaptopRaft.Properties.Replay

/-!
# One request of `ReplicateLog` and its answer

What the caller and one peer make of each other in one iteration of the loop, as a matter of
their metadata only.

* `LogReply` are the answers of `GetLogResponse`; `LogReply.of_entry` says that `can_log` is
  agreement with the caller's log at the position of the entry that is sent.
* `Ready` is what the caller needs of its own data, `Positioned` that the peer has a position in
  the log.  An iteration is then defined (`Ready.react`), and `Reaction` are its cases when the
  caller goes on.
* A leader and a peer that follows it and is behind perform an `exchange` of
  `Framework/CatchUp` (`Reaction.exchange`).
-/

namespace LaptopRaft

/-! ## The follower's answer -/

namespace ServerMetadata

variable {md md' : ServerMetadata} {req : LogRequest} {res : LogResponse}

/-- The condition of the first `if` of `GetLogResponse`, for a sender of term `t`. -/
def Follows (md : ServerMetadata) (t : ℤ) : Prop := md.currentTerm ≤ t ∨ md.status = .follower

lemma adoptLeader_of_follows (h : Follows md req.currentTerm) :
    md.adoptLeader req =
      { md with currentTerm := req.currentTerm, status := .follower, leaderId := req.leaderId,
                voteReceived := ∅, votedFor := -1, heartbeat := true } :=
  if_pos h

lemma not_included_of_end (h : req.prefixLength = md.logSize) :
    ¬ (md.adoptLeader req).included req := by
  rw [included, adoptLeader_logSize, h]
  exact lt_irrefl _

/-- What a log request changes besides following its sender. -/
lemma LogReply.frame (h : LogReply md req md' res) :
    md' =
      { md.adoptLeader req with
        smrLog := md'.smrLog
        logSize := md'.logSize
        commitLength := md'.commitLength
        customerRecord := md'.customerRecord
        heartbeat := true } := by
  cases h with
  | refused => rfl
  | held => rfl
  | extended hterm hcan hends happ =>
      rw [(appendEntry_cases (not_included_of_end hends) happ).1, appended_eq]
      rfl

/-- Following the sender does not matter for what is appended. -/
lemma appendEntry_log {md₁ : ServerMetadata} (hends : req.prefixLength = md.logSize)
    (happ : (md.adoptLeader req).appendEntry req = some md₁) :
    md₁.smrLog = (md.appended req).smrLog ∧ md₁.logSize = (md.appended req).logSize := by
  rw [(appendEntry_cases (not_included_of_end hends) happ).1]
  simp only [appended, appendLog]
  split <;> simp

/-- The log is kept, or extended at its end by what the request carries. -/
lemma LogReply.log (h : LogReply md req md' res) :
    (md'.smrLog = md.smrLog ∧ md'.logSize = md.logSize) ∨
    (req.prefixLength = md.logSize ∧ md'.smrLog = (md.appended req).smrLog ∧
      md'.logSize = (md.appended req).logSize) := by
  cases h with
  | refused => exact Or.inl ⟨adoptLeader_smrLog md req, adoptLeader_logSize md req⟩
  | held => exact Or.inl ⟨adoptLeader_smrLog md req, adoptLeader_logSize md req⟩
  | extended hterm hcan hends happ =>
      obtain ⟨hlog, hsize⟩ := appendEntry_log hends happ
      exact Or.inr ⟨hends, hlog, hsize⟩

/-- At most one entry is executed, and only if the sender has. -/
lemma LogReply.commit (h : LogReply md req md' res) : md'.commitLength = md.commitLength ∨
    (md'.commitLength = md.commitLength + 1 ∧ md.commitLength < req.commitLength ∧
      md.commitLength < md'.smrLog.length) := by
  cases h with
  | refused => exact Or.inl (adoptLeader_commitLength md req)
  | held => exact Or.inl (adoptLeader_commitLength md req)
  | extended hterm hcan hends happ =>
      obtain ⟨hframe, hcommit⟩ := appendEntry_cases (not_included_of_end hends) happ
      rw [adoptLeader_commitLength] at hcommit
      refine hcommit.imp id fun ⟨h1, h2, h3⟩ => ⟨h1, h2, ?_⟩
      rw [hframe]
      exact h3

lemma LogReply.sized (h : LogReply md req md' res) (hsized : Sized md) : Sized md' := by
  have hlog : md'.logSize = md'.smrLog.length ∧ md.logSize ≤ md'.logSize := by
    have hsize := hsized.logSize
    rcases h.log with ⟨h1, h2⟩ | ⟨-, h1, h2⟩
    · rw [h1, h2]
      exact ⟨hsize, le_refl _⟩
    · rw [h1, h2]
      refine ⟨(hsized.appended req).logSize, ?_⟩
      unfold appended
      split
      · show md.logSize ≤ md.logSize + 1
        omega
      · exact le_refl _
  have hnonneg := hsized.commit_nonneg
  have hle := hsized.commit_le
  rcases h.commit with h1 | ⟨h1, -, h3⟩
  · exact ⟨hlog.1, by omega, by omega⟩
  · exact ⟨hlog.1, by omega, by omega⟩

lemma LogReply.factoryId (h : LogReply md req md' res) :
    md'.factoryId = md.factoryId ∧ res.followerId = md.factoryId := by
  refine ⟨?_, by cases h <;> rfl⟩
  rw [h.frame]
  exact adoptLeader_factoryId md req

/-- A server that follows the sender takes over its term. -/
lemma LogReply.of_follows (h : LogReply md req md' res) (hfollows : Follows md req.currentTerm) :
    md'.currentTerm = req.currentTerm ∧ md'.status = .follower ∧
      res.currentTerm = req.currentTerm := by
  have hadopt := adoptLeader_of_follows hfollows
  have hframe := h.frame
  rw [hadopt] at hframe
  refine ⟨by rw [hframe], by rw [hframe], ?_⟩
  cases h with
  | refused => exact congrArg ServerMetadata.currentTerm hadopt
  | held => rfl
  | extended => rfl

/-- A server that does not refuses. -/
lemma LogReply.of_not_follows (h : LogReply md req md' res)
    (hno : ¬ Follows md req.currentTerm) :
    md' = md.setHeartbeat true ∧ res = ⟨md.factoryId, md.currentTerm, 0, 0⟩ := by
  have hadopt : md.adoptLeader req = md := if_neg hno
  have hterm : (md.adoptLeader req).currentTerm ≠ req.currentTerm := by
    rw [hadopt]
    exact fun heq => hno (Or.inl heq.le)
  cases h with
  | refused =>
      rw [hadopt]
      exact ⟨rfl, rfl⟩
  | held hsame => exact absurd hsame hterm
  | extended hsame => exact absurd hsame hterm

/-- A heartbeat does not touch the log. -/
lemma LogReply.of_heartbeat (h : LogReply md req md' res) (hbeat : req.opTerm = -1) :
    md'.smrLog = md.smrLog := by
  rcases h.log with ⟨h1, -⟩ | ⟨-, h1, -⟩
  · exact h1
  · rw [h1, appended_smrLog, if_neg (not_not.2 hbeat), List.append_nil]

variable {L : List MapOp} {x : ℕ}

/-- `can_log` is agreement with the sender's log. -/
lemma canLog_iff_agreesAt (hsized : Sized md) (hx : req.prefixLength = x)
    (hbefore : x ≠ 0 → L[x - 1]?.map MapOp.term = some req.prefixTerm) :
    md.canLog req = some true ↔ AgreesAt MapOp.term L md.smrLog x := by
  have hsize := hsized.logSize
  have hle : (x : ℤ) ≤ md.logSize ↔ x ≤ md.smrLog.length := by omega
  rw [canLog_eq_true, AgreesAt, hx, hle]
  refine and_congr_right fun _ => ?_
  by_cases hzero : x = 0
  · simp [hzero]
  · have hidx : ((x : ℤ) - 1).toNat = x - 1 := by omega
    rw [MatchAt, hbefore hzero, getTermAtIdx, if_neg (by omega), hidx]
    simp [hzero]

/-- **The answer to an entry request** of a server that follows the sender. -/
theorem LogReply.of_entry (h : LogReply md req md' res) (hsized : Sized md)
    (hfollows : Follows md req.currentTerm) (hx : req.prefixLength = x)
    (hentry : req.opTerm ≠ -1) (hop : L[x]? = some req.op)
    (hbefore : x ≠ 0 → L[x - 1]?.map MapOp.term = some req.prefixTerm) :
    (AgreesAt MapOp.term L md.smrLog x →
      res.success ≠ 0 ∧ res.ack = x + 1 ∧ md'.smrLog = accepted L md.smrLog x) ∧
    (¬ AgreesAt MapOp.term L md.smrLog x → res.success = 0 ∧ md'.smrLog = md.smrLog) := by
  have hsize := hsized.logSize
  have hadopted : Sized (md.adoptLeader req) :=
    hsized.of_same (adoptLeader_smrLog md req) (adoptLeader_logSize md req)
      (adoptLeader_commitLength md req)
  have hterm : (md.adoptLeader req).currentTerm = req.currentTerm := by
    rw [adoptLeader_of_follows hfollows]
  have hcan := canLog_iff_agreesAt hadopted hx hbefore
  rw [adoptLeader_smrLog] at hcan
  cases h with
  | refused hno =>
      have hagree : ¬ AgreesAt MapOp.term L md.smrLog x := fun hyes => hno ⟨hterm, hcan.2 hyes⟩
      exact ⟨fun hyes => absurd hyes hagree, fun _ => ⟨rfl, adoptLeader_smrLog md req⟩⟩
  | held _ hyes hlonger =>
      refine ⟨fun _ => ⟨one_ne_zero, by rw [hx], ?_⟩, fun hno => absurd (hcan.1 hyes) hno⟩
      rw [accepted, if_neg (by omega)]
      exact adoptLeader_smrLog md req
  | extended _ hyes hends happ =>
      refine ⟨fun _ => ⟨one_ne_zero, by rw [hx], ?_⟩, fun hno => absurd (hcan.1 hyes) hno⟩
      rw [(appendEntry_cases (not_included_of_end hends) happ).1, accepted, if_pos (by omega), hop]
      show ((md.adoptLeader req).appended req).smrLog = _
      rw [appended_smrLog, adoptLeader_smrLog, if_pos hentry]
      rfl

/-! ## The caller's reaction -/

variable {node : ServerNode} {sent ack : List ℤ}

/-- `ack_length[i]` of a peer. -/
def ackTo (md : ServerMetadata) (node : ServerNode) : Option ℤ := do
  (← md.ackLength)[md.slot node]?

lemma recvEntryResponse_acked (hterm : res.currentTerm = md.currentTerm)
    (hleader : md.status = .leader) (hsent : md.sentLength = some sent)
    (hack : md.ackLength = some ack) (hslot : md.slot node < sent.length)
    (hslot' : md.slot node < ack.length) (hsuccess : res.success ≠ 0)
    (hcommit : (md.recordAck node sent ack res.ack).commitLog = some md') :
    md.recvEntryResponse node res = some (md', true) := by
  rw [recvEntryResponse, if_pos ⟨hterm, hleader⟩, hsent, hack, Option.bind_eq_bind,
    Option.bind_some, Option.bind_eq_bind, Option.bind_some, Option.bind_eq_bind,
    List.getElem?_eq_getElem hslot, Option.bind_some, if_pos hsuccess, if_pos hslot']
  change ((md.recordAck node sent ack res.ack).commitLog.bind fun m => some (m, true)) = _
  rw [hcommit, Option.bind_some]

lemma recvEntryResponse_backed {k : ℤ} (hterm : res.currentTerm = md.currentTerm)
    (hleader : md.status = .leader) (hsent : md.sentLength = some sent)
    (hack : md.ackLength = some ack) (hk : sent[md.slot node]? = some k) (hpos : 0 < k)
    (hno : res.success = 0) :
    md.recvEntryResponse node res =
      some ({ md with sentLength := some (sent.set (md.slot node) (k - 1)) }, true) := by
  rw [recvEntryResponse, if_pos ⟨hterm, hleader⟩, hsent, hack, Option.bind_eq_bind,
    Option.bind_some, Option.bind_eq_bind, Option.bind_some, Option.bind_eq_bind, hk,
    Option.bind_some, if_neg (not_not.2 hno), if_pos hpos]

/-- A caller that is not leader does not look at the answer, unless it is from a higher term. -/
lemma recvEntryResponse_ignored (hstatus : md.status ≠ .leader)
    (hle : res.currentTerm ≤ md.currentTerm) :
    md.recvEntryResponse node res = some (md, true) := by
  rw [recvEntryResponse, if_neg fun h => hstatus h.2, if_neg (not_lt.2 hle)]

lemma recvEntryResponse_deposed (hlt : md.currentTerm < res.currentTerm) :
    md.recvEntryResponse node res = some (md.demoted res.currentTerm, false) := by
  rw [recvEntryResponse, if_neg fun h => hlt.ne' h.1, if_pos hlt]
  rfl

/-! ## One iteration, seen from the two servers -/

/-- What the caller needs of its own data: a consistent log, and arrays with a slot for each of
its peers. -/
structure Ready (md : ServerMetadata) : Prop where
  valid : md.factoryId ≠ -1
  sized : Sized md
  entry_term : ∀ op ∈ md.smrLog, 0 ≤ op.term
  sent : ∃ xs, md.sentLength = some xs ∧ xs.length = md.getPeerSize + 1
  ack : ∃ xs, md.ackLength = some xs ∧ xs.length = md.getPeerSize + 1

lemma Ready.sent_length (h : Ready md) {sent : List ℤ} (hsent : md.sentLength = some sent) :
    sent.length = md.getPeerSize + 1 := by
  obtain ⟨xs, hxs, hlen⟩ := h.sent
  rw [Option.some.inj (hsent.symm.trans hxs), hlen]

lemma Ready.ack_length (h : Ready md) {ack : List ℤ} (hack : md.ackLength = some ack) :
    ack.length = md.getPeerSize + 1 := by
  obtain ⟨xs, hxs, hlen⟩ := h.ack
  rw [Option.some.inj (hack.symm.trans hxs), hlen]

/-- The peer has a position within the log. -/
def Positioned (md : ServerMetadata) (node : ServerNode) : Prop :=
  ∃ x : ℕ, md.sentTo node = some (x : ℤ) ∧ x ≤ md.smrLog.length

/-- What a peer's metadata becomes by answering a request of a caller in state `md`. -/
structure Answer (md peer peer' : ServerMetadata) : Prop where
  sized : Sized peer'
  factoryId : peer'.factoryId = peer.factoryId
  follows : Follows peer md.currentTerm →
    peer'.currentTerm = md.currentTerm ∧ peer'.status = .follower
  refuses : ¬ Follows peer md.currentTerm → peer' = peer.setHeartbeat true
  commit : peer.commitLength ≤ md.commitLength → peer'.commitLength ≤ md.commitLength
  stored : Stored peer → Stored peer'

/-- What the caller makes of the answer of `node`, when it goes on. -/
inductive Reaction (md : ServerMetadata) (node : ServerNode) (peer peer' : ServerMetadata) :
    ServerMetadata → Prop
  | complete (hsent : md.sentTo node = some md.logSize) (hlog : peer'.smrLog = peer.smrLog) :
      Reaction md node peer peer' md
  | acked {x : ℕ} {sent ack : List ℤ} {md' : ServerMetadata}
      (hk : md.sentTo node = some (x : ℤ)) (hx : x < md.smrLog.length)
      (hleader : md.status = .leader) (hfollows : Follows peer md.currentTerm)
      (hagree : AgreesAt MapOp.term md.smrLog peer.smrLog x)
      (hsent : md.sentLength = some sent) (hack : md.ackLength = some ack)
      (hcommit : md.commitLength ≤ md'.commitLength) (hle : md'.commitLength ≤ md.logSize)
      (hmd : md' =
        { md with
          sentLength := some (sent.set (md.slot node) (x + 1))
          ackLength := some (ack.set (md.slot node) (x + 1))
          commitLength := md'.commitLength
          customerRecord := md'.customerRecord })
      (hlog : peer'.smrLog = accepted md.smrLog peer.smrLog x) :
      Reaction md node peer peer' md'
  | backed {x : ℕ} {sent : List ℤ} {md' : ServerMetadata}
      (hk : md.sentTo node = some (x : ℤ)) (hx : x < md.smrLog.length)
      (hleader : md.status = .leader) (hfollows : Follows peer md.currentTerm)
      (hagree : ¬ AgreesAt MapOp.term md.smrLog peer.smrLog x)
      (hsent : md.sentLength = some sent)
      (hmd : md' = { md with sentLength := some (sent.set (md.slot node) (x - 1)) })
      (hlog : peer'.smrLog = peer.smrLog) :
      Reaction md node peer peer' md'
  | ignored (hsent : md.sentTo node ≠ some md.logSize) (hstatus : md.status ≠ .leader)
      (hfollows : Follows peer md.currentTerm) :
      Reaction md node peer peer' md

variable {peer peer' : ServerMetadata}

/-! ### Every iteration is defined -/

lemma Ready.logRequestFor_isSome (h : Ready md) (hnode : Positioned md node) :
    ∃ req, md.logRequestFor node = some req := by
  obtain ⟨x, hx, hle⟩ := hnode
  have hsize := h.sized.logSize
  have hbefore : ∃ t, md.getPrefixTerm x = some t := by
    by_cases hzero : x = 0
    · exact ⟨0, if_neg (by omega)⟩
    · have hin : ((x : ℤ) - 1).toNat < md.smrLog.length := by omega
      rw [getPrefixTerm_of_pos (by omega), List.getElem?_eq_getElem hin]
      exact ⟨_, rfl⟩
  obtain ⟨t, ht⟩ := hbefore
  rw [logRequestFor, hx, Option.bind_eq_bind, Option.bind_some, ht, Option.bind_some]
  split
  · exact ⟨_, rfl⟩
  · have hin : x < md.smrLog.length := by omega
    rw [getOp_natCast, List.getElem?_eq_getElem hin]
    exact ⟨_, rfl⟩

/-- The request for a peer that is behind carries the entry at its position. -/
lemma Ready.entryRequest (h : Ready md) (hbuilt : RequestBuilt md node req) {x : ℕ}
    (hx : md.sentTo node = some (x : ℤ)) (hne : x ≠ md.smrLog.length) :
    req.prefixLength = x ∧ req.opTerm ≠ -1 ∧ md.smrLog[x]? = some req.op ∧
      (x ≠ 0 → md.smrLog[x - 1]?.map MapOp.term = some req.prefixTerm) := by
  have hsize := h.sized.logSize
  have hbefore : req.prefixLength = x := Option.some.inj (hbuilt.sent.symm.trans hx)
  have hterm := hbuilt.prefixTerm
  rcases hbuilt.body with ⟨hend, -⟩ | ⟨-, hop⟩
  · omega
  · rw [hbefore, getOp_natCast] at hop
    have hnonneg := h.entry_term _ (List.mem_of_getElem? hop)
    change 0 ≤ req.opTerm at hnonneg
    refine ⟨hbefore, by omega, hop, fun hpos => ?_⟩
    have hidx : ((x : ℤ) - 1).toNat = x - 1 := by omega
    rw [hbefore, getPrefixTerm_of_pos (by omega), hidx] at hterm
    exact hterm

lemma Ready.heartbeat_le (h : Ready md) (hbuilt : RequestBuilt md node req)
    (hbeat : req.opTerm = -1) : req.commitLength ≤ req.prefixLength := by
  have hle := h.sized.commit_le
  have hcommit := hbuilt.commit
  rcases hbuilt.body with ⟨hend, -⟩ | ⟨-, hop⟩
  · omega
  · obtain ⟨-, hget⟩ := getOp_eq_some hop
    have hnonneg := h.entry_term _ (List.mem_of_getElem? hget)
    change 0 ≤ req.opTerm at hnonneg
    omega

lemma LogReply.answer (h : LogReply peer req peer' res) (hsized : Sized peer)
    (hbuilt : RequestBuilt md node req) : Answer md peer peer' := by
  refine ⟨h.sized hsized, h.factoryId.1, fun hfollows => ?_, fun hno => ?_, fun hle => ?_,
    fun hstored => ?_⟩
  · rw [← hbuilt.term] at hfollows ⊢
    exact ⟨(h.of_follows hfollows).1, (h.of_follows hfollows).2.1⟩
  · rw [← hbuilt.term] at hno
    exact (h.of_not_follows hno).1
  · rw [← hbuilt.commit] at hle ⊢
    rcases h.commit with hsame | ⟨hnext, hlt, -⟩ <;> omega
  · cases h with
    | refused | held => exact (hstored.adoptLeader req).frame
    | extended hterm hcan hends happ =>
        obtain ⟨k, rfl, hk⟩ :=
          (hstored.adoptLeader req).appendEntry (not_included_of_end hends) happ
        have happended := (hstored.adoptLeader req).appended req
        have hcommit : ((peer.adoptLeader req).appended req).commitLength =
            (peer.adoptLeader req).commitLength := by rw [appended_eq]
        have hnonneg := happended.commit_nonneg
        have hle := happended.commit_le
        have hexecuted : Stored (((peer.adoptLeader req).appended req).advance k) :=
          happended.advance (by omega) (by omega)
        exact hexecuted.frame

/-- A caller goes on unless it is behind its peer's term and looks at the answer. -/
theorem Ready.react (h : Ready md) (hnode : Positioned md node)
    (hslot : md.slot node < md.getPeerSize + 1) (hbuilt : RequestBuilt md node req)
    (hreply : LogReply peer req peer' res) (hpeer : Sized peer) :
    (md.sentTo node = some md.logSize ∧ Reaction md node peer peer' md) ∨
    (md.sentTo node ≠ some md.logSize ∧ Follows peer md.currentTerm ∧
      ∃ md', md.recvEntryResponse node res = some (md', true) ∧
        Reaction md node peer peer' md') ∨
    (md.sentTo node ≠ some md.logSize ∧ ¬ Follows peer md.currentTerm ∧
      ∃ md', md.recvEntryResponse node res = some (md', false)) := by
  obtain ⟨x, hx, hxle⟩ := hnode
  have hsize := h.sized.logSize
  by_cases hsent : md.sentTo node = some md.logSize
  · refine Or.inl ⟨hsent, .complete hsent (hreply.of_heartbeat ?_)⟩
    rcases hbuilt.body with ⟨-, hbeat⟩ | ⟨hne, -⟩
    · exact hbeat
    · exact absurd (Option.some.inj (hsent.symm.trans hbuilt.sent)) hne
  have hne : x ≠ md.smrLog.length := by
    rintro rfl
    rw [hsize] at hsent
    exact hsent hx
  have hxlt : x < md.smrLog.length := lt_of_le_of_ne hxle hne
  right
  by_cases hfollows : Follows peer md.currentTerm
  · refine Or.inl ⟨hsent, hfollows, ?_⟩
    have hfollows' : Follows peer req.currentTerm := hbuilt.term ▸ hfollows
    have hterm : res.currentTerm = md.currentTerm :=
      (hreply.of_follows hfollows').2.2.trans hbuilt.term
    by_cases hleader : md.status = .leader
    · obtain ⟨hbefore, hentry, hop, hterms⟩ := h.entryRequest hbuilt hx hne
      obtain ⟨hyes, hno⟩ := hreply.of_entry hpeer hfollows' hbefore hentry hop hterms
      obtain ⟨sent, hsentLength, hsentlen⟩ := h.sent
      obtain ⟨ack, hackLength, hacklen⟩ := h.ack
      by_cases hagree : AgreesAt MapOp.term md.smrLog peer.smrLog x
      · obtain ⟨hsuccess, hack, hlog⟩ := hyes hagree
        have hsized : Sized (md.recordAck node sent ack res.ack) := h.sized.of_same rfl rfl rfl
        obtain ⟨md', hcommit, hge, hle⟩ := hsized.commitLog_isSome rfl
          (by rw [List.length_set]; exact hacklen)
        refine ⟨md', recvEntryResponse_acked hterm hleader hsentLength hackLength (by omega)
          (by omega) hsuccess hcommit,
          .acked hx hxlt hleader hfollows hagree hsentLength hackLength hge hle ?_ hlog⟩
        rw [commitLog_frame hcommit, hack]
        rfl
      · obtain ⟨hrefused, hlog⟩ := hno hagree
        have hpos : x ≠ 0 := fun hzero => hagree (hzero ▸ agreesAt_zero)
        obtain ⟨sent', hsent', hget⟩ := sentTo_eq_some.1 hx
        obtain rfl : sent = sent' := Option.some.inj (hsentLength.symm.trans hsent')
        exact ⟨_, recvEntryResponse_backed hterm hleader hsentLength hackLength hget (by omega)
          hrefused, .backed hx hxlt hleader hfollows hagree hsentLength rfl hlog⟩
    · exact ⟨md, recvEntryResponse_ignored hleader hterm.le, .ignored hsent hleader hfollows⟩
  · have hno : ¬ Follows peer req.currentTerm := hbuilt.term ▸ hfollows
    have hlt : md.currentTerm < res.currentTerm := by
      rw [(hreply.of_not_follows hno).2]
      exact not_le.1 fun hle => hfollows (Or.inl hle)
    exact Or.inr ⟨hsent, hfollows, _, recvEntryResponse_deposed hlt⟩

/-! ## What an iteration changes -/

/-- The position of a peer, as an index. -/
def position (md : ServerMetadata) (node : ServerNode) : ℕ := ((md.sentTo node).getD 0).toNat

/-- The peer has not been sent everything. -/
def Behind (md : ServerMetadata) (node : ServerNode) : Prop := md.sentTo node ≠ some md.logSize

instance (md : ServerMetadata) (node : ServerNode) : Decidable (md.Behind node) :=
  inferInstanceAs (Decidable (_ ≠ _))

variable {node' : ServerNode}

lemma position_of_sentTo (h : md.sentTo node = some (x : ℤ)) : md.position node = x := by
  rw [position, h, Option.getD_some, Int.toNat_natCast]

lemma Positioned.sentTo (h : Positioned md node) :
    md.sentTo node = some (md.position node : ℤ) ∧ md.position node ≤ md.smrLog.length := by
  obtain ⟨x, hx, hle⟩ := h
  rw [position_of_sentTo hx]
  exact ⟨hx, hle⟩

lemma Positioned.behind_iff (h : Positioned md node) (hsized : Sized md) :
    md.Behind node ↔ md.position node < md.smrLog.length := by
  obtain ⟨hx, hle⟩ := h.sentTo
  have hsize := hsized.logSize
  rw [Behind, hx, hsize, Ne, Option.some.injEq, Int.natCast_inj]
  exact ⟨fun hne => lt_of_le_of_ne hle hne, fun hlt => hlt.ne⟩

lemma behind_of_sentTo (hsized : Sized md) (hx : md.sentTo node = some (x : ℤ))
    (hlt : x < md.smrLog.length) : md.Behind node := by
  rw [Behind, hx, hsized.logSize, Ne, Option.some.injEq, Int.natCast_inj]
  exact hlt.ne

/-- A slot that is set, and the others. -/
lemma sentTo_set {sent : List ℤ} {k : ℤ} (hsent : md'.sentLength = some (sent.set (md.slot node) k))
    (hold : md.sentLength = some sent) (hindex : md'.serverIndexMap = md.serverIndexMap) :
    (md.slot node < sent.length → md'.sentTo node = some k) ∧
      ∀ node', md.slot node' ≠ md.slot node → md'.sentTo node' = md.sentTo node' := by
  have hslot : ∀ node, md'.slot node = md.slot node := fun node => by rw [slot, slot, hindex]
  constructor
  · intro hlt
    exact sentTo_eq_some.2 ⟨_, hsent, by rw [hslot, List.getElem?_set_self hlt]⟩
  · intro node' hne
    rw [ServerMetadata.sentTo, ServerMetadata.sentTo, hsent, hold, hslot, Option.bind_eq_bind,
      Option.bind_some, Option.bind_some, List.getElem?_set_ne (Ne.symm hne)]

lemma ackTo_set {ack : List ℤ} {k : ℤ} (hack : md'.ackLength = some (ack.set (md.slot node) k))
    (hold : md.ackLength = some ack) (hindex : md'.serverIndexMap = md.serverIndexMap) :
    (md.slot node < ack.length → md'.ackTo node = some k) ∧
      ∀ node', md.slot node' ≠ md.slot node → md'.ackTo node' = md.ackTo node' := by
  have hslot : ∀ node, md'.slot node = md.slot node := fun node => by rw [slot, slot, hindex]
  constructor
  · intro hlt
    rw [ackTo, hack, hslot, Option.bind_eq_bind, Option.bind_some, List.getElem?_set_self hlt]
  · intro node' hne
    rw [ackTo, ackTo, hack, hold, hslot, Option.bind_eq_bind, Option.bind_some,
      Option.bind_some, List.getElem?_set_ne (Ne.symm hne)]

namespace Reaction

/-- The arrays, the commit length and the record are all that changes. -/
lemma frame (h : Reaction md node peer peer' md') :
    md' = { md with
      sentLength := md'.sentLength
      ackLength := md'.ackLength
      commitLength := md'.commitLength
      customerRecord := md'.customerRecord } := by
  cases h with
  | complete | ignored => rfl
  | acked hk hx hleader hfollows hagree hsent hack hcommit hle hmd hlog => rw [hmd]
  | backed hk hx hleader hfollows hagree hsent hmd hlog => rw [hmd]

lemma commit (h : Reaction md node peer peer' md') (hsized : Sized md) :
    md.commitLength ≤ md'.commitLength ∧ md'.commitLength ≤ md.logSize := by
  cases h with
  | complete | ignored => exact ⟨le_refl _, hsized.commit_le⟩
  | acked hk hx hleader hfollows hagree hsent hack hcommit hle hmd hlog => exact ⟨hcommit, hle⟩
  | backed hk hx hleader hfollows hagree hsent hmd hlog =>
      rw [hmd]
      exact ⟨le_refl _, hsized.commit_le⟩

lemma others (h : Reaction md node peer peer' md') (hne : md.slot node' ≠ md.slot node) :
    md'.sentTo node' = md.sentTo node' ∧ md'.ackTo node' = md.ackTo node' := by
  cases h with
  | complete | ignored => exact ⟨rfl, rfl⟩
  | acked hk hx hleader hfollows hagree hsent hack hcommit hle hmd hlog =>
      exact ⟨(sentTo_set (by rw [hmd]) hsent (by rw [hmd])).2 node' hne,
        (ackTo_set (by rw [hmd]) hack (by rw [hmd])).2 node' hne⟩
  | backed hk hx hleader hfollows hagree hsent hmd hlog =>
      refine ⟨(sentTo_set (by rw [hmd]) hsent (by rw [hmd])).2 node' hne, ?_⟩
      rw [hmd]
      rfl

lemma ready (h : Reaction md node peer peer' md') (hready : Ready md) : Ready md' := by
  obtain ⟨hge, hle⟩ := h.commit hready.sized
  have hnonneg := hready.sized.commit_nonneg
  have hframe := h.frame
  have harrays : (∃ xs, md'.sentLength = some xs ∧ xs.length = md.getPeerSize + 1) ∧
      ∃ xs, md'.ackLength = some xs ∧ xs.length = md.getPeerSize + 1 := by
    cases h with
    | complete | ignored => exact ⟨hready.sent, hready.ack⟩
    | acked hk hx hleader hfollows hagree hsent hack hcommit hle hmd hlog =>
        exact ⟨⟨_, by rw [hmd], by rw [List.length_set, hready.sent_length hsent]⟩,
          ⟨_, by rw [hmd], by rw [List.length_set, hready.ack_length hack]⟩⟩
    | backed hk hx hleader hfollows hagree hsent hmd hlog =>
        rw [hmd]
        exact ⟨⟨_, rfl, by rw [List.length_set, hready.sent_length hsent]⟩, hready.ack⟩
  have hpeers : md'.getPeerSize = md.getPeerSize := by rw [hframe, getPeerSize, getPeerSize]
  refine ⟨?_, ⟨?_, by omega, ?_⟩, ?_, by rw [hpeers]; exact harrays.1,
    by rw [hpeers]; exact harrays.2⟩
  · rw [hframe]
    exact hready.valid
  · rw [hframe]
    exact hready.sized.logSize
  · rw [hframe]
    exact hle
  · rw [hframe]
    exact hready.entry_term

/-- What is answered to a heartbeat moves nothing. -/
lemma of_not_behind (h : Reaction md node peer peer' md') (hsized : Sized md)
    (hcomplete : ¬ md.Behind node) : md' = md ∧ peer'.smrLog = peer.smrLog := by
  have hsize := hsized.logSize
  have hend := not_not.1 hcomplete
  cases h with
  | complete hsent hlog => exact ⟨rfl, hlog⟩
  | ignored hsent => exact absurd hend hsent
  | acked hk hx =>
      have heq := Option.some.inj (hend.symm.trans hk)
      omega
  | backed hk hx =>
      have heq := Option.some.inj (hend.symm.trans hk)
      omega

/-- A caller that is not leader moves no position. -/
lemma of_not_leader (h : Reaction md node peer peer' md') (hstatus : md.status ≠ .leader) :
    md' = md := by
  cases h with
  | complete | ignored => rfl
  | acked hk hx hleader => exact absurd hleader hstatus
  | backed hk hx hleader => exact absurd hleader hstatus

/-- **The position and the log of a peer that is behind, with a leader it follows, are moved by
an exchange.** -/
theorem exchange (h : Reaction md node peer peer' md') (hready : Ready md)
    (hslot : md.slot node < md.getPeerSize + 1) (hbehind : md.Behind node)
    (hleader : md.status = .leader) :
    md'.sentTo node = some ((LaptopRaft.exchange MapOp.term md.smrLog
        (md.position node, peer.smrLog)).1 : ℤ) ∧
      peer'.smrLog = (LaptopRaft.exchange MapOp.term md.smrLog
        (md.position node, peer.smrLog)).2 := by
  cases h with
  | complete hsent => exact absurd hsent hbehind
  | ignored hsent hstatus => exact absurd hleader hstatus
  | @acked x _ _ _ hk hx hleader hfollows hagree hsent hack hcommit hle hmd hlog =>
      have hlen := hready.sent_length hsent
      have hset : md'.sentTo node = some ((x : ℤ) + 1) :=
        (sentTo_set (by rw [hmd]) hsent (by rw [hmd])).1 (by omega)
      rw [position_of_sentTo hk, LaptopRaft.exchange, if_pos hagree]
      exact ⟨hset, hlog⟩
  | @backed x _ _ hk hx hleader hfollows hagree hsent hmd hlog =>
      have hlen := hready.sent_length hsent
      have hpos : x ≠ 0 := fun hzero => hagree (hzero ▸ agreesAt_zero)
      have hprev : ((x - 1 : ℕ) : ℤ) = x - 1 := by omega
      have hset : md'.sentTo node = some ((x : ℤ) - 1) :=
        (sentTo_set (by rw [hmd]) hsent (by rw [hmd])).1 (by omega)
      rw [position_of_sentTo hk, LaptopRaft.exchange, if_neg hagree]
      dsimp only
      rw [hprev]
      exact ⟨hset, hlog⟩

/-- The peer keeps a position. -/
lemma positioned (h : Reaction md node peer peer' md') (hready : Ready md)
    (hslot : md.slot node < md.getPeerSize + 1) (hnode : Positioned md node) :
    Positioned md' node := by
  by_cases hleader : md.status = .leader
  · by_cases hbehind : md.Behind node
    · have hlt := (hnode.behind_iff hready.sized).1 hbehind
      refine ⟨_, (h.exchange hready hslot hbehind hleader).1, ?_⟩
      rw [h.frame]
      exact exchange_fst_le hlt
    · rw [(h.of_not_behind hready.sized hbehind).1]
      exact hnode
  · rw [h.of_not_leader hleader]
    exact hnode

/-- A log that is a beginning of the caller's goes on to be one, and is the whole of it when the
position has come to the end. -/
lemma settles (h : Reaction md node peer peer' md') (hready : Ready md)
    (hslot : md.slot node < md.getPeerSize + 1) (hnode : Positioned md node)
    (hleader : md.status = .leader) (hpre : peer.smrLog <+: md.smrLog) :
    peer'.smrLog <+: md.smrLog ∧
      (md.Behind node → ¬ md'.Behind node → peer'.smrLog = md.smrLog) := by
  by_cases hbehind : md.Behind node
  · obtain ⟨hsent, hlog⟩ := h.exchange hready hslot hbehind hleader
    rw [hlog]
    refine ⟨exchange_isPrefix hpre, fun _ hcomplete => ?_⟩
    have hsize : md'.logSize = md.smrLog.length := by
      rw [h.frame]
      exact hready.sized.logSize
    rw [Behind, hsent, hsize, not_not, Option.some.injEq, Int.natCast_inj] at hcomplete
    exact exchange_completes hpre ((hnode.behind_iff hready.sized).1 hbehind) hcomplete
  · rw [(h.of_not_behind hready.sized hbehind).2]
    exact ⟨hpre, fun h => absurd h hbehind⟩

end Reaction

end ServerMetadata

end LaptopRaft
