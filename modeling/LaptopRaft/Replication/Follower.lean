import LaptopRaft.Properties.Exchange

/-!
# What a follower makes of a log request

`GetLogResponse` by itself, from any state and for any request.  An answer of success says that
the sender's log and this one agree up to `prefix_length`.  What the request carries is then
written, and an entry executed, only if the log ends there: a log that goes on is left as it is,
whatever it goes on with.

* `DropUncommittedLog`, which should cut such a log, counts its argument up to `prefix_length`.
  There is nothing to count, and so nothing is dropped (`drop_uncommitted_iff`).  Its call stands
  where the log ends at `prefix_length` anyway.
* So the entry of the request is in its place exactly if the log ends at `prefix_length`, or has
  that entry there already (`suffix_replaced_iff`).
* The commit length is never moved too far, but where the log is longer it is not moved at all
  (`commit_progress_iff`).
* A request that was answered with success finds its prefix and its entry at any later time, and
  a sender that was followed is followed: delivering it again changes nothing
  (`redelivery_harmless`).
-/

namespace LaptopRaft

namespace ServerMetadata

variable {md md' : ServerMetadata} {req : LogRequest} {res : LogResponse} {p size : ℤ}

/-! ## `DropUncommittedLog` -/

/-- The log is cut after its first `p` entries. -/
structure CutTo (md : ServerMetadata) (p : ℤ) (md' : ServerMetadata) : Prop where
  smrLog : md'.smrLog = md.smrLog.take p.toNat
  logSize : md'.logSize = p

/-- The loop begins where it ends. -/
lemma dropUncommittedLog_of_le (h : p ≤ size) : md.dropUncommittedLog size p = some md := by
  have hnone : (p - size).toNat = 0 := by omega
  rw [dropUncommittedLog, hnone]
  rfl

/-- **The truncation helper** cuts the log where it ends, and nowhere else. -/
theorem drop_uncommitted_iff (hsize : md.logSize = md.smrLog.length) (hnonneg : 0 ≤ p)
    (hle : p ≤ md.logSize) :
    (∃ md', md.dropUncommittedLog md.logSize p = some md' ∧ CutTo md p md') ↔
      p = md.logSize := by
  rw [dropUncommittedLog_of_le hle]
  constructor
  · rintro ⟨md', hmd', hcut⟩
    obtain rfl := Option.some.inj hmd'
    exact hcut.logSize.symm
  · rintro rfl
    refine ⟨md, rfl, ?_, rfl⟩
    rw [hsize, Int.toNat_natCast, List.take_length]

theorem drop_uncommitted_atEnd :
    ∃ md' : ServerMetadata,
      ({ smrLog := [⟨1, 7, 1⟩], logSize := 1 } : ServerMetadata).dropUncommittedLog 1 1 =
        some md' ∧
      CutTo { smrLog := [⟨1, 7, 1⟩], logSize := 1 } 1 md' :=
  (drop_uncommitted_iff rfl (by decide) (by decide)).2 rfl

/-- Of two entries the second should go. -/
theorem drop_uncommitted_nothing :
    ¬ ∃ md' : ServerMetadata,
      ({ smrLog := [⟨1, 7, 1⟩, ⟨1, 7, 2⟩], logSize := 2 } : ServerMetadata).dropUncommittedLog 2 1 =
        some md' ∧
      CutTo { smrLog := [⟨1, 7, 1⟩, ⟨1, 7, 2⟩], logSize := 2 } 1 md' := by
  rintro ⟨md', hmd', hcut⟩
  rw [dropUncommittedLog_of_le (by decide)] at hmd'
  obtain rfl := Option.some.inj hmd'
  exact absurd hcut.logSize (by decide)

/-! ## The entry of a request -/

/-- What an answer of success to an entry request should leave behind. -/
structure ReplacesSuffix (md : ServerMetadata) (req : LogRequest) (md' : ServerMetadata) :
    Prop where
  size : md'.logSize = md'.smrLog.length
  kept : md'.smrLog.take req.prefixLength.toNat = md.smrLog.take req.prefixLength.toNat
  entry : md'.smrLog[req.prefixLength.toNat]? = some req.op
  dropped : ∀ op, md.smrLog[req.prefixLength.toNat]? = some op → op.term ≠ req.opTerm →
    md'.logSize = req.prefixLength + 1

/-- Where the log is extended, the next entry is executed if the sender has committed it. -/
lemma appendEntry_commitLength (hnot : ¬ md.included req) (happ : md.appendEntry req = some md') :
    md'.commitLength =
      if md.commitLength < req.commitLength then md.commitLength + 1 else md.commitLength := by
  have hcommit : (md.appended req).commitLength = md.commitLength := by rw [appended_eq]
  rw [ServerMetadata.appendEntry, if_neg hnot, Option.bind_eq_bind, Option.bind_some] at happ
  change (if (md.appended req).commitLength < req.commitLength then
    (md.appended req).executeLog (md.appended req).commitLength
    else some (md.appended req)) = some md' at happ
  rw [← hcommit]
  split at happ
  · rename_i hlt
    obtain ⟨op, -, rfl⟩ := Option.map_eq_some_iff.1 happ
    rw [if_pos hlt]
  · rename_i hle
    obtain rfl := Option.some.inj happ
    rw [if_neg hle]

/-- An answer of success either leaves the log as it is, which goes on after the prefix, or
extends a log that ends there. -/
lemma LogReply.of_success (h : LogReply md req md' res) (hsuccess : res.success ≠ 0) :
    (req.prefixLength < md.logSize ∧ md'.smrLog = md.smrLog ∧ md'.logSize = md.logSize ∧
      md'.commitLength = md.commitLength) ∨
    (req.prefixLength = md.logSize ∧ md'.smrLog = (md.appended req).smrLog ∧
      md'.logSize = (md.appended req).logSize ∧
      md'.commitLength =
        if md.commitLength < req.commitLength then md.commitLength + 1 else md.commitLength) := by
  cases h with
  | refused => exact absurd rfl hsuccess
  | held hterm hcan hlonger =>
      exact Or.inl ⟨hlonger, adoptLeader_smrLog md req, adoptLeader_logSize md req,
        adoptLeader_commitLength md req⟩
  | extended hterm hcan hends happ =>
      have hcommit := appendEntry_commitLength (not_included_of_end hends) happ
      rw [adoptLeader_commitLength] at hcommit
      obtain ⟨hlog, hsize⟩ := appendEntry_log hends happ
      exact Or.inr ⟨hends, hlog, hsize, hcommit⟩

/-- **An entry answered with success** is in its place if the log ended there, or had that entry
there before.  A conflicting entry stays, and so does what follows it. -/
theorem suffix_replaced_iff (hsize : md.logSize = md.smrLog.length)
    (hnonneg : 0 ≤ req.prefixLength) (hentry : req.opTerm ≠ -1)
    (hanswer : md.getLogResponse req = some (md', res)) (hsuccess : res.success ≠ 0) :
    ReplacesSuffix md req md' ↔
      req.prefixLength = md.logSize ∨ md.smrLog[req.prefixLength.toNat]? = some req.op := by
  rcases (getLogResponse_reply hanswer).of_success hsuccess with
    ⟨hlonger, hlog, hsize', -⟩ | ⟨hends, hlog, hsize', -⟩
  · constructor
    · intro h
      exact Or.inr (hlog ▸ h.entry)
    · rintro (hends | hheld)
      · omega
      · refine ⟨by rw [hsize', hlog, hsize], by rw [hlog], by rw [hlog, hheld], ?_⟩
        -- the entry that is there is the one of the request
        intro op hop hne
        obtain rfl := Option.some.inj (hheld.symm.trans hop)
        exact absurd rfl hne
  · have hlength : req.prefixLength.toNat = md.smrLog.length := by omega
    have happended : md.appended req = md.appendLog req.opTerm req.opArg1 req.opArg2 :=
      if_pos hentry
    have hgrown : md'.smrLog = md.smrLog ++ [req.op] := by
      rw [hlog, happended]
      rfl
    refine iff_of_true ⟨?_, ?_, ?_, ?_⟩ (Or.inl hends)
    · rw [hsize', hgrown, happended]
      show md.logSize + 1 = _
      rw [List.length_append, hsize]
      rfl
    · rw [hgrown, hlength, List.take_append_of_le_length le_rfl]
    · rw [hgrown, hlength, List.getElem?_append_right le_rfl, Nat.sub_self]
      rfl
    · intro op hop
      rw [hlength, List.getElem?_eq_none le_rfl] at hop
      cases hop

/-- A follower that has logged one entry, and committed none. -/
def loggedOne : ServerMetadata := { currentTerm := 1, smrLog := [⟨1, 7, 1⟩], logSize := 1 }

theorem suffix_replaced_atEnd : ∃ md' res,
    loggedOne.getLogResponse ⟨0, 1, 1, 1, 0, 1, 7, 2⟩ = some (md', res) ∧
    ReplacesSuffix loggedOne ⟨0, 1, 1, 1, 0, 1, 7, 2⟩ md' :=
  ⟨_, _, rfl, (suffix_replaced_iff rfl (by decide) (by decide) rfl (by decide)).2 (Or.inl rfl)⟩

/-- The entry of term 1 stays in the place of that of term 2. -/
theorem suffix_kept : loggedOne.logSize = loggedOne.smrLog.length ∧
    ∃ req md' res, 0 ≤ req.prefixLength ∧ req.opTerm ≠ -1 ∧
    loggedOne.getLogResponse req = some (md', res) ∧ res.success ≠ 0 ∧
    ¬ ReplacesSuffix loggedOne req md' := by
  refine ⟨rfl, ⟨0, 2, 0, 0, 0, 2, 8, 1⟩, _, _, by decide, by decide, rfl, by decide,
    fun h => ?_⟩
  exact absurd h.entry (by decide)

/-! ## The commit point -/

/-- The length of the log up to which a request vouches for it. -/
def reach (req : LogRequest) : ℤ :=
  if req.opTerm = -1 then req.prefixLength else req.prefixLength + 1

/-- What a request answered with success should do to the commit length. -/
structure CommitProgress (md : ServerMetadata) (req : LogRequest) (md' : ServerMetadata) :
    Prop where
  advances : md.commitLength < min req.commitLength (reach req) →
    md.commitLength < md'.commitLength
  capped : md'.commitLength ≤ max md.commitLength (min req.commitLength (reach req))

/-- **A request answered with success** moves the commit length on if the log ends at its prefix.
A longer log is not looked at, even where it agrees with the request. -/
theorem commit_progress_iff (hsized : Sized md)
    (hheartbeat : req.opTerm = -1 → req.commitLength ≤ req.prefixLength)
    (hanswer : md.getLogResponse req = some (md', res)) (hsuccess : res.success ≠ 0) :
    CommitProgress md req md' ↔
      req.prefixLength = md.logSize ∨
        min req.commitLength (reach req) ≤ md.commitLength := by
  rcases (getLogResponse_reply hanswer).of_success hsuccess with
    ⟨hlonger, -, -, hcommit⟩ | ⟨hends, -, -, hcommit⟩
  · constructor
    · intro h
      refine Or.inr (not_lt.1 fun hbehind => ?_)
      have hmoved := h.advances hbehind
      omega
    · rintro (hends | hle)
      · omega
      · exact ⟨fun hlt => absurd hlt (not_lt.2 hle), hcommit ▸ le_max_left _ _⟩
  · refine iff_of_true ?_ (Or.inl hends)
    have hle := hsized.commit_le
    -- a commit length that is behind the sender's is behind the request as well
    have hbehind : md.commitLength < req.commitLength →
        md.commitLength < min req.commitLength (reach req) := by
      intro hlt
      refine lt_min hlt ?_
      unfold reach
      split
      · rename_i hbeat
        have := hheartbeat hbeat
        omega
      · omega
    by_cases hlt : md.commitLength < req.commitLength
    · rw [if_pos hlt] at hcommit
      have := hbehind hlt
      exact ⟨fun _ => by omega, by omega⟩
    · rw [if_neg hlt] at hcommit
      refine ⟨fun h => absurd (lt_of_lt_of_le h (min_le_left _ _)) hlt, ?_⟩
      rw [hcommit]
      exact le_max_left _ _

theorem commit_progress_atEnd : ∃ md' res,
    loggedOne.getLogResponse ⟨0, 1, 1, 1, 1, -1, -1, -1⟩ = some (md', res) ∧
    CommitProgress loggedOne ⟨0, 1, 1, 1, 1, -1, -1, -1⟩ md' :=
  ⟨_, _, rfl, (commit_progress_iff ⟨rfl, by decide, by decide⟩ (by decide) rfl (by decide)).2
    (Or.inl rfl)⟩

/-- The leader has committed the entry it sends, and the follower has it already. -/
theorem commit_held_back : Sized loggedOne ∧ ∃ req md' res,
    (req.opTerm = -1 → req.commitLength ≤ req.prefixLength) ∧
    loggedOne.getLogResponse req = some (md', res) ∧ res.success ≠ 0 ∧
    ¬ CommitProgress loggedOne req md' := by
  refine ⟨⟨rfl, by decide, by decide⟩, ⟨0, 1, 0, 0, 1, 1, 7, 1⟩, _, _, by decide, rfl,
    by decide, fun h => ?_⟩
  exact absurd (h.advances (by decide)) (by decide)

/-! ## Requests that come twice -/

/-- The requests are answered one after the other. -/
def delivered (md : ServerMetadata) (reqs : List LogRequest) : Option ServerMetadata :=
  reqs.foldlM (fun md req => (md.getLogResponse req).map (·.1)) md

/-- A request of leader `l` in term `t`. -/
structure SentBy (t l : ℤ) (req : LogRequest) : Prop where
  term : req.currentTerm = t
  leaderId : req.leaderId = l
  heartbeat : req.opTerm = -1 → req.commitLength ≤ req.prefixLength

/-- What following leader `l` in term `t` leaves of a server's own role. -/
structure Following (md : ServerMetadata) (t l : ℤ) : Prop where
  currentTerm : md.currentTerm = t
  status : md.status = .follower
  leaderId : md.leaderId = l
  voteReceived : md.voteReceived = ∅
  votedFor : md.votedFor = -1
  heartbeat : md.heartbeat = true

/-- The log goes on after the prefix of the request, and agrees with it there. -/
structure Holds (md : ServerMetadata) (req : LogRequest) : Prop where
  included : md.included req
  canLog : md.canLog req = some true

lemma Following.adoptLeader_eq (h : Following md req.currentTerm req.leaderId) :
    md.adoptLeader req = md := by
  rw [adoptLeader_of_follows (Or.inr h.status), ← h.currentTerm, ← h.leaderId, ← h.status,
    ← h.voteReceived, ← h.votedFor, ← h.heartbeat]

lemma Following.setHeartbeat_eq {t l : ℤ} (h : Following md t l) :
    md.setHeartbeat true = md := by
  rw [← h.heartbeat]
  rfl

lemma LogReply.following (h : LogReply md req md' res) (hfollows : Follows md req.currentTerm) :
    Following md' req.currentTerm req.leaderId := by
  rw [h.frame, adoptLeader_of_follows hfollows]
  exact ⟨rfl, rfl, rfl, rfl, rfl, rfl⟩

/-- The log below the prefix stays where it is. -/
lemma canLog_of_extends (h : md.canLog req = some true) (hlog : md.smrLog <+: md'.smrLog)
    (hsize : md.logSize ≤ md'.logSize) : md'.canLog req = some true := by
  obtain ⟨hle, hterm⟩ := canLog_eq_true.1 h
  refine canLog_eq_true.2 ⟨hle.trans hsize, hterm.imp_right ?_⟩
  unfold getTermAtIdx
  split
  · exact id
  · intro hget
    obtain ⟨op, hop, -⟩ := Option.map_eq_some_iff.1 hget
    obtain ⟨hlt, -⟩ := List.getElem?_eq_some_iff.1 hop
    obtain ⟨more, hmore⟩ := hlog
    rw [← hmore, List.getElem?_append_left hlt]
    exact hget

lemma Holds.of_extends (h : Holds md req) (hlog : md.smrLog <+: md'.smrLog)
    (hsize : md.logSize ≤ md'.logSize) : Holds md' req :=
  ⟨lt_of_lt_of_le h.included hsize, canLog_of_extends h.canLog hlog hsize⟩

lemma LogReply.extends (h : LogReply md req md' res) :
    md.smrLog <+: md'.smrLog ∧ md.logSize ≤ md'.logSize := by
  rcases h.log with ⟨hlog, hsize⟩ | ⟨-, hlog, hsize⟩
  · rw [hlog, hsize]
    exact ⟨List.prefix_rfl, le_rfl⟩
  · rw [hlog, hsize, appended_smrLog]
    refine ⟨List.prefix_append _ _, ?_⟩
    unfold appended
    split
    · show md.logSize ≤ md.logSize + 1
      omega
    · exact le_rfl

/-- An answer of success is given by a server that follows the sender. -/
lemma LogReply.follows (h : LogReply md req md' res) (hsuccess : res.success ≠ 0) :
    Follows md req.currentTerm := by
  by_contra hno
  rw [(h.of_not_follows hno).2] at hsuccess
  exact hsuccess rfl

@[simp] lemma canLog_adoptLeader : (md.adoptLeader req).canLog req = md.canLog req := by
  simp [canLog, getTermAtIdx]

/-- An entry that is answered with success has its place in the log. -/
lemma LogReply.holds (h : LogReply md req md' res) (hentry : req.opTerm ≠ -1)
    (hsuccess : res.success ≠ 0) : Holds md' req := by
  obtain ⟨hlog, hsize⟩ := h.extends
  have hcan : md.canLog req = some true := by
    cases h with
    | refused => exact absurd rfl hsuccess
    | held hterm hcan hlonger => rwa [canLog_adoptLeader] at hcan
    | extended hterm hcan hends happ => rwa [canLog_adoptLeader] at hcan
  refine ⟨?_, canLog_of_extends hcan hlog hsize⟩
  show req.prefixLength < md'.logSize
  rcases h.of_success hsuccess with ⟨hlonger, -⟩ | ⟨hends, -, hsize', -⟩
  · exact lt_of_lt_of_le hlonger hsize
  · rw [hsize', appended, if_pos hentry, hends]
    show md.logSize < md.logSize + 1
    omega

lemma LogReply.response (h : LogReply md req md' res) (hsuccess : res.success ≠ 0) :
    res = ⟨md'.factoryId, req.currentTerm, req.prefixLength + 1, 1⟩ := by
  rw [h.factoryId.1]
  cases h with
  | refused => exact absurd rfl hsuccess
  | held => rfl
  | extended => rfl

/-- **A request whose prefix and entry are there** changes nothing. -/
lemma getLogResponse_of_holds (hfollowing : Following md req.currentTerm req.leaderId)
    (hholds : Holds md req) :
    md.getLogResponse req =
      some (md, ⟨md.factoryId, req.currentTerm, req.prefixLength + 1, 1⟩) := by
  rw [getLogResponse, hfollowing.adoptLeader_eq, hholds.canLog, Option.bind_eq_bind,
    Option.bind_some, if_pos ⟨hfollowing.currentTerm, rfl⟩, if_pos hholds.included,
    Option.bind_eq_bind, Option.bind_some, hfollowing.setHeartbeat_eq, hfollowing.currentTerm]

/-- A refusal changes nothing when it is given again. -/
lemma getLogResponse_refused_again (hsized : Sized md)
    (hno : ¬ ((md.adoptLeader req).currentTerm = req.currentTerm ∧
      (md.adoptLeader req).canLog req = some true)) :
    ((md.adoptLeader req).setHeartbeat true).getLogResponse req =
      some ((md.adoptLeader req).setHeartbeat true,
        ⟨md.factoryId, (md.adoptLeader req).currentTerm, 0, 0⟩) := by
  have hagain : ((md.adoptLeader req).setHeartbeat true).adoptLeader req =
      (md.adoptLeader req).setHeartbeat true := by
    unfold adoptLeader setHeartbeat
    split
    · rw [if_pos (Or.inr rfl)]
    · rfl
  have hsized' : Sized ((md.adoptLeader req).setHeartbeat true) :=
    hsized.of_same (adoptLeader_smrLog md req) (adoptLeader_logSize md req)
      (adoptLeader_commitLength md req)
  obtain ⟨can, hcan⟩ := hsized'.canLog_isSome req
  have hrefused : ¬ (((md.adoptLeader req).setHeartbeat true).currentTerm = req.currentTerm ∧
      can = true) := by
    rintro ⟨hterm, rfl⟩
    exact hno ⟨hterm, hcan⟩
  rw [getLogResponse, hagain, hcan, Option.bind_eq_bind, Option.bind_some, if_neg hrefused]
  show some (_, (⟨(md.adoptLeader req).factoryId, _, 0, 0⟩ : LogResponse)) = _
  rw [adoptLeader_factoryId]
  rfl

/-- An entry that comes twice in a row. -/
lemma getLogResponse_twice (hsized : Sized md) (hentry : req.opTerm ≠ -1) :
    ∃ md' res, md.getLogResponse req = some (md', res) ∧
      md'.getLogResponse req = some (md', res) := by
  obtain ⟨⟨md', res⟩, hanswer⟩ := hsized.getLogResponse_isSome fun hbeat => absurd hbeat hentry
  refine ⟨md', res, hanswer, ?_⟩
  have hreply := getLogResponse_reply hanswer
  by_cases hsuccess : res.success ≠ 0
  · rw [getLogResponse_of_holds (hreply.following (hreply.follows hsuccess))
      (hreply.holds hentry hsuccess), ← hreply.response hsuccess]
  · cases hreply with
    | refused hno => exact getLogResponse_refused_again hsized hno
    | held => exact absurd one_ne_zero hsuccess
    | extended => exact absurd one_ne_zero hsuccess

/-- Deliveries are defined. -/
lemma Sized.delivered_isSome (hsized : Sized md) {t l : ℤ} {reqs : List LogRequest}
    (hsent : ∀ r ∈ reqs, SentBy t l r) :
    ∃ md', md.delivered reqs = some md' ∧ Sized md' := by
  refine foldlM_total hsized fun r hr m hm => ?_
  obtain ⟨⟨m', res⟩, hanswer⟩ := hm.getLogResponse_isSome (hsent r hr).heartbeat
  exact ⟨m', by rw [hanswer]; rfl, (getLogResponse_reply hanswer).sized hm⟩

/-- Later requests of the same leader leave a request where it is. -/
lemma Holds.delivered {t l : ℤ} {reqs : List LogRequest} (hsized : Sized md)
    (hfollowing : Following md t l) (hholds : Holds md req) (hsent : ∀ r ∈ reqs, SentBy t l r) :
    ∃ md', md.delivered reqs = some md' ∧ Following md' t l ∧ Holds md' req ∧
      md'.factoryId = md.factoryId := by
  obtain ⟨md', hmd', -, hlater⟩ : ∃ md', md.delivered reqs = some md' ∧ Sized md' ∧
      Following md' t l ∧ Holds md' req ∧ md'.factoryId = md.factoryId := by
    refine foldlM_total ⟨hsized, hfollowing, hholds, rfl⟩ fun r hr m hm => ?_
    obtain ⟨hm, hfollowing, hholds, hfactory⟩ := hm
    obtain ⟨⟨m', res⟩, hanswer⟩ := hm.getLogResponse_isSome (hsent r hr).heartbeat
    have hreply := getLogResponse_reply hanswer
    have hfollowing' := hreply.following (Or.inr hfollowing.status)
    rw [(hsent r hr).term, (hsent r hr).leaderId] at hfollowing'
    exact ⟨m', by rw [hanswer]; rfl, hreply.sized hm, hfollowing',
      hholds.of_extends hreply.extends.1 hreply.extends.2, hreply.factoryId.1.trans hfactory⟩
  exact ⟨md', hmd', hlater⟩

/-- **Duplicate delivery.**  In a sequence of requests of one leader, an entry that was answered
with success may be delivered again at any later point; and any entry may be delivered twice in
a row. -/
theorem redelivery_harmless (hsized : Sized md) :
    (∀ (t l : ℤ) (before after : List LogRequest) (req : LogRequest), req.opTerm ≠ -1 →
      (∀ r ∈ before ++ req :: after, SentBy t l r) →
      ∃ md₁ md₂ res md₃, md.delivered before = some md₁ ∧
        md₁.getLogResponse req = some (md₂, res) ∧ md₂.delivered after = some md₃ ∧
        (res.success ≠ 0 → md₃.getLogResponse req = some (md₃, res))) ∧
    ∀ req : LogRequest, req.opTerm ≠ -1 → ∃ md' res,
      md.getLogResponse req = some (md', res) ∧ md'.getLogResponse req = some (md', res) := by
  refine ⟨fun t l before after req hentry hsent => ?_, fun req => getLogResponse_twice hsized⟩
  have hreq : SentBy t l req := hsent req (by simp)
  have hrest : ∀ r ∈ after, SentBy t l r := fun r hr => hsent r (by simp [hr])
  have hfirst : ∀ r ∈ before, SentBy t l r := fun r hr => hsent r (by simp [hr])
  obtain ⟨md₁, hbefore, hsized₁⟩ := hsized.delivered_isSome hfirst
  obtain ⟨⟨md₂, res⟩, hanswer⟩ := hsized₁.getLogResponse_isSome hreq.heartbeat
  have hreply := getLogResponse_reply hanswer
  have hsized₂ := hreply.sized hsized₁
  by_cases hsuccess : res.success ≠ 0
  · have hfollowing := hreply.following (hreply.follows hsuccess)
    rw [hreq.term, hreq.leaderId] at hfollowing
    obtain ⟨md₃, hafter, hfollowing₃, hholds, hfactory⟩ :=
      (hreply.holds hentry hsuccess).delivered hsized₂ hfollowing hrest
    refine ⟨md₁, md₂, res, md₃, hbefore, hanswer, hafter, fun _ => ?_⟩
    rw [← hreq.term, ← hreq.leaderId] at hfollowing₃
    rw [getLogResponse_of_holds hfollowing₃ hholds, hfactory, ← hreply.response hsuccess]
  · obtain ⟨md₃, hafter, -⟩ := hsized₂.delivered_isSome hrest
    exact ⟨md₁, md₂, res, md₃, hbefore, hanswer, hafter, fun hyes => absurd hyes hsuccess⟩

/-- A leader of term 1 hears of its successor, whose entry comes again after a heartbeat. -/
theorem redelivery_oneEntry : ∃ md₁ md₂ res md₃,
    ({ status := .leader, currentTerm := 1 } : ServerMetadata).delivered
      [⟨0, 2, 0, 0, 0, -1, -1, -1⟩] = some md₁ ∧
    md₁.getLogResponse ⟨0, 2, 0, 0, 0, 2, 7, 1⟩ = some (md₂, res) ∧
    md₂.delivered [⟨0, 2, 1, 2, 1, -1, -1, -1⟩] = some md₃ ∧
    res.success ≠ 0 ∧ md₃.getLogResponse ⟨0, 2, 0, 0, 0, 2, 7, 1⟩ = some (md₃, res) := by
  have hsent : ∀ r ∈ [(⟨0, 2, 0, 0, 0, -1, -1, -1⟩ : LogRequest)] ++
      ⟨0, 2, 0, 0, 0, 2, 7, 1⟩ :: [⟨0, 2, 1, 2, 1, -1, -1, -1⟩], SentBy 2 0 r := by
    intro r hr
    simp only [List.cons_append, List.nil_append, List.mem_cons, List.not_mem_nil,
      or_false] at hr
    rcases hr with rfl | rfl | rfl
    · exact ⟨rfl, rfl, by decide⟩
    · exact ⟨rfl, rfl, by decide⟩
    · exact ⟨rfl, rfl, by decide⟩
  have hsized : Sized ({ status := .leader, currentTerm := 1 } : ServerMetadata) :=
    ⟨rfl, by decide, by decide⟩
  obtain ⟨md₁, md₂, res, md₃, hbefore, hanswer, hafter, hagain⟩ :=
    (redelivery_harmless hsized).1 2 0 _ _ _ (by decide) hsent
  obtain rfl := Option.some.inj hbefore
  have hsuccess : res.success ≠ 0 := by
    rw [← (Prod.mk.inj (Option.some.inj hanswer)).2]
    exact one_ne_zero
  exact ⟨_, md₂, res, md₃, rfl, hanswer, hafter, hsuccess, hagain hsuccess⟩

end ServerMetadata

end LaptopRaft
