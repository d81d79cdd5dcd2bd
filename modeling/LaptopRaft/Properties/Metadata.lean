import LaptopRaft.Framework.Loop
import LaptopRaft.Model.Metadata
import Mathlib.Tactic.Common

/-!
# What each operation of `ServerMetadata` does

One lemma per operation, in the form its callers need: the proofs about the cluster cite these
and never unfold an operation.

* `lastTerm` is the term `GetLastTerm` reports, as a function of the log.
* `VoteAnswer` and `LogAnswer` are the cases of the two request handlers,
  `getVoteResponse_cases` and `getLogResponse_cases` the inversions.
* `EntryReaction` are the cases of `ReplicateLog`'s reaction to an entry response.
* `Stored` is the log's own consistency: `log_size` is the length of the vector, the commit
  length lies within it, and the record is the replay of the committed entries.  The loop of
  `CommitLog` keeps it (`commitLog_cases`).
-/

namespace LaptopRaft

namespace ServerMetadata

variable {md md' : ServerMetadata}

/-! ## Reading the log -/

/-- The term of the last entry, `0` for the empty log. -/
def lastTerm (log : List MapOp) : ℤ := (log.getLast?.map MapOp.term).getD 0

lemma getOp_eq_some {i : ℤ} {op : MapOp} (h : md.getOp i = some op) :
    0 ≤ i ∧ md.smrLog[i.toNat]? = some op := by
  unfold getOp at h
  split at h
  · cases h
  · exact ⟨by omega, h⟩

lemma getOp_natCast (k : ℕ) : md.getOp k = md.smrLog[k]? := by
  unfold getOp
  rw [if_neg (by omega), Int.toNat_natCast]

lemma getLastTerm_eq (hsize : md.logSize = md.smrLog.length) :
    md.getLastTerm = some (lastTerm md.smrLog) := by
  unfold getLastTerm
  by_cases hnil : md.smrLog = []
  · simp [hsize, hnil, lastTerm]
  · have hpos : 0 < md.smrLog.length := List.length_pos_iff.2 hnil
    have hidx : md.logSize - 1 = ((md.smrLog.length - 1 : ℕ) : ℤ) := by omega
    rw [if_pos (by omega), hidx, getOp_natCast, ← List.getLast?_eq_getElem?,
      List.getLast?_eq_some_getLast hnil]
    simp [lastTerm, List.getLast?_eq_some_getLast hnil]

lemma getPrefixTerm_of_pos {p : ℤ} (hp : 0 < p) :
    md.getPrefixTerm p = (md.smrLog[(p - 1).toNat]?).map MapOp.term := by
  unfold getPrefixTerm getTermAtIdx
  rw [if_pos hp, if_neg (by omega)]

/-! ## Elections -/

lemma sendRequestVote_eq (hsize : md.logSize = md.smrLog.length) :
    md.sendRequestVote =
      some ⟨md.factoryId, md.currentTerm, md.smrLog.length, lastTerm md.smrLog⟩ := by
  rw [sendRequestVote, getLastTerm_eq hsize, hsize]
  rfl

/-- The vote rule of `GetVoteResponse`: the candidate's last term, then its log size. -/
def AsRecent (lastTermC sizeC lastTermV sizeV : ℤ) : Prop :=
  lastTermV < lastTermC ∨ (lastTermC = lastTermV ∧ sizeV ≤ sizeC)

/-- The answer of `GetVoteResponse`. -/
structure VoteAnswer (md : ServerMetadata) (msg : RequestVoteMessage) (md' : ServerMetadata)
    (res : RequestVoteResponse) : Prop where
  state : md' = (md.adoptCandidate msg).setHeartbeat true
  id : res.id = md.factoryId
  term : res.currentTerm = md'.currentTerm
  granted : res.voted ≠ 0 → msg.currentTerm = md'.currentTerm ∧ md'.votedFor = msg.id ∧
    ∃ t, md.getLastTerm = some t ∧ AsRecent msg.lastTerm msg.logSize t md.logSize

lemma adoptCandidate_logSize (msg : RequestVoteMessage) :
    (md.adoptCandidate msg).logSize = md.logSize := by
  unfold adoptCandidate
  split <;> rfl

lemma adoptCandidate_factoryId (msg : RequestVoteMessage) :
    (md.adoptCandidate msg).factoryId = md.factoryId := by
  unfold adoptCandidate
  split <;> rfl

theorem getVoteResponse_cases {msg : RequestVoteMessage} {res : RequestVoteResponse}
    (h : md.getVoteResponse msg = some (md', res)) : VoteAnswer md msg md' res := by
  rw [getVoteResponse, Option.bind_eq_bind, Option.bind_eq_some_iff] at h
  obtain ⟨t, ht, h⟩ := h
  simp only [Option.some.injEq, Prod.mk.injEq] at h
  obtain ⟨rfl, rfl⟩ := h
  refine ⟨rfl, ?_, ?_, ?_⟩
  · split <;> exact adoptCandidate_factoryId msg
  · split <;> rfl
  · intro hvoted
    split at hvoted
    · rename_i hgrant
      rw [adoptCandidate_logSize] at hgrant
      exact ⟨hgrant.2.1, hgrant.2.2, t, ht, hgrant.1⟩
    · exact absurd rfl hvoted

/-- A vote request is either from a higher term, which the server then adopts, or leaves
everything but the heartbeat flag as it is. -/
lemma VoteAnswer.cases {msg : RequestVoteMessage} {res : RequestVoteResponse}
    (h : VoteAnswer md msg md' res) :
    (md.currentTerm < msg.currentTerm ∧
      md' = { md with currentTerm := msg.currentTerm, status := .follower, voteReceived := ∅,
                      votedFor := msg.id, heartbeat := true }) ∨
    (msg.currentTerm ≤ md.currentTerm ∧ md' = md.setHeartbeat true) := by
  rw [h.state]
  unfold adoptCandidate
  by_cases hlt : md.currentTerm < msg.currentTerm
  · rw [if_pos hlt]
    exact Or.inl ⟨hlt, rfl⟩
  · rw [if_neg hlt]
    exact Or.inr ⟨not_lt.1 hlt, rfl⟩

/-- Whatever the answer, it is only about the election. -/
lemma VoteAnswer.frame {msg : RequestVoteMessage} {res : RequestVoteResponse}
    (h : VoteAnswer md msg md' res) :
    md' = { md with currentTerm := md'.currentTerm, status := md'.status,
                    votedFor := md'.votedFor, voteReceived := md'.voteReceived,
                    heartbeat := md'.heartbeat } := by
  rcases h.cases with ⟨-, rfl⟩ | ⟨-, rfl⟩
  · rfl
  · rfl

/-- The three ways `RequestVote` reacts to a response. -/
inductive VoteReaction (md : ServerMetadata) (res : RequestVoteResponse) :
    ServerMetadata → VoteOutcome → Prop
  | won (hterm : md.currentTerm = res.currentTerm) (hvoted : res.voted ≠ 0)
      (hwon : { md with voteReceived := insert res.id md.voteReceived }.wonElection = true) :
      VoteReaction md res
        { md with voteReceived := insert res.id md.voteReceived }.initLeader .won
  | counted (hterm : md.currentTerm = res.currentTerm) (hvoted : res.voted ≠ 0) :
      VoteReaction md res { md with voteReceived := insert res.id md.voteReceived } .next
  | demoted (hterm : md.currentTerm < res.currentTerm) :
      VoteReaction md res
        { md with currentTerm := res.currentTerm, status := .follower, votedFor := -1,
                  voteReceived := ∅ } .demoted
  | ignored : VoteReaction md res md .next

theorem recvVoteResponse_cases (md : ServerMetadata) (res : RequestVoteResponse) :
    VoteReaction md res (md.recvVoteResponse res).1 (md.recvVoteResponse res).2 := by
  unfold recvVoteResponse
  by_cases hcount : md.currentTerm = res.currentTerm ∧ res.voted ≠ 0
  · rw [if_pos hcount]
    by_cases hwon : { md with voteReceived := insert res.id md.voteReceived }.wonElection = true
    · simp only [hwon, if_true]
      exact .won hcount.1 hcount.2 hwon
    · simp only [hwon]
      exact .counted hcount.1 hcount.2
  · rw [if_neg hcount]
    by_cases hlt : md.currentTerm < res.currentTerm
    · rw [if_pos hlt]
      exact .demoted hlt
    · rw [if_neg hlt]
      exact .ignored

/-! ## The log and the record -/

/-- The map the commands of a log build, applied in order to the empty map. -/
def replay (log : List MapOp) : ℤ → Option ℤ :=
  log.foldl (fun record op => Function.update record op.arg1 (some op.arg2)) fun _ => none

lemma replay_concat (log : List MapOp) (op : MapOp) :
    replay (log ++ [op]) = Function.update (replay log) op.arg1 (some op.arg2) := by
  simp [replay]

/-- The log, its size field, the commit length and the record are in step. -/
structure Stored (md : ServerMetadata) : Prop where
  logSize : md.logSize = md.smrLog.length
  commit_nonneg : 0 ≤ md.commitLength
  commit_le : md.commitLength ≤ md.logSize
  record : md.customerRecord = replay (md.smrLog.take md.commitLength.toNat)

/-- The same without the record. -/
structure Sized (md : ServerMetadata) : Prop where
  logSize : md.logSize = md.smrLog.length
  commit_nonneg : 0 ≤ md.commitLength
  commit_le : md.commitLength ≤ md.logSize

lemma Stored.sized (h : Stored md) : Sized md := ⟨h.logSize, h.commit_nonneg, h.commit_le⟩

lemma Sized.of_same (h : Sized md) (hlog : md'.smrLog = md.smrLog)
    (hsize : md'.logSize = md.logSize) (hcommit : md'.commitLength = md.commitLength) :
    Sized md' := by
  constructor
  · rw [hlog, hsize]
    exact h.logSize
  · rw [hcommit]
    exact h.commit_nonneg
  · rw [hcommit, hsize]
    exact h.commit_le

lemma Stored.of_same (h : Stored md) (hlog : md'.smrLog = md.smrLog)
    (hsize : md'.logSize = md.logSize) (hcommit : md'.commitLength = md.commitLength)
    (hrecord : md'.customerRecord = md.customerRecord) : Stored md' := by
  constructor
  · rw [hlog, hsize]
    exact h.logSize
  · rw [hcommit]
    exact h.commit_nonneg
  · rw [hcommit, hsize]
    exact h.commit_le
  · rw [hlog, hcommit, hrecord]
    exact h.record

/-- Only the log, the commit point and the record matter. -/
lemma Stored.frame (h : Stored md) {leaderId factoryId currentTerm votedFor : ℤ} {status : Status}
    {voteReceived : Finset ℤ} {sentLength ackLength : Option (List ℤ)} {heartbeat : Bool}
    {serverIndexMap : ℤ → ℕ} {neighbors nodeSocket failedNeighbors : List ServerNode} :
    Stored
      { md with
        leaderId := leaderId
        factoryId := factoryId
        currentTerm := currentTerm
        status := status
        votedFor := votedFor
        voteReceived := voteReceived
        sentLength := sentLength
        ackLength := ackLength
        heartbeat := heartbeat
        serverIndexMap := serverIndexMap
        neighbors := neighbors
        nodeSocket := nodeSocket
        failedNeighbors := failedNeighbors } :=
  h.of_same rfl rfl rfl rfl

lemma Stored.commit_le_length (h : Stored md) : md.commitLength.toNat ≤ md.smrLog.length := by
  have := h.commit_le
  have := h.logSize
  omega

/-- The same log with its first `k` entries executed. -/
def advance (md : ServerMetadata) (k : ℤ) : ServerMetadata :=
  { md with commitLength := k, customerRecord := replay (md.smrLog.take k.toNat) }

lemma Stored.advance_self (h : Stored md) : md.advance md.commitLength = md := by
  unfold advance
  rw [← h.record]

lemma Stored.advance (h : Stored md) {k : ℤ} (hk : 0 ≤ k) (hle : k ≤ md.logSize) :
    Stored (md.advance k) :=
  ⟨h.logSize, hk, hle, rfl⟩

/-- `ExecuteLog` of the next entry. -/
lemma Stored.executeLog (h : Stored md) (hexec : md.executeLog md.commitLength = some md') :
    md.commitLength < md.logSize ∧ md' = md.advance (md.commitLength + 1) := by
  obtain ⟨op, hop, rfl⟩ := Option.map_eq_some_iff.1 hexec
  obtain ⟨-, hget⟩ := getOp_eq_some hop
  obtain ⟨hlt, -⟩ := List.getElem?_eq_some_iff.1 hget
  have hnonneg := h.commit_nonneg
  have hsize := h.logSize
  refine ⟨by omega, ?_⟩
  have hnext : (md.commitLength + 1).toNat = md.commitLength.toNat + 1 := by omega
  unfold ServerMetadata.advance
  rw [hnext, List.take_add_one, hget, h.record]
  congr 1
  exact (replay_concat _ _).symm

lemma Stored.appendLog (h : Stored md) (t a o : ℤ) : Stored (md.appendLog t a o) := by
  have hle := h.commit_le_length
  refine ⟨?_, h.commit_nonneg, ?_, ?_⟩
  · simp [ServerMetadata.appendLog, h.logSize]
  · show md.commitLength ≤ md.logSize + 1
    have := h.commit_le
    omega
  · show md.customerRecord =
      replay ((md.smrLog ++ [(⟨t, a, o⟩ : MapOp)]).take md.commitLength.toNat)
    rw [List.take_append_of_le_length hle]
    exact h.record

/-! ## `CommitLog` -/

/-- Strictly more than half of the slots reach `i`. -/
def Majority (ack : List ℤ) (i : ℤ) : Prop := ack.length < ack.countP (fun a => i ≤ a) * 2

instance (ack : List ℤ) (i : ℤ) : Decidable (Majority ack i) :=
  inferInstanceAs (Decidable (_ < _))

/-- The counting loop over an array of the allocated size. -/
lemma countAcks_eq {ack : List ℤ} (hack : md.ackLength = some ack)
    (hlen : ack.length = md.getPeerSize + 1) {i : ℤ} {count : ℕ}
    (h : md.countAcks i = some count) : count = ack.countP fun a => i ≤ a := by
  rw [countAcks, hack, Option.bind_eq_bind, Option.bind_some] at h
  have hinv := foldlM_range_induction
    (I := fun k count => count = (ack.take k).countP fun a => i ≤ a) h (by simp) ?_
  · rw [hinv, ← hlen, List.take_length]
  · intro k _ x x' hx hpass
    obtain ⟨a, ha, rfl⟩ := Option.map_eq_some_iff.1 hpass
    rw [List.take_add_one, ha, List.countP_append, hx]
    by_cases hia : i ≤ a <;> simp [hia]

/-- The search loop: the last index from `commit_length` on that a majority reaches, if any. -/
lemma commitUntil_spec {ack : List ℤ} (hack : md.ackLength = some ack)
    (hlen : ack.length = md.getPeerSize + 1) {found : ℤ} (h : md.commitUntil = some found) :
    (found = 0 ∨ (md.commitLength ≤ found ∧ found ≤ md.logSize ∧ Majority ack found)) ∧
    ∀ i, md.commitLength ≤ i → i ≤ md.logSize → Majority ack i → i ≤ found := by
  have hinv := foldlM_range_induction
    (I := fun (k : ℕ) found =>
      (found = 0 ∨ (md.commitLength ≤ found ∧ found < md.commitLength + k ∧ Majority ack found)) ∧
      ∀ i, md.commitLength ≤ i → i < md.commitLength + k → Majority ack i → i ≤ found)
    h ⟨Or.inl rfl, fun i h1 h2 => absurd h2 (by simp; omega)⟩ ?_
  · obtain ⟨hfound, hmax⟩ := hinv
    refine ⟨hfound.imp_right fun ⟨h1, h2, h3⟩ => ⟨h1, by omega, h3⟩, fun i h1 h2 hmaj => ?_⟩
    exact hmax i h1 (by omega) hmaj
  · rintro k _ x x' ⟨hx, hmax⟩ hpass
    obtain ⟨count, hcount, rfl⟩ := Option.map_eq_some_iff.1 hpass
    have hmaj : md.getPeerSize + 1 < count * 2 ↔ Majority ack (md.commitLength + k) := by
      rw [Majority, countAcks_eq hack hlen hcount, hlen]
    by_cases hk : md.getPeerSize + 1 < count * 2
    · rw [if_pos hk]
      refine ⟨Or.inr ⟨by omega, by push_cast; omega, hmaj.1 hk⟩, fun i _ h2 _ => ?_⟩
      push_cast at h2
      omega
    · rw [if_neg hk]
      refine ⟨hx.imp_right fun ⟨h1, h2, h3⟩ => ⟨h1, by push_cast; omega, h3⟩, fun i h1 h2 hi => ?_⟩
      push_cast at h2
      by_cases hik : i = md.commitLength + k
      · exact absurd (hmaj.2 (hik ▸ hi)) hk
      · exact hmax i h1 (by omega) hi

/-- `CommitLog` either finds nothing to do or moves the commit length up to the largest index a
majority of the slots reaches, executing the entries in between. -/
theorem commitLog_cases {ack : List ℤ} (hs : Stored md) (hack : md.ackLength = some ack)
    (hlen : ack.length = md.getPeerSize + 1) (h : md.commitLog = some md') :
    ∃ k, md' = md.advance k ∧ md.commitLength ≤ k ∧ k ≤ md.logSize ∧
      (md.commitLength < k → Majority ack k) ∧
      ∀ i ≤ md.logSize, Majority ack i → k = md.commitLength ∨ i ≤ k := by
  rw [commitLog, Option.bind_eq_bind, Option.bind_eq_some_iff] at h
  obtain ⟨found, hfound, h⟩ := h
  obtain ⟨hwhere, hmax⟩ := commitUntil_spec hack hlen hfound
  have hnonneg := hs.commit_nonneg
  split at h
  · obtain rfl : md = md' := by simpa using h
    exact ⟨md.commitLength, hs.advance_self.symm, le_refl _, hs.commit_le,
      fun hlt => absurd hlt (lt_irrefl _), fun _ _ _ => Or.inl rfl⟩
  · rename_i hne
    obtain ⟨hge, hle, hmaj⟩ := hwhere.resolve_left hne
    rw [Option.bind_eq_bind, Option.bind_eq_some_iff] at h
    obtain ⟨md₁, hloop, h⟩ := h
    -- each pass executes the entry at the commit length it finds
    have hloop' : Stored md₁ ∧
        md₁ = md.advance (md.commitLength + (found - md.commitLength).toNat) := by
      refine foldlM_range_induction (I := fun (k : ℕ) m => Stored m ∧
        m = md.advance (md.commitLength + k)) hloop ⟨hs, ?_⟩ ?_
      · simpa using hs.advance_self.symm
      · rintro k hk x x' ⟨hx, rfl⟩ hpass
        obtain ⟨hlt, rfl⟩ := hx.executeLog hpass
        refine ⟨hx.advance (by have := hx.commit_nonneg; omega) (by omega), ?_⟩
        show md.advance (md.commitLength + k + 1) = md.advance (md.commitLength + (k + 1 : ℕ))
        rw [Int.natCast_succ, Int.add_assoc]
    have hreach : md.commitLength + (found - md.commitLength).toNat = found := by omega
    rw [hreach] at hloop'
    obtain ⟨-, rfl⟩ := hloop'
    obtain rfl : md.advance found = md' := Option.some.inj h
    refine ⟨found, rfl, hge, hle, fun _ => hmaj, fun i hi himaj => ?_⟩
    by_cases hci : md.commitLength ≤ i
    · exact Or.inr (hmax i hci hi himaj)
    · exact Or.inr (by omega)

/-! ## The follower's answer to a log request -/

/-- The log after the append of `GetLogResponse`: unchanged for a heartbeat. -/
def appended (md : ServerMetadata) (req : LogRequest) : ServerMetadata :=
  if req.opTerm ≠ -1 then md.appendLog req.opTerm req.opArg1 req.opArg2 else md

lemma appended_smrLog (md : ServerMetadata) (req : LogRequest) :
    (md.appended req).smrLog = md.smrLog ++ (if req.opTerm ≠ -1 then [req.op] else []) := by
  unfold appended
  split
  · rfl
  · simp

/-- Only the log and its size depend on the append. -/
lemma appended_eq (md : ServerMetadata) (req : LogRequest) :
    md.appended req =
      { md with smrLog := (md.appended req).smrLog, logSize := (md.appended req).logSize } := by
  unfold appended
  split <;> rfl

lemma Stored.appended (h : Stored md) (req : LogRequest) : Stored (md.appended req) := by
  unfold ServerMetadata.appended
  split
  · exact h.appendLog _ _ _
  · exact h

lemma Sized.appended (h : Sized md) (req : LogRequest) : Sized (md.appended req) := by
  unfold ServerMetadata.appended
  split
  · refine ⟨?_, h.commit_nonneg, ?_⟩
    · simp [ServerMetadata.appendLog, h.logSize]
    · show md.commitLength ≤ md.logSize + 1
      have := h.commit_le
      omega
  · exact h

lemma canLog_eq_true {req : LogRequest} :
    md.canLog req = some true ↔ req.prefixLength ≤ md.logSize ∧
      (req.prefixLength = 0 ∨ md.getTermAtIdx (req.prefixLength - 1) = some req.prefixTerm) := by
  unfold canLog
  by_cases hle : req.prefixLength ≤ md.logSize
  · by_cases hzero : req.prefixLength = 0
    · simp [hzero]
    · simp [hle, hzero, Option.map_eq_some_iff]
  · simp [hle]

/-- What `can_log` says of the log, for the prefix lengths a leader sends. -/
lemma canLog_getElem {req : LogRequest} (h : md.canLog req = some true) :
    req.prefixLength ≤ md.logSize ∧
      (0 < req.prefixLength → ∃ op, md.smrLog[req.prefixLength.toNat - 1]? = some op ∧
        op.term = req.prefixTerm) := by
  obtain ⟨hle, hterm⟩ := canLog_eq_true.1 h
  refine ⟨hle, fun hpos => ?_⟩
  have hterm := hterm.resolve_left (by omega)
  unfold getTermAtIdx at hterm
  rw [if_neg (by omega)] at hterm
  have hidx : (req.prefixLength - 1).toNat = req.prefixLength.toNat - 1 := by omega
  rw [hidx] at hterm
  exact Option.map_eq_some_iff.1 hterm

/-- The three answers of `GetLogResponse`.  `held` is the path that skips the append because
the log is already longer than the prefix. -/
inductive LogAnswer (md : ServerMetadata) (req : LogRequest) :
    ServerMetadata → LogResponse → Prop
  | refused
      (hno : ¬ ((md.adoptLeader req).currentTerm = req.currentTerm ∧
        (md.adoptLeader req).canLog req = some true)) :
      LogAnswer md req ((md.adoptLeader req).setHeartbeat true)
        ⟨md.factoryId, (md.adoptLeader req).currentTerm, 0, 0⟩
  | held
      (hterm : (md.adoptLeader req).currentTerm = req.currentTerm)
      (hcan : (md.adoptLeader req).canLog req = some true)
      (hlonger : req.prefixLength < md.logSize) :
      LogAnswer md req ((md.adoptLeader req).setHeartbeat true)
        ⟨md.factoryId, req.currentTerm, req.prefixLength + 1, 1⟩
  | extended {k : ℤ}
      (hterm : (md.adoptLeader req).currentTerm = req.currentTerm)
      (hcan : (md.adoptLeader req).canLog req = some true)
      (hends : req.prefixLength = md.logSize)
      (hexec : k = md.commitLength ∨ (k = md.commitLength + 1 ∧
        md.commitLength < req.commitLength ∧
        md.commitLength < ((md.adoptLeader req).appended req).logSize)) :
      LogAnswer md req
        ((((md.adoptLeader req).appended req).advance k).setHeartbeat true)
        ⟨md.factoryId, req.currentTerm, req.prefixLength + 1, 1⟩

/-- What a log request changes besides following its sender. -/
lemma LogAnswer.frame {req : LogRequest} {res : LogResponse} (h : LogAnswer md req md' res) :
    md' =
      { md.adoptLeader req with
        smrLog := md'.smrLog
        logSize := md'.logSize
        commitLength := md'.commitLength
        customerRecord := md'.customerRecord
        heartbeat := true } := by
  cases h with
  | refused hno => rfl
  | held hterm hcan hlonger => rfl
  | extended hterm hcan hends hexec =>
      rw [appended_eq]
      rfl

section AdoptLeader

variable (md : ServerMetadata) (req : LogRequest)

@[simp] lemma adoptLeader_factoryId : (md.adoptLeader req).factoryId = md.factoryId := by
  unfold adoptLeader; split <;> rfl

@[simp] lemma adoptLeader_smrLog : (md.adoptLeader req).smrLog = md.smrLog := by
  unfold adoptLeader; split <;> rfl

@[simp] lemma adoptLeader_logSize : (md.adoptLeader req).logSize = md.logSize := by
  unfold adoptLeader; split <;> rfl

@[simp] lemma adoptLeader_commitLength :
    (md.adoptLeader req).commitLength = md.commitLength := by
  unfold adoptLeader; split <;> rfl

@[simp] lemma adoptLeader_customerRecord :
    (md.adoptLeader req).customerRecord = md.customerRecord := by
  unfold adoptLeader; split <;> rfl

lemma adoptLeader_cases :
    ((md.currentTerm ≤ req.currentTerm ∨ md.status = .follower) ∧
      md.adoptLeader req =
        { md with currentTerm := req.currentTerm, status := .follower, leaderId := req.leaderId,
                  voteReceived := ∅, votedFor := -1, heartbeat := true }) ∨
    (req.currentTerm < md.currentTerm ∧ md.status ≠ .follower ∧ md.adoptLeader req = md) := by
  unfold ServerMetadata.adoptLeader
  by_cases hadopt : md.currentTerm ≤ req.currentTerm ∨ md.status = .follower
  · rw [if_pos hadopt]
    exact Or.inl ⟨hadopt, rfl⟩
  · rw [if_neg hadopt]
    rw [not_or, not_le] at hadopt
    exact Or.inr ⟨hadopt.1, hadopt.2, rfl⟩

variable {md}

lemma Stored.adoptLeader (h : Stored md) : Stored (md.adoptLeader req) := by
  obtain ⟨h1, h2, h3, h4⟩ := h
  constructor <;> simpa

end AdoptLeader

lemma LogAnswer.smrLog_eq {req : LogRequest} {res : LogResponse}
    (h : LogAnswer md req md' res) : md'.smrLog = md.smrLog ∨
      (req.prefixLength = md.logSize ∧ md'.smrLog = (md.appended req).smrLog) := by
  cases h with
  | refused hno => exact Or.inl (adoptLeader_smrLog md req)
  | held hterm hcan hlonger => exact Or.inl (adoptLeader_smrLog md req)
  | extended hterm hcan hends hexec =>
      refine Or.inr ⟨hends, ?_⟩
      change ((md.adoptLeader req).appended req).smrLog = _
      rw [appended_smrLog, appended_smrLog, adoptLeader_smrLog]

/-- An entry that is acknowledged has a place in the log. -/
lemma LogAnswer.reaches {req : LogRequest} {res : LogResponse} (h : LogAnswer md req md' res)
    (hstored : Stored md) (hentry : req.opTerm ≠ -1) (hsuccess : res.success ≠ 0) :
    res.ack = req.prefixLength + 1 ∧ req.prefixLength < md'.smrLog.length := by
  have hsize := hstored.logSize
  cases h with
  | refused hno => exact absurd rfl hsuccess
  | held hterm hcan hlonger =>
      refine ⟨rfl, ?_⟩
      show req.prefixLength < (md.adoptLeader req).smrLog.length
      rw [adoptLeader_smrLog]
      omega
  | extended hterm hcan hends hexec =>
      refine ⟨rfl, ?_⟩
      show req.prefixLength < ((md.adoptLeader req).appended req).smrLog.length
      rw [appended_smrLog, adoptLeader_smrLog, if_pos hentry, List.length_append,
        List.length_singleton]
      omega

/-- The success answer acknowledges the entry after the prefix. -/
lemma getLogResponse_ack {req : LogRequest} {res : LogResponse}
    (h : md.getLogResponse req = some (md', res)) (hsuccess : res.success ≠ 0) :
    res.ack = req.prefixLength + 1 := by
  rw [getLogResponse, Option.bind_eq_bind, Option.bind_eq_some_iff] at h
  obtain ⟨can, -, h⟩ := h
  split at h
  · rw [Option.bind_eq_bind, Option.bind_eq_some_iff] at h
    obtain ⟨md₁, -, h⟩ := h
    simp only [Option.some.injEq, Prod.mk.injEq] at h
    obtain ⟨-, rfl⟩ := h
    rfl
  · simp only [Option.some.injEq, Prod.mk.injEq] at h
    obtain ⟨-, rfl⟩ := h
    exact absurd rfl hsuccess

/-- The body of `if (!included)`. -/
lemma Stored.appendEntry (h : Stored md) {req : LogRequest} (hnot : ¬ md.included req)
    (happ : md.appendEntry req = some md') :
    ∃ k, md' = (md.appended req).advance k ∧ (k = md.commitLength ∨
      (k = md.commitLength + 1 ∧ md.commitLength < req.commitLength ∧
        md.commitLength < (md.appended req).logSize)) := by
  rw [ServerMetadata.appendEntry, if_neg hnot, Option.bind_eq_bind, Option.bind_some] at happ
  change (if (md.appended req).commitLength < req.commitLength then
    (md.appended req).executeLog (md.appended req).commitLength
    else some (md.appended req)) = some md' at happ
  have hcommit : (md.appended req).commitLength = md.commitLength := by rw [appended_eq]
  have hstored := h.appended req
  split at happ
  · rename_i hlt
    obtain ⟨hin, rfl⟩ := hstored.executeLog happ
    exact ⟨_, rfl, Or.inr ⟨by omega, by omega, by omega⟩⟩
  · obtain rfl := Option.some.inj happ
    exact ⟨md.commitLength, by rw [← hcommit, hstored.advance_self], Or.inl rfl⟩

/-- What the body of `if (!included)` changes besides the append, whatever the record is. -/
lemma appendEntry_cases {req : LogRequest} (hnot : ¬ md.included req)
    (happ : md.appendEntry req = some md') :
    md' = { md.appended req with
      commitLength := md'.commitLength, customerRecord := md'.customerRecord } ∧
    (md'.commitLength = md.commitLength ∨ (md'.commitLength = md.commitLength + 1 ∧
      md.commitLength < req.commitLength ∧
      md.commitLength < (md.appended req).smrLog.length)) := by
  rw [ServerMetadata.appendEntry, if_neg hnot, Option.bind_eq_bind, Option.bind_some] at happ
  change (if (md.appended req).commitLength < req.commitLength then
    (md.appended req).executeLog (md.appended req).commitLength
    else some (md.appended req)) = some md' at happ
  have hcommit : (md.appended req).commitLength = md.commitLength := by rw [appended_eq]
  split at happ
  · rename_i hlt
    obtain ⟨op, hop, rfl⟩ := Option.map_eq_some_iff.1 happ
    obtain ⟨hnonneg, hget⟩ := getOp_eq_some hop
    obtain ⟨hin, -⟩ := List.getElem?_eq_some_iff.1 hget
    refine ⟨rfl, Or.inr ⟨by rw [hcommit], hcommit ▸ hlt, by omega⟩⟩
  · obtain rfl := Option.some.inj happ
    exact ⟨rfl, Or.inl hcommit⟩

/-- The answers of `GetLogResponse`, whatever the record is. -/
inductive LogReply (md : ServerMetadata) (req : LogRequest) :
    ServerMetadata → LogResponse → Prop
  | refused
      (hno : ¬ ((md.adoptLeader req).currentTerm = req.currentTerm ∧
        (md.adoptLeader req).canLog req = some true)) :
      LogReply md req ((md.adoptLeader req).setHeartbeat true)
        ⟨md.factoryId, (md.adoptLeader req).currentTerm, 0, 0⟩
  | held
      (hterm : (md.adoptLeader req).currentTerm = req.currentTerm)
      (hcan : (md.adoptLeader req).canLog req = some true)
      (hlonger : req.prefixLength < md.logSize) :
      LogReply md req ((md.adoptLeader req).setHeartbeat true)
        ⟨md.factoryId, req.currentTerm, req.prefixLength + 1, 1⟩
  | extended {md₁ : ServerMetadata}
      (hterm : (md.adoptLeader req).currentTerm = req.currentTerm)
      (hcan : (md.adoptLeader req).canLog req = some true)
      (hends : req.prefixLength = md.logSize)
      (happ : (md.adoptLeader req).appendEntry req = some md₁) :
      LogReply md req (md₁.setHeartbeat true)
        ⟨md.factoryId, req.currentTerm, req.prefixLength + 1, 1⟩

theorem getLogResponse_reply {req : LogRequest} {res : LogResponse}
    (h : md.getLogResponse req = some (md', res)) : LogReply md req md' res := by
  rw [getLogResponse, Option.bind_eq_bind, Option.bind_eq_some_iff] at h
  obtain ⟨can, hcan, h⟩ := h
  split at h
  · rename_i hyes
    obtain ⟨hterm, rfl⟩ := hyes
    rw [Option.bind_eq_bind, Option.bind_eq_some_iff] at h
    obtain ⟨md₁, hmd₁, h⟩ := h
    simp only [Option.some.injEq, Prod.mk.injEq] at h
    obtain ⟨rfl, rfl⟩ := h
    split at hmd₁
    · rename_i hin
      obtain rfl := Option.some.inj hmd₁
      rw [adoptLeader_factoryId, hterm]
      exact .held hterm hcan (by simpa [included] using hin)
    · rename_i hin
      obtain ⟨hframe, -⟩ := appendEntry_cases hin hmd₁
      have hle := (canLog_eq_true.1 hcan).1
      have hfactory : md₁.factoryId = md.factoryId := by
        rw [hframe, appended_eq]
        exact adoptLeader_factoryId md req
      have hcurrent : md₁.currentTerm = req.currentTerm := by
        rw [hframe, appended_eq]
        exact hterm
      rw [hfactory, hcurrent]
      simp only [included, adoptLeader_logSize, not_lt] at hin hle
      exact .extended hterm hcan (le_antisymm hle hin) hmd₁
  · rename_i hno
    simp only [Option.some.injEq, Prod.mk.injEq] at h
    obtain ⟨rfl, rfl⟩ := h
    rw [adoptLeader_factoryId]
    refine .refused fun hyes => hno ⟨hyes.1, ?_⟩
    rw [hyes.2] at hcan
    exact (Option.some.inj hcan).symm

theorem getLogResponse_cases (hs : Stored md) {req : LogRequest} {res : LogResponse}
    (h : md.getLogResponse req = some (md', res)) : LogAnswer md req md' res := by
  cases getLogResponse_reply h with
  | refused hno => exact .refused hno
  | held hterm hcan hlonger => exact .held hterm hcan hlonger
  | extended hterm hcan hends happ =>
      have hin : ¬ (md.adoptLeader req).included req := by
        rw [included, adoptLeader_logSize, hends]
        exact lt_irrefl _
      obtain ⟨k, rfl, hk⟩ := (hs.adoptLeader req).appendEntry hin happ
      exact .extended hterm hcan hends (by simpa using hk)

/-! ## The leader's side -/

/-- The request `ReplicateLog` sends to a peer: it describes the leader's log at
`sent_length[i]`. -/
structure RequestBuilt (md : ServerMetadata) (node : ServerNode) (req : LogRequest) : Prop where
  sent : md.sentTo node = some req.prefixLength
  leaderId : req.leaderId = md.factoryId
  term : req.currentTerm = md.currentTerm
  commit : req.commitLength = md.commitLength
  prefixTerm : md.getPrefixTerm req.prefixLength = some req.prefixTerm
  body : (md.logSize = req.prefixLength ∧ req.opTerm = -1) ∨
    (md.logSize ≠ req.prefixLength ∧ md.getOp req.prefixLength = some req.op)

theorem logRequestFor_cases {node : ServerNode} {req : LogRequest}
    (h : md.logRequestFor node = some req) : RequestBuilt md node req := by
  simp only [logRequestFor, Option.bind_eq_bind, Option.bind_eq_some_iff] at h
  obtain ⟨p, hp, t, ht, h⟩ := h
  split at h
  · rename_i hsize
    obtain rfl := Option.some.inj h
    exact ⟨hp, rfl, rfl, rfl, ht, Or.inl ⟨hsize, rfl⟩⟩
  · rename_i hsize
    obtain ⟨op, hop, rfl⟩ := Option.map_eq_some_iff.1 h
    exact ⟨hp, rfl, rfl, rfl, ht, Or.inr ⟨hsize, hop⟩⟩

lemma sentTo_eq_some {node : ServerNode} {p : ℤ} :
    md.sentTo node = some p ↔
      ∃ sent, md.sentLength = some sent ∧ sent[md.slot node]? = some p := by
  rw [sentTo, Option.bind_eq_bind, Option.bind_eq_some_iff]

lemma setAckLength_own {size : ℤ} (h : md.setAckLength (-1) size = some md') :
    ∃ ack, md.ackLength = some ack ∧ md.getPeerSize < ack.length ∧
      md' = { md with ackLength := some (ack.set md.getPeerSize size) } := by
  rw [setAckLength, Option.bind_eq_bind, Option.bind_eq_some_iff] at h
  obtain ⟨ack, hack, h⟩ := h
  rw [if_pos rfl] at h
  split at h
  · rename_i hlt
    refine ⟨ack, hack, by omega, ?_⟩
    rw [← Option.some.inj h, Int.toNat_natCast]
  · cases h

lemma failNode_cases {node : ServerNode} (h : md.failNode node = some md') :
    ∃ ack sent, md.ackLength = some ack ∧ md.sentLength = some sent ∧
      md.slot node < ack.length ∧ md.slot node < sent.length ∧
      md' = { md with ackLength := some (ack.set (md.slot node) 0),
                      sentLength := some (sent.set (md.slot node) 0),
                      failedNeighbors := md.failedNeighbors ++ [node] } := by
  obtain ⟨md₁, hmd₁, rfl⟩ := Option.map_eq_some_iff.1 h
  simp only [cleanNodeState, Option.bind_eq_bind, Option.bind_eq_some_iff] at hmd₁
  obtain ⟨ack, hack, sent, hsent, hmd₁⟩ := hmd₁
  split at hmd₁
  · rename_i hlt
    obtain rfl := Option.some.inj hmd₁
    exact ⟨ack, sent, hack, hsent, hlt.1, hlt.2, rfl⟩
  · cases hmd₁

/-- A peer acknowledges `k` entries. -/
def recordAck (md : ServerMetadata) (node : ServerNode) (sent ack : List ℤ) (k : ℤ) :
    ServerMetadata :=
  { md with sentLength := some (sent.set (md.slot node) k)
            ackLength := some (ack.set (md.slot node) k) }

/-- The reactions of `ReplicateLog` to the answer of an entry request. -/
inductive EntryReaction (md : ServerMetadata) (node : ServerNode) (res : LogResponse) :
    ServerMetadata → Bool → Prop
  | acked {sent ack : List ℤ} {md' : ServerMetadata}
      (hterm : res.currentTerm = md.currentTerm) (hleader : md.status = .leader)
      (hsuccess : res.success ≠ 0)
      (hsent : md.sentLength = some sent) (hack : md.ackLength = some ack)
      (hcommit : (md.recordAck node sent ack res.ack).commitLog = some md') :
      EntryReaction md node res md' true
  | backed {sent : List ℤ} {p : ℤ}
      (hsent : md.sentLength = some sent) (hp : sent[md.slot node]? = some p) (hpos : 0 < p) :
      EntryReaction md node res
        { md with sentLength := some (sent.set (md.slot node) (p - 1)) } true
  | kept : EntryReaction md node res md true
  | deposed (hlt : md.currentTerm < res.currentTerm) :
      EntryReaction md node res
        { md with currentTerm := res.currentTerm, status := .follower, votedFor := -1,
                  voteReceived := ∅ } false

theorem recvEntryResponse_cases {node : ServerNode} {res : LogResponse} {goOn : Bool}
    (h : md.recvEntryResponse node res = some (md', goOn)) :
    EntryReaction md node res md' goOn := by
  unfold recvEntryResponse at h
  split at h
  · rename_i hlead
    simp only [Option.bind_eq_bind, Option.bind_eq_some_iff] at h
    obtain ⟨sent, hsent, ack, hack, p, hp, h⟩ := h
    split at h
    · rename_i hsuccess
      split at h
      · simp only [Option.bind_eq_some_iff, Option.some.injEq, Prod.mk.injEq] at h
        obtain ⟨md₁, hcommit, rfl, rfl⟩ := h
        exact .acked hlead.1 hlead.2 hsuccess hsent hack hcommit
      · cases h
    · split at h
      · rename_i hpos
        simp only [Option.some.injEq, Prod.mk.injEq] at h
        obtain ⟨rfl, rfl⟩ := h
        exact .backed hsent hp hpos
      · simp only [Option.some.injEq, Prod.mk.injEq] at h
        obtain ⟨rfl, rfl⟩ := h
        exact .kept
  · split at h
    · rename_i hlt
      simp only [Option.some.injEq, Prod.mk.injEq] at h
      obtain ⟨rfl, rfl⟩ := h
      exact .deposed hlt
    · simp only [Option.some.injEq, Prod.mk.injEq] at h
      obtain ⟨rfl, rfl⟩ := h
      exact .kept

/-- `CommitLog` writes the commit length and the record only. -/
lemma commitLog_frame (h : md.commitLog = some md') :
    md' = { md with commitLength := md'.commitLength, customerRecord := md'.customerRecord } := by
  rw [commitLog, Option.bind_eq_bind, Option.bind_eq_some_iff] at h
  obtain ⟨found, -, h⟩ := h
  split at h
  · obtain rfl : md = md' := by simpa using h
    rfl
  · rw [Option.bind_eq_bind, Option.bind_eq_some_iff] at h
    obtain ⟨md₁, hloop, h⟩ := h
    obtain rfl := Option.some.inj h
    have hframe : md₁ =
        { md with commitLength := md₁.commitLength, customerRecord := md₁.customerRecord } := by
      refine foldlM_range_induction (I := fun _ m => m =
        { md with commitLength := m.commitLength, customerRecord := m.customerRecord })
        hloop rfl ?_
      intro k _ x x' hx hpass
      obtain ⟨op, -, rfl⟩ := Option.map_eq_some_iff.1 hpass
      rw [hx]
    rw [hframe]

/-- Answers of followers leave the queue of failed peers alone. -/
lemma EntryReaction.failedNeighbors {node : ServerNode} {res : LogResponse} {goOn : Bool}
    (h : EntryReaction md node res md' goOn) : md'.failedNeighbors = md.failedNeighbors := by
  cases h with
  | acked hterm hleader hsuccess hsent hack hcommit =>
      rw [commitLog_frame hcommit]
      rfl
  | backed => rfl
  | kept => rfl
  | deposed => rfl

/-- What the answer to an entry request does to `sent_length`: the peer's slot is moved to the
acknowledged length, moved back by one, or kept, and the other slots are kept. -/
lemma EntryReaction.sent {node : ServerNode} {res : LogResponse} {k : ℤ}
    (h : EntryReaction md node res md' true) (hk : md.sentTo node = some k) :
    (∃ k', md'.sentTo node = some k' ∧
      (k' = k ∨ (k' = k - 1 ∧ 0 < k) ∨ (k' = res.ack ∧ res.success ≠ 0))) ∧
    ∀ node', md.slot node' ≠ md.slot node → md'.sentTo node' = md.sentTo node' := by
  obtain ⟨sent, hsent, hget⟩ := sentTo_eq_some.1 hk
  obtain ⟨hlt, -⟩ := List.getElem?_eq_some_iff.1 hget
  -- one slot of the array is set
  have hset : ∀ {m : ServerMetadata} {x : ℤ}, m.sentLength = some (sent.set (md.slot node) x) →
      m.serverIndexMap = md.serverIndexMap → m.sentTo node = some x ∧
      ∀ node', md.slot node' ≠ md.slot node → m.sentTo node' = md.sentTo node' := by
    intro m x hm hindex
    have hslot : ∀ node', m.slot node' = md.slot node' := fun node' => by rw [slot, slot, hindex]
    refine ⟨sentTo_eq_some.2 ⟨_, hm, by rw [hslot, List.getElem?_set_self hlt]⟩, ?_⟩
    intro node' hne
    rw [sentTo, sentTo, hm, hsent, hslot, Option.bind_eq_bind, Option.bind_some, Option.bind_some,
      List.getElem?_set_ne (Ne.symm hne)]
  cases h with
  | @acked sent' ack _ hterm hleader hsuccess hsent' hack hcommit =>
      obtain rfl : sent = sent' := Option.some.inj (hsent.symm.trans hsent')
      have hframe := commitLog_frame hcommit
      obtain ⟨hself, hothers⟩ := hset (m := md') (x := res.ack) (by rw [hframe]; rfl)
        (by rw [hframe]; rfl)
      exact ⟨⟨res.ack, hself, Or.inr (Or.inr ⟨rfl, hsuccess⟩)⟩, hothers⟩
  | @backed sent' p hsent' hp hpos =>
      obtain rfl : sent = sent' := Option.some.inj (hsent.symm.trans hsent')
      obtain rfl : k = p := Option.some.inj (hget.symm.trans hp)
      have hmoved := hset (m := { md with sentLength := some (sent.set (md.slot node) (k - 1)) })
        (x := k - 1) rfl rfl
      exact ⟨⟨k - 1, hmoved.1, Or.inr (Or.inl ⟨rfl, hpos⟩)⟩, hmoved.2⟩
  | kept => exact ⟨⟨k, hk, Or.inl rfl⟩, fun _ _ => rfl⟩

/-- The log and its size are not touched. -/
lemma EntryReaction.log {node : ServerNode} {res : LogResponse} {goOn : Bool}
    (h : EntryReaction md node res md' goOn) :
    md'.smrLog = md.smrLog ∧ md'.logSize = md.logSize := by
  cases h with
  | acked hterm hleader hsuccess hsent hack hcommit =>
      rw [commitLog_frame hcommit]
      exact ⟨rfl, rfl⟩
  | backed => exact ⟨rfl, rfl⟩
  | kept => exact ⟨rfl, rfl⟩
  | deposed => exact ⟨rfl, rfl⟩

/-- `TryReconnect` only moves peers between the two containers. -/
lemma tryReconnect_eq (md : ServerMetadata) (accepts : List Bool) :
    md.tryReconnect accepts =
      { md with nodeSocket := (md.tryReconnect accepts).nodeSocket,
                failedNeighbors := (md.tryReconnect accepts).failedNeighbors } := by
  unfold tryReconnect
  split <;> rfl

end ServerMetadata

end LaptopRaft
