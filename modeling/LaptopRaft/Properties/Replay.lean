import LaptopRaft.Model.Scenario
import LaptopRaft.Properties.WellFormed

/-!
# The log, the commit point and the record

What every server keeps of its log, in every run:

* `replay_invariant`: the size field is the length of the log, the commit length lies within
  it, and the record is the replay of the committed entries; no request that can be delivered
  and no answer that can arrive makes `ExecuteLog` read outside the log.
* `commit_stable`: a step never moves the commit length back and never changes a committed
  entry.  The reason is stronger than the statement: no step shortens a log (`server_grows`),
  because the guard of `DropUncommittedLog` contradicts the one around it.
-/

namespace LaptopRaft

open ServerMetadata

/-! ## The record, entry by entry -/

/-- The order number a log leaves a customer with: that of the customer's last entry, `-1`
without one. -/
def lastOrder (log : List MapOp) (customerId : ℤ) : ℤ :=
  ((log.filter (·.arg1 = customerId)).getLast?.map MapOp.arg2).getD (-1)

lemma replay_apply (log : List MapOp) (customerId : ℤ) :
    replay log customerId = (log.filter (·.arg1 = customerId)).getLast?.map MapOp.arg2 := by
  induction log using List.reverseRecOn with
  | nil => rfl
  | append_singleton log op ih =>
      rw [replay_concat, List.filter_append]
      by_cases hop : op.arg1 = customerId
      · simp [hop]
      · rw [Function.update_of_ne (Ne.symm hop), ih]
        simp [hop]

lemma ServerMetadata.Stored.getValue_eq {md : ServerMetadata} (h : Stored md) (customerId : ℤ) :
    md.getValue customerId = lastOrder (md.smrLog.take md.commitLength.toNat) customerId := by
  rw [getValue, h.record, replay_apply, lastOrder]

/-! ## Reads stay inside the log -/

namespace ServerMetadata

variable {md : ServerMetadata}

lemma Sized.executeLog_isSome (h : Sized md) {i : ℤ} (hnonneg : 0 ≤ i) (hlt : i < md.logSize) :
    ∃ md', md.executeLog i = some md' := by
  have hsize := h.logSize
  have hin : i.toNat < md.smrLog.length := by omega
  rw [ServerMetadata.executeLog, getOp, if_neg (by omega), List.getElem?_eq_getElem hin]
  exact ⟨_, rfl⟩

lemma countAcks_isSome {ack : List ℤ} (hack : md.ackLength = some ack)
    (hlen : ack.length = md.getPeerSize + 1) (i : ℤ) : ∃ count, md.countAcks i = some count := by
  rw [countAcks, hack, Option.bind_eq_bind, Option.bind_some]
  have hpass : ∀ k < md.getPeerSize + 1, ∀ count : ℕ, True → ∃ count',
      (ack[k]?.map fun a => if i ≤ a then count + 1 else count) = some count' ∧ True := by
    intro k hk count _
    have hin : k < ack.length := by omega
    rw [List.getElem?_eq_getElem hin]
    exact ⟨_, rfl, trivial⟩
  obtain ⟨count, hcount, -⟩ := foldlM_range_total (I := fun _ _ => True) trivial hpass
  exact ⟨count, hcount⟩

/-- `CommitLog` is defined once the arrays are there, and moves the commit length up within the
log. -/
theorem Sized.commitLog_isSome (h : Sized md) {ack : List ℤ} (hack : md.ackLength = some ack)
    (hlen : ack.length = md.getPeerSize + 1) :
    ∃ md', md.commitLog = some md' ∧ md.commitLength ≤ md'.commitLength ∧
      md'.commitLength ≤ md.logSize := by
  have hcount : ∀ k < (md.logSize + 1 - md.commitLength).toNat, ∀ found : ℤ, True → ∃ found',
      ((md.countAcks (md.commitLength + k)).map fun count =>
        if md.getPeerSize + 1 < count * 2 then md.commitLength + k else found) = some found' ∧
        True := by
    intro k _ found _
    obtain ⟨count, hcount⟩ := countAcks_isSome hack hlen (md.commitLength + k)
    rw [hcount]
    exact ⟨_, rfl, trivial⟩
  obtain ⟨found, hfound, -⟩ :=
    foldlM_range_total (b := (0 : ℤ)) (I := fun _ _ => True) trivial hcount
  have huntil : md.commitUntil = some found := hfound
  rw [commitLog, huntil, Option.bind_eq_bind, Option.bind_some]
  split
  · exact ⟨md, rfl, le_refl _, h.commit_le⟩
  · rename_i hne
    obtain ⟨hge, hle, -⟩ := (commitUntil_spec hack hlen huntil).1.resolve_left hne
    have hnonneg := h.commit_nonneg
    -- the passes change neither the log nor its size
    have hexec : ∀ k < (found - md.commitLength).toNat, ∀ m : ServerMetadata,
        m.smrLog = md.smrLog ∧ m.logSize = md.logSize →
        ∃ m', m.executeLog (md.commitLength + k) = some m' ∧
          m'.smrLog = md.smrLog ∧ m'.logSize = md.logSize := by
      rintro k hk m ⟨hlog, hsize⟩
      have hin : (md.commitLength + k).toNat < m.smrLog.length := by
        have := h.logSize
        rw [hlog]
        omega
      rw [ServerMetadata.executeLog, getOp, if_neg (by omega), List.getElem?_eq_getElem hin]
      exact ⟨_, rfl, hlog, hsize⟩
    obtain ⟨md₁, hloop, -⟩ := foldlM_range_total
      (I := fun (_ : ℕ) (m : ServerMetadata) => m.smrLog = md.smrLog ∧ m.logSize = md.logSize)
      ⟨rfl, rfl⟩ hexec
    change ∃ md', ((List.range (found - md.commitLength).toNat).foldlM
      (fun (m : ServerMetadata) (k : ℕ) => m.executeLog (md.commitLength + k)) md).bind
        (fun m => some { m with commitLength := found }) = some md' ∧ _
    rw [hloop]
    exact ⟨_, rfl, hge, hle⟩

lemma Sized.canLog_isSome (h : Sized md) (req : LogRequest) :
    ∃ b, md.canLog req = some b := by
  have hsize := h.logSize
  unfold canLog
  split
  · rename_i hle
    split
    · exact ⟨true, rfl⟩
    · by_cases hneg : req.prefixLength - 1 < 0
      · rw [getTermAtIdx, if_pos hneg]
        exact ⟨_, rfl⟩
      · have hin : (req.prefixLength - 1).toNat < md.smrLog.length := by omega
        rw [getTermAtIdx, if_neg hneg, List.getElem?_eq_getElem hin]
        exact ⟨_, rfl⟩
  · exact ⟨false, rfl⟩

/-- `GetLogResponse` is defined on every request.  Only a heartbeat that reaches the execution of
an entry has to announce a commit length within its prefix, which the log has. -/
theorem Sized.getLogResponse_isSome (h : Sized md) {req : LogRequest}
    (hheartbeat : req.opTerm = -1 → req.commitLength ≤ req.prefixLength) :
    ∃ p, md.getLogResponse req = some p := by
  have hadopt : Sized (md.adoptLeader req) :=
    h.of_same (adoptLeader_smrLog md req) (adoptLeader_logSize md req)
      (adoptLeader_commitLength md req)
  obtain ⟨can, hcan⟩ := hadopt.canLog_isSome req
  rw [getLogResponse, hcan, Option.bind_eq_bind, Option.bind_some]
  split
  · rename_i hyes
    rw [hyes.2] at hcan
    have hle := (canLog_eq_true.1 hcan).1
    split
    · exact ⟨_, rfl⟩
    · rename_i hnot
      have happ := hadopt.appended req
      have hcommit := happ.commit_nonneg
      have hdefined : ∃ md', (md.adoptLeader req).appendEntry req = some md' := by
        rw [appendEntry, if_neg hnot, Option.bind_eq_bind, Option.bind_some]
        change ∃ md', (if ((md.adoptLeader req).appended req).commitLength < req.commitLength then
          ((md.adoptLeader req).appended req).executeLog
            ((md.adoptLeader req).appended req).commitLength
          else some ((md.adoptLeader req).appended req)) = some md'
        split
        · rename_i hbehind
          refine happ.executeLog_isSome hcommit ?_
          by_cases hbeat : req.opTerm = -1
          · have hsame : (md.adoptLeader req).appended req = md.adoptLeader req := by
              unfold ServerMetadata.appended
              rw [if_neg (not_not.2 hbeat)]
            rw [hsame] at hbehind ⊢
            have hannounced := hheartbeat hbeat
            omega
          · have hgrown : (md.adoptLeader req).appended req =
                (md.adoptLeader req).appendLog req.opTerm req.opArg1 req.opArg2 := by
              unfold ServerMetadata.appended
              rw [if_pos hbeat]
            rw [hgrown]
            have hold := hadopt.commit_le
            show (md.adoptLeader req).commitLength < (md.adoptLeader req).logSize + 1
            omega
        · exact ⟨_, rfl⟩
      obtain ⟨md', hmd'⟩ := hdefined
      rw [hmd']
      exact ⟨_, rfl⟩
  · exact ⟨_, rfl⟩

end ServerMetadata

variable {md : ServerMetadata}

/-- The requests that servers send are of this kind. -/
theorem Sound.getLogResponse_isSome (h : Sound md) {req : LogRequest} (hreq : SoundRequest req) :
    ∃ p, md.getLogResponse req = some p :=
  h.stored.sized.getLogResponse_isSome hreq.heartbeat

/-- The reaction to the answer of an entry request is defined. -/
theorem Sound.recvEntryResponse_isSome (h : Sound md) {node : ServerNode} {p : ℤ}
    (hp : md.sentTo node = some p) (res : LogResponse) :
    ∃ r, md.recvEntryResponse node res = some r := by
  obtain ⟨sent, hsent, hget⟩ := sentTo_eq_some.1 hp
  have halloc := h.allocated
  rw [hsent, Option.isSome_some] at halloc
  obtain ⟨ack, hack⟩ := Option.isSome_iff_exists.1 halloc.symm
  have hsentlen := (h.sent sent hsent).length
  have hacklen := (h.ack ack hack).length
  obtain ⟨hslot, -⟩ := List.getElem?_eq_some_iff.1 hget
  unfold recvEntryResponse
  split
  · rw [hsent, hack, Option.bind_eq_bind, Option.bind_some, Option.bind_eq_bind, Option.bind_some,
      Option.bind_eq_bind, hget, Option.bind_some]
    split
    · rw [if_pos (by omega)]
      have hsized : Sized (md.recordAck node sent ack res.ack) :=
        h.stored.sized.of_same rfl rfl rfl
      obtain ⟨md', hmd', -⟩ := hsized.commitLog_isSome rfl
        (by rw [List.length_set]; exact hacklen)
      change ∃ r, ((md.recordAck node sent ack res.ack).commitLog.bind
        fun m => some (m, true)) = some r
      rw [hmd']
      exact ⟨_, rfl⟩
    · split
      · exact ⟨_, rfl⟩
      · exact ⟨_, rfl⟩
  · split
    · exact ⟨_, rfl⟩
    · exact ⟨_, rfl⟩

/-- `LeaderMaintainLog` is only entered where `InitLeader` has allocated the arrays. -/
def ArraysAllocated (c : Cluster) : Label → Prop
  | .leaderMaintainLog s _ _ =>
      (c.server s).metadata.sentLength.isSome ∧ (c.server s).metadata.ackLength.isSome
  | _ => True

instance (c : Cluster) (l : Label) : Decidable (ArraysAllocated c l) := by
  induction l using Label.casesOn <;> dsimp only [ArraysAllocated] <;> infer_instance

section Runs

variable {cfg : Config} {ok : Cluster → Label → Prop} {c c' : Cluster} {tr es : List Event}
  {l : Label}

/-- **Replay invariant.**  The last two parts say that the reads this depends on are defined:
whatever request is delivered to the server, and whatever answer arrives. -/
theorem replay_invariant (hrun : (system cfg).Run ArraysAllocated c tr) {s : ℤ}
    (hs : s ∈ cfg.ids) :
    Stored (c.server s).metadata ∧
    (∀ customerId, (c.server s).metadata.getValue customerId =
      lastOrder ((c.server s).metadata.smrLog.take (c.server s).metadata.commitLength.toNat)
        customerId) ∧
    (∀ l req, (∀ q ∈ l.actor, q ∈ cfg.ids) → c.delivered l = some (s, .log req) →
      ((c.server s).metadata.getLogResponse req).isSome) ∧
    ∀ node res, (c.server s).callee = some node → (c.server s).wire = .response (.log res) →
      ((c.server s).metadata.recvEntryResponse node res).isSome := by
  have hwf := wellFormed hrun hs
  refine ⟨hwf.sound.stored, hwf.sound.stored.getValue_eq, ?_, ?_⟩
  · intro l req hactor hdelivered
    have hrpc := soundRpc_of_delivered hrun hactor hdelivered
    obtain ⟨p, hp⟩ := hwf.sound.getLogResponse_isSome hrpc.2
    rw [hp, Option.isSome_some]
  · intro node res hcallee hwire
    obtain ⟨caller, node', rest, new, change, hlock, p, hp, -⟩ := hwf.flow.logResponse res hwire
    obtain rfl : node' = node := by
      simpa [LaptopFactory.callee, hlock] using hcallee
    obtain ⟨r, hr⟩ := hwf.sound.recvEntryResponse_isSome hp res
    rw [hr, Option.isSome_some]

theorem replay_invariant_oneUpdate : ∃ c tr, (system three).Run ArraysAllocated c tr ∧
    (c.server 1).metadata.commitLength = 1 ∧ Stored (c.server 1).metadata := by
  obtain ⟨c, tr, hrun, hcommit⟩ := run_of_play three ArraysAllocated
    (P := fun c _ => (c.server 1).metadata.commitLength = 1) oneUpdate (by decide +kernel)
  exact ⟨c, tr, hrun, hcommit, (replay_invariant hrun (by decide)).1⟩

/-! ## Steps only extend logs -/

/-- A later state of the same server's storage. -/
structure Grows (md md' : ServerMetadata) : Prop where
  smrLog : md.smrLog <+: md'.smrLog
  commitLength : md.commitLength ≤ md'.commitLength

lemma Grows.of_eq {md md' : ServerMetadata} (hlog : md'.smrLog = md.smrLog)
    (hcommit : md'.commitLength = md.commitLength) : Grows md md' :=
  ⟨hlog ▸ List.prefix_rfl, hcommit.ge⟩

lemma Grows.trans {md₁ md₂ md₃ : ServerMetadata} (h₁ : Grows md₁ md₂) (h₂ : Grows md₂ md₃) :
    Grows md₁ md₃ :=
  ⟨h₁.smrLog.trans h₂.smrLog, h₁.commitLength.trans h₂.commitLength⟩

lemma ThreadStep.grows {s : ℤ} {f f' : LaptopFactory} (hstep : ThreadStep s f l f' es)
    (h : WellFormed cfg s f) : Grows f.metadata f'.metadata := by
  cases hstep with
  | readStatus | rest | timeOut | stand | askVote | countVote | ignoreVote | elected | outvoted
  | endVote | queue | replicate | sendLog | heartbeatAnswered | nextRound =>
      exact Grows.of_eq rfl rfl
  | maintain => exact ⟨List.prefix_append _ _, le_refl _⟩
  | fail hlock hlabel hfail =>
      obtain ⟨ack, sent, -, -, -, -, rfl⟩ := failNode_cases hfail
      exact Grows.of_eq rfl rfl
  | entryAnswered hlock hwire hsent hreact =>
      obtain ⟨-, sent, ack, k, rfl, hge, -⟩ := hreact.frame h hlock hwire hsent
      exact ⟨List.prefix_rfl, hge⟩
  | deposed | «return» =>
      rw [LaptopFactory.returnTo_metadata]
      exact Grows.of_eq rfl rfl

lemma ServerMetadata.LogAnswer.grows {md md' : ServerMetadata} {req : LogRequest}
    {res : LogResponse} (hanswer : LogAnswer md req md' res) : Grows md md' := by
  have hadopt : Grows md (md.adoptLeader req) :=
    Grows.of_eq (adoptLeader_smrLog md req) (adoptLeader_commitLength md req)
  cases hanswer with
  | refused hno => exact hadopt.trans (Grows.of_eq rfl rfl)
  | held hterm hcan hlonger => exact hadopt.trans (Grows.of_eq rfl rfl)
  | @extended k hterm hcan hends hexec =>
      refine hadopt.trans ⟨?_, ?_⟩
      · change _ <+: ((md.adoptLeader req).appended req).smrLog
        rw [appended_smrLog]
        exact List.prefix_append _ _
      · show (md.adoptLeader req).commitLength ≤ k
        rw [adoptLeader_commitLength]
        omega

lemma Served.grows {f : LaptopFactory} {rpc : Rpc} {md : ServerMetadata} {reply : Reply}
    (hserved : Served f rpc md reply) (hstored : Stored f.metadata) : Grows f.metadata md := by
  cases hserved with
  | vote hfree hanswer =>
      rw [hanswer.frame]
      exact Grows.of_eq rfl rfl
  | log hfree hvalid hanswer => exact (getLogResponse_cases hstored hanswer).grows

/-- **No step shortens a log or takes a commit back.** -/
theorem server_grows (hrun : (system cfg).Run ok c tr)
    (hst : (system cfg).step c l = some (c', es)) (q : ℤ) :
    Grows (c.server q).metadata (c'.server q).metadata := by
  rcases step_server hrun hst q with heq | ⟨hq, hstep⟩ | ⟨rpc, reply, -, hrpc, hserved⟩
  · rw [heq]
    exact Grows.of_eq rfl rfl
  · exact hstep.grows (wellFormed hrun hq)
  · exact hserved.grows (wellFormed hrun hrpc.mem).sound.stored

/-- **Committed entries are immutable, and leaders are append-only.** -/
theorem commit_stable (hrun : (system cfg).Run ArraysAllocated c tr)
    (hst : (system cfg).step c l = some (c', es)) {s : ℤ} (hs : s ∈ cfg.ids) :
    (c.server s).metadata.commitLength ≤ (c'.server s).metadata.commitLength ∧
    (c'.server s).metadata.smrLog.take (c.server s).metadata.commitLength.toNat =
      (c.server s).metadata.smrLog.take (c.server s).metadata.commitLength.toNat ∧
    ((c.server s).metadata.status = .leader → (c'.server s).metadata.status = .leader →
      (c.server s).metadata.smrLog <+: (c'.server s).metadata.smrLog) := by
  have hgrows := server_grows hrun hst s
  have hcommitted := (wellFormed hrun hs).sound.stored.commit_le_length
  refine ⟨hgrows.commitLength, ?_, fun _ _ => hgrows.smrLog⟩
  obtain ⟨more, hmore⟩ := hgrows.smrLog
  rw [← hmore, List.take_append_of_le_length hcommitted]

/-- The step in which the leader commits its first entry. -/
theorem commit_stable_oneUpdate : ∃ c c' tr es,
    (system three).Run ArraysAllocated c tr ∧
    (system three).step c (.recvLogResponse 0) = some (c', es) ∧
    (c.server 0).metadata.commitLength = 0 ∧ (c'.server 0).metadata.commitLength = 1 ∧
    (c.server 0).metadata.commitLength ≤ (c'.server 0).metadata.commitLength := by
  obtain ⟨c, tr, hrun, hplayed⟩ := run_of_play three ArraysAllocated
    (P := fun c _ => ((system three).step c (.recvLogResponse 0)).any fun p =>
      (c.server 0).metadata.commitLength = 0 ∧ (p.1.server 0).metadata.commitLength = 1)
    (stand 0 ++ callVote 0 ++ submit 0 7 1 ++ [.sendLogRequest 0, .handle 0]) (by decide +kernel)
  rw [Option.any_eq_true] at hplayed
  obtain ⟨⟨c', es⟩, hst, hcommit⟩ := hplayed
  obtain ⟨hbefore, hafter⟩ := of_decide_eq_true hcommit
  exact ⟨c, c', tr, es, hrun, hst, hbefore, hafter, (commit_stable hrun hst (by decide)).1⟩

end Runs

end LaptopRaft
