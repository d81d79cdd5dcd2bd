import LaptopRaft.Replication.Agreement
import LaptopRaft.Replication.History
import Mathlib.Data.Int.Interval

/-!
# Leader completeness

What `CommitLog` counts as committed is what a quorum has accepted in the leader's term (`Backed`).
A voter that votes later has the accepted entries in its log, and gives its vote to candidates
whose log is as recent.  `ElectionHistory.later_leader_extends` turns this into leader
completeness, provided that the accepted entries end in an entry of the leader's own term.

That proviso is not in the source: `CommitLog` commits the last index that a majority has
acknowledged, whatever the term of the entry there.  An entry of an earlier term with nothing
after it is not protected against candidates with an entry of a term in between, which is what
`CommitsOwnTerm` rules out.

`leader_completeness` is the result; in `committed_entry_lost` a false acknowledgement commits an
entry that the next leader does not have.
-/

namespace LaptopRaft

open ServerMetadata

/-- Every leader of a later term was elected with the entries counted as committed. -/
def LeaderComplete (tr : List Event) : Prop :=
  ∀ s t k op s' t' log, .commit s t k op ∈ tr → .initLeader s' t' log ∈ tr → t < t' →
    log[k]? = some op

/-! ## The condition -/

namespace ServerMetadata

/-- `ack_length` when the answer has been recorded. -/
def ackedBy (md : ServerMetadata) (node : ServerNode) (res : LogResponse) : List ℤ :=
  (md.ackLength.getD []).set (md.slot node) res.ack

/-- The answer is one that `ReplicateLog` records. -/
def RecordsAck (md : ServerMetadata) (node : ServerNode) (res : LogResponse) : Prop :=
  res.followerId ≠ -1 ∧ md.sentTo node ≠ some md.logSize ∧
    res.currentTerm = md.currentTerm ∧ md.status = .leader ∧ res.success ≠ 0

instance (md : ServerMetadata) (node : ServerNode) (res : LogResponse) :
    Decidable (md.RecordsAck node res) :=
  inferInstanceAs (Decidable (_ ∧ _))

/-- Whatever entry the recorded answer lets a majority reach, it lets a majority reach one of the
present term at the same index or after. -/
def ReachesOwnTerm (md : ServerMetadata) (node : ServerNode) (res : LogResponse) : Prop :=
  ∀ n < md.smrLog.length, md.commitLength ≤ n → Majority (md.ackedBy node res) (n + 1) →
    ∃ m < md.smrLog.length, n ≤ m ∧ Majority (md.ackedBy node res) (m + 1) ∧
      (md.smrLog[m]?).map MapOp.term = some md.currentTerm

instance (md : ServerMetadata) (node : ServerNode) (res : LogResponse) :
    Decidable (md.ReachesOwnTerm node res) :=
  inferInstanceAs (Decidable (∀ n < md.smrLog.length, _ → _ → ∃ m < md.smrLog.length, _))

end ServerMetadata

/-- A leader commits only up to entries of its own term. -/
def CommitsOwnTerm (c : Cluster) : Label → Prop
  | .recvLogResponse s =>
      match (c.server s).callee, (c.server s).wire with
      | some node, .response (.log res) => (c.server s).metadata.RecordsAck node res →
          (c.server s).metadata.ReachesOwnTerm node res
      | _, _ => True
  | _ => True

instance (c : Cluster) (l : Label) : Decidable (CommitsOwnTerm c l) := by
  induction l using Label.casesOn
  case recvLogResponse s =>
    dsimp only [CommitsOwnTerm]
    exact match (c.server s).callee, (c.server s).wire with
      | some _, .response (.log _) => inferInstance
      | some _, .response (.vote _) | some _, .request _ _ | some _, .quiet | none, _ =>
          instDecidableTrue
  all_goals exact instDecidableTrue

/-- The steps under which leaders are complete. -/
structure KeepsCommits (c : Cluster) (l : Label) : Prop extends KeepsAcks c l where
  own : CommitsOwnTerm c l

instance (c : Cluster) (l : Label) : Decidable (KeepsCommits c l) :=
  decidable_of_iff (KeepsAcks c l ∧ CommitsOwnTerm c l)
    ⟨fun h => ⟨h.1, h.2⟩, fun h => ⟨h.toKeepsAcks, h.own⟩⟩

lemma CommitsOwnTerm.reaches {c : Cluster} {s : ℤ} (h : CommitsOwnTerm c (.recvLogResponse s))
    {node : ServerNode} {res : LogResponse} (hcallee : (c.server s).callee = some node)
    (hwire : (c.server s).wire = .response (.log res))
    (hrecords : (c.server s).metadata.RecordsAck node res) :
    (c.server s).metadata.ReachesOwnTerm node res := by
  simp only [CommitsOwnTerm, hcallee, hwire] at h
  exact h hrecords

/-! ## What is committed -/

/-- The entry at `k` of the log of term `t` is covered by an entry of that very term which a
quorum has accepted. -/
def Backed (cfg : Config) (tr : List Event) (t : ℤ) (k : ℕ) (op : MapOp) : Prop :=
  (termLog tr t)[k]? = some op ∧
    ∃ m, k ≤ m ∧ (∃ e, (termLog tr t)[m]? = some e ∧ e.term = t) ∧
      HasQuorum cfg.ids fun q => ∃ a, (m : ℤ) + 1 ≤ a ∧ .accept q t a ∈ tr

section Runs

variable {cfg : Config} {c c' : Cluster} {tr es : List Event} {l : Label} {s : ℤ}

lemma Backed.mono {t : ℤ} {k : ℕ} {op : MapOp} (h : Backed cfg tr t k op)
    (hgrow : termLog tr t <+: termLog (tr ++ es) t) : Backed cfg (tr ++ es) t k op := by
  obtain ⟨hop, m, hkm, ⟨e, he, hterm⟩, hquorum⟩ := h
  refine ⟨getElem?_of_isPrefix hgrow hop, m, hkm, ⟨e, getElem?_of_isPrefix hgrow he, hterm⟩, ?_⟩
  apply hquorum.mono
  rintro q ⟨a, hle, haccept⟩
  exact ⟨a, hle, List.mem_append_left es haccept⟩

/-- A majority of a leader's slots, beyond `0`, has accepted as much in its term. -/
lemma accepted_of_majority (hrun : (system cfg).Run KeepsAcks c tr) (hs : s ∈ cfg.ids)
    (hleader : (c.server s).metadata.status = .leader) {ack : List ℤ}
    (hack : (c.server s).metadata.ackLength = some ack) {m : ℕ}
    (hmajority : Majority ack (m + 1)) : HasQuorum cfg.ids fun q =>
      ∃ a, (m : ℤ) + 1 ≤ a ∧ .accept q (c.server s).metadata.currentTerm a ∈ tr := by
  refine (quorum_of_majority hrun hs hack hmajority).mono ?_
  rintro q ⟨i, a, hq, ha, hreaches⟩
  have hne : a ≠ 0 := by omega
  exact ⟨a, hreaches, (counting_of_run hrun hs).slots hleader ack hack i q a hq ha hne⟩

lemma commitEvents_cases {before after : ServerMetadata} {e : Event}
    (h : e ∈ commitEvents s before after) :
    ∃ i op, i < (after.commitLength - before.commitLength).toNat ∧
      after.smrLog[before.commitLength.toNat + i]? = some op ∧
      e = .commit s after.currentTerm (before.commitLength.toNat + i) op := by
  obtain ⟨i, hi, he⟩ := List.mem_filterMap.1 h
  obtain ⟨op, hop, rfl⟩ := Option.map_eq_some_iff.1 he
  exact ⟨i, op, List.mem_range.1 hi, hop, rfl⟩

/-- What a leader commits when it records an answer. -/
lemma backed_of_commit (hrun : (system cfg).Run KeepsCommits c tr) (hok : KeepsCommits c l)
    (hst : (system cfg).step c l = some (c', es)) {t : ℤ} {k : ℕ} {op : MapOp}
    (hcommit : .commit s t k op ∈ es) : Backed cfg (tr ++ es) t k op := by
  have hacks : (system cfg).Run KeepsAcks c tr := hrun.mono fun _ _ hok => hok.toKeepsAcks
  have hacks' : (system cfg).Run KeepsAcks c' (tr ++ es) := .step hacks hok.toKeepsAcks hst
  rcases step_cases hst with ⟨q, f, hq, hstep, hserver, -⟩ | ⟨p, rpc, reply, -, -, rfl⟩
  · obtain rfl : s = q := hstep.server_eq _ hcommit
    have hwf := wellFormed hrun hq
    have hself : c'.server s = f := by rw [hserver, Function.update_self]
    have hmatching := matching_of_run (KeepsAcks.logs hacks')
    have haccepted := accepted_of_majority hacks' hq
    have hleading := hmatching.leading s hq
    rw [hself] at haccepted hleading
    cases hstep with
    | queue hqueue =>
        obtain ⟨laptop, hship⟩ := hqueue.events _ hcommit
        cases hship
    | stand => simp [standEvents] at hcommit
    | @entryAnswered caller node rest new change res md hlock hwire hsent hreact hvalid =>
        obtain ⟨i, op', hi, hop, he⟩ := commitEvents_cases hcommit
        cases he
        cases hreact with
        | @acked sent ack _ hterm hleader hsuccess hsents hack hcommitLog =>
            have hcallee : (c.server s).callee = some node := by
              simp [LaptopFactory.callee, hlock]
            have hreaches := hok.own.reaches hcallee hwire ⟨hvalid, hsent, hterm, hleader, hsuccess⟩
            obtain ⟨n, rfl, hge, hle, hmajority, -⟩ := hwf.commitLog_recordAck hack hcommitLog
            have hlog : (c.server s).metadata.smrLog =
                termLog (tr ++ _) (c.server s).metadata.currentTerm := hleading hleader
            have hacked : (c.server s).metadata.ackedBy node res =
                ack.set ((c.server s).metadata.slot node) res.ack := by
              rw [ackedBy, hack, Option.getD_some]
            have hsize := hwf.sound.stored.logSize
            have hnonneg := hwf.sound.stored.commit_nonneg
            change i < (n - (c.server s).metadata.commitLength).toNat at hi
            -- the last entry a majority has is `n - 1`; one of the own term is there or after
            have hlast : ((n.toNat - 1 : ℕ) : ℤ) + 1 = n := by omega
            obtain ⟨m, hm, hnm, hmaj, howns⟩ := hreaches (n.toNat - 1) (by omega) (by omega) (by
              rw [hacked, hlast]
              exact hmajority (by omega))
            rw [hacked] at hmaj
            rw [hlog] at howns
            refine ⟨hlog ▸ hop, m, by omega, Option.map_eq_some_iff.1 howns, ?_⟩
            exact haccepted hleader rfl hmaj
        | backed | kept => simp at hi
    | _ => simp at hcommit
  · rcases serveEvents_cases hcommit with ⟨_, _, -, -, -, he⟩ | ⟨_, _, -, -, -, -, he⟩ <;> cases he

theorem backed_of_run (hrun : (system cfg).Run KeepsCommits c tr) :
    ∀ s t k op, .commit s t k op ∈ tr → Backed cfg tr t k op := by
  refine TransitionSystem.Run.invariant
    (I := fun _ tr => ∀ s t k op, .commit s t k op ∈ tr → Backed cfg tr t k op) ?_ ?_ hrun
  · intro _ _ s t k op hcommit
    cases hcommit
  · intro c tr l c' es hrun ih hok hst s t k op hcommit
    rcases List.mem_append.1 hcommit with hold | hnew
    · have hlogs : (system cfg).Run KeepsLogs c tr := hrun.mono fun _ _ hok => hok.toKeepsLogs
      exact (ih s t k op hold).mono (termLog_grows hlogs hok.toKeepsLogs hst t)
    · exact backed_of_commit hrun hok hst hnew

/-- The vote rule of the source is the abstract one, for logs of valid terms. -/
lemma UpToDate.atLeastAsRecent {log voterLog : List MapOp} (h : UpToDate log voterLog)
    (hnonneg : ∀ op ∈ voterLog, 0 ≤ op.term) : AtLeastAsRecent MapOp.term log voterLog := by
  intro e he
  have hterm : lastTerm voterLog = e.term := by rw [lastTerm, he]; rfl
  have hpos : 0 ≤ e.term := hnonneg e (List.mem_of_getLast? he)
  have hlen : 0 < voterLog.length := List.length_pos_of_mem (List.mem_of_getLast? he)
  unfold UpToDate AsRecent at h
  cases hlast : log.getLast? with
  | none =>
      obtain rfl := List.getLast?_eq_none_iff.1 hlast
      have hzero : lastTerm [] = 0 := rfl
      simp only [hterm, hzero, List.length_nil] at h
      omega
  | some e' =>
      have hterm' : lastTerm log = e'.term := by rw [lastTerm, hlast]; rfl
      rw [hterm, hterm'] at h
      refine ⟨e', rfl, ?_⟩
      rcases h with hlt | ⟨heq, hle⟩
      · exact Or.inl hlt
      · exact Or.inr ⟨heq.symm, by omega⟩

/-- Some server was elected in term `t` with `log`. -/
def Elected (tr : List Event) (t : ℤ) (log : List MapOp) : Prop := ∃ s, .initLeader s t log ∈ tr

/-- `v` voted for someone in term `t`, when its log was `log`. -/
def VotedWith (tr : List Event) (v t : ℤ) (log : List MapOp) : Prop := ∃ a, .vote v t a log ∈ tr

/-- A voter's log of the past is the beginning of its log. -/
lemma VotedWith.isPrefix (hrun : (system cfg).Run KeepsAcks c tr) {v t : ℤ} {log : List MapOp}
    (h : VotedWith tr v t log) : v ∈ cfg.ids ∧ log <+: (c.server v).metadata.smrLog := by
  obtain ⟨a, hvote⟩ := h
  have hv : v ∈ cfg.ids := server_mem_of_run hrun _ hvote
  exact ⟨hv, (remembers_of_run hrun hv).votes t a log hvote⟩

theorem electionHistory_of_run (hrun : (system cfg).Run KeepsAcks c tr) :
    ElectionHistory cfg.ids MapOp.term (termLog tr) (Elected tr) (VotedWith tr) := by
  have hlogs := KeepsAcks.logs hrun
  have hmatching := matching_of_run hlogs
  constructor
  · exact hmatching.terms
  · exact (bounded_of_run hlogs).terms
  · intro u hne
    obtain ⟨s, log, helected⟩ := exists_elected hlogs hne
    exact ⟨log, s, helected⟩
  · rintro u log ⟨s, helected⟩
    exact elected_isPrefix hlogs s u log helected
  · rintro u log ⟨s, helected⟩
    have hs : s ∈ cfg.ids := server_mem_of_run hrun _ helected
    exact (standing_of_run hlogs hs).elected u log helected
  · intro v u voterLog hvoted
    obtain ⟨hv, hpre⟩ := hvoted.isPrefix hrun
    exact (hmatching.logs v hv).of_isPrefix hpre
  · rintro u log ⟨s, helected⟩
    have hs : s ∈ cfg.ids := server_mem_of_run hrun _ helected
    have helecting := electing_of_run (KeepsLogs.elections hlogs) hs
    refine (helecting.quorum u log helected).mono ?_
    rintro v ⟨voterLog, hvote, hrecent⟩
    have hvoted : VotedWith tr v u voterLog := ⟨s, hvote⟩
    obtain ⟨hv, hpre⟩ := hvoted.isPrefix hrun
    refine ⟨voterLog, hvoted, hrecent.atLeastAsRecent fun op hop => ?_⟩
    exact (wellFormed hrun hv).sound.entry_term op (hpre.subset hop)

/-- **Leader completeness**, in every run in which acknowledgements are true and leaders commit
up to entries of their own term. -/
theorem leader_completeness (hrun : (system cfg).Run KeepsCommits c tr) : LeaderComplete tr := by
  intro s t k op s' t' log hcommit helected hlater
  have hacks : (system cfg).Run KeepsAcks c tr := hrun.mono fun _ _ hok => hok.toKeepsAcks
  obtain ⟨hop, m, hkm, ⟨e, he, heterm⟩, hquorum⟩ := backed_of_run hrun s t k op hcommit
  obtain ⟨hm, -⟩ := List.getElem?_eq_some_iff.1 he
  have hlast : ((termLog tr t).take (m + 1)).getLast? = some e := by
    rw [List.getLast?_eq_getElem?, List.length_take_of_le hm, List.getElem?_take_of_lt (by omega)]
    exact he
  have hheld : HasQuorum cfg.ids fun v => ∀ u voterLog, t < u → VotedWith tr v u voterLog →
      (termLog tr t).take (m + 1) <+: voterLog := by
    apply hquorum.mono
    rintro q ⟨a, hle, haccept⟩ u voterLog hlt ⟨b, hvote⟩
    have hreach : m + 1 ≤ a.toNat := by omega
    exact (List.take_prefix_take_left hreach).trans
      (accepted_isPrefix_of_vote hacks haccept hvote hlt)
  have hextends : (termLog tr t).take (m + 1) <+: log :=
    (electionHistory_of_run hacks).later_leader_extends ⟨e, hlast, heterm⟩ (List.take_prefix _ _)
      hheld hlater ⟨s', helected⟩
  apply getElem?_of_isPrefix hextends
  rw [List.getElem?_take_of_lt (by omega)]
  exact hop

end Runs

/-- Server 1 takes over from server 0, which has committed its update. -/
theorem leader_completeness_oneUpdate : ∃ c tr, (system three).Run KeepsCommits c tr ∧
    .commit 0 1 0 ⟨1, 7, 1⟩ ∈ tr ∧ .initLeader 1 2 [⟨1, 7, 1⟩] ∈ tr ∧ LeaderComplete tr := by
  obtain ⟨c, tr, hrun, hcommit, helected⟩ := run_of_play three KeepsCommits
    (P := fun _ tr => .commit 0 1 0 ⟨1, 7, 1⟩ ∈ tr ∧ .initLeader 1 2 [⟨1, 7, 1⟩] ∈ tr)
    (oneUpdate ++ timeOut 1 ++ stand 1 ++ callVote 1) (by decide +kernel)
  exact ⟨c, tr, hrun, hcommit, helected, leader_completeness hrun⟩

/-- Server 1 commits its update on the false acknowledgement of server 2.  Server 0, which has
another first entry, is then elected by server 2 in term 3. -/
theorem committed_entry_lost : ∃ c tr, (system between).Run TransitionSystem.anyStep c tr ∧
    .commit 1 2 0 ⟨2, 8, 1⟩ ∈ tr ∧ .initLeader 0 3 [⟨1, 7, 1⟩] ∈ tr ∧ ¬ LeaderComplete tr := by
  obtain ⟨c, tr, hrun, hcommit, helected⟩ := run_of_play between TransitionSystem.anyStep
    (P := fun _ tr => .commit 1 2 0 ⟨2, 8, 1⟩ ∈ tr ∧ .initLeader 0 3 [⟨1, 7, 1⟩] ∈ tr)
    (twoCommits ++ stand 0 ++ callVote 0) (by decide +kernel)
  refine ⟨c, tr, hrun, hcommit, helected, fun hcomplete => ?_⟩
  have hlost := hcomplete 1 2 0 ⟨2, 8, 1⟩ 0 3 [⟨1, 7, 1⟩] hcommit helected (by decide)
  simp at hlost

end LaptopRaft
