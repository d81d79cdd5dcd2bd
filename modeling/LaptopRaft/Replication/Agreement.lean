import LaptopRaft.Framework.Commitment
import LaptopRaft.Replication.Acks

/-!
# State machine safety

No server ever shortens its log, so what a quorum holds stays chosen, and chosen logs do not
contradict each other (`Framework/Commitment.lean`).  It remains to see that whatever a server
executes is chosen (`Agreeing`):

* `CommitLog` goes by a majority of slots, and under `KeepsAcks` a slot says what its owner holds
  (`chosen_of_majority`);
* a follower executes what the request's commit length covers, and its log is the sender's up to
  there (`LogAnswer.commit_cases`).

Entries of earlier terms may be committed by counting copies; this argument does not mind.

`state_machine_safety` is the result, `conflicting_commits` the run in which two servers execute
different first entries.
-/

namespace LaptopRaft

open ServerMetadata

/-- Servers that have both executed an entry at an index have executed the same. -/
def StateMachineSafe (cfg : Config) (c : Cluster) : Prop :=
  ∀ a ∈ cfg.ids, ∀ b ∈ cfg.ids, ∀ k : ℕ,
    k < (c.server a).metadata.commitLength → k < (c.server b).metadata.commitLength →
    ∃ op, (c.server a).metadata.smrLog[k]? = some op ∧ (c.server b).metadata.smrLog[k]? = some op

/-! ## What is executed is chosen -/

def Cluster.log (c : Cluster) (s : ℤ) : List MapOp := (c.server s).metadata.smrLog

/-- The entries a server has executed. -/
def Cluster.executed (c : Cluster) (s : ℤ) : List MapOp :=
  (c.log s).take (c.server s).metadata.commitLength.toNat

/-- The commit length of a request covers chosen entries of the sender. -/
structure Announced (cfg : Config) (c : Cluster) (tr : List Event) (req : LogRequest) : Prop where
  reach : req.commitLength.toNat ≤ (termLog tr req.currentTerm).length
  chosen : Chosen cfg.ids c.log ((termLog tr req.currentTerm).take req.commitLength.toNat)

structure Agreeing (cfg : Config) (c : Cluster) (tr : List Event) : Prop where
  executed : ∀ s ∈ cfg.ids, Chosen cfg.ids c.log (c.executed s)
  pending : ∀ p req, (p, .log req) ∈ c.pending → Announced cfg c tr req

section Operations

variable {L : ℤ → List MapOp} {md md' : ServerMetadata} {req : LogRequest} {res : LogResponse}

/-- A follower executes an entry only if the request covers it, and its log is then the beginning
of the sender's. -/
lemma ServerMetadata.LogAnswer.commit_cases (hstored : Stored md)
    (hlog : Matched MapOp.term L md.smrLog) (hterm : Matched MapOp.term L (L req.currentTerm))
    (hreq : FromLeader L req) (hanswer : LogAnswer md req md' res) :
    md'.commitLength = md.commitLength ∨
      (md'.commitLength ≤ req.commitLength ∧ md'.smrLog <+: L req.currentTerm) := by
  cases hanswer with
  | refused hno => exact Or.inl (adoptLeader_commitLength md req)
  | held hcurrent hcan hlonger => exact Or.inl (adoptLeader_commitLength md req)
  | @extended k hcurrent hcan hends hexec =>
      rcases hexec with rfl | ⟨rfl, hcovered, -⟩
      · exact Or.inl rfl
      · refine Or.inr ⟨?_, adopted_isPrefix hstored hlog hterm hreq hcan hends⟩
        show md.commitLength + 1 ≤ req.commitLength
        omega

/-- Of a thread, only `CommitLog` moves the commit length: a leader's, to where a majority of the
slots is. -/
lemma ThreadStep.commit_cases {cfg : Config} {s : ℤ} {f f' : LaptopFactory} {l : Label}
    {es : List Event} (hstep : ThreadStep s f l f' es) (hwf : WellFormed cfg s f) :
    f'.metadata.commitLength = f.metadata.commitLength ∨
      (f'.metadata.status = .leader ∧
        ∃ ack, f'.metadata.ackLength = some ack ∧ Majority ack f'.metadata.commitLength) := by
  cases hstep with
  | readStatus | rest | timeOut | stand | askVote | countVote | ignoreVote | elected | outvoted
  | endVote | queue | maintain | replicate | sendLog | heartbeatAnswered | nextRound =>
      exact Or.inl rfl
  | fail hlock hlabel hfail =>
      obtain ⟨ack, sent, -, -, -, -, rfl⟩ := failNode_cases hfail
      exact Or.inl rfl
  | entryAnswered hlock hwire hsent hreact =>
      cases hreact with
      | @acked sent ack _ hterm hleader hsuccess hsents hack hcommit =>
          obtain ⟨k, rfl, hge, -, hmajority, -⟩ :=
            hwf.commitLog_recordAck hack hcommit
          rcases hge.eq_or_lt with heq | hlt
          · exact Or.inl heq.symm
          · exact Or.inr ⟨hleader, _, rfl, hmajority hlt⟩
      | backed | kept => exact Or.inl rfl
  | deposed | «return» =>
      rw [LaptopFactory.returnTo_metadata]
      exact Or.inl rfl

end Operations

section Runs

variable {cfg : Config} {c c' : Cluster} {tr es : List Event} {l : Label} {s : ℤ}

/-- **What a majority of a leader's slots covers is chosen.** -/
theorem chosen_of_majority (hrun : (system cfg).Run KeepsAcks c tr) (hs : s ∈ cfg.ids)
    (hleader : (c.server s).metadata.status = .leader) {ack : List ℤ}
    (hack : (c.server s).metadata.ackLength = some ack) {k : ℤ} (hmajority : Majority ack k) :
    Chosen cfg.ids c.log ((c.log s).take k.toNat) := by
  refine (quorum_of_majority hrun hs hack hmajority).mono ?_
  rintro q ⟨i, a, hq, ha, hreaches⟩
  have hle : k.toNat ≤ a.toNat := by omega
  exact (List.take_prefix_take_left hle).trans (slot_held hrun hs hleader hack hq ha).2

lemma log_grows (hrun : (system cfg).Run KeepsAcks c tr)
    (hst : (system cfg).step c l = some (c', es)) (q : ℤ) : c.log q <+: c'.log q :=
  (server_grows hrun hst q).smrLog

lemma Announced.mono {req : LogRequest} (h : Announced cfg c tr req)
    (hgrow : ∀ t, termLog tr t <+: termLog (tr ++ es) t) (hlogs : ∀ q, c.log q <+: c'.log q) :
    Announced cfg c' (tr ++ es) req := by
  constructor
  · exact h.reach.trans (hgrow _).length_le
  · rw [← take_eq_of_isPrefix (hgrow _) h.reach]
    exact h.chosen.mono hlogs

/-- The request a server is waiting for. -/
lemma Agreeing.request (h : Agreeing cfg c tr) (hrun : (system cfg).Run KeepsAcks c tr)
    (hs : s ∈ cfg.ids) {node : ServerNode} {req : LogRequest}
    (hwire : (c.server s).wire = .request node (.log req)) : Announced cfg c tr req := by
  have hwf := wellFormed hrun hs
  obtain ⟨⟨caller, rest, new, change, hlock⟩, hreq⟩ := hwf.flow.logRequest node req hwire
  have hbuilt := logRequestFor_cases hreq
  have hleader := (KeepsAcks.leading hrun hs).replicating _ _ hlock
  have hlog := (matching_of_run (KeepsAcks.logs hrun)).leading s hs hleader
  constructor
  · rw [hbuilt.term, hbuilt.commit, ← hlog]
    exact hwf.sound.stored.commit_le_length
  · rw [hbuilt.term, hbuilt.commit, ← hlog]
    exact h.executed s hs

lemma Agreeing.delivered (h : Agreeing cfg c tr) (hrun : (system cfg).Run KeepsAcks c tr)
    (hst : (system cfg).step c l = some (c', es)) {p : ℤ} {req : LogRequest}
    (hdelivered : c.delivered l = some (p, .log req)) : Announced cfg c tr req := by
  rcases log_delivered_cases hst hdelivered with ⟨s, hs, node, hwire⟩ | hpending
  · exact h.request hrun hs hwire
  · exact h.pending p req hpending

/-- A server that executes nothing new. -/
lemma Agreeing.kept (h : Agreeing cfg c tr) (hrun : (system cfg).Run KeepsAcks c tr)
    (hst : (system cfg).step c l = some (c', es)) {q : ℤ} (hq : q ∈ cfg.ids)
    (hcommit : (c'.server q).metadata.commitLength = (c.server q).metadata.commitLength) :
    Chosen cfg.ids c'.log (c'.executed q) := by
  have hlogs := log_grows hrun hst
  have hsame : c'.executed q = c.executed q := by
    rw [Cluster.executed, Cluster.executed, hcommit]
    exact (take_eq_of_isPrefix (hlogs q) (wellFormed hrun hq).sound.stored.commit_le_length).symm
  rw [hsame]
  exact (h.executed q hq).mono hlogs

/-- A follower that executes an entry. -/
lemma Agreeing.served (h : Agreeing cfg c tr) (hrun : (system cfg).Run KeepsAcks c tr)
    (hok : KeepsAcks c l) (hst : (system cfg).step c l = some (c', es)) {p : ℤ} {rpc : Rpc}
    {reply : Reply} (hdelivered : c.delivered l = some (p, rpc))
    (hserved : Served (c.server p) rpc (c'.server p).metadata reply) :
    Chosen cfg.ids c'.log (c'.executed p) := by
  have hrun' : (system cfg).Run KeepsAcks c' (tr ++ es) := .step hrun hok hst
  have hp := (soundRpc_of_delivered hrun (mem_of_step hst) hdelivered).mem
  have hstored := (wellFormed hrun hp).sound.stored
  have hreached := (wellFormed hrun' hp).sound.stored.commit_le_length
  have hmatching := matching_of_run (KeepsAcks.logs hrun)
  have hkept := h.kept hrun hst hp
  generalize hmd : (c'.server p).metadata = md at hserved hreached hkept
  cases hserved with
  | vote hfree hanswer =>
      apply hkept
      rw [hanswer.frame]
  | @log req _ res hfree hvalid hanswer =>
      have hrequest := hmatching.delivered (KeepsAcks.logs hrun) hst hdelivered
      rcases (getLogResponse_cases hstored hanswer).commit_cases hstored (hmatching.logs p hp)
        (hmatching.terms _) hrequest with hsame | ⟨hcovered, hpre⟩
      · exact hkept hsame
      · have hchosen := (h.delivered hrun hst hdelivered).chosen.mono (log_grows hrun hst)
        refine hchosen.of_isPrefix ?_
        have hle : md.commitLength.toNat ≤ req.commitLength.toNat := by omega
        rw [Cluster.executed, Cluster.log, hmd, take_eq_of_isPrefix hpre hreached]
        exact List.take_prefix_take_left hle

theorem agreeing_of_run (hrun : (system cfg).Run KeepsAcks c tr) : Agreeing cfg c tr := by
  refine TransitionSystem.Run.invariant (I := Agreeing cfg) ?_ ?_ hrun
  · rintro _ ⟨connects, rfl⟩
    constructor
    · intro s hs
      obtain ⟨index, heq, -⟩ := bootMetadata_eq cfg connects s
      have hmetadata : ((boot cfg connects).server s).metadata = _ := heq
      rw [Cluster.executed, hmetadata]
      exact Chosen.nil ⟨s, hs⟩
    · intro p req hin
      exact absurd hin List.not_mem_nil
  · intro c tr l c' es hrun ih hok hst
    have hrun' : (system cfg).Run KeepsAcks c' (tr ++ es) := .step hrun hok hst
    have hlogs := log_grows hrun hst
    have hgrow := termLog_grows (KeepsAcks.logs hrun) hok.toKeepsLogs hst
    rcases step_cases hst with ⟨s, f, hs, hstep, hserver, hpending⟩ |
      ⟨p, rpc, reply, hdelivered, ⟨hserved, hothers, hpending⟩, rfl⟩
    · have hself : c'.server s = f := by rw [hserver, Function.update_self]
      constructor
      · intro q hq
        by_cases hqs : q = s
        · subst hqs
          rcases hstep.commit_cases (wellFormed hrun hq) with hsame |
            ⟨hleader, ack, hack, hmajority⟩
          · exact ih.kept hrun hst hq (by rw [hself, hsame])
          · rw [← hself] at hleader hack hmajority
            exact chosen_of_majority hrun' hq hleader hack hmajority
        · exact ih.kept hrun hst hq (by rw [hserver, Function.update_of_ne hqs])
      · intro p req hin
        have hannounced : Announced cfg c tr req := by
          rcases hpending _ hin with hold | habandoned
          · exact ih.pending p req hold
          · obtain ⟨node, hwire, -⟩ := Wire.eq_of_mem_abandoned habandoned
            exact ih.request hrun hs hwire
        exact hannounced.mono hgrow hlogs
    · constructor
      · intro q hq
        by_cases hqp : q = p
        · subst hqp
          exact ih.served hrun hok hst hdelivered hserved
        · exact ih.kept hrun hst hq (by rw [hothers q hqp])
      · intro q req hin
        exact (ih.pending q req (hpending _ hin)).mono hgrow hlogs

/-- **State machine safety**, in every run in which acknowledgements are true. -/
theorem state_machine_safety (hrun : (system cfg).Run KeepsAcks c tr) :
    StateMachineSafe cfg c := by
  intro a ha b hb k hka hkb
  have hagreeing := agreeing_of_run hrun
  have hreach : ∀ {s : ℤ}, s ∈ cfg.ids → (k : ℤ) < (c.server s).metadata.commitLength →
      k < (c.executed s).length ∧ (c.executed s)[k]? = (c.log s)[k]? := by
    intro s hs hk
    have hle : (c.server s).metadata.commitLength.toNat ≤ (c.log s).length :=
      (wellFormed hrun hs).sound.stored.commit_le_length
    have hk' : k < (c.server s).metadata.commitLength.toNat := by omega
    refine ⟨?_, List.getElem?_take_of_lt hk'⟩
    rw [Cluster.executed, List.length_take_of_le hle]
    exact hk'
  obtain ⟨hlta, hgeta⟩ := hreach ha hka
  obtain ⟨hltb, hgetb⟩ := hreach hb hkb
  have hsame := (hagreeing.executed a ha).getElem?_eq (hagreeing.executed b hb) hlta hltb
  refine ⟨(c.executed a)[k], ?_, ?_⟩
  · exact hgeta.symm.trans (List.getElem?_eq_getElem hlta)
  · exact hgetb.symm.trans (hsame.symm.trans (List.getElem?_eq_getElem hlta))

end Runs

theorem state_machine_safety_oneUpdate : ∃ c tr, (system three).Run KeepsAcks c tr ∧
    (c.server 0).metadata.commitLength = 1 ∧ (c.server 2).metadata.commitLength = 1 ∧
    StateMachineSafe three c := by
  obtain ⟨c, tr, hrun, hleader, hfollower⟩ := run_of_play three KeepsAcks
    (P := fun c _ => (c.server 0).metadata.commitLength = 1 ∧
      (c.server 2).metadata.commitLength = 1) oneUpdate (by decide +kernel)
  exact ⟨c, tr, hrun, hleader, hfollower, state_machine_safety hrun⟩

/-- Servers 0 and 1 both call server 2 first. -/
def between : Config := Config.mesh [2, 0, 1] (by decide)

/-- Server 0 leads term 1.  Server 1 is elected by server 2 in term 2; then server 0, still the
leader of term 1, replicates an update to server 2, and server 1 another one. -/
def twoCommits : List Label :=
  stand 0 ++ callVote 0 ++ heartbeat 0 ++ callLog 0 ++ callLog 0 ++ [.endRound 0] ++
    timeOut 1 ++ stand 1 ++ callVote 1 ++ submit 0 7 1 ++ callLog 0 ++ callLog 0 ++
    submit 1 8 1 ++ callLog 1

/-- Server 2 goes back to term 1 for server 0 and accepts its entry, then acknowledges the entry
of server 1 without having it.  Both leaders execute their own. -/
theorem conflicting_commits : ∃ c tr, (system between).Run TransitionSystem.anyStep c tr ∧
    (c.server 0).metadata.commitLength = 1 ∧ (c.server 0).metadata.smrLog = [⟨1, 7, 1⟩] ∧
    (c.server 1).metadata.commitLength = 1 ∧ (c.server 1).metadata.smrLog = [⟨2, 8, 1⟩] ∧
    ¬ StateMachineSafe between c := by
  obtain ⟨c, tr, hrun, hcommit, hzero, hcommit', hone⟩ := run_of_play between
    TransitionSystem.anyStep
    (P := fun c _ => (c.server 0).metadata.commitLength = 1 ∧
      (c.server 0).metadata.smrLog = [⟨1, 7, 1⟩] ∧ (c.server 1).metadata.commitLength = 1 ∧
      (c.server 1).metadata.smrLog = [⟨2, 8, 1⟩]) twoCommits (by decide +kernel)
  refine ⟨c, tr, hrun, hcommit, hzero, hcommit', hone, fun hsafe => ?_⟩
  obtain ⟨op, hop, hop'⟩ := hsafe 0 (by decide) 1 (by decide) 0 (by rw [hcommit]; decide)
    (by rw [hcommit']; decide)
  rw [hzero] at hop
  rw [hone, ← hop] at hop'
  simp at hop'

end LaptopRaft
