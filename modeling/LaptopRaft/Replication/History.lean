import LaptopRaft.Replication.Acks

/-!
# What the past says about logs

Facts about a whole run, in terms of what was observed of it.

* Terms: no log holds an entry of a term its server has not reached, the log of a term none of a
  later one (`Bounded`), and a candidate none of its own term (`Standing`).
* Elections: a leader's log only grows from what it was elected with (`elected_isPrefix`).
* Votes: a voter's log still begins with what it was at the vote, and what the voter had accepted
  before is part of that (`Remembers`).
-/

namespace LaptopRaft

open ServerMetadata

/-! ## Terms -/

structure Bounded (cfg : Config) (c : Cluster) (tr : List Event) : Prop where
  logs : ∀ s ∈ cfg.ids, ∀ op ∈ (c.server s).metadata.smrLog,
    op.term ≤ (c.server s).metadata.currentTerm
  terms : ∀ t, ∀ op ∈ termLog tr t, op.term ≤ t

/-- A candidate's entries are from before its term, and so are those it was elected with. -/
structure Standing (s : ℤ) (f : LaptopFactory) (tr : List Event) : Prop where
  running : ∀ rest, f.metaLock = .requestVote rest →
    ∀ op ∈ f.metadata.smrLog, op.term < f.metadata.currentTerm
  elected : ∀ t log, .initLeader s t log ∈ tr → ∀ op ∈ log, op.term < t

section Terms

variable {cfg : Config} {c c' : Cluster} {tr es : List Event} {l : Label} {s : ℤ}

/-- A thread that extends the log of its term, by entries of no later term. -/
lemma Bounded.terms_update (h : Bounded cfg c tr) {t : ℤ} {log : List MapOp}
    (hgrown : termLog (tr ++ es) = Function.update (termLog tr) t log)
    (hlog : ∀ op ∈ log, op.term ≤ t) : ∀ u, ∀ op ∈ termLog (tr ++ es) u, op.term ≤ u := by
  intro u
  rw [hgrown]
  by_cases hu : u = t
  · rw [hu, Function.update_self]
    exact hlog
  · rw [Function.update_of_ne hu]
    exact h.terms u

lemma Bounded.thread (h : Bounded cfg c tr) (hrun : (system cfg).Run KeepsLogs c tr)
    (hs : s ∈ cfg.ids) {f : LaptopFactory} (hstep : ThreadStep s (c.server s) l f es)
    (hok : KeepsLogs c l) : (∀ op ∈ f.metadata.smrLog, op.term ≤ f.metadata.currentTerm) ∧
      ∀ t, ∀ op ∈ termLog (tr ++ es) t, op.term ≤ t := by
  have hwf := wellFormed hrun hs
  have hle := hstep.term_le hwf
  cases hstep.logStep hwf with
  | quiet hsilent hlog =>
      rw [hlog, termLog_of_silent hsilent]
      exact ⟨fun op hop => (h.logs s hs op hop).trans hle, h.terms⟩
  | elected hlock hlog hterm hes =>
      subst hes
      rw [hlog, hterm]
      exact ⟨h.logs s hs, h.terms_update (termLog_initLeader tr s _ _) (h.logs s hs)⟩
  | @append i accepts op hlabel hop hlog hterm hes =>
      subst hes hlabel
      have hleader : (c.server s).metadata.status = .leader := hok.acts
      have hown := (matching_of_run hrun).leading s hs hleader
      have hbound : ∀ x ∈ (c.server s).metadata.smrLog ++ [op],
          x.term ≤ (c.server s).metadata.currentTerm := by
        intro x hx
        rcases List.mem_append.1 hx with hold | hnew
        · exact h.logs s hs x hold
        · rw [List.mem_singleton.1 hnew, hop]
      have hgrown := termLog_write tr s (c.server s).metadata.currentTerm
        ((c.server s).metadata.logSize + 1) op
      rw [hop, ← hown] at hgrown
      rw [hlog, hterm]
      exact ⟨hbound, h.terms_update hgrown hbound⟩

lemma Bounded.served (h : Bounded cfg c tr) (hrun : (system cfg).Run KeepsLogs c tr)
    (hok : KeepsLogs c l) (hst : (system cfg).step c l = some (c', es)) {p : ℤ} {rpc : Rpc}
    {md : ServerMetadata} {reply : Reply} (hdelivered : c.delivered l = some (p, rpc))
    (hserved : Served (c.server p) rpc md reply) : ∀ op ∈ md.smrLog, op.term ≤ md.currentTerm := by
  have hp := (soundRpc_of_delivered hrun (mem_of_step hst) hdelivered).mem
  have hstored := (wellFormed hrun hp).sound.stored
  have hlogs := h.logs p hp
  have hmatching := matching_of_run hrun
  cases hserved with
  | vote hfree hanswer =>
      intro op hop
      rcases hanswer.cases with ⟨hlt, rfl⟩ | ⟨-, rfl⟩
      · exact (hlogs op hop).trans hlt.le
      · exact hlogs op hop
  | @log req _ res hfree hvalid hanswer =>
      have hanswer := getLogResponse_cases hstored hanswer
      rcases hanswer.log_cases hstored (hmatching.logs p hp) (hmatching.terms _)
        (hmatching.delivered hrun hst hdelivered) with hsame | ⟨-, hterm, hpre⟩
      · intro op hop
        rw [hsame] at hop
        apply (hlogs op hop).trans
        rw [hanswer.term_eq, adoptLeader_term_le]
        exact hok.fresh.le hdelivered
      · intro op hop
        rw [hterm]
        exact h.terms _ op (hpre.subset hop)

theorem bounded_of_run (hrun : (system cfg).Run KeepsLogs c tr) : Bounded cfg c tr := by
  refine TransitionSystem.Run.invariant (I := Bounded cfg) ?_ ?_ hrun
  · rintro _ ⟨connects, rfl⟩
    constructor
    · intro s _ op hop
      obtain ⟨index, heq, -⟩ := bootMetadata_eq cfg connects s
      have hmetadata : ((boot cfg connects).server s).metadata = _ := heq
      rw [hmetadata] at hop
      cases hop
    · intro t op hop
      cases hop
  · intro c tr l c' es hrun ih hok hst
    rcases step_cases hst with ⟨s, f, hs, hstep, hserver, -⟩ |
      ⟨p, rpc, reply, hdelivered, ⟨hserved, hothers, -⟩, rfl⟩
    · obtain ⟨hlog, hterms⟩ := ih.thread hrun hs hstep hok
      refine ⟨fun q hq => ?_, hterms⟩
      rw [hserver]
      by_cases hqs : q = s
      · rw [hqs, Function.update_self]
        exact hlog
      · rw [Function.update_of_ne hqs]
        exact ih.logs q hq
    · refine ⟨fun q hq => ?_, ?_⟩
      · by_cases hqp : q = p
        · subst hqp
          exact ih.served hrun hok hst hdelivered hserved
        · rw [hothers q hqp]
          exact ih.logs q hq
      · rw [termLog_of_silent fun e he => silent_of_served he]
        exact ih.terms

/-- A candidacy goes on with the log and the term it started with, or starts in a new term. -/
lemma ThreadStep.running_cases {f f' : LaptopFactory} (hstep : ThreadStep s f l f' es)
    {rest : List ServerNode} (hlock : f'.metaLock = .requestVote rest) :
    f'.metadata.smrLog = f.metadata.smrLog ∧
      ((∃ rest', f.metaLock = .requestVote rest') ∧
          f'.metadata.currentTerm = f.metadata.currentTerm ∨
        f.metadata.currentTerm < f'.metadata.currentTerm) := by
  cases hstep with
  | stand =>
      refine ⟨rfl, Or.inr ?_⟩
      show f.metadata.currentTerm < f.metadata.currentTerm + 1
      omega
  | readStatus | askVote | queue | sendLog => exact ⟨rfl, Or.inl ⟨⟨rest, hlock⟩, rfl⟩⟩
  | countVote hlock' | ignoreVote hlock' => exact ⟨rfl, Or.inl ⟨⟨_, hlock'⟩, rfl⟩⟩
  | rest hthread hfree | timeOut hthread hfree => simp [hfree] at hlock
  | maintain | replicate => simp [LaptopFactory.enterReplicateLog] at hlock
  | _ => simp at hlock

theorem standing_of_run (hrun : (system cfg).Run KeepsLogs c tr) (hs : s ∈ cfg.ids) :
    Standing s (c.server s) tr := by
  refine run_forall_server (P := fun s f tr => s ∈ cfg.ids → Standing s f tr)
    ?_ ?_ ?_ ?_ ?_ hrun s hs
  · intro connects s _
    exact ⟨by simp [boot], by simp⟩
  · intro s f tr es hother h hs
    refine ⟨(h hs).running, fun t log helected => ?_⟩
    rcases List.mem_append.1 helected with hold | hnew
    · exact (h hs).elected t log hold
    · exact absurd rfl (hother _ hnew)
  · intro c tr l s f es hrun _ _ hstep h hs
    have hwf := wellFormed hrun hs
    constructor
    · intro rest hlock op hop
      obtain ⟨hlog, hcases⟩ := hstep.running_cases hlock
      rw [hlog] at hop
      rcases hcases with ⟨⟨rest', hlock'⟩, hterm⟩ | hlt
      · rw [hterm]
        exact (h hs).running rest' hlock' op hop
      · exact ((bounded_of_run hrun).logs s hs op hop).trans_lt hlt
    · intro t log helected
      rcases List.mem_append.1 helected with hold | hnew
      · exact (h hs).elected t log hold
      · obtain ⟨rest, hlock, rfl, rfl, -⟩ := hstep.initLeader_cases hwf hnew
        exact (h hs).running rest hlock
  · intro c tr l p rpc md reply hrun _ _ hserved h hp
    constructor
    · intro rest hlock
      have hfree := hserved.free
      simp [hfree] at hlock
    · intro t log helected
      rcases List.mem_append.1 helected with hold | hnew
      · exact (h hp).elected t log hold
      · rcases serveEvents_cases hnew with ⟨_, _, -, -, -, he⟩ | ⟨_, _, -, -, -, -, he⟩ <;> cases he
  · intro c tr s node rpc md reply _ _ _ _ h hs
    exact ⟨(h hs).running, (h hs).elected⟩

end Terms

/-! ## Elections -/

section Elections

variable {cfg : Config} {c c' : Cluster} {tr es : List Event} {l : Label} {s : ℤ}

/-- **The log of a term begins with what its leader was elected with.** -/
theorem elected_isPrefix (hrun : (system cfg).Run KeepsLogs c tr) :
    ∀ s t log, .initLeader s t log ∈ tr → log <+: termLog tr t := by
  refine TransitionSystem.Run.invariant
    (I := fun _ tr => ∀ s t log, .initLeader s t log ∈ tr → log <+: termLog tr t) ?_ ?_ hrun
  · intro _ _ s t log helected
    cases helected
  · intro c tr l c' es hrun ih hok hst s t log helected
    rcases List.mem_append.1 helected with hold | hnew
    · exact (ih s t log hold).trans (termLog_grows hrun hok hst t)
    · rcases step_cases hst with ⟨q, f, hq, hstep, -⟩ | ⟨p, rpc, reply, -, -, rfl⟩
      · obtain ⟨rest, -, -, -, rfl⟩ := hstep.initLeader_cases (wellFormed hrun hq) hnew
        rw [termLog_initLeader, Function.update_self]
      · rcases serveEvents_cases hnew with ⟨_, _, -, -, -, he⟩ | ⟨_, _, -, -, -, -, he⟩ <;>
          cases he

/-- A term without a leader has no log. -/
lemma exists_elected (hrun : (system cfg).Run KeepsLogs c tr) {t : ℤ} (hne : termLog tr t ≠ []) :
    ∃ s log, .initLeader s t log ∈ tr := by
  by_contra hnone
  push Not at hnone
  exact hne ((matching_of_run hrun).unled t hnone)

end Elections

/-! ## Votes -/

structure Remembers (q : ℤ) (f : LaptopFactory) (tr : List Event) : Prop where
  votes : ∀ t a log, .vote q t a log ∈ tr → log <+: f.metadata.smrLog
  /-- A vote in a later term is given with the accepted entries in the log. -/
  order : ∀ t k u a log, .accept q t k ∈ tr → .vote q u a log ∈ tr → t < u →
    k.toNat ≤ log.length

section Votes

variable {cfg : Config} {c c' : Cluster} {tr es : List Event} {l : Label} {s : ℤ}
  {f f' : LaptopFactory}

/-- A step that gives no vote, and accepts entries only in a term from which no vote is in the
past. -/
lemma Remembers.of_novote (h : Remembers s f tr) (hlog : f.metadata.smrLog <+: f'.metadata.smrLog)
    (hnone : ∀ t a log, .vote s t a log ∉ es)
    (hlate : ∀ t k u a log, .accept s t k ∈ es → .vote s u a log ∈ tr → u ≤ t) :
    Remembers s f' (tr ++ es) := by
  constructor
  · intro t a log hvote
    exact (h.votes t a log (mem_append_of_novote hnone hvote)).trans hlog
  · intro t k u a log haccept hvote hlt
    have hold := mem_append_of_novote hnone hvote
    rcases List.mem_append.1 haccept with hbefore | hnew
    · exact h.order t k u a log hbefore hold hlt
    · exact absurd (hlate t k u a log hnew hold) (not_le.2 hlt)

/-- A vote, with everything accepted so far in the log. -/
lemma Remembers.of_vote (h : Remembers s f tr) {u a : ℤ}
    (hsame : f'.metadata.smrLog = f.metadata.smrLog)
    (hheld : ∀ t k, .accept s t k ∈ tr → k.toNat ≤ f.metadata.smrLog.length) :
    Remembers s f' (tr ++ [.vote s u a f.metadata.smrLog]) := by
  have hcases : ∀ {t b log}, .vote s t b log ∈ tr ++ [.vote s u a f.metadata.smrLog] →
      .vote s t b log ∈ tr ∨ log = f.metadata.smrLog := by
    intro t b log hvote
    rcases List.mem_append.1 hvote with hold | hnew
    · exact Or.inl hold
    · simp only [List.mem_singleton, Event.vote.injEq] at hnew
      exact Or.inr hnew.2.2.2
  constructor
  · intro t b log hvote
    rw [hsame]
    rcases hcases hvote with hold | rfl
    · exact h.votes t b log hold
    · exact List.prefix_rfl
  · intro t k u' b log haccept hvote hlt
    have hbefore : .accept s t k ∈ tr := by simpa using haccept
    rcases hcases hvote with hold | rfl
    · exact h.order t k u' b log hbefore hold hlt
    · exact hheld t k hbefore

/-- What has been accepted is in the log. -/
lemma Held.le_length (h : Held c tr) {q t k : ℤ} (haccept : .accept q t k ∈ tr) :
    k.toNat ≤ (c.server q).metadata.smrLog.length := by
  obtain ⟨hlen, hpre⟩ := h q t k haccept
  have hle := hpre.length_le
  rwa [List.length_take_of_le hlen] at hle

/-- An entry is accepted in the server's term. -/
lemma ServerMetadata.LogAnswer.current {md md' : ServerMetadata} {req : LogRequest}
    {res : LogResponse} (hanswer : LogAnswer md req md' res) (hsuccess : res.success ≠ 0) :
    res.currentTerm = md'.currentTerm := by
  rw [hanswer.term_eq]
  cases hanswer with
  | refused hno => exact absurd rfl hsuccess
  | held hterm hcan hlonger => exact hterm.symm
  | extended hterm hcan hends hexec => exact hterm.symm

lemma KeepsAcks.voted (hrun : (system cfg).Run KeepsAcks c tr) (hs : s ∈ cfg.ids) :
    Voted s (c.server s).metadata tr :=
  voted_of_run (hrun.mono fun _ _ hok => hok.toKeepsVotes) hs

lemma Remembers.served (h : Remembers s (c.server s) tr)
    (hrun : (system cfg).Run KeepsAcks c tr) (hok : KeepsAcks c l) (hs : s ∈ cfg.ids) {rpc : Rpc}
    {md : ServerMetadata} {reply : Reply} (hdelivered : c.delivered l = some (s, rpc))
    (hserved : Served (c.server s) rpc md reply) :
    Remembers s { c.server s with metadata := md } (tr ++ c.served s rpc reply) := by
  have hstored := (wellFormed hrun hs).sound.stored
  have hgrows := hserved.grows hstored
  cases hserved with
  | @vote msg _ res hfree hanswer =>
      by_cases hvoted : res.voted = 0
      · have hempty : c.served s (.vote msg) (.vote res) = [] := by
          simp [Cluster.served, serveEvents, hvoted]
        rw [hempty]
        exact h.of_novote hgrows.smrLog (by simp) (by simp)
      · have hevent : c.served s (.vote msg) (.vote res) =
            [.vote s res.currentTerm msg.id (c.server s).metadata.smrLog] := by
          simp [Cluster.served, serveEvents, hvoted]
        rw [hevent]
        refine h.of_vote ?_ fun t k haccept => (held_of_run hrun).le_length haccept
        rw [hanswer.frame]
  | @log req _ res hfree hvalid hanswer =>
      have hanswer := getLogResponse_cases hstored hanswer
      refine h.of_novote hgrows.smrLog (fun t a log hvote => ?_)
        fun t k u a log haccept hvote => ?_
      · rcases serveEvents_cases hvote with ⟨_, _, hrpc, -⟩ | ⟨_, _, -, -, -, -, he⟩
        · cases hrpc
        · cases he
      · rcases serveEvents_cases haccept with ⟨_, _, hrpc, -⟩ | ⟨_, _, -, hreply, hsuccess, -, he⟩
        · cases hrpc
        · cases hreply
          cases he
          rw [hanswer.current hsuccess, hanswer.term_eq]
          apply ((KeepsAcks.voted hrun hs).past u a log hvote).trans
          rw [adoptLeader_term_le]
          exact hok.fresh.le hdelivered

theorem remembers_of_run (hrun : (system cfg).Run KeepsAcks c tr) (hs : s ∈ cfg.ids) :
    Remembers s (c.server s) tr := by
  refine run_forall_server (P := fun s f tr => s ∈ cfg.ids → Remembers s f tr)
    ?_ ?_ ?_ ?_ ?_ hrun s hs
  · intro connects s _
    exact ⟨by simp, by simp⟩
  · intro s f tr es hother h hs
    apply (h hs).of_novote List.prefix_rfl
    · intro t a log hvote
      exact hother _ hvote rfl
    · intro t k u a log haccept
      exact absurd rfl (hother _ haccept)
  · intro c tr l s f es hrun _ _ hstep h hs
    have hwf := wellFormed hrun hs
    rcases hstep.moved hwf with ⟨-, hnone⟩ | ⟨-, hsame, rfl⟩
    · refine (h hs).of_novote (hstep.grows hwf).smrLog hnone fun t k u a log haccept hvote => ?_
      obtain ⟨-, rfl, -⟩ := hstep.accept_cases haccept
      exact ((KeepsAcks.voted hrun hs).past u a log hvote).trans (hstep.term_le hwf)
    · rw [hsame]
      exact (h hs).of_vote hsame fun t k haccept => (held_of_run hrun).le_length haccept
  · intro c tr l p rpc md reply hrun hok hdelivered hserved h hp
    exact (h hp).served hrun hok hp hdelivered hserved
  · intro c tr s node rpc md reply _ _ _ _ h hs
    exact ⟨(h hs).votes, (h hs).order⟩

/-- **A vote after an acceptance** is given with the accepted entries in the log. -/
theorem accepted_isPrefix_of_vote (hrun : (system cfg).Run KeepsAcks c tr) {q t k u a : ℤ}
    {log : List MapOp} (haccept : .accept q t k ∈ tr) (hvote : .vote q u a log ∈ tr)
    (hlt : t < u) : (termLog tr t).take k.toNat <+: log := by
  have hq : q ∈ cfg.ids := server_mem_of_run hrun _ hvote
  obtain ⟨hvotes, horder⟩ := remembers_of_run hrun hq
  obtain ⟨hlen, hpre⟩ := held_of_run hrun q t k haccept
  refine List.prefix_of_prefix_length_le hpre (hvotes u a log hvote) ?_
  rw [List.length_take_of_le hlen]
  exact horder t k u a log haccept hvote hlt

end Votes

end LaptopRaft
