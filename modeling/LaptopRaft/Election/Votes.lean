import LaptopRaft.Election.Terms

/-!
# One vote per term

A vote of server `s` in term `t` is observed as `.vote s t candidate log`, at `RequestVote` (for
itself) and at a `GetVoteResponse` that grants.  `Voted` ties the votes of the past to the
present term and `voted_for`:

* no vote is from a later term than the present one;
* a vote in the present term is for `voted_for`, unless that has been reset to `-1`.

A step that raises the term, or keeps it and either keeps or resets `voted_for`, and gives no
vote, preserves this (`Voted.of_moved`); a vote that is given is the only one of its term
(`Voted.vote`).

The invariant rests on terms not going back, and on `-1` not being a candidate's id: for a
candidate `-1` the test `voted_for == cand_id` succeeds on a server whose vote was reset.
`one_vote_per_term` is the result, `second_vote_after_lowered_term` the run that breaks it.
-/

namespace LaptopRaft

open ServerMetadata

/-- All votes a server gives in a term are for one candidate. -/
def OneVotePerTerm (tr : List Event) : Prop :=
  ∀ s t a b log log', .vote s t a log ∈ tr → .vote s t b log' ∈ tr → a = b

/-- No server whose vote was reset is asked for it, in its own term, by a candidate `-1`. -/
def NoSentinelCandidate (c : Cluster) (l : Label) : Prop :=
  match c.delivered l with
  | some (p, .vote msg) => msg.currentTerm = (c.server p).metadata.currentTerm →
      (c.server p).metadata.votedFor = -1 → msg.id ≠ -1
  | _ => True

instance (c : Cluster) (l : Label) : Decidable (NoSentinelCandidate c l) := by
  unfold NoSentinelCandidate
  exact match c.delivered l with
    | some (_, .vote _) => inferInstance
    | some (_, .log _) | none => instDecidableTrue

/-- The steps under which votes are unique. -/
structure KeepsVotes (c : Cluster) (l : Label) : Prop where
  fresh : NoStaleLogRequest c l
  named : NoSentinelCandidate c l

instance (c : Cluster) (l : Label) : Decidable (KeepsVotes c l) :=
  decidable_of_iff (NoStaleLogRequest c l ∧ NoSentinelCandidate c l)
    ⟨fun h => ⟨h.1, h.2⟩, fun h => ⟨h.fresh, h.named⟩⟩

lemma NoSentinelCandidate.ne {c : Cluster} {l : Label} (h : NoSentinelCandidate c l) {p : ℤ}
    {msg : RequestVoteMessage} (hdelivered : c.delivered l = some (p, .vote msg))
    (hterm : msg.currentTerm = (c.server p).metadata.currentTerm)
    (hreset : (c.server p).metadata.votedFor = -1) : msg.id ≠ -1 := by
  unfold NoSentinelCandidate at h
  rw [hdelivered] at h
  exact h hterm hreset

/-! ## The invariant -/

structure Voted (s : ℤ) (md : ServerMetadata) (tr : List Event) : Prop where
  past : ∀ t a log, .vote s t a log ∈ tr → t ≤ md.currentTerm
  present : ∀ a log, .vote s md.currentTerm a log ∈ tr → md.votedFor = a ∨ md.votedFor = -1
  unique : ∀ t a b log log', .vote s t a log ∈ tr → .vote s t b log' ∈ tr → a = b

/-- A new term, or the same with the vote kept or reset. -/
def Moved (md md' : ServerMetadata) : Prop :=
  md.currentTerm < md'.currentTerm ∨
    (md'.currentTerm = md.currentTerm ∧ (md'.votedFor = md.votedFor ∨ md'.votedFor = -1))

lemma Moved.of_eq {md md' : ServerMetadata} (hterm : md'.currentTerm = md.currentTerm)
    (hvote : md'.votedFor = md.votedFor) : Moved md md' :=
  Or.inr ⟨hterm, Or.inl hvote⟩

section Voted

variable {s : ℤ} {md md' : ServerMetadata} {tr es : List Event}

lemma mem_append_of_novote (hnone : ∀ t a log, .vote s t a log ∉ es) {t a : ℤ}
    {log : List MapOp} (h : .vote s t a log ∈ tr ++ es) : .vote s t a log ∈ tr :=
  (List.mem_append.1 h).resolve_right (hnone t a log)

lemma Voted.of_moved (h : Voted s md tr) (hmoved : Moved md md')
    (hnone : ∀ t a log, .vote s t a log ∉ es) : Voted s md' (tr ++ es) := by
  refine ⟨fun t a log hvote => ?_, fun a log hvote => ?_, fun t a b log log' ha hb => ?_⟩
  · have hle := h.past t a log (mem_append_of_novote hnone hvote)
    rcases hmoved with hlt | ⟨heq, -⟩ <;> omega
  · have hold := mem_append_of_novote hnone hvote
    rcases hmoved with hlt | ⟨heq, hkept | hreset⟩
    · have hle := h.past _ a log hold
      omega
    · rw [heq] at hold
      rw [hkept]
      exact h.present a log hold
    · exact Or.inr hreset
  · exact h.unique t a b log log' (mem_append_of_novote hnone ha) (mem_append_of_novote hnone hb)

/-- A vote for the candidate that `voted_for` names afterwards, in a new term or after a vote
for the same candidate. -/
lemma Voted.vote (h : Voted s md tr) {log : List MapOp}
    (hnew : md.currentTerm < md'.currentTerm ∨
      (md'.currentTerm = md.currentTerm ∧ md'.votedFor = md.votedFor ∧ md.votedFor ≠ -1)) :
    Voted s md' (tr ++ [.vote s md'.currentTerm md'.votedFor log]) := by
  -- earlier votes of the term are for the same candidate
  have hsame : ∀ a log', .vote s md'.currentTerm a log' ∈ tr → a = md'.votedFor := by
    intro a log' hold
    rcases hnew with hlt | ⟨hterm, hkept, hset⟩
    · have hle := h.past _ a log' hold
      omega
    · rw [hterm] at hold
      rcases h.present a log' hold with heq | hreset
      · rw [hkept, heq]
      · exact absurd hreset hset
  have hcases : ∀ {t a log'}, .vote s t a log' ∈ tr ++ [.vote s md'.currentTerm md'.votedFor log] →
      .vote s t a log' ∈ tr ∨ (t = md'.currentTerm ∧ a = md'.votedFor) := by
    intro t a log' hmem
    rcases List.mem_append.1 hmem with hold | hlast
    · exact Or.inl hold
    · simp only [List.mem_singleton, Event.vote.injEq] at hlast
      exact Or.inr ⟨hlast.2.1, hlast.2.2.1⟩
  refine ⟨fun t a log' hvote => ?_, fun a log' hvote => ?_, fun t a b log' log'' ha hb => ?_⟩
  · rcases hcases hvote with hold | ⟨rfl, -⟩
    · have hle := h.past t a log' hold
      rcases hnew with hlt | ⟨hterm, -⟩ <;> omega
    · exact le_refl _
  · rcases hcases hvote with hold | ⟨-, rfl⟩
    · exact Or.inl (hsame a log' hold).symm
    · exact Or.inl rfl
  · rcases hcases ha with haold | ⟨hta, rfl⟩
    · rcases hcases hb with hbold | ⟨htb, rfl⟩
      · exact h.unique t a b log' log'' haold hbold
      · exact hsame a log' (htb ▸ haold)
    · rcases hcases hb with hbold | ⟨-, rfl⟩
      · exact (hsame b log'' (hta ▸ hbold)).symm
      · rfl

end Voted

/-! ## Steps -/

section Steps

variable {cfg : Config} {s : ℤ} {f f' : LaptopFactory} {l : Label} {tr es : List Event}

/-- Of a thread, only `RequestVote` gives a vote: to the server itself, in a new term. -/
lemma ThreadStep.moved (hstep : ThreadStep s f l f' es) (h : WellFormed cfg s f) :
    (Moved f.metadata f'.metadata ∧ ∀ t a log, .vote s t a log ∉ es) ∨
    (f.metadata.currentTerm < f'.metadata.currentTerm ∧ f'.metadata.smrLog = f.metadata.smrLog ∧
      es = [.vote s f'.metadata.currentTerm f'.metadata.votedFor f'.metadata.smrLog]) := by
  cases hstep with
  | readStatus | rest | timeOut | askVote | countVote | ignoreVote | elected | endVote
  | maintain | replicate | sendLog | heartbeatAnswered | nextRound =>
      exact Or.inl ⟨Moved.of_eq rfl rfl, by simp⟩
  | stand =>
      refine Or.inr ⟨?_, rfl, ?_⟩
      · show f.metadata.currentTerm < f.metadata.currentTerm + 1
        omega
      · show [Event.vote s _ s _] = [Event.vote s _ f.metadata.factoryId _]
        rw [h.placed.factoryId]
  | outvoted hlock harrives hlt => exact Or.inl ⟨Or.inl hlt, by simp⟩
  | queue hqueue =>
      refine Or.inl ⟨Moved.of_eq rfl rfl, fun t a log hmem => ?_⟩
      obtain ⟨laptop, hship⟩ := hqueue.events _ hmem
      cases hship
  | fail hlock hlabel hfail =>
      obtain ⟨ack, sent, -, -, -, -, rfl⟩ := failNode_cases hfail
      exact Or.inl ⟨Moved.of_eq rfl rfl, by simp⟩
  | entryAnswered hlock hwire hsent hreact =>
      obtain ⟨-, sent, ack, k, rfl, -, -⟩ := hreact.frame h hlock hwire hsent
      exact Or.inl ⟨Moved.of_eq rfl rfl, by simp [commitEvents]⟩
  | deposed hlock hwire hsent hlt =>
      rw [LaptopFactory.returnTo_metadata]
      exact Or.inl ⟨Or.inl hlt, by simp⟩
  | «return» =>
      rw [LaptopFactory.returnTo_metadata]
      exact Or.inl ⟨Moved.of_eq rfl rfl, by simp⟩

lemma ServerMetadata.LogAnswer.votedFor_eq {md md' : ServerMetadata} {req : LogRequest}
    {res : LogResponse} (hanswer : LogAnswer md req md' res) :
    md'.votedFor = (md.adoptLeader req).votedFor := by
  rw [hanswer.frame]

/-- A log request that is not stale for a follower resets the vote at most. -/
lemma ServerMetadata.LogAnswer.moved {md md' : ServerMetadata} {req : LogRequest}
    {res : LogResponse} (hanswer : LogAnswer md req md' res)
    (hfresh : md.status = .follower → md.currentTerm ≤ req.currentTerm) : Moved md md' := by
  have hterm := hanswer.term_eq
  have hvote := hanswer.votedFor_eq
  rcases adoptLeader_cases md req with ⟨hadopt, heq⟩ | ⟨-, -, heq⟩
  · rw [heq] at hterm hvote
    have hle : md.currentTerm ≤ req.currentTerm := hadopt.elim id hfresh
    rcases hle.lt_or_eq with hlt | hsame
    · exact Or.inl (hterm ▸ hlt)
    · exact Or.inr ⟨hterm.trans hsame.symm, Or.inr hvote⟩
  · rw [heq] at hterm hvote
    exact Moved.of_eq hterm hvote

end Steps

section Runs

variable {cfg : Config} {c : Cluster} {tr : List Event}

/-- Every server that handles a request keeps its votes in order. -/
lemma Voted.served {l : Label} {p : ℤ} {rpc : Rpc} {md : ServerMetadata} {reply : Reply}
    (h : Voted p (c.server p).metadata tr) (hok : KeepsVotes c l)
    (hstored : Stored (c.server p).metadata) (hdelivered : c.delivered l = some (p, rpc))
    (hserved : Served (c.server p) rpc md reply) :
    Voted p md (tr ++ c.served p rpc reply) := by
  cases hserved with
  | @vote msg _ res hfree hanswer =>
      have hnone : ∀ {es : List Event}, es = [] → ∀ t a log, .vote p t a log ∉ es := by
        rintro _ rfl t a log
        exact List.not_mem_nil
      by_cases hvoted : res.voted = 0
      · have hempty : c.served p (.vote msg) (.vote res) = [] := by
          simp [Cluster.served, serveEvents, hvoted]
        rcases hanswer.cases with ⟨hlt, rfl⟩ | ⟨-, rfl⟩
        · exact h.of_moved (Or.inl hlt) (hnone hempty)
        · exact h.of_moved (Moved.of_eq rfl rfl) (hnone hempty)
      · obtain ⟨hterm, hfor, -⟩ := hanswer.granted hvoted
        have hevent : c.served p (.vote msg) (.vote res) =
            [.vote p md.currentTerm md.votedFor (c.server p).metadata.smrLog] := by
          simp [Cluster.served, serveEvents, hvoted, hanswer.term, hfor]
        rw [hevent]
        refine h.vote ?_
        rcases hanswer.cases with ⟨hlt, rfl⟩ | ⟨-, rfl⟩
        · exact Or.inl hlt
        · refine Or.inr ⟨rfl, rfl, fun hreset => ?_⟩
          exact hok.named.ne hdelivered hterm hreset (hfor.symm.trans hreset)
  | @log req _ res hfree hvalid hanswer =>
      refine h.of_moved ((getLogResponse_cases hstored hanswer).moved
        fun hfollower => hok.fresh.le hdelivered hfollower) fun t a log hmem => ?_
      rcases serveEvents_cases hmem with ⟨_, _, hrpc, -⟩ | ⟨_, _, -, -, -, -, he⟩
      · cases hrpc
      · cases he

theorem voted_of_run (hrun : (system cfg).Run KeepsVotes c tr) {s : ℤ} (hs : s ∈ cfg.ids) :
    Voted s (c.server s).metadata tr := by
  refine run_forall_server (P := fun s f tr => s ∈ cfg.ids → Voted s f.metadata tr)
    ?_ ?_ ?_ ?_ ?_ hrun s hs
  · exact fun _ s _ => ⟨by simp, by simp, by simp⟩
  · intro s f tr es hother h hs
    refine (h hs).of_moved (Moved.of_eq rfl rfl) fun t a log hmem => ?_
    exact hother _ hmem rfl
  · intro c tr l s f es hrun _ hs hstep h _
    rcases hstep.moved (wellFormed hrun hs) with ⟨hmoved, hnone⟩ | ⟨hlt, -, hes⟩
    · exact (h hs).of_moved hmoved hnone
    · rw [hes]
      exact (h hs).vote (Or.inl hlt)
  · intro c tr l p rpc md reply hrun hok hdelivered hserved h hp
    exact (h hp).served hok (wellFormed hrun hp).sound.stored hdelivered hserved
  · exact fun _ _ _ _ _ _ _ _ _ _ _ h => h

/-- **One vote per term**, in every run in which no stale log request reaches a follower and no
reset vote meets a candidate `-1`. -/
theorem one_vote_per_term (hrun : (system cfg).Run KeepsVotes c tr) : OneVotePerTerm tr := by
  intro s t a b log log' ha hb
  have hs : s ∈ cfg.ids := server_mem_of_run hrun _ ha
  exact (voted_of_run hrun hs).unique t a b log log' ha hb

end Runs

theorem one_vote_per_term_oneUpdate : ∃ c tr, (system three).Run KeepsVotes c tr ∧
    .vote 0 1 0 [] ∈ tr ∧ .vote 1 1 0 [] ∈ tr ∧ OneVotePerTerm tr := by
  obtain ⟨c, tr, hrun, hvotes⟩ := run_of_play three KeepsVotes
    (P := fun _ tr => .vote 0 1 0 [] ∈ tr ∧ .vote 1 1 0 [] ∈ tr) oneUpdate (by decide +kernel)
  exact ⟨c, tr, hrun, hvotes.1, hvotes.2, one_vote_per_term hrun⟩

/-- Server 2 has voted for server 1 in term 2.  The heartbeat of the leader of term 1 takes it
back to term 1 and resets its vote; it then stands in term 2 itself. -/
theorem second_vote_after_lowered_term : ∃ c tr,
    (system threeApart).Run TransitionSystem.anyStep c tr ∧
    .vote 2 2 1 [] ∈ tr ∧ .vote 2 2 2 [] ∈ tr ∧ ¬ OneVotePerTerm tr := by
  obtain ⟨c, tr, hrun, hfirst, hsecond⟩ := run_of_play threeApart TransitionSystem.anyStep
    (P := fun _ tr => .vote 2 2 1 [] ∈ tr ∧ .vote 2 2 2 [] ∈ tr)
    (unawareLeader ++ heartbeat 0 ++ callLog 0 ++ callLog 0 ++ timeOut 2 ++ stand 2)
    (by decide +kernel)
  refine ⟨c, tr, hrun, hfirst, hsecond, fun hone => ?_⟩
  have hsame := hone 2 2 1 2 [] [] hfirst hsecond
  omega

end LaptopRaft
