import LaptopRaft.Election.Safety

/-!
# Counted votes

`vote_received` is read as the votes of the present term, but carries no term.  What keeps the
two together is that every operation that raises the term also clears the set, with one
exception: `RequestVote` itself.  A candidacy that ends without a decision leaves its votes in
the set, and the next one starts with them (`StartsClean` excludes this, as in
`Election/Safety.lean`).  The other way into the set without a vote is a response that no receive
filled (`NoGarbageVoter`).

`Counted` ties the set to the votes that were given; `counted_votes_current` is the result and
`vote_counted_twice` the run with two candidacies.
-/

namespace LaptopRaft

open ServerMetadata

/-- Every other server that a candidate has counted has granted it a vote in its present term. -/
def CountedCurrent (cfg : Config) (c : Cluster) (tr : List Event) : Prop :=
  ∀ s ∈ cfg.ids, (c.server s).metadata.status = .candidate →
    ∀ v ∈ (c.server s).metadata.voteReceived, v ≠ s →
      ∃ log, .vote v (c.server s).metadata.currentTerm s log ∈ tr

/-! ## The condition -/

/-- What an unfilled buffer decodes to adds nobody to the counted votes. -/
def NoGarbageVoter (c : Cluster) : Label → Prop
  | .voteLinkFails s res =>
      (c.server s).metadata.currentTerm = res.currentTerm → res.voted ≠ 0 →
        res.id ∈ (c.server s).metadata.voteReceived
  | _ => True

instance (c : Cluster) (l : Label) : Decidable (NoGarbageVoter c l) := by
  induction l using Label.casesOn <;> dsimp only [NoGarbageVoter] <;> infer_instance

/-- The steps under which counted votes are current. -/
structure KeepsCounts (c : Cluster) (l : Label) : Prop where
  clean : StartsClean c l
  genuine : NoGarbageVoter c l

instance (c : Cluster) (l : Label) : Decidable (KeepsCounts c l) :=
  decidable_of_iff (StartsClean c l ∧ NoGarbageVoter c l)
    ⟨fun h => ⟨h.1, h.2⟩, fun h => ⟨h.clean, h.genuine⟩⟩

/-! ## The invariant -/

/-- `v` has granted `s` a vote in term `t`. -/
def Granted (tr : List Event) (s t v : ℤ) : Prop := ∃ log, .vote v t s log ∈ tr

lemma Granted.mono {tr es : List Event} {s t v : ℤ} (h : Granted tr s t v) :
    Granted (tr ++ es) s t v := by
  obtain ⟨log, hvote⟩ := h
  exact ⟨log, List.mem_append_left es hvote⟩

structure Counted (s : ℤ) (f : LaptopFactory) (tr : List Event) : Prop where
  votes : ∀ v ∈ f.metadata.voteReceived, v ≠ s → Granted tr s f.metadata.currentTerm v
  answered : ∀ res, f.wire = .response (.vote res) → res.voted ≠ 0 →
    Granted tr s res.currentTerm res.id

/-- The counted votes are dropped, or the term stays. -/
def KeepsTerm (md md' : ServerMetadata) : Prop :=
  md'.voteReceived = ∅ ∨
    (md'.voteReceived = md.voteReceived ∧ md'.currentTerm = md.currentTerm)

section Counted

variable {cfg : Config} {s : ℤ} {f f' : LaptopFactory} {tr es : List Event} {l : Label}

lemma Counted.frame (h : Counted s f tr) (hterm : KeepsTerm f.metadata f'.metadata)
    (hwire : ∀ res, f'.wire = .response (.vote res) → f.wire = .response (.vote res)) :
    Counted s f' (tr ++ es) := by
  constructor
  · intro v hv hne
    rcases hterm with hnone | ⟨hvotes, hsame⟩
    · rw [hnone] at hv
      exact absurd hv (Finset.notMem_empty v)
    · rw [hvotes] at hv
      rw [hsame]
      exact (h.votes v hv hne).mono
  · intro res hres hvoted
    exact (h.answered res (hwire res hres) hvoted).mono

/-- A response that is counted. -/
lemma Counted.count {c : Cluster} (h : Counted s (c.server s) tr) {res : RequestVoteResponse}
    (hgarbage : NoGarbageVoter c l) (harrives : VoteArrives s (c.server s) l res)
    (hterm : (c.server s).metadata.currentTerm = res.currentTerm) (hvoted : res.voted ≠ 0) :
    ∀ v ∈ insert res.id (c.server s).metadata.voteReceived, v ≠ s →
      Granted tr s (c.server s).metadata.currentTerm v := by
  intro v hv hne
  rcases Finset.mem_insert.1 hv with rfl | hprior
  · rcases harrives with ⟨-, hwire⟩ | rfl
    · rw [hterm]
      exact h.answered res hwire hvoted
    · exact h.votes _ (hgarbage hterm hvoted) hne
  · exact h.votes v hprior hne

/-! ## Steps -/

lemma ThreadStep.counted {ok : Cluster → Label → Prop} {c : Cluster}
    (hrun : (system cfg).Run ok c tr) (hok : KeepsCounts c l) (hs : s ∈ cfg.ids)
    (hstep : ThreadStep s (c.server s) l f' es) (h : Counted s (c.server s) tr) :
    Counted s f' (tr ++ es) := by
  have hwf := wellFormed hrun hs
  have hkept : ∀ {md : ServerMetadata}, md.voteReceived = (c.server s).metadata.voteReceived →
      md.currentTerm = (c.server s).metadata.currentTerm →
      KeepsTerm (c.server s).metadata md := fun hvotes hterm => Or.inr ⟨hvotes, hterm⟩
  cases hstep with
  | readStatus | rest | timeOut | endVote | queue | maintain | replicate | nextRound =>
      exact h.frame (hkept rfl rfl) fun _ hres => hres
  | askVote | sendLog | ignoreVote | heartbeatAnswered =>
      exact h.frame (hkept rfl rfl) (by simp)
  | stand hthread hfree =>
      have hquiet := (idle_of_run hrun s).quiet hfree
      constructor
      · intro v hv hne
        have hid := hwf.placed.factoryId
        rcases Finset.mem_insert.1 hv with rfl | hprior
        · exact absurd hid hne
        · exact absurd (Finset.mem_singleton.1 (hok.clean hprior)) hne
      · simp [hquiet]
  | countVote hlock harrives hterm hvoted =>
      have hcount := h.count hok.genuine harrives hterm hvoted
      constructor
      · intro v hv hne
        exact (hcount v hv hne).mono
      · simp
  | elected hlock harrives hterm hvoted =>
      have hcount := h.count hok.genuine harrives hterm hvoted
      constructor
      · intro v hv hne
        exact (hcount v hv hne).mono
      · simp
  | outvoted => exact h.frame (Or.inl rfl) (by simp)
  | fail hlock hlabel hfail =>
      obtain ⟨ack, sent, -, -, -, -, rfl⟩ := failNode_cases hfail
      exact h.frame (hkept rfl rfl) (by simp)
  | entryAnswered hlock hwire hsent hreact =>
      obtain ⟨-, sent, ack, k, rfl, -, -⟩ := hreact.frame hwf hlock hwire hsent
      exact h.frame (hkept rfl rfl) (by simp)
  | deposed =>
      apply h.frame
      · rw [LaptopFactory.returnTo_metadata]
        exact Or.inl rfl
      · simp
  | «return» =>
      apply h.frame
      · rw [LaptopFactory.returnTo_metadata]
        exact hkept rfl rfl
      · simp

/-- A handler that raises or lowers the term drops the counted votes. -/
lemma Served.keepsTerm {rpc : Rpc} {md : ServerMetadata} {reply : Reply}
    (hserved : Served f rpc md reply) (hstored : Stored f.metadata) :
    KeepsTerm f.metadata md := by
  cases hserved with
  | vote hfree hanswer =>
      rcases hanswer.cases with ⟨-, rfl⟩ | ⟨-, rfl⟩
      · exact Or.inl rfl
      · exact Or.inr ⟨rfl, rfl⟩
  | @log req _ res hfree hvalid hanswer =>
      rw [(getLogResponse_cases hstored hanswer).frame]
      rcases adoptLeader_cases f.metadata req with ⟨-, heq⟩ | ⟨-, -, heq⟩
      · rw [heq]
        exact Or.inl rfl
      · rw [heq]
        exact Or.inr ⟨rfl, rfl⟩

end Counted

section Runs

variable {cfg : Config} {c : Cluster} {tr : List Event}

theorem counted_of_run (hrun : (system cfg).Run KeepsCounts c tr) {s : ℤ} (hs : s ∈ cfg.ids) :
    Counted s (c.server s) tr := by
  refine run_invariant (P := fun s f tr => s ∈ cfg.ids → Counted s f tr)
    (Q := fun p _ => p ∈ cfg.ids) ?_ ?_ ?_ ?_ ?_ ?_ ?_ hrun |>.1 s hs
  · intro connects s _
    obtain ⟨index, heq, -⟩ := bootMetadata_eq cfg connects s
    have hmetadata : ((boot cfg connects).server s).metadata = _ := heq
    constructor
    · rw [hmetadata]
      simp
    · simp [boot]
  · intro s f tr es _ h hs
    exact (h hs).frame (Or.inr ⟨rfl, rfl⟩) fun _ hres => hres
  · exact fun c tr l s f es hrun hok _ hstep h hs => hstep.counted hrun hok hs (h hs)
  · exact fun c tr s node rpc hrun hs hwire _ => (soundRpc_of_wire hrun hs hwire).mem
  · exact fun p hp _ => hp
  · intro c tr l p rpc md reply hrun _ _ _ hserved h hp
    exact (h hp).frame (hserved.keepsTerm (wellFormed hrun hp).sound.stored) fun _ hres => hres
  · intro c tr s node rpc md reply hrun hs hwire hserved h _
    have hp := (soundRpc_of_wire hrun hs hwire).mem
    refine ⟨(h hs).votes, fun res hres hvoted => ?_⟩
    obtain rfl : reply = .vote res := Wire.response.inj hres
    cases hserved with
    | vote hfree hanswer =>
        have hwf := wellFormed hrun hs
        obtain ⟨hid, log, hvote, -⟩ := hanswer.votedFor hvoted hwf
          (hwf.flow.voteRequest node _ hwire).2 (wellFormed hrun hp) tr
        rw [hid]
        exact ⟨log, hvote⟩

/-- **Counted votes are current**, in every run in which candidacies start without the votes of
earlier ones and no unfilled response is counted. -/
theorem counted_votes_current (hrun : (system cfg).Run KeepsCounts c tr) :
    CountedCurrent cfg c tr := by
  intro s hs _ v hv hne
  exact (counted_of_run hrun hs).votes v hv hne

end Runs

def six : Config := Config.mesh [0, 1, 2, 3, 4, 5] (by decide)

/-- At start-up server 0 reaches server 1 only. -/
def onlyOne : ℤ → ServerNode → Bool := fun s node => s ≠ 0 || node.id = 1

theorem counted_votes_current_firstCandidacy : ∃ c tr, (system six).Run KeepsCounts c tr ∧
    (c.server 0).metadata.status = .candidate ∧
    (c.server 0).metadata.voteReceived = {0, 1} ∧ CountedCurrent six c tr := by
  obtain ⟨c, tr, hrun, hcandidate, hvotes⟩ := run_of_playFrom six KeepsCounts
    (P := fun c _ => (c.server 0).metadata.status = .candidate ∧
      (c.server 0).metadata.voteReceived = {0, 1})
    onlyOne (stand 0 ++ callVote 0) (by decide +kernel)
  exact ⟨c, tr, hrun, hcandidate, hvotes, counted_votes_current hrun⟩

/-- The candidacy of server 0 in term 1 ends with the vote of server 1, which is not enough among
six.  In term 2 the vote is still counted, before anybody has been asked. -/
theorem vote_counted_twice : ∃ c tr, (system six).Run TransitionSystem.anyStep c tr ∧
    (c.server 0).metadata.status = .candidate ∧ (c.server 0).metadata.currentTerm = 2 ∧
    (c.server 0).metadata.voteReceived = {0, 1} ∧
    tr = [.vote 0 1 0 [], .vote 1 1 0 [], .vote 0 2 0 []] ∧ ¬ CountedCurrent six c tr := by
  obtain ⟨c, tr, hrun, hcandidate, hterm, hvotes, htr⟩ :=
    run_of_playFrom six TransitionSystem.anyStep
    (P := fun c tr => (c.server 0).metadata.status = .candidate ∧
      (c.server 0).metadata.currentTerm = 2 ∧ (c.server 0).metadata.voteReceived = {0, 1} ∧
      tr = [.vote 0 1 0 [], .vote 1 1 0 [], .vote 0 2 0 []])
    onlyOne (stand 0 ++ callVote 0 ++ [.endRequestVote 0, .readStatus 0, .requestVote 0])
    (by decide +kernel)
  refine ⟨c, tr, hrun, hcandidate, hterm, hvotes, htr, fun hcurrent => ?_⟩
  obtain ⟨log, hvote⟩ := hcurrent 0 (by decide) hcandidate 1 (by simp [hvotes]) (by decide)
  rw [hterm, htr] at hvote
  simp at hvote

end LaptopRaft
