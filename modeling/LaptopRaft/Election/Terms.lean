import LaptopRaft.Model.Scenario
import LaptopRaft.Properties.WellFormed

/-!
# Terms

Five operations write `current_term`.  Four of them only raise it: `RequestVote` counts it up,
and `GetVoteResponse`, `RequestVote` and `ReplicateLog` copy a term they have just compared.
`GetLogResponse` also copies the term of a request that is older than the server's own, when the
server is a follower: its guard is `req_current_term >= current_term || status == FOLLOWER`.

`term_monotone` says that this branch is the only one that lowers a term;
`term_lowered_stale_leader` is a run that takes it.
-/

namespace LaptopRaft

open ServerMetadata

/-- No follower is handed a log request of a term below its own. -/
def NoStaleLogRequest (c : Cluster) (l : Label) : Prop :=
  match c.delivered l with
  | some (p, .log req) => (c.server p).metadata.status = .follower →
      (c.server p).metadata.currentTerm ≤ req.currentTerm
  | _ => True

instance (c : Cluster) (l : Label) : Decidable (NoStaleLogRequest c l) := by
  unfold NoStaleLogRequest
  exact match c.delivered l with
    | some (_, .log _) => inferInstance
    | some (_, .vote _) | none => instDecidableTrue

lemma NoStaleLogRequest.le {c : Cluster} {l : Label} (h : NoStaleLogRequest c l) {p : ℤ}
    {req : LogRequest} (hdelivered : c.delivered l = some (p, .log req))
    (hfollower : (c.server p).metadata.status = .follower) :
    (c.server p).metadata.currentTerm ≤ req.currentTerm := by
  unfold NoStaleLogRequest at h
  rw [hdelivered] at h
  exact h hfollower

/-! ## What the operations do to the term -/

section Operations

variable {md md' : ServerMetadata}

lemma ServerMetadata.VoteAnswer.term_le {msg : RequestVoteMessage} {res : RequestVoteResponse}
    (hanswer : VoteAnswer md msg md' res) : md.currentTerm ≤ md'.currentTerm := by
  rcases hanswer.cases with ⟨hlt, rfl⟩ | ⟨-, rfl⟩
  · exact hlt.le
  · exact le_refl _

lemma ServerMetadata.LogAnswer.term_eq {req : LogRequest} {res : LogResponse}
    (hanswer : LogAnswer md req md' res) :
    md'.currentTerm = (md.adoptLeader req).currentTerm := by
  rw [hanswer.frame]

/-- Following the sender lowers the term exactly when a follower is behind the sender's back. -/
lemma adoptLeader_term_le (md : ServerMetadata) (req : LogRequest) :
    md.currentTerm ≤ (md.adoptLeader req).currentTerm ↔
      (md.status = .follower → md.currentTerm ≤ req.currentTerm) := by
  rcases adoptLeader_cases md req with ⟨hadopt, heq⟩ | ⟨-, hnot, heq⟩
  · rw [heq]
    constructor
    · exact fun hle _ => hle
    · intro hle
      rcases hadopt with hge | hfollower
      · exact hge
      · exact hle hfollower
  · rw [heq]
    exact ⟨fun _ hfollower => absurd hfollower hnot, fun _ => le_refl _⟩

end Operations

lemma ThreadStep.term_le {cfg : Config} {s : ℤ} {f f' : LaptopFactory} {l : Label}
    {es : List Event} (hstep : ThreadStep s f l f' es) (h : WellFormed cfg s f) :
    f.metadata.currentTerm ≤ f'.metadata.currentTerm := by
  cases hstep with
  | readStatus | rest | timeOut | askVote | countVote | ignoreVote | elected | endVote | queue
  | maintain | replicate | sendLog | heartbeatAnswered | nextRound => exact le_refl _
  | stand =>
      show f.metadata.currentTerm ≤ f.metadata.currentTerm + 1
      omega
  | outvoted hlock harrives hlt => exact hlt.le
  | fail hlock hlabel hfail =>
      obtain ⟨ack, sent, -, -, -, -, rfl⟩ := failNode_cases hfail
      exact le_refl _
  | entryAnswered hlock hwire hsent hreact =>
      obtain ⟨-, sent, ack, k, rfl, -, -⟩ := hreact.frame h hlock hwire hsent
      exact le_refl _
  | deposed hlock hwire hsent hlt =>
      rw [LaptopFactory.returnTo_metadata]
      exact hlt.le
  | «return» =>
      rw [LaptopFactory.returnTo_metadata]

/-! ## Steps and runs -/

/-- No server's term goes back from `c` to `c'`. -/
def TermsKept (c c' : Cluster) : Prop :=
  ∀ s, (c.server s).metadata.currentTerm ≤ (c'.server s).metadata.currentTerm

section Runs

variable {cfg : Config} {ok : Cluster → Label → Prop} {c c' : Cluster} {tr es : List Event}
  {l : Label}

lemma termsKept_of_step (hrun : (system cfg).Run ok c tr) (hok : NoStaleLogRequest c l)
    (hst : (system cfg).step c l = some (c', es)) : TermsKept c c' := by
  intro q
  rcases step_server hrun hst q with heq | ⟨hq, hstep⟩ | ⟨rpc, reply, hdelivered, hrpc, hserved⟩
  · rw [heq]
  · exact hstep.term_le (wellFormed hrun hq)
  · cases hserved with
    | vote hfree hanswer => exact hanswer.term_le
    | @log req _ res hfree hvalid hanswer =>
        have hstored := (wellFormed hrun hrpc.mem).sound.stored
        rw [(getLogResponse_cases hstored hanswer).term_eq, adoptLeader_term_le]
        exact hok.le hdelivered

/-- **Term monotonicity.**  A step from a reachable state lowers no term if and only if it does
not hand a follower a log request of an earlier term, and so no term ever goes back along the
steps of a run that all avoid this. -/
theorem term_monotone (hrun : (system cfg).Run TransitionSystem.anyStep c tr) :
    (∀ l c' es, (system cfg).step c l = some (c', es) →
      (TermsKept c c' ↔ NoStaleLogRequest c l)) ∧
    ∀ c' tr', (system cfg).Path NoStaleLogRequest (c, tr) (c', tr') → TermsKept c c' := by
  refine ⟨fun l c' es hst => ⟨fun hkept => ?_, fun hok => termsKept_of_step hrun hok hst⟩,
    fun c' tr' hpath => ?_⟩
  · unfold NoStaleLogRequest
    split
    · rename_i p req hdelivered
      obtain ⟨reply, ⟨hserved, -, -⟩, -⟩ := handled_of_step hst hdelivered
      have hrpc := soundRpc_of_delivered hrun (mem_of_step hst) hdelivered
      have hstored := (wellFormed hrun hrpc.mem).sound.stored
      have hle := hkept p
      generalize (c'.server p).metadata = md' at hserved hle
      cases hserved with
      | log hfree hvalid hanswer =>
          rw [(getLogResponse_cases hstored hanswer).term_eq, adoptLeader_term_le] at hle
          exact hle
    · trivial
  · refine TransitionSystem.Path.relates (R := TermsKept) (fun _ _ => le_refl _)
      (fun _ _ _ h₁ h₂ s => (h₁ s).trans (h₂ s)) ?_ hpath hrun
    exact fun c tr l c' es hrun hok hst => termsKept_of_step hrun hok hst

end Runs

/-- Server 0 is elected by server 1 in term 1; server 1 is then elected by server 2 in term 2,
and server 0 is not told. -/
def unawareLeader : List Label :=
  stand 0 ++ callVote 0 ++ timeOut 1 ++ stand 1 ++ callVote 1

/-- The members in an order in which server 1 asks server 2 first. -/
def threeApart : Config := Config.mesh [1, 2, 0] (by decide)

theorem term_monotone_unawareLeader : ∃ c c' tr es,
    (system threeApart).Run TransitionSystem.anyStep c tr ∧
    (system threeApart).step c (.sendLogRequest 0) = some (c', es) ∧ TermsKept c c' := by
  obtain ⟨c, tr, hrun, hplayed⟩ := run_of_play threeApart TransitionSystem.anyStep
    (P := fun c _ => ((system threeApart).step c (.sendLogRequest 0)).isSome)
    (unawareLeader ++ heartbeat 0) (by decide +kernel)
  obtain ⟨⟨c', es⟩, hst⟩ := Option.isSome_iff_exists.1 hplayed
  exact ⟨c, c', tr, es, hrun, hst, ((term_monotone hrun).1 _ c' es hst).2 trivial⟩

/-- The heartbeat of the leader of term 1 takes server 2 back from term 2 to term 1. -/
theorem term_lowered_stale_leader : ∃ c c' tr es,
    (system threeApart).Run TransitionSystem.anyStep c tr ∧
    (system threeApart).step c (.handle 0) = some (c', es) ∧
    (c.server 2).metadata.currentTerm = 2 ∧ (c'.server 2).metadata.currentTerm = 1 ∧
    ¬ TermsKept c c' := by
  obtain ⟨c, tr, hrun, hplayed⟩ := run_of_play threeApart TransitionSystem.anyStep
    (P := fun c _ => ((system threeApart).step c (.handle 0)).any fun p =>
      (c.server 2).metadata.currentTerm = 2 ∧ (p.1.server 2).metadata.currentTerm = 1)
    (unawareLeader ++ heartbeat 0 ++ callLog 0 ++ [.sendLogRequest 0]) (by decide +kernel)
  rw [Option.any_eq_true] at hplayed
  obtain ⟨⟨c', es⟩, hst, hterms⟩ := hplayed
  obtain ⟨hbefore, hafter⟩ : (c.server 2).metadata.currentTerm = 2 ∧
      (c'.server 2).metadata.currentTerm = 1 := of_decide_eq_true hterms
  refine ⟨c, c', tr, es, hrun, hst, hbefore, hafter, fun hkept => ?_⟩
  have hle := hkept 2
  omega

end LaptopRaft
