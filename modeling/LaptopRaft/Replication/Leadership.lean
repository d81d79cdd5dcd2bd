import LaptopRaft.Election.Terms

/-!
# Only the elected leader writes

A server with status `LEADER` was elected in its present term (`Leading.elected`): the status is
set by `InitLeader` alone, and whatever changes the term of a leader also demotes it.  What is
missing in the source is a look at the status where it matters:

* a `LeaderThread` appends and replicates for every update in its queue, whatever the server has
  become since the client connected;
* `TimeoutThread` enters `ReplicateLog` on a status it read before it had the lock.

`ActsAsLeader` is the condition that both happen on leaders only; `only_leader_writes` says that
it is enough, `follower_appends` is a run without it.
-/

namespace LaptopRaft

open ServerMetadata

/-- `LeaderMaintainLog` and `ReplicateLog` are entered with status `LEADER`. -/
def ActsAsLeader (c : Cluster) : Label → Prop
  | .leaderMaintainLog s _ _ => (c.server s).metadata.status = .leader
  | .replicateLog s _ => (c.server s).metadata.status = .leader
  | _ => True

instance (c : Cluster) (l : Label) : Decidable (ActsAsLeader c l) := by
  induction l using Label.casesOn <;> dsimp only [ActsAsLeader] <;> infer_instance

/-- Server `s` has status `LEADER`, and became leader in term `t`. -/
def LeadsIn (c : Cluster) (tr : List Event) (s t : ℤ) : Prop :=
  (c.server s).metadata.status = .leader ∧ ∃ log, .initLeader s t log ∈ tr

/-- Every entry appended and every log request sent in a step is by a leader, in its term. -/
def OnlyLeaderWrites (c : Cluster) (tr es : List Event) : Prop :=
  (∀ s op, .append s op ∈ es → LeadsIn c tr s op.term) ∧
    ∀ s req, .sendLogRequest s req ∈ es → LeadsIn c tr s req.currentTerm

/-! ## The invariant -/

structure Leading (s : ℤ) (f : LaptopFactory) (tr : List Event) : Prop where
  elected : f.metadata.status = .leader → ∃ log, .initLeader s f.metadata.currentTerm log ∈ tr
  replicating : ∀ caller loop, f.metaLock = .replicateLog caller loop →
    f.metadata.status = .leader

section Leading

variable {cfg : Config} {s : ℤ} {f f' : LaptopFactory} {tr es : List Event}

lemma Leading.of_same (h : Leading s f tr) (hstatus : f'.metadata.status = f.metadata.status)
    (hterm : f'.metadata.currentTerm = f.metadata.currentTerm)
    (hlock : ∀ caller loop, f'.metaLock = .replicateLog caller loop →
      f.metadata.status = .leader) : Leading s f' (tr ++ es) := by
  constructor
  · intro hleader
    rw [hstatus] at hleader
    obtain ⟨log, helected⟩ := h.elected hleader
    rw [hterm]
    exact ⟨log, List.mem_append_left es helected⟩
  · intro caller loop hreplicating
    rw [hstatus]
    exact hlock caller loop hreplicating

lemma Leading.of_not_leader (hstatus : f'.metadata.status ≠ .leader)
    (hlock : ∀ caller loop, f'.metaLock ≠ .replicateLog caller loop) : Leading s f' tr := by
  constructor
  · intro hleader
    exact absurd hleader hstatus
  · intro caller loop hreplicating
    exact absurd hreplicating (hlock caller loop)

lemma ThreadStep.leading {c : Cluster} {l : Label} (hwf : WellFormed cfg s (c.server s))
    (hok : ActsAsLeader c l) (hstep : ThreadStep s (c.server s) l f' es)
    (h : Leading s (c.server s) tr) : Leading s f' (tr ++ es) := by
  have hreplicating := h.replicating
  cases hstep with
  | readStatus | askVote | queue | sendLog => exact h.of_same rfl rfl hreplicating
  | rest hthread hfree => exact h.of_same rfl rfl hreplicating
  | timeOut hthread hfree =>
      apply Leading.of_not_leader
      · simp [setStatus]
      · simp [hfree]
  | stand hthread hfree =>
      apply Leading.of_not_leader
      · exact hwf.flow.candidate hthread
      · simp
  | countVote | ignoreVote | endVote => exact h.of_same rfl rfl (by simp)
  | elected =>
      constructor
      · intro _
        exact ⟨_, List.mem_append_right tr (List.mem_singleton.2 rfl)⟩
      · simp
  | outvoted =>
      apply Leading.of_not_leader
      · simp [demoted]
      · simp
  | maintain => exact h.of_same rfl rfl fun _ _ _ => hok
  | replicate => exact h.of_same rfl rfl fun _ _ _ => hok
  | fail hlock hlabel hfail =>
      obtain ⟨ack, sent, -, -, -, -, rfl⟩ := failNode_cases hfail
      exact h.of_same rfl rfl fun _ _ _ => hreplicating _ _ hlock
  | heartbeatAnswered hlock => exact h.of_same rfl rfl fun _ _ _ => hreplicating _ _ hlock
  | entryAnswered hlock hwire hsent hreact =>
      obtain ⟨-, sent, ack, k, rfl, -, -⟩ := hreact.frame hwf hlock hwire hsent
      exact h.of_same rfl rfl fun _ _ _ => hreplicating _ _ hlock
  | deposed =>
      apply Leading.of_not_leader
      · rw [LaptopFactory.returnTo_metadata]
        simp [demoted]
      · simp
  | nextRound hlock => exact h.of_same rfl rfl fun _ _ _ => hreplicating _ _ hlock
  | «return» =>
      apply h.of_same
      · rw [LaptopFactory.returnTo_metadata]
      · rw [LaptopFactory.returnTo_metadata]
      · simp

/-- A handler keeps status and term, or ends up as follower. -/
lemma Served.status_cases {rpc : Rpc} {md : ServerMetadata} {reply : Reply}
    (hserved : Served f rpc md reply) (hstored : Stored f.metadata) :
    md.status = .follower ∨
      (md.status = f.metadata.status ∧ md.currentTerm = f.metadata.currentTerm) := by
  cases hserved with
  | vote hfree hanswer =>
      rcases hanswer.cases with ⟨-, rfl⟩ | ⟨-, rfl⟩
      · exact Or.inl rfl
      · exact Or.inr ⟨rfl, rfl⟩
  | @log req _ res hfree hvalid hanswer =>
      have hanswer := getLogResponse_cases hstored hanswer
      rw [hanswer.status_eq, hanswer.term_eq]
      rcases adoptLeader_cases f.metadata req with ⟨-, heq⟩ | ⟨-, -, heq⟩
      · rw [heq]
        exact Or.inl rfl
      · rw [heq]
        exact Or.inr ⟨rfl, rfl⟩

end Leading

section Runs

variable {cfg : Config} {c c' : Cluster} {tr es : List Event} {l : Label}

theorem leading_of_run (hrun : (system cfg).Run ActsAsLeader c tr) {s : ℤ} (hs : s ∈ cfg.ids) :
    Leading s (c.server s) tr := by
  refine run_forall_server (P := fun s f tr => s ∈ cfg.ids → Leading s f tr)
    ?_ ?_ ?_ ?_ ?_ hrun s hs
  · intro connects s _
    obtain ⟨index, heq, -⟩ := bootMetadata_eq cfg connects s
    have hmetadata : ((boot cfg connects).server s).metadata = _ := heq
    apply Leading.of_not_leader
    · rw [hmetadata]
      simp
    · simp [boot]
  · intro s f tr es _ h hs
    exact (h hs).of_same rfl rfl (h hs).replicating
  · intro c tr l s f es hrun hok _ hstep h hs
    exact hstep.leading (wellFormed hrun hs) hok (h hs)
  · intro c tr l p rpc md reply hrun _ _ hserved h hp
    have hfree := hserved.free
    rcases hserved.status_cases (wellFormed hrun hp).sound.stored with hfollower | ⟨hst, hterm⟩
    · apply Leading.of_not_leader
      · simp [hfollower]
      · simp [hfree]
    · exact (h hp).of_same hst hterm (h hp).replicating
  · intro c tr s node rpc md reply _ _ _ _ h hs
    exact ⟨(h hs).elected, (h hs).replicating⟩

/-- **Only the elected leader writes**, in every run in which the leader's procedures are
entered by leaders. -/
theorem only_leader_writes (hrun : (system cfg).Run ActsAsLeader c tr) (hok : ActsAsLeader c l)
    (hst : (system cfg).step c l = some (c', es)) : OnlyLeaderWrites c tr es := by
  rcases step_cases hst with ⟨s, f, hs, hstep, -⟩ | ⟨p, rpc, reply, -, -, rfl⟩
  · have hleading := leading_of_run hrun hs
    constructor
    · intro q op happend
      obtain rfl : q = s := hstep.server_eq _ happend
      cases hstep with
      | queue hqueue =>
          obtain ⟨laptop, hship⟩ := hqueue.events _ happend
          cases hship
      | maintain =>
          have hleader : (c.server q).metadata.status = .leader := hok
          simp only [List.mem_cons, Event.append.injEq, true_and, reduceCtorEq, List.not_mem_nil,
            or_false] at happend
          subst happend
          exact ⟨hleader, hleading.elected hleader⟩
      | entryAnswered => simp [commitEvents] at happend
      | stand => simp [standEvents] at happend
      | _ => simp at happend
    · intro q req hsend
      obtain rfl : q = s := hstep.server_eq _ hsend
      cases hstep with
      | queue hqueue =>
          obtain ⟨laptop, hship⟩ := hqueue.events _ hsend
          cases hship
      | sendLog hlock hquiet hreq =>
          have hleader := hleading.replicating _ _ hlock
          obtain ⟨-, rfl⟩ : q = q ∧ req = _ := by simpa using hsend
          rw [LeadsIn, (logRequestFor_cases hreq).term]
          exact ⟨hleader, hleading.elected hleader⟩
      | entryAnswered => simp [commitEvents] at hsend
      | stand => simp [standEvents] at hsend
      | _ => simp at hsend
  · constructor <;> intro q x hmem <;>
      rcases serveEvents_cases hmem with ⟨_, _, -, -, -, he⟩ | ⟨_, _, -, -, -, -, he⟩ <;> cases he

end Runs

/-- The leader of term 1 appends its first entry. -/
theorem only_leader_writes_oneUpdate : ∃ c c' tr es,
    (system three).Run ActsAsLeader c tr ∧
    (system three).step c (.leaderMaintainLog 0 0 []) = some (c', es) ∧
    .append 0 ⟨1, 7, 1⟩ ∈ es ∧ LeadsIn c tr 0 1 := by
  obtain ⟨c, tr, hrun, hok, hplayed⟩ := run_of_play three ActsAsLeader
    (P := fun c _ => ActsAsLeader c (.leaderMaintainLog 0 0 []) ∧
      ((system three).step c (.leaderMaintainLog 0 0 [])).any fun p => .append 0 ⟨1, 7, 1⟩ ∈ p.2)
    (stand 0 ++ callVote 0 ++ [.createLaptop 0 0 ⟨7, 1, 1⟩, .dequeue 0 0]) (by decide +kernel)
  rw [Option.any_eq_true] at hplayed
  obtain ⟨⟨c', es⟩, hst, happend⟩ := hplayed
  have happend : .append 0 ⟨1, 7, 1⟩ ∈ es := of_decide_eq_true happend
  exact ⟨c, c', tr, es, hrun, hst, happend, (only_leader_writes hrun hok hst).1 0 _ happend⟩

/-- Server 0 was the leader of term 1 when its client connected.  It has since voted for server
1 in term 2, and appends the client's update with term 2, as a follower. -/
theorem follower_appends : ∃ c c' tr es,
    (system three).Run TransitionSystem.anyStep c tr ∧
    (system three).step c (.leaderMaintainLog 0 0 []) = some (c', es) ∧
    .append 0 ⟨2, 7, 1⟩ ∈ es ∧ ¬ OnlyLeaderWrites c tr es := by
  obtain ⟨c, tr, hrun, hplayed⟩ := run_of_play three TransitionSystem.anyStep
    (P := fun c _ => ((system three).step c (.leaderMaintainLog 0 0 [])).any fun p =>
      (c.server 0).metadata.status = .follower ∧ .append 0 ⟨2, 7, 1⟩ ∈ p.2)
    (stand 0 ++ callVote 0 ++ [.createLaptop 0 0 ⟨7, 1, 1⟩, .dequeue 0 0] ++
      timeOut 1 ++ stand 1 ++ callVote 1) (by decide +kernel)
  rw [Option.any_eq_true] at hplayed
  obtain ⟨⟨c', es⟩, hst, hfacts⟩ := hplayed
  obtain ⟨hfollower, happend⟩ : (c.server 0).metadata.status = .follower ∧
      .append 0 ⟨2, 7, 1⟩ ∈ es := of_decide_eq_true hfacts
  refine ⟨c, c', tr, es, hrun, hst, happend, fun honly => ?_⟩
  have hleader := (honly.1 0 _ happend).1
  rw [hfollower] at hleader
  cases hleader

end LaptopRaft
