import LaptopRaft.Properties.Connections
import LaptopRaft.Replication.Leadership

/-!
# Roles

A server is `FOLLOWER`, `CANDIDATE` or `LEADER`, and `IsLeader()` tells a client whether it is the
leader.  Two things are expected of these and do not hold.

`TimeoutThread` chooses its `case` by a status it read without the lock.  A candidate that has
followed someone since then still enters `RequestVote`, and may be elected as a `FOLLOWER`
(`follower_elected`).  When `RequestVote` is entered with status `CANDIDATE` only, the status moves
as it should (`roles_follow`).

`IsLeader()` compares `leader_id` with the server's own id.  A leader that is demoted by a vote
request, or by the answer to a log request, keeps its `leader_id` and goes on telling clients that
it is the leader (`demoted_still_leads`); `role_agrees` says that nothing else separates the two.
-/

namespace LaptopRaft

open ServerMetadata

/-- The changes of status that the roles provide for. -/
def RoleStep (before after : ServerMetadata) : Prop :=
  match before.status, after.status with
  | .follower, .candidate => before.heartbeat = false
  | .follower, .leader | .leader, .candidate => False
  | _, _ => True

instance (before after : ServerMetadata) : Decidable (RoleStep before after) := by
  unfold RoleStep
  split <;> infer_instance

/-- A step changes the status of every server as its role provides for. -/
def RolesFollow (c c' : Cluster) : Prop :=
  ∀ s, RoleStep (c.server s).metadata (c'.server s).metadata

/-- `RequestVote` is entered with status `CANDIDATE`. -/
def StandsAsCandidate (c : Cluster) : Label → Prop
  | .requestVote s => (c.server s).metadata.status = .candidate
  | _ => True

instance (c : Cluster) (l : Label) : Decidable (StandsAsCandidate c l) := by
  induction l using Label.casesOn <;> dsimp only [StandsAsCandidate] <;> infer_instance

/-! ## The status -/

lemma RoleStep.of_eq {before after : ServerMetadata} (h : after.status = before.status) :
    RoleStep before after := by
  unfold RoleStep
  rw [h]
  cases before.status <;> trivial

lemma RoleStep.of_follower {before after : ServerMetadata} (h : after.status = .follower) :
    RoleStep before after := by
  unfold RoleStep
  rw [h]
  cases before.status <;> trivial

/-- What the threads of a server can rely on when they act on an earlier look at the status. -/
structure Timed (f : LaptopFactory) : Prop where
  follower : f.timeoutThread = .branch .follower → f.metadata.status = .follower
  voting : ∀ rest, f.metaLock = .requestVote rest → f.metadata.status ≠ .leader

/-- The server is a candidate while it runs `RequestVote`. -/
def CandidateVotes (f : LaptopFactory) : Prop :=
  ∀ rest, f.metaLock = .requestVote rest → f.metadata.status = .candidate

section Status

variable {cfg : Config} {s : ℤ} {f f' : LaptopFactory} {es : List Event}

lemma Timed.of_same (h : Timed f) (hstatus : f'.metadata.status = f.metadata.status)
    (hthread : f'.timeoutThread = f.timeoutThread ∨ f'.timeoutThread = .top)
    (hlock : ∀ rest, f'.metaLock = .requestVote rest → f.metadata.status ≠ .leader) :
    Timed f' := by
  constructor
  · intro hbranch
    rw [hstatus]
    rcases hthread with hsame | htop
    · exact h.follower (hsame ▸ hbranch)
    · rw [htop] at hbranch
      cases hbranch
  · intro rest hvoting
    rw [hstatus]
    exact hlock rest hvoting

lemma Timed.of_top (htop : f.timeoutThread = .top)
    (hlock : ∀ rest, f.metaLock ≠ .requestVote rest) : Timed f :=
  ⟨fun hbranch => by simp [htop] at hbranch, fun rest hvoting => absurd hvoting (hlock rest)⟩

lemma Timed.of_follower (hstatus : f.metadata.status = .follower) : Timed f :=
  ⟨fun _ => hstatus, fun _ _ => by simp [hstatus]⟩

lemma ThreadStep.timed {l : Label} (hwf : WellFormed cfg s f) (hstep : ThreadStep s f l f' es)
    (h : Timed f) : Timed f' := by
  have hvoting := h.voting
  cases hstep with
  | readStatus => exact ⟨fun hbranch => by simpa using hbranch, hvoting⟩
  | rest => exact h.of_same rfl (Or.inr rfl) hvoting
  | timeOut hthread hfree => exact .of_top rfl (by simp [hfree])
  | stand hthread => exact h.of_same rfl (Or.inl rfl) fun _ _ => hwf.flow.candidate hthread
  | askVote | queue | sendLog => exact h.of_same rfl (Or.inl rfl) hvoting
  | countVote hlock | ignoreVote hlock =>
      exact h.of_same rfl (Or.inl rfl) fun _ _ => hvoting _ hlock
  | elected | endVote => exact .of_top rfl (by simp)
  | outvoted => exact .of_follower rfl
  | maintain | replicate =>
      exact h.of_same rfl (Or.inl rfl) (by simp [LaptopFactory.enterReplicateLog])
  | fail hlock hlabel hfail =>
      obtain ⟨ack, sent, -, -, -, -, rfl⟩ := failNode_cases hfail
      exact h.of_same rfl (Or.inl rfl) (by simp)
  | heartbeatAnswered | nextRound => exact h.of_same rfl (Or.inl rfl) (by simp)
  | entryAnswered hlock hwire hsent hreact =>
      obtain ⟨-, sent, ack, k, rfl, -, -⟩ := hreact.frame hwf hlock hwire hsent
      exact h.of_same rfl (Or.inl rfl) (by simp)
  | deposed =>
      apply Timed.of_follower
      rw [LaptopFactory.returnTo_metadata]
      rfl
  | «return» =>
      apply h.of_same
      · rw [LaptopFactory.returnTo_metadata]
      · exact (LaptopFactory.returnTo_timeoutThread _ _).symm
      · simp

lemma CandidateVotes.of_same (h : CandidateVotes f)
    (hstatus : f'.metadata.status = f.metadata.status)
    (hlock : ∀ rest, f'.metaLock = .requestVote rest → ∃ rest', f.metaLock = .requestVote rest') :
    CandidateVotes f' := by
  intro rest hvoting
  obtain ⟨rest', hvoting'⟩ := hlock rest hvoting
  rw [hstatus]
  exact h rest' hvoting'

lemma CandidateVotes.of_not_voting (hlock : ∀ rest, f.metaLock ≠ .requestVote rest) :
    CandidateVotes f :=
  fun rest hvoting => absurd hvoting (hlock rest)

lemma ThreadStep.candidateVotes {c : Cluster} {l : Label} (hok : StandsAsCandidate c l)
    (hstep : ThreadStep s (c.server s) l f' es) (h : CandidateVotes (c.server s)) :
    CandidateVotes f' := by
  cases hstep with
  | readStatus | askVote | queue | sendLog =>
      exact h.of_same rfl fun rest hvoting => ⟨rest, hvoting⟩
  | rest hthread hfree | timeOut hthread hfree => exact .of_not_voting (by simp [hfree])
  | stand => exact fun _ _ => hok
  | countVote hlock | ignoreVote hlock => exact h.of_same rfl fun _ _ => ⟨_, hlock⟩
  | elected | outvoted | endVote | fail | heartbeatAnswered | entryAnswered | nextRound =>
      exact .of_not_voting (by simp)
  | maintain | replicate => exact .of_not_voting (by simp [LaptopFactory.enterReplicateLog])
  | deposed | «return» => exact .of_not_voting (by simp)

/-- The role step of a thread. -/
lemma ThreadStep.roleStep {l : Label} (hwf : WellFormed cfg s f)
    (hstep : ThreadStep s f l f' es) (htimed : Timed f) (hcandidate : CandidateVotes f) :
    RoleStep f.metadata f'.metadata := by
  cases hstep with
  | readStatus | rest | stand | askVote | countVote | ignoreVote | endVote | queue | maintain
  | replicate | sendLog | heartbeatAnswered | nextRound => exact .of_eq rfl
  | timeOut hthread hfree hheartbeat =>
      unfold RoleStep
      rw [htimed.follower hthread]
      exact hheartbeat
  | elected hlock =>
      unfold RoleStep
      rw [hcandidate _ hlock]
      trivial
  | outvoted => exact .of_follower rfl
  | fail hlock hlabel hfail =>
      obtain ⟨ack, sent, -, -, -, -, rfl⟩ := failNode_cases hfail
      exact .of_eq rfl
  | entryAnswered hlock hwire hsent hreact =>
      obtain ⟨-, sent, ack, k, rfl, -, -⟩ := hreact.frame hwf hlock hwire hsent
      exact .of_eq rfl
  | deposed =>
      apply RoleStep.of_follower
      rw [LaptopFactory.returnTo_metadata]
      rfl
  | «return» =>
      rw [LaptopFactory.returnTo_metadata]
      exact .of_eq rfl

end Status

section Runs

variable {cfg : Config} {c c' : Cluster} {tr es : List Event} {l : Label}

theorem timed_of_run {ok : Cluster → Label → Prop} (hrun : (system cfg).Run ok c tr) {s : ℤ}
    (hs : s ∈ cfg.ids) : Timed (c.server s) := by
  refine run_forall_server (P := fun s f _ => s ∈ cfg.ids → Timed f) ?_ ?_ ?_ ?_ ?_ hrun s hs
  · exact fun connects s _ => .of_top rfl (by simp [boot])
  · exact fun _ _ _ _ _ h => h
  · intro c tr l s f es hrun _ _ hstep h hs
    exact hstep.timed (wellFormed hrun hs) (h hs)
  · intro c tr l p rpc md reply hrun _ _ hserved h hp
    rcases hserved.status_cases (wellFormed hrun hp).sound.stored with hfollower | ⟨hst, -⟩
    · exact .of_follower hfollower
    · exact (h hp).of_same hst (Or.inl rfl) (h hp).voting
  · exact fun c tr s node rpc md reply _ _ _ _ h hs =>
      (h hs).of_same rfl (Or.inl rfl) (h hs).voting

theorem candidateVotes_of_run (hrun : (system cfg).Run StandsAsCandidate c tr) (s : ℤ) :
    CandidateVotes (c.server s) := by
  refine run_forall_server (P := fun _ f _ => CandidateVotes f) ?_ ?_ ?_ ?_ ?_ hrun s
  · exact fun connects s => .of_not_voting (by simp [boot])
  · exact fun _ _ _ _ _ h => h
  · exact fun c tr l s f es _ hok _ hstep h => hstep.candidateVotes hok h
  · intro c tr l p rpc md reply _ _ _ hserved _
    exact .of_not_voting (by simp [hserved.free])
  · exact fun c tr s node rpc md reply _ _ _ _ h =>
      h.of_same rfl fun rest hvoting => ⟨rest, hvoting⟩

/-- **Status transitions follow the roles**, after every run in which `RequestVote` is entered by
candidates only. -/
theorem roles_follow (hrun : (system cfg).Run StandsAsCandidate c tr)
    (hst : (system cfg).step c l = some (c', es)) : RolesFollow c c' := by
  intro q
  rcases step_server hrun hst q with heq | ⟨hq, hstep⟩ | ⟨rpc, reply, -, hrpc, hserved⟩
  · exact .of_eq (by rw [heq])
  · exact hstep.roleStep (wellFormed hrun hq) (timed_of_run hrun hq) (candidateVotes_of_run hrun q)
  · rcases hserved.status_cases (wellFormed hrun hrpc.mem).sound.stored with hfollower | ⟨hst, -⟩
    · exact .of_follower hfollower
    · exact .of_eq hst

end Runs

theorem roles_follow_oneUpdate : ∃ c c' tr es, (system three).Run StandsAsCandidate c tr ∧
    (system three).step c (.recvVoteResponse 0) = some (c', es) ∧
    (c.server 0).metadata.status = .candidate ∧ (c'.server 0).metadata.status = .leader ∧
    RolesFollow c c' := by
  obtain ⟨c, tr, hrun, hplayed⟩ := run_of_play three StandsAsCandidate
    (P := fun c _ => ((system three).step c (.recvVoteResponse 0)).any fun p =>
      (c.server 0).metadata.status = .candidate ∧ (p.1.server 0).metadata.status = .leader)
    (stand 0 ++ [.sendRequestVote 0, .handle 0]) (by decide +kernel)
  rw [Option.any_eq_true] at hplayed
  obtain ⟨⟨c', es⟩, hst, hstatus⟩ := hplayed
  obtain ⟨hbefore, hafter⟩ : (c.server 0).metadata.status = .candidate ∧
      (c'.server 0).metadata.status = .leader := of_decide_eq_true hstatus
  exact ⟨c, c', tr, es, hrun, hst, hbefore, hafter, roles_follow hrun hst⟩

/-- Server 0 has read that it is a candidate when it votes for server 1, which makes it a
follower.  It enters `RequestVote` all the same and is elected by server 1. -/
theorem follower_elected : ∃ c c' tr es, (system three).Run TransitionSystem.anyStep c tr ∧
    (system three).step c (.recvVoteResponse 0) = some (c', es) ∧
    (c.server 0).metadata.status = .follower ∧ (c'.server 0).metadata.status = .leader ∧
    ¬ RolesFollow c c' := by
  obtain ⟨c, tr, hrun, hplayed⟩ := run_of_play three TransitionSystem.anyStep
    (P := fun c _ => ((system three).step c (.recvVoteResponse 0)).any fun p =>
      (c.server 0).metadata.status = .follower ∧ (p.1.server 0).metadata.status = .leader)
    (timeOut 0 ++ [.readStatus 0] ++ stand 1 ++ callVote 1 ++ [.requestVote 0] ++
      [.sendRequestVote 0, .handle 0]) (by decide +kernel)
  rw [Option.any_eq_true] at hplayed
  obtain ⟨⟨c', es⟩, hst, hstatus⟩ := hplayed
  obtain ⟨hbefore, hafter⟩ : (c.server 0).metadata.status = .follower ∧
      (c'.server 0).metadata.status = .leader := of_decide_eq_true hstatus
  refine ⟨c, c', tr, es, hrun, hst, hbefore, hafter, fun hroles => ?_⟩
  have hstep := hroles 0
  rw [RoleStep, hbefore, hafter] at hstep
  exact hstep

/-! ## `IsLeader()` -/

/-- `IsLeader()` answers `1` exactly while the status is `LEADER`. -/
def RoleAgrees (cfg : Config) (c : Cluster) : Prop :=
  ∀ s ∈ cfg.ids, (c.server s).metadata.isLeader = 1 ↔ (c.server s).metadata.status = .leader

/-- The response decides the election: it is a vote of the current term, and the votes are
enough. -/
def Decides (md : ServerMetadata) (res : RequestVoteResponse) : Prop :=
  md.currentTerm = res.currentTerm ∧ res.voted ≠ 0 ∧ (md.counted res.id).wonElection = true

instance (md : ServerMetadata) (res : RequestVoteResponse) : Decidable (Decides md res) :=
  inferInstanceAs (Decidable (_ ∧ _))

/-- The vote response a step hands to `RequestVote`, with the server that counts it. -/
def Cluster.voteResponse (c : Cluster) : Label → Option (ℤ × RequestVoteResponse)
  | .recvVoteResponse s =>
      match (c.server s).wire with
      | .response (.vote res) => some (s, res)
      | _ => none
  | .voteLinkFails s res => some (s, res)
  | _ => none

/-- `InitLeader` is executed on `s`. -/
def BecomesLeader (c : Cluster) (s : ℤ) (l : Label) : Prop :=
  match c.voteResponse l with
  | some (q, res) => q = s ∧ Decides (c.server s).metadata res
  | none => False

instance (c : Cluster) (s : ℤ) (l : Label) : Decidable (BecomesLeader c s l) := by
  unfold BecomesLeader
  split <;> infer_instance

/-- No server with status `LEADER` is asked for its vote in a higher term. -/
def NoLeaderCanvassed (c : Cluster) (l : Label) : Prop :=
  match c.delivered l with
  | some (p, .vote msg) => (c.server p).metadata.status = .leader →
      msg.currentTerm ≤ (c.server p).metadata.currentTerm
  | _ => True

instance (c : Cluster) (l : Label) : Decidable (NoLeaderCanvassed c l) := by
  unfold NoLeaderCanvassed
  split <;> infer_instance

/-- No server with status `LEADER` has an entry request answered from a higher term. -/
def NoLeaderOutranked (c : Cluster) : Label → Prop
  | .recvLogResponse s => ∀ res ∈ (c.server s).logResponse, res.followerId ≠ -1 →
      (c.server s).metadata.status = .leader → ¬ (c.server s).Outranked res
  | _ => True

instance (c : Cluster) (l : Label) : Decidable (NoLeaderOutranked c l) := by
  induction l using Label.casesOn <;> dsimp only [NoLeaderOutranked] <;> infer_instance

/-- The steps that keep the status and `leader_id` together: no leader is demoted by a vote
request or a log response, and no server whose id is the sentinel becomes leader. -/
structure KeepsRole (c : Cluster) (l : Label) : Prop where
  canvassed : NoLeaderCanvassed c l
  outranked : NoLeaderOutranked c l
  sentinel : ¬ BecomesLeader c (-1) l

instance (c : Cluster) (l : Label) : Decidable (KeepsRole c l) :=
  decidable_of_iff (NoLeaderCanvassed c l ∧ NoLeaderOutranked c l ∧ ¬ BecomesLeader c (-1) l)
    ⟨fun ⟨h1, h2, h3⟩ => ⟨h1, h2, h3⟩, fun ⟨h1, h2, h3⟩ => ⟨h1, h2, h3⟩⟩

/-! ### What the two are kept by -/

lemma isLeader_eq_one {md : ServerMetadata} :
    md.isLeader = 1 ↔ md.leaderId ≠ -1 ∧ md.leaderId = md.factoryId := by
  unfold isLeader
  split
  · rename_i hknown
    split
    · rename_i hown
      simp [hown ▸ hknown, hown]
    · rename_i hother
      simp [hother]
  · rename_i hunknown
    simp [hunknown]

/-- A log request on its way comes from another member. -/
def FromPeer (cfg : Config) (p : ℤ) : Rpc → Prop
  | .vote _ => True
  | .log req => req.leaderId ∈ cfg.ids ∧ req.leaderId ≠ p

lemma WellFormed.fromPeer {cfg : Config} {s : ℤ} {f : LaptopFactory} (h : WellFormed cfg s f)
    (hs : s ∈ cfg.ids) {node : ServerNode} {rpc : Rpc} (hwire : f.wire = .request node rpc) :
    FromPeer cfg node.id rpc := by
  cases rpc with
  | vote msg => trivial
  | log req =>
      have hbuilt := logRequestFor_cases (h.flow.logRequest node req hwire).2
      have hsender : req.leaderId = s := hbuilt.leaderId.trans h.placed.factoryId
      have hpeer := (cfg.mem_peers s hs node.id).1 (List.mem_map_of_mem (h.peer_of_wire hwire))
      exact ⟨hsender ▸ hs, hsender ▸ Ne.symm hpeer.2⟩

section Agrees

variable {cfg : Config} {s : ℤ} {md md' : ServerMetadata}

/-- What `role_agrees` says of one server. -/
def ServerMetadata.Agrees (md : ServerMetadata) : Prop := md.isLeader = 1 ↔ md.status = .leader

lemma ServerMetadata.Agrees.of_same (h : md.Agrees) (hleader : md'.leaderId = md.leaderId)
    (hfactory : md'.factoryId = md.factoryId) (hstatus : md'.status = md.status) :
    md'.Agrees := by
  rw [Agrees, isLeader_eq_one, hleader, hfactory, ← isLeader_eq_one, hstatus]
  exact h

/-- A server that is no leader gets another status and keeps its `leader_id`. -/
lemma ServerMetadata.Agrees.of_not_leader (h : md.Agrees) (hleader : md'.leaderId = md.leaderId)
    (hfactory : md'.factoryId = md.factoryId) (hbefore : md.status ≠ .leader)
    (hafter : md'.status ≠ .leader) : md'.Agrees := by
  refine ⟨fun hone => ?_, fun hstatus => absurd hstatus hafter⟩
  rw [isLeader_eq_one, hleader, hfactory, ← isLeader_eq_one] at hone
  exact absurd (h.1 hone) hbefore

lemma becomesLeader_of_arrives {c : Cluster} {l : Label} {res : RequestVoteResponse}
    (harrives : VoteArrives s (c.server s) l res) (hdecides : Decides (c.server s).metadata res) :
    BecomesLeader c s l := by
  rcases harrives with ⟨rfl, hwire⟩ | rfl
  · simp only [BecomesLeader, Cluster.voteResponse, hwire]
    exact ⟨trivial, hdecides⟩
  · exact ⟨rfl, hdecides⟩

lemma ThreadStep.agrees {ok : Cluster → Label → Prop} {c c' : Cluster} {tr es : List Event}
    {l : Label} (hrun : (system cfg).Run ok c tr) (hok : KeepsRole c l) (hs : s ∈ cfg.ids)
    (hst : (system cfg).step c l = some (c', es))
    (hstep : ThreadStep s (c.server s) l (c'.server s) es)
    (h : (c.server s).metadata.Agrees) : (c'.server s).metadata.Agrees := by
  have hwf := wellFormed hrun hs
  have htimed := timed_of_run hrun hs
  have hvalid : l = .recvLogResponse s → _ := fun hl =>
    LaptopFactory.recvLogResponse_valid (recvLogResponse_of_step (hl ▸ hst))
  generalize c'.server s = f' at hstep hvalid
  cases hstep with
  | readStatus | rest | stand | askVote | countVote | ignoreVote | endVote | queue | maintain
  | replicate | sendLog | heartbeatAnswered | nextRound => exact h.of_same rfl rfl rfl
  | timeOut hthread =>
      refine h.of_not_leader rfl rfl ?_ ?_
      · simp [htimed.follower hthread]
      · simp [setStatus]
  | elected hlock harrives hterm hvoted hwon =>
      have hfactory := hwf.placed.factoryId
      have hknown : (c.server s).metadata.factoryId ≠ -1 := by
        rw [hfactory]
        rintro rfl
        exact hok.sentinel (becomesLeader_of_arrives harrives ⟨hterm, hvoted, hwon⟩)
      exact ⟨fun _ => rfl, fun _ => isLeader_eq_one.2 ⟨hknown, rfl⟩⟩
  | outvoted hlock => exact h.of_not_leader rfl rfl (htimed.voting _ hlock) (by simp [demoted])
  | fail hlock hlabel hfail =>
      obtain ⟨ack, sent, -, -, -, -, rfl⟩ := failNode_cases hfail
      exact h.of_same rfl rfl rfl
  | entryAnswered hlock hwire hsent hreact =>
      obtain ⟨-, sent, ack, k, rfl, -, -⟩ := hreact.frame hwf hlock hwire hsent
      exact h.of_same rfl rfl rfl
  | @deposed caller node rest new change res hlock hwire hsent hlt =>
      have hbefore : (c.server s).metadata.status ≠ .leader := by
        intro hleader
        obtain ⟨res', hres', ⟨-, hheld⟩ | ⟨hanswered, -⟩⟩ := hvalid rfl
        · exact hheld (LaptopFactory.returnTo_metaLock _ _)
        · obtain rfl : res = res' := by simpa [LaptopFactory.logResponse, hwire] using hres'
          apply hok.outranked res hres' hanswered hleader
          simpa [LaptopFactory.Outranked, hlock] using ⟨hsent, hlt⟩
      rw [LaptopFactory.returnTo_metadata]
      exact h.of_not_leader rfl rfl hbefore (by simp [demoted])
  | «return» =>
      rw [LaptopFactory.returnTo_metadata]
      exact h.of_same rfl rfl rfl

/-- A vote request demotes no leader here, and a log request that is followed names another
server. -/
lemma Served.agrees {f : LaptopFactory} {p : ℤ} {rpc : Rpc} {reply : Reply}
    (hwf : WellFormed cfg p f) (hrpc : FromPeer cfg p rpc)
    (hcanvassed : ∀ msg, rpc = .vote msg → f.metadata.status = .leader →
      msg.currentTerm ≤ f.metadata.currentTerm)
    (hserved : Served f rpc md reply) (h : f.metadata.Agrees) : md.Agrees := by
  cases hserved with
  | @vote msg _ res hfree hanswer =>
      rcases hanswer.cases with ⟨hlt, rfl⟩ | ⟨-, rfl⟩
      · refine h.of_not_leader rfl rfl (fun hleader => ?_) (by simp)
        exact absurd (hcanvassed msg rfl hleader) (not_le.2 hlt)
      · exact h.of_same rfl rfl rfl
  | @log req _ res hfree hvalid hanswer =>
      rw [(getLogResponse_cases hwf.sound.stored hanswer).frame]
      rcases adoptLeader_cases f.metadata req with ⟨-, heq⟩ | ⟨-, -, heq⟩
      · rw [heq]
        refine ⟨fun hone => ?_, by simp⟩
        have hown := (isLeader_eq_one.1 hone).2
        exact absurd (hown.trans hwf.placed.factoryId) hrpc.2
      · rw [heq]
        exact h.of_same rfl rfl rfl

end Agrees

section Runs

variable {cfg : Config} {c c' : Cluster} {tr es : List Event} {l : Label}

lemma fromPeer_of_run {ok : Cluster → Label → Prop} (hrun : (system cfg).Run ok c tr) :
    ∀ p rpc, (p, rpc) ∈ c.pending → FromPeer cfg p rpc := by
  refine (run_invariant (P := fun _ _ _ => True) (Q := FromPeer cfg) ?_ ?_ ?_ ?_ ?_ ?_ ?_ hrun).2
  · exact fun _ _ => trivial
  · exact fun _ _ _ _ _ _ => trivial
  · exact fun _ _ _ _ _ _ _ _ _ _ _ => trivial
  · exact fun c tr s node rpc hrun hs hwire _ => (wellFormed hrun hs).fromPeer hs hwire
  · exact fun _ _ _ => trivial
  · exact fun _ _ _ _ _ _ _ _ _ _ _ _ _ => trivial
  · exact fun _ _ _ _ _ _ _ _ _ _ _ _ => trivial

/-- Every request that a step can hand to a handler comes from another member. -/
lemma fromPeer_of_delivered {ok : Cluster → Label → Prop} (hrun : (system cfg).Run ok c tr)
    (hactor : ∀ s ∈ l.actor, s ∈ cfg.ids) {p : ℤ} {rpc : Rpc}
    (hdelivered : c.delivered l = some (p, rpc)) : FromPeer cfg p rpc := by
  rcases Cluster.delivered_cases hdelivered with
    ⟨s, hs, node, hwire, rfl⟩ | hpending | ⟨msg, -, rfl⟩
  · exact (wellFormed hrun (hactor s hs)).fromPeer (hactor s hs) hwire
  · exact fromPeer_of_run hrun p rpc hpending
  · trivial

lemma agrees_boot (cfg : Config) (connects : ℤ → ServerNode → Bool) (s : ℤ) :
    ((boot cfg connects).server s).metadata.Agrees := by
  obtain ⟨index, heq, -⟩ := bootMetadata_eq cfg connects s
  have hmetadata : ((boot cfg connects).server s).metadata = _ := heq
  rw [hmetadata, Agrees, isLeader_eq_one]
  simp

/-- **Role and leader id agree**, after every run in which no leader is demoted by a vote request
or a log response and the sentinel is not elected. -/
theorem role_agrees (hrun : (system cfg).Run KeepsRole c tr) : RoleAgrees cfg c := by
  refine TransitionSystem.Run.invariant (I := fun c _ => RoleAgrees cfg c) ?_ ?_ hrun
  · rintro _ ⟨connects, rfl⟩ s _
    exact agrees_boot cfg connects s
  · intro c tr l c' es hrun ih hok hst q hq
    have hbefore : (c.server q).metadata.Agrees := ih q hq
    rcases step_server hrun hst q with heq | ⟨-, hstep⟩ | ⟨rpc, reply, hdelivered, -, hserved⟩
    · rw [heq]
      exact hbefore
    · exact hstep.agrees hrun hok hq hst hbefore
    · have hrpc := fromPeer_of_delivered hrun (mem_of_step hst) hdelivered
      refine hserved.agrees (wellFormed hrun hq) hrpc ?_ hbefore
      rintro msg rfl
      have hcanvassed := hok.canvassed
      simp only [NoLeaderCanvassed, hdelivered] at hcanvassed
      exact hcanvassed

end Runs

theorem role_agrees_oneUpdate : ∃ c tr, (system three).Run KeepsRole c tr ∧
    (c.server 0).metadata.status = .leader ∧ RoleAgrees three c := by
  obtain ⟨c, tr, hrun, hleader⟩ := run_of_play three KeepsRole
    (P := fun c _ => (c.server 0).metadata.status = .leader) oneUpdate (by decide +kernel)
  exact ⟨c, tr, hrun, hleader, role_agrees hrun⟩

/-- Server 0 leads in term 1 and is asked for its vote in term 2. -/
theorem demoted_still_leads : ∃ c tr, (system three).Run TransitionSystem.anyStep c tr ∧
    (c.server 0).metadata.isLeader = 1 ∧ (c.server 0).metadata.status = .follower ∧
    ¬ RoleAgrees three c := by
  obtain ⟨c, tr, hrun, hone, hfollower⟩ := run_of_play three TransitionSystem.anyStep
    (P := fun c _ => (c.server 0).metadata.isLeader = 1 ∧
      (c.server 0).metadata.status = .follower)
    (stand 0 ++ callVote 0 ++ timeOut 1 ++ stand 1 ++ [.sendRequestVote 1, .handle 1])
    (by decide +kernel)
  refine ⟨c, tr, hrun, hone, hfollower, fun hagrees => ?_⟩
  have hleader := (hagrees 0 (by decide)).1 hone
  rw [hfollower] at hleader
  cases hleader

end LaptopRaft
