import LaptopRaft.Election.Votes
import LaptopRaft.Framework.Quorum

/-!
# Election safety

Two servers elected in one term would have been elected by two quorums of voters, which meet in
a server that voted for both.  The work is in showing that the votes in `vote_received` are
votes, and that there are enough of them (`Electing`).  Four things in the source stand against
this, and `KeepsElections` is the condition that a step avoids them:

* `WonElection` compares twice the votes with the number of *peers*, by `>=`, so half the
  servers, or one fewer than half, elect (`DecidesByMajority`);
* `vote_received` still holds the votes of the last candidacy when the next one starts, unless
  the server was demoted in between (`StartsClean`);
* a connection that fails during `RequestVote` leaves a response object decoded from a buffer
  that nothing filled, which is counted like any other (`NoGarbageVote`);
* a server may vote twice in a term (`KeepsVotes`, from `Election/Votes.lean`).

`election_safety` is the result, `two_leaders_of_four` the run in which four servers elect two
leaders in term 1.
-/

namespace LaptopRaft

open ServerMetadata

/-- At most one server becomes leader in a term. -/
def ElectionSafe (tr : List Event) : Prop :=
  ∀ a b t log log', .initLeader a t log ∈ tr → .initLeader b t log' ∈ tr → a = b

/-! ## The condition -/

/-- A candidacy starts without votes of others. -/
def StartsClean (c : Cluster) : Label → Prop
  | .requestVote s => (c.server s).metadata.voteReceived ⊆ {s}
  | _ => True

/-- A counted vote that wins by `WonElection` makes a majority of the servers. -/
def DecidesByMajority (c : Cluster) : Label → Prop
  | .recvVoteResponse s =>
      match (c.server s).wire with
      | .response (.vote res) =>
          (c.server s).metadata.currentTerm = res.currentTerm → res.voted ≠ 0 →
          ((c.server s).metadata.counted res.id).wonElection = true →
          (c.server s).metadata.getPeerSize + 1 <
            2 * ((c.server s).metadata.counted res.id).voteReceived.card
      | _ => True
  | _ => True

/-- What an unfilled buffer decodes to does not pass for a vote. -/
def NoGarbageVote (c : Cluster) : Label → Prop
  | .voteLinkFails s res =>
      (c.server s).metadata.currentTerm = res.currentTerm → res.voted = 0
  | _ => True

instance (c : Cluster) (l : Label) : Decidable (StartsClean c l) := by
  induction l using Label.casesOn <;> dsimp only [StartsClean] <;> infer_instance

instance (c : Cluster) (l : Label) : Decidable (DecidesByMajority c l) := by
  induction l using Label.casesOn
  case recvVoteResponse s =>
    dsimp only [DecidesByMajority]
    exact match (c.server s).wire with
      | .response (.vote _) => inferInstance
      | .response (.log _) | .request _ _ | .quiet => instDecidableTrue
  all_goals exact instDecidableTrue

instance (c : Cluster) (l : Label) : Decidable (NoGarbageVote c l) := by
  induction l using Label.casesOn <;> dsimp only [NoGarbageVote] <;> infer_instance

/-- The steps under which elections are safe. -/
structure KeepsElections (c : Cluster) (l : Label) : Prop extends KeepsVotes c l where
  clean : StartsClean c l
  majority : DecidesByMajority c l
  genuine : NoGarbageVote c l

instance (c : Cluster) (l : Label) : Decidable (KeepsElections c l) :=
  decidable_of_iff
    (KeepsVotes c l ∧ StartsClean c l ∧ DecidesByMajority c l ∧ NoGarbageVote c l)
    ⟨fun h => ⟨h.1, h.2.1, h.2.2.1, h.2.2.2⟩,
      fun h => ⟨h.toKeepsVotes, h.clean, h.majority, h.genuine⟩⟩

/-! ## Votes and quorums -/

/-- The vote rule, on logs: the candidate's last term, then its length. -/
def UpToDate (log voterLog : List MapOp) : Prop :=
  AsRecent (lastTerm log) log.length (lastTerm voterLog) voterLog.length

lemma UpToDate.refl (log : List MapOp) : UpToDate log log :=
  Or.inr ⟨rfl, le_refl _⟩

/-- `v` voted for `s` in term `t`, finding `log` as recent as its own. -/
def VotedFor (tr : List Event) (t s : ℤ) (log : List MapOp) (v : ℤ) : Prop :=
  ∃ voterLog, .vote v t s voterLog ∈ tr ∧ UpToDate log voterLog

lemma VotedFor.mono {tr es : List Event} {t s v : ℤ} {log : List MapOp}
    (h : VotedFor tr t s log v) : VotedFor (tr ++ es) t s log v := by
  obtain ⟨voterLog, hvote, hrecent⟩ := h
  exact ⟨voterLog, List.mem_append_left es hvote, hrecent⟩

/-- A server and its peers are the whole cluster. -/
lemma Config.card_ids (cfg : Config) {s : ℤ} (hs : s ∈ cfg.ids) :
    cfg.ids.card = (cfg.peers s).length + 1 := by
  have hothers : ((cfg.peers s).map ServerNode.id).toFinset = cfg.ids.erase s := by
    ext x
    rw [List.mem_toFinset, cfg.mem_peers s hs, Finset.mem_erase, and_comm]
  have hcard := congrArg Finset.card hothers
  rw [List.toFinset_card_of_nodup (cfg.peers_nodup s hs), List.length_map,
    Finset.card_erase_of_mem hs] at hcard
  have hpos := Finset.card_pos.2 ⟨s, hs⟩
  omega

/-! ## The invariant -/

structure Electing (cfg : Config) (s : ℤ) (f : LaptopFactory) (tr : List Event) : Prop where
  /-- While the server is calling, its votes are votes of this term. -/
  backed : ∀ rest, f.metaLock = .requestVote rest → ∀ v ∈ f.metadata.voteReceived,
    v ∈ cfg.ids ∧ VotedFor tr f.metadata.currentTerm s f.metadata.smrLog v
  /-- So is the answer it is about to look at. -/
  answered : ∀ res, f.wire = .response (.vote res) → res.voted ≠ 0 →
    res.id ∈ cfg.ids ∧ VotedFor tr res.currentTerm s f.metadata.smrLog res.id
  past : ∀ t log, .initLeader s t log ∈ tr → t ≤ f.metadata.currentTerm
  /-- It is not the leader of the term it is standing in. -/
  running : ∀ rest, f.metaLock = .requestVote rest →
    ∀ log, .initLeader s f.metadata.currentTerm log ∉ tr
  quorum : ∀ t log, .initLeader s t log ∈ tr → HasQuorum cfg.ids (VotedFor tr t s log)

section Electing

variable {cfg : Config} {s : ℤ} {f f' : LaptopFactory} {tr es : List Event} {l : Label}

/-- The two states agree on what a candidacy depends on. -/
structure SameCandidacy (f f' : LaptopFactory) : Prop where
  metaLock : ∃ rest, f.metaLock = .requestVote rest
  term : f'.metadata.currentTerm = f.metadata.currentTerm
  votes : f'.metadata.voteReceived = f.metadata.voteReceived
  smrLog : f'.metadata.smrLog = f.metadata.smrLog

/-- A step that elects nobody, counts no vote and starts no candidacy. -/
lemma Electing.frame (h : Electing cfg s f tr)
    (hterm : f.metadata.currentTerm ≤ f'.metadata.currentTerm)
    (hlock : ∀ rest, f'.metaLock = .requestVote rest → SameCandidacy f f')
    (hwire : ∀ res, f'.wire = .response (.vote res) →
      f.wire = .response (.vote res) ∧ f'.metadata.smrLog = f.metadata.smrLog)
    (hnone : ∀ t log, .initLeader s t log ∉ es) : Electing cfg s f' (tr ++ es) := by
  have hold : ∀ {t log}, .initLeader s t log ∈ tr ++ es → .initLeader s t log ∈ tr :=
    fun hmem => (List.mem_append.1 hmem).resolve_right (hnone _ _)
  refine ⟨fun rest hrest v hv => ?_, fun res hres hvoted => ?_, fun t log helected => ?_,
    fun rest hrest log helected => ?_, fun t log helected => ?_⟩
  · obtain ⟨⟨rest', hrest'⟩, hterm', hvotes, hlog⟩ := hlock rest hrest
    rw [hvotes] at hv
    obtain ⟨hmem, hvoted⟩ := h.backed rest' hrest' v hv
    rw [hterm', hlog]
    exact ⟨hmem, hvoted.mono⟩
  · obtain ⟨hres', hlog⟩ := hwire res hres
    obtain ⟨hmem, hfor⟩ := h.answered res hres' hvoted
    rw [hlog]
    exact ⟨hmem, hfor.mono⟩
  · exact (h.past t log (hold helected)).trans hterm
  · obtain ⟨⟨rest', hrest'⟩, hterm', -, -⟩ := hlock rest hrest
    rw [hterm'] at helected
    exact h.running rest' hrest' log (hold helected)
  · exact (h.quorum t log (hold helected)).mono fun v hv => hv.mono

/-- Entering `RequestVote`. -/
lemma Electing.stand (h : Electing cfg s f tr) (hwf : WellFormed cfg s f) (hs : s ∈ cfg.ids)
    (hquiet : f.wire = .quiet) (hclean : f.metadata.voteReceived ⊆ {s}) {lock : MetaLock} :
    Electing cfg s { f with metadata := f.metadata.requestVote, metaLock := lock }
      (tr ++ standEvents s f.metadata.requestVote) := by
  have hold : ∀ {t log}, .initLeader s t log ∈ tr ++ standEvents s f.metadata.requestVote →
      .initLeader s t log ∈ tr := by
    intro t log hmem
    refine (List.mem_append.1 hmem).resolve_right ?_
    simp [standEvents]
  have hnext : f.metadata.requestVote.currentTerm = f.metadata.currentTerm + 1 := rfl
  refine ⟨fun rest hrest v hv => ?_, fun res hres => ?_, fun t log helected => ?_,
    fun rest hrest log helected => ?_, fun t log helected => ?_⟩
  · -- the only vote is the server's own, given in this step
    have hown : v = s := by
      have hid := hwf.placed.factoryId
      rcases Finset.mem_insert.1 hv with rfl | hprior
      · exact hid
      · exact Finset.mem_singleton.1 (hclean hprior)
    subst hown
    refine ⟨hs, f.metadata.smrLog, List.mem_append_right tr ?_, UpToDate.refl _⟩
    exact List.mem_singleton.2 rfl
  · simp [hquiet] at hres
  · have hle := h.past t log (hold helected)
    show t ≤ f.metadata.currentTerm + 1
    omega
  · have hle := h.past _ log (hold helected)
    rw [hnext] at hle
    omega
  · exact (h.quorum t log (hold helected)).mono fun v hv => hv.mono

/-- A genuine vote of the present term. -/
def Genuine (cfg : Config) (s : ℤ) (f : LaptopFactory) (tr : List Event)
    (res : RequestVoteResponse) : Prop :=
  res.id ∈ cfg.ids ∧ VotedFor tr f.metadata.currentTerm s f.metadata.smrLog res.id

lemma Electing.genuine {c : Cluster} (h : Electing cfg s (c.server s) tr)
    {res : RequestVoteResponse} (hgarbage : NoGarbageVote c l)
    (harrives : VoteArrives s (c.server s) l res)
    (hterm : (c.server s).metadata.currentTerm = res.currentTerm) (hvoted : res.voted ≠ 0) :
    Genuine cfg s (c.server s) tr res := by
  rcases harrives with ⟨-, hwire⟩ | rfl
  · obtain ⟨hmem, hfor⟩ := h.answered res hwire hvoted
    rw [← hterm] at hfor
    exact ⟨hmem, hfor⟩
  · exact absurd (hgarbage hterm) hvoted

/-- All votes of a candidate that counts a genuine one are genuine. -/
lemma Electing.counted (h : Electing cfg s f tr) {rest : List ServerNode}
    {res : RequestVoteResponse} (hlock : f.metaLock = .requestVote rest)
    (hres : Genuine cfg s f tr res) : ∀ v ∈ (f.metadata.counted res.id).voteReceived,
      v ∈ cfg.ids ∧ VotedFor tr f.metadata.currentTerm s f.metadata.smrLog v := by
  intro v hv
  rcases Finset.mem_insert.1 hv with rfl | hprior
  · exact hres
  · exact h.backed rest hlock v hprior

/-- A vote is counted and the candidacy goes on. -/
lemma Electing.count (h : Electing cfg s f tr) {rest rest' : List ServerNode}
    {res : RequestVoteResponse} (hlock : f.metaLock = .requestVote rest)
    (hres : Genuine cfg s f tr res) :
    Electing cfg s
      { f with
        metadata := f.metadata.counted res.id
        metaLock := .requestVote rest'
        wire := .quiet } tr := by
  have hvotes := h.counted hlock hres
  constructor
  · intro _ _ v hv
    exact hvotes v hv
  · simp
  · exact h.past
  · intro _ _
    exact h.running rest hlock
  · exact h.quorum

/-- A majority of genuine votes elects. -/
lemma Electing.elect (h : Electing cfg s f tr) (hwf : WellFormed cfg s f) (hs : s ∈ cfg.ids)
    {rest : List ServerNode} {res : RequestVoteResponse} {thread : TimeoutThread}
    (hlock : f.metaLock = .requestVote rest) (hres : Genuine cfg s f tr res)
    (hmajority : f.metadata.getPeerSize + 1 <
      2 * (f.metadata.counted res.id).voteReceived.card) :
    Electing cfg s
      { f with
        metadata := (f.metadata.counted res.id).initLeader
        metaLock := .free
        wire := .quiet
        timeoutThread := thread }
      (tr ++ [.initLeader s f.metadata.currentTerm f.metadata.smrLog]) := by
  have hvotes := h.counted hlock hres
  have hquorum : HasQuorum cfg.ids (VotedFor tr f.metadata.currentTerm s f.metadata.smrLog) := by
    refine ⟨(f.metadata.counted res.id).voteReceived, ⟨fun v hv => (hvotes v hv).1, ?_⟩,
      fun v hv => (hvotes v hv).2⟩
    rw [cfg.card_ids hs, ← hwf.placed.neighbors]
    exact hmajority
  have hcases : ∀ {t log},
      .initLeader s t log ∈ tr ++ [.initLeader s f.metadata.currentTerm f.metadata.smrLog] →
      .initLeader s t log ∈ tr ∨ (t = f.metadata.currentTerm ∧ log = f.metadata.smrLog) := by
    intro t log hmem
    rcases List.mem_append.1 hmem with hold | hnew
    · exact Or.inl hold
    · simp only [List.mem_singleton, Event.initLeader.injEq] at hnew
      exact Or.inr hnew.2
  refine ⟨by simp, by simp, fun t log helected => ?_, by simp, fun t log helected => ?_⟩
  · rcases hcases helected with hold | ⟨rfl, -⟩
    · exact h.past t log hold
    · exact le_refl _
  · rcases hcases helected with hold | ⟨rfl, rfl⟩
    · exact (h.quorum t log hold).mono fun v hv => hv.mono
    · exact hquorum.mono fun v hv => hv.mono

/-! ## Steps -/

lemma ThreadStep.electing {ok : Cluster → Label → Prop} {c : Cluster}
    (hrun : (system cfg).Run ok c tr) (hok : KeepsElections c l) (hs : s ∈ cfg.ids)
    (hstep : ThreadStep s (c.server s) l f' es) (h : Electing cfg s (c.server s) tr) :
    Electing cfg s f' (tr ++ es) := by
  have hwf := wellFormed hrun hs
  have hidle := idle_of_run hrun s
  have hle := hstep.term_le hwf
  -- a candidacy that goes on over a step that leaves the metadata alone
  have hsame : ∀ {rest : List ServerNode}, (c.server s).metaLock = .requestVote rest →
      ∀ {g : LaptopFactory}, g.metadata = (c.server s).metadata →
        SameCandidacy (c.server s) g := by
    intro rest hlock g hg
    exact ⟨⟨rest, hlock⟩, by rw [hg], by rw [hg], by rw [hg]⟩
  cases hstep with
  | readStatus =>
      exact h.frame hle (fun rest hlock => hsame hlock rfl)
        (fun res hres => ⟨hres, rfl⟩) (by simp)
  | rest hthread hfree | timeOut hthread hfree =>
      exact h.frame hle (fun rest hlock => nomatch hfree.symm.trans hlock)
        (fun res hres => ⟨hres, rfl⟩) (by simp)
  | stand hthread hfree => exact h.stand hwf hs (hidle.quiet hfree) hok.clean
  | askVote hlock =>
      exact h.frame hle (fun rest hlock => hsame hlock rfl) (by simp) (by simp)
  | @countVote node rest res _ hlock harrives hterm hvoted =>
      have hgenuine := h.genuine hok.genuine harrives hterm hvoted
      rw [List.append_nil]
      exact h.count hlock hgenuine
  | ignoreVote hlock =>
      exact h.frame hle (fun rest _ => hsame hlock rfl) (by simp) (by simp)
  | @elected node rest res _ hlock harrives hterm hvoted hwon =>
      have hgenuine := h.genuine hok.genuine harrives hterm hvoted
      refine h.elect hwf hs hlock hgenuine ?_
      rcases harrives with ⟨rfl, hwire⟩ | rfl
      · have hmajority := hok.majority
        simp only [DecidesByMajority, hwire] at hmajority
        exact hmajority hterm hvoted hwon
      · exact absurd (hok.genuine hterm) hvoted
  | outvoted => exact h.frame hle (by simp) (by simp) (by simp)
  | endVote => exact h.frame hle (by simp) (fun res hres => ⟨hres, rfl⟩) (by simp)
  | queue hqueue =>
      refine h.frame hle (fun rest hlock => hsame hlock rfl)
        (fun res hres => ⟨hres, rfl⟩) fun t log hmem => ?_
      obtain ⟨laptop, hship⟩ := hqueue.events _ hmem
      cases hship
  | maintain hreq hfree =>
      refine h.frame hle (by simp [LaptopFactory.enterReplicateLog]) (fun res hres => ?_) (by simp)
      have hquiet : (c.server s).wire = .quiet := hidle.quiet hfree
      simp [LaptopFactory.enterReplicateLog, hquiet] at hres
  | replicate =>
      exact h.frame hle (by simp [LaptopFactory.enterReplicateLog])
        (fun res hres => ⟨hres, rfl⟩) (by simp)
  | sendLog hlock =>
      exact h.frame hle (by simp [hlock]) (by simp) (by simp)
  | fail hlock hlabel hfail => exact h.frame hle (by simp) (by simp) (by simp)
  | heartbeatAnswered => exact h.frame hle (by simp) (by simp) (by simp)
  | entryAnswered => exact h.frame hle (by simp) (by simp) (by simp [commitEvents])
  | deposed =>
      exact h.frame hle (by simp) (by simp) (by simp)
  | nextRound => exact h.frame hle (by simp) (fun res hres => ⟨hres, rfl⟩) (by simp)
  | «return» => exact h.frame hle (by simp) (by simp) (by simp)

/-- A granted vote for the message a candidate sends is a vote for its log. -/
lemma ServerMetadata.VoteAnswer.votedFor {g : LaptopFactory} {md : ServerMetadata}
    {msg : RequestVoteMessage} {res : RequestVoteResponse} {p : ℤ}
    (hanswer : VoteAnswer g.metadata msg md res) (hvoted : res.voted ≠ 0)
    (hwf : WellFormed cfg s f) (hmsg : f.metadata.sendRequestVote = some msg)
    (hg : WellFormed cfg p g) (tr : List Event) : res.id = p ∧
      VotedFor (tr ++ serveEvents p g.metadata.smrLog (.vote msg) (.vote res)) res.currentTerm s
        f.metadata.smrLog p := by
  rw [sendRequestVote_eq hwf.sound.stored.logSize] at hmsg
  obtain rfl := Option.some.inj hmsg
  obtain ⟨-, -, t, ht, hrecent⟩ := hanswer.granted hvoted
  rw [getLastTerm_eq hg.sound.stored.logSize] at ht
  obtain rfl := Option.some.inj ht
  refine ⟨hanswer.id.trans hg.placed.factoryId, g.metadata.smrLog, List.mem_append_right tr ?_, ?_⟩
  · simp [serveEvents, hvoted, hwf.placed.factoryId]
  · have hsize := hg.sound.stored.logSize
    rcases hrecent with hlt | ⟨heq, hle⟩
    · exact Or.inl hlt
    · exact Or.inr ⟨heq, by simpa [hsize] using hle⟩

end Electing

section Runs

variable {cfg : Config} {c : Cluster} {tr : List Event}

theorem electing_of_run (hrun : (system cfg).Run KeepsElections c tr) {s : ℤ} (hs : s ∈ cfg.ids) :
    Electing cfg s (c.server s) tr := by
  refine run_forall_server (P := fun s f tr => s ∈ cfg.ids → Electing cfg s f tr)
    ?_ ?_ ?_ ?_ ?_ hrun s hs
  · exact fun connects s _ => ⟨by simp [boot], by simp [boot], by simp, by simp, by simp⟩
  · intro s f tr es hother h hs
    refine (h hs).frame (le_refl _) (fun rest hlock => ⟨⟨rest, hlock⟩, rfl, rfl, rfl⟩)
      (fun res hres => ⟨hres, rfl⟩) fun t log hmem => ?_
    exact hother _ hmem rfl
  · exact fun c tr l s f es hrun hok _ hstep h hs => hstep.electing hrun hok hs (h hs)
  · intro c tr l p rpc md reply hrun hok hdelivered hserved h hp
    have hfree := hserved.free
    have hquiet := (idle_of_run hrun p).quiet hfree
    refine (h hp).frame ?_ (by simp [hfree]) (by simp [hquiet]) fun t log hmem => ?_
    · cases hserved with
      | vote _ hanswer => exact hanswer.term_le
      | log _ _ hanswer =>
          have hstored := (wellFormed hrun hp).sound.stored
          rw [(getLogResponse_cases hstored hanswer).term_eq, adoptLeader_term_le]
          exact fun hfollower => hok.fresh.le hdelivered hfollower
    · rcases serveEvents_cases hmem with ⟨_, _, -, -, -, he⟩ | ⟨_, _, -, -, -, -, he⟩ <;>
        cases he
  · intro c tr s node rpc md reply hrun hs hwire hserved h _
    have hwf := wellFormed hrun hs
    have hp := (soundRpc_of_wire hrun hs hwire).mem
    obtain ⟨hbacked, hanswered, hpast, hrunning, hquorum⟩ := h hs
    refine ⟨hbacked, fun res hres hvoted => ?_, hpast, hrunning, hquorum⟩
    simp only [Wire.response.injEq] at hres
    subst hres
    cases hserved with
    | vote hfree hanswer =>
        obtain ⟨hid, hfor⟩ := hanswer.votedFor hvoted hwf
          (hwf.flow.voteRequest node _ hwire).2 (wellFormed hrun hp) tr
        rw [hid]
        exact ⟨hp, hfor⟩

/-- **Election safety**, in every run whose steps keep clear of the four defects. -/
theorem election_safety (hrun : (system cfg).Run KeepsElections c tr) : ElectionSafe tr := by
  intro a b t log log' ha hb
  have hamem : a ∈ cfg.ids := server_mem_of_run hrun _ ha
  have hbmem : b ∈ cfg.ids := server_mem_of_run hrun _ hb
  have haquorum := (electing_of_run hrun hamem).quorum t log ha
  have hbquorum := (electing_of_run hrun hbmem).quorum t log' hb
  -- the quorums meet in a server that voted for both
  obtain ⟨v, -, ⟨la, hva, -⟩, ⟨lb, hvb, -⟩⟩ := haquorum.meet hbquorum
  have hvotes := one_vote_per_term (hrun.mono fun _ _ hok => hok.toKeepsVotes)
  exact hvotes v t a b la lb hva hvb

end Runs

theorem election_safety_oneUpdate : ∃ c tr, (system three).Run KeepsElections c tr ∧
    .initLeader 0 1 [] ∈ tr ∧ ElectionSafe tr := by
  obtain ⟨c, tr, hrun, helected⟩ := run_of_play three KeepsElections
    (P := fun _ tr => .initLeader 0 1 [] ∈ tr) oneUpdate (by decide +kernel)
  exact ⟨c, tr, hrun, helected, election_safety hrun⟩

def four : Config := Config.mesh [0, 1, 2, 3] (by decide)

/-- In a cluster of four, the own vote and one other make twice two, which is at least the three
peers: servers 0 and 3 both become leader in term 1. -/
theorem two_leaders_of_four : ∃ c tr, (system four).Run TransitionSystem.anyStep c tr ∧
    .initLeader 0 1 [] ∈ tr ∧ .initLeader 3 1 [] ∈ tr ∧ ¬ ElectionSafe tr := by
  obtain ⟨c, tr, hrun, hfirst, hsecond⟩ := run_of_play four TransitionSystem.anyStep
    (P := fun _ tr => .initLeader 0 1 [] ∈ tr ∧ .initLeader 3 1 [] ∈ tr)
    (stand 0 ++ stand 3 ++ callVote 0 ++ callVote 3 ++ callVote 3 ++ callVote 3)
    (by decide +kernel)
  refine ⟨c, tr, hrun, hfirst, hsecond, fun hsafe => ?_⟩
  have hsame := hsafe 0 3 1 [] [] hfirst hsecond
  omega

end LaptopRaft
