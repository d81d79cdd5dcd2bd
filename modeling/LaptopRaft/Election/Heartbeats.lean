import LaptopRaft.Election.Refusals
import LaptopRaft.Election.Roles
import LaptopRaft.Framework.Observer

/-!
# Heartbeats and elections

Case `FOLLOWER` of `TimeoutThread` waits for `heartbeat` and then, with the lock, tests and resets
it.  The flag is set at the end of both handlers, so it says whether the server has handled any
request, of whatever term and with whatever answer, since it last looked (`flag_heard`).

* `suspects_iff`: a follower becomes a candidate in exactly those tests before which it has
  handled nothing.
* `leader_stays`: while every test of a follower finds the flag set, the leader stays the leader of
  its term and all others stay followers.

What a server has handled is not part of the state; an observer keeps it (`watched`).
-/

namespace LaptopRaft

open ServerMetadata TransitionSystem

/-- Which servers have handled a request since they last tested their flag. -/
def watchHeard (heard : ℤ → Bool) (c : Cluster) (l : Label) : ℤ → Bool :=
  match l, c.delivered l with
  | .testHeartbeat s, _ => Function.update heard s false
  | _, some (p, _) => Function.update heard p true
  | _, none => heard

/-- The cluster, with the observer. -/
def watched (cfg : Config) : TransitionSystem (Cluster × (ℤ → Bool)) Label Event :=
  (system cfg).observed watchHeard fun _ => false

/-! ## The flag -/

section Flag

variable {heard : ℤ → Bool} {c : Cluster} {l : Label} {s : ℤ}

lemma watchHeard_delivered {p : ℤ} {rpc : Rpc} (h : c.delivered l = some (p, rpc)) :
    watchHeard heard c l = Function.update heard p true := by
  unfold watchHeard
  rw [h]
  cases l <;> first | rfl | simp [Cluster.delivered] at h

lemma watchHeard_thread (hnone : c.delivered l = none) (hl : ∀ s, l ≠ .testHeartbeat s) :
    watchHeard heard c l = heard := by
  unfold watchHeard
  rw [hnone]
  cases l <;> first | rfl | exact absurd rfl (hl _)

variable {cfg : Config} {f f' : LaptopFactory} {es : List Event}

/-- Only the test touches the flag. -/
lemma ThreadStep.heartbeat (hstep : ThreadStep s f l f' es) (hwf : WellFormed cfg s f) :
    (l = .testHeartbeat s ∧ f'.metadata.heartbeat = false) ∨
      ((∀ s, l ≠ .testHeartbeat s) ∧ f'.metadata.heartbeat = f.metadata.heartbeat) := by
  cases hstep with
  | rest => exact Or.inl ⟨rfl, rfl⟩
  | timeOut _ _ hheartbeat => exact Or.inl ⟨rfl, hheartbeat⟩
  | readStatus | stand | askVote | endVote | maintain | replicate | sendLog | heartbeatAnswered
  | nextRound => exact Or.inr ⟨by simp, rfl⟩
  | countVote _ harrives | ignoreVote _ harrives | elected _ harrives | outvoted _ harrives =>
      rcases harrives with ⟨rfl, -⟩ | rfl <;> exact Or.inr ⟨by simp, rfl⟩
  | queue hqueue => cases hqueue <;> exact Or.inr ⟨by simp, rfl⟩
  | fail hlock hlabel hfail =>
      obtain ⟨ack, sent, -, -, -, -, rfl⟩ := failNode_cases hfail
      rcases hlabel with rfl | rfl <;> exact Or.inr ⟨by simp, rfl⟩
  | entryAnswered hlock hwire hsent hreact =>
      obtain ⟨-, sent, ack, k, rfl, -, -⟩ := hreact.frame hwf hlock hwire hsent
      exact Or.inr ⟨by simp, rfl⟩
  | deposed | «return» =>
      rw [LaptopFactory.returnTo_metadata]
      exact Or.inr ⟨by simp, rfl⟩

/-- Nobody becomes a candidate but by the test. -/
lemma ThreadStep.candidate (hstep : ThreadStep s f l f' es) (hwf : WellFormed cfg s f)
    (hcandidate : f'.metadata.status = .candidate) :
    f.metadata.status = .candidate ∨ l = .testHeartbeat s ∧ f.metadata.heartbeat = false := by
  cases hstep with
  | timeOut _ _ hheartbeat => exact Or.inr ⟨rfl, hheartbeat⟩
  | readStatus | rest | stand | askVote | countVote | ignoreVote | endVote | queue | maintain
  | replicate | sendLog | heartbeatAnswered | nextRound => exact Or.inl hcandidate
  | elected | outvoted => cases hcandidate
  | fail hlock hlabel hfail =>
      obtain ⟨ack, sent, -, -, -, -, rfl⟩ := failNode_cases hfail
      exact Or.inl hcandidate
  | entryAnswered hlock hwire hsent hreact =>
      obtain ⟨-, sent, ack, k, rfl, -, -⟩ := hreact.frame hwf hlock hwire hsent
      exact Or.inl hcandidate
  | deposed =>
      rw [LaptopFactory.returnTo_metadata] at hcandidate
      cases hcandidate
  | «return» =>
      rw [LaptopFactory.returnTo_metadata] at hcandidate
      exact Or.inl hcandidate

/-- Whatever is handled sets the flag. -/
lemma Served.heartbeat {rpc : Rpc} {md : ServerMetadata} {reply : Reply}
    (h : Served f rpc md reply) : md.heartbeat = true := by
  cases h with
  | vote hfree hanswer =>
      rw [hanswer.state]
      rfl
  | log hfree hvalid hanswer =>
      cases getLogResponse_reply hanswer <;> rfl

end Flag

section Watched

variable {cfg : Config} {ok : Cluster × (ℤ → Bool) → Label → Prop} {p : Cluster × (ℤ → Bool)}
  {tr : List Event}

/-- **The flag records the requests handled.** -/
theorem flag_heard (hrun : (watched cfg).Run ok p tr) (s : ℤ) :
    (p.1.server s).metadata.heartbeat = p.2 s := by
  refine Run.invariant
    (I := fun p _ => ∀ s, (p.1.server s).metadata.heartbeat = p.2 s) ?_ ?_ hrun s
  · rintro ⟨_, heard⟩ ⟨⟨connects, rfl⟩, hheard⟩ s
    obtain rfl : heard = fun _ => false := hheard
    obtain ⟨index, heq, -⟩ := bootMetadata_eq cfg connects s
    change (bootMetadata cfg connects s).heartbeat = false
    rw [heq]
  · rintro ⟨c, heard⟩ tr l ⟨c', heard'⟩ es hrun ih - hst s
    obtain ⟨hst, hheard⟩ := observed_step_iff.1 hst
    obtain rfl : heard' = watchHeard heard c l := hheard
    have hbase := hrun.forget
    change (c'.server s).metadata.heartbeat = watchHeard heard c l s
    have ih : ∀ s, (c.server s).metadata.heartbeat = heard s := ih
    cases hdelivered : c.delivered l with
    | some request =>
        obtain ⟨q, rpc⟩ := request
        obtain ⟨reply, hhandled, -⟩ := handled_of_step hst hdelivered
        rw [watchHeard_delivered hdelivered]
        by_cases hs : s = q
        · subst hs
          rw [Function.update_self]
          exact hhandled.served.heartbeat
        · rw [Function.update_of_ne hs, hhandled.others s hs]
          exact ih s
    | none =>
        obtain ⟨q, f, hq, hstep, hserver, -⟩ | ⟨q, rpc, reply, hsome, -⟩ := step_cases hst
        swap
        · rw [hsome] at hdelivered
          cases hdelivered
        rw [hserver]
        rcases hstep.heartbeat (wellFormed hbase hq) with ⟨rfl, hfalse⟩ | ⟨hl, hkept⟩
        · change _ = Function.update heard q false s
          by_cases hs : s = q
          · subst hs
            rw [Function.update_self, Function.update_self]
            exact hfalse
          · rw [Function.update_of_ne hs, Function.update_of_ne hs]
            exact ih s
        · rw [watchHeard_thread hdelivered hl]
          by_cases hs : s = q
          · subst hs
            rw [Function.update_self, hkept]
            exact ih s
          · rw [Function.update_of_ne hs]
            exact ih s

/-- **A follower suspects its leader** in those tests before which it has handled nothing, and
nobody becomes a candidate otherwise. -/
theorem suspects_iff {c' : Cluster} {l : Label} {es : List Event} (hrun : (watched cfg).Run ok p tr)
    (hst : (system cfg).step p.1 l = some (c', es)) (s : ℤ) :
    (p.1.server s).metadata.status ≠ .candidate ∧ (c'.server s).metadata.status = .candidate ↔
      l = .testHeartbeat s ∧ p.2 s = false := by
  have hflag := flag_heard hrun s
  constructor
  · rintro ⟨hbefore, hafter⟩
    rcases step_server hrun.forget hst s with heq | ⟨hs, hstep⟩ | ⟨rpc, reply, -, hrpc, hserved⟩
    · rw [heq] at hafter
      exact absurd hafter hbefore
    · rcases hstep.candidate (wellFormed hrun.forget hs) hafter with hsame | ⟨hl, hfalse⟩
      · exact absurd hsame hbefore
      · exact ⟨hl, hflag ▸ hfalse⟩
    · have hstored := (wellFormed hrun.forget hrpc.mem).sound.stored
      rcases hserved.status_cases hstored with hfollower | ⟨hsame, -⟩
      · rw [hfollower] at hafter
        cases hafter
      · exact absurd (hsame ▸ hafter) hbefore
  · rintro ⟨rfl, hunheard⟩
    rw [hunheard] at hflag
    obtain ⟨q, f, hq, hstep, hserver, -⟩ | ⟨q, rpc, reply, hsome, -⟩ := step_cases hst
    swap
    · cases hsome
    obtain rfl : s = q := Option.some.inj hstep.actor
    rw [hserver, Function.update_self]
    cases hstep with
    | rest _ _ hheartbeat =>
        rw [hheartbeat] at hflag
        cases hflag
    | timeOut hthread =>
        rw [(timed_of_run hrun.forget hq).follower hthread]
        exact ⟨nofun, rfl⟩
    | countVote _ harrives | ignoreVote _ harrives | elected _ harrives | outvoted _ harrives =>
        rcases harrives with ⟨h, -⟩ | h <;> cases h
    | queue hqueue => cases hqueue
    | fail _ hlabel => rcases hlabel with h | h <;> cases h

end Watched

def watchedBoot (cfg : Config) : Cluster × (ℤ → Bool) := (boot cfg fun _ _ => true, fun _ => false)

theorem suspects_first : ∃ p tr c' es, (watched three).Run anyStep p tr ∧
    (system three).step p.1 (.testHeartbeat 0) = some (c', es) ∧ p.2 0 = false ∧
    (p.1.server 0).metadata.status ≠ .candidate ∧ (c'.server 0).metadata.status = .candidate := by
  obtain ⟨p, tr, hrun, hunheard, hplayed⟩ := run_of_exec (watched three) anyStep
    (watchedBoot three) ⟨⟨_, rfl⟩, rfl⟩ [.readStatus 0]
    (P := fun p _ => p.2 0 = false ∧ ((system three).step p.1 (.testHeartbeat 0)).isSome)
    (by decide +kernel)
  obtain ⟨⟨c', es⟩, hst⟩ := Option.isSome_iff_exists.1 hplayed
  exact ⟨p, tr, c', es, hrun, hst, hunheard, (suspects_iff hrun hst 0).2 ⟨rfl, hunheard⟩⟩

/-! ## The leader's term of office -/

/-- A follower that is not about to do anything else. -/
structure Subordinate (t : ℤ) (f : LaptopFactory) : Prop where
  status : f.metadata.status = .follower
  term : f.metadata.currentTerm ≤ t
  free : f.metaLock = .free
  thread : f.timeoutThread = .top ∨ f.timeoutThread = .branch .follower

/-- The leader of term `t`. -/
structure Rules (t : ℤ) (f : LaptopFactory) : Prop where
  status : f.metadata.status = .leader
  term : f.metadata.currentTerm = t
  answer : ∀ res, f.wire = .response (.log res) → res.currentTerm ≤ t

/-- A request that does not unseat the leader `s` of term `t`. -/
def Harmless (s t p : ℤ) : Rpc → Prop
  | .vote msg => msg.currentTerm ≤ t
  | .log req => req.currentTerm ≤ t ∧ (p = s → req.currentTerm < t)

/-- Server `s` leads in term `t`, and all others follow in that term or an earlier one. -/
structure Reigns (cfg : Config) (s t : ℤ) (c : Cluster) : Prop where
  mem : s ∈ cfg.ids
  rules : Rules t (c.server s)
  others : ∀ q ∈ cfg.ids, q ≠ s → Subordinate t (c.server q)
  pending : ∀ q rpc, (q, rpc) ∈ c.pending → Harmless s t q rpc

/-- The step is no test that finds the flag unset, nobody acts as leader who is not, and what a
broken connection makes up is of no later term. -/
def HeardInTime (p : Cluster × (ℤ → Bool)) (l : Label) : Prop :=
  ActsAsLeader p.1 l ∧
    match l with
    | .testHeartbeat q => p.2 q = true
    | .handleGarbage q msg => msg.currentTerm ≤ (p.1.server q).metadata.currentTerm
    | _ => True

instance (p : Cluster × (ℤ → Bool)) (l : Label) : Decidable (HeardInTime p l) := by
  unfold HeardInTime
  induction l using Label.casesOn <;> infer_instance

section Office

variable {cfg : Config} {s t : ℤ} {f f' : LaptopFactory} {l : Label} {es : List Event}
  {rpc : Rpc} {md : ServerMetadata} {reply : Reply}

lemma Harmless.term_le {p : ℤ} (h : Harmless s t p rpc) : rpc.currentTerm ≤ t := by
  cases rpc with
  | vote msg => exact h
  | log req => exact h.1

lemma ThreadStep.subordinate {c : Cluster} (hstep : ThreadStep s (c.server s) l f' es)
    (hacts : ActsAsLeader c l)
    (hheard : l = .testHeartbeat s → (c.server s).metadata.heartbeat = true)
    (h : Subordinate t (c.server s)) : Subordinate t f' := by
  obtain ⟨hstatus, hterm, hfree, hthread⟩ := h
  cases hstep with
  | readStatus => exact ⟨hstatus, hterm, hfree, Or.inr (congrArg TimeoutThread.branch hstatus)⟩
  | rest => exact ⟨hstatus, hterm, hfree, Or.inl rfl⟩
  | timeOut _ _ hheartbeat =>
      rw [hheard rfl] at hheartbeat
      cases hheartbeat
  | stand hcandidate | replicate hcandidate =>
      rw [hcandidate] at hthread
      rcases hthread with h | h <;> cases h
  | queue => exact ⟨hstatus, hterm, hfree, hthread⟩
  | maintain =>
      have hleader : (c.server s).metadata.status = .leader := hacts
      rw [hstatus] at hleader
      cases hleader
  | askVote hlock | countVote hlock | ignoreVote hlock | elected hlock | outvoted hlock
  | endVote hlock | sendLog hlock | fail hlock | heartbeatAnswered hlock | entryAnswered hlock
  | deposed hlock | nextRound hlock | «return» hlock =>
      rw [hfree] at hlock
      cases hlock

/-- A follower obeys every request, and answers in a term that it has heard of. -/
lemma Served.subordinate (hserved : Served f rpc md reply) (hstored : Stored f.metadata)
    (hrpc : rpc.currentTerm ≤ t) (h : Subordinate t f) :
    Subordinate t { f with metadata := md } ∧
      ∀ res, reply = .log res → res.currentTerm ≤ t := by
  obtain ⟨hstatus, hterm, hfree, hthread⟩ := h
  cases hserved with
  | vote _ hanswer =>
      refine ⟨?_, nofun⟩
      rcases hanswer.cases with ⟨-, rfl⟩ | ⟨-, rfl⟩
      · exact ⟨rfl, hrpc, hfree, hthread⟩
      · exact ⟨hstatus, hterm, hfree, hthread⟩
  | @log req _ res _ _ hlog =>
      have hanswer := getLogResponse_cases hstored hlog
      have hadopted : md.status = .follower ∧ md.currentTerm = req.currentTerm := by
        rw [hanswer.status_eq, hanswer.term_eq]
        rcases adoptLeader_cases f.metadata req with ⟨-, heq⟩ | ⟨-, hnot, -⟩
        · rw [heq]
          exact ⟨rfl, rfl⟩
        · exact absurd hstatus hnot
      have hle : md.currentTerm ≤ t := hadopted.2 ▸ hrpc
      refine ⟨⟨hadopted.1, hle, hfree, hthread⟩, ?_⟩
      rintro _ ⟨⟩
      cases hanswer with
      | refused => exact hle
      | held | extended => exact hrpc

lemma Rules.not_voting (h : Rules t f) (htimed : Timed f) (rest : List ServerNode) :
    f.metaLock ≠ .requestVote rest :=
  fun hvoting => htimed.voting rest hvoting h.status

lemma ThreadStep.rules (hstep : ThreadStep s f l f' es) (hwf : WellFormed cfg s f)
    (htimed : Timed f) (h : Rules t f) : Rules t f' := by
  have hvoting := h.not_voting htimed
  obtain ⟨hstatus, hterm, hanswer⟩ := h
  cases hstep with
  | readStatus | queue | maintain | replicate | nextRound => exact ⟨hstatus, hterm, hanswer⟩
  | rest hthread | timeOut hthread =>
      have hfollower := htimed.follower hthread
      rw [hstatus] at hfollower
      cases hfollower
  | stand hthread => exact absurd hstatus (hwf.flow.candidate hthread)
  | askVote hlock | countVote hlock | ignoreVote hlock | elected hlock | outvoted hlock
  | endVote hlock => exact absurd hlock (hvoting _)
  | sendLog | heartbeatAnswered => exact ⟨hstatus, hterm, nofun⟩
  | fail hlock hlabel hfail =>
      obtain ⟨ack, sent, -, -, -, -, rfl⟩ := failNode_cases hfail
      exact ⟨hstatus, hterm, nofun⟩
  | entryAnswered hlock hwire hsent hreact =>
      obtain ⟨-, sent, ack, k, rfl, -, -⟩ := hreact.frame hwf hlock hwire hsent
      exact ⟨hstatus, hterm, nofun⟩
  | deposed hlock hwire hsent hlt => exact absurd (hanswer _ hwire) (by omega)
  | «return» =>
      refine ⟨?_, ?_, ?_⟩
      · rw [LaptopFactory.returnTo_metadata]
        exact hstatus
      · rw [LaptopFactory.returnTo_metadata]
        exact hterm
      · rw [LaptopFactory.returnTo_wire]
        nofun

/-- The leader disregards the requests of earlier terms, and votes for nobody in its own. -/
lemma Served.rules (hserved : Served f rpc md reply) (hstored : Stored f.metadata)
    (hrpc : Harmless s t s rpc) (h : Rules t f) : Rules t { f with metadata := md } := by
  obtain ⟨hstatus, hterm, hanswer⟩ := h
  cases hserved with
  | @vote msg _ _ _ hvote =>
      have hle : msg.currentTerm ≤ t := hrpc
      rcases hvote.cases with ⟨hlt, -⟩ | ⟨-, rfl⟩
      · omega
      · exact ⟨hstatus, hterm, hanswer⟩
  | @log req _ _ _ _ hlog =>
      have hlt : req.currentTerm < t := hrpc.2 rfl
      have hanswer' := getLogResponse_cases hstored hlog
      rcases adoptLeader_cases f.metadata req with ⟨hle | hfollower, -⟩ | ⟨-, -, heq⟩
      · omega
      · rw [hstatus] at hfollower
        cases hfollower
      · refine ⟨?_, ?_, hanswer⟩
        · change md.status = _
          rw [hanswer'.status_eq, heq]
          exact hstatus
        · change md.currentTerm = _
          rw [hanswer'.term_eq, heq]
          exact hterm

/-- The leader asks for nothing but to follow it. -/
lemma Rules.request (h : Rules t f) (hwf : WellFormed cfg s f) (htimed : Timed f)
    {node : ServerNode} (hwire : f.wire = .request node rpc) : rpc.currentTerm = t := by
  cases rpc with
  | vote msg =>
      obtain ⟨⟨rest, hlock⟩, -⟩ := hwf.flow.voteRequest node msg hwire
      exact absurd hlock (h.not_voting htimed _)
  | log req =>
      obtain ⟨-, hreq⟩ := hwf.flow.logRequest node req hwire
      exact (logRequestFor_cases hreq).term.trans h.term

/-! ### Steps and runs -/

variable {c c' : Cluster} {tr : List Event}

/-- Only the leader waits for an answer. -/
lemma Reigns.quiet (h : Reigns cfg s t c) (hrun : (system cfg).Run anyStep c tr) {q : ℤ}
    (hq : q ∈ cfg.ids) (hne : q ≠ s) : (c.server q).wire = .quiet :=
  (idle_of_run hrun q).quiet (h.others q hq hne).free

lemma Reigns.not_addressed (h : Reigns cfg s t c) (hrun : (system cfg).Run anyStep c tr)
    {node : ServerNode} (hwire : (c.server s).wire = .request node rpc) :
    node.id ∈ cfg.ids ∧ node.id ≠ s :=
  (cfg.mem_peers s h.mem node.id).1
    (List.mem_map_of_mem ((wellFormed hrun h.mem).peer_of_wire hwire))

lemma Reigns.harmless (h : Reigns cfg s t c) (hrun : (system cfg).Run anyStep c tr)
    {node : ServerNode} (hwire : (c.server s).wire = .request node rpc) :
    Harmless s t node.id rpc := by
  have hterm := h.rules.request (wellFormed hrun h.mem) (timed_of_run hrun h.mem) hwire
  cases rpc with
  | vote msg => exact hterm.le
  | log req => exact ⟨hterm.le, fun heq => absurd heq (h.not_addressed hrun hwire).2⟩

/-- A handled request unseats nobody. -/
lemma Reigns.served {p : ℤ} (h : Reigns cfg s t c) (hrun : (system cfg).Run anyStep c tr)
    (hp : p ∈ cfg.ids) (hrpc : Harmless s t p rpc) (hserved : Served (c.server p) rpc md reply)
    (hserver : c'.server = c.withMetadata p md) (hpending : ∀ x ∈ c'.pending, x ∈ c.pending) :
    Reigns cfg s t c' := by
  have hstored := (wellFormed hrun hp).sound.stored
  refine ⟨h.mem, ?_, fun q hq hne => ?_, fun q rpc hin => h.pending q rpc (hpending _ hin)⟩
  · rw [hserver, Cluster.withMetadata]
    by_cases hsp : s = p
    · subst hsp
      rw [Function.update_self]
      exact hserved.rules hstored hrpc h.rules
    · rw [Function.update_of_ne hsp]
      exact h.rules
  · rw [hserver, Cluster.withMetadata]
    by_cases hqp : q = p
    · subst hqp
      rw [Function.update_self]
      exact (hserved.subordinate hstored hrpc.term_le (h.others q hq hne)).1
    · rw [Function.update_of_ne hqp]
      exact h.others q hq hne

/-- One step. -/
lemma Reigns.step {heard : ℤ → Bool} (h : Reigns cfg s t c)
    (hrun : (watched cfg).Run anyStep (c, heard) tr) (hok : HeardInTime (c, heard) l)
    (hst : (system cfg).step c l = some (c', es)) : Reigns cfg s t c' := by
  obtain ⟨hacts, htime⟩ := hok
  have hbase : (system cfg).Run anyStep c tr := hrun.forget
  cases effect_of_step hst with
  | @thread q f _ hq hstep hserver hpending hnone =>
      have htest : l = .testHeartbeat q → (c.server q).metadata.heartbeat = true := by
        rintro rfl
        exact (flag_heard hrun q).trans htime
      refine ⟨h.mem, ?_, fun p hp hne => ?_, fun p rpc hin => ?_⟩
      · rw [hserver]
        by_cases hs : s = q
        · subst hs
          rw [Function.update_self]
          exact hstep.rules (wellFormed hbase hq) (timed_of_run hbase hq) h.rules
        · rw [Function.update_of_ne hs]
          exact h.rules
      · rw [hserver]
        by_cases hpq : p = q
        · subst hpq
          rw [Function.update_self]
          exact hstep.subordinate hacts htest (h.others p hp hne)
        · rw [Function.update_of_ne hpq]
          exact h.others p hp hne
      · rcases hpending _ hin with hold | habandoned
        · exact h.pending p rpc hold
        · obtain ⟨node, hwire, rfl⟩ := Wire.eq_of_mem_abandoned habandoned
          by_cases hs : q = s
          · subst hs
            exact h.harmless hbase hwire
          · rw [h.quiet hbase hq hs] at hwire
            cases hwire
  | @answer q node rpc md reply hq hwire hserved hserver hpending hdelivered =>
      obtain rfl : q = s := by
        by_contra hne
        rw [h.quiet hbase hq hne] at hwire
        cases hwire
      obtain ⟨hnode, hne⟩ := h.not_addressed hbase hwire
      have hharmless := h.harmless hbase hwire
      have hstored := (wellFormed hbase hnode).sound.stored
      -- the handling of the request, before its answer arrives
      have hhandled : Reigns cfg q t { c with server := c.withMetadata node.id md } :=
        h.served hbase hnode hharmless hserved rfl fun x hx => hx
      have hself : c.withMetadata node.id md q = c.server q := Function.update_of_ne hne.symm _ _
      refine ⟨h.mem, ?_, fun p hp hpq => ?_, fun p rpc hin => h.pending p rpc (hpending ▸ hin)⟩
      · rw [hserver, Function.update_self, hself]
        refine ⟨h.rules.status, h.rules.term, fun res hres => ?_⟩
        obtain rfl : reply = .log res := Wire.response.inj hres
        exact (hserved.subordinate hstored hharmless.term_le (h.others _ hnode hne)).2 res rfl
      · rw [hserver, Function.update_of_ne hpq]
        exact hhandled.others p hp hpq
  | @discard p rpc md reply hfrom hserved hserver hpending hdelivered =>
      have hp : p ∈ cfg.ids := (soundRpc_of_delivered hbase (mem_of_step hst) hdelivered).mem
      refine h.served hbase hp ?_ hserved hserver hpending
      rcases c.delivered_cases hdelivered with ⟨q, hq, node, hwire, rfl⟩ | hin |
        ⟨msg, rfl, rfl⟩
      · by_cases hs : q = s
        · subst hs
          exact h.harmless hbase hwire
        · rw [h.quiet hbase (mem_of_step hst q hq) hs] at hwire
          cases hwire
      · exact h.pending p rpc hin
      · -- what a broken connection makes up
        have hmsg : msg.currentTerm ≤ (c.server p).metadata.currentTerm := htime
        by_cases hs : p = s
        · subst hs
          exact hmsg.trans h.rules.term.le
        · exact hmsg.trans (h.others p hp hs).term

end Office

end LaptopRaft
