import LaptopRaft.Framework.Observer
import LaptopRaft.Properties.Replay
import LaptopRaft.Replication.Leadership

/-!
# What becomes of the updates of a customer

An update request goes from its connection into `erq`, from there to a `LeaderThread`, and from
the `LeaderThread` into `smr_log`, at its own pace; the reply goes back from the second of these.
The states of a server do not record which request an entry of the log came from, so the cluster
is observed: `Journal` is what an observer of one server writes down, and `journaled` is the
cluster with one for each server.

`seen_of_step` is a step of the journaled cluster as one server sees it.
-/

namespace LaptopRaft

open ServerMetadata

/-- What is written down about a server. -/
structure Journal where
  /-- The update requests that have arrived, in this order. -/
  sent : List CustomerRequest := []
  /-- The `LeaderThread`s that wait for `meta_lock` with a request, in the order in which they
  took it from `erq`. -/
  line : List (Fin 4) := []
  /-- The `LeaderThread` that took the last request of a connection from `erq`. -/
  taker : ℕ → Option (Fin 4) := fun _ => none
  /-- Where in `smr_log` the last request of a connection was appended. -/
  place : ℕ → Option ℕ := fun _ => none
  /-- The replies that have been shipped. -/
  shipped : List LaptopInfo := []

/-- What a step of the server's own threads adds. -/
def Journal.watch (j : Journal) (f : LaptopFactory) : Label → Journal
  | .createLaptop _ stub request =>
      { j with
        sent := j.sent ++ [request]
        taker := Function.update j.taker stub none
        place := Function.update j.place stub none }
  | .dequeue _ i =>
      match f.erq with
      | req :: _ =>
          { j with
            line := j.line ++ [i]
            taker := Function.update j.taker req.stub (some i) }
      | [] => j
  | .leaderMaintainLog _ i _ =>
      match f.leaderThread i with
      | some req =>
          { j with
            line := j.line.erase i
            place := if j.taker req.stub = some i then
                Function.update j.place req.stub (some f.metadata.smrLog.length)
              else j.place }
      | none => j
  | .shipLaptop _ stub =>
      match f.customer stub with
      | .resolved laptop => { j with shipped := j.shipped ++ [laptop] }
      | _ => j
  | _ => j

def watchJournals (js : ℤ → Journal) (c : Cluster) (l : Label) : ℤ → Journal :=
  match l.actor with
  | some s => Function.update js s ((js s).watch (c.server s) l)
  | none => js

/-- **The cluster, with a journal for each server.** -/
def journaled (cfg : Config) : TransitionSystem (Cluster × (ℤ → Journal)) Label Event :=
  (system cfg).observed watchJournals fun _ => {}

lemma watchJournals_of_actor {js : ℤ → Journal} {c : Cluster} {l : Label} {s : ℤ}
    (h : l.actor = some s) :
    watchJournals js c l = Function.update js s ((js s).watch (c.server s) l) := by
  unfold watchJournals
  rw [h]

/-- Nothing is written down when a request is handled. -/
lemma watchJournals_of_delivered {js : ℤ → Journal} {c : Cluster} {l : Label} {r : ℤ × Rpc}
    (h : c.delivered l = some r) : watchJournals js c l = js := by
  cases l with
  | handle s | handleGarbage s msg => exact Function.update_eq_self s js
  | handlePending k => rfl
  | _ => cases h

/-- A step of the journaled cluster, as server `q` sees it. -/
inductive Seen (cfg : Config) (q : ℤ) (l : Label) (f f' : LaptopFactory) (j j' : Journal) : Prop
  | thread {es : List Event} (hmem : q ∈ cfg.ids) (hstep : ThreadStep q f l f' es)
      (hjournal : j' = j.watch f l)
  | served {rpc : Rpc} {md : ServerMetadata} {reply : Reply} (hserved : Served f rpc md reply)
      (hserver : f' = { f with metadata := md }) (hjournal : j' = j)
  | answered {reply : Reply} (hserver : f' = { f with wire := .response reply })
      (hjournal : j' = j)
  | same (hserver : f' = f) (hjournal : j' = j)

/-! ## The path of an update -/

/-- `LeaderThread` `i` is inside `LeaderMaintainLog`, past the append. -/
def LaptopFactory.Maintains (f : LaptopFactory) (i : Fin 4) : Prop :=
  ∃ loop, f.metaLock = .replicateLog (.leaderThread i) loop

/-- A step, as far as the updates of server `q` are concerned. -/
inductive UpdateStep (q : ℤ) (l : Label) (f f' : LaptopFactory) (j j' : Journal) : Prop
  | arrive {stub : ℕ} {request : CustomerRequest} (hlabel : l = .createLaptop q stub request)
      (hidle : f.customer stub = .idle)
      (hserver : f' = { f with
        erq := f.erq ++ [⟨LaptopInfo.ofRequest request stub, stub⟩]
        customer := Function.update f.customer stub .waiting })
      (hjournal : j' = { j with
        sent := j.sent ++ [request]
        taker := Function.update j.taker stub none
        place := Function.update j.place stub none })
  | take {i : Fin 4} {req : LeaderRequest} {rest : List LeaderRequest} (hlabel : l = .dequeue q i)
      (herq : f.erq = req :: rest) (hidle : f.leaderThread i = none)
      (hserver : f' = { f with
        erq := rest
        leaderThread := Function.update f.leaderThread i
          (some { req with laptop := { req.laptop with adminId := i } })
        customer := Function.update f.customer req.stub
          (.resolved { req.laptop with adminId := i }) })
      (hjournal : j' = { j with
        line := j.line ++ [i]
        taker := Function.update j.taker req.stub (some i) })
  | ship {stub : ℕ} {laptop : LaptopInfo} (hlabel : l = .shipLaptop q stub)
      (hresolved : f.customer stub = .resolved laptop)
      (hserver : f' = { f with customer := Function.update f.customer stub .idle })
      (hjournal : j' = { j with shipped := j.shipped ++ [laptop] })
  | append {i : Fin 4} {req : LeaderRequest} {accepts : List Bool} {ack : List ℤ}
      (hlabel : l = .leaderMaintainLog q i accepts) (hreq : f.leaderThread i = some req)
      (hfree : f.metaLock = .free)
      (hserver : f' = f.enterReplicateLog (.leaderThread i)
        ((f.metadata.reconnected accepts).maintained (f.metadata.newEntry req) ack))
      (hjournal : j' = { j with
        line := j.line.erase i
        place := if j.taker req.stub = some i then
            Function.update j.place req.stub (some f.metadata.smrLog.length)
          else j.place })
  | leave {i : Fin 4} (hlock : f.Maintains i) (hfree : f'.metaLock = .free)
      (hthread : f'.leaderThread = Function.update f.leaderThread i none)
      (herq : f'.erq = f.erq) (hcustomer : f'.customer = f.customer)
      (hlog : f'.metadata.smrLog = f.metadata.smrLog) (hjournal : j' = j)
  | other (hthread : f'.leaderThread = f.leaderThread) (herq : f'.erq = f.erq)
      (hcustomer : f'.customer = f.customer) (hlock : ∀ i, f'.Maintains i ↔ f.Maintains i)
      (hlog : f'.metadata.smrLog = f.metadata.smrLog ∨ f'.metadata.status = .follower)
      (hjournal : j' = j)

namespace LaptopFactory

lemma not_maintains_of_free {f : LaptopFactory} (hfree : f.metaLock = .free) (i : Fin 4) :
    ¬ f.Maintains i := by
  rintro ⟨loop, hlock⟩
  rw [hfree] at hlock
  cases hlock

lemma maintains_iff_of_caller {f : LaptopFactory} {caller : Caller} {loop : ReplicateLoop}
    (hlock : f.metaLock = .replicateLog caller loop) (i : Fin 4) :
    f.Maintains i ↔ caller = .leaderThread i := by
  unfold Maintains
  rw [hlock]
  constructor
  · rintro ⟨loop', h⟩
    exact (MetaLock.replicateLog.inj h).1
  · rintro rfl
    exact ⟨loop, rfl⟩

lemma not_maintains_of_vote {f : LaptopFactory} {rest : List ServerNode}
    (hlock : f.metaLock = .requestVote rest) (i : Fin 4) : ¬ f.Maintains i := by
  rintro ⟨loop, h⟩
  rw [hlock] at h
  cases h

end LaptopFactory

section Steps

variable {cfg : Config} {s : ℤ} {f f' : LaptopFactory} {l : Label} {es : List Event}

/-- A handler that leaves its server a leader has not touched the log. -/
lemma Served.log_or_follower {rpc : Rpc} {md : ServerMetadata} {reply : Reply}
    (hserved : Served f rpc md reply) (hstored : Stored f.metadata) :
    md.smrLog = f.metadata.smrLog ∨ md.status = .follower := by
  cases hserved with
  | vote hfree hanswer =>
      rw [hanswer.frame]
      exact Or.inl rfl
  | @log req _ res hfree hvalid hanswer =>
      have hanswer := getLogResponse_cases hstored hanswer
      rcases adoptLeader_cases f.metadata req with ⟨-, heq⟩ | ⟨hlt, -, heq⟩
      · refine Or.inr ?_
        rw [hanswer.status_eq, heq]
      · -- the term of the request is too low for an entry
        refine Or.inl ?_
        cases hanswer with
        | refused hno =>
            rw [heq]
            rfl
        | held hterm | extended hterm =>
            rw [heq] at hterm
            omega

/-- A vote that arrives is not written down. -/
lemma VoteArrives.watch {res : RequestVoteResponse} (h : VoteArrives s f l res) (j : Journal) :
    j.watch f l = j := by
  rcases h with ⟨rfl, -⟩ | rfl <;> rfl

lemma QueueStep.updateStep {erq : List LeaderRequest}
    {leaderThread : Fin 4 → Option LeaderRequest} {customer : ℕ → Customer}
    (h : QueueStep s f l erq leaderThread customer es) (j : Journal) :
    UpdateStep s l f { f with erq := erq, leaderThread := leaderThread, customer := customer }
      j (j.watch f l) := by
  cases h with
  | create hidle => exact .arrive rfl hidle rfl rfl
  | dequeue herq hidle =>
      refine .take rfl herq hidle rfl ?_
      simp only [Journal.watch, herq]
  | ship hresolved =>
      refine .ship rfl hresolved rfl ?_
      simp only [Journal.watch, hresolved]

/-- A step that touches neither the log nor the updates. -/
lemma UpdateStep.of_lock {j j' : Journal} {md : ServerMetadata} {lock : MetaLock} {wire : Wire}
    {thread : TimeoutThread} (hlog : md.smrLog = f.metadata.smrLog)
    (hlock : ∀ i, LaptopFactory.Maintains
      { f with metadata := md, metaLock := lock, wire := wire, timeoutThread := thread } i ↔
        f.Maintains i) (hjournal : j' = j) :
    UpdateStep s l f
      { f with metadata := md, metaLock := lock, wire := wire, timeoutThread := thread } j j' :=
  .other rfl rfl rfl hlock (Or.inl hlog) hjournal

/-- A step of `ReplicateLog` within a call. -/
lemma updateStep_of_loop {caller : Caller} {loop loop' : ReplicateLoop} {md : ServerMetadata}
    {wire : Wire} (hlock : f.metaLock = .replicateLog caller loop)
    (hlog : md.smrLog = f.metadata.smrLog) (j : Journal) :
    UpdateStep s l f { f with metadata := md, metaLock := .replicateLog caller loop', wire := wire }
      j j := by
  refine .of_lock hlog (fun i => ?_) rfl
  rw [LaptopFactory.maintains_iff_of_caller rfl, LaptopFactory.maintains_iff_of_caller hlock]

/-- The end of `ReplicateLog`, for either caller. -/
lemma updateStep_of_return {caller : Caller} {loop : ReplicateLoop} {md : ServerMetadata}
    (hlock : f.metaLock = .replicateLog caller loop) (hlog : md.smrLog = f.metadata.smrLog)
    (j : Journal) :
    UpdateStep s l f (LaptopFactory.returnTo { f with metadata := md } caller) j j := by
  cases caller with
  | timeoutThread =>
      refine .of_lock hlog (fun i => ?_) rfl
      rw [LaptopFactory.maintains_iff_of_caller hlock]
      exact iff_of_false (LaptopFactory.not_maintains_of_free rfl i) nofun
  | leaderThread i => exact .leave ⟨loop, hlock⟩ rfl rfl rfl rfl hlog rfl

lemma ThreadStep.updateStep (h : ThreadStep s f l f' es) (hwf : WellFormed cfg s f)
    (j : Journal) : UpdateStep s l f f' j (j.watch f l) := by
  have hvote : ∀ {rest}, f.metaLock = .requestVote rest → ∀ i, ¬ f.Maintains i :=
    LaptopFactory.not_maintains_of_vote
  have hidle : f.metaLock = .free → ∀ i, ¬ f.Maintains i :=
    LaptopFactory.not_maintains_of_free
  cases h with
  | readStatus | rest | timeOut | askVote | sendLog => exact .of_lock rfl (fun i => Iff.rfl) rfl
  | stand hthread hfree =>
      exact .of_lock rfl (fun i => iff_of_false
        (LaptopFactory.not_maintains_of_vote rfl i) (hidle hfree i)) rfl
  | countVote hlock harrives | ignoreVote hlock harrives =>
      exact .of_lock rfl (fun i => iff_of_false
        (LaptopFactory.not_maintains_of_vote rfl i) (hvote hlock i)) (harrives.watch j)
  | elected hlock harrives | outvoted hlock harrives =>
      exact .of_lock rfl (fun i => iff_of_false
        (LaptopFactory.not_maintains_of_free rfl i) (hvote hlock i)) (harrives.watch j)
  | endVote hlock =>
      exact .of_lock rfl (fun i => iff_of_false
        (LaptopFactory.not_maintains_of_free rfl i) (hvote hlock i)) rfl
  | queue hqueue => exact hqueue.updateStep j
  | maintain hreq hfree haccepts hack hlt =>
      refine .append rfl hreq hfree rfl ?_
      simp only [Journal.watch, hreq]
  | replicate hthread hfree =>
      refine .of_lock rfl (fun i => iff_of_false ?_ (hidle hfree i)) rfl
      rintro ⟨loop, hlock⟩
      cases hlock
  | fail hlock hlabel hfail =>
      obtain ⟨ack, sent, -, -, -, -, rfl⟩ := failNode_cases hfail
      have hsilent : j.watch f l = j := by
        rcases hlabel with rfl | rfl <;> rfl
      rw [hsilent]
      refine updateStep_of_loop hlock ?_ j
      rfl
  | heartbeatAnswered hlock | nextRound hlock =>
      refine updateStep_of_loop hlock ?_ j
      rfl
  | entryAnswered hlock hwire hsent hreact =>
      obtain ⟨-, sent, ack, k, rfl, -⟩ := hreact.frame hwf hlock hwire hsent
      refine updateStep_of_loop hlock ?_ j
      rfl
  | @deposed caller node rest new change res hlock =>
      have hlog : (f.metadata.demoted res.currentTerm).smrLog = f.metadata.smrLog := rfl
      exact updateStep_of_return hlock hlog j
  | @«return» caller new hlock =>
      have hlog : ({ f.metadata with nodeSocket := new } : ServerMetadata).smrLog =
          f.metadata.smrLog := rfl
      exact updateStep_of_return hlock hlog j

end Steps

section Runs

variable {cfg : Config} {ok : Cluster × (ℤ → Journal) → Label → Prop}
  {p p' : Cluster × (ℤ → Journal)} {l : Label} {tr es : List Event}

theorem seen_of_step (hrun : (journaled cfg).Run ok p tr)
    (hst : (journaled cfg).step p l = some (p', es)) (q : ℤ) :
    Seen cfg q l (p.1.server q) (p'.1.server q) (p.2 q) (p'.2 q) := by
  obtain ⟨hst, hjournals⟩ := TransitionSystem.observed_step_iff.1 hst
  have hserved : ∀ {n rpc md reply}, p.1.delivered l = some (n, rpc) →
      Served (p.1.server n) rpc md reply → p'.1.server q = p.1.withMetadata n md q →
      Seen cfg q l (p.1.server q) (p'.1.server q) (p.2 q) (p'.2 q) := by
    intro n rpc md reply hdelivered hserved hserver
    rw [watchJournals_of_delivered hdelivered] at hjournals
    unfold Cluster.withMetadata at hserver
    by_cases hq : q = n
    · subst hq
      rw [Function.update_self] at hserver
      exact .served hserved hserver (by rw [hjournals])
    · rw [Function.update_of_ne hq] at hserver
      exact .same hserver (by rw [hjournals])
  cases effect_of_step hst with
  | @thread s f _ hmem hstep hserver hpending hnone =>
      rw [watchJournals_of_actor hstep.actor] at hjournals
      by_cases hq : q = s
      · subst hq
        have hself : p'.1.server q = f := by rw [hserver, Function.update_self]
        rw [hself]
        exact .thread hmem hstep (by rw [hjournals, Function.update_self])
      · exact .same (by rw [hserver, Function.update_of_ne hq])
          (by rw [hjournals, Function.update_of_ne hq])
  | @answer s node rpc md reply hmem hwire hserved' hserver hpending hdelivered =>
      by_cases hq : q = s
      · subst hq
        have hsame : p.1.withMetadata node.id md q = p.1.server q :=
          Function.update_of_ne (ne_of_served hrun.forget hwire hserved') _ _
        rw [watchJournals_of_delivered hdelivered] at hjournals
        have hself : p'.1.server q = { p.1.server q with wire := .response reply } := by
          rw [hserver, Function.update_self, hsame]
        exact .answered hself (by rw [hjournals])
      · exact hserved hdelivered hserved' (by rw [hserver, Function.update_of_ne hq])
  | @discard n rpc md reply hfrom hserved' hserver hpending hdelivered =>
      exact hserved hdelivered hserved' (by rw [hserver])

/-- **A step of the journaled cluster, as far as the updates of server `q` are concerned.** -/
theorem updateStep_of_step (hrun : (journaled cfg).Run ok p tr)
    (hst : (journaled cfg).step p l = some (p', es)) {q : ℤ} (hq : q ∈ cfg.ids) :
    UpdateStep q l (p.1.server q) (p'.1.server q) (p.2 q) (p'.2 q) := by
  cases seen_of_step hrun hst q with
  | thread hmem hstep hjournal =>
      rw [hjournal]
      exact hstep.updateStep (wellFormed hrun.forget hmem) (p.2 q)
  | served hserved hserver hjournal =>
      rw [hjournal, hserver]
      exact .other rfl rfl rfl (fun i => Iff.rfl)
        (hserved.log_or_follower (wellFormed hrun.forget hq).sound.stored) rfl
  | answered hserver hjournal | same hserver hjournal =>
      rw [hjournal, hserver]
      exact .of_lock rfl (fun i => Iff.rfl) rfl

/-- **Invariants of one server and its journal.** -/
theorem journal_invariant {P : LaptopFactory → Journal → Prop} {q : ℤ} (hq : q ∈ cfg.ids)
    (hboot : ∀ connects, P ((boot cfg connects).server q) {})
    (hstep : ∀ p tr l p' es, (journaled cfg).Run ok p tr → ok p l →
      (journaled cfg).step p l = some (p', es) →
      UpdateStep q l (p.1.server q) (p'.1.server q) (p.2 q) (p'.2 q) →
      P (p.1.server q) (p.2 q) → P (p'.1.server q) (p'.2 q))
    (hrun : (journaled cfg).Run ok p tr) : P (p.1.server q) (p.2 q) := by
  refine TransitionSystem.Run.invariant (I := fun p _ => P (p.1.server q) (p.2 q)) ?_ ?_ hrun
  · rintro ⟨c, js⟩ ⟨⟨connects, hc⟩, hjs⟩
    subst hc
    change js = _ at hjs
    subst hjs
    exact hboot connects
  · exact fun p tr l p' es hrun hP hok hst =>
      hstep p tr l p' es hrun hok hst (updateStep_of_step hrun hst hq) hP

end Runs

/-! ## Scripts -/

section Play

variable (cfg : Config) (ok : Cluster × (ℤ → Journal) → Label → Prop)
  [∀ p l, Decidable (ok p l)]

/-- Start-up with every connection accepted. -/
def journaledBoot : Cluster × (ℤ → Journal) := (boot cfg fun _ _ => true, fun _ => {})

/-- A run, and a path that goes on from it. -/
theorem path_of_playJournaled
    {P : Cluster × (ℤ → Journal) → Cluster × (ℤ → Journal) → Prop} [∀ p p', Decidable (P p p')]
    (before after : List Label)
    (h : ((journaled cfg).exec TransitionSystem.anyStep (journaledBoot cfg) [] before).any fun r =>
      ((journaled cfg).exec ok r.1 r.2 after).any fun r' => P r.1 r'.1) :
    ∃ r r', (journaled cfg).Run TransitionSystem.anyStep r.1 r.2 ∧
      (journaled cfg).Path ok r r' ∧ P r.1 r'.1 := by
  rw [Option.any_eq_true] at h
  obtain ⟨r, hbefore, h⟩ := h
  rw [Option.any_eq_true] at h
  obtain ⟨r', hafter, hP⟩ := h
  exact ⟨r, r', TransitionSystem.exec_run (.init ⟨⟨_, rfl⟩, rfl⟩) hbefore,
    TransitionSystem.exec_path hafter, of_decide_eq_true hP⟩

end Play

end LaptopRaft
