import LaptopRaft.Framework.WaitsFor
import LaptopRaft.Model.Scenario
import LaptopRaft.Properties.Reach

/-!
# Servers that wait for each other

`RequestVote` and `ReplicateLog` hold `meta_lock` while they wait for a response, and the response
is computed by a handler that needs the addressee's `meta_lock`.  A cycle of servers that wait for
each other is therefore a deadlock: none of their requests can be handled (`stuck_of_cycle`).

Nothing in the source prevents one.  Two candidates that solicit each other are enough
(`candidates_deadlock`); so is a leader that replicates to a server that is soliciting it.  A cycle
is closed by a request to a server that waits already, and only if start-up left a chain of
connections from there back to the sender: `no_deadlock` is about the runs in which no request is of
that kind.
-/

namespace LaptopRaft

open Relation

namespace Cluster

/-- `s` holds its `meta_lock` and waits for the response of `p`. -/
def WaitsFor (c : Cluster) (s p : ℤ) : Prop :=
  (c.server s).metaLock ≠ .free ∧
    ∃ node rpc, (c.server s).wire = .request node rpc ∧ node.id = p

end Cluster

/-- The server has a request outstanding. -/
def LaptopFactory.waits (f : LaptopFactory) : Bool :=
  match f.wire with
  | .request _ _ => true
  | _ => false

/-- The server that is asked does not wait for a response itself. -/
def AsksIdle (c : Cluster) : Label → Prop
  | .sendRequestVote s | .sendLogRequest s =>
      ∀ node ∈ (c.server s).callee, (c.server node.id).waits = false
  | _ => True

/-- Start-up left no chain of connections from the server that is asked to the one that asks. -/
def AsksAway (cfg : Config) (connects : ℤ → ServerNode → Bool) (c : Cluster) : Label → Prop
  | .sendRequestVote s | .sendLogRequest s =>
      ∀ node ∈ (c.server s).callee, ¬ ReflTransGen (cfg.Reaches connects) node.id s
  | _ => True

instance (c : Cluster) (l : Label) : Decidable (AsksIdle c l) := by
  induction l using Label.casesOn <;> dsimp only [AsksIdle] <;> infer_instance

/-- No request is sent to a server that waits, through a chain of others, for the sender. -/
def ClosesNoCycle (c : Cluster) : Label → Prop
  | .sendRequestVote s | .sendLogRequest s =>
      ∀ node ∈ (c.server s).callee, ¬ ReflTransGen c.WaitsFor node.id s
  | _ => True

/-! ## Steps -/

section Steps

variable {cfg : Config} {s : ℤ} {f f' : LaptopFactory} {l : Label} {es : List Event}

/-- Only a request that is sent makes a thread wait. -/
lemma ThreadStep.waits (hstep : ThreadStep s f l f' es) (hidle : Idle f)
    (hlock : f'.metaLock ≠ .free) {node : ServerNode} {rpc : Rpc}
    (hwire : f'.wire = .request node rpc) :
    (f.metaLock ≠ .free ∧ f.wire = .request node rpc) ∨
      (f.callee = some node ∧ (l = .sendRequestVote s ∨ l = .sendLogRequest s)) := by
  have hquiet : f.metaLock = .free → f.wire ≠ .request node rpc := by
    intro hfree hrequest
    rw [hidle.quiet hfree] at hrequest
    cases hrequest
  cases hstep with
  | readStatus | queue => exact Or.inl ⟨hlock, hwire⟩
  | rest hthread hfree | timeOut hthread hfree | stand hthread hfree | replicate hthread hfree =>
      exact absurd hwire (hquiet hfree)
  | maintain hreq hfree => exact absurd hwire (hquiet hfree)
  | askVote hlock' =>
      obtain ⟨rfl, -⟩ := Wire.request.inj hwire
      exact Or.inr ⟨by simp [LaptopFactory.callee, hlock'], Or.inl rfl⟩
  | sendLog hlock' =>
      obtain ⟨rfl, -⟩ := Wire.request.inj hwire
      exact Or.inr ⟨by simp [LaptopFactory.callee, hlock'], Or.inr rfl⟩
  | countVote | ignoreVote | elected | outvoted | fail | heartbeatAnswered | entryAnswered =>
      cases hwire
  | endVote => exact absurd rfl hlock
  | deposed | «return» => exact absurd (LaptopFactory.returnTo_metaLock _ _) hlock
  | nextRound hlock' => exact Or.inl ⟨by simp [hlock'], hwire⟩

lemma Cluster.WaitsFor.withMetadata {c : Cluster} {p q r : ℤ} {md : ServerMetadata}
    (h : (c.withMetadata p md q).metaLock ≠ .free ∧
      ∃ node rpc, (c.withMetadata p md q).wire = .request node rpc ∧ node.id = r) :
    c.WaitsFor q r := by
  have hsame : (c.withMetadata p md q).metaLock = (c.server q).metaLock ∧
      (c.withMetadata p md q).wire = (c.server q).wire := by
    unfold Cluster.withMetadata
    by_cases hqp : q = p
    · subst hqp
      rw [Function.update_self]
      exact ⟨rfl, rfl⟩
    · rw [Function.update_of_ne hqp]
      exact ⟨rfl, rfl⟩
  rw [hsame.1, hsame.2] at h
  exact h

/-- A step closes no cycle. -/
lemma acyclic_step {ok : Cluster → Label → Prop} {c c' : Cluster} {tr : List Event}
    (hrun : (system cfg).Run ok c tr) (hok : ClosesNoCycle c l)
    (hst : (system cfg).step c l = some (c', es)) (h : Acyclic c.WaitsFor) :
    Acyclic c'.WaitsFor := by
  cases effect_of_step hst with
  | @thread s f _ hmem hstep hserver =>
      have hcases : ∀ x y, c'.WaitsFor x y → c.WaitsFor x y ∨
          (x = s ∧ ∃ node ∈ (c.server s).callee, node.id = y ∧
            (l = .sendRequestVote s ∨ l = .sendLogRequest s)) := by
        rintro x y ⟨hlock, node, rpc, hwire, rfl⟩
        rw [hserver] at hlock hwire
        by_cases hxs : x = s
        · subst hxs
          rw [Function.update_self] at hlock hwire
          rcases hstep.waits (idle_of_run hrun x) hlock hwire with
            ⟨hlock, hwire⟩ | ⟨hcallee, hlabel⟩
          · exact Or.inl ⟨hlock, node, rpc, hwire, rfl⟩
          · exact Or.inr ⟨rfl, node, hcallee, rfl, hlabel⟩
        · rw [Function.update_of_ne hxs] at hlock hwire
          exact Or.inl ⟨hlock, node, rpc, hwire, rfl⟩
      by_cases hsends : ∃ node ∈ (c.server s).callee,
          l = .sendRequestVote s ∨ l = .sendLogRequest s
      · obtain ⟨node, hcallee, hlabel⟩ := hsends
        have hnot : ¬ ReflTransGen c.WaitsFor node.id s := by
          rcases hlabel with rfl | rfl <;> exact hok node hcallee
        refine h.add (fun x y hwaits => (hcases x y hwaits).imp_right ?_) hnot
        rintro ⟨rfl, node', hcallee', rfl, -⟩
        rw [Option.mem_unique hcallee hcallee']
        exact ⟨rfl, rfl⟩
      · refine h.mono fun x y hwaits => (hcases x y hwaits).resolve_right ?_
        rintro ⟨-, node, hcallee, -, hlabel⟩
        exact hsends ⟨node, hcallee, hlabel⟩
  | @answer s node rpc md reply hmem hwire hserved hserver =>
      refine h.mono fun x y hwaits => ?_
      unfold Cluster.WaitsFor at hwaits
      rw [hserver] at hwaits
      by_cases hxs : x = s
      · subst hxs
        rw [Function.update_self] at hwaits
        obtain ⟨-, node', rpc', hresponse, -⟩ := hwaits
        cases hresponse
      · rw [Function.update_of_ne hxs] at hwaits
        exact .withMetadata hwaits
  | discard hfrom hserved hserver =>
      refine h.mono fun x y hwaits => ?_
      unfold Cluster.WaitsFor at hwaits
      rw [hserver] at hwaits
      exact .withMetadata hwaits

end Steps

/-- Servers on a cycle stay there: their requests are not handled. -/
theorem stuck_of_cycle {c : Cluster} {s : ℤ} (h : TransGen c.WaitsFor s s) :
    c.handle s = none := by
  obtain ⟨p, q, ⟨-, node, rpc, hwire, rfl⟩, hheld, -⟩ := waits_of_cycle h
  have hserve : (c.server node.id).serve rpc = none := by
    cases rpc with
    | vote msg => exact if_neg hheld
    | log req => exact if_neg fun hguard => hheld hguard.1
  unfold Cluster.handle
  rw [hwire]
  simp [Cluster.serveAt, hserve]

section Runs

variable {cfg : Config} {connects : ℤ → ServerNode → Bool} {c : Cluster} {s p : ℤ}
  {tr : List Event} {l : Label}

/-- Only members hold their lock. -/
lemma free_of_not_mem {ok : Cluster → Label → Prop} (hrun : (system cfg).Run ok c tr)
    (hs : s ∉ cfg.ids) : (c.server s).metaLock = .free := by
  refine run_forall_server (P := fun s f _ => s ∉ cfg.ids → f.metaLock = .free) ?_ ?_ ?_ ?_ ?_
    hrun s hs
  · exact fun _ _ _ => rfl
  · exact fun _ _ _ _ _ h => h
  · exact fun _ _ _ _ _ _ _ _ hmem _ _ hnot => absurd hmem hnot
  · exact fun _ _ _ _ _ _ _ _ _ _ _ h => h
  · exact fun _ _ _ _ _ _ _ _ hmem _ _ _ hnot => absurd hmem hnot

/-- Waits stay within what start-up reached. -/
lemma Confined.reaches_of_waits {ok : Cluster → Label → Prop}
    (h : Confined cfg (cfg.Reaches connects) c) (hrun : (system cfg).Run ok c tr)
    (hwaits : c.WaitsFor s p) : cfg.Reaches connects s p := by
  obtain ⟨hheld, node, rpc, hwire, rfl⟩ := hwaits
  have hs : s ∈ cfg.ids := by
    by_contra hnot
    exact hheld (free_of_not_mem hrun hnot)
  exact h.callee hrun hs hwire

/-- Nobody reaches itself. -/
lemma Config.Reaches.ne (h : cfg.Reaches connects s p) : p ≠ s := by
  obtain ⟨hs, hp⟩ := h
  obtain ⟨node, hpeer, -, rfl⟩ := Config.mem_reached.1 hp
  exact ((cfg.mem_peers s hs node.id).1 (List.mem_map_of_mem hpeer)).2

lemma AsksIdle.closesNoCycle (h : Confined cfg (cfg.Reaches connects) c)
    (hmem : ∀ s ∈ l.actor, s ∈ cfg.ids) (hidle : AsksIdle c l) : ClosesNoCycle c l := by
  have hnot : ∀ {s}, s ∈ cfg.ids → ∀ node ∈ (c.server s).callee,
      (c.server node.id).waits = false → ¬ ReflTransGen c.WaitsFor node.id s := by
    intro s hs node hcallee hquiet
    have hne : node.id ≠ s := (h.contacts s hs node (mem_contacts_of_callee hcallee)).ne
    refine not_chain_of_idle (fun y hwaits => ?_) hne
    obtain ⟨-, node', rpc, hwire, -⟩ := hwaits
    rw [LaptopFactory.waits, hwire] at hquiet
    cases hquiet
  unfold ClosesNoCycle
  split
  · exact fun node hcallee => hnot (hmem _ rfl) node hcallee (hidle node hcallee)
  · exact fun node hcallee => hnot (hmem _ rfl) node hcallee (hidle node hcallee)
  · trivial

lemma AsksAway.closesNoCycle {ok : Cluster → Label → Prop}
    (h : Confined cfg (cfg.Reaches connects) c) (hrun : (system cfg).Run ok c tr)
    (haway : AsksAway cfg connects c l) : ClosesNoCycle c l := by
  have hmono : ∀ {s p}, ReflTransGen c.WaitsFor p s → ReflTransGen (cfg.Reaches connects) p s :=
    fun hchain => ReflTransGen.mono (fun _ _ => h.reaches_of_waits hrun) _ _ hchain
  unfold ClosesNoCycle
  split
  · exact fun node hcallee hchain => haway node hcallee (hmono hchain)
  · exact fun node hcallee hchain => haway node hcallee (hmono hchain)
  · trivial

/-- **No distributed deadlock**, in every run from a start-up in which each request goes to a server
that does not wait for a response itself, or from which start-up left no chain of connections back
to the sender. -/
theorem no_deadlock
    (hpath : (system cfg).Path (fun c l => AsksIdle c l ∨ AsksAway cfg connects c l)
      (boot cfg connects, []) (c, tr)) : Acyclic c.WaitsFor := by
  have hstart : (system cfg).Run TransitionSystem.anyStep (boot cfg connects) [] :=
    .init ⟨connects, rfl⟩
  have hinvariant : Confined cfg (cfg.Reaches connects) c ∧ Acyclic c.WaitsFor := by
    refine TransitionSystem.Path.invariant
      (I := fun c => Confined cfg (cfg.Reaches connects) c ∧ Acyclic c.WaitsFor) ?_ hpath hstart
      ⟨confined_boot cfg connects, fun x hcycle => ?_⟩
    · rintro c tr l c' es hrun hok hst ⟨hconfined, hacyclic⟩
      refine ⟨hconfined.step hrun hst, acyclic_step hrun ?_ hst hacyclic⟩
      rcases hok with hidle | haway
      · exact hidle.closesNoCycle hconfined (mem_of_step hst)
      · exact haway.closesNoCycle hconfined hrun
    · obtain ⟨p, -, ⟨hheld, -⟩, -⟩ := waits_of_cycle hcycle
      exact hheld rfl
  exact hinvariant.2

end Runs

theorem no_deadlock_oneUpdate : ∃ c tr,
    (system three).Path (fun c l => AsksIdle c l ∨ AsksAway three (fun _ _ => true) c l)
      (boot three fun _ _ => true, []) (c, tr) ∧
    (c.server 2).metadata.commitLength = 1 ∧ Acyclic c.WaitsFor := by
  obtain ⟨c, tr, hpath, hcommit⟩ := path_of_playFrom three AsksIdle
    (P := fun c _ => (c.server 2).metadata.commitLength = 1) (fun _ _ => true) oneUpdate
    (by decide +kernel)
  have hpath' : (system three).Path
      (fun c l => AsksIdle c l ∨ AsksAway three (fun _ _ => true) c l)
      (boot three fun _ _ => true, []) (c, tr) := hpath.mono fun _ _ hok => Or.inl hok
  exact ⟨c, tr, hpath', hcommit, no_deadlock hpath'⟩

/-- A cluster of two. -/
def two : Config := Config.mesh [0, 1] (by decide)

/-- Both servers time out at once, and each asks the other for its vote. -/
theorem candidates_deadlock : ∃ c tr, (system two).Run TransitionSystem.anyStep c tr ∧
    c.WaitsFor 0 1 ∧ c.WaitsFor 1 0 ∧ ¬ Acyclic c.WaitsFor := by
  obtain ⟨c, tr, hrun, ⟨hlock₀, hwire₀⟩, hlock₁, hwire₁⟩ :=
    run_of_play two TransitionSystem.anyStep
    (P := fun c _ => ((c.server 0).metaLock ≠ .free ∧
        (c.server 0).wire = .request ⟨1, 1, "", 0⟩ (.vote ⟨0, 1, 0, 0⟩)) ∧
      (c.server 1).metaLock ≠ .free ∧
        (c.server 1).wire = .request ⟨0, 0, "", 0⟩ (.vote ⟨1, 1, 0, 0⟩))
    (stand 0 ++ stand 1 ++ [.sendRequestVote 0, .sendRequestVote 1]) (by decide +kernel)
  have hfirst : c.WaitsFor 0 1 := ⟨hlock₀, _, _, hwire₀, rfl⟩
  have hsecond : c.WaitsFor 1 0 := ⟨hlock₁, _, _, hwire₁, rfl⟩
  exact ⟨c, tr, hrun, hfirst, hsecond, fun hacyclic => hacyclic 0 (.tail (.single hfirst) hsecond)⟩

end LaptopRaft
