import LaptopRaft.Election.Ballot
import LaptopRaft.Properties.Deadlock
import LaptopRaft.Properties.Reach

/-!
# Which start-ups can deadlock

A server that waits holds its lock, and waits for a peer it reached at start-up.  So servers can
wait for each other in a cycle only if they reached each other in one; and if they did, they can:
each of them times out and, one after the other, asks the next for its vote, the peers that come
before it in the map having been skipped for a failed connection (`can_deadlock_iff`).
-/

namespace LaptopRaft

open Relation ServerMetadata TransitionSystem

section Standoff

variable {cfg : Config} {connects : ℤ → ServerNode → Bool} {c c' : Cluster} {s p : ℤ}
  {tr : List Event} {node : ServerNode} {before after rest : List ServerNode}

/-! ## One candidate -/

/-- The server moves to `f`; of the connections, only its own to the peers in `gone` may change. -/
structure Moves (s : ℤ) (f : LaptopFactory) (gone : List ServerNode) (c c' : Cluster) : Prop where
  self : c'.server s = f
  servers : ∀ q, q ≠ s → c'.server q = c.server q
  links : ∀ q, q ≠ s → c'.link q = c.link q
  kept : ∀ p, p ∉ gone.map ServerNode.id → c'.link s p = c.link s p

/-- The connection to the peer at hand fails, and the buffer decodes to a refusal. -/
lemma skip_peer (hlock : (c.server s).metaLock = .requestVote (node :: rest))
    (hquiet : (c.server s).wire = .quiet) :
    ∃ c' es, c.act (.voteLinkFails s ⟨0, (c.server s).metadata.currentTerm, 0⟩) = some (c', es) ∧
      Moves s { c.server s with metaLock := .requestVote rest } [node] c c' := by
  have hcallee : (c.server s).callee = some node := by
    rw [LaptopFactory.callee, hlock]
  have hrefusal : (c.server s).voteLinkFails ⟨0, (c.server s).metadata.currentTerm, 0⟩ =
      some { c.server s with metaLock := .requestVote rest } := by
    rw [LaptopFactory.voteLinkFails, hlock]
    simp [LaptopFactory.countVote, recvVoteResponse, ← hquiet]
  refine ⟨(c.dropLink s).setServer s { c.server s with metaLock := .requestVote rest },
    electionEvents s (c.server s).metadata ⟨0, (c.server s).metadata.currentTerm, 0⟩, ?_,
    Function.update_self _ _ _, fun q hq => ?_, fun q hq => ?_, fun p hp => ?_⟩
  · rw [Cluster.act, Cluster.move, hrefusal]
    rfl
  · exact (Function.update_of_ne hq _ _).trans (congrFun (dropLink_server c s) q)
  · rw [Cluster.setServer, Cluster.dropLink, hcallee]
    exact Function.update_of_ne hq _ _
  · have hne : p ≠ node.id := by simpa using hp
    rw [Cluster.setServer, Cluster.dropLink, hcallee]
    simp [Function.update_of_ne hne]

/-- Peers whose connections fail before they are asked are skipped. -/
lemma path_skip (tr : List Event) (hs : s ∈ cfg.ids)
    (hlock : (c.server s).metaLock = .requestVote (before ++ rest))
    (hquiet : (c.server s).wire = .quiet) : ∃ c' tr', (system cfg).Path anyStep (c, tr) (c', tr') ∧
      Moves s { c.server s with metaLock := .requestVote rest } before c c' := by
  induction before generalizing c tr with
  | nil =>
      refine ⟨c, tr, .refl, ?_, fun _ _ => rfl, fun _ _ => rfl, fun _ _ => rfl⟩
      rw [← List.nil_append rest, ← hlock]
  | cons x before ih =>
      have hlock' : (c.server s).metaLock = .requestVote (x :: (before ++ rest)) := hlock
      obtain ⟨c₁, es, hact, hfirst⟩ := skip_peer hlock' hquiet
      have hpath₁ : (system cfg).Path anyStep (c, tr) (c₁, tr ++ es) :=
        path_of_act hs rfl trivial hact
      obtain ⟨c', tr', hpath, hrest⟩ := ih (tr ++ es) (congrArg LaptopFactory.metaLock hfirst.self)
        ((congrArg LaptopFactory.wire hfirst.self).trans hquiet)
      refine ⟨c', tr', hpath₁.trans hpath, ?_, fun q hq => ?_, fun q hq => ?_, fun p hp => ?_⟩
      · rw [hrest.self, hfirst.self]
      · rw [hrest.servers q hq, hfirst.servers q hq]
      · rw [hrest.links q hq, hfirst.links q hq]
      · rw [List.map_cons, List.mem_cons, not_or] at hp
        rw [hrest.kept p hp.2, hfirst.kept p (by simpa using hp.1)]

/-- The peer at hand is asked for its vote. -/
lemma act_ask (hlock : (c.server s).metaLock = .requestVote (node :: rest))
    (hquiet : (c.server s).wire = .quiet) (hlink : c.link s node.id = true)
    {msg : RequestVoteMessage} (hmsg : (c.server s).metadata.sendRequestVote = some msg) :
    c.act (.sendRequestVote s) =
      some (c.setServer s { c.server s with wire := .request node (.vote msg) }, []) := by
  have hup : c.linkUp s = true := by
    rw [Cluster.linkUp, LaptopFactory.callee, hlock]
    exact hlink
  have hsend : (c.server s).sendRequestVote =
      some { c.server s with wire := .request node (.vote msg) } := by
    simp [LaptopFactory.sendRequestVote, hlock, hquiet, hmsg]
  rw [Cluster.act, if_pos hup, Cluster.move, hsend]
  rfl

/-- A server whose `TimeoutThread` has entered `RequestVote`. -/
def LaptopFactory.standing (f : LaptopFactory) (heartbeat : Bool) : LaptopFactory :=
  { f with
    metadata := { f.metadata with status := .candidate, heartbeat := heartbeat }.requestVote
    metaLock := .requestVote f.metadata.nodeSocket
    timeoutThread := .branch .candidate }

lemma act_stand (hthread : (c.server s).timeoutThread = .branch .candidate)
    (hfree : (c.server s).metaLock = .free) :
    c.act (.requestVote s) =
      some (c.setServer s
        { c.server s with
          metadata := (c.server s).metadata.requestVote
          metaLock := .requestVote (c.server s).metadata.nodeSocket },
        standEvents s (c.server s).metadata.requestVote) := by
  rw [Cluster.act, Cluster.move, LaptopFactory.requestVote, if_pos ⟨hthread, hfree⟩]
  rfl

lemma path_stand (tr : List Event) (hs : s ∈ cfg.ids)
    (hthread : (c.server s).timeoutThread = .top)
    (hfree : (c.server s).metaLock = .free) (hstatus : (c.server s).metadata.status ≠ .leader) :
    ∃ heartbeat tr', (system cfg).Path anyStep (c, tr)
      (c.setServer s ((c.server s).standing heartbeat), tr') := by
  obtain ⟨heartbeat, tr₁, hbranch⟩ := path_branch c tr hs hthread hfree hstatus
  have hsame : c.setServer s (c.server s) = c := by
    rw [Cluster.setServer, Function.update_eq_self]
  rw [hsame] at hbranch
  generalize hc₁ : c.setServer s _ = c₁ at hbranch
  have hself : c₁.server s =
      { c.server s with
        metadata := { (c.server s).metadata with status := .candidate, heartbeat := heartbeat }
        timeoutThread := .branch .candidate } := by
    rw [← hc₁]
    exact Function.update_self _ _ _
  have hact := act_stand (c := c₁) (s := s) (by rw [hself]) (by rw [hself]; exact hfree)
  have hstand : (system cfg).Path anyStep (c₁, tr₁) (_, tr₁ ++ _) := path_of_act hs rfl trivial hact
  have hend : c.setServer s ((c.server s).standing heartbeat) = c₁.setServer s
      { c₁.server s with
        metadata := (c₁.server s).metadata.requestVote
        metaLock := .requestVote (c₁.server s).metadata.nodeSocket } := by
    rw [hself, ← hc₁, Cluster.setServer, Cluster.setServer, Cluster.setServer, Function.update_idem]
    rfl
  rw [← hend] at hstand
  exact ⟨heartbeat, _, hbranch.any.trans hstand⟩

/-- **A candidate that waits.**  From start-up, a server can come to wait for any peer it reached,
whatever the others do in the meantime. -/
lemma path_wait (tr : List Event) (hs : s ∈ cfg.ids)
    (hserver : c.server s = (boot cfg connects).server s)
    (hlink : c.link s = (boot cfg connects).link s) (hp : p ∈ cfg.reached connects s) :
    ∃ c' tr', (system cfg).Path anyStep (c, tr) (c', tr') ∧ c'.WaitsFor s p ∧
      ∀ q, q ≠ s → c'.server q = c.server q ∧ c'.link q = c.link q := by
  obtain ⟨index, heq, -⟩ := bootMetadata_eq cfg connects s
  have hmetadata : ((boot cfg connects).server s).metadata = _ := heq
  have hsockets : ∀ x, x ∈ ((boot cfg connects).server s).metadata.nodeSocket ↔
      x ∈ cfg.peers s ∧ connects s x = true := by
    intro x
    rw [hmetadata, mem_foldl_insertSocket, List.mem_filter]
    simp
  obtain ⟨node, hpeer, hconnects, rfl⟩ := Config.mem_reached.1 hp
  have hnode := (hsockets node).2 ⟨hpeer, hconnects⟩
  obtain ⟨before, after, hsplit, hbefore⟩ := List.eq_append_cons_of_mem hnode
  -- the peers before it in the map have other ids
  have hother : node.id ∉ before.map ServerNode.id := by
    intro hid
    obtain ⟨x, hx, hxid⟩ := List.mem_map.1 hid
    have hxpeer : x ∈ cfg.peers s := by
      apply And.left ((hsockets x).1 _)
      rw [hsplit]
      exact List.mem_append_left _ hx
    obtain rfl := List.inj_on_of_nodup_map (cfg.peers_nodup s hs) hxpeer hpeer hxid
    exact hbefore hx
  have hstatus : (c.server s).metadata.status ≠ .leader := by
    rw [hserver, hmetadata]
    simp
  obtain ⟨heartbeat, tr₁, hstand⟩ := path_stand tr hs
    (congrArg LaptopFactory.timeoutThread hserver) (congrArg LaptopFactory.metaLock hserver) hstatus
  have hself : (c.setServer s ((c.server s).standing heartbeat)).server s =
      (c.server s).standing heartbeat := Function.update_self _ _ _
  have hlock₁ : ((c.setServer s ((c.server s).standing heartbeat)).server s).metaLock =
      .requestVote (before ++ node :: after) := by
    rw [hself, ← hsplit, ← hserver]
    rfl
  have hquiet₁ : ((c.setServer s ((c.server s).standing heartbeat)).server s).wire = .quiet := by
    rw [hself, hserver]
    rfl
  obtain ⟨c₂, tr₂, hskip, hmoves⟩ := path_skip tr₁ hs hlock₁ hquiet₁
  have hlock₂ : (c₂.server s).metaLock = .requestVote (node :: after) := by
    rw [hmoves.self]
  have hquiet₂ : (c₂.server s).wire = .quiet := by
    rw [hmoves.self]
    exact hquiet₁
  have hup : c₂.link s node.id = true := by
    rw [hmoves.kept _ hother]
    change c.link s node.id = true
    rw [hlink]
    exact List.any_eq_true.2 ⟨node, hnode, by simp⟩
  obtain ⟨msg, hmsg⟩ : ∃ msg, (c₂.server s).metadata.sendRequestVote = some msg := by
    rw [hmoves.self, hself, hserver, LaptopFactory.standing, hmetadata]
    exact ⟨_, rfl⟩
  refine ⟨_, _, (hstand.trans hskip).trans
    (path_of_act hs rfl trivial (act_ask hlock₂ hquiet₂ hup hmsg)), ?_, fun q hq => ?_⟩
  · have hself' : (c₂.setServer s
        { c₂.server s with wire := .request node (.vote msg) }).server s =
        { c₂.server s with wire := .request node (.vote msg) } := Function.update_self _ _ _
    refine ⟨?_, node, .vote msg, ?_, rfl⟩
    · rw [hself', hlock₂]
      simp
    · rw [hself']
  · exact ⟨(Function.update_of_ne hq _ _).trans
      ((hmoves.servers q hq).trans (Function.update_of_ne hq _ _)), hmoves.links q hq⟩

/-! ## All candidates of a group -/

/-- Any servers can come to wait, each for a peer it reached. -/
lemma path_standoff {ys : List ℤ} {next : ℤ → ℤ} (hnodup : ys.Nodup)
    (hreaches : ∀ y ∈ ys, cfg.Reaches connects y (next y)) :
    ∃ c tr, (system cfg).Path anyStep (boot cfg connects, []) (c, tr) ∧
      (∀ y ∈ ys, c.WaitsFor y (next y)) ∧
      ∀ q, q ∉ ys → c.server q = (boot cfg connects).server q ∧
        c.link q = (boot cfg connects).link q := by
  induction ys with
  | nil =>
      exact ⟨_, _, .refl, fun y hy => absurd hy List.not_mem_nil, fun _ _ => ⟨rfl, rfl⟩⟩
  | cons y ys ih =>
      rw [List.nodup_cons] at hnodup
      obtain ⟨c, tr, hpath, hwait, hfresh⟩ :=
        ih hnodup.2 fun q hq => hreaches q (List.mem_cons_of_mem y hq)
      obtain ⟨hy, hnext⟩ := hreaches y List.mem_cons_self
      obtain ⟨hserver, hlink⟩ := hfresh y hnodup.1
      obtain ⟨c', tr', hpath', hwaits, hothers⟩ := path_wait tr hy hserver hlink hnext
      refine ⟨c', tr', hpath.trans hpath', fun q hq => ?_, fun q hq => ?_⟩
      · by_cases hqy : q = y
        · rw [hqy]
          exact hwaits
        · -- who waited before waits still
          have hold := hwait q ((List.mem_cons.1 hq).resolve_left hqy)
          rw [Cluster.WaitsFor, (hothers q hqy).1]
          exact hold
      · rw [List.mem_cons, not_or] at hq
        rw [(hothers q hq.1).1, (hothers q hq.1).2]
        exact hfresh q hq.2

/-- **Which clusters can deadlock**: those in which servers reached each other, at start-up, in a
cycle. -/
theorem can_deadlock_iff :
    (∃ c tr, (system cfg).Path anyStep (boot cfg connects, []) (c, tr) ∧ ¬ Acyclic c.WaitsFor) ↔
      ¬ Acyclic (cfg.Reaches connects) := by
  constructor
  · rintro ⟨c, tr, hpath, hcycle⟩ hacyclic
    exact hcycle (hacyclic.mono fun _ _ => (confined hpath).reaches_of_waits (run_of_boot hpath))
  · intro hcycle
    obtain ⟨a, ha⟩ := not_forall_not.1 hcycle
    obtain ⟨K, hne, hgroup⟩ := exists_group ha
    have hfin : K.Finite := by
      refine cfg.ids.finite_toSet.subset fun y hy => ?_
      obtain ⟨z, -, hreaches⟩ := hgroup y hy
      exact hreaches.1
    choose! next hmem hreaches using hgroup
    have hlisted : ∀ y ∈ hfin.toFinset.toList, cfg.Reaches connects y (next y) :=
      fun y hy => hreaches y (by simpa using hy)
    obtain ⟨c, tr, hpath, hwait, -⟩ := path_standoff (Finset.nodup_toList _) hlisted
    refine ⟨c, tr, hpath, not_acyclic_of_group hfin hne fun y hy => ?_⟩
    exact ⟨next y, hmem y hy, hwait y (by simpa using hy)⟩

end Standoff

end LaptopRaft
