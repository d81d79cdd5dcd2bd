import LaptopRaft.Election.Ballot
import LaptopRaft.Replication.Acks
import LaptopRaft.Replication.PeerOrder

/-!
# A leader at work

The call of `ReplicateLog` that `LeaderMaintainLog` makes is the one of `Replication/PeerOrder`, as
far as the logs go.  Here it is followed to its return, with what it keeps (`CallKeeps`), for a
leader that is connected to a quorum of followers, each of which holds a beginning of its log
(`Serving`).

`Serving.update`: an update that a `LeaderThread` has taken is appended, committed and held by every
connected peer when the call returns, and the leader is `Serving` again.
-/

namespace LaptopRaft

open ServerMetadata TransitionSystem

/-! ## What a call keeps -/

/-- A call of `s` that began with `c₀`, apart from what it does to the logs. -/
structure CallKeeps (s : ℤ) (caller : Caller) (c₀ c : Cluster) : Prop where
  server : c.server s =
    { c₀.server s with
      metadata := (c.server s).metadata
      metaLock := (c.server s).metaLock
      wire := (c.server s).wire }
  loop : ∃ loop, (c.server s).metaLock = .replicateLog caller loop
  nodes : ∀ x ∈ (c₀.server s).metadata.nodeSocket, x ∈ (c.server s).metaLock.nodes
  status : (c.server s).metadata.status = (c₀.server s).metadata.status
  term : (c.server s).metadata.currentTerm = (c₀.server s).metadata.currentTerm
  link : c.link = c₀.link
  locks : ∀ q, q ≠ s → (c.server q).metaLock = (c₀.server q).metaLock
  followers : ∀ x ∈ (c₀.server s).metadata.nodeSocket,
    (c.server x.id).metadata.status = .follower

/-- The call has returned. -/
structure CallReturns (s : ℤ) (caller : Caller) (c₀ c : Cluster) : Prop where
  server : c.server s =
    LaptopFactory.returnTo { c₀.server s with metadata := (c.server s).metadata } caller
  nodes : ∀ x, x ∈ (c.server s).metadata.nodeSocket ↔ x ∈ (c₀.server s).metadata.nodeSocket
  status : (c.server s).metadata.status = (c₀.server s).metadata.status
  term : (c.server s).metadata.currentTerm = (c₀.server s).metadata.currentTerm
  link : c.link = c₀.link
  locks : ∀ q, q ≠ s → (c.server q).metaLock = (c₀.server q).metaLock
  followers : ∀ x ∈ (c₀.server s).metadata.nodeSocket,
    (c.server x.id).metadata.status = .follower

section Calls

variable {cfg : Config} {s : ℤ} {c₀ c c' : Cluster} {caller : Caller}

lemma CallKeeps.step (h : CallKeeps s caller c₀ c) (hcall : InCall cfg s c)
    (hpeers : ∀ x ∈ (c₀.server s).metadata.nodeSocket, x ∈ cfg.peers s) (hturn : Turn s c c')
    (hheld : (c'.server s).metaLock ≠ .free) : CallKeeps s caller c₀ c' := by
  obtain ⟨hserver, ⟨loop, hloop⟩, hnodes, hstatus, hterm, hlink, hlocks, hfollowers⟩ := h
  cases hturn with
  | @visit _ node rest new change n md hlock hvisited hreact hcaller hn =>
      obtain ⟨rfl, rfl⟩ := MetaLock.replicateLog.inj (hloop.symm.trans hlock)
      have hmetadata : (c'.server s).metadata = md := by rw [hcaller]
      have hframe := hreact.frame
      have hnode := hcall.placed.visiting node (mem_nodes hlock)
      have hne := peer_id_ne hcall.mem hnode
      refine ⟨?_, ⟨_, by rw [hcaller]⟩, fun x hx => ?_, ?_, ?_, hvisited.link.trans hlink,
        fun q hq => ?_, fun x hx => ?_⟩
      · rw [hcaller, hserver]
      · have hin := hnodes x hx
        simp only [hcaller, hlock, MetaLock.nodes, List.mem_append, mem_insertSocket,
          List.mem_cons] at hin ⊢
        tauto
      · rw [hmetadata, hframe]
        exact hstatus
      · rw [hmetadata, hframe]
        exact hterm
      · by_cases hqn : q = node.id
        · subst hqn
          exact hvisited.peerLock.trans (hlocks node.id hq)
        · rw [hvisited.others q hq hqn]
          exact hlocks q hq
      · by_cases hxn : x.id = node.id
        · rw [hxn]
          exact (hvisited.answer.follows (Or.inr (hxn ▸ hfollowers x hx))).2
        · rw [hvisited.others x.id (peer_id_ne hcall.mem (hpeers x hx)) hxn]
          exact hfollowers x hx
  | deposed hlock hsent hno hfree => exact absurd hfree hheld
  | @nextRound _ new change hlock hchange hothers hlink' hcaller =>
      obtain ⟨rfl, rfl⟩ := MetaLock.replicateLog.inj (hloop.symm.trans hlock)
      refine ⟨?_, ⟨_, by rw [hcaller]⟩, fun x hx => ?_, ?_, ?_, hlink'.trans hlink,
        fun q hq => ?_, fun x hx => ?_⟩
      · rw [hcaller, hserver]
      · have hin := hnodes x hx
        simp only [hcaller, hlock, MetaLock.nodes, List.mem_append, List.nil_append,
          or_self] at hin ⊢
        exact hin
      · rw [hcaller]
        exact hstatus
      · rw [hcaller]
        exact hterm
      · rw [hothers q hq]
        exact hlocks q hq
      · rw [hothers x.id (peer_id_ne hcall.mem (hpeers x hx))]
        exact hfollowers x hx
  | «return» hlock hothers hcaller =>
      exact absurd (LaptopFactory.free_of_returnTo hcaller) hheld

/-- The last step of a call. -/
lemma CallKeeps.returns (h : CallKeeps s caller c₀ c) (hs : s ∈ cfg.ids)
    (hpeers : ∀ x ∈ (c₀.server s).metadata.nodeSocket, x ∈ cfg.peers s)
    (hkept : ∀ x ∈ (c.server s).metaLock.nodes, x ∈ (c₀.server s).metadata.nodeSocket)
    (hfinished : (c.server s).Finished) (hst : c.callStep s = some c') :
    CallReturns s caller c₀ c' := by
  obtain ⟨caller', new, hlock⟩ := hfinished.loop
  obtain ⟨hserver, ⟨loop, hloop⟩, hnodes, hstatus, hterm, hlink, hlocks, hfollowers⟩ := h
  obtain ⟨rfl, rfl⟩ := MetaLock.replicateLog.inj (hloop.symm.trans hlock)
  obtain rfl : c' = c.setServer s
      ({ c.server s with
        metadata := { (c.server s).metadata with nodeSocket := new } }.returnTo caller) := by
    simp only [Cluster.callStep, hlock, Cluster.act, Cluster.move, LaptopFactory.endRound, if_true,
      Option.map_some, Option.some.injEq] at hst
    exact hst.symm
  have hself : ∀ f, (c.setServer s f).server s = f := fun f => Function.update_self _ _ _
  have hother : ∀ f q, q ≠ s → (c.setServer s f).server q = c.server q :=
    fun f q hq => Function.update_of_ne hq _ _
  simp only [hlock, MetaLock.nodes, List.nil_append] at hnodes hkept
  refine ⟨?_, fun x => ?_, ?_, ?_, hlink, fun q hq => ?_, fun x hx => ?_⟩
  · rw [hself, LaptopFactory.returnTo_metadata, hserver]
    cases caller <;> rfl
  · rw [hself, LaptopFactory.returnTo_metadata]
    exact ⟨hkept x, hnodes x⟩
  · rw [hself, LaptopFactory.returnTo_metadata]
    exact hstatus
  · rw [hself, LaptopFactory.returnTo_metadata]
    exact hterm
  · rw [hother _ q hq]
    exact hlocks q hq
  · rw [hother _ x.id (peer_id_ne hs (hpeers x hx))]
    exact hfollowers x hx

/-- A call by itself returns, with the logs settled and the rest kept. -/
theorem CatchUpBegins.returns (h : CatchUpBegins cfg s c)
    (hlock : (c.server s).metaLock =
      .replicateLog caller ⟨(c.server s).metadata.nodeSocket, [], 0⟩) :
    ∃ c', CallTo s c c' ∧ Settled s c c' ∧ CallReturns s caller c c' := by
  have hstart : CallKeeps s caller c c := by
    refine ⟨rfl, ⟨_, hlock⟩, fun x hx => ?_, rfl, rfl, rfl, fun _ _ => rfl,
      fun x hx => (h.peers x hx).status⟩
    rw [hlock]
    exact List.mem_append_left _ hx
  have hnodes : ∀ x ∈ (c.server s).metaLock.nodes, x ∈ (c.server s).metadata.nodeSocket := by
    rw [hlock, MetaLock.nodes, List.append_nil]
    exact fun x hx => hx
  obtain ⟨c₁, hcall, ⟨hmending, hkeeps, hkept⟩, hfinished⟩ := h.mending.finishes
    (K := fun d => CallKeeps s caller c d ∧
      ∀ x ∈ (d.server s).metaLock.nodes, x ∈ (c.server s).metadata.nodeSocket)
    ⟨hstart, hnodes⟩ fun d d' hmending hK hturn hmending' =>
      have hheld := hmending'.replicating.held
      ⟨hK.1.step hmending.call h.placed.nodeSocket hturn hheld,
        fun x hx => hK.2 x (hturn.nodes hheld x hx)⟩
  obtain ⟨c', hst, -⟩ := returns_of_finished hfinished
  obtain ⟨c'', hreturns, hsettled⟩ := call_settles h
  obtain rfl := hreturns.unique ⟨c₁, hcall, hfinished, hst⟩
  exact ⟨c'', hcall.tail hst, hsettled,
    hkeeps.returns h.mem h.placed.nodeSocket hkept hfinished hst⟩

end Calls

/-! ## Entering the call -/

namespace ServerMetadata

variable (md : ServerMetadata)

/-- None of the failed peers accepts a new connection. -/
def nobodyAccepts : List Bool := List.replicate md.failedNeighbors.length false

lemma snd_of_mem_zip_nobodyAccepts {q : ServerNode × Bool}
    (hq : q ∈ md.failedNeighbors.zip md.nobodyAccepts) : q.2 = false :=
  List.eq_of_mem_replicate (List.of_mem_zip hq).2

lemma reconnected_nobodyAccepts : md.reconnected md.nobodyAccepts = md := by
  have hsockets : (md.tryReconnect md.nobodyAccepts).nodeSocket = md.nodeSocket := by
    rw [tryReconnect_nodeSocket, List.filter_eq_nil_iff.2, List.map_nil, List.foldl_nil]
    intro q hq
    simp [md.snd_of_mem_zip_nobodyAccepts hq]
  have hfailed : (md.tryReconnect md.nobodyAccepts).failedNeighbors = md.failedNeighbors := by
    rw [tryReconnect_failed, List.filter_eq_self.2, List.map_fst_zip]
    · simp [nobodyAccepts]
    · intro q hq
      simp [md.snd_of_mem_zip_nobodyAccepts hq]
  rw [reconnected, hsockets, hfailed]

end ServerMetadata

lemma openLinks_nobodyAccepts (c : Cluster) (s : ℤ) :
    c.openLinks s (c.server s).metadata.nobodyAccepts = c := by
  have hnone : ∀ p, ((c.server s).metadata.failedNeighbors.zip
      (c.server s).metadata.nobodyAccepts).any (fun q => q.2 && q.1.id == p) = false := by
    intro p
    rw [List.any_eq_false]
    intro q hq
    simp [(c.server s).metadata.snd_of_mem_zip_nobodyAccepts hq]
  have hlink : Function.update c.link s (fun p => c.link s p ||
      ((c.server s).metadata.failedNeighbors.zip
        (c.server s).metadata.nobodyAccepts).any fun q => q.2 && q.1.id == p) = c.link := by
    simp only [hnone, Bool.or_false, Function.update_eq_self]
  rw [Cluster.openLinks, hlink]

/-! ## A leader that can serve -/

/-- The servers that a call of `s` reaches, with `s` itself. -/
def Cluster.reached (c : Cluster) (s : ℤ) : Finset ℤ :=
  insert s ((c.server s).metadata.nodeSocket.map ServerNode.id).toFinset

/-- A reachable state in which `s` leads, does not hold its lock, and is connected to a quorum of
followers that hold a beginning of its log and will answer. -/
structure Serving (cfg : Config) (c : Cluster) (tr : List Event) (s : ℤ) : Prop where
  run : (system cfg).Run anyStep c tr
  mem : s ∈ cfg.ids
  /-- Nobody answers a sender whose id is the marker of an invalid request. -/
  valid : -1 ∉ cfg.ids
  leader : (c.server s).metadata.status = .leader
  free : (c.server s).metaLock = .free
  link : ∀ node ∈ (c.server s).metadata.nodeSocket, c.link s node.id = true
  answers : ∀ node ∈ (c.server s).metadata.nodeSocket, (c.server node.id).metaLock = .free
  peers : ∀ node ∈ (c.server s).metadata.nodeSocket, Trailing c s node
  connected : (c.server s).metadata.nodeSocket ≠ []
  quorum : IsQuorum cfg.ids (c.reached s)

/-- The entry `op` was appended for `LeaderThread` `i`, committed, and is held by the peers. -/
structure Updated (s : ℤ) (i : Fin 4) (op : MapOp) (c c' : Cluster) : Prop where
  nodes : ∀ x, x ∈ (c'.server s).metadata.nodeSocket ↔ x ∈ (c.server s).metadata.nodeSocket
  term : (c'.server s).metadata.currentTerm = (c.server s).metadata.currentTerm
  erq : (c'.server s).erq = (c.server s).erq
  leaderThread : (c'.server s).leaderThread = Function.update (c.server s).leaderThread i none
  customer : (c'.server s).customer = (c.server s).customer
  smrLog : (c'.server s).metadata.smrLog = (c.server s).metadata.smrLog ++ [op]
  commit : (c'.server s).metadata.commitLength = (c'.server s).metadata.smrLog.length
  peers : ∀ x ∈ (c.server s).metadata.nodeSocket,
    (c'.server x.id).metadata.smrLog = (c'.server s).metadata.smrLog

section Serving

variable {cfg : Config} {s : ℤ} {c c₁ c' : Cluster} {tr : List Event} {i : Fin 4}
  {req : LeaderRequest} {node : ServerNode} {ack : List ℤ}

lemma Serving.peer (h : Serving cfg c tr s) (hnode : node ∈ (c.server s).metadata.nodeSocket) :
    node ∈ cfg.peers s :=
  (wellFormed h.run h.mem).placed.nodeSocket node hnode

lemma Placed.slot_eq {f f' : LaptopFactory} (h : Placed cfg s f) (h' : Placed cfg s f')
    (hnode : node ∈ cfg.peers s) : f'.metadata.slot node = f.metadata.slot node :=
  h'.slot _ node (h.getElem_slot hnode)

/-- A leader has both arrays. -/
lemma Serving.arrays (h : Serving cfg c tr s) : ∃ sent ack,
    (c.server s).metadata.sentLength = some sent ∧ (c.server s).metadata.ackLength = some ack ∧
    sent.length = (c.server s).metadata.getPeerSize + 1 ∧
    ack.length = (c.server s).metadata.getPeerSize + 1 := by
  have hsound := (wellFormed h.run h.mem).sound
  have hisSome := (allocated_of_run h.run h.mem).leader h.leader
  obtain ⟨sent, hsent⟩ := Option.isSome_iff_exists.1 hisSome
  obtain ⟨ack, hack⟩ := Option.isSome_iff_exists.1 (hsound.allocated ▸ hisSome)
  exact ⟨sent, ack, hsent, hack, (hsound.sent sent hsent).length, (hsound.ack ack hack).length⟩

/-- The state in which `LeaderMaintainLog` has called `ReplicateLog`. -/
def Cluster.maintaining (c : Cluster) (s : ℤ) (i : Fin 4) (op : MapOp) (ack : List ℤ) : Cluster :=
  c.setServer s ((c.server s).enterReplicateLog (.leaderThread i)
    ((c.server s).metadata.maintained op ack))

lemma maintaining_self {op : MapOp} : (c.maintaining s i op ack).server s =
    (c.server s).enterReplicateLog (.leaderThread i) ((c.server s).metadata.maintained op ack) :=
  Function.update_self _ _ _

lemma maintaining_of_ne {op : MapOp} {q : ℤ} (hq : q ≠ s) :
    (c.maintaining s i op ack).server q = c.server q :=
  Function.update_of_ne hq _ _

lemma Serving.maintain (h : Serving cfg c tr s) (hreq : (c.server s).leaderThread i = some req)
    (hack : (c.server s).metadata.ackLength = some ack)
    (hlen : ack.length = (c.server s).metadata.getPeerSize + 1) :
    ∃ es, c.act (.leaderMaintainLog s i (c.server s).metadata.nobodyAccepts) =
      some (c.maintaining s i ((c.server s).metadata.newEntry req) ack, es) := by
  have hlength : (c.server s).metadata.nobodyAccepts.length =
      (c.server s).metadata.failedNeighbors.length := List.length_replicate
  have henter : (c.server s).leaderMaintainLog i (c.server s).metadata.nobodyAccepts =
      some ((c.server s).enterReplicateLog (.leaderThread i)
        ((c.server s).metadata.maintained ((c.server s).metadata.newEntry req) ack)) := by
    obtain ⟨md, hmd⟩ : ∃ md, ((c.server s).metadata.appendLog (c.server s).metadata.currentTerm
        req.laptop.customerId req.laptop.orderNumber).setAckLength (-1)
        ((c.server s).metadata.appendLog (c.server s).metadata.currentTerm
          req.laptop.customerId req.laptop.orderNumber).logSize = some md := by
      have hack' : ((c.server s).metadata.appendLog (c.server s).metadata.currentTerm
          req.laptop.customerId req.laptop.orderNumber).ackLength = some ack := hack
      have hpeers : ((c.server s).metadata.appendLog (c.server s).metadata.currentTerm
          req.laptop.customerId req.laptop.orderNumber).getPeerSize =
          (c.server s).metadata.getPeerSize := rfl
      rw [setAckLength, if_pos rfl, hack', Option.bind_eq_bind, Option.bind_some,
        if_pos ⟨by omega, by omega⟩]
      exact ⟨_, rfl⟩
    obtain ⟨ack', hack', -, rfl⟩ := setAckLength_own hmd
    obtain rfl : ack = ack' := Option.some.inj (hack.symm.trans hack')
    have hstep := tryReconnect_maintained (c.server s).metadata
      ((c.server s).metadata.newEntry req) ack (c.server s).metadata.nobodyAccepts
    rw [reconnected_nobodyAccepts] at hstep
    simp only [LaptopFactory.leaderMaintainLog, hreq, if_pos (And.intro h.free hlength), hmd,
      Option.map_some]
    exact congrArg (fun md => some ((c.server s).enterReplicateLog (.leaderThread i) md)) hstep
  refine ⟨appendEvents s
    ((c.server s).metadata.maintained ((c.server s).metadata.newEntry req) ack), ?_⟩
  rw [Cluster.act, openLinks_nobodyAccepts, Cluster.move, henter, Option.map_some]
  rfl

/-- The call begins as `CatchUpBegins` wants it, and every peer is behind. -/
lemma Serving.catchUpBegins (h : Serving cfg c tr s) {op : MapOp} {tr₁ : List Event}
    (hack : (c.server s).metadata.ackLength = some ack)
    (hrun : (system cfg).Run anyStep (c.maintaining s i op ack) tr₁) :
    CatchUpBegins cfg s (c.maintaining s i op ack) ∧
      ∀ x ∈ (c.server s).metadata.nodeSocket,
        ((c.maintaining s i op ack).server s).metadata.Behind x := by
  have hwf := wellFormed h.run h.mem
  have hpeer : ∀ x ∈ (c.server s).metadata.nodeSocket, x.id ∈ cfg.ids ∧ x.id ≠ s :=
    fun x hx => ⟨Placed.peer_mem h.mem (h.peer hx), peer_id_ne h.mem (h.peer hx)⟩
  have hpositions : ∀ x ∈ (c.server s).metadata.nodeSocket, ∃ a p,
      ((c.maintaining s i op ack).server s).metadata.ackTo x = some a ∧
      ((c.maintaining s i op ack).server s).metadata.sentTo x = some p ∧ 0 ≤ a ∧ a ≤ p ∧
      p ≤ (c.server s).metadata.logSize := by
    intro x hx
    obtain ⟨a, p, ha, hp, hnonneg, hle, hle'⟩ := (h.peers x hx).slots
    have hne : (c.server s).metadata.getPeerSize ≠ (c.server s).metadata.slot x :=
      (hwf.placed.slot_lt_peers (h.peer hx)).ne'
    refine ⟨a, p, ?_, ?_, hnonneg, hle, hle'⟩
    · rw [ackTo, hack, Option.bind_eq_bind, Option.bind_some] at ha
      rw [maintaining_self, ackTo]
      exact (List.getElem?_set_ne hne).trans ha
    · rw [maintaining_self]
      exact hp
  refine ⟨CallBegins.catchUpBegins ⟨h.mem, ?_, ⟨_, tr₁, hrun, rfl⟩, ?_, ?_, fun x hx => ?_⟩ ?_
    fun x hx => ?_, fun x hx => ?_⟩
  · rintro rfl
    exact h.valid h.mem
  · rw [maintaining_self]
    rfl
  · rw [maintaining_self]
    exact (idle_of_run h.run s).quiet h.free
  · rw [maintaining_self] at hx
    obtain ⟨hmem, hne⟩ := hpeer x hx
    have hwf' := wellFormed h.run hmem
    refine ⟨h.link x hx, ?_, ?_, ?_⟩
    · rw [maintaining_of_ne hne]
      exact h.answers x hx
    · rw [maintaining_of_ne hne]
      exact hwf'.sound.stored.sized
    · rw [maintaining_of_ne hne, hwf'.placed.factoryId]
      rintro hid
      exact h.valid (hid ▸ hmem)
  · rw [maintaining_self]
    exact h.leader
  · rw [maintaining_self] at hx
    obtain ⟨hmem, hne⟩ := hpeer x hx
    obtain ⟨a, p, ha, hp, hnonneg, hle, hle'⟩ := hpositions x hx
    refine ⟨?_, ?_, a, p, ha, hp, hnonneg, hle, ?_⟩
    · rw [maintaining_of_ne hne]
      exact (h.peers x hx).status
    · rw [maintaining_of_ne hne, maintaining_self]
      exact (h.peers x hx).smrLog.trans (List.prefix_append _ _)
    · rw [maintaining_self]
      exact hle'.trans (Int.le_add_one le_rfl)
  · obtain ⟨a, p, -, hp, -, -, hle⟩ := hpositions x hx
    rw [Behind, hp, maintaining_self]
    intro hend
    have heq : p = (c.server s).metadata.logSize + 1 := Option.some.inj hend
    omega

/-- With a quorum at the end of the log, everything is committed. -/
lemma majority_settle {f : LaptopFactory} (hplaced : Placed cfg s f) (hs : s ∈ cfg.ids)
    (hQ : IsQuorum cfg.ids (c.reached s))
    (hpeers : ∀ x ∈ (c.server s).metadata.nodeSocket, x ∈ cfg.peers s)
    (hlen : ack.length = f.metadata.getPeerSize + 1)
    (hbehind : ∀ x ∈ (c.server s).metadata.nodeSocket,
      f.metadata.slot x ∈ f.metadata.behindSlots)
    (hown : ack[f.metadata.getPeerSize]? = some f.metadata.logSize) :
    Majority (f.metadata.settle ack) f.metadata.logSize := by
  have hsize : f.metadata.getPeerSize = (cfg.peers s).length := by
    rw [getPeerSize, hplaced.neighbors]
  have hsettled : ∀ (j : ℕ) (a : ℤ), ack[j]? = some a →
      (f.metadata.settle ack)[j]? =
        some (if j ∈ f.metadata.behindSlots then f.metadata.logSize else a) := by
    intro j a ha
    rw [settle, List.getElem?_mapIdx, ha, Option.map_some]
  refine hQ.majority_slots (Config.slots_nodup hs) (Config.slots_toFinset hs) ?_ fun x hx => ?_
  · rw [settle, List.length_mapIdx, hlen, hsize, Config.slots_length]
  · rw [Cluster.reached, Finset.mem_insert, List.mem_toFinset] at hx
    rcases hx with rfl | hx
    · refine ⟨(cfg.peers x).length, f.metadata.logSize, Config.slots_own, ?_, by simp⟩
      rw [← hsize, hsettled _ _ hown, ite_self]
    · obtain ⟨node, hnode, rfl⟩ := List.mem_map.1 hx
      have hslot := hplaced.slot_lt_peers (hpeers node hnode)
      have hget : f.metadata.slot node < ack.length := by omega
      refine ⟨f.metadata.slot node, f.metadata.logSize,
        Config.slots_peer (hplaced.getElem_slot (hpeers node hnode)), ?_, by simp⟩
      rw [hsettled _ _ (List.getElem?_eq_getElem hget), if_pos (hbehind node hnode)]

/-- The array slots of a peer that was behind, after the call. -/
lemma Settled.positions (h : Settled s c₁ c') (hbegins : CatchUpBegins cfg s c₁)
    (hplaced : Placed cfg s (c'.server s)) (hnode : node ∈ (c₁.server s).metadata.nodeSocket)
    (hbehind : (c₁.server s).metadata.Behind node) :
    (c'.server s).metadata.sentTo node = some (c₁.server s).metadata.logSize ∧
      (c'.server s).metadata.ackTo node = some (c₁.server s).metadata.logSize := by
  have hpeer := hbegins.placed.nodeSocket node hnode
  have hslot := hbegins.placed.slot_lt hpeer
  have hsame := hbegins.placed.slot_eq hplaced hpeer
  have hin : (c₁.server s).metadata.slot node ∈ (c₁.server s).metadata.behindSlots :=
    List.mem_map_of_mem (List.mem_filter.2 ⟨hnode, decide_eq_true hbehind⟩)
  have hsettled : ∀ xs : List ℤ, xs.length = (c₁.server s).metadata.getPeerSize + 1 →
      ((c₁.server s).metadata.settle xs)[(c₁.server s).metadata.slot node]? =
        some (c₁.server s).metadata.logSize := by
    intro xs hlen
    have hget : (c₁.server s).metadata.slot node < xs.length := by omega
    rw [settle, List.getElem?_mapIdx, List.getElem?_eq_getElem hget, Option.map_some, if_pos hin]
  obtain ⟨sent, hsent, hsentlen⟩ := hbegins.sent
  obtain ⟨ack, hack, hacklen⟩ := hbegins.ack
  have hsent' := h.data.sentLength
  rw [hsent, Option.map_some] at hsent'
  have hack' := h.data.ackLength
  rw [hack, Option.map_some] at hack'
  constructor
  · rw [sentTo, hsent', Option.bind_eq_bind, Option.bind_some, hsame]
    exact hsettled sent hsentlen
  · rw [ackTo, hack', Option.bind_eq_bind, Option.bind_some, hsame]
    exact hsettled ack hacklen

/-- What the call commits, when a quorum was behind. -/
lemma Settled.commit_eq (h : Settled s c₁ c') (hbegins : CatchUpBegins cfg s c₁)
    (hmajority : ∀ ack, (c₁.server s).metadata.ackLength = some ack →
      Majority ((c₁.server s).metadata.settle ack) (c₁.server s).metadata.logSize)
    (hsome : (c₁.server s).metadata.behindSlots ≠ []) :
    (c'.server s).metadata.commitLength = (c₁.server s).metadata.smrLog.length := by
  obtain ⟨ack, hack, -⟩ := hbegins.ack
  rw [h.data.commit_moved hsome ack _ hack ⟨⟨le_rfl, hmajority ack hack⟩, fun k hk => hk.1⟩,
    max_eq_right hbegins.sized.commit_le, hbegins.sized.logSize]

/-- **An update is served.**  Left to itself, the leader appends an update that a `LeaderThread` has
taken, brings it to all connected peers and commits it, and can serve the next one. -/
theorem Serving.update (h : Serving cfg c tr s) (hreq : (c.server s).leaderThread i = some req) :
    ∃ c' tr', (system cfg).Path anyStep (c, tr) (c', tr') ∧ Serving cfg c' tr' s ∧
      Updated s i ((c.server s).metadata.newEntry req) c c' := by
  obtain ⟨sent, ack, hsent, hack, hsentlen, hacklen⟩ := h.arrays
  obtain ⟨es, hact⟩ := h.maintain hreq hack hacklen
  have henter : (system cfg).Path anyStep (c, tr) _ := path_of_act h.mem rfl trivial hact
  obtain ⟨hbegins, hbehind⟩ := h.catchUpBegins hack (henter.run h.run)
  have hself : (c.maintaining s i ((c.server s).metadata.newEntry req) ack).server s = _ :=
    maintaining_self
  have hother : ∀ q, q ≠ s →
      (c.maintaining s i ((c.server s).metadata.newEntry req) ack).server q = c.server q :=
    fun q hq => maintaining_of_ne hq
  have hlink : (c.maintaining s i ((c.server s).metadata.newEntry req) ack).link = c.link := rfl
  generalize c.maintaining s i ((c.server s).metadata.newEntry req) ack = c₁ at *
  have hmetadata : (c₁.server s).metadata =
      (c.server s).metadata.maintained ((c.server s).metadata.newEntry req) ack := by
    rw [hself]
    rfl
  have hlock : (c₁.server s).metaLock =
      .replicateLog (.leaderThread i) ⟨(c₁.server s).metadata.nodeSocket, [], 0⟩ := by
    rw [hself]
    rfl
  have hnodes : (c₁.server s).metadata.nodeSocket = (c.server s).metadata.nodeSocket := by
    rw [hmetadata]
    rfl
  obtain ⟨c', hcall, hsettled, hreturns⟩ := hbegins.returns hlock
  obtain ⟨tr', hcalled⟩ := path_of_callTo h.mem hcall (tr ++ es)
  have hpath : (system cfg).Path anyStep (c, tr) (c', tr') := henter.trans hcalled
  have hplaced' := (wellFormed (hpath.run h.run) h.mem).placed
  rw [← hnodes] at hbehind
  have hlogs : ∀ x ∈ (c₁.server s).metadata.nodeSocket,
      (c'.server x.id).metadata.smrLog = (c'.server s).metadata.smrLog := fun x hx => by
    rw [hsettled.behind x hx (hbehind x hx), hsettled.data.smrLog]
  have hlog : (c'.server s).metadata.smrLog =
      (c.server s).metadata.smrLog ++ [(c.server s).metadata.newEntry req] := by
    rw [hsettled.data.smrLog, hmetadata]
    rfl
  have hcommit : (c'.server s).metadata.commitLength = (c'.server s).metadata.smrLog.length := by
    rw [hsettled.data.smrLog]
    refine hsettled.commit_eq hbegins (fun ack₁ hack₁ => ?_) ?_
    · refine majority_settle hbegins.placed h.mem h.quorum (fun x hx => h.peer hx) ?_
        (fun x hx => ?_) ?_
      · obtain ⟨xs, hxs, hlen⟩ := hbegins.ack
        rw [← Option.some.inj (hxs.symm.trans hack₁), hlen]
      · rw [← hnodes] at hx
        exact List.mem_map_of_mem (List.mem_filter.2 ⟨hx, decide_eq_true (hbehind x hx)⟩)
      · rw [hmetadata] at hack₁ ⊢
        rw [← Option.some.inj hack₁]
        exact List.getElem?_set_self (by omega)
    · rw [behindSlots, Ne, List.map_eq_nil_iff, List.filter_eq_nil_iff]
      obtain ⟨x, hx⟩ := List.exists_mem_of_ne_nil _ h.connected
      rw [← hnodes] at hx
      exact fun hnone => hnone x hx (decide_eq_true (hbehind x hx))
  refine ⟨c', tr', hpath, ⟨hpath.run h.run, h.mem, h.valid, ?_, ?_, fun x hx => ?_, fun x hx => ?_,
    fun x hx => ?_, ?_, ?_⟩, ?_⟩
  · rw [hreturns.status, hmetadata]
    exact h.leader
  · rw [hreturns.server]
    exact LaptopFactory.returnTo_metaLock _ _
  · rw [hreturns.nodes, hnodes] at hx
    rw [hreturns.link, hlink]
    exact h.link x hx
  · rw [hreturns.nodes, hnodes] at hx
    have hne := peer_id_ne h.mem (h.peer hx)
    rw [hreturns.locks _ hne, hother _ hne]
    exact h.answers x hx
  · rw [hreturns.nodes] at hx
    obtain ⟨hsent', hack'⟩ := hsettled.positions hbegins hplaced' hx (hbehind x hx)
    have hsize : (c'.server s).metadata.logSize = (c₁.server s).metadata.logSize := by
      rw [(wellFormed (hpath.run h.run) h.mem).sound.stored.logSize, hsettled.data.smrLog,
        hbegins.sized.logSize]
    have hnonneg : 0 ≤ (c₁.server s).metadata.logSize := by
      rw [hbegins.sized.logSize]
      exact Int.natCast_nonneg _
    refine ⟨hreturns.followers x hx, ?_, _, _, hack', hsent', hnonneg, le_rfl, hsize.ge⟩
    rw [hlogs x hx]
  · obtain ⟨x, hx⟩ := List.exists_mem_of_ne_nil _ h.connected
    rw [← hnodes, ← hreturns.nodes] at hx
    exact List.ne_nil_of_mem hx
  · have hreached : c'.reached s = c.reached s := by
      ext q
      simp only [Cluster.reached, Finset.mem_insert, List.mem_toFinset, List.mem_map,
        hreturns.nodes, hnodes]
    rw [hreached]
    exact h.quorum
  · have hserver : c'.server s = LaptopFactory.returnTo
        { (c.server s).enterReplicateLog (.leaderThread i)
            ((c.server s).metadata.maintained ((c.server s).metadata.newEntry req) ack) with
          metadata := (c'.server s).metadata } (.leaderThread i) := by
      rw [← hself]
      exact hreturns.server
    refine ⟨fun x => by rw [hreturns.nodes, hnodes], ?_, ?_, ?_, ?_, hlog, hcommit,
      fun x hx => hlogs x (hnodes ▸ hx)⟩
    · rw [hreturns.term, hmetadata]
      rfl
    · rw [hserver]
      rfl
    · rw [hserver]
      rfl
    · rw [hserver]
      rfl

end Serving

end LaptopRaft
