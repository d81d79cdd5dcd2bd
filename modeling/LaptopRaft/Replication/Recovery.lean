import LaptopRaft.Replication.Termination

/-!
# Recovery of a restarted follower

A follower that restarts comes back with an empty log, and `CleanNodeState` has reset its slots to
`0`.  In a call of `ReplicateLog` by the leader the two logs move in lock-step: as long as the
follower holds exactly the entries before its position (`Catching`), it accepts the entry at the
position, and what it executes on the way has been committed by the leader before.  The call ends
by `Mending.finishes`, and it ends with every position at the end of the log.
-/

namespace LaptopRaft

open ServerMetadata

/-! ## The peers -/

/-- A restarted follower, as `CleanNodeState` leaves its slots. -/
structure Fresh (c : Cluster) (s : ℤ) (node : ServerNode) : Prop where
  status : (c.server node.id).metadata.status = .follower
  smrLog : (c.server node.id).metadata.smrLog = []
  logSize : (c.server node.id).metadata.logSize = 0
  customerRecord : (c.server node.id).metadata.customerRecord = fun _ => none
  commitLength : (c.server node.id).metadata.commitLength = 0
  currentTerm : (c.server node.id).metadata.currentTerm ≤ (c.server s).metadata.currentTerm
  sent : (c.server s).metadata.sentTo node = some 0
  ack : (c.server s).metadata.ackTo node = some 0

/-- A follower that holds the leader's log. -/
structure InSync (c : Cluster) (s : ℤ) (node : ServerNode) : Prop where
  status : (c.server node.id).metadata.status = .follower
  currentTerm : (c.server node.id).metadata.currentTerm = (c.server s).metadata.currentTerm
  smrLog : (c.server node.id).metadata.smrLog = (c.server s).metadata.smrLog
  sent : (c.server s).metadata.sentTo node = some (c.server s).metadata.logSize

/-- What a call leaves a restarted follower with. -/
structure Recovered (c : Cluster) (s : ℤ) (node : ServerNode) : Prop where
  smrLog : (c.server node.id).metadata.smrLog = (c.server s).metadata.smrLog
  sent : (c.server s).metadata.sentTo node = some (c.server s).metadata.logSize
  ack : (c.server s).metadata.ackTo node = some (c.server s).metadata.logSize
  commitLength : (c.server node.id).metadata.commitLength ≤ (c.server s).metadata.commitLength
  customerRecord : (c.server node.id).metadata.customerRecord =
    replay ((c.server node.id).metadata.smrLog.take
      (c.server node.id).metadata.commitLength.toNat)

/-- A leader has just entered `ReplicateLog`, with an allocated slot for each of its peers, and
every connected peer is fresh or in sync. -/
structure RecoveryBegins (cfg : Config) (s : ℤ) (c : Cluster) : Prop where
  mem : s ∈ cfg.ids
  valid : s ≠ -1
  placed : Placed cfg s (c.server s)
  leader : (c.server s).metadata.status = .leader
  sized : Sized (c.server s).metadata
  entry_term : ∀ op ∈ (c.server s).metadata.smrLog, 0 ≤ op.term
  sent : ∃ xs, (c.server s).metadata.sentLength = some xs ∧
    xs.length = (c.server s).metadata.getPeerSize + 1
  ack : ∃ xs, (c.server s).metadata.ackLength = some xs ∧
    xs.length = (c.server s).metadata.getPeerSize + 1
  entered : (c.server s).Entered
  quiet : (c.server s).wire = .quiet
  answering : ∀ node ∈ (c.server s).metadata.nodeSocket, Answering c s node
  peers : ∀ node ∈ (c.server s).metadata.nodeSocket, Fresh c s node ∨ InSync c s node

/-- A call of `ReplicateLog` by `s` in which no connection fails returns `1`. -/
def ReturnsOne (s : ℤ) (c c' : Cluster) : Prop :=
  ∃ c₁, CallTo s c c₁ ∧ (c₁.server s).Finished ∧ c₁.callStep s = some c'

/-! ## Lock-step -/

/-- A follower that is being brought up to the leader. -/
structure Catching (c : Cluster) (s : ℤ) (node : ServerNode) (x : ℕ) : Prop where
  within : x ≤ (c.server s).metadata.smrLog.length
  sent : (c.server s).metadata.sentTo node = some (x : ℤ)
  ack : (c.server s).metadata.ackTo node = some (x : ℤ)
  smrLog : (c.server node.id).metadata.smrLog = (c.server s).metadata.smrLog.take x
  stored : Stored (c.server node.id).metadata
  commit : (c.server node.id).metadata.commitLength ≤ (c.server s).metadata.commitLength

lemma Fresh.catching {c : Cluster} {s : ℤ} {node : ServerNode} (h : Fresh c s node)
    (hnonneg : 0 ≤ (c.server s).metadata.commitLength) : Catching c s node 0 := by
  refine ⟨Nat.zero_le _, h.sent, h.ack, h.smrLog, ⟨?_, h.commitLength.ge, ?_, ?_⟩, ?_⟩
  · rw [h.smrLog, h.logSize]
    rfl
  · rw [h.commitLength, h.logSize]
  · rw [h.smrLog, h.customerRecord, List.take_nil]
    rfl
  · rw [h.commitLength]
    exact hnonneg

section LockStep

variable {cfg : Config} {s : ℤ} {c c' : Cluster} {caller : Caller} {node : ServerNode}
  {rest new : List ServerNode} {change n : ℕ} {md : ServerMetadata}

/-- The next entry, or a heartbeat. -/
lemma Catching.visited {x : ℕ} (h : Catching c s node x) (hcall : InCall cfg s c)
    (hlock : (c.server s).metaLock = .replicateLog caller ⟨node :: rest, new, change⟩)
    (hleader : (c.server s).metadata.status = .leader) (hvisited : Visited s node c c')
    (hreact : Reaction (c.server s).metadata node (c.server node.id).metadata
      (c'.server node.id).metadata md)
    (hmetadata : (c'.server s).metadata = md) : ∃ x', Catching c' s node x' := by
  obtain ⟨hwithin, hsent, hack, hlog, hstored, hcommit⟩ := h
  have hin : node ∈ (c.server s).metaLock.nodes := mem_nodes hlock
  have hslot := hcall.slot_lt hin
  have hstored' := hvisited.answer.stored hstored
  have hcommit' := hvisited.answer.commit hcommit
  have hnext (hlt : x < (c.server s).metadata.smrLog.length) :
      exchange MapOp.term (c.server s).metadata.smrLog
        (x, (c.server s).metadata.smrLog.take x) =
      (x + 1, (c.server s).metadata.smrLog.take (x + 1)) := exchange_take hlt
  cases hreact with
  | complete hcomplete hsame =>
      refine ⟨x, ?_, ?_, ?_, ?_, hstored', ?_⟩
      · rw [hmetadata]
        exact hwithin
      · rw [hmetadata]
        exact hsent
      · rw [hmetadata]
        exact hack
      · rw [hmetadata, hsame]
        exact hlog
      · rw [hmetadata]
        exact hcommit'
  | @acked k _ _ _ hk hlt _ hfollows hagree hsents hacks hge hle hmd hlog' =>
      obtain rfl : x = k := by
        have heq := Option.some.inj (hsent.symm.trans hk)
        omega
      have hsentlen := hcall.ready.sent_length hsents
      have hacklen := hcall.ready.ack_length hacks
      have hsent' : md.sentTo node = some ((x : ℤ) + 1) :=
        (sentTo_set (by rw [hmd]) hsents (by rw [hmd])).1 (by omega)
      have hack' : md.ackTo node = some ((x : ℤ) + 1) :=
        (ackTo_set (by rw [hmd]) hacks (by rw [hmd])).1 (by omega)
      have hsame : md.smrLog = (c.server s).metadata.smrLog := by rw [hmd]
      have hnext := hnext hlt
      rw [exchange, if_pos (hlog ▸ hagree)] at hnext
      refine ⟨x + 1, ?_, ?_, ?_, ?_, hstored', ?_⟩
      · rw [hmetadata, hsame]
        exact hlt
      · rw [hmetadata]
        exact hsent'
      · rw [hmetadata]
        exact hack'
      · rw [hmetadata, hsame, hlog', hlog]
        exact congrArg Prod.snd hnext
      · rw [hmetadata]
        exact hcommit'.trans hge
  | @backed k _ _ hk hlt _ hfollows hagree =>
      obtain rfl : x = k := by
        have heq := Option.some.inj (hsent.symm.trans hk)
        omega
      -- a log that ends at the position agrees with it
      have hnext := hnext hlt
      rw [exchange, if_neg (hlog ▸ hagree)] at hnext
      exact absurd (congrArg Prod.fst hnext) (by dsimp only; omega)
  | ignored _ hstatus => exact absurd hleader hstatus

lemma Catching.kept {x : ℕ} (h : Catching c s node x) (hkept : Kept s node c c')
    (hlog : (c'.server s).metadata.smrLog = (c.server s).metadata.smrLog)
    (hge : (c.server s).metadata.commitLength ≤ (c'.server s).metadata.commitLength) :
    Catching c' s node x := by
  obtain ⟨hwithin, hsent, hack, hsame, hstored, hcommit⟩ := h
  refine ⟨?_, hkept.sentTo.trans hsent, hkept.ackTo.trans hack, ?_, ?_, ?_⟩
  · rw [hlog]
    exact hwithin
  · rw [hkept.server, hlog]
    exact hsame
  · rw [hkept.server]
    exact hstored
  · rw [hkept.server]
    exact hcommit.trans hge

/-- The invariant of the call, for the peers `nodes` it began with, of which `fresh` are
followers that have restarted. -/
structure Recovering (cfg : Config) (s : ℤ) (L : List MapOp) (nodes : List ServerNode)
    (fresh : ServerNode → Prop) (c : Cluster) : Prop where
  leader : (c.server s).metadata.status = .leader
  smrLog : (c.server s).metadata.smrLog = L
  catching : ∀ node ∈ nodes, fresh node → ∃ x, Catching c s node x
  visited : ∀ node ∈ nodes, ∀ caller rest new change,
    (c.server s).metaLock = .replicateLog caller ⟨rest, new, change⟩ →
    node ∈ rest ∨ (node ∈ new ∧ (change = 0 → ¬ (c.server s).metadata.Behind node))

lemma Recovering.step {L : List MapOp} {nodes : List ServerNode} {fresh : ServerNode → Prop}
    (h : Recovering cfg s L nodes fresh c) (hpeers : ∀ node ∈ nodes, node ∈ cfg.peers s)
    (hcall : InCall cfg s c) (hturn : Turn s c c') (hheld : (c'.server s).metaLock ≠ .free) :
    Recovering cfg s L nodes fresh c' := by
  cases hturn with
  | @visit caller node rest new change n md hlock hvisited hreact hcaller hn =>
      have hmetadata : (c'.server s).metadata = md := by rw [hcaller]
      have hlock' : (c'.server s).metaLock =
          .replicateLog caller ⟨rest, insertSocket new node, n⟩ := by rw [hcaller]
      have hmoved := hcall.moved hlock hvisited hreact hmetadata
      have hge := (hreact.commit hcall.ready.sized).1
      have hkept : ∀ x ∈ nodes, x ≠ node → Kept s x c c' := fun x hx hne =>
        hcall.kept hlock hvisited hreact hmetadata (hpeers x hx) hne
      refine ⟨hmoved.status.trans h.leader, hmoved.smrLog.trans h.smrLog, fun x hx hfresh => ?_,
        fun x hx caller' rest' new' change' hloop => ?_⟩
      · obtain ⟨k, hk⟩ := h.catching x hx hfresh
        by_cases hself : x = node
        · subst hself
          exact hk.visited hcall hlock h.leader hvisited hreact hmetadata
        · exact ⟨k, hk.kept (hkept x hx hself) hmoved.smrLog (by rw [hmetadata]; exact hge)⟩
      · rw [hlock'] at hloop
        cases hloop
        rw [mem_insertSocket]
        by_cases hself : x = node
        · subst hself
          refine Or.inr ⟨Or.inl rfl, fun hzero hbehind => ?_⟩
          have hentry : n = change + 1 := hn.trans (if_neg (hmoved.behind hbehind))
          omega
        · rcases h.visited x hx _ _ _ _ hlock with hin | ⟨hin, hdone⟩
          · exact Or.inl ((List.mem_cons.1 hin).resolve_left hself)
          · refine Or.inr ⟨Or.inr hin, fun hzero hbehind => ?_⟩
            have hround : change = 0 := by
              rw [hn] at hzero
              split at hzero <;> omega
            exact hdone hround ((hmoved.behind_iff (hkept x hx hself).sentTo).1 hbehind)
  | deposed hlock hsent hno hfree => exact absurd hfree hheld
  | @nextRound caller new change hlock hchange hothers hlink hcaller =>
      have hmetadata : (c'.server s).metadata =
          { (c.server s).metadata with nodeSocket := new } := by rw [hcaller]
      have hlock' : (c'.server s).metaLock = .replicateLog caller ⟨new, new, 0⟩ := by rw [hcaller]
      refine ⟨by rw [hmetadata]; exact h.leader, by rw [hmetadata]; exact h.smrLog,
        fun x hx hfresh => ?_, fun x hx caller' rest' new' change' hloop => ?_⟩
      · obtain ⟨k, hk⟩ := h.catching x hx hfresh
        exact ⟨k, hk.kept (kept_of_nextRound hcall.mem hothers hmetadata (hpeers x hx))
          (by rw [hmetadata]) (by rw [hmetadata])⟩
      · rw [hlock'] at hloop
        cases hloop
        exact Or.inl ((h.visited x hx _ _ _ _ hlock).resolve_left List.not_mem_nil).1
  | «return» hlock hothers hcaller =>
      exact absurd (LaptopFactory.free_of_returnTo hcaller) hheld

end LockStep

/-! ## The result -/

section Recovery

variable {cfg : Config} {s : ℤ} {c : Cluster}

lemma RecoveryBegins.inCall (h : RecoveryBegins cfg s c) : InCall cfg s c := by
  have hsize := h.sized.logSize
  refine ⟨h.mem, h.placed, ⟨?_, h.sized, h.entry_term, h.sent, h.ack⟩, fun node hnode => ?_,
    fun node hnode => h.answering node (h.entered.nodes ▸ hnode), h.quiet⟩
  · rw [h.placed.factoryId]
    exact h.valid
  · rcases h.peers node (h.entered.nodes ▸ hnode) with hfresh | hsync
    · exact ⟨0, hfresh.sent, Nat.zero_le _⟩
    · exact ⟨_, hsize ▸ hsync.sent, le_refl _⟩

/-- Fresh followers follow and can be repaired; the others are not behind. -/
lemma RecoveryBegins.mending (h : RecoveryBegins cfg s c) : Mending cfg s c := by
  have hfresh : ∀ node ∈ (c.server s).metaLock.nodes, (c.server s).metadata.Behind node →
      Fresh c s node := by
    intro node hnode hbehind
    exact (h.peers node (h.entered.nodes ▸ hnode)).resolve_right fun hsync => hbehind hsync.sent
  refine ⟨h.inCall, h.entered.replicating, fun node hnode hbehind => ?_,
    fun node hnode hbehind => ⟨h.leader, ?_⟩⟩
  · exact not_not.2 (Or.inr (hfresh node hnode hbehind).status)
  · refine repairable_of_isPrefix ?_
    rw [standing, (hfresh node hnode hbehind).smrLog]
    exact List.nil_prefix

/-- **Recovery of restarted followers.**  The call returns `1`, and every restarted follower it
began with holds the leader's log, is recorded as holding it, and has executed a part of what the
leader has committed. -/
theorem restarted_followers_recover (h : RecoveryBegins cfg s c) :
    ∃ c', ReturnsOne s c c' ∧
      (c'.server s).metadata.smrLog = (c.server s).metadata.smrLog ∧
      (c'.server s).metadata.logSize = (c.server s).metadata.logSize ∧
      ∀ node ∈ (c.server s).metadata.nodeSocket, Fresh c s node → Recovered c' s node := by
  obtain ⟨caller, hlock⟩ := h.entered.loop
  have hpeers : ∀ node ∈ (c.server s).metadata.nodeSocket, node ∈ cfg.peers s :=
    h.placed.nodeSocket
  have hstart : Recovering cfg s (c.server s).metadata.smrLog (c.server s).metadata.nodeSocket
      (Fresh c s) c := by
    refine ⟨h.leader, rfl, fun node _ hfresh => ⟨0, hfresh.catching h.sized.commit_nonneg⟩,
      fun node hnode caller' rest new change hloop => ?_⟩
    cases hlock.symm.trans hloop
    exact Or.inl hnode
  obtain ⟨c₁, hcall, ⟨hmending, hrecovering⟩, hfinished⟩ := h.mending.finishes hstart
    fun c c' hmending hrecovering hturn hmending' =>
      hrecovering.step hpeers hmending.call hturn hmending'.replicating.held
  obtain ⟨caller₁, new, hlock₁⟩ := hfinished.loop
  obtain ⟨c', hst, -, hothers, new', hmetadata⟩ := returns_of_finished hfinished
  have hsize := hmending.call.ready.sized.logSize
  refine ⟨c', ⟨c₁, hcall, hfinished, hst⟩, by rw [hmetadata]; exact hrecovering.smrLog, ?_,
    fun node hnode hfresh => ?_⟩
  · rw [hmetadata]
    show (c₁.server s).metadata.logSize = _
    rw [hsize, hrecovering.smrLog, h.sized.logSize]
  · obtain ⟨x, hwithin, hsent, hack, hlog, hstored, hcommit⟩ :=
      hrecovering.catching node hnode hfresh
    have hkept := kept_of_nextRound h.mem hothers hmetadata (hpeers node hnode)
    -- no peer is behind after a round without an answered entry
    have hend := not_not.1 (((hrecovering.visited node hnode _ _ _ _ hlock₁).resolve_left
      List.not_mem_nil).2 rfl)
    have hall : x = (c₁.server s).metadata.smrLog.length := by
      have heq := Option.some.inj (hsent.symm.trans hend)
      omega
    refine ⟨?_, ?_, ?_, ?_, ?_⟩
    · rw [hkept.server, hmetadata, hlog, hall, List.take_length]
    · rw [hkept.sentTo, hmetadata]
      exact hend
    · rw [hkept.ackTo, hmetadata, hack, hall, hsize]
    · rw [hkept.server, hmetadata]
      exact hcommit
    · rw [hkept.server]
      exact hstored.record

end Recovery

/-- Server 2 is not reached while server 0 replicates its first update, and is connected again
before the next call. -/
theorem restarted_followers_recover_oneUpdate : ∃ c c', RecoveryBegins three 0 c ∧
    Fresh c 0 ⟨2, 2, "", 0⟩ ∧ ReturnsOne 0 c c' ∧ (c'.server 0).metadata.smrLog = [⟨1, 7, 1⟩] ∧
    Recovered c' 0 ⟨2, 2, "", 0⟩ := by
  obtain ⟨c, tr, hrun, ⟨hleader, hlog, hsent, hack, hentered, hquiet, hsockets⟩, hanswering,
    ⟨hstatus₁, hterm₁, hlog₁, hsent₁⟩, hstatus, hnil, hsize, hcommit, hterm, hsent₂, hack₂⟩ :=
    run_of_play three TransitionSystem.anyStep
      (P := fun c _ =>
        ((c.server 0).metadata.status = .leader ∧ (c.server 0).metadata.smrLog = [⟨1, 7, 1⟩] ∧
          (c.server 0).metadata.sentLength = some [1, 0, 0] ∧
          (c.server 0).metadata.ackLength = some [1, 0, 1] ∧
          (c.server 0).Entered ∧ (c.server 0).wire = .quiet ∧
          (c.server 0).metadata.nodeSocket = [⟨1, 1, "", 0⟩, ⟨2, 2, "", 0⟩]) ∧
        (∀ node ∈ (c.server 0).metadata.nodeSocket, Answering c 0 node) ∧
        ((c.server 1).metadata.status = .follower ∧
          (c.server 1).metadata.currentTerm = (c.server 0).metadata.currentTerm ∧
          (c.server 1).metadata.smrLog = (c.server 0).metadata.smrLog ∧
          (c.server 0).metadata.sentTo ⟨1, 1, "", 0⟩ = some (c.server 0).metadata.logSize) ∧
        (c.server 2).metadata.status = .follower ∧ (c.server 2).metadata.smrLog = [] ∧
        (c.server 2).metadata.logSize = 0 ∧ (c.server 2).metadata.commitLength = 0 ∧
        (c.server 2).metadata.currentTerm ≤ (c.server 0).metadata.currentTerm ∧
        (c.server 0).metadata.sentTo ⟨2, 2, "", 0⟩ = some 0 ∧
        (c.server 0).metadata.ackTo ⟨2, 2, "", 0⟩ = some 0)
      (stand 0 ++ callVote 0 ++ submit 0 7 1 ++ callLog 0 ++ [.logLinkFails 0, .endRound 0] ++
        callLog 0 ++ [.endRound 0, .readStatus 0, .replicateLog 0 [true]]) (by decide +kernel)
  have hwf := wellFormed hrun (s := 0) (by decide)
  have hrecord : (c.server 2).metadata.customerRecord = fun _ => none := by
    rw [(wellFormed hrun (s := 2) (by decide)).sound.stored.record, hnil, List.take_nil]
    rfl
  have hfresh : Fresh c 0 ⟨2, 2, "", 0⟩ :=
    ⟨hstatus, hnil, hsize, hrecord, hcommit, hterm, hsent₂, hack₂⟩
  have hpeers : (c.server 0).metadata.getPeerSize = 2 := by
    rw [getPeerSize, hwf.placed.neighbors]
    rfl
  have hbegins : RecoveryBegins three 0 c := by
    refine ⟨by decide, by decide, hwf.placed, hleader, hwf.sound.stored.sized,
      hwf.sound.entry_term, ⟨_, hsent, by rw [hpeers]; rfl⟩, ⟨_, hack, by rw [hpeers]; rfl⟩,
      hentered, hquiet, hanswering, fun node hnode => ?_⟩
    rw [hsockets] at hnode
    rcases List.mem_pair.1 hnode with rfl | rfl
    · exact Or.inr ⟨hstatus₁, hterm₁, hlog₁, hsent₁⟩
    · exact Or.inl hfresh
  obtain ⟨c', hreturns, hsame, -, hrecovered⟩ := restarted_followers_recover hbegins
  exact ⟨c, c', hbegins, hfresh, hreturns, hsame.trans hlog,
    hrecovered _ (by simp [hsockets]) hfresh⟩

end LaptopRaft
