import LaptopRaft.Properties.Connections

/-!
# Whom a server can call

`InitNeighbors` tries each peer once, at start-up, and records one that does not accept nowhere;
`TryReconnect` tries again only peers that were connected before.  So the peers a server ever
calls are among those that accepted its connection at start-up: no step adds one to its `contacts`
(`ThreadStep.contacts`).

`Reaches` is the relation that start-up leaves, and `confined` says that it bounds a run: calls,
requests whose caller has given up, and what is decoded from the buffers of failed connections all
stay within it.
-/

namespace LaptopRaft

open ServerMetadata

/-- The peers that accepted the connection of `s` at start-up. -/
def Config.reached (cfg : Config) (connects : ℤ → ServerNode → Bool) (s : ℤ) : Finset ℤ :=
  (((cfg.peers s).filter (connects s)).map ServerNode.id).toFinset

/-- `p` accepted the connection of the member `s`. -/
def Config.Reaches (cfg : Config) (connects : ℤ → ServerNode → Bool) (s p : ℤ) : Prop :=
  s ∈ cfg.ids ∧ p ∈ cfg.reached connects s

/-- Start-up in the order of the ids: a server finds those that were started before it. -/
def startedInOrder (s : ℤ) (node : ServerNode) : Bool := node.id < s

lemma Config.mem_reached {cfg : Config} {connects : ℤ → ServerNode → Bool} {s p : ℤ} :
    p ∈ cfg.reached connects s ↔ ∃ node ∈ cfg.peers s, connects s node = true ∧ node.id = p := by
  simp [reached, and_assoc]

/-! ## Contacts -/

/-- The peers a server may still call: those it is connected to, those it will try again, and
those its loop holds. -/
def LaptopFactory.contacts (f : LaptopFactory) : List ServerNode :=
  f.metadata.nodeSocket ++ f.metadata.failedNeighbors ++ f.metaLock.nodes

section Contacts

variable {s : ℤ} {f f' : LaptopFactory} {l : Label} {es : List Event} {x : ServerNode}

lemma mem_contacts : x ∈ f.contacts ↔
    x ∈ f.metadata.nodeSocket ∨ x ∈ f.metadata.failedNeighbors ∨ x ∈ f.metaLock.nodes := by
  rw [LaptopFactory.contacts, List.mem_append, List.mem_append, or_assoc]

lemma mem_contacts_of_lock (h : x ∈ f.metaLock.nodes) : x ∈ f.contacts :=
  mem_contacts.2 (Or.inr (Or.inr h))

/-- A step that keeps both containers, with whatever loop it leaves. -/
lemma contacts_of_same (hsockets : f'.metadata.nodeSocket = f.metadata.nodeSocket)
    (hfailed : f'.metadata.failedNeighbors = f.metadata.failedNeighbors)
    (hnodes : ∀ x ∈ f'.metaLock.nodes, x ∈ f.contacts) : ∀ x ∈ f'.contacts, x ∈ f.contacts := by
  intro x hx
  rw [mem_contacts, hsockets, hfailed] at hx
  rcases hx with hsocket | hfailed | hnode
  · exact mem_contacts.2 (Or.inl hsocket)
  · exact mem_contacts.2 (Or.inr (Or.inl hfailed))
  · exact hnodes x hnode

/-- `TryReconnect` moves peers between the containers. -/
lemma contacts_of_reconnected {accepts : List Bool}
    (hsockets : f'.metadata.nodeSocket = (f.metadata.tryReconnect accepts).nodeSocket)
    (hfailed : f'.metadata.failedNeighbors = (f.metadata.tryReconnect accepts).failedNeighbors)
    (hlock : ∀ x ∈ f'.metaLock.nodes, x ∈ f'.metadata.nodeSocket) :
    ∀ x ∈ f'.contacts, x ∈ f.contacts := by
  have hsocket : ∀ x ∈ f'.metadata.nodeSocket, x ∈ f.contacts := by
    intro x hx
    rw [hsockets, mem_reconnected_nodeSocket] at hx
    rcases hx with hback | hold
    · exact mem_contacts.2 (Or.inr (Or.inl (List.of_mem_zip hback).1))
    · exact mem_contacts.2 (Or.inl hold)
  intro x hx
  rcases mem_contacts.1 hx with hold | hqueued | hnode
  · exact hsocket x hold
  · rw [hfailed, mem_reconnected_failed] at hqueued
    exact mem_contacts.2 (Or.inr (Or.inl (List.of_mem_zip hqueued).1))
  · exact hsocket x (hlock x hnode)

/-- The peer at hand has answered, and is kept for the next round. -/
lemma mem_nodes_next {caller : Caller} {node : ServerNode} {rest new : List ServerNode}
    {change n : ℕ}
    (h : x ∈ (MetaLock.replicateLog caller ⟨rest, insertSocket new node, n⟩).nodes) :
    x ∈ (MetaLock.replicateLog caller ⟨node :: rest, new, change⟩).nodes := by
  rcases List.mem_append.1 h with hrest | hnew
  · exact List.mem_append_left _ (List.mem_cons_of_mem _ hrest)
  · rcases mem_insertSocket.1 hnew with rfl | hold
    · exact List.mem_append_left _ List.mem_cons_self
    · exact List.mem_append_right _ hold

lemma ServerMetadata.EntryReaction.nodeSocket {md md' : ServerMetadata} {node : ServerNode}
    {res : LogResponse} {goOn : Bool} (h : EntryReaction md node res md' goOn) :
    md'.nodeSocket = md.nodeSocket := by
  cases h with
  | acked hterm hleader hsuccess hsent hack hcommit =>
      rw [commitLog_frame hcommit]
      rfl
  | backed => rfl
  | kept => rfl
  | deposed => rfl

/-- **No step adds a contact.** -/
lemma ThreadStep.contacts (hstep : ThreadStep s f l f' es) :
    ∀ x ∈ f'.contacts, x ∈ f.contacts := by
  have hnone : ∀ x ∈ MetaLock.free.nodes, x ∈ f.contacts := fun x hx => absurd hx List.not_mem_nil
  have hvisiting : ∀ x ∈ f.metaLock.nodes, x ∈ f.contacts := fun x hx => mem_contacts_of_lock hx
  cases hstep with
  | readStatus | rest | timeOut | askVote | queue | sendLog =>
      exact contacts_of_same rfl rfl hvisiting
  | stand => exact contacts_of_same rfl rfl fun x hx => mem_contacts.2 (Or.inl hx)
  | countVote hlock | ignoreVote hlock =>
      rw [hlock] at hvisiting
      exact contacts_of_same rfl rfl fun x hx => hvisiting x (List.mem_cons_of_mem _ hx)
  | elected | outvoted | endVote => exact contacts_of_same rfl rfl hnone
  | maintain | replicate =>
      refine contacts_of_reconnected rfl rfl fun x hx => ?_
      rcases List.mem_append.1 hx with hin | hin
      · exact hin
      · cases hin
  | @fail caller node rest new change md l hlock hlabel hfail =>
      obtain ⟨ack, sent, -, -, -, -, rfl⟩ := failNode_cases hfail
      rw [hlock] at hvisiting
      intro x hx
      rcases mem_contacts.1 hx with hsocket | hfailed | hnode
      · exact mem_contacts.2 (Or.inl hsocket)
      · rcases List.mem_append.1 hfailed with hold | hnew
        · exact mem_contacts.2 (Or.inr (Or.inl hold))
        · rw [List.mem_singleton.1 hnew]
          exact hvisiting node List.mem_cons_self
      · exact hvisiting x (List.mem_cons_of_mem _ hnode)
  | @heartbeatAnswered caller node rest new change res hlock hwire hsent =>
      rw [hlock] at hvisiting
      exact contacts_of_same rfl rfl fun x hx => hvisiting x (mem_nodes_next hx)
  | @entryAnswered caller node rest new change res md hlock hwire hsent hreact hvalid =>
      rw [hlock] at hvisiting
      exact contacts_of_same hreact.nodeSocket hreact.failedNeighbors
        fun x hx => hvisiting x (mem_nodes_next hx)
  | @deposed caller node rest new change res =>
      refine contacts_of_same ?_ ?_ ?_
      · rw [LaptopFactory.returnTo_metadata]
        rfl
      · rw [LaptopFactory.returnTo_metadata]
        rfl
      · rw [LaptopFactory.returnTo_metaLock]
        exact hnone
  | @nextRound caller new change hlock =>
      rw [hlock] at hvisiting
      intro x hx
      rcases mem_contacts.1 hx with hsocket | hfailed | hnode
      · exact hvisiting x hsocket
      · exact mem_contacts.2 (Or.inr (Or.inl hfailed))
      · rcases List.mem_append.1 hnode with hnew | hnew <;> exact hvisiting x hnew
  | @«return» caller new hlock =>
      rw [hlock] at hvisiting
      intro x hx
      rw [mem_contacts, LaptopFactory.returnTo_metadata, LaptopFactory.returnTo_metaLock] at hx
      rcases hx with hsocket | hfailed | hnode
      · exact hvisiting x hsocket
      · exact mem_contacts.2 (Or.inr (Or.inl hfailed))
      · exact hnone x hnode

/-- A handler adds none. -/
lemma contacts_served {md : ServerMetadata} (hsame : SamePlace f.metadata md) :
    LaptopFactory.contacts { f with metadata := md } = f.contacts := by
  rw [LaptopFactory.contacts, LaptopFactory.contacts, hsame.nodeSocket, hsame.failed]

lemma mem_contacts_of_callee (h : x ∈ f.callee) : x ∈ f.contacts := by
  apply mem_contacts_of_lock
  unfold LaptopFactory.callee at h
  split at h
  · rename_i node rest hlock
    obtain rfl := Option.some.inj h
    rw [hlock]
    exact List.mem_cons_self
  · rename_i caller node rest new change hlock
    obtain rfl := Option.some.inj h
    rw [hlock]
    exact List.mem_cons_self
  · cases h

end Contacts

/-! ## Failed connections -/

section Cut

variable {cfg : Config} {c c₀ c' : Cluster} {s p : ℤ} {l : Label} {es : List Event}

lemma move_cut {f : Option LaptopFactory} {events : LaptopFactory → List Event}
    (h : c₀.move s f events = some (c', es)) : c'.cut = c₀.cut := by
  obtain ⟨f', -, rfl, -⟩ := TransitionSystem.exists_of_map_eq_some h
  rfl

lemma serveAt_cut {rpc : Rpc} {answer : Cluster → Reply → Cluster}
    (h : c.serveAt p rpc answer = some (c', es))
    (hanswer : ∀ c reply, (answer c reply).cut = c.cut) : c'.cut = c.cut := by
  obtain ⟨md, reply, -, rfl, -⟩ := serveAt_cases h
  exact hanswer _ _

lemma dropLink_cut (h : (c.dropLink s).cut p = true) :
    c.cut p = true ∨ ∃ node ∈ (c.server s).callee, node.id = p := by
  unfold Cluster.dropLink at h
  split at h
  · rename_i node hcallee
    have hupdate : Function.update c.cut node.id true p = true := h
    by_cases hp : p = node.id
    · exact Or.inr ⟨node, hcallee, hp.symm⟩
    · rw [Function.update_of_ne hp] at hupdate
      exact Or.inl hupdate
  · exact Or.inl h

/-- A connection that fails is one to the peer that is being called. -/
lemma cut_of_step (hst : (system cfg).step c l = some (c', es)) (hcut : c'.cut p = true) :
    c.cut p = true ∨ ∃ s ∈ cfg.ids, ∃ node ∈ (c.server s).callee, node.id = p := by
  have hact := act_of_step hst
  have hactor := mem_of_step hst
  have hsame : c'.cut = c.cut → c.cut p = true ∨
      ∃ s ∈ cfg.ids, ∃ node ∈ (c.server s).callee, node.id = p := by
    intro heq
    rw [heq] at hcut
    exact Or.inl hcut
  cases l with
  | readStatus | testHeartbeat | requestVote | endRequestVote | createLaptop | dequeue
  | recvLogResponse | endRound =>
      exact hsame (move_cut hact)
  | leaderMaintainLog s i accepts =>
      have heq : c'.cut = (c.openLinks s accepts).cut := move_cut hact
      exact hsame heq
  | replicateLog s accepts =>
      have heq : c'.cut = (c.openLinks s accepts).cut := move_cut hact
      exact hsame heq
  | shipLaptop s stub =>
      obtain ⟨⟨f', laptop⟩, -, rfl, -⟩ := TransitionSystem.exists_of_map_eq_some hact
      exact hsame rfl
  | sendRequestVote s | sendLogRequest s =>
      simp only [Cluster.act] at hact
      split at hact
      · exact hsame (move_cut hact)
      · cases hact
  | recvVoteResponse s =>
      simp only [Cluster.act] at hact
      split at hact
      · exact hsame (move_cut hact)
      · cases hact
  | voteLinkFails s | logLinkFails s =>
      rw [move_cut hact] at hcut
      exact (dropLink_cut hcut).imp_right fun hcallee => ⟨s, hactor s rfl, hcallee⟩
  | handle s =>
      simp only [Cluster.act, Cluster.handle] at hact
      split at hact
      · exact hsame (serveAt_cut hact fun _ _ => rfl)
      · cases hact
  | handlePending k =>
      simp only [Cluster.act, Cluster.handlePending] at hact
      split at hact
      · exact hsame (serveAt_cut hact fun _ _ => rfl)
      · cases hact
  | handleGarbage s msg =>
      simp only [Cluster.act, Cluster.handleGarbage] at hact
      split at hact
      · exact hsame (serveAt_cut hact fun _ _ => rfl)
      · cases hact

/-- Garbage is decoded at the end of a failed connection. -/
lemma cut_of_garbage {msg : RequestVoteMessage}
    (hst : (system cfg).step c (.handleGarbage s msg) = some (c', es)) : c.cut s = true := by
  have hact := act_of_step hst
  simp only [Cluster.act, Cluster.handleGarbage] at hact
  split at hact
  · assumption
  · cases hact

end Cut

/-! ## Runs -/

/-- Calls, late requests and failed connections stay within `R`. -/
structure Confined (cfg : Config) (R : ℤ → ℤ → Prop) (c : Cluster) : Prop where
  contacts : ∀ s ∈ cfg.ids, ∀ x ∈ (c.server s).contacts, R s x.id
  pending : ∀ x ∈ c.pending, ∃ s, R s x.1
  cut : ∀ p, c.cut p = true → ∃ s, R s p

section Runs

variable {cfg : Config} {connects : ℤ → ServerNode → Bool} {R : ℤ → ℤ → Prop}
  {ok : Cluster → Label → Prop} {c c' : Cluster} {tr es : List Event} {l : Label}

lemma mem_boot_contacts {s : ℤ} {x : ServerNode} :
    x ∈ ((boot cfg connects).server s).contacts ↔ x ∈ cfg.peers s ∧ connects s x = true := by
  obtain ⟨index, heq, -⟩ := bootMetadata_eq cfg connects s
  have hmetadata : ((boot cfg connects).server s).metadata = _ := heq
  have hlock : ((boot cfg connects).server s).metaLock = .free := rfl
  rw [mem_contacts, hmetadata, hlock, mem_foldl_insertSocket, List.mem_filter]
  simp [MetaLock.nodes]

lemma confined_boot (cfg : Config) (connects : ℤ → ServerNode → Bool) :
    Confined cfg (cfg.Reaches connects) (boot cfg connects) := by
  refine ⟨fun s hs x hx => ?_, fun x hx => ?_, fun p hp => ?_⟩
  · obtain ⟨hpeer, hconnects⟩ := mem_boot_contacts.1 hx
    exact ⟨hs, Config.mem_reached.2 ⟨x, hpeer, hconnects, rfl⟩⟩
  · cases hx
  · cases hp

lemma Confined.callee (h : Confined cfg R c) (hrun : (system cfg).Run ok c tr) {s : ℤ}
    (hs : s ∈ cfg.ids) {node : ServerNode} {rpc : Rpc}
    (hwire : (c.server s).wire = .request node rpc) : R s node.id := by
  refine h.contacts s hs node (mem_contacts_of_lock ?_)
  have hflow := (wellFormed hrun hs).flow
  cases rpc with
  | vote msg =>
      obtain ⟨⟨rest, hlock⟩, -⟩ := hflow.voteRequest node msg hwire
      rw [hlock]
      exact List.mem_cons_self
  | log req =>
      obtain ⟨⟨caller, rest, new, change, hlock⟩, -⟩ := hflow.logRequest node req hwire
      exact mem_nodes hlock

lemma Confined.step (h : Confined cfg R c) (hrun : (system cfg).Run ok c tr)
    (hst : (system cfg).step c l = some (c', es)) : Confined cfg R c' := by
  have hcut : ∀ p, c'.cut p = true → ∃ s, R s p := by
    intro p hp
    rcases cut_of_step hst hp with hold | ⟨s, hs, node, hcallee, rfl⟩
    · exact h.cut p hold
    · exact ⟨s, h.contacts s hs node (mem_contacts_of_callee hcallee)⟩
  have hwith : ∀ {p rpc md reply}, Served (c.server p) rpc md reply → ∀ s ∈ cfg.ids,
      ∀ x ∈ (c.withMetadata p md s).contacts, R s x.id := by
    intro p rpc md reply hserved s hs x hx
    unfold Cluster.withMetadata at hx
    by_cases hsp : s = p
    · subst hsp
      rw [Function.update_self,
        contacts_served (hserved.samePlace (wellFormed hrun hs).sound.stored)] at hx
      exact h.contacts s hs x hx
    · rw [Function.update_of_ne hsp] at hx
      exact h.contacts s hs x hx
  cases effect_of_step hst with
  | @thread q f _ hmem hstep hserver hpending =>
      refine ⟨fun s hs x hx => ?_, fun x hx => ?_, hcut⟩
      · rw [hserver] at hx
        by_cases hsq : s = q
        · subst hsq
          rw [Function.update_self] at hx
          exact h.contacts s hs x (hstep.contacts x hx)
        · rw [Function.update_of_ne hsq] at hx
          exact h.contacts s hs x hx
      · rcases hpending x hx with hold | habandoned
        · exact h.pending x hold
        · obtain ⟨node, hwire, hid⟩ := Wire.eq_of_mem_abandoned habandoned
          exact ⟨q, hid ▸ h.callee hrun hmem hwire⟩
  | @answer q node rpc md reply hmem hwire hserved hserver hpending =>
      refine ⟨fun s hs x hx => ?_, fun x hx => h.pending x (hpending ▸ hx), hcut⟩
      rw [hserver] at hx
      by_cases hsq : s = q
      · subst hsq
        rw [Function.update_self] at hx
        exact hwith hserved s hs x hx
      · rw [Function.update_of_ne hsq] at hx
        exact hwith hserved s hs x hx
  | discard hfrom hserved hserver hpending =>
      refine ⟨fun s hs x hx => ?_, fun x hx => h.pending x (hpending x hx), hcut⟩
      rw [hserver] at hx
      exact hwith hserved s hs x hx

lemma run_of_boot (hpath : (system cfg).Path ok (boot cfg connects, []) (c, tr)) :
    (system cfg).Run TransitionSystem.anyStep c tr := by
  have hstart : (system cfg).Run TransitionSystem.anyStep (boot cfg connects) [] :=
    .init ⟨connects, rfl⟩
  exact hpath.run hstart

/-- **What start-up reached bounds the run.** -/
theorem confined (hpath : (system cfg).Path ok (boot cfg connects, []) (c, tr)) :
    Confined cfg (cfg.Reaches connects) c := by
  have hstart : (system cfg).Run TransitionSystem.anyStep (boot cfg connects) [] :=
    .init ⟨connects, rfl⟩
  exact TransitionSystem.Path.invariant (I := Confined cfg (cfg.Reaches connects))
    (fun _ _ _ _ _ hrun _ hst h => h.step hrun hst) hpath hstart (confined_boot cfg connects)

/-- A server that handles a request was called by one that reached it. -/
lemma Confined.delivered (h : Confined cfg R c) (hrun : (system cfg).Run ok c tr)
    (hst : (system cfg).step c l = some (c', es)) {p : ℤ} {rpc : Rpc}
    (hdelivered : c.delivered l = some (p, rpc)) : ∃ s, R s p := by
  rcases Cluster.delivered_cases hdelivered with
    ⟨s, hs, node, hwire, rfl⟩ | hpending | ⟨msg, rfl, rfl⟩
  · exact ⟨s, h.callee hrun (mem_of_step hst s hs) hwire⟩
  · exact h.pending _ hpending
  · exact h.cut p (cut_of_garbage hst)

end Runs

end LaptopRaft
