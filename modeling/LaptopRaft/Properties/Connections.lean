import LaptopRaft.Model.Scenario
import LaptopRaft.Properties.WellFormed

/-!
# The bookkeeping of connections

A peer is to be a key of `node_socket`, over which both RPCs iterate, or queued in
`failed_neighbors`, from where `TryReconnect` puts it back.  Inside `ReplicateLog` the first
container is rebuilt: the peers still to be visited in the round, and those in `new_node_socket`,
are the `active` ones.  `Connected` is the partition of the peers into active and failed ones.

Three paths of the source leave it:

* `InitNeighbors` records a peer that does not accept the connection nowhere (`TryReconnect`, its
  sibling, keeps it queued);
* `new_node_socket` is not cleared between the rounds, so a peer that fails after it has answered
  in an earlier round is queued, and stays (`NoSecondFailure`);
* the early return of a deposed leader skips `node_socket = new_node_socket`, so a peer that
  failed in the round is queued, and stays (`NoPartialRound`).

`connections_kept` is the result for runs that avoid them; `peer_lost` and `peer_failed_twice`
are runs that do not.
-/

namespace LaptopRaft

open ServerMetadata

/-- Between calls of `ReplicateLog` and `RequestVote`, every peer is in exactly one of the two
containers, and the queue has no duplicates. -/
def Bookkept (cfg : Config) (c : Cluster) : Prop :=
  ∀ s ∈ cfg.ids, (c.server s).metaLock = .free →
    (∀ node ∈ cfg.peers s, Xor (node ∈ (c.server s).metadata.nodeSocket)
      (node ∈ (c.server s).metadata.failedNeighbors)) ∧
    (c.server s).metadata.failedNeighbors.Nodup

/-! ## The condition -/

namespace LaptopFactory

variable (f : LaptopFactory)

/-- The log response the server has received. -/
def logResponse : Option LogResponse :=
  match f.wire with
  | .response (.log res) => some res
  | _ => none

/-- The peer at hand has answered in an earlier round of the call. -/
def AnsweredBefore : Prop :=
  match f.metaLock with
  | .replicateLog _ ⟨node :: _, new, _⟩ => node ∈ new
  | _ => False

/-- Every peer that this round has visited has answered. -/
def AllAnswered : Prop :=
  match f.metaLock with
  | .replicateLog _ ⟨rest, new, _⟩ => ∀ x ∈ f.metadata.nodeSocket, x ∈ rest ∨ x ∈ new
  | _ => True

/-- The response to an entry request comes from a higher term. -/
def Outranked (res : LogResponse) : Prop :=
  match f.metaLock with
  | .replicateLog _ ⟨node :: _, _, _⟩ =>
      f.metadata.sentTo node ≠ some f.metadata.logSize ∧ f.metadata.currentTerm < res.currentTerm
  | _ => False

instance : Decidable f.AnsweredBefore := by
  unfold AnsweredBefore
  exact match f.metaLock with
    | .replicateLog _ ⟨_ :: _, _, _⟩ => inferInstance
    | .replicateLog _ ⟨[], _, _⟩ | .requestVote _ | .free => instDecidableFalse

instance : Decidable f.AllAnswered := by
  unfold AllAnswered
  exact match f.metaLock with
    | .replicateLog _ ⟨_, _, _⟩ => inferInstance
    | .requestVote _ | .free => instDecidableTrue

instance (res : LogResponse) : Decidable (f.Outranked res) := by
  unfold Outranked
  exact match f.metaLock with
    | .replicateLog _ ⟨_ :: _, _, _⟩ => inferInstance
    | .replicateLog _ ⟨[], _, _⟩ | .requestVote _ | .free => instDecidableFalse

end LaptopFactory

/-- No peer fails that has answered in an earlier round of the call. -/
def NoSecondFailure (c : Cluster) : Label → Prop
  | .logLinkFails s => ¬ (c.server s).AnsweredBefore
  | .recvLogResponse s => ∀ res ∈ (c.server s).logResponse, res.followerId = -1 →
      ¬ (c.server s).AnsweredBefore
  | _ => True

/-- No leader is deposed in a round in which a peer has failed. -/
def NoPartialRound (c : Cluster) : Label → Prop
  | .recvLogResponse s => ∀ res ∈ (c.server s).logResponse, res.followerId ≠ -1 →
      (c.server s).Outranked res → (c.server s).AllAnswered
  | _ => True

instance (c : Cluster) (l : Label) : Decidable (NoSecondFailure c l) := by
  induction l using Label.casesOn <;> dsimp only [NoSecondFailure] <;> infer_instance

instance (c : Cluster) (l : Label) : Decidable (NoPartialRound c l) := by
  induction l using Label.casesOn <;> dsimp only [NoPartialRound] <;> infer_instance

/-- The steps that keep the books. -/
structure KeepsConnections (c : Cluster) (l : Label) : Prop where
  once : NoSecondFailure c l
  whole : NoPartialRound c l

instance (c : Cluster) (l : Label) : Decidable (KeepsConnections c l) :=
  decidable_of_iff (NoSecondFailure c l ∧ NoPartialRound c l)
    ⟨fun h => ⟨h.1, h.2⟩, fun h => ⟨h.once, h.whole⟩⟩

/-! ## Insertion and reconnection -/

lemma nodup_insertSocket {sockets : List ServerNode} (h : sockets.Nodup) (node : ServerNode) :
    (insertSocket sockets node).Nodup := by
  unfold insertSocket
  split
  · exact h
  · rename_i hnot
    rw [(List.perm_orderedInsert _ node sockets).nodup_iff, List.nodup_cons]
    exact ⟨hnot, h⟩

lemma nodup_foldl_insertSocket {nodes sockets : List ServerNode} (h : sockets.Nodup) :
    (nodes.foldl insertSocket sockets).Nodup := by
  induction nodes generalizing sockets with
  | nil => exact h
  | cons node nodes ih => exact ih (nodup_insertSocket h node)

section Reconnect

variable {md : ServerMetadata} {accepts : List Bool}

lemma nodup_reconnected_failed (hlen : accepts.length = md.failedNeighbors.length)
    (hnodup : md.failedNeighbors.Nodup) :
    (md.tryReconnect accepts).failedNeighbors.Nodup := by
  have hall : (md.failedNeighbors.zip accepts).map Prod.fst = md.failedNeighbors :=
    List.map_fst_zip hlen.ge
  have hsub := (List.filter_sublist (p := (!·.2))
    (l := md.failedNeighbors.zip accepts)).map Prod.fst
  rw [hall] at hsub
  rw [tryReconnect_failed]
  exact hnodup.sublist hsub

lemma mem_reconnected_nodeSocket {node : ServerNode} :
    node ∈ (md.tryReconnect accepts).nodeSocket ↔
      (node, true) ∈ md.failedNeighbors.zip accepts ∨ node ∈ md.nodeSocket := by
  rw [tryReconnect_nodeSocket, mem_foldl_insertSocket]
  simp

lemma mem_reconnected_failed {node : ServerNode} :
    node ∈ (md.tryReconnect accepts).failedNeighbors ↔
      (node, false) ∈ md.failedNeighbors.zip accepts := by
  rw [tryReconnect_failed]
  simp

/-- `TryReconnect` moves peers from one container to the other. -/
lemma reconnected_split (hlen : accepts.length = md.failedNeighbors.length)
    (hnodup : md.failedNeighbors.Nodup) {node : ServerNode}
    (hsplit : node ∈ md.nodeSocket ↔ node ∉ md.failedNeighbors) :
    node ∈ (md.tryReconnect accepts).nodeSocket ↔
      node ∉ (md.tryReconnect accepts).failedNeighbors := by
  have hall : (md.failedNeighbors.zip accepts).map Prod.fst = md.failedNeighbors :=
    List.map_fst_zip hlen.ge
  rw [mem_reconnected_nodeSocket, mem_reconnected_failed]
  by_cases hfailed : node ∈ md.failedNeighbors
  · have hout : node ∉ md.nodeSocket := fun hin => hsplit.1 hin hfailed
    -- the queue has one answer for each peer
    have hzip : ∃ accepted, (node, accepted) ∈ md.failedNeighbors.zip accepts := by
      rw [← hall] at hfailed
      simpa using hfailed
    have hone : ∀ {a b}, (node, a) ∈ md.failedNeighbors.zip accepts →
        (node, b) ∈ md.failedNeighbors.zip accepts → a = b := by
      intro a b ha hb
      rw [← hall] at hnodup
      exact congrArg Prod.snd (List.inj_on_of_nodup_map hnodup ha hb rfl)
    obtain ⟨accepted, haccepted⟩ := hzip
    constructor
    · rintro (htrue | hin) hfalse
      · cases hone htrue hfalse
      · exact hout hin
    · intro hnot
      cases accepted with
      | true => exact Or.inl haccepted
      | false => exact absurd haccepted hnot
  · have hnone : ∀ a, (node, a) ∉ md.failedNeighbors.zip accepts :=
      fun a ha => hfailed (List.of_mem_zip ha).1
    exact ⟨fun _ => hnone false, fun _ => Or.inr (hsplit.2 hfailed)⟩

end Reconnect

/-! ## The invariant -/

/-- The peers that count as connected: inside `ReplicateLog` those the map under construction
has or may still get. -/
def LaptopFactory.active (f : LaptopFactory) : List ServerNode :=
  match f.metaLock with
  | .replicateLog _ loop => loop.rest ++ loop.newNodeSocket
  | _ => f.metadata.nodeSocket

structure Connected (cfg : Config) (s : ℤ) (f : LaptopFactory) : Prop where
  split : ∀ node ∈ cfg.peers s, node ∈ f.active ↔ node ∉ f.metadata.failedNeighbors
  failed : f.metadata.failedNeighbors.Nodup
  sockets : f.metadata.nodeSocket.Nodup
  loop : ∀ caller rest new change, f.metaLock = .replicateLog caller ⟨rest, new, change⟩ →
    rest.Nodup ∧ new.Nodup ∧ ∀ x ∈ rest ++ new, x ∈ f.metadata.nodeSocket

section Connected

variable {cfg : Config} {s : ℤ} {f f' : LaptopFactory} {l : Label} {es : List Event}
  {caller : Caller} {node : ServerNode} {rest new : List ServerNode} {change n : ℕ}
  {md : ServerMetadata}

lemma Connected.of_same (h : Connected cfg s f) (hlock : f'.metaLock = f.metaLock)
    (hsockets : f'.metadata.nodeSocket = f.metadata.nodeSocket)
    (hfailed : f'.metadata.failedNeighbors = f.metadata.failedNeighbors) :
    Connected cfg s f' := by
  have hactive : f'.active = f.active := by
    unfold LaptopFactory.active
    rw [hlock, hsockets]
  constructor
  · rw [hactive, hfailed]
    exact h.split
  · rw [hfailed]
    exact h.failed
  · rw [hsockets]
    exact h.sockets
  · rw [hlock, hsockets]
    exact h.loop

/-- Outside of `ReplicateLog` the containers speak for themselves. -/
lemma Connected.of_containers (hlock : ∀ caller loop, f.metaLock ≠ .replicateLog caller loop)
    (hsplit : ∀ node ∈ cfg.peers s,
      node ∈ f.metadata.nodeSocket ↔ node ∉ f.metadata.failedNeighbors)
    (hfailed : f.metadata.failedNeighbors.Nodup) (hsockets : f.metadata.nodeSocket.Nodup) :
    Connected cfg s f := by
  refine ⟨?_, hfailed, hsockets, fun caller rest new change hloop => absurd hloop (hlock _ _)⟩
  unfold LaptopFactory.active
  split
  · rename_i hloop
    exact absurd hloop (hlock _ _)
  · exact hsplit

/-- Before the call, what is active is what `node_socket` holds. -/
lemma Connected.containers (h : Connected cfg s f)
    (hlock : ∀ caller loop, f.metaLock ≠ .replicateLog caller loop) : ∀ node ∈ cfg.peers s,
      node ∈ f.metadata.nodeSocket ↔ node ∉ f.metadata.failedNeighbors := by
  have hsplit := h.split
  unfold LaptopFactory.active at hsplit
  split at hsplit
  · rename_i hloop
    exact absurd hloop (hlock _ _)
  · exact hsplit

lemma Connected.of_loop (hlock : f.metaLock = .replicateLog caller ⟨rest, new, n⟩)
    (hsplit : ∀ node ∈ cfg.peers s,
      node ∈ rest ++ new ↔ node ∉ f.metadata.failedNeighbors)
    (hfailed : f.metadata.failedNeighbors.Nodup) (hsockets : f.metadata.nodeSocket.Nodup)
    (hrest : rest.Nodup) (hnew : new.Nodup) (hsub : ∀ x ∈ rest ++ new, x ∈ f.metadata.nodeSocket) :
    Connected cfg s f := by
  refine ⟨?_, hfailed, hsockets, fun caller' rest' new' change' hloop => ?_⟩
  · unfold LaptopFactory.active
    rw [hlock]
    exact hsplit
  · rw [hlock] at hloop
    cases hloop
    exact ⟨hrest, hnew, hsub⟩

lemma Connected.within (h : Connected cfg s f)
    (hlock : f.metaLock = .replicateLog caller ⟨rest, new, change⟩) : ∀ node ∈ cfg.peers s,
      node ∈ rest ++ new ↔ node ∉ f.metadata.failedNeighbors := by
  have hsplit := h.split
  unfold LaptopFactory.active at hsplit
  rw [hlock] at hsplit
  exact hsplit

/-- Entering `ReplicateLog`, after `TryReconnect`. -/
lemma Connected.entered (h : Connected cfg s f) (hfree : f.metaLock = .free)
    {accepts : List Bool} (hlen : accepts.length = f.metadata.failedNeighbors.length)
    (hsockets : md.nodeSocket = (f.metadata.tryReconnect accepts).nodeSocket)
    (hfailed : md.failedNeighbors = (f.metadata.tryReconnect accepts).failedNeighbors) :
    Connected cfg s (f.enterReplicateLog caller md) := by
  have hbefore := h.containers (by simp [hfree])
  have hnodup : md.nodeSocket.Nodup := by
    rw [hsockets, tryReconnect_nodeSocket]
    exact nodup_foldl_insertSocket h.sockets
  refine Connected.of_loop rfl (fun node hnode => ?_) ?_ hnodup hnodup List.nodup_nil ?_
  · show node ∈ md.nodeSocket ++ [] ↔ node ∉ md.failedNeighbors
    rw [List.append_nil, hsockets, hfailed]
    exact reconnected_split hlen h.failed (hbefore node hnode)
  · show md.failedNeighbors.Nodup
    rw [hfailed]
    exact nodup_reconnected_failed hlen h.failed
  · intro x hx
    rwa [List.append_nil] at hx

/-- The peer at hand has answered. -/
lemma Connected.next (h : Connected cfg s f)
    (hlock : f.metaLock = .replicateLog caller ⟨node :: rest, new, change⟩)
    (hlock' : f'.metaLock = .replicateLog caller ⟨rest, insertSocket new node, n⟩)
    (hsockets : f'.metadata.nodeSocket = f.metadata.nodeSocket)
    (hfailed : f'.metadata.failedNeighbors = f.metadata.failedNeighbors) :
    Connected cfg s f' := by
  obtain ⟨hrest, hnew, hsub⟩ := h.loop _ _ _ _ hlock
  have hmoved : ∀ x, x ∈ rest ++ insertSocket new node ↔ x ∈ node :: rest ++ new := by
    intro x
    simp only [List.mem_append, mem_insertSocket, List.mem_cons]
    tauto
  apply Connected.of_loop hlock'
  · intro x hx
    rw [hmoved, hfailed]
    exact h.within hlock x hx
  · rw [hfailed]
    exact h.failed
  · rw [hsockets]
    exact h.sockets
  · exact (List.nodup_cons.1 hrest).2
  · exact nodup_insertSocket hnew node
  · intro x hx
    rw [hsockets]
    exact hsub x ((hmoved x).1 hx)

/-- The peer at hand fails, for the first time. -/
lemma Connected.fail (h : Connected cfg s f) (hplaced : Placed cfg s f)
    (hlock : f.metaLock = .replicateLog caller ⟨node :: rest, new, change⟩) (hfirst : node ∉ new)
    (hlock' : f'.metaLock = .replicateLog caller ⟨rest, new, n⟩)
    (hsockets : f'.metadata.nodeSocket = f.metadata.nodeSocket)
    (hfailed : f'.metadata.failedNeighbors = f.metadata.failedNeighbors ++ [node]) :
    Connected cfg s f' := by
  obtain ⟨hrest, hnew, hsub⟩ := h.loop _ _ _ _ hlock
  obtain ⟨hnot, hrest'⟩ := List.nodup_cons.1 hrest
  have hwithin := h.within hlock
  have hnode : node ∈ cfg.peers s := hplaced.visiting node (mem_nodes hlock)
  have hqueued : node ∉ f.metadata.failedNeighbors := (hwithin node hnode).1 (by simp)
  apply Connected.of_loop hlock'
  · intro x hx
    have hold := hwithin x hx
    rw [hfailed]
    by_cases hxnode : x = node
    · subst hxnode
      simp [hnot, hfirst]
    · simpa [hxnode] using hold
  · rw [hfailed, List.nodup_append]
    refine ⟨h.failed, List.nodup_singleton node, ?_⟩
    rintro x hx _ hy rfl
    rw [List.mem_singleton.1 hy] at hx
    exact hqueued hx
  · rw [hsockets]
    exact h.sockets
  · exact hrest'
  · exact hnew
  · intro x hx
    rw [hsockets]
    exact hsub x (List.mem_cons_of_mem _ hx)

/-! ## Steps -/

/-- An answer without a follower's id is a failure, and does not end the call; any other answer
leaves the queue alone. -/
lemma LaptopFactory.recvLogResponse_valid (h : f.recvLogResponse = some f') :
    ∃ res ∈ f.logResponse, (res.followerId = -1 ∧ f'.metaLock ≠ .free) ∨
      (res.followerId ≠ -1 ∧ f'.metadata.failedNeighbors = f.metadata.failedNeighbors) := by
  unfold recvLogResponse at h
  split at h
  · rename_i caller node rest new change res hlock hwire
    refine ⟨res, by simp [logResponse, hwire], ?_⟩
    split at h
    · rename_i hinvalid
      obtain ⟨md, -, rfl⟩ := Option.map_eq_some_iff.1 h
      exact Or.inl ⟨hinvalid, by simp⟩
    · rename_i hvalid
      refine Or.inr ⟨hvalid, ?_⟩
      split at h
      · obtain rfl := Option.some.inj h
        rfl
      · obtain ⟨⟨md, goOn⟩, hreact, rfl⟩ := Option.map_eq_some_iff.1 h
        have hqueue := (recvEntryResponse_cases hreact).failedNeighbors
        cases goOn with
        | true => exact hqueue
        | false =>
            simp only [Bool.false_eq_true, if_false, returnTo_metadata]
            exact hqueue
  · cases h

lemma recvLogResponse_of_step {c c' : Cluster}
    (hst : (system cfg).step c (.recvLogResponse s) = some (c', es)) :
    (c.server s).recvLogResponse = some (c'.server s) := by
  change (if _ then c.act _ else none) = some (c', es) at hst
  split at hst
  · obtain ⟨f', hf, rfl, rfl⟩ := TransitionSystem.exists_of_map_eq_some hst
    have hserver : (c.setServer s f').server = Function.update c.server s f' := rfl
    rw [hf, hserver, Function.update_self]
  · cases hst

lemma ThreadStep.connected {ok : Cluster → Label → Prop} {c c' : Cluster} {tr : List Event}
    (hrun : (system cfg).Run ok c tr) (hok : KeepsConnections c l) (hs : s ∈ cfg.ids)
    (hst : (system cfg).step c l = some (c', es))
    (hstep : ThreadStep s (c.server s) l (c'.server s) es) (h : Connected cfg s (c.server s)) :
    Connected cfg s (c'.server s) := by
  have hwf := wellFormed hrun hs
  have hvalid : l = .recvLogResponse s → _ := fun hl =>
    LaptopFactory.recvLogResponse_valid (recvLogResponse_of_step (hl ▸ hst))
  -- a step between two states that are not in `ReplicateLog`
  have houter : ∀ {g : LaptopFactory}, g.metadata.nodeSocket = (c.server s).metadata.nodeSocket →
      g.metadata.failedNeighbors = (c.server s).metadata.failedNeighbors →
      (∀ caller loop, (c.server s).metaLock ≠ .replicateLog caller loop) →
      (∀ caller loop, g.metaLock ≠ .replicateLog caller loop) → Connected cfg s g := by
    intro g hsockets hfailed hbefore hafter
    apply Connected.of_containers hafter
    · rw [hsockets, hfailed]
      exact h.containers hbefore
    · rw [hfailed]
      exact h.failed
    · rw [hsockets]
      exact h.sockets
  generalize c'.server s = f' at hstep hvalid
  cases hstep with
  | readStatus | rest | timeOut | askVote | queue | sendLog => exact h.of_same rfl rfl rfl
  | stand hthread hfree => exact houter rfl rfl (by simp [hfree]) (by simp)
  | countVote hlock | ignoreVote hlock | elected hlock | outvoted hlock | endVote hlock =>
      exact houter rfl rfl (by simp [hlock]) (by simp)
  | maintain hreq hfree haccepts => exact h.entered hfree haccepts rfl rfl
  | replicate hthread hfree haccepts => exact h.entered hfree haccepts rfl rfl
  | @fail caller node rest new change md _ hlock hlabel hfail =>
      obtain ⟨ack, sent, -, -, -, -, rfl⟩ := failNode_cases hfail
      refine h.fail hwf.placed hlock ?_ rfl rfl rfl
      have honce := hok.once
      rcases hlabel with rfl | rfl
      · obtain ⟨res, hres, ⟨hinvalid, -⟩ | ⟨-, hqueue⟩⟩ := hvalid rfl
        · have hfirst := honce res hres hinvalid
          simpa [LaptopFactory.AnsweredBefore, hlock] using hfirst
        · simp at hqueue
      · simpa [NoSecondFailure, LaptopFactory.AnsweredBefore, hlock] using honce
  | heartbeatAnswered hlock => exact h.next hlock rfl rfl rfl
  | entryAnswered hlock hwire hsent hreact =>
      obtain ⟨-, sent, ack, k, rfl, -, -⟩ := hreact.frame hwf hlock hwire hsent
      exact h.next hlock rfl rfl rfl
  | @deposed caller node rest new change res hlock hwire hsent hlt =>
      have hwhole : (c.server s).AllAnswered := by
        obtain ⟨res', hres', ⟨-, hheld⟩ | ⟨hanswered, -⟩⟩ := hvalid rfl
        · exact absurd (LaptopFactory.returnTo_metaLock _ _) hheld
        · have hsame : res = res' := by simpa [LaptopFactory.logResponse, hwire] using hres'
          subst hsame
          apply hok.whole res hres' hanswered
          simpa [LaptopFactory.Outranked, hlock] using ⟨hsent, hlt⟩
      have hall : ∀ x, x ∈ (c.server s).metadata.nodeSocket ↔ x ∈ node :: rest ++ new := by
        intro x
        constructor
        · intro hx
          have hvisited := hwhole
          unfold LaptopFactory.AllAnswered at hvisited
          rw [hlock] at hvisited
          exact List.mem_append.2 (hvisited x hx)
        · exact (h.loop _ _ _ _ hlock).2.2 x
      apply Connected.of_containers (by simp)
      · rw [LaptopFactory.returnTo_metadata]
        intro x hx
        exact (hall x).trans (h.within hlock x hx)
      · rw [LaptopFactory.returnTo_metadata]
        exact h.failed
      · rw [LaptopFactory.returnTo_metadata]
        exact h.sockets
  | @nextRound caller new change hlock hchange =>
      have hwithin := h.within hlock
      obtain ⟨-, hnew, -⟩ := h.loop _ _ _ _ hlock
      refine Connected.of_loop rfl (fun x hx => ?_) h.failed hnew hnew hnew (by simp)
      rw [← hwithin x hx]
      simp
  | @«return» caller new hlock =>
      have hwithin := h.within hlock
      obtain ⟨-, hnew, -⟩ := h.loop _ _ _ _ hlock
      apply Connected.of_containers (by simp)
      · rw [LaptopFactory.returnTo_metadata]
        intro x hx
        exact hwithin x hx
      · rw [LaptopFactory.returnTo_metadata]
        exact h.failed
      · rw [LaptopFactory.returnTo_metadata]
        exact hnew

/-- A handler touches neither container. -/
lemma Served.samePlace {rpc : Rpc} {reply : Reply} (hserved : Served f rpc md reply)
    (hstored : Stored f.metadata) : SamePlace f.metadata md := by
  cases hserved with
  | vote hfree hanswer => exact hanswer.samePlace
  | log hfree hvalid hanswer => exact (getLogResponse_cases hstored hanswer).samePlace

end Connected

section Runs

variable {cfg : Config} {connects : ℤ → ServerNode → Bool} {c c' : Cluster} {tr es : List Event}
  {l : Label}

lemma connected_boot {s : ℤ} (hall : ∀ node ∈ cfg.peers s, connects s node = true) :
    Connected cfg s ((boot cfg connects).server s) := by
  obtain ⟨index, heq, -⟩ := bootMetadata_eq cfg connects s
  have hmetadata : ((boot cfg connects).server s).metadata = _ := heq
  apply Connected.of_containers (by simp [boot])
  · intro node hnode
    rw [hmetadata]
    simp only [mem_foldl_insertSocket, List.mem_filter]
    exact ⟨fun _ => List.not_mem_nil, fun _ => Or.inl ⟨hnode, hall node hnode⟩⟩
  · rw [hmetadata]
    exact List.nodup_nil
  · rw [hmetadata]
    exact nodup_foldl_insertSocket List.nodup_nil

/-- All servers of the cluster are connected. -/
def AllConnected (cfg : Config) (c : Cluster) : Prop :=
  ∀ s ∈ cfg.ids, Connected cfg s (c.server s)

lemma allConnected_step (hrun : (system cfg).Run TransitionSystem.anyStep c tr)
    (hok : KeepsConnections c l) (hst : (system cfg).step c l = some (c', es))
    (h : AllConnected cfg c) : AllConnected cfg c' := by
  intro q hq
  have hwith : ∀ {p rpc md reply}, Served (c.server p) rpc md reply →
      Connected cfg q (c.withMetadata p md q) := by
    intro p rpc md reply hserved
    unfold Cluster.withMetadata
    by_cases hqp : q = p
    · subst hqp
      rw [Function.update_self]
      have hplace := hserved.samePlace (wellFormed hrun hq).sound.stored
      exact (h q hq).of_same rfl hplace.nodeSocket hplace.failed
    · rw [Function.update_of_ne hqp]
      exact h q hq
  cases effect_of_step hst with
  | @thread s f _ hmem hstep hserver =>
      by_cases hqs : q = s
      · subst hqs
        have hself : c'.server q = f := by rw [hserver, Function.update_self]
        rw [← hself] at hstep
        exact hstep.connected hrun hok hq hst (h q hq)
      · rw [hserver, Function.update_of_ne hqs]
        exact h q hq
  | @answer s node rpc md reply hmem hwire hserved hserver =>
      rw [hserver]
      by_cases hqs : q = s
      · subst hqs
        rw [Function.update_self]
        exact (hwith hserved).of_same rfl rfl rfl
      · rw [Function.update_of_ne hqs]
        exact hwith hserved
  | discard hfrom hserved hserver =>
      rw [hserver]
      exact hwith hserved

/-- **Connection bookkeeping**, when every peer accepts at start-up, no peer fails after it has
answered in an earlier round, and no leader is deposed in a round in which a peer failed. -/
theorem connections_kept
    (hall : ∀ s ∈ cfg.ids, ∀ node ∈ cfg.peers s, connects s node = true)
    (hpath : (system cfg).Path KeepsConnections (boot cfg connects, []) (c, tr)) :
    Bookkept cfg c := by
  have hconnected : AllConnected cfg c := by
    have hrun : (system cfg).Run TransitionSystem.anyStep (boot cfg connects) [] :=
      .init ⟨connects, rfl⟩
    exact TransitionSystem.Path.invariant (I := AllConnected cfg)
      (fun _ _ _ _ _ hrun hok hst h => allConnected_step hrun hok hst h) hpath hrun
      fun s hs => connected_boot (hall s hs)
  intro s hs hfree
  obtain ⟨hsplit, hfailed, -, -⟩ := hconnected s hs
  refine ⟨fun node hnode => ?_, hfailed⟩
  rw [xor_iff_iff_not]
  exact (hconnected s hs).containers (by simp [hfree]) node hnode

end Runs

/-- A peer that fails in the first round of the call is queued, and only queued. -/
theorem connections_kept_firstRound : ∃ c tr,
    (system three).Path KeepsConnections (boot three fun _ _ => true, []) (c, tr) ∧
    (c.server 0).metaLock = .free ∧ (c.server 0).metadata.failedNeighbors = [⟨2, 2, "", 0⟩] ∧
    Bookkept three c := by
  obtain ⟨c, tr, hpath, hfree, hfailed⟩ := path_of_playFrom three KeepsConnections
    (P := fun c _ => (c.server 0).metaLock = .free ∧
      (c.server 0).metadata.failedNeighbors = [⟨2, 2, "", 0⟩])
    (fun _ _ => true) (stand 0 ++ callVote 0 ++ submit 0 7 1 ++ callLog 0 ++
      [.logLinkFails 0, .endRound 0] ++ callLog 0 ++ [.endRound 0]) (by decide +kernel)
  exact ⟨c, tr, hpath, hfree, hfailed, connections_kept (by decide) hpath⟩

/-- A peer that does not accept at start-up is in neither container. -/
theorem peer_lost : ∃ c tr, (system three).Run TransitionSystem.anyStep c tr ∧
    (c.server 0).metadata.nodeSocket = [⟨1, 1, "", 0⟩] ∧
    (c.server 0).metadata.failedNeighbors = [] ∧ ¬ Bookkept three c := by
  obtain ⟨c, tr, hrun, hfree, hsockets, hfailed⟩ := run_of_playFrom three TransitionSystem.anyStep
    (P := fun c _ => (c.server 0).metaLock = .free ∧
      (c.server 0).metadata.nodeSocket = [⟨1, 1, "", 0⟩] ∧
      (c.server 0).metadata.failedNeighbors = [])
    (fun _ node => node.id ≠ 2) [] (by decide +kernel)
  refine ⟨c, tr, hrun, hsockets, hfailed, fun hkept => ?_⟩
  have hone := (hkept 0 (by decide) hfree).1 ⟨2, 2, "", 0⟩ (by decide)
  rw [hsockets, hfailed] at hone
  revert hone
  simp [Xor]

/-- Server 2 fails in the second round of a call, and is still visited in the next call, where it
fails again: it is queued twice. -/
theorem peer_failed_twice : ∃ c tr, (system three).Run TransitionSystem.anyStep c tr ∧
    (c.server 0).metadata.failedNeighbors = [⟨2, 2, "", 0⟩, ⟨2, 2, "", 0⟩] ∧
    ¬ Bookkept three c := by
  obtain ⟨c, tr, hrun, hfree, hfailed⟩ := run_of_play three TransitionSystem.anyStep
    (P := fun c _ => (c.server 0).metaLock = .free ∧
      (c.server 0).metadata.failedNeighbors = [⟨2, 2, "", 0⟩, ⟨2, 2, "", 0⟩])
    (stand 0 ++ callVote 0 ++ submit 0 7 1 ++ callLog 0 ++ callLog 0 ++ [.endRound 0] ++
      callLog 0 ++ [.logLinkFails 0, .endRound 0, .readStatus 0, .replicateLog 0 [false]] ++
      callLog 0 ++ [.logLinkFails 0, .endRound 0]) (by decide +kernel)
  refine ⟨c, tr, hrun, hfailed, fun hkept => ?_⟩
  have hnodup := (hkept 0 (by decide) hfree).2
  rw [hfailed] at hnodup
  revert hnodup
  decide

end LaptopRaft
