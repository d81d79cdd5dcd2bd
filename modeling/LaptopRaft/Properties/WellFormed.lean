import LaptopRaft.Properties.Steps

/-!
# What holds in every reachable state

`WellFormed cfg s f` collects what every run keeps of server `s`, whatever the other servers do:

* `Placed`: the server's identity, its peers and their slots are those of its command line, and
  the nodes it keeps in its containers are peers.
* `Flow`: what is on the wire fits the loop that holds the lock.  An outstanding request is the
  one the metadata would build now, because nothing changes the metadata while the lock is held.
* `Sound`: the log, the counters, the record and the two arrays are consistent.

`wellFormed_of_run` is the invariant; together with it comes `SoundRequest`, what every log
request on its way satisfies.
-/

namespace LaptopRaft

open ServerMetadata

/-! ## Identity and peers -/

/-- The nodes a loop still holds on to. -/
def MetaLock.nodes : MetaLock → List ServerNode
  | .free => []
  | .requestVote rest => rest
  | .replicateLog _ loop => loop.rest ++ loop.newNodeSocket

/-- The peer that the loop is at is one of those it holds. -/
lemma mem_nodes {lock : MetaLock} {caller : Caller} {node : ServerNode} {rest new : List ServerNode}
    {change : ℕ} (hlock : lock = .replicateLog caller ⟨node :: rest, new, change⟩) :
    node ∈ lock.nodes := by
  rw [hlock]
  exact List.mem_append_left new List.mem_cons_self

structure Placed (cfg : Config) (s : ℤ) (f : LaptopFactory) : Prop where
  factoryId : f.metadata.factoryId = s
  neighbors : f.metadata.neighbors = cfg.peers s
  slot : ∀ k node, (cfg.peers s)[k]? = some node → f.metadata.slot node = k
  nodeSocket : ∀ node ∈ f.metadata.nodeSocket, node ∈ cfg.peers s
  failed : ∀ node ∈ f.metadata.failedNeighbors, node ∈ cfg.peers s
  visiting : ∀ node ∈ f.metaLock.nodes, node ∈ cfg.peers s

/-- The fields in which a server's place is recorded. -/
structure SamePlace (md md' : ServerMetadata) : Prop where
  factoryId : md'.factoryId = md.factoryId
  neighbors : md'.neighbors = md.neighbors
  serverIndexMap : md'.serverIndexMap = md.serverIndexMap
  nodeSocket : md'.nodeSocket = md.nodeSocket
  failed : md'.failedNeighbors = md.failedNeighbors

lemma mem_insertSocket {sockets : List ServerNode} {node x : ServerNode} :
    x ∈ insertSocket sockets node ↔ x = node ∨ x ∈ sockets := by
  unfold insertSocket
  split
  · rename_i hin
    constructor
    · exact Or.inr
    · rintro (rfl | hold)
      · exact hin
      · exact hold
  · exact List.mem_orderedInsert _

lemma mem_foldl_insertSocket {nodes sockets : List ServerNode} {x : ServerNode} :
    x ∈ nodes.foldl insertSocket sockets ↔ x ∈ nodes ∨ x ∈ sockets := by
  induction nodes generalizing sockets with
  | nil => simp
  | cons node nodes ih =>
      rw [List.foldl_cons, ih, mem_insertSocket, List.mem_cons]
      tauto

/-- The peers `TryReconnect` reached are put back, in the order of the queue. -/
lemma tryReconnect_nodeSocket (md : ServerMetadata) (accepts : List Bool) :
    (md.tryReconnect accepts).nodeSocket =
      (((md.failedNeighbors.zip accepts).filter (·.2)).map Prod.fst).foldl insertSocket
        md.nodeSocket := by
  rw [List.foldl_map]
  unfold tryReconnect
  split
  · rename_i hnone
    simp [hnone]
  · rfl

/-- The others stay queued. -/
lemma tryReconnect_failed (md : ServerMetadata) (accepts : List Bool) :
    (md.tryReconnect accepts).failedNeighbors =
      ((md.failedNeighbors.zip accepts).filter (!·.2)).map Prod.fst := by
  unfold tryReconnect
  split
  · rename_i hnone
    simp [hnone]
  · rfl

/-- What `main` records of the command line: the peers, and for each its position. -/
lemma addNeighbors_foldl (nodes : List ServerNode) (start : ℕ) (md : ServerMetadata) :
    ∃ index : ℤ → ℕ,
      (nodes.zipIdx start).foldl (fun md p => md.addNeighbors p.1 p.2) md =
        { md with serverIndexMap := index, neighbors := md.neighbors ++ nodes } ∧
      ((nodes.map ServerNode.id).Nodup →
        (∀ k node, nodes[k]? = some node → index node.id = start + k) ∧
        ∀ x, x ∉ nodes.map ServerNode.id → index x = md.serverIndexMap x) := by
  induction nodes generalizing start md with
  | nil =>
      refine ⟨md.serverIndexMap, ?_, fun _ => ⟨by simp, fun _ _ => rfl⟩⟩
      simp
  | cons node nodes ih =>
      obtain ⟨index, heq, hindex⟩ := ih (start + 1) (md.addNeighbors node start)
      refine ⟨index, ?_, fun hnodup => ?_⟩
      · rw [List.zipIdx_cons, List.foldl_cons, heq]
        simp [addNeighbors]
      · rw [List.map_cons, List.nodup_cons] at hnodup
        obtain ⟨hin, hout⟩ := hindex hnodup.2
        refine ⟨fun k x hx => ?_, fun x hx => ?_⟩
        · cases k with
          | zero =>
              obtain rfl : node = x := by simpa using hx
              rw [hout _ hnodup.1]
              simp [addNeighbors]
          | succ k =>
              rw [hin k x (by simpa using hx)]
              omega
        · rw [List.map_cons, List.mem_cons, not_or] at hx
          rw [hout x hx.2]
          simp [addNeighbors, hx.1]

/-- The metadata at start-up. -/
lemma bootMetadata_eq (cfg : Config) (connects : ℤ → ServerNode → Bool) (s : ℤ) :
    ∃ index : ℤ → ℕ,
      bootMetadata cfg connects s =
        { factoryId := s
          serverIndexMap := index
          neighbors := cfg.peers s
          nodeSocket := ((cfg.peers s).filter (connects s)).foldl insertSocket [] } ∧
      (((cfg.peers s).map ServerNode.id).Nodup →
        ∀ k node, (cfg.peers s)[k]? = some node → index node.id = k) := by
  obtain ⟨index, heq, hindex⟩ := addNeighbors_foldl (cfg.peers s) 0 { factoryId := s }
  refine ⟨index, ?_, fun hnodup k node hk => ?_⟩
  · simp only [bootMetadata, heq, initNeighbors, List.nil_append]
  · rw [(hindex hnodup).1 k node hk, Nat.zero_add]

lemma placed_boot {cfg : Config} {s : ℤ} (hs : s ∈ cfg.ids)
    (connects : ℤ → ServerNode → Bool) : Placed cfg s ((boot cfg connects).server s) := by
  obtain ⟨index, heq, hindex⟩ := bootMetadata_eq cfg connects s
  have hmetadata : ((boot cfg connects).server s).metadata = _ := heq
  constructor
  · rw [hmetadata]
  · rw [hmetadata]
  · intro k node hk
    rw [hmetadata]
    exact hindex (cfg.peers_nodup s hs) k node hk
  · intro node hnode
    rw [hmetadata] at hnode
    rcases mem_foldl_insertSocket.1 hnode with hin | hin
    · exact List.mem_of_mem_filter hin
    · cases hin
  · intro node hnode
    rw [hmetadata] at hnode
    cases hnode
  · exact fun node hnode => absurd hnode List.not_mem_nil

section Placed

variable {cfg : Config} {s : ℤ} {f : LaptopFactory} {md : ServerMetadata}

/-- A step that keeps the five fields, with whatever loop it leaves. -/
lemma Placed.of_same (h : Placed cfg s f) {f' : LaptopFactory}
    (hsame : SamePlace f.metadata f'.metadata)
    (hvisiting : ∀ node ∈ f'.metaLock.nodes, node ∈ cfg.peers s) : Placed cfg s f' := by
  refine ⟨hsame.factoryId.trans h.factoryId, hsame.neighbors.trans h.neighbors,
    fun k node hk => ?_, ?_, ?_, hvisiting⟩
  · rw [← h.slot k node hk, ServerMetadata.slot, ServerMetadata.slot, hsame.serverIndexMap]
  · rw [hsame.nodeSocket]
    exact h.nodeSocket
  · rw [hsame.failed]
    exact h.failed

/-- A step that keeps id, neighbors and connections. -/
lemma Placed.frame (h : Placed cfg s f) {leaderId currentTerm commitLength logSize votedFor : ℤ}
    {status : Status} {voteReceived : Finset ℤ} {sentLength ackLength : Option (List ℤ)}
    {heartbeat : Bool} {customerRecord : ℤ → Option ℤ} {smrLog : List MapOp} {lock : MetaLock}
    {wire : Wire} {thread : TimeoutThread} {erq : List LeaderRequest}
    {leaderThread : Fin 4 → Option LeaderRequest} {customer : ℕ → Customer}
    (hvisiting : ∀ node ∈ lock.nodes, node ∈ cfg.peers s) :
    Placed cfg s
      { metadata :=
          { f.metadata with
            leaderId := leaderId
            currentTerm := currentTerm
            status := status
            commitLength := commitLength
            logSize := logSize
            votedFor := votedFor
            voteReceived := voteReceived
            sentLength := sentLength
            ackLength := ackLength
            heartbeat := heartbeat
            customerRecord := customerRecord
            smrLog := smrLog }
        metaLock := lock
        wire := wire
        timeoutThread := thread
        erq := erq
        leaderThread := leaderThread
        customer := customer } :=
  h.of_same ⟨rfl, rfl, rfl, rfl, rfl⟩ hvisiting

lemma Placed.reconnected_nodeSocket (h : Placed cfg s f) (accepts : List Bool) :
    ∀ node ∈ (f.metadata.tryReconnect accepts).nodeSocket, node ∈ cfg.peers s := by
  intro node hnode
  rw [tryReconnect_nodeSocket, mem_foldl_insertSocket] at hnode
  rcases hnode with hin | hin
  · obtain ⟨⟨x, a⟩, hx, rfl⟩ := List.mem_map.1 hin
    exact h.failed x (List.of_mem_zip (List.mem_of_mem_filter hx)).1
  · exact h.nodeSocket node hin

lemma Placed.reconnected_failed (h : Placed cfg s f) (accepts : List Bool) :
    ∀ node ∈ (f.metadata.tryReconnect accepts).failedNeighbors, node ∈ cfg.peers s := by
  intro node hnode
  rw [tryReconnect_failed] at hnode
  obtain ⟨⟨x, a⟩, hx, rfl⟩ := List.mem_map.1 hnode
  exact h.failed x (List.of_mem_zip (List.mem_of_mem_filter hx)).1

lemma Placed.visiting_rest (h : Placed cfg s f) {node : ServerNode} {rest : List ServerNode}
    (hlock : f.metaLock = .requestVote (node :: rest)) :
    ∀ x ∈ (MetaLock.requestVote rest).nodes, x ∈ cfg.peers s := by
  intro x hx
  apply h.visiting
  rw [hlock]
  exact List.mem_cons_of_mem _ hx

/-- The follower that has answered is kept for the next round. -/
lemma Placed.visiting_next (h : Placed cfg s f) {caller : Caller} {node : ServerNode}
    {rest new : List ServerNode} {change n : ℕ}
    (hlock : f.metaLock = .replicateLog caller ⟨node :: rest, new, change⟩) :
    ∀ x ∈ (MetaLock.replicateLog caller ⟨rest, insertSocket new node, n⟩).nodes,
      x ∈ cfg.peers s := by
  have hvisiting := h.visiting
  rw [hlock] at hvisiting
  intro x hx
  rcases List.mem_append.1 hx with hrest | hnew
  · exact hvisiting x (by simp [MetaLock.nodes, hrest])
  · rcases mem_insertSocket.1 hnew with rfl | hold
    · exact hvisiting _ (by simp [MetaLock.nodes])
    · exact hvisiting x (by simp [MetaLock.nodes, hold])

lemma Placed.visiting_entered (h : Placed cfg s f) {caller : Caller} (accepts : List Bool) :
    ∀ x ∈ (MetaLock.replicateLog caller
      ⟨(f.metadata.tryReconnect accepts).nodeSocket, [], 0⟩).nodes, x ∈ cfg.peers s := by
  intro x hx
  rw [MetaLock.nodes, List.append_nil] at hx
  exact h.reconnected_nodeSocket accepts x hx

/-- A peer has the slot of its position on the command line. -/
lemma Placed.getElem_slot (h : Placed cfg s f) {node : ServerNode} (hnode : node ∈ cfg.peers s) :
    (cfg.peers s)[f.metadata.slot node]? = some node := by
  obtain ⟨k, hk⟩ := List.mem_iff_getElem?.1 hnode
  rw [h.slot k node hk]
  exact hk

lemma Placed.slot_lt_peers (h : Placed cfg s f) {node : ServerNode} (hnode : node ∈ cfg.peers s) :
    f.metadata.slot node < f.metadata.getPeerSize := by
  obtain ⟨hlt, -⟩ := List.getElem?_eq_some_iff.1 (h.getElem_slot hnode)
  rwa [getPeerSize, h.neighbors]

/-- Different peers have different slots. -/
lemma Placed.slot_ne (h : Placed cfg s f) {node node' : ServerNode} (hnode : node ∈ cfg.peers s)
    (hnode' : node' ∈ cfg.peers s) (hne : node ≠ node') :
    f.metadata.slot node ≠ f.metadata.slot node' := by
  intro hslot
  have hget := h.getElem_slot hnode
  rw [hslot, h.getElem_slot hnode'] at hget
  exact hne (Option.some.inj hget).symm

lemma Placed.peer_mem (hs : s ∈ cfg.ids) {node : ServerNode} (hnode : node ∈ cfg.peers s) :
    node.id ∈ cfg.ids :=
  ((cfg.mem_peers s hs node.id).1 (List.mem_map_of_mem hnode)).1

end Placed

/-! ## Consistency of the data -/

/-- An array with a slot for each of `n` peers and the server itself, of lengths up to `size`. -/
structure Within (n : ℕ) (size : ℤ) (xs : List ℤ) : Prop where
  length : xs.length = n + 1
  bounds : ∀ x ∈ xs, 0 ≤ x ∧ x ≤ size

lemma Within.set {n : ℕ} {size x : ℤ} {xs : List ℤ} (h : Within n size xs) (i : ℕ) (hx : 0 ≤ x)
    (hle : x ≤ size) : Within n size (xs.set i x) := by
  refine ⟨by rw [List.length_set, h.length], fun y hy => ?_⟩
  rcases List.mem_or_eq_of_mem_set hy with hin | rfl
  · exact h.bounds y hin
  · exact ⟨hx, hle⟩

lemma Within.mono {n : ℕ} {size size' : ℤ} {xs : List ℤ} (h : Within n size xs)
    (hle : size ≤ size') : Within n size' xs :=
  ⟨h.length, fun x hx => ⟨(h.bounds x hx).1, (h.bounds x hx).2.trans hle⟩⟩

lemma Within.replicate {n : ℕ} {size x : ℤ} (hx : 0 ≤ x) (hle : x ≤ size) :
    Within n size (List.replicate (n + 1) x) := by
  refine ⟨List.length_replicate, fun y hy => ?_⟩
  rw [List.eq_of_mem_replicate hy]
  exact ⟨hx, hle⟩

structure Sound (md : ServerMetadata) : Prop where
  stored : Stored md
  term_nonneg : 0 ≤ md.currentTerm
  entry_term : ∀ op ∈ md.smrLog, 0 ≤ op.term
  sent : ∀ xs, md.sentLength = some xs → Within md.getPeerSize md.logSize xs
  ack : ∀ xs, md.ackLength = some xs → Within md.getPeerSize md.logSize xs
  allocated : md.sentLength.isSome = md.ackLength.isSome

/-- What a log request satisfies whoever sent it. -/
structure SoundRequest (req : LogRequest) : Prop where
  term_nonneg : 0 ≤ req.currentTerm
  prefix_nonneg : 0 ≤ req.prefixLength
  entry_term : req.opTerm = -1 ∨ 0 ≤ req.opTerm
  heartbeat : req.opTerm = -1 → req.commitLength ≤ req.prefixLength

/-- The fields `Sound` reads, the term apart. -/
structure SameStore (md md' : ServerMetadata) : Prop where
  smrLog : md'.smrLog = md.smrLog
  logSize : md'.logSize = md.logSize
  commitLength : md'.commitLength = md.commitLength
  customerRecord : md'.customerRecord = md.customerRecord
  sentLength : md'.sentLength = md.sentLength
  ackLength : md'.ackLength = md.ackLength
  neighbors : md'.neighbors = md.neighbors

section Sound

variable {md md' : ServerMetadata}

lemma Sound.of_same (h : Sound md) (hsame : SameStore md md') (hterm : 0 ≤ md'.currentTerm) :
    Sound md' := by
  obtain ⟨h1, h2, h3, h4, h5, h6, h7⟩ := hsame
  have hpeers : md'.getPeerSize = md.getPeerSize := by rw [getPeerSize, getPeerSize, h7]
  refine ⟨h.stored.of_same h1 h2 h3 h4, hterm, ?_, ?_, ?_, ?_⟩
  · rw [h1]
    exact h.entry_term
  · rw [h2, h5, hpeers]
    exact h.sent
  · rw [h2, h6, hpeers]
    exact h.ack
  · rw [h5, h6]
    exact h.allocated

/-- Who leads, and which peers are connected, does not matter. -/
lemma Sound.frame (h : Sound md) {leaderId currentTerm votedFor : ℤ} {status : Status}
    {voteReceived : Finset ℤ} {heartbeat : Bool} {nodeSocket failedNeighbors : List ServerNode}
    (hterm : 0 ≤ currentTerm) :
    Sound
      { md with
        leaderId := leaderId
        currentTerm := currentTerm
        status := status
        votedFor := votedFor
        voteReceived := voteReceived
        heartbeat := heartbeat
        nodeSocket := nodeSocket
        failedNeighbors := failedNeighbors } :=
  h.of_same ⟨rfl, rfl, rfl, rfl, rfl, rfl, rfl⟩ hterm

lemma sound_boot (cfg : Config) (connects : ℤ → ServerNode → Bool) (s : ℤ) :
    Sound ((boot cfg connects).server s).metadata := by
  obtain ⟨index, heq, -⟩ := bootMetadata_eq cfg connects s
  have hmetadata : ((boot cfg connects).server s).metadata = _ := heq
  rw [hmetadata]
  refine ⟨⟨rfl, le_refl _, le_refl _, rfl⟩, le_refl _, ?_, ?_, ?_, rfl⟩
  · exact fun op hop => absurd hop List.not_mem_nil
  · exact fun xs hxs => nomatch hxs
  · exact fun xs hxs => nomatch hxs

/-! ### Each operation keeps it -/

lemma Sound.initLeader (h : Sound md) : Sound md.initLeader := by
  have hsize : 0 ≤ md.logSize := h.stored.commit_nonneg.trans h.stored.commit_le
  refine ⟨h.stored.frame, h.term_nonneg, h.entry_term, ?_, ?_, rfl⟩
  · rintro _ ⟨⟩
    exact Within.replicate hsize (le_refl _)
  · rintro _ ⟨⟩
    exact Within.replicate (le_refl _) hsize

lemma Sound.appendLog (h : Sound md) {t : ℤ} (ht : 0 ≤ t) (a o : ℤ) :
    Sound (md.appendLog t a o) := by
  have hgrow : md.logSize ≤ (md.appendLog t a o).logSize := by
    show md.logSize ≤ md.logSize + 1
    omega
  refine ⟨h.stored.appendLog t a o, h.term_nonneg, fun op hop => ?_, ?_, ?_, h.allocated⟩
  · rcases List.mem_append.1 hop with hold | hnew
    · exact h.entry_term op hold
    · rw [List.mem_singleton.1 hnew]
      exact ht
  · exact fun xs hxs => (h.sent xs hxs).mono hgrow
  · exact fun xs hxs => (h.ack xs hxs).mono hgrow

lemma Sound.maintained (h : Sound md) {op : MapOp} (hop : 0 ≤ op.term) {ack : List ℤ}
    (hack : md.ackLength = some ack) : Sound (md.maintained op ack) := by
  have happ := h.appendLog hop op.arg1 op.arg2
  have hsize : 0 ≤ md.logSize := h.stored.commit_nonneg.trans h.stored.commit_le
  refine ⟨happ.stored.frame, happ.term_nonneg, happ.entry_term, happ.sent, ?_, ?_⟩
  · rintro _ ⟨⟩
    exact (happ.ack ack hack).set _ (by omega) (le_refl _)
  · have halloc := h.allocated
    rw [hack] at halloc
    exact halloc

lemma Sound.advance (h : Sound md) {k : ℤ} (hk : 0 ≤ k) (hle : k ≤ md.logSize) :
    Sound (md.advance k) :=
  ⟨h.stored.advance hk hle, h.term_nonneg, h.entry_term, h.sent, h.ack, h.allocated⟩

lemma Sound.failNode (h : Sound md) {node : ServerNode} (hfail : md.failNode node = some md') :
    Sound md' := by
  obtain ⟨ack, sent, hack, hsent, -, -, rfl⟩ := failNode_cases hfail
  have hsize : 0 ≤ md.logSize := h.stored.commit_nonneg.trans h.stored.commit_le
  refine ⟨h.stored.frame, h.term_nonneg, h.entry_term, ?_, ?_, rfl⟩
  · rintro _ ⟨⟩
    exact (h.sent sent hsent).set _ (le_refl _) hsize
  · rintro _ ⟨⟩
    exact (h.ack ack hack).set _ (le_refl _) hsize

/-- Where a peer's next entry is, when there is one. -/
lemma Sound.sentTo_lt (h : Sound md) {node : ServerNode} {p : ℤ} (hp : md.sentTo node = some p)
    (hne : md.sentTo node ≠ some md.logSize) : 0 ≤ p ∧ p < md.logSize := by
  obtain ⟨sent, hsent, hget⟩ := sentTo_eq_some.1 hp
  have hbounds := (h.sent sent hsent).bounds p (List.mem_of_getElem? hget)
  have hdiff : p ≠ md.logSize := fun heq => hne (heq ▸ hp)
  exact ⟨hbounds.1, lt_of_le_of_ne hbounds.2 hdiff⟩

/-- A request is a heartbeat if everything has been sent, and carries the next entry otherwise. -/
lemma ServerMetadata.RequestBuilt.kinds (h : Sound md) {node : ServerNode} {req : LogRequest}
    (hbuilt : RequestBuilt md node req) :
    (md.sentTo node = some md.logSize ∧ req.opTerm = -1) ∨
    (md.sentTo node ≠ some md.logSize ∧ req.opTerm ≠ -1 ∧
      md.smrLog[req.prefixLength.toNat]? = some req.op) := by
  rcases hbuilt.body with ⟨hsize, hbeat⟩ | ⟨hsize, hop⟩
  · exact Or.inl ⟨hsize ▸ hbuilt.sent, hbeat⟩
  · obtain ⟨-, hget⟩ := getOp_eq_some hop
    have hterm := h.entry_term _ (List.mem_of_getElem? hget)
    change 0 ≤ req.opTerm at hterm
    refine Or.inr ⟨fun hsent => ?_, by omega, hget⟩
    rw [hbuilt.sent, Option.some.injEq] at hsent
    exact hsize hsent.symm

/-- What an entry response changes while the loop goes on. -/
lemma ServerMetadata.EntryReaction.cases_of_sound (h : Sound md) {node : ServerNode}
    {res : LogResponse} (hne : md.sentTo node ≠ some md.logSize) {p : ℤ}
    (hp : md.sentTo node = some p)
    (hsuccess : res.success ≠ 0 → res.ack = p + 1)
    (hreact : EntryReaction md node res md' true) :
    Sound md' ∧ ∃ sent ack k, md' = { md with sentLength := sent, ackLength := ack }.advance k ∧
      md.commitLength ≤ k ∧ k ≤ md.logSize := by
  have hself := h.stored.advance_self
  cases hreact with
  | acked hterm hleader hyes hsent hack hcommit =>
      rename_i sent ack
      obtain ⟨hpos, hlt⟩ := h.sentTo_lt hp hne
      have hack' := hsuccess hyes
      have hset : Sound (md.recordAck node sent ack res.ack) := by
        refine ⟨h.stored.frame, h.term_nonneg, h.entry_term, ?_, ?_, rfl⟩
        · rintro _ ⟨⟩
          exact (h.sent sent hsent).set _ (by omega) (by omega)
        · rintro _ ⟨⟩
          exact (h.ack ack hack).set _ (by omega) (by omega)
      obtain ⟨k, rfl, hge, hle, -, -⟩ :=
        commitLog_cases hset.stored rfl (hset.ack _ rfl).length hcommit
      exact ⟨hset.advance (h.stored.commit_nonneg.trans hge) hle, _, _, k, rfl, hge, hle⟩
  | @backed sent p hsent hp hpos =>
      have hbounds := (h.sent sent hsent).bounds p (List.mem_of_getElem? hp)
      have hset : Sound { md with sentLength := some (sent.set (md.slot node) (p - 1)) } := by
        refine ⟨h.stored.frame, h.term_nonneg, h.entry_term, ?_, h.ack, ?_⟩
        · rintro _ ⟨⟩
          exact (h.sent sent hsent).set _ (by omega) (by omega)
        · have halloc := h.allocated
          rw [hsent] at halloc
          exact halloc
      exact ⟨hset, some (sent.set (md.slot node) (p - 1)), md.ackLength, md.commitLength,
        hset.stored.advance_self.symm, le_refl _, h.stored.commit_le⟩
  | kept => exact ⟨h, md.sentLength, md.ackLength, md.commitLength, hself.symm, le_refl _,
      h.stored.commit_le⟩

lemma ServerMetadata.VoteAnswer.sound {msg : RequestVoteMessage} {res : RequestVoteResponse}
    (h : Sound md) (hanswer : VoteAnswer md msg md' res) : Sound md' := by
  have hnonneg := h.term_nonneg
  rcases hanswer.cases with ⟨hlt, rfl⟩ | ⟨-, rfl⟩
  · exact h.frame (hnonneg.trans hlt.le)
  · exact h.frame hnonneg

lemma Sound.adoptLeader (h : Sound md) {req : LogRequest} (hreq : SoundRequest req) :
    Sound (md.adoptLeader req) := by
  rcases adoptLeader_cases md req with ⟨-, heq⟩ | ⟨-, -, heq⟩
  · rw [heq]
    exact h.frame hreq.term_nonneg
  · rw [heq]
    exact h

lemma Sound.appended (h : Sound md) {req : LogRequest} (hreq : SoundRequest req) :
    Sound (md.appended req) := by
  unfold ServerMetadata.appended
  split
  · rename_i hentry
    exact h.appendLog (hreq.entry_term.resolve_left hentry) _ _
  · exact h

lemma ServerMetadata.LogAnswer.sound {req : LogRequest} {res : LogResponse} (h : Sound md)
    (hreq : SoundRequest req) (hanswer : LogAnswer md req md' res) : Sound md' := by
  have hadopt := h.adoptLeader hreq
  have hbeat : ∀ {m : ServerMetadata}, Sound m → Sound (m.setHeartbeat true) := fun hm =>
    hm.frame hm.term_nonneg
  cases hanswer with
  | refused hno => exact hbeat hadopt
  | held hterm hcan hlonger => exact hbeat hadopt
  | extended hterm hcan hends hexec =>
      rename_i k
      have happ := hadopt.appended hreq
      have hcommit : ((md.adoptLeader req).appended req).commitLength = md.commitLength := by
        rw [appended_eq]
        exact adoptLeader_commitLength md req
      have hnonneg := happ.stored.commit_nonneg
      have hle := happ.stored.commit_le
      exact hbeat (happ.advance (by omega) (by omega))

end Sound

/-! ### Handlers keep a server's place -/

section Handlers

variable {md md' : ServerMetadata}

lemma ServerMetadata.VoteAnswer.samePlace {msg : RequestVoteMessage} {res : RequestVoteResponse}
    (hanswer : VoteAnswer md msg md' res) : SamePlace md md' := by
  rw [hanswer.frame]
  exact ⟨rfl, rfl, rfl, rfl, rfl⟩

lemma adoptLeader_samePlace (md : ServerMetadata) (req : LogRequest) :
    SamePlace md (md.adoptLeader req) := by
  rcases adoptLeader_cases md req with ⟨-, heq⟩ | ⟨-, -, heq⟩ <;> rw [heq] <;>
    exact ⟨rfl, rfl, rfl, rfl, rfl⟩

lemma ServerMetadata.LogAnswer.samePlace {req : LogRequest} {res : LogResponse}
    (hanswer : LogAnswer md req md' res) : SamePlace md md' := by
  obtain ⟨h1, h2, h3, h4, h5⟩ := adoptLeader_samePlace md req
  rw [hanswer.frame]
  exact ⟨h1, h2, h3, h4, h5⟩

/-- A handler leaves the status or demotes to follower. -/
lemma ServerMetadata.VoteAnswer.status {msg : RequestVoteMessage} {res : RequestVoteResponse}
    (hanswer : VoteAnswer md msg md' res) : md'.status = md.status ∨ md'.status = .follower := by
  rcases hanswer.cases with ⟨-, rfl⟩ | ⟨-, rfl⟩
  · exact Or.inr rfl
  · exact Or.inl rfl

lemma ServerMetadata.LogAnswer.status_eq {req : LogRequest} {res : LogResponse}
    (hanswer : LogAnswer md req md' res) : md'.status = (md.adoptLeader req).status := by
  rw [hanswer.frame]

lemma ServerMetadata.LogAnswer.status {req : LogRequest} {res : LogResponse}
    (hanswer : LogAnswer md req md' res) : md'.status = md.status ∨ md'.status = .follower := by
  rw [hanswer.status_eq]
  rcases adoptLeader_cases md req with ⟨-, heq⟩ | ⟨-, -, heq⟩
  · exact Or.inr (by rw [heq])
  · exact Or.inl (by rw [heq])

end Handlers

/-! ## What is on the wire -/

structure Flow (f : LaptopFactory) : Prop where
  candidate : f.timeoutThread = .branch .candidate → f.metadata.status ≠ .leader
  voteRequest : ∀ node msg, f.wire = .request node (.vote msg) →
    (∃ rest, f.metaLock = .requestVote (node :: rest)) ∧ f.metadata.sendRequestVote = some msg
  logRequest : ∀ node req, f.wire = .request node (.log req) →
    (∃ caller rest new change,
      f.metaLock = .replicateLog caller ⟨node :: rest, new, change⟩) ∧
    f.metadata.logRequestFor node = some req
  voteResponse : ∀ res, f.wire = .response (.vote res) →
    ∃ node rest, f.metaLock = .requestVote (node :: rest)
  logResponse : ∀ res, f.wire = .response (.log res) →
    ∃ caller node rest new change,
      f.metaLock = .replicateLog caller ⟨node :: rest, new, change⟩ ∧
      ∃ p, f.metadata.sentTo node = some p ∧ (res.success ≠ 0 → res.ack = p + 1)

/-- While nothing is outstanding, only the status matters. -/
lemma Flow.of_quiet {f : LaptopFactory} (hquiet : f.wire = .quiet)
    (hcandidate : f.timeoutThread = .branch .candidate → f.metadata.status ≠ .leader) :
    Flow f := by
  refine ⟨hcandidate, ?_, ?_, ?_, ?_⟩ <;> simp [hquiet]

/-- An answer to a log request is about the entry the caller has at hand. -/
lemma Flow.sent {f : LaptopFactory} (h : Flow f) {caller : Caller} {node : ServerNode}
    {rest new : List ServerNode} {change : ℕ} {res : LogResponse}
    (hlock : f.metaLock = .replicateLog caller ⟨node :: rest, new, change⟩)
    (hwire : f.wire = .response (.log res)) :
    ∃ p, f.metadata.sentTo node = some p ∧ (res.success ≠ 0 → res.ack = p + 1) := by
  obtain ⟨caller', node', rest', new', change', hlock', hsent⟩ := h.logResponse res hwire
  rw [hlock] at hlock'
  cases hlock'
  exact hsent

/-! ## The invariant -/

structure WellFormed (cfg : Config) (s : ℤ) (f : LaptopFactory) : Prop where
  placed : Placed cfg s f
  sound : Sound f.metadata
  flow : Flow f

section Steps

variable {cfg : Config} {s : ℤ} {f f' : LaptopFactory} {l : Label} {es : List Event}

lemma ServerMetadata.EntryReaction.frame (h : WellFormed cfg s f) {caller : Caller}
    {node : ServerNode} {rest new : List ServerNode} {change : ℕ} {res : LogResponse}
    {md : ServerMetadata}
    (hlock : f.metaLock = .replicateLog caller ⟨node :: rest, new, change⟩)
    (hwire : f.wire = .response (.log res))
    (hsent : f.metadata.sentTo node ≠ some f.metadata.logSize)
    (hreact : EntryReaction f.metadata node res md true) :
    Sound md ∧ ∃ sent ack k,
      md = { f.metadata with sentLength := sent, ackLength := ack }.advance k ∧
      f.metadata.commitLength ≤ k ∧ k ≤ f.metadata.logSize := by
  obtain ⟨p, hp, hsuccess⟩ := h.flow.sent hlock hwire
  exact hreact.cases_of_sound h.sound hsent hp hsuccess

lemma ThreadStep.placed (hstep : ThreadStep s f l f' es) (h : WellFormed cfg s f) :
    Placed cfg s f' := by
  have hplaced := h.placed
  have hvisiting := hplaced.visiting
  have hsockets := hplaced.nodeSocket
  have hnone : ∀ x ∈ (MetaLock.free).nodes, x ∈ cfg.peers s :=
    fun x hx => absurd hx List.not_mem_nil
  cases hstep with
  | readStatus | rest | timeOut | askVote | queue | sendLog =>
      exact hplaced.frame hvisiting
  | stand => exact hplaced.frame hsockets
  | countVote hlock | ignoreVote hlock =>
      exact hplaced.frame (hplaced.visiting_rest hlock)
  | elected | outvoted | endVote => exact hplaced.frame hnone
  | @maintain _ _ accepts =>
      exact ⟨hplaced.factoryId, hplaced.neighbors, hplaced.slot,
        hplaced.reconnected_nodeSocket accepts, hplaced.reconnected_failed accepts,
        hplaced.visiting_entered accepts⟩
  | @replicate accepts =>
      exact ⟨hplaced.factoryId, hplaced.neighbors, hplaced.slot,
        hplaced.reconnected_nodeSocket accepts, hplaced.reconnected_failed accepts,
        hplaced.visiting_entered accepts⟩
  | fail hlock hlabel hfail =>
      rename_i node rest new change md
      obtain ⟨ack, sent, -, -, -, -, rfl⟩ := failNode_cases hfail
      rw [hlock] at hvisiting
      refine ⟨hplaced.factoryId, hplaced.neighbors, hplaced.slot, hsockets, fun x hx => ?_,
        fun x hx => hvisiting x (List.mem_cons_of_mem _ hx)⟩
      rcases List.mem_append.1 hx with hold | hnew
      · exact hplaced.failed x hold
      · rw [List.mem_singleton.1 hnew]
        exact hvisiting node List.mem_cons_self
  | heartbeatAnswered hlock =>
      exact hplaced.frame (hplaced.visiting_next hlock)
  | entryAnswered hlock hwire hsent hreact =>
      obtain ⟨-, sent, ack, k, rfl, -, -⟩ := hreact.frame h hlock hwire hsent
      exact hplaced.frame (hplaced.visiting_next hlock)
  | deposed hlock =>
      refine hplaced.of_same ?_ ?_
      · rw [LaptopFactory.returnTo_metadata]
        exact ⟨rfl, rfl, rfl, rfl, rfl⟩
      · rw [LaptopFactory.returnTo_metaLock]
        exact hnone
  | nextRound hlock =>
      rw [hlock] at hvisiting
      refine ⟨hplaced.factoryId, hplaced.neighbors, hplaced.slot, hvisiting, hplaced.failed,
        fun x hx => ?_⟩
      rcases List.mem_append.1 hx with hnew | hnew <;> exact hvisiting x hnew
  | «return» hlock =>
      rw [hlock] at hvisiting
      rename_i caller new
      have hmetadata := LaptopFactory.returnTo_metadata
        { f with metadata := { f.metadata with nodeSocket := new } } caller
      refine ⟨?_, ?_, fun k node hk => ?_, ?_, ?_, ?_⟩
      · rw [hmetadata]
        exact hplaced.factoryId
      · rw [hmetadata]
        exact hplaced.neighbors
      · rw [hmetadata]
        exact hplaced.slot k node hk
      · rw [hmetadata]
        exact hvisiting
      · rw [hmetadata]
        exact hplaced.failed
      · rw [LaptopFactory.returnTo_metaLock]
        exact hnone

lemma ThreadStep.sound (hstep : ThreadStep s f l f' es) (h : WellFormed cfg s f) :
    Sound f'.metadata := by
  have hsound := h.sound
  have hnonneg := hsound.term_nonneg
  cases hstep with
  | readStatus | rest | timeOut | askVote | queue | sendLog | countVote | ignoreVote | endVote
  | replicate | heartbeatAnswered | nextRound =>
      exact hsound.frame hnonneg
  | stand =>
      refine hsound.frame ?_
      show 0 ≤ f.metadata.currentTerm + 1
      omega
  | @elected _ _ res =>
      have hcounted : Sound (f.metadata.counted res.id) :=
        hsound.frame hnonneg
      exact hcounted.initLeader
  | outvoted hlock harrives hlt =>
      exact hsound.frame (hnonneg.trans hlt.le)
  | @maintain _ req accepts ack hreq hfree haccepts hack hlt =>
      have hreconnected : Sound (f.metadata.reconnected accepts) :=
        hsound.frame hnonneg
      have hop : 0 ≤ (f.metadata.newEntry req).term := hnonneg
      exact hreconnected.maintained hop hack
  | fail hlock hlabel hfail => exact hsound.failNode hfail
  | entryAnswered hlock hwire hsent hreact => exact (hreact.frame h hlock hwire hsent).1
  | deposed hlock hwire hsent hlt =>
      rw [LaptopFactory.returnTo_metadata]
      exact hsound.frame (hnonneg.trans hlt.le)
  | «return» =>
      rw [LaptopFactory.returnTo_metadata]
      exact hsound.frame hnonneg

lemma ThreadStep.flow (hstep : ThreadStep s f l f' es) (h : WellFormed cfg s f)
    (hidle : Idle f) : Flow f' := by
  have hflow := h.flow
  have hcandidate := hflow.candidate
  cases hstep with
  | readStatus htop =>
      refine ⟨fun hthread => ?_, hflow.voteRequest, hflow.logRequest, hflow.voteResponse,
        hflow.logResponse⟩
      simp only [TimeoutThread.branch.injEq] at hthread
      simp [hthread]
  | rest hthread hfree | timeOut hthread hfree =>
      exact Flow.of_quiet (hidle.quiet hfree) (by simp)
  | stand hthread hfree => exact Flow.of_quiet (hidle.quiet hfree) hcandidate
  | askVote hlock hquiet hmsg =>
      rename_i node rest msg
      refine ⟨hcandidate, ?_, by simp, by simp, by simp⟩
      rintro node' msg' ⟨⟩
      exact ⟨⟨rest, hlock⟩, hmsg⟩
  | countVote | ignoreVote => exact Flow.of_quiet rfl hcandidate
  | elected | outvoted => exact Flow.of_quiet rfl (by simp)
  | endVote hlock =>
      exact Flow.of_quiet (hidle (by simp [LaptopFactory.callee, hlock])) (by simp)
  | queue => exact ⟨hcandidate, hflow.voteRequest, hflow.logRequest, hflow.voteResponse,
      hflow.logResponse⟩
  | maintain hreq hfree | replicate hthread hfree =>
      exact Flow.of_quiet (hidle.quiet hfree) hcandidate
  | sendLog hlock hquiet hreq =>
      rename_i caller node rest new change req
      refine ⟨hcandidate, by simp, ?_, by simp, by simp⟩
      rintro node' req' ⟨⟩
      exact ⟨⟨caller, rest, new, change, hlock⟩, hreq⟩
  | fail hlock hlabel hfail =>
      obtain ⟨ack, sent, -, -, -, -, rfl⟩ := failNode_cases hfail
      exact Flow.of_quiet rfl hcandidate
  | heartbeatAnswered | nextRound hlock =>
      refine Flow.of_quiet ?_ hcandidate
      first
      | rfl
      | exact hidle (by simp [LaptopFactory.callee, hlock])
  | entryAnswered hlock hwire hsent hreact =>
      obtain ⟨-, sent, ack, k, rfl, -, -⟩ := hreact.frame h hlock hwire hsent
      exact Flow.of_quiet rfl hcandidate
  | deposed =>
      refine Flow.of_quiet (LaptopFactory.returnTo_wire _ _) fun _ => ?_
      rw [LaptopFactory.returnTo_metadata]
      simp [demoted]
  | «return» =>
      rename_i caller new hlock
      refine Flow.of_quiet (LaptopFactory.returnTo_wire _ _) fun hthread => ?_
      rw [LaptopFactory.returnTo_metadata]
      rcases LaptopFactory.returnTo_timeoutThread
        { f with metadata := { f.metadata with nodeSocket := new } } caller with htop | hsame
      · rw [htop] at hthread
        cases hthread
      · rw [hsame] at hthread
        exact hcandidate hthread

end Steps

/-- The requests of a well-formed server are sound. -/
lemma WellFormed.request {cfg : Config} {s : ℤ} {f : LaptopFactory} (h : WellFormed cfg s f)
    {node : ServerNode} {req : LogRequest} (hwire : f.wire = .request node (.log req)) :
    SoundRequest req := by
  have hbuilt := logRequestFor_cases (h.flow.logRequest node req hwire).2
  obtain ⟨sent, hsent, hget⟩ := sentTo_eq_some.1 hbuilt.sent
  have hbounds := (h.sound.sent sent hsent).bounds _ (List.mem_of_getElem? hget)
  have hcommit := hbuilt.commit
  have hle := h.sound.stored.commit_le
  refine ⟨?_, hbounds.1, ?_, fun hbeat => ?_⟩
  · rw [hbuilt.term]
    exact h.sound.term_nonneg
  · rcases hbuilt.body with ⟨-, hbeat⟩ | ⟨-, hop⟩
    · exact Or.inl hbeat
    · obtain ⟨-, hget⟩ := getOp_eq_some hop
      exact Or.inr (h.sound.entry_term _ (List.mem_of_getElem? hget))
  · rcases hbuilt.body with ⟨hsize, -⟩ | ⟨-, hop⟩
    · omega
    · obtain ⟨-, hget⟩ := getOp_eq_some hop
      have hterm := h.sound.entry_term _ (List.mem_of_getElem? hget)
      change 0 ≤ req.opTerm at hterm
      omega

/-- What holds of a request on its way to `p`. -/
def SoundRpc (cfg : Config) (p : ℤ) : Rpc → Prop
  | .vote _ => p ∈ cfg.ids
  | .log req => p ∈ cfg.ids ∧ SoundRequest req

lemma SoundRpc.mem {cfg : Config} {p : ℤ} {rpc : Rpc} (h : SoundRpc cfg p rpc) : p ∈ cfg.ids := by
  cases rpc with
  | vote msg => exact h
  | log req => exact h.1

/-- A server waits for its peers only. -/
lemma WellFormed.peer_of_wire {cfg : Config} {s : ℤ} {f : LaptopFactory} (h : WellFormed cfg s f)
    {node : ServerNode} {rpc : Rpc} (hwire : f.wire = .request node rpc) :
    node ∈ cfg.peers s := by
  apply h.placed.visiting
  cases rpc with
  | vote msg =>
      obtain ⟨⟨rest, hlock⟩, -⟩ := h.flow.voteRequest node msg hwire
      simp [MetaLock.nodes, hlock]
  | log req =>
      obtain ⟨⟨caller, rest, new, change, hlock⟩, -⟩ := h.flow.logRequest node req hwire
      simp [MetaLock.nodes, hlock]

lemma WellFormed.soundRpc {cfg : Config} {s : ℤ} {f : LaptopFactory} (h : WellFormed cfg s f)
    (hs : s ∈ cfg.ids) {node : ServerNode} {rpc : Rpc} (hwire : f.wire = .request node rpc) :
    SoundRpc cfg node.id rpc := by
  have hmem := Placed.peer_mem hs (h.peer_of_wire hwire)
  cases rpc with
  | vote msg => exact hmem
  | log req => exact ⟨hmem, h.request hwire⟩

/-- A handled request keeps its server well formed. -/
lemma WellFormed.served {cfg : Config} {p : ℤ} {f : LaptopFactory} {rpc : Rpc}
    {md : ServerMetadata} {reply : Reply} (h : WellFormed cfg p f) (hidle : Idle f)
    (hrpc : SoundRpc cfg p rpc) (hserved : Served f rpc md reply) :
    WellFormed cfg p { f with metadata := md } := by
  have hquiet := hidle.quiet hserved.free
  have hcandidate := h.flow.candidate
  cases hserved with
  | vote hfree hanswer =>
      refine ⟨h.placed.of_same hanswer.samePlace h.placed.visiting, hanswer.sound h.sound,
        Flow.of_quiet hquiet fun hthread => ?_⟩
      rcases hanswer.status with hstatus | hstatus
      · rw [hstatus]
        exact hcandidate hthread
      · simp [hstatus]
  | log hfree hvalid hanswer =>
      have hanswer := getLogResponse_cases h.sound.stored hanswer
      refine ⟨h.placed.of_same hanswer.samePlace h.placed.visiting,
        hanswer.sound h.sound hrpc.2, Flow.of_quiet hquiet fun hthread => ?_⟩
      rcases hanswer.status with hstatus | hstatus
      · rw [hstatus]
        exact hcandidate hthread
      · simp [hstatus]

/-- The answer arrives. -/
lemma WellFormed.answered {cfg : Config} {s : ℤ} {f g : LaptopFactory} {node : ServerNode}
    {rpc : Rpc} {md : ServerMetadata} {reply : Reply} (h : WellFormed cfg s f)
    (hwire : f.wire = .request node rpc) (hserved : Served g rpc md reply) :
    WellFormed cfg s { f with wire := .response reply } := by
  refine ⟨h.placed.frame h.placed.visiting, h.sound, ?_⟩
  cases hserved with
  | vote hfree hanswer =>
      obtain ⟨⟨rest, hlock⟩, -⟩ := h.flow.voteRequest node _ hwire
      exact ⟨h.flow.candidate, by simp, by simp, fun res _ => ⟨node, rest, hlock⟩, by simp⟩
  | log hfree hvalid hanswer =>
      obtain ⟨⟨caller, rest, new, change, hlock⟩, hreq⟩ := h.flow.logRequest node _ hwire
      refine ⟨h.flow.candidate, by simp, by simp, by simp, ?_⟩
      rintro res ⟨⟩
      exact ⟨caller, node, rest, new, change, hlock, _, (logRequestFor_cases hreq).sent,
        getLogResponse_ack hanswer⟩

section Runs

variable {cfg : Config} {ok : Cluster → Label → Prop} {c : Cluster} {tr : List Event}

/-- **Every reachable state is well formed**, and so is every request on its way. -/
theorem wellFormed_of_run (hrun : (system cfg).Run ok c tr) :
    (∀ s ∈ cfg.ids, WellFormed cfg s (c.server s)) ∧
      ∀ p rpc, (p, rpc) ∈ c.pending → SoundRpc cfg p rpc := by
  have hinv := run_invariant (P := fun s f _ => s ∈ cfg.ids → WellFormed cfg s f)
    (Q := SoundRpc cfg) ?_ ?_ ?_ ?_ ?_ ?_ ?_ hrun
  · exact hinv
  · exact fun connects s hs => ⟨placed_boot hs connects, sound_boot cfg connects s,
      Flow.of_quiet rfl (by simp [boot])⟩
  · exact fun _ _ _ _ _ h => h
  · intro c tr l s f es hrun _ hs hstep h _
    exact ⟨hstep.placed (h hs), hstep.sound (h hs), hstep.flow (h hs) (idle_of_run hrun s)⟩
  · exact fun c tr s node rpc _ hs hwire h => (h hs).soundRpc hs hwire
  · exact fun p hp msg => hp
  · intro c tr l p rpc md reply hrun _ hrpc _ hserved h _
    exact (h hrpc.mem).served (idle_of_run hrun p) hrpc hserved
  · intro c tr s node rpc md reply _ _ hwire hserved h hs
    exact (h hs).answered hwire hserved

lemma wellFormed (hrun : (system cfg).Run ok c tr) {s : ℤ} (hs : s ∈ cfg.ids) :
    WellFormed cfg s (c.server s) :=
  (wellFormed_of_run hrun).1 s hs

/-- The peer of an outstanding request is a member, and the request is sound. -/
lemma soundRpc_of_wire (hrun : (system cfg).Run ok c tr) {s : ℤ} (hs : s ∈ cfg.ids)
    {node : ServerNode} {rpc : Rpc} (hwire : (c.server s).wire = .request node rpc) :
    SoundRpc cfg node.id rpc :=
  (wellFormed hrun hs).soundRpc hs hwire

/-- So is every request that a step can hand to a handler. -/
lemma soundRpc_of_delivered (hrun : (system cfg).Run ok c tr) {l : Label} {p : ℤ} {rpc : Rpc}
    (hactor : ∀ s ∈ l.actor, s ∈ cfg.ids) (hdelivered : c.delivered l = some (p, rpc)) :
    SoundRpc cfg p rpc := by
  rcases Cluster.delivered_cases hdelivered with
    ⟨s, hs, node, hwire, rfl⟩ | hpending | ⟨msg, rfl, rfl⟩
  · exact soundRpc_of_wire hrun (hactor s hs) hwire
  · exact (wellFormed_of_run hrun).2 p rpc hpending
  · exact hactor p rfl

lemma mem_of_step {c' : Cluster} {l : Label} {es : List Event}
    (hst : (system cfg).step c l = some (c', es)) : ∀ s ∈ l.actor, s ∈ cfg.ids := by
  change (if ∀ s ∈ l.actor, s ∈ cfg.ids then c.act l else none) = some (c', es) at hst
  split at hst
  · assumption
  · cases hst

/-- A log request that is delivered is one that a member waits for, or one that nobody waits for
any more. -/
lemma log_delivered_cases {c' : Cluster} {l : Label} {es : List Event}
    (hst : (system cfg).step c l = some (c', es)) {p : ℤ} {req : LogRequest}
    (hdelivered : c.delivered l = some (p, .log req)) :
    (∃ s ∈ cfg.ids, ∃ node, (c.server s).wire = .request node (.log req)) ∨
      (p, .log req) ∈ c.pending := by
  have hactor := mem_of_step hst
  rcases Cluster.delivered_cases hdelivered with
    ⟨s, hs, node, hwire, -⟩ | hpending | ⟨msg, -, hvote⟩
  · exact Or.inl ⟨s, hactor s hs, node, hwire⟩
  · exact Or.inr hpending
  · cases hvote

/-- Only members are observed. -/
theorem server_mem_of_run (hrun : (system cfg).Run ok c tr) : ∀ e ∈ tr, e.server ∈ cfg.ids := by
  refine TransitionSystem.Run.invariant (I := fun _ tr => ∀ e ∈ tr, e.server ∈ cfg.ids)
    ?_ ?_ hrun
  · exact fun _ _ e he => absurd he List.not_mem_nil
  · intro c tr l c' es hrun ih _ hst e he
    rcases List.mem_append.1 he with hold | hnew
    · exact ih e hold
    · rcases step_cases hst with ⟨s, f, hs, hstep, -⟩ | ⟨p, rpc, reply, hdelivered, -, rfl⟩
      · rw [hstep.server_eq e hnew]
        exact hs
      · rw [serveEvents_server hnew]
        exact (soundRpc_of_delivered hrun (mem_of_step hst) hdelivered).mem

/-- **A step, seen from one member**: it is not concerned, one of its threads moved, or it
handled a request. -/
theorem step_server {c' : Cluster} {l : Label} {es : List Event}
    (hrun : (system cfg).Run ok c tr) (hst : (system cfg).step c l = some (c', es)) (q : ℤ) :
    (c'.server q).metadata = (c.server q).metadata ∨
    (q ∈ cfg.ids ∧ ThreadStep q (c.server q) l (c'.server q) es) ∨
    ∃ rpc reply, c.delivered l = some (q, rpc) ∧ SoundRpc cfg q rpc ∧
      Served (c.server q) rpc (c'.server q).metadata reply := by
  rcases step_cases hst with ⟨s, f, hs, hstep, hserver, -⟩ |
    ⟨p, rpc, reply, hdelivered, hhandled, -⟩
  · rw [hserver]
    by_cases hq : q = s
    · subst hq
      rw [Function.update_self]
      exact Or.inr (Or.inl ⟨hs, hstep⟩)
    · rw [Function.update_of_ne hq]
      exact Or.inl rfl
  · have hrpc := soundRpc_of_delivered hrun (mem_of_step hst) hdelivered
    by_cases hq : q = p
    · subst hq
      exact Or.inr (Or.inr ⟨rpc, reply, hdelivered, hrpc, hhandled.served⟩)
    · exact Or.inl (hhandled.others q hq)

/-- A step changes the metadata of one member. -/
lemma step_others {c' : Cluster} {l : Label} {es : List Event} (hrun : (system cfg).Run ok c tr)
    (hst : (system cfg).step c l = some (c', es)) :
    ∃ q ∈ cfg.ids, ∀ s, s ≠ q → (c'.server s).metadata = (c.server s).metadata := by
  rcases step_cases hst with ⟨q, f, hq, -, hserver, -⟩ | ⟨q, rpc, reply, hdelivered, hhandled, -⟩
  · refine ⟨q, hq, fun s hs => ?_⟩
    rw [hserver, Function.update_of_ne hs]
  · exact ⟨q, (soundRpc_of_delivered hrun (mem_of_step hst) hdelivered).mem, hhandled.others⟩

end Runs

end LaptopRaft
