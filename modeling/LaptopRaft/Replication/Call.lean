import LaptopRaft.Properties.Exchange
import LaptopRaft.Replication.Convergence

/-!
# A call of `ReplicateLog` by itself

`Cluster.callStep` runs one iteration of the inner loop of `ReplicateLog` (build the request for
the next peer, have it handled, react to the answer), or the end of a round; `CallTo` runs any
number of them.  Nothing else happens in between: the peers answer, and no connection fails.

`InCall` is what a call needs to go on and keeps: the caller's arrays cover its peers, and the
peers the loop holds answer.  `Turn` are the cases of an iteration; `InCall.turn` says that one
of them happens.
-/

namespace LaptopRaft

open ServerMetadata

/-! ## Iterations -/

namespace Cluster

variable (c : Cluster) (s : ℤ)

/-- The next peer is sent its request and answers, and the caller reacts. -/
def visit : Option Cluster := do
  let sent ← c.act (.sendLogRequest s)
  let answered ← sent.1.act (.handle s)
  let received ← answered.1.act (.recvLogResponse s)
  some received.1

/-- One iteration of the inner loop, or the end of a round. -/
def callStep : Option Cluster :=
  match (c.server s).metaLock with
  | .replicateLog _ ⟨_ :: _, _, _⟩ => c.visit s
  | .replicateLog _ ⟨[], _, _⟩ => (c.act (.endRound s)).map (·.1)
  | _ => none

end Cluster

/-- The call of `s` leads from one state to another. -/
def CallTo (s : ℤ) : Cluster → Cluster → Prop :=
  Relation.ReflTransGen fun c c' => c.callStep s = some c'

/-- The steps of a call are steps of the system. -/
theorem path_of_callTo {cfg : Config} {s : ℤ} (hs : s ∈ cfg.ids) {c c' : Cluster}
    (h : CallTo s c c') (tr : List Event) :
    ∃ tr', (system cfg).Path TransitionSystem.anyStep (c, tr) (c', tr') := by
  have hstep : ∀ {c c' : Cluster} {l : Label} {es tr : List Event}, l.actor = some s →
      c.act l = some (c', es) →
      (system cfg).Path TransitionSystem.anyStep (c, tr) (c', tr ++ es) := by
    intro c c' l es tr hactor hact
    refine .single ⟨l, es, trivial, ?_, rfl⟩
    change (if ∀ q ∈ l.actor, q ∈ cfg.ids then c.act l else none) = _
    rw [hactor, if_pos (by simpa using hs)]
    exact hact
  induction h with
  | refl => exact ⟨tr, .refl⟩
  | @tail c₁ c₂ _ hst ih =>
      obtain ⟨tr₁, hpath⟩ := ih
      unfold Cluster.callStep at hst
      split at hst
      · simp only [Cluster.visit, Option.bind_eq_bind, Option.bind_eq_some_iff,
          Option.some.injEq] at hst
        obtain ⟨⟨a, es⟩, ha, ⟨b, es'⟩, hb, ⟨d, es''⟩, hd, rfl⟩ := hst
        exact ⟨_, ((hpath.trans (hstep rfl ha)).trans (hstep rfl hb)).trans (hstep rfl hd)⟩
      · obtain ⟨⟨a, es⟩, ha, rfl⟩ := Option.map_eq_some_iff.1 hst
        exact ⟨_, hpath.trans (hstep rfl ha)⟩
      · cases hst

namespace LaptopFactory

variable {f : LaptopFactory} {caller : Caller} {node : ServerNode} {rest new : List ServerNode}
  {change : ℕ} {res : LogResponse} {md : ServerMetadata}

lemma recvLogResponse_complete
    (hlock : f.metaLock = .replicateLog caller ⟨node :: rest, new, change⟩)
    (hvalid : res.followerId ≠ -1) (hsent : f.metadata.sentTo node = some f.metadata.logSize) :
    { f with wire := .response (.log res) }.recvLogResponse =
      some { f with
        metaLock := .replicateLog caller ⟨rest, insertSocket new node, change⟩
        wire := .quiet } := by
  simp only [recvLogResponse, hlock, if_neg hvalid, if_pos hsent]

lemma recvLogResponse_entry
    (hlock : f.metaLock = .replicateLog caller ⟨node :: rest, new, change⟩)
    (hvalid : res.followerId ≠ -1) (hsent : f.metadata.sentTo node ≠ some f.metadata.logSize)
    {goOn : Bool} (hrecv : f.metadata.recvEntryResponse node res = some (md, goOn)) :
    { f with wire := .response (.log res) }.recvLogResponse =
      some (if goOn then
        { f with
          metadata := md
          metaLock := .replicateLog caller ⟨rest, insertSocket new node, change + 1⟩
          wire := .quiet }
      else { f with metadata := md, wire := .response (.log res) }.returnTo caller) := by
  simp only [recvLogResponse, hlock, if_neg hvalid, if_neg hsent, hrecv, Option.map_some]

end LaptopFactory

/-! ## The cases of an iteration -/

/-- A peer that answers the calls of `s`. -/
structure Answering (c : Cluster) (s : ℤ) (node : ServerNode) : Prop where
  link : c.link s node.id = true
  free : (c.server node.id).metaLock = .free
  sized : Sized (c.server node.id).metadata
  known : (c.server node.id).metadata.factoryId ≠ -1

/-- A call of `ReplicateLog` by `s` that can go on. -/
structure InCall (cfg : Config) (s : ℤ) (c : Cluster) : Prop where
  mem : s ∈ cfg.ids
  placed : Placed cfg s (c.server s)
  ready : Ready (c.server s).metadata
  positioned : ∀ node ∈ (c.server s).metaLock.nodes, Positioned (c.server s).metadata node
  answering : ∀ node ∈ (c.server s).metaLock.nodes, Answering c s node
  quiet : (c.server s).wire = .quiet

/-- Only the caller and the peer it is at are concerned. -/
structure Visited (s : ℤ) (node : ServerNode) (c c' : Cluster) : Prop where
  answer : Answer (c.server s).metadata (c.server node.id).metadata (c'.server node.id).metadata
  peerLock : (c'.server node.id).metaLock = (c.server node.id).metaLock
  others : ∀ q, q ≠ s → q ≠ node.id → c'.server q = c.server q
  link : c'.link = c.link

inductive Turn (s : ℤ) (c c' : Cluster) : Prop
  | visit {caller : Caller} {node : ServerNode} {rest new : List ServerNode} {change n : ℕ}
      {md : ServerMetadata}
      (hlock : (c.server s).metaLock = .replicateLog caller ⟨node :: rest, new, change⟩)
      (hvisited : Visited s node c c')
      (hreact : Reaction (c.server s).metadata node (c.server node.id).metadata
        (c'.server node.id).metadata md)
      (hcaller : c'.server s =
        { c.server s with
          metadata := md
          metaLock := .replicateLog caller ⟨rest, insertSocket new node, n⟩
          wire := .quiet })
      (hn : n = if (c.server s).metadata.sentTo node = some (c.server s).metadata.logSize then
        change else change + 1)
  | deposed {caller : Caller} {node : ServerNode} {rest new : List ServerNode} {change : ℕ}
      (hlock : (c.server s).metaLock = .replicateLog caller ⟨node :: rest, new, change⟩)
      (hsent : (c.server s).metadata.sentTo node ≠ some (c.server s).metadata.logSize)
      (hno : ¬ Follows (c.server node.id).metadata (c.server s).metadata.currentTerm)
      (hfree : (c'.server s).metaLock = .free)
  | nextRound {caller : Caller} {new : List ServerNode} {change : ℕ}
      (hlock : (c.server s).metaLock = .replicateLog caller ⟨[], new, change⟩)
      (hchange : change ≠ 0) (hothers : ∀ q, q ≠ s → c'.server q = c.server q)
      (hlink : c'.link = c.link)
      (hcaller : c'.server s =
        { c.server s with
          metadata := { (c.server s).metadata with nodeSocket := new }
          metaLock := .replicateLog caller ⟨new, new, 0⟩ })
  | return {caller : Caller} {new : List ServerNode}
      (hlock : (c.server s).metaLock = .replicateLog caller ⟨[], new, 0⟩)
      (hothers : ∀ q, q ≠ s → c'.server q = c.server q)
      (hcaller : c'.server s =
        { c.server s with
          metadata := { (c.server s).metadata with nodeSocket := new } }.returnTo caller)

section Turn

variable {cfg : Config} {s : ℤ} {c c' : Cluster} {caller : Caller} {node : ServerNode}
  {rest new : List ServerNode} {change : ℕ} {req : LogRequest} {res : LogResponse}
  {md : ServerMetadata} {f' : LaptopFactory}

/-- The three steps of an iteration, run one after the other. -/
lemma visit_eq (hlock : (c.server s).metaLock = .replicateLog caller ⟨node :: rest, new, change⟩)
    (hquiet : (c.server s).wire = .quiet) (hlink : c.link s node.id = true)
    (hfree : (c.server node.id).metaLock = .free)
    (hreq : (c.server s).metadata.logRequestFor node = some req) (hvalid : req.isValid)
    (hanswer : (c.server node.id).metadata.getLogResponse req = some (md, res))
    (hrecv : { c.server s with wire := .response (.log res) }.recvLogResponse = some f') :
    ∃ c', c.callStep s = some c' ∧ c'.server s = f' ∧
      c'.server node.id = { c.server node.id with metadata := md } ∧
      (∀ q, q ≠ s → q ≠ node.id → c'.server q = c.server q) ∧ c'.link = c.link := by
  have hne : node.id ≠ s := by
    rintro heq
    rw [heq, hlock] at hfree
    cases hfree
  let c₁ := c.setServer s { c.server s with wire := .request node (.log req) }
  let c₂ := (c₁.setServer node.id { c.server node.id with metadata := md }).setServer s
    { c.server s with wire := .response (.log res) }
  have hserver₁ : c₁.server = Function.update c.server s
      { c.server s with wire := .request node (.log req) } := rfl
  have hserver₂ : c₂.server = Function.update (Function.update c₁.server node.id
      { c.server node.id with metadata := md }) s
      { c.server s with wire := .response (.log res) } := rfl
  have hsent : ∃ es, c.act (.sendLogRequest s) = some (c₁, es) := by
    have hup : c.linkUp s = true := by simpa [Cluster.linkUp, LaptopFactory.callee, hlock]
    refine ⟨[.sendLogRequest s req], ?_⟩
    have hbuild : (c.server s).sendLogRequest =
        some { c.server s with wire := .request node (.log req) } := by
      simp only [LaptopFactory.sendLogRequest, hlock, hquiet, hreq, Option.map_some]
    rw [Cluster.act, if_pos hup, Cluster.move, hbuild]
    rfl
  have hhandled : ∃ es, c₁.act (.handle s) = some (c₂, es) := by
    have hwire : (c₁.server s).wire = .request node (.log req) := by
      rw [hserver₁, Function.update_self]
    have hpeer : c₁.server node.id = c.server node.id := by
      rw [hserver₁, Function.update_of_ne hne]
    have hserve : (c₁.server node.id).serve (.log req) =
        some ({ c.server node.id with metadata := md }, .log res) := by
      rw [hpeer, LaptopFactory.serve, if_pos ⟨hfree, hvalid⟩, hanswer]
      rfl
    have hself : (c₁.setServer node.id { c.server node.id with metadata := md }).server s =
        { c.server s with wire := .request node (.log req) } := by
      show Function.update c₁.server node.id _ s = _
      rw [Function.update_of_ne hne.symm, hserver₁, Function.update_self]
    refine ⟨serveEvents node.id (c₁.server node.id).metadata.smrLog (.log req) (.log res), ?_⟩
    rw [Cluster.act, Cluster.handle, hwire]
    simp only [Cluster.serveAt, hserve, Option.map_some, Cluster.setWire, hself]
    rfl
  have hreceived : ∃ es, c₂.act (.recvLogResponse s) = some (c₂.setServer s f', es) := by
    have hself : c₂.server s = { c.server s with wire := .response (.log res) } := by
      rw [hserver₂, Function.update_self]
    refine ⟨commitEvents s (c.server s).metadata f'.metadata, ?_⟩
    rw [Cluster.act, hself, Cluster.move, hrecv, Option.map_some]
  obtain ⟨es₁, hsent⟩ := hsent
  obtain ⟨es₂, hhandled⟩ := hhandled
  obtain ⟨es₃, hreceived⟩ := hreceived
  have hserver : (c₂.setServer s f').server = Function.update c₂.server s f' := rfl
  refine ⟨c₂.setServer s f', ?_, ?_, ?_, fun q hq hq' => ?_, rfl⟩
  · simp only [Cluster.callStep, hlock, Cluster.visit, hsent, hhandled, hreceived,
      Option.bind_eq_bind, Option.bind_some]
  · rw [hserver, Function.update_self]
  · rw [hserver, Function.update_of_ne hne, hserver₂, Function.update_of_ne hne,
      Function.update_self]
  · rw [hserver, Function.update_of_ne hq, hserver₂, Function.update_of_ne hq,
      Function.update_of_ne hq', hserver₁, Function.update_of_ne hq]

/-- The slot of a peer is one of the slots of the arrays. -/
lemma Placed.slot_lt {f : LaptopFactory} (h : Placed cfg s f) (hnode : node ∈ cfg.peers s) :
    f.metadata.slot node < f.metadata.getPeerSize + 1 := by
  obtain ⟨hlt, -⟩ := List.getElem?_eq_some_iff.1 (h.getElem_slot hnode)
  rw [getPeerSize, h.neighbors]
  omega

lemma InCall.slot_lt (h : InCall cfg s c) (hin : node ∈ (c.server s).metaLock.nodes) :
    (c.server s).metadata.slot node < (c.server s).metadata.getPeerSize + 1 :=
  h.placed.slot_lt (h.placed.visiting node hin)

/-- The next peer is sent a request that it answers. -/
lemma InCall.answered (h : InCall cfg s c) (hin : node ∈ (c.server s).metaLock.nodes) :
    ∃ req md res, (c.server s).metadata.logRequestFor node = some req ∧ req.isValid ∧
      RequestBuilt (c.server s).metadata node req ∧
      (c.server node.id).metadata.getLogResponse req = some (md, res) ∧
      LogReply (c.server node.id).metadata req md res ∧ res.followerId ≠ -1 := by
  obtain ⟨hlink, hfree, hsized, hknown⟩ := h.answering node hin
  obtain ⟨req, hreq⟩ := h.ready.logRequestFor_isSome (h.positioned node hin)
  have hbuilt := logRequestFor_cases hreq
  have hvalid : req.isValid := by
    rw [LogRequest.isValid, hbuilt.leaderId]
    exact h.ready.valid
  obtain ⟨⟨md, res⟩, hanswer⟩ := hsized.getLogResponse_isSome (h.ready.heartbeat_le hbuilt)
  have hreply := getLogResponse_reply hanswer
  have hres : res.followerId ≠ -1 := by
    rw [hreply.factoryId.2]
    exact hknown
  exact ⟨req, md, res, hreq, hvalid, hbuilt, hanswer, hreply, hres⟩

/-- An iteration at a peer. -/
theorem InCall.visit (h : InCall cfg s c)
    (hlock : (c.server s).metaLock = .replicateLog caller ⟨node :: rest, new, change⟩) :
    ∃ c', c.callStep s = some c' ∧ Turn s c c' := by
  have hin : node ∈ (c.server s).metaLock.nodes := mem_nodes hlock
  have hnode := h.positioned node hin
  obtain ⟨hlink, hfree, hsized, -⟩ := h.answering node hin
  obtain ⟨req, md, res, hreq, hvalid, hbuilt, hanswer, hreply, hres⟩ := h.answered hin
  have hslot := h.slot_lt hin
  have hvisited : ∀ {c' : Cluster}, c'.server node.id = { c.server node.id with metadata := md } →
      (∀ q, q ≠ s → q ≠ node.id → c'.server q = c.server q) → c'.link = c.link →
      Visited s node c c' := by
    intro c' hcallee hothers hlink'
    refine ⟨?_, ?_, hothers, hlink'⟩
    · rw [hcallee]
      exact hreply.answer hsized hbuilt
    · rw [hcallee]
  rcases h.ready.react hnode hslot hbuilt hreply hsized with
    ⟨hsent, hreact⟩ | ⟨hsent, hfollows, md', hrecv, hreact⟩ | ⟨hsent, hno, md', hrecv⟩
  · obtain ⟨c', hstep, hcaller, hcallee, hothers, hlink'⟩ :=
      visit_eq hlock h.quiet hlink hfree hreq hvalid hanswer
        (LaptopFactory.recvLogResponse_complete hlock hres hsent)
    refine ⟨c', hstep, .visit hlock (hvisited hcallee hothers hlink') ?_ hcaller
      (if_pos hsent).symm⟩
    rw [hcallee]
    exact hreact
  · obtain ⟨c', hstep, hcaller, hcallee, hothers, hlink'⟩ :=
      visit_eq hlock h.quiet hlink hfree hreq hvalid hanswer
        (LaptopFactory.recvLogResponse_entry hlock hres hsent hrecv)
    refine ⟨c', hstep, .visit hlock (hvisited hcallee hothers hlink') ?_ hcaller
      (if_neg hsent).symm⟩
    rw [hcallee]
    exact hreact
  · obtain ⟨c', hstep, hcaller, -⟩ :=
      visit_eq hlock h.quiet hlink hfree hreq hvalid hanswer
        (LaptopFactory.recvLogResponse_entry hlock hres hsent hrecv)
    exact ⟨c', hstep, .deposed hlock hsent hno (LaptopFactory.free_of_returnTo hcaller)⟩

/-- The end of a round. -/
theorem InCall.endRound
    (hlock : (c.server s).metaLock = .replicateLog caller ⟨[], new, change⟩) :
    ∃ c', c.callStep s = some c' ∧ Turn s c c' := by
  have hcall : ∀ {f : LaptopFactory}, (c.server s).endRound = some f →
      c.callStep s = some (c.setServer s f) := by
    intro f hf
    simp only [Cluster.callStep, hlock, Cluster.act, Cluster.move, hf, Option.map_some]
  have hserver : ∀ f, (c.setServer s f).server = Function.update c.server s f := fun _ => rfl
  have hothers : ∀ f q, q ≠ s → (c.setServer s f).server q = c.server q := by
    intro f q hq
    rw [hserver, Function.update_of_ne hq]
  by_cases hchange : change = 0
  · subst hchange
    have hend : (c.server s).endRound = some
        ({ c.server s with
          metadata := { (c.server s).metadata with nodeSocket := new } }.returnTo caller) := by
      simp only [LaptopFactory.endRound, hlock, if_true]
    refine ⟨_, hcall hend, .return hlock (hothers _) ?_⟩
    rw [hserver, Function.update_self]
  · have hend : (c.server s).endRound = some
        { c.server s with
          metadata := { (c.server s).metadata with nodeSocket := new }
          metaLock := .replicateLog caller ⟨new, new, 0⟩ } := by
      simp only [LaptopFactory.endRound, hlock, if_neg hchange]
    refine ⟨_, hcall hend, .nextRound hlock hchange (hothers _) rfl ?_⟩
    rw [hserver, Function.update_self]

/-- A call that can go on does. -/
theorem InCall.turn (h : InCall cfg s c) (hreplicating : (c.server s).Replicating) :
    ∃ c', c.callStep s = some c' ∧ Turn s c c' := by
  unfold LaptopFactory.Replicating at hreplicating
  split at hreplicating
  · rename_i caller loop hlock
    obtain ⟨rest, new, change⟩ := loop
    cases rest with
    | nil => exact InCall.endRound hlock
    | cons node rest => exact h.visit hlock
  · exact hreplicating.elim

/-- An iteration is one of the cases, since `callStep` is a function. -/
theorem InCall.turn_of_step (h : InCall cfg s c) (hst : c.callStep s = some c') :
    Turn s c c' := by
  have hreplicating : (c.server s).Replicating := by
    unfold Cluster.callStep at hst
    unfold LaptopFactory.Replicating
    split at hst
    · rename_i hlock
      simp only [hlock]
    · rename_i hlock
      simp only [hlock]
    · cases hst
  obtain ⟨c₁, hst₁, hturn⟩ := h.turn hreplicating
  obtain rfl := Option.some.inj (hst₁.symm.trans hst)
  exact hturn

/-- Peers are other members, and different peers are different members. -/
lemma peer_id_ne (hs : s ∈ cfg.ids) (hnode : node ∈ cfg.peers s) : node.id ≠ s :=
  ((cfg.mem_peers s hs node.id).1 (List.mem_map_of_mem hnode)).2

lemma peer_id_inj (hs : s ∈ cfg.ids) {node' : ServerNode} (hnode : node ∈ cfg.peers s)
    (hnode' : node' ∈ cfg.peers s) (hid : node.id = node'.id) : node = node' :=
  List.inj_on_of_nodup_map (cfg.peers_nodup s hs) hnode hnode' hid

/-- A peer the caller does not visit keeps its state. -/
lemma Visited.other (h : Visited s node c c') (hs : s ∈ cfg.ids) (hnode : node ∈ cfg.peers s)
    {node' : ServerNode} (hnode' : node' ∈ cfg.peers s) (hne : node' ≠ node) :
    c'.server node'.id = c.server node'.id :=
  h.others _ (peer_id_ne hs hnode') fun hid => hne (peer_id_inj hs hnode' hnode hid)

/-- Within a call no peer joins. -/
lemma Turn.nodes (hturn : Turn s c c') (hheld : (c'.server s).metaLock ≠ .free) :
    ∀ x ∈ (c'.server s).metaLock.nodes, x ∈ (c.server s).metaLock.nodes := by
  intro x hx
  cases hturn with
  | visit hlock hvisited hreact hcaller =>
      simp only [hcaller, hlock, MetaLock.nodes, List.mem_append, mem_insertSocket,
        List.mem_cons] at hx ⊢
      tauto
  | deposed hlock hsent hno hfree => exact absurd hfree hheld
  | nextRound hlock hchange hothers hlink hcaller =>
      simp only [hcaller, hlock, MetaLock.nodes, List.mem_append, List.nil_append,
        or_self] at hx ⊢
      exact hx
  | «return» hlock hothers hcaller =>
      exact absurd (LaptopFactory.free_of_returnTo hcaller) hheld

/-- **A call keeps what it needs** until it ends. -/
theorem InCall.step (h : InCall cfg s c) (hturn : Turn s c c')
    (hheld : (c'.server s).metaLock ≠ .free) : InCall cfg s c' := by
  obtain ⟨hs, hplaced, hready, hpositioned, hanswering, hquiet⟩ := h
  have hvisiting := hplaced.visiting
  have hnodes := hturn.nodes hheld
  have hpeers : ∀ x ∈ (c'.server s).metaLock.nodes, x ∈ cfg.peers s :=
    fun x hx => hvisiting x (hnodes x hx)
  cases hturn with
  | @visit caller node rest new change n md hlock hvisited hreact hcaller hn =>
      have hin : node ∈ (c.server s).metaLock.nodes := mem_nodes hlock
      have hslot := hplaced.slot_lt (hvisiting node hin)
      have hframe := hreact.frame
      have hmetadata : (c'.server s).metadata = md := by rw [hcaller]
      refine ⟨hs, ?_, ?_, fun x hx => ?_, fun x hx => ?_, by rw [hcaller]⟩
      · refine hplaced.of_same ?_ hpeers
        rw [hmetadata, hframe]
        exact ⟨rfl, rfl, rfl, rfl, rfl⟩
      · rw [hmetadata]
        exact hreact.ready hready
      · rw [hmetadata]
        by_cases hself : x = node
        · subst hself
          exact hreact.positioned hready hslot (hpositioned x hin)
        · obtain ⟨k, hk, hle⟩ := hpositioned x (hnodes x hx)
          have hsame := hreact.others (hplaced.slot_ne (hpeers x hx) (hvisiting node hin) hself)
          refine ⟨k, hsame.1.trans hk, ?_⟩
          rw [hframe]
          exact hle
      · obtain ⟨hlink, hfree, hsized, hknown⟩ := hanswering x (hnodes x hx)
        by_cases hself : x = node
        · subst hself
          refine ⟨by rw [hvisited.link]; exact hlink, hvisited.peerLock.trans hfree,
            hvisited.answer.sized, ?_⟩
          rw [hvisited.answer.factoryId]
          exact hknown
        · have hsame := hvisited.other hs (hvisiting node hin) (hpeers x hx) hself
          exact ⟨by rw [hvisited.link]; exact hlink, by rw [hsame]; exact hfree,
            by rw [hsame]; exact hsized, by rw [hsame]; exact hknown⟩
  | deposed hlock hsent hno hfree => exact absurd hfree hheld
  | @nextRound caller new change hlock hchange hothers hlink hcaller =>
      have hsockets : ∀ x ∈ new, x ∈ cfg.peers s := by
        intro x hx
        exact hvisiting x (by simpa [MetaLock.nodes, hlock] using hx)
      refine ⟨hs, ?_, ?_, fun x hx => ?_, fun x hx => ?_, by rw [hcaller]; exact hquiet⟩
      · refine ⟨?_, ?_, fun k x hk => ?_, ?_, ?_, hpeers⟩ <;>
          rw [hcaller]
        · exact hplaced.factoryId
        · exact hplaced.neighbors
        · exact hplaced.slot k x hk
        · exact hsockets
        · exact hplaced.failed
      · rw [hcaller]
        exact ⟨hready.valid, hready.sized.of_same rfl rfl rfl, hready.entry_term, hready.sent,
          hready.ack⟩
      · obtain ⟨k, hk, hle⟩ := hpositioned x (hnodes x hx)
        refine ⟨k, ?_, ?_⟩ <;> rw [hcaller]
        · exact hk
        · exact hle
      · obtain ⟨hup, hfree, hsized, hknown⟩ := hanswering x (hnodes x hx)
        have hsame := hothers x.id (peer_id_ne hs (hpeers x hx))
        exact ⟨by rw [hlink]; exact hup, by rw [hsame]; exact hfree, by rw [hsame]; exact hsized,
          by rw [hsame]; exact hknown⟩
  | «return» hlock hothers hcaller =>
      exact absurd (LaptopFactory.free_of_returnTo hcaller) hheld

/-! ## The standing of the peers -/

/-- The peer would not follow the caller. -/
def Refuses (c : Cluster) (s : ℤ) (node : ServerNode) : Prop :=
  ¬ Follows (c.server node.id).metadata (c.server s).metadata.currentTerm

/-- The position of a peer and its log. -/
def standing (c : Cluster) (s : ℤ) (node : ServerNode) : ℕ × List MapOp :=
  ((c.server s).metadata.position node, (c.server node.id).metadata.smrLog)

/-- What an iteration does with the peer it is at. -/
structure VisitEffect (s : ℤ) (node : ServerNode) (c c' : Cluster) : Prop where
  smrLog : (c'.server s).metadata.smrLog = (c.server s).metadata.smrLog
  logSize : (c'.server s).metadata.logSize = (c.server s).metadata.logSize
  currentTerm : (c'.server s).metadata.currentTerm = (c.server s).metadata.currentTerm
  status : (c'.server s).metadata.status = (c.server s).metadata.status
  follows : ¬ Refuses c s node → ¬ Refuses c' s node
  /-- What is answered to a heartbeat moves nothing. -/
  complete : ¬ (c.server s).metadata.Behind node →
    (c'.server s).metadata.sentTo node = (c.server s).metadata.sentTo node ∧
      standing c' s node = standing c s node
  /-- A caller that is not leader moves no position. -/
  ignored : (c.server s).metadata.status ≠ .leader →
    (c'.server s).metadata.sentTo node = (c.server s).metadata.sentTo node
  exchange : (c.server s).metadata.Behind node → (c.server s).metadata.status = .leader →
    standing c' s node =
      exchange MapOp.term (c.server s).metadata.smrLog (standing c s node)

/-- The caller's log and term, and the standing of a peer it is not at, are kept. -/
structure Kept (s : ℤ) (node : ServerNode) (c c' : Cluster) : Prop where
  sentTo : (c'.server s).metadata.sentTo node = (c.server s).metadata.sentTo node
  ackTo : (c'.server s).metadata.ackTo node = (c.server s).metadata.ackTo node
  server : c'.server node.id = c.server node.id

lemma Kept.standing (h : Kept s node c c') :
    LaptopRaft.standing c' s node = LaptopRaft.standing c s node := by
  rw [LaptopRaft.standing, LaptopRaft.standing, position, position, h.sentTo, h.server]

theorem InCall.moved (h : InCall cfg s c)
    (hlock : (c.server s).metaLock = .replicateLog caller ⟨node :: rest, new, change⟩)
    (hvisited : Visited s node c c')
    (hreact : Reaction (c.server s).metadata node (c.server node.id).metadata
      (c'.server node.id).metadata md)
    (hmetadata : (c'.server s).metadata = md) : VisitEffect s node c c' := by
  have hin : node ∈ (c.server s).metaLock.nodes := mem_nodes hlock
  have hslot := h.slot_lt hin
  have hframe := hreact.frame
  have hterm : md.currentTerm = (c.server s).metadata.currentTerm := by rw [hframe]
  refine ⟨by rw [hmetadata, hframe], by rw [hmetadata, hframe], by rw [hmetadata, hterm],
    by rw [hmetadata, hframe], fun hwilling => ?_, fun hcomplete => ?_, fun hstatus => ?_,
    fun hbehind hleader => ?_⟩
  · exact not_not.2 (Or.inr (hvisited.answer.follows (not_not.1 hwilling)).2)
  · obtain ⟨hsame, hlog⟩ := hreact.of_not_behind h.ready.sized hcomplete
    rw [hmetadata, hsame, standing, standing, hmetadata, hsame, hlog]
    exact ⟨rfl, rfl⟩
  · rw [hmetadata, hreact.of_not_leader hstatus]
  · obtain ⟨hsent, hlog⟩ := hreact.exchange h.ready hslot hbehind hleader
    rw [standing, hmetadata, position_of_sentTo hsent, hlog]
    rfl

theorem InCall.kept (h : InCall cfg s c)
    (hlock : (c.server s).metaLock = .replicateLog caller ⟨node :: rest, new, change⟩)
    (hvisited : Visited s node c c')
    (hreact : Reaction (c.server s).metadata node (c.server node.id).metadata
      (c'.server node.id).metadata md)
    (hmetadata : (c'.server s).metadata = md) {node' : ServerNode} (hnode' : node' ∈ cfg.peers s)
    (hne : node' ≠ node) : Kept s node' c c' := by
  have hin : node ∈ cfg.peers s := h.placed.visiting node (mem_nodes hlock)
  obtain ⟨hsent, hack⟩ := hreact.others (h.placed.slot_ne hnode' hin hne)
  exact ⟨by rw [hmetadata, hsent], by rw [hmetadata, hack], hvisited.other h.mem hin hnode' hne⟩

/-- At the end of a round no peer's standing changes. -/
lemma kept_of_nextRound (hs : s ∈ cfg.ids) (hothers : ∀ q, q ≠ s → c'.server q = c.server q)
    (hmetadata : (c'.server s).metadata = { (c.server s).metadata with nodeSocket := new })
    {node' : ServerNode} (hnode' : node' ∈ cfg.peers s) : Kept s node' c c' := by
  refine ⟨?_, ?_, hothers _ (peer_id_ne hs hnode')⟩ <;> rw [hmetadata] <;> rfl

end Turn

end LaptopRaft
