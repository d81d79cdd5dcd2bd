import LaptopRaft.Replication.CommitIndex
import LaptopRaft.Replication.Recovery

/-!
# The order of the peers

`node_socket` is keyed by pointers, so the order in which `ReplicateLog` goes through it is
whatever the addresses happen to be.  Here a leader's call is run with followers whose logs are
prefixes of its own, none of which fails, and what it leaves behind is described without
mentioning an order (`Settled`):

* the peers that were not at the end of the log are there now, hold the whole log and have
  acknowledged it; the others are as they were (`settle`);
* the commit length is moved to what a majority of these acknowledgements reaches, if a peer
  acknowledged anything.  It is moved in between as well, but never further: in no round does a
  slot hold more than in the end (`SlotsSettling.ack_le`).

Two calls that differ in the order of the peers only are then described alike
(`peer_order_irrelevant`).
-/

namespace LaptopRaft

open ServerMetadata

namespace ServerMetadata

variable {md md' md₀ : ServerMetadata} {node : ServerNode} {sent ack sent₀ ack₀ : List ℤ}
  {j x : ℕ} {m : ℤ}

/-! ## The arrays in the end -/

/-- `sent_length[j]`. -/
def sentAt (md : ServerMetadata) (j : ℕ) : Option ℤ := md.sentLength.bind fun xs => xs[j]?

/-- `ack_length[j]`. -/
def ackAt (md : ServerMetadata) (j : ℕ) : Option ℤ := md.ackLength.bind fun xs => xs[j]?

/-- The slots of the connected peers that are behind. -/
def behindSlots (md : ServerMetadata) : List ℕ :=
  (md.nodeSocket.filter fun node => md.Behind node).map md.slot

/-- An array in which the peers that are behind have come to the end of the log. -/
def settle (md : ServerMetadata) (xs : List ℤ) : List ℤ :=
  xs.mapIdx fun j x => if j ∈ md.behindSlots then md.logSize else x

lemma sentAt_set {k : ℤ} (hold : md.sentLength = some sent)
    (hnew : md'.sentLength = some (sent.set j k)) :
    (j < sent.length → md'.sentAt j = some k) ∧ ∀ i ≠ j, md'.sentAt i = md.sentAt i := by
  simp only [sentAt, hold, hnew, Option.bind_some]
  exact ⟨fun hlt => List.getElem?_set_self hlt, fun i hne => List.getElem?_set_ne hne.symm⟩

lemma ackAt_set {k : ℤ} (hold : md.ackLength = some ack)
    (hnew : md'.ackLength = some (ack.set j k)) :
    (j < ack.length → md'.ackAt j = some k) ∧ ∀ i ≠ j, md'.ackAt i = md.ackAt i := by
  simp only [ackAt, hold, hnew, Option.bind_some]
  exact ⟨fun hlt => List.getElem?_set_self hlt, fun i hne => List.getElem?_set_ne hne.symm⟩

/-- The slots in a call that began with `md₀`: those of the peers that were behind are on their
way to the end of the log. -/
structure SlotsSettling (md₀ md : ServerMetadata) : Prop where
  others : ∀ j ∉ md₀.behindSlots, md.sentAt j = md₀.sentAt j ∧ md.ackAt j = md₀.ackAt j
  below : ∀ j ∈ md₀.behindSlots, ∃ a ≤ md₀.logSize, md.ackAt j = some a
  done : ∀ j ∈ md₀.behindSlots, md.sentAt j = some md₀.logSize → md.ackAt j = some md₀.logSize

/-- What is acknowledged in between is acknowledged in the end. -/
lemma SlotsSettling.ack_le (h : SlotsSettling md₀ md) (hack : md.ackLength = some ack)
    (hack₀ : md₀.ackLength = some ack₀) (hlen : ack.length = ack₀.length) :
    List.Forall₂ (· ≤ ·) ack (md₀.settle ack₀) := by
  have hlen' : ack.length = (md₀.settle ack₀).length := by rw [settle, List.length_mapIdx, hlen]
  refine List.forall₂_iff_get.2 ⟨hlen', fun j h₁ h₂ => ?_⟩
  have hget : md.ackAt j = some ack[j] := by
    rw [ackAt, hack, Option.bind_some, List.getElem?_eq_getElem h₁]
  have hget₀ : md₀.ackAt j = some ack₀[j] := by
    rw [ackAt, hack₀, Option.bind_some, List.getElem?_eq_getElem (hlen ▸ h₁)]
  simp only [List.get_eq_getElem, settle, List.getElem_mapIdx]
  by_cases hj : j ∈ md₀.behindSlots
  · obtain ⟨a, hle, ha⟩ := h.below j hj
    rw [if_pos hj, Option.some.inj (hget.symm.trans ha)]
    exact hle
  · have hsame := (h.others j hj).2
    rw [if_neg hj, Option.some.inj (hget.symm.trans (hsame.trans hget₀))]

/-- The metadata of a leader in a call that began with `md₀`. -/
structure Settling (md₀ md : ServerMetadata) : Prop where
  frame : md = { md₀.executeTo md.commitLength with
    sentLength := md.sentLength
    ackLength := md.ackLength
    nodeSocket := md.nodeSocket }
  slots : SlotsSettling md₀ md
  commit_ge : md₀.commitLength ≤ md.commitLength
  reached : ∀ ack₀, md₀.ackLength = some ack₀ →
    md.commitLength = md₀.commitLength ∨ Majority (md₀.settle ack₀) md.commitLength
  covered : (md.ackLength = md₀.ackLength ∧ md.commitLength = md₀.commitLength) ∨
    (md₀.behindSlots ≠ [] ∧ ∀ ack, md.ackLength = some ack →
      ∀ i ≤ md₀.logSize, Majority ack i → i ≤ md.commitLength)

lemma Settling.logSize (h : Settling md₀ md) : md.logSize = md₀.logSize := by
  rw [h.frame]
  rfl

/-- A refusal moves one of the positions back. -/
lemma SlotsSettling.backed (h : SlotsSettling md₀ md) (hj : j ∈ md₀.behindSlots)
    (hsent : md.sentLength = some sent) (hlt : j < sent.length) (hx : (x : ℤ) < md₀.logSize)
    (hsent' : md'.sentLength = some (sent.set j (x - 1))) (hack' : md'.ackLength = md.ackLength) :
    SlotsSettling md₀ md' := by
  obtain ⟨hself, hothers⟩ := sentAt_set hsent hsent'
  have hack : ∀ i, md'.ackAt i = md.ackAt i := fun i => by rw [ackAt, ackAt, hack']
  refine ⟨fun i hi => ?_, fun i hi => ?_, fun i hi hend => ?_⟩
  · rw [hothers i fun heq => hi (heq ▸ hj), hack]
    exact h.others i hi
  · rw [hack]
    exact h.below i hi
  · rw [hack]
    refine h.done i hi ?_
    by_cases hij : i = j
    · rw [hij, hself hlt] at hend
      have heq := Option.some.inj hend
      omega
    · rw [← hothers i hij]
      exact hend

/-- An acknowledgement moves one of them on. -/
lemma SlotsSettling.acked (h : SlotsSettling md₀ md) (hj : j ∈ md₀.behindSlots)
    (hsent : md.sentLength = some sent) (hack : md.ackLength = some ack) (hlt : j < sent.length)
    (hlt' : j < ack.length) (hx : (x : ℤ) < md₀.logSize)
    (hsent' : md'.sentLength = some (sent.set j (x + 1)))
    (hack' : md'.ackLength = some (ack.set j (x + 1))) : SlotsSettling md₀ md' := by
  obtain ⟨hsentself, hsentothers⟩ := sentAt_set hsent hsent'
  obtain ⟨hackself, hackothers⟩ := ackAt_set hack hack'
  refine ⟨fun i hi => ?_, fun i hi => ?_, fun i hi hend => ?_⟩
  · have hne : i ≠ j := fun heq => hi (heq ▸ hj)
    rw [hsentothers i hne, hackothers i hne]
    exact h.others i hi
  · by_cases hij : i = j
    · rw [hij]
      exact ⟨x + 1, by omega, hackself hlt'⟩
    · rw [hackothers i hij]
      exact h.below i hi
  · by_cases hij : i = j
    · rw [hij, hsentself hlt] at hend
      rw [hij, hackself hlt', hend]
    · rw [hsentothers i hij] at hend
      rw [hackothers i hij]
      exact h.done i hi hend

/-- A refusal. -/
lemma Settling.backed (h : Settling md₀ md) (hj : j ∈ md₀.behindSlots)
    (hsent : md.sentLength = some sent) (hlt : j < sent.length) (hx : (x : ℤ) < md₀.logSize)
    (hmd : md' = { md with sentLength := some (sent.set j (x - 1)) }) : Settling md₀ md' := by
  refine ⟨?_, h.slots.backed hj hsent hlt hx (by rw [hmd]) (by rw [hmd]), ?_, ?_, ?_⟩
  · rw [hmd]
    exact congrArg (fun m : ServerMetadata => { m with sentLength := some (sent.set j (x - 1)) })
      h.frame
  · rw [hmd]
    exact h.commit_ge
  · rw [hmd]
    exact h.reached
  · rw [hmd]
    exact h.covered

/-- An acknowledgement, after which `CommitLog` is called. -/
lemma Settling.acked (h : Settling md₀ md) (hj : md.slot node ∈ md₀.behindSlots)
    (hsent : md.sentLength = some sent) (hack : md.ackLength = some ack)
    (hlt : md.slot node < sent.length) (hlt' : md.slot node < ack.length)
    (hlen : ∀ ack₀, md₀.ackLength = some ack₀ → ack.length = ack₀.length)
    (hx : (x : ℤ) < md₀.logSize)
    (hm : IsGreatest {k | k ≤ md.logSize ∧ Majority (ack.set (md.slot node) (x + 1)) k} m)
    (hmd : md' = (md.recordAck node sent ack (x + 1)).executeTo (max md.commitLength m)) :
    Settling md₀ md' := by
  have hsent' : md'.sentLength = some (sent.set (md.slot node) (x + 1)) := by rw [hmd]; rfl
  have hack' : md'.ackLength = some (ack.set (md.slot node) (x + 1)) := by rw [hmd]; rfl
  have hcommit : md'.commitLength = max md.commitLength m := by rw [hmd]; rfl
  have hslots := h.slots.acked hj hsent hack hlt hlt' hx hsent' hack'
  refine ⟨?_, hslots, ?_, fun ack₀ hack₀ => ?_, Or.inr ⟨List.ne_nil_of_mem hj, ?_⟩⟩
  · have hexecuted : md.executeTo (max md.commitLength m) =
        { md₀.executeTo (max md.commitLength m) with
          sentLength := md.sentLength
          ackLength := md.ackLength
          nodeSocket := md.nodeSocket } := by
      rw [← executeTo_executeTo h.commit_ge (le_max_left _ m)]
      exact congrArg (fun d : ServerMetadata => d.executeTo (max md.commitLength m)) h.frame
    rw [hmd]
    exact congrArg (fun d : ServerMetadata =>
      { d with sentLength := some (sent.set (md.slot node) (x + 1))
               ackLength := some (ack.set (md.slot node) (x + 1)) }) hexecuted
  · rw [hcommit]
    exact h.commit_ge.trans (le_max_left _ _)
  · have hraised := hslots.ack_le hack' hack₀ (by rw [List.length_set, hlen ack₀ hack₀])
    rcases max_choice md.commitLength m with hsame | hmoved
    · rw [hcommit, hsame]
      exact h.reached ack₀ hack₀
    · rw [hcommit, hmoved]
      exact Or.inr (hm.1.2.mono hraised)
  · intro ack₁ hack₁ i hi hmaj
    obtain rfl := Option.some.inj (hack'.symm.trans hack₁)
    rw [hcommit]
    exact (hm.2 ⟨hi.trans h.logSize.ge, hmaj⟩).trans (le_max_right _ _)

/-- An array that has settled. -/
lemma eq_settle {xs xs₀ : List ℤ} (hlen : xs.length = xs₀.length)
    (hothers : ∀ j ∉ md₀.behindSlots, xs[j]? = xs₀[j]?)
    (hbehind : ∀ j ∈ md₀.behindSlots, xs[j]? = some md₀.logSize) : xs = md₀.settle xs₀ := by
  refine List.ext_getElem? fun j => ?_
  rw [settle, List.getElem?_mapIdx]
  by_cases hj : j ∈ md₀.behindSlots
  · obtain ⟨hlt, -⟩ := List.getElem?_eq_some_iff.1 (hbehind j hj)
    simp only [hj, if_true]
    rw [hbehind j hj, List.getElem?_eq_getElem (hlen ▸ hlt), Option.map_some]
  · simp only [hj, if_false, Option.map_id']
    exact hothers j hj

/-- No peer is behind any more. -/
def AllSent (md₀ md : ServerMetadata) : Prop :=
  ∀ j ∈ md₀.behindSlots, md.sentAt j = some md₀.logSize

lemma SlotsSettling.sent_eq (h : SlotsSettling md₀ md) (hsent₀ : md₀.sentLength = some sent₀)
    (hsent : md.sentLength = some sent) (hlen : sent.length = sent₀.length)
    (hend : AllSent md₀ md) : sent = md₀.settle sent₀ := by
  have hget : ∀ j, md.sentAt j = sent[j]? := fun j => by rw [sentAt, hsent, Option.bind_some]
  refine eq_settle hlen (fun j hj => ?_) fun j hj => ?_
  · rw [← hget, (h.others j hj).1, sentAt, hsent₀, Option.bind_some]
  · rw [← hget]
    exact hend j hj

lemma SlotsSettling.ack_eq (h : SlotsSettling md₀ md) (hack₀ : md₀.ackLength = some ack₀)
    (hack : md.ackLength = some ack) (hlen : ack.length = ack₀.length)
    (hend : AllSent md₀ md) : ack = md₀.settle ack₀ := by
  have hget : ∀ j, md.ackAt j = ack[j]? := fun j => by rw [ackAt, hack, Option.bind_some]
  refine eq_settle hlen (fun j hj => ?_) fun j hj => ?_
  · rw [← hget, (h.others j hj).2, ackAt, hack₀, Option.bind_some]
  · rw [← hget]
    exact h.done j hj (hend j hj)

/-- The commit length has gone as far as a majority of the acknowledgements, and no further. -/
lemma Settling.commit_eq (h : Settling md₀ md) (hready : Ready md)
    (hack₀ : md₀.ackLength = some ack₀) (hack : md.ackLength = some (md₀.settle ack₀))
    (hunacked : ∀ j ∈ md₀.behindSlots, md₀.ackAt j ≠ some md₀.logSize) (hend : AllSent md₀ md)
    (hsome : md₀.behindSlots ≠ [])
    (hm : IsGreatest {k | k ≤ md₀.logSize ∧ Majority (md₀.settle ack₀) k} m) :
    md.commitLength = max md₀.commitLength m := by
  have hge := h.commit_ge
  have hle : md.commitLength ≤ md₀.logSize := h.logSize ▸ hready.sized.commit_le
  have hcovered : m ≤ md.commitLength := by
    rcases h.covered with ⟨hsame, -⟩ | ⟨-, hcovers⟩
    · -- something has been acknowledged
      obtain ⟨j, hj⟩ := List.exists_mem_of_ne_nil _ hsome
      have hdone := h.slots.done j hj (hend j hj)
      rw [ackAt, hsame] at hdone
      exact absurd hdone (hunacked j hj)
    · exact hcovers _ hack m hm.1.1 hm.1.2
  rcases h.reached ack₀ hack₀ with hsame | hmaj
  · omega
  · have hbound := hm.2 ⟨hle, hmaj⟩
    omega

/-- What a call leaves of the leader's data. -/
structure SettledData (md₀ md : ServerMetadata) : Prop where
  smrLog : md.smrLog = md₀.smrLog
  sentLength : md.sentLength = md₀.sentLength.map md₀.settle
  ackLength : md.ackLength = md₀.ackLength.map md₀.settle
  commit_kept : md₀.behindSlots = [] → md.commitLength = md₀.commitLength
  commit_moved : md₀.behindSlots ≠ [] → ∀ ack₀ m, md₀.ackLength = some ack₀ →
    IsGreatest {k | k ≤ md₀.logSize ∧ Majority (md₀.settle ack₀) k} m →
    md.commitLength = max md₀.commitLength m
  record : md.customerRecord = (md₀.executeTo md.commitLength).customerRecord

/-- When no peer is behind any more, everything has settled. -/
theorem Settling.settled (h : Settling md₀ md) (hready₀ : Ready md₀) (hready : Ready md)
    (hunacked : ∀ j ∈ md₀.behindSlots, md₀.ackAt j ≠ some md₀.logSize)
    (hend : AllSent md₀ md) : SettledData md₀ md := by
  have hpeers : md.getPeerSize = md₀.getPeerSize := by rw [h.frame]; rfl
  obtain ⟨sent₀, hsent₀, hsentlen₀⟩ := hready₀.sent
  obtain ⟨ack₀, hack₀, hacklen₀⟩ := hready₀.ack
  obtain ⟨sent, hsent, hsentlen⟩ := hready.sent
  obtain ⟨ack, hack, hacklen⟩ := hready.ack
  have hsettled := h.slots.sent_eq hsent₀ hsent (by omega) hend
  have hsettled' := h.slots.ack_eq hack₀ hack (by omega) hend
  refine ⟨?_, ?_, ?_, fun hnone => ?_, fun hsome ack₁ m hack₁ hm => ?_, ?_⟩
  · rw [h.frame]
    rfl
  · rw [hsent, hsent₀, hsettled, Option.map_some]
  · rw [hack, hack₀, hsettled', Option.map_some]
  · rcases h.covered with ⟨-, hsame⟩ | ⟨hsome, -⟩
    · exact hsame
    · exact absurd hnone hsome
  · obtain rfl := Option.some.inj (hack₀.symm.trans hack₁)
    exact h.commit_eq hready hack₀ (hsettled' ▸ hack) hunacked hend hsome hm
  · have hrecord := congrArg ServerMetadata.customerRecord h.frame
    exact hrecord

/-! ## The peers that are behind -/

/-- The set of connections is not part of what settles. -/
lemma Settling.nodeSocket (h : Settling md₀ md) (sockets : List ServerNode) :
    Settling md₀ { md with nodeSocket := sockets } := by
  refine ⟨?_, ⟨h.slots.others, h.slots.below, h.slots.done⟩, h.commit_ge, h.reached, h.covered⟩
  exact congrArg (fun d : ServerMetadata => { d with nodeSocket := sockets }) h.frame

lemma Settling.slot (h : Settling md₀ md) (node : ServerNode) : md.slot node = md₀.slot node := by
  rw [h.frame]
  rfl

lemma Settling.sentTo (h : Settling md₀ md) (node : ServerNode) :
    md.sentTo node = md.sentAt (md₀.slot node) := by
  rw [← h.slot node]
  rfl

/-- A peer that is behind was behind when the call began. -/
lemma Settling.mem_behindSlots_of_behind (h : Settling md₀ md) (hnode : node ∈ md₀.nodeSocket)
    (hbehind : md.Behind node) : md.slot node ∈ md₀.behindSlots := by
  rw [h.slot]
  by_contra hnot
  have hcomplete : ¬ md₀.Behind node := fun hbehind₀ =>
    hnot (List.mem_map.2 ⟨node, List.mem_filter.2 ⟨hnode, by simpa using hbehind₀⟩, rfl⟩)
  refine hbehind ?_
  rw [h.sentTo, (h.slots.others _ hnot).1, h.logSize]
  exact not_not.1 hcomplete

end ServerMetadata

/-! ## One acknowledgement -/

section Calls

variable {cfg : Config} {s : ℤ} {c c' c₀ : Cluster} {caller : Caller} {node : ServerNode}
  {rest new : List ServerNode} {change x : ℕ} {sent ack : List ℤ}

/-- The caller's metadata after a peer has accepted an entry is what `CommitLog` makes of the new
acknowledgement. -/
theorem InCall.committed (h : InCall cfg s c)
    (hlock : (c.server s).metaLock = .replicateLog caller ⟨node :: rest, new, change⟩)
    (hst : c.callStep s = some c') (hk : (c.server s).metadata.sentTo node = some (x : ℤ))
    (hx : x < (c.server s).metadata.smrLog.length)
    (hleader : (c.server s).metadata.status = .leader)
    (hfollows : Follows (c.server node.id).metadata (c.server s).metadata.currentTerm)
    (hagree : AgreesAt MapOp.term (c.server s).metadata.smrLog
      (c.server node.id).metadata.smrLog x)
    (hsent : (c.server s).metadata.sentLength = some sent)
    (hack : (c.server s).metadata.ackLength = some ack) :
    ((c.server s).metadata.recordAck node sent ack (x + 1)).commitLog =
      some (c'.server s).metadata := by
  have hin : node ∈ (c.server s).metaLock.nodes := mem_nodes hlock
  have hslot := h.slot_lt hin
  have hsize := h.ready.sized.logSize
  obtain ⟨hlink, hfree, hsized, -⟩ := h.answering node hin
  obtain ⟨req, md, res, hreq, hvalid, hbuilt, hanswer, hreply, hres⟩ := h.answered hin
  have hfollows' : Follows (c.server node.id).metadata req.currentTerm := hbuilt.term ▸ hfollows
  obtain ⟨hbefore, hentry, hop, hterms⟩ := h.ready.entryRequest hbuilt hk hx.ne
  obtain ⟨hsuccess, hacked, -⟩ :=
    (hreply.of_entry hsized hfollows' hbefore hentry hop hterms).1 hagree
  have hsentlen := h.ready.sent_length hsent
  have hacklen := h.ready.ack_length hack
  have hrecorded : Sized ((c.server s).metadata.recordAck node sent ack res.ack) :=
    h.ready.sized.of_same rfl rfl rfl
  obtain ⟨md', hcommit, -⟩ := hrecorded.commitLog_isSome rfl
    (by rw [List.length_set]; exact hacklen)
  have hbehind := behind_of_sentTo h.ready.sized hk hx
  have hrecv := recvEntryResponse_acked
    ((hreply.of_follows hfollows').2.2.trans hbuilt.term) hleader hsent hack (by omega) (by omega)
    hsuccess hcommit
  obtain ⟨c₁, hst₁, hcaller, -⟩ := visit_eq hlock h.quiet hlink hfree hreq hvalid hanswer
    (LaptopFactory.recvLogResponse_entry hlock hres hbehind hrecv)
  obtain rfl := Option.some.inj (hst₁.symm.trans hst)
  rw [← hacked, hcommit, hcaller]
  rfl

/-- A call keeps the leader's data on its way. -/
lemma ServerMetadata.Settling.step {md₀ : ServerMetadata} (h : Settling md₀ (c.server s).metadata)
    (hready₀ : Ready md₀) (hcall : InCall cfg s c)
    (hleader : (c.server s).metadata.status = .leader)
    (hnodes : ∀ x ∈ (c.server s).metaLock.nodes, x ∈ md₀.nodeSocket)
    (hst : c.callStep s = some c') (hheld : (c'.server s).metaLock ≠ .free) :
    Settling md₀ (c'.server s).metadata := by
  have hsize := hcall.ready.sized.logSize
  have hsize₀ := h.logSize
  have hpeers : (c.server s).metadata.getPeerSize = md₀.getPeerSize := by rw [h.frame]; rfl
  cases hcall.turn_of_step hst with
  | @visit caller node rest new change n md hlock hvisited hreact hcaller hn =>
      have hmetadata : (c'.server s).metadata = md := by rw [hcaller]
      have hin : node ∈ (c.server s).metaLock.nodes := mem_nodes hlock
      have hslot := hcall.slot_lt hin
      have hj : (c.server s).metadata.Behind node →
          (c.server s).metadata.slot node ∈ md₀.behindSlots :=
        h.mem_behindSlots_of_behind (hnodes node hin)
      cases hreact with
      | complete => rwa [hmetadata]
      | @acked x sent ack _ hk hx hleader hfollows hagree hsent hack hge hle hmd hlog =>
          have hsentlen := hcall.ready.sent_length hsent
          have hacklen := hcall.ready.ack_length hack
          have hbehind := behind_of_sentTo hcall.ready.sized hk hx
          have hcommitted := hcall.committed hlock hst hk hx hleader hfollows hagree hsent hack
          have hlen : (ack.set ((c.server s).metadata.slot node) ((x : ℤ) + 1)).length =
              (c.server s).metadata.getPeerSize + 1 := by rw [List.length_set, hacklen]
          have hne := List.ne_nil_of_length_eq_add_one hlen
          obtain ⟨m, hm⟩ := exists_isGreatest_majority hne (c.server s).metadata.logSize
          have hrecorded : Sized ((c.server s).metadata.recordAck node sent ack (x + 1)) :=
            hcall.ready.sized.of_same rfl rfl rfl
          have hmoved := hcommitted.symm.trans (hrecorded.commitLog_eq rfl hlen hm)
          refine h.acked (hj hbehind) hsent hack (by omega) (by omega) (fun ack₀ hack₀ => ?_)
            (by omega) hm (Option.some.inj hmoved)
          rw [hacklen, hready₀.ack_length hack₀, hpeers]
      | @backed x sent _ hk hx hleader hfollows hagree hsent hmd hlog =>
          have hsentlen := hcall.ready.sent_length hsent
          have hbehind := behind_of_sentTo hcall.ready.sized hk hx
          exact h.backed (hj hbehind) hsent (by omega) (by omega) (hmetadata.trans hmd)
      | ignored hsent hstatus => exact absurd hleader hstatus
  | deposed hlock hsent hno hfree => exact absurd hfree hheld
  | @nextRound caller new change hlock hchange hothers hlink hcaller =>
      rw [hcaller]
      exact h.nodeSocket new
  | «return» hlock hothers hcaller =>
      exact absurd (LaptopFactory.free_of_returnTo hcaller) hheld

/-! ## The peers -/

/-- A peer in a call that began with `c₀`. -/
structure PeerSettling (s : ℤ) (c₀ c : Cluster) (node : ServerNode) : Prop where
  isPrefix : (c.server node.id).metadata.smrLog <+: (c.server s).metadata.smrLog
  kept : ¬ (c₀.server s).metadata.Behind node → ¬ (c.server s).metadata.Behind node ∧
    (c.server node.id).metadata.smrLog = (c₀.server node.id).metadata.smrLog
  complete : (c₀.server s).metadata.Behind node → ¬ (c.server s).metadata.Behind node →
    (c.server node.id).metadata.smrLog = (c.server s).metadata.smrLog

lemma PeerSettling.of_kept (h : PeerSettling s c₀ c node) (hkept : Kept s node c c')
    (hlog : (c'.server s).metadata.smrLog = (c.server s).metadata.smrLog)
    (hbehind : (c'.server s).metadata.Behind node ↔ (c.server s).metadata.Behind node) :
    PeerSettling s c₀ c' node := by
  obtain ⟨hpre, hold, hcomplete⟩ := h
  constructor
  · rw [hkept.server, hlog]
    exact hpre
  · rw [hkept.server, hbehind]
    exact hold
  · rw [hkept.server, hlog, hbehind]
    exact hcomplete

/-- The peer that the call is at. -/
lemma PeerSettling.visited {md : ServerMetadata} (h : PeerSettling s c₀ c node)
    (hcall : InCall cfg s c)
    (hlock : (c.server s).metaLock = .replicateLog caller ⟨node :: rest, new, change⟩)
    (hleader : (c.server s).metadata.status = .leader) (hvisited : Visited s node c c')
    (hreact : Reaction (c.server s).metadata node (c.server node.id).metadata
      (c'.server node.id).metadata md)
    (hmetadata : (c'.server s).metadata = md) : PeerSettling s c₀ c' node := by
  have hin : node ∈ (c.server s).metaLock.nodes := mem_nodes hlock
  have hslot := hcall.slot_lt hin
  have hmoved := hcall.moved hlock hvisited hreact hmetadata
  obtain ⟨hpre, hcompletes⟩ :=
    hreact.settles hcall.ready hslot (hcall.positioned node hin) hleader h.isPrefix
  refine ⟨?_, fun hcomplete₀ => ?_, fun hbehind₀ hcomplete => ?_⟩
  · rw [hmoved.smrLog]
    exact hpre
  · obtain ⟨hcomplete, hlog⟩ := h.kept hcomplete₀
    have hsame := (hreact.of_not_behind hcall.ready.sized hcomplete).2
    exact ⟨fun hbehind => hcomplete (hmoved.behind hbehind), hsame.trans hlog⟩
  · rw [hmoved.smrLog]
    by_cases hbehind : (c.server s).metadata.Behind node
    · exact hcompletes hbehind (hmetadata ▸ hcomplete)
    · have hsame := (hreact.of_not_behind hcall.ready.sized hbehind).2
      exact hsame.trans (h.complete hbehind₀ hbehind)

/-- All peers in a call that began with `c₀`. -/
structure PeersSettling (s : ℤ) (c₀ c : Cluster) : Prop where
  nodes : ∀ x ∈ (c.server s).metaLock.nodes, x ∈ (c₀.server s).metadata.nodeSocket
  peers : ∀ x ∈ (c₀.server s).metadata.nodeSocket, PeerSettling s c₀ c x
  others : ∀ q, q ≠ s → q ∉ (c₀.server s).metadata.nodeSocket.map ServerNode.id →
    c.server q = c₀.server q

lemma PeersSettling.step (h : PeersSettling s c₀ c) (hcall : InCall cfg s c)
    (hpeers : ∀ x ∈ (c₀.server s).metadata.nodeSocket, x ∈ cfg.peers s)
    (hleader : (c.server s).metadata.status = .leader) (hturn : Turn s c c')
    (hheld : (c'.server s).metaLock ≠ .free) : PeersSettling s c₀ c' := by
  refine ⟨fun x hx => h.nodes x (hturn.nodes hheld x hx), fun x hx => ?_, fun q hq hnot => ?_⟩
  · cases hturn with
    | @visit caller node rest new change n md hlock hvisited hreact hcaller hn =>
        have hmetadata : (c'.server s).metadata = md := by rw [hcaller]
        by_cases hself : x = node
        · subst hself
          exact (h.peers x hx).visited hcall hlock hleader hvisited hreact hmetadata
        · have hmoved := hcall.moved hlock hvisited hreact hmetadata
          have hkept := hcall.kept hlock hvisited hreact hmetadata (hpeers x hx) hself
          exact (h.peers x hx).of_kept hkept hmoved.smrLog (hmoved.behind_iff hkept.sentTo)
    | deposed hlock hsent hno hfree => exact absurd hfree hheld
    | @nextRound caller new change hlock hchange hothers hlink hcaller =>
        have hmetadata : (c'.server s).metadata =
            { (c.server s).metadata with nodeSocket := new } := by rw [hcaller]
        refine (h.peers x hx).of_kept
          (kept_of_nextRound hcall.mem hothers hmetadata (hpeers x hx)) (by rw [hmetadata]) ?_
        rw [hmetadata]
        rfl
    | «return» hlock hothers hcaller =>
        exact absurd (LaptopFactory.free_of_returnTo hcaller) hheld
  · cases hturn with
    | @visit caller node rest new change n md hlock hvisited hreact hcaller hn =>
        have hne : q ≠ node.id := by
          rintro rfl
          exact hnot (List.mem_map_of_mem (h.nodes node (mem_nodes hlock)))
        exact (hvisited.others q hq hne).trans (h.others q hq hnot)
    | deposed hlock hsent hno hfree => exact absurd hfree hheld
    | nextRound hlock hchange hothers => exact (hothers q hq).trans (h.others q hq hnot)
    | «return» hlock hothers hcaller =>
        exact absurd (LaptopFactory.free_of_returnTo hcaller) hheld

end Calls

/-! ## What a call leaves behind -/

/-- A follower that holds a beginning of the leader's log.  Its term and its commit length do not
matter. -/
structure Trailing (c : Cluster) (s : ℤ) (node : ServerNode) : Prop where
  status : (c.server node.id).metadata.status = .follower
  smrLog : (c.server node.id).metadata.smrLog <+: (c.server s).metadata.smrLog
  slots : ∃ a x, (c.server s).metadata.ackTo node = some a ∧
    (c.server s).metadata.sentTo node = some x ∧ 0 ≤ a ∧ a ≤ x ∧ x ≤ (c.server s).metadata.logSize

/-- A leader has just entered `ReplicateLog`, and every connected peer trails it. -/
structure CatchUpBegins (cfg : Config) (s : ℤ) (c : Cluster) : Prop where
  mem : s ∈ cfg.ids
  valid : s ≠ -1
  placed : Placed cfg s (c.server s)
  leader : (c.server s).metadata.status = .leader
  sized : Sized (c.server s).metadata
  entry_term : ∀ op ∈ (c.server s).metadata.smrLog, 0 ≤ op.term
  sent : ∃ xs, (c.server s).metadata.sentLength = some xs ∧
    xs.length = (c.server s).metadata.getPeerSize + 1
  ack : ∃ xs, (c.server s).metadata.ackLength = some xs ∧
    xs.length = (c.server s).metadata.getPeerSize + 1
  entered : (c.server s).Entered
  quiet : (c.server s).wire = .quiet
  answering : ∀ node ∈ (c.server s).metadata.nodeSocket, Answering c s node
  peers : ∀ node ∈ (c.server s).metadata.nodeSocket, Trailing c s node

/-- What a call leaves behind. -/
structure Settled (s : ℤ) (c c' : Cluster) : Prop where
  data : SettledData (c.server s).metadata (c'.server s).metadata
  behind : ∀ x ∈ (c.server s).metadata.nodeSocket, (c.server s).metadata.Behind x →
    (c'.server x.id).metadata.smrLog = (c.server s).metadata.smrLog
  kept : ∀ x ∈ (c.server s).metadata.nodeSocket, ¬ (c.server s).metadata.Behind x →
    (c'.server x.id).metadata.smrLog = (c.server x.id).metadata.smrLog
  others : ∀ q, q ≠ s → q ∉ (c.server s).metadata.nodeSocket.map ServerNode.id →
    c'.server q = c.server q

section Outcome

variable {cfg cfg₁ cfg₂ : Config} {s : ℤ} {c c' c₁ c₂ c₁' c₂' : Cluster}

lemma CatchUpBegins.inCall (h : CatchUpBegins cfg s c) : InCall cfg s c := by
  have hnodes := h.entered.nodes
  have hsize := h.sized.logSize
  refine ⟨h.mem, h.placed, ⟨?_, h.sized, h.entry_term, h.sent, h.ack⟩, fun node hnode => ?_,
    fun node hnode => h.answering node (hnodes ▸ hnode), h.quiet⟩
  · rw [h.placed.factoryId]
    exact h.valid
  · obtain ⟨a, x, -, hx, hnonneg, hle, hle'⟩ := (h.peers node (hnodes ▸ hnode)).slots
    have hcast : (x.toNat : ℤ) = x := by omega
    exact ⟨x.toNat, by rw [hcast]; exact hx, by omega⟩

lemma CatchUpBegins.mending (h : CatchUpBegins cfg s c) : Mending cfg s c := by
  have hnodes := h.entered.nodes
  refine ⟨h.inCall, h.entered.replicating, fun node hnode _ => ?_,
    fun node hnode _ => ⟨h.leader, ?_⟩⟩
  · exact not_not.2 (Or.inr (h.peers node (hnodes ▸ hnode)).status)
  · exact repairable_of_isPrefix (h.peers node (hnodes ▸ hnode)).smrLog

/-- The slots of the peers that are behind, when the call begins. -/
lemma CatchUpBegins.behind (h : CatchUpBegins cfg s c) {j : ℕ}
    (hj : j ∈ (c.server s).metadata.behindSlots) :
    (c.server s).metadata.sentAt j ≠ some (c.server s).metadata.logSize ∧
      ∃ a < (c.server s).metadata.logSize, (c.server s).metadata.ackAt j = some a := by
  obtain ⟨node, hnode, rfl⟩ := List.mem_map.1 hj
  obtain ⟨hin, hbehind⟩ := List.mem_filter.1 hnode
  rw [decide_eq_true_eq] at hbehind
  obtain ⟨a, x, ha, hx, -, hle, hle'⟩ := (h.peers node hin).slots
  have hne : x ≠ (c.server s).metadata.logSize := by
    rintro rfl
    exact hbehind hx
  exact ⟨hbehind, a, by omega, ha⟩

lemma CatchUpBegins.settling (h : CatchUpBegins cfg s c) :
    Settling (c.server s).metadata (c.server s).metadata := by
  refine ⟨?_, ⟨fun _ _ => ⟨rfl, rfl⟩, fun j hj => ?_, fun j hj hend => ?_⟩, le_rfl,
    fun _ _ => Or.inl rfl, Or.inl ⟨rfl, rfl⟩⟩
  · rw [executeTo_self]
  · obtain ⟨-, a, hlt, ha⟩ := h.behind hj
    exact ⟨a, hlt.le, ha⟩
  · exact absurd hend (h.behind hj).1

lemma CatchUpBegins.peersSettling (h : CatchUpBegins cfg s c) : PeersSettling s c c := by
  have hnodes := h.entered.nodes
  exact ⟨fun x hx => hnodes ▸ hx, fun x hx => ⟨(h.peers x hx).smrLog,
    fun hcomplete => ⟨hcomplete, rfl⟩, fun hbehind hcomplete => absurd hbehind hcomplete⟩,
    fun _ _ _ => rfl⟩

/-- The call finishes, and its invariants hold until then. -/
lemma CatchUpBegins.finishes (h : CatchUpBegins cfg s c) :
    ∃ c₁, CallTo s c c₁ ∧ (c₁.server s).Finished ∧ Ready (c₁.server s).metadata ∧
      Recovering cfg s (c.server s).metadata.smrLog (c.server s).metadata.nodeSocket
        (fun _ => False) c₁ ∧
      Settling (c.server s).metadata (c₁.server s).metadata ∧ PeersSettling s c c₁ := by
  obtain ⟨caller, hlock⟩ := h.entered.loop
  have hstart : Recovering cfg s (c.server s).metadata.smrLog (c.server s).metadata.nodeSocket
      (fun _ => False) c := by
    refine ⟨h.leader, rfl, fun _ _ hno => hno.elim, fun node hnode caller' rest new change hloop =>
      ?_⟩
    cases hlock.symm.trans hloop
    exact Or.inl hnode
  obtain ⟨c₁, hcall, ⟨hmending, hinvariant⟩, hfinished⟩ := h.mending.finishes_of_callStep
    (K := fun d => Recovering cfg s (c.server s).metadata.smrLog
      (c.server s).metadata.nodeSocket (fun _ => False) d ∧
      Settling (c.server s).metadata (d.server s).metadata ∧ PeersSettling s c d)
    ⟨hstart, h.settling, h.peersSettling⟩ fun d d' hmending ⟨hrec, hset, hrest⟩ hst hmending' =>
      have hturn := hmending.call.turn_of_step hst
      have hheld := hmending'.replicating.held
      ⟨hrec.step h.placed.nodeSocket hmending.call hturn hheld,
        hset.step h.inCall.ready hmending.call hrec.leader hrest.nodes hst hheld,
        hrest.step hmending.call h.placed.nodeSocket hrec.leader hturn hheld⟩
  exact ⟨c₁, hcall, hfinished, hmending.call.ready, hinvariant⟩

/-- **A call brings everyone to the end of the log**, in whatever order. -/
theorem call_settles (h : CatchUpBegins cfg s c) : ∃ c', ReturnsOne s c c' ∧ Settled s c c' := by
  obtain ⟨c₁, hcall, hfinished, hready, hrecovering, hsettling, hothers⟩ := h.finishes
  obtain ⟨caller₁, new, hlock₁⟩ := hfinished.loop
  obtain ⟨c', hst, -, hsame, new', hmetadata⟩ := returns_of_finished hfinished
  -- no peer is behind after a round without an answered entry
  have hend : ∀ node ∈ (c.server s).metadata.nodeSocket, ¬ (c₁.server s).metadata.Behind node :=
    fun node hnode => ((hrecovering.visited node hnode _ _ _ _ hlock₁).resolve_left
      List.not_mem_nil).2 rfl
  have hslots : AllSent (c.server s).metadata (c₁.server s).metadata := by
    intro j hj
    obtain ⟨node, hnode, rfl⟩ := List.mem_map.1 hj
    have hcomplete := not_not.1 (hend node (List.mem_filter.1 hnode).1)
    rw [← hsettling.sentTo, hcomplete, hsettling.logSize]
  have hunacked : ∀ j ∈ (c.server s).metadata.behindSlots,
      (c.server s).metadata.ackAt j ≠ some (c.server s).metadata.logSize := by
    intro j hj hack
    obtain ⟨-, a, hlt, ha⟩ := h.behind hj
    have heq := Option.some.inj (ha.symm.trans hack)
    omega
  have hdata := hsettling.settled h.inCall.ready hready hunacked hslots
  have hlogs : ∀ x ∈ (c.server s).metadata.nodeSocket, c'.server x.id = c₁.server x.id :=
    fun x hx => hsame _ (peer_id_ne h.mem (h.placed.nodeSocket x hx))
  refine ⟨c', ⟨c₁, hcall, hfinished, hst⟩, ?_, fun x hx hbehind => ?_, fun x hx hcomplete => ?_,
    fun q hq hnot => (hsame q hq).trans (hothers.others q hq hnot)⟩
  · rw [hmetadata]
    exact ⟨hdata.smrLog, hdata.sentLength, hdata.ackLength, hdata.commit_kept, hdata.commit_moved,
      hdata.record⟩
  · rw [hlogs x hx, (hothers.peers x hx).complete hbehind (hend x hx), hrecovering.smrLog]
  · rw [hlogs x hx]
    exact ((hothers.peers x hx).kept hcomplete).2

/-! ## Two orders -/

/-- A call has one outcome, since `callStep` is a function. -/
lemma ReturnsOne.unique (h₁ : ReturnsOne s c c₁') (h₂ : ReturnsOne s c c₂') : c₁' = c₂' := by
  obtain ⟨d₁, hcall₁, hfinished₁, hst₁⟩ := h₁
  obtain ⟨d₂, hcall₂, hfinished₂, hst₂⟩ := h₂
  have hlast : ∀ {d e : Cluster}, (d.server s).Finished → (e.server s).Finished →
      CallTo s d e → d = e := by
    intro d e hd he hde
    rcases Relation.ReflTransGen.cases_head hde with rfl | ⟨d', hst, hd'e⟩
    · rfl
    · obtain ⟨d'', hst', hfree, -⟩ := returns_of_finished hd
      obtain rfl := Option.some.inj (hst.symm.trans hst')
      -- nothing is left to do for a caller that has given the lock back
      rcases Relation.ReflTransGen.cases_head hd'e with rfl | ⟨_, hnone, -⟩
      · obtain ⟨_, _, hlock⟩ := he.loop
        rw [hfree] at hlock
        cases hlock
      · rw [Cluster.callStep, hfree] at hnone
        cases hnone
  have hsame : d₁ = d₂ := by
    have hunique : Relator.RightUnique fun c c' : Cluster => c.callStep s = some c' :=
      fun _ _ _ h h' => Option.some.inj (h.symm.trans h')
    rcases Relation.ReflTransGen.total_of_right_unique hunique hcall₁ hcall₂ with h | h
    · exact hlast hfinished₁ hfinished₂ h
    · exact (hlast hfinished₂ hfinished₁ h).symm
  subst hsame
  exact Option.some.inj (hst₁.symm.trans hst₂)

/-- The metadata of two leaders that go through the same peers, in whatever order each. -/
structure SameButOrder (md₁ md₂ : ServerMetadata) : Prop where
  smrLog : md₁.smrLog = md₂.smrLog
  logSize : md₁.logSize = md₂.logSize
  commitLength : md₁.commitLength = md₂.commitLength
  customerRecord : md₁.customerRecord = md₂.customerRecord
  sentLength : md₁.sentLength = md₂.sentLength
  ackLength : md₁.ackLength = md₂.ackLength
  nodeSocket : ∀ id, id ∈ md₁.nodeSocket.map ServerNode.id ↔ id ∈ md₂.nodeSocket.map ServerNode.id
  serverIndexMap : ∀ id ∈ md₁.nodeSocket.map ServerNode.id,
    md₁.serverIndexMap id = md₂.serverIndexMap id

lemma mem_behindSlots_iff {md : ServerMetadata} {j : ℕ} : j ∈ md.behindSlots ↔
    ∃ id ∈ md.nodeSocket.map ServerNode.id,
      md.serverIndexMap id = j ∧ md.sentAt (md.serverIndexMap id) ≠ some md.logSize := by
  simp only [behindSlots, List.mem_map, List.mem_filter, decide_eq_true_eq]
  constructor
  · rintro ⟨node, ⟨hin, hbehind⟩, hslot⟩
    exact ⟨node.id, ⟨node, hin, rfl⟩, hslot, hbehind⟩
  · rintro ⟨_, ⟨node, hin, rfl⟩, hslot, hbehind⟩
    exact ⟨node, ⟨hin, hbehind⟩, hslot⟩

section Same

variable {md₁ md₂ : ServerMetadata}

lemma SameButOrder.behindSlots (h : SameButOrder md₁ md₂) (j : ℕ) :
    j ∈ md₁.behindSlots ↔ j ∈ md₂.behindSlots := by
  simp only [mem_behindSlots_iff, ← h.nodeSocket, sentAt, h.sentLength, h.logSize]
  refine exists_congr fun id => and_congr_right fun hid => ?_
  rw [h.serverIndexMap id hid]

lemma SameButOrder.settle (h : SameButOrder md₁ md₂) : md₁.settle = md₂.settle := by
  funext xs
  simp only [ServerMetadata.settle, h.behindSlots, h.logSize]

lemma SameButOrder.behindSlots_eq_nil (h : SameButOrder md₁ md₂) :
    md₁.behindSlots = [] ↔ md₂.behindSlots = [] := by
  simp only [List.eq_nil_iff_forall_not_mem, h.behindSlots]

/-- Data that have settled from the same beginning are the same. -/
lemma SettledData.same (h : SameButOrder md₁ md₂) (hready : Ready md₁) {md₁' md₂' : ServerMetadata}
    (h₁ : SettledData md₁ md₁') (h₂ : SettledData md₂ md₂') :
    md₁'.smrLog = md₂'.smrLog ∧ md₁'.sentLength = md₂'.sentLength ∧
      md₁'.ackLength = md₂'.ackLength ∧ md₁'.commitLength = md₂'.commitLength ∧
      md₁'.customerRecord = md₂'.customerRecord := by
  obtain ⟨ack, hack, hlen⟩ := hready.ack
  have hcommit : md₁'.commitLength = md₂'.commitLength := by
    by_cases hnone : md₁.behindSlots = []
    · rw [h₁.commit_kept hnone, h₂.commit_kept (h.behindSlots_eq_nil.1 hnone), h.commitLength]
    · have hne : md₁.settle ack ≠ [] := by
        refine List.ne_nil_of_length_eq_add_one (n := md₁.getPeerSize) ?_
        rw [ServerMetadata.settle, List.length_mapIdx, hlen]
      obtain ⟨m, hm⟩ := exists_isGreatest_majority hne md₁.logSize
      have hm' : IsGreatest {k | k ≤ md₂.logSize ∧ Majority (md₂.settle ack) k} m := by
        rw [← h.settle, ← h.logSize]
        exact hm
      rw [h₁.commit_moved hnone ack m hack hm,
        h₂.commit_moved (h.behindSlots_eq_nil.not.1 hnone) ack m (h.ackLength ▸ hack) hm',
        h.commitLength]
  refine ⟨?_, ?_, ?_, hcommit, ?_⟩
  · rw [h₁.smrLog, h₂.smrLog, h.smrLog]
  · rw [h₁.sentLength, h₂.sentLength, h.sentLength, h.settle]
  · rw [h₁.ackLength, h₂.ackLength, h.ackLength, h.settle]
  · rw [h₁.record, h₂.record, hcommit]
    simp only [executeTo, h.customerRecord, h.smrLog, h.commitLength]

end Same

/-- What two calls leave behind is the same: the leader's log and arrays, what it has committed and
executed, and the logs of the other members. -/
structure SameOutcome (ids : Finset ℤ) (s : ℤ) (c₁ c₂ : Cluster) : Prop where
  smrLog : (c₁.server s).metadata.smrLog = (c₂.server s).metadata.smrLog
  sentLength : (c₁.server s).metadata.sentLength = (c₂.server s).metadata.sentLength
  ackLength : (c₁.server s).metadata.ackLength = (c₂.server s).metadata.ackLength
  commitLength : (c₁.server s).metadata.commitLength = (c₂.server s).metadata.commitLength
  customerRecord : (c₁.server s).metadata.customerRecord = (c₂.server s).metadata.customerRecord
  peers : ∀ q ∈ ids, q ≠ s → (c₁.server q).metadata.smrLog = (c₂.server q).metadata.smrLog

lemma Settled.peer (h : Settled s c c') {x : ServerNode}
    (hx : x ∈ (c.server s).metadata.nodeSocket) :
    (c'.server x.id).metadata.smrLog =
      if (c.server s).metadata.Behind x then (c.server s).metadata.smrLog
      else (c.server x.id).metadata.smrLog := by
  split
  · rename_i hbehind
    exact h.behind x hx hbehind
  · rename_i hcomplete
    exact h.kept x hx hcomplete

/-- **The order of the peers does not matter.**  Two calls in clusters that agree in everything a
call uses, but go through the peers in different orders, both return `1` and leave the same
behind. -/
theorem peer_order_irrelevant (h₁ : CatchUpBegins cfg₁ s c₁) (h₂ : CatchUpBegins cfg₂ s c₂)
    (hsame : SameButOrder (c₁.server s).metadata (c₂.server s).metadata)
    (hpeers : ∀ q ∈ cfg₁.ids, q ≠ s →
      (c₁.server q).metadata.smrLog = (c₂.server q).metadata.smrLog) :
    (∃ c₁', ReturnsOne s c₁ c₁') ∧ (∃ c₂', ReturnsOne s c₂ c₂') ∧
      ∀ c₁' c₂', ReturnsOne s c₁ c₁' → ReturnsOne s c₂ c₂' → SameOutcome cfg₁.ids s c₁' c₂' := by
  obtain ⟨d₁, hreturns₁, hsettled₁⟩ := call_settles h₁
  obtain ⟨d₂, hreturns₂, hsettled₂⟩ := call_settles h₂
  refine ⟨⟨d₁, hreturns₁⟩, ⟨d₂, hreturns₂⟩, fun c₁' c₂' hc₁ hc₂ => ?_⟩
  obtain rfl := hreturns₁.unique hc₁
  obtain rfl := hreturns₂.unique hc₂
  obtain ⟨hlog, hsent, hack, hcommit, hrecord⟩ :=
    SettledData.same hsame h₁.inCall.ready hsettled₁.data hsettled₂.data
  refine ⟨hlog, hsent, hack, hcommit, hrecord, fun q hmember hq => ?_⟩
  by_cases hin : q ∈ (c₁.server s).metadata.nodeSocket.map ServerNode.id
  · obtain ⟨x₁, hx₁, hid₁⟩ := List.mem_map.1 hin
    obtain ⟨x₂, hx₂, hid₂⟩ := List.mem_map.1 ((hsame.nodeSocket q).1 hin)
    have hbehind : (c₁.server s).metadata.Behind x₁ ↔ (c₂.server s).metadata.Behind x₂ := by
      simp only [Behind, ServerMetadata.sentTo, ServerMetadata.slot, hsame.sentLength,
        hsame.logSize, hid₁, hid₂, hsame.serverIndexMap q hin]
    have hlog₁ := hsettled₁.peer hx₁
    have hlog₂ := hsettled₂.peer hx₂
    rw [hid₁] at hlog₁
    rw [hid₂] at hlog₂
    simp only [hlog₁, hlog₂, hbehind, hsame.smrLog, hpeers q hmember hq]
  · rw [hsettled₁.others q hq hin, hsettled₂.others q hq fun h => hin ((hsame.nodeSocket q).2 h)]
    exact hpeers q hmember hq

/-! ## Two orders of three servers -/

/-- Any call of a run in which the connected peers trail the leader is such a beginning. -/
lemma CallBegins.catchUpBegins (h : CallBegins cfg s c)
    (hleader : (c.server s).metadata.status = .leader)
    (hpeers : ∀ node ∈ (c.server s).metadata.nodeSocket, Trailing c s node) :
    CatchUpBegins cfg s c := by
  obtain ⟨hs, hplaced, hready, -, -, hquiet⟩ := h.inCall
  exact ⟨hs, h.valid, hplaced, hleader, hready.sized, hready.entry_term, hready.sent, hready.ack,
    h.entered, hquiet, h.answering, hpeers⟩

/-- The same members and command lines, with the nodes at other addresses. -/
def Config.readdress (cfg : Config) (addr : ℕ → ℕ) : Config where
  ids := cfg.ids
  peers s := (cfg.peers s).map fun node => { node with addr := addr node.addr }
  peers_nodup s hs := by
    rw [List.map_map]
    exact cfg.peers_nodup s hs
  mem_peers s hs x := by
    rw [List.map_map]
    exact cfg.mem_peers s hs x

end Outcome

/-- Server 0 is about to replicate its first update, to its peers in the given order. -/
def FirstUpdate (order : List ℤ) (c : Cluster) : Prop :=
  ((c.server 0).metadata.status = .leader ∧ (c.server 0).metadata.smrLog = [⟨1, 7, 1⟩] ∧
    (c.server 0).metadata.logSize = 1 ∧ (c.server 0).metadata.commitLength = 0) ∧
  ((c.server 0).metadata.sentLength = some [0, 0, 0] ∧
    (c.server 0).metadata.ackLength = some [0, 0, 1] ∧
    (c.server 0).metadata.nodeSocket.map ServerNode.id = order ∧
    ∀ id ∈ order, (c.server 0).metadata.serverIndexMap id = id.toNat - 1) ∧
  (∀ node ∈ (c.server 0).metadata.nodeSocket,
    (c.server node.id).metadata.status = .follower ∧
    (c.server 0).metadata.ackTo node = some 0 ∧ (c.server 0).metadata.sentTo node = some 0) ∧
  ∀ q ∈ three.ids, q ≠ 0 → (c.server q).metadata.smrLog = []

instance (order : List ℤ) (c : Cluster) : Decidable (FirstUpdate order c) :=
  inferInstanceAs (Decidable ((_ ∧ _) ∧ (_ ∧ _) ∧ _ ∧ _))

lemma FirstUpdate.catchUpBegins {cfg : Config} {order : List ℤ} {c : Cluster}
    (h : FirstUpdate order c) (hbegins : CallBegins cfg 0 c) (hids : cfg.ids = three.ids) :
    CatchUpBegins cfg 0 c := by
  obtain ⟨⟨hleader, -, hsize, -⟩, -, hpeers, hlogs⟩ := h
  refine hbegins.catchUpBegins hleader fun node hnode => ?_
  obtain ⟨hstatus, hack, hsent⟩ := hpeers node hnode
  obtain ⟨hmember, hne⟩ := (cfg.mem_peers 0 hbegins.mem node.id).1
    (List.mem_map_of_mem (hbegins.inCall.placed.nodeSocket node hnode))
  refine ⟨hstatus, ?_, 0, 0, hack, hsent, le_rfl, le_rfl, by rw [hsize]; decide⟩
  rw [hlogs node.id (hids ▸ hmember) hne]
  exact List.nil_prefix

/-- Two first updates differ in the order only. -/
lemma FirstUpdate.sameButOrder {cfg₁ cfg₂ : Config} {order₁ order₂ : List ℤ} {c₁ c₂ : Cluster}
    (h₁ : FirstUpdate order₁ c₁) (h₂ : FirstUpdate order₂ c₂) (hbegins₁ : CallBegins cfg₁ 0 c₁)
    (hbegins₂ : CallBegins cfg₂ 0 c₂) (horder : ∀ id, id ∈ order₁ ↔ id ∈ order₂) :
    SameButOrder (c₁.server 0).metadata (c₂.server 0).metadata := by
  obtain ⟨⟨-, hlog₁, hsize₁, hcommit₁⟩, ⟨hsent₁, hack₁, hsockets₁, hindex₁⟩, -⟩ := h₁
  obtain ⟨⟨-, hlog₂, hsize₂, hcommit₂⟩, ⟨hsent₂, hack₂, hsockets₂, hindex₂⟩, -⟩ := h₂
  have hrecord : ∀ {cfg : Config} {c : Cluster}, CallBegins cfg 0 c →
      (c.server 0).metadata.commitLength = 0 →
      (c.server 0).metadata.customerRecord = replay [] := by
    rintro cfg c ⟨hs, -, ⟨c₀, tr, hrun, hsame⟩, -⟩ hcommit
    have hstored := (wellFormed hrun hs).sound.stored
    rw [hsame] at hstored
    rw [hstored.record, hcommit, Int.toNat_zero, List.take_zero]
  refine ⟨hlog₁.trans hlog₂.symm, hsize₁.trans hsize₂.symm, hcommit₁.trans hcommit₂.symm, ?_,
    hsent₁.trans hsent₂.symm, hack₁.trans hack₂.symm, fun id => ?_, fun id hid => ?_⟩
  · rw [hrecord hbegins₁ hcommit₁, hrecord hbegins₂ hcommit₂]
  · rw [hsockets₁, hsockets₂]
    exact horder id
  · rw [hsockets₁] at hid
    rw [hindex₁ id hid, hindex₂ id ((horder id).1 hid)]

/-- A leader that goes through its peers in the order 1, 2 with its first update, and one that
goes through them in the order 2, 1. -/
theorem peer_order_irrelevant_three : ∃ c₁ c₂,
    FirstUpdate [1, 2] c₁ ∧ FirstUpdate [2, 1] c₂ ∧
    (∃ c₁', ReturnsOne 0 c₁ c₁') ∧ (∃ c₂', ReturnsOne 0 c₂ c₂') ∧
      ∀ c₁' c₂', ReturnsOne 0 c₁ c₁' → ReturnsOne 0 c₂ c₂' → SameOutcome three.ids 0 c₁' c₂' := by
  obtain ⟨c₁, hbegins₁, hfirst₁⟩ := callBegins_of_play three 0 (P := FirstUpdate [1, 2])
    (stand 0 ++ callVote 0 ++ submit 0 7 1) (by decide) (by decide) (by decide +kernel)
  obtain ⟨c₂, hbegins₂, hfirst₂⟩ := callBegins_of_play (three.readdress (10 - ·)) 0
    (P := FirstUpdate [2, 1]) (stand 0 ++ callVote 0 ++ submit 0 7 1) (by decide) (by decide)
    (by decide +kernel)
  have hsame := hfirst₁.sameButOrder hfirst₂ hbegins₁ hbegins₂ (by simp [or_comm])
  refine ⟨c₁, c₂, hfirst₁, hfirst₂, peer_order_irrelevant (hfirst₁.catchUpBegins hbegins₁ rfl)
    (hfirst₂.catchUpBegins hbegins₂ rfl) hsame fun q hq hne => ?_⟩
  rw [hfirst₁.2.2.2 q hq hne, hfirst₂.2.2.2 q hq hne]

end LaptopRaft
