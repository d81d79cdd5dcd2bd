import LaptopRaft.Properties.Connections
import LaptopRaft.Properties.Exchange
import LaptopRaft.Replication.Acks
import LaptopRaft.Replication.CommitIndex

/-!
# What a call of a `LeaderThread` has committed

A `LeaderThread` calls `ReplicateLog` right after it has appended an entry, which no peer has been
sent yet.  In the call a peer that is at the end of the log has acknowledged all of it, and once
these peers are a majority `CommitLog` has gone to the end as well (`Filled`).  A round without a
response to an entry request has found every peer at the end, or has lost it (`RoundDone`).

`committed_on_return`: where such a call returns, the whole log is committed, provided that the
server with the peers it has kept is a quorum, and that no response has deposed it.
-/

namespace LaptopRaft

open ServerMetadata

/-! ## The condition -/

/-- The peers that have answered in a call and are not queued for reconnection. -/
def ServerMetadata.kept (md : ServerMetadata) (new : List ServerNode) : List ServerNode :=
  new.filter (· ∉ md.failedNeighbors)

/-- The server with the peers it has kept is a quorum, and there are such peers. -/
structure KeepsQuorum (cfg : Config) (s : ℤ) (md : ServerMetadata) (new : List ServerNode) :
    Prop where
  some_kept : md.kept new ≠ []
  quorum : IsQuorum cfg.ids (insert s ((md.kept new).map ServerNode.id).toFinset)

/-- When a call of `ReplicateLog` by a `LeaderThread` of `s` returns, it is after a last round and
with a quorum, not on a response of a higher term. -/
def ReturnsWithQuorum (cfg : Config) (s : ℤ) (c : Cluster) : Label → Prop
  | .recvLogResponse q => q = s →
      match (c.server s).metaLock with
      | .replicateLog (.leaderThread _) _ =>
          ∀ res ∈ (c.server s).logResponse, ¬ (c.server s).Outranked res
      | _ => True
  | .endRound q => q = s →
      match (c.server s).metaLock with
      | .replicateLog (.leaderThread _) ⟨[], new, 0⟩ => KeepsQuorum cfg s (c.server s).metadata new
      | _ => True
  | _ => True

instance (members Q : Finset ℤ) : Decidable (IsQuorum members Q) :=
  decidable_of_iff (Q ⊆ members ∧ members.card < 2 * Q.card)
    ⟨fun h => ⟨h.1, h.2⟩, fun h => ⟨h.subset, h.majority⟩⟩

instance (cfg : Config) (s : ℤ) (md : ServerMetadata) (new : List ServerNode) :
    Decidable (KeepsQuorum cfg s md new) :=
  decidable_of_iff
    (md.kept new ≠ [] ∧ IsQuorum cfg.ids (insert s ((md.kept new).map ServerNode.id).toFinset))
    ⟨fun h => ⟨h.1, h.2⟩, fun h => ⟨h.some_kept, h.quorum⟩⟩

instance (cfg : Config) (s : ℤ) (c : Cluster) (l : Label) :
    Decidable (ReturnsWithQuorum cfg s c l) := by
  induction l using Label.casesOn <;> dsimp only [ReturnsWithQuorum] <;>
    first
      | infer_instance
      | (refine @instDecidableForall _ _ inferInstance ?_
         split <;> infer_instance)

/-! ## The slots during the call -/

/-- The log has an end that only a peer which has acknowledged everything has been sent, and it is
committed once such peers are a majority. -/
structure Filled (md : ServerMetadata) : Prop where
  nonempty : 0 < md.logSize
  own : ∀ ack, md.ackLength = some ack → ack[md.getPeerSize]? = some md.logSize
  level : ∀ x ∈ md.neighbors, md.sentTo x = some md.logSize → md.ackTo x = some md.logSize
  commit : ∀ x ∈ md.neighbors, md.ackTo x = some md.logSize →
    ∀ ack, md.ackLength = some ack → Majority ack md.logSize → md.commitLength = md.logSize

/-- Every peer that is kept is still to be visited, has nothing left to be sent, or has failed. -/
def RoundDone (md : ServerMetadata) (rest new : List ServerNode) : Prop :=
  ∀ x ∈ new, x ∈ rest ∨ md.sentTo x = some md.logSize ∨ x ∈ md.failedNeighbors

/-- What a call of `ReplicateLog` by a `LeaderThread` keeps. -/
structure Maintaining (f : LaptopFactory) : Prop where
  filled : ∀ i loop, f.metaLock = .replicateLog (.leaderThread i) loop → Filled f.metadata
  visited : ∀ i rest new, f.metaLock = .replicateLog (.leaderThread i) ⟨rest, new, 0⟩ →
    RoundDone f.metadata rest new

section Slots

variable {cfg : Config} {s : ℤ} {f : LaptopFactory} {md md' : ServerMetadata} {node : ServerNode}
  {sent ack : List ℤ} {res : LogResponse} {k : ℤ}

lemma ackTo_eq_some : md.ackTo node = some k ↔
    ∃ ack, md.ackLength = some ack ∧ ack[md.slot node]? = some k :=
  Option.bind_eq_some_iff

/-- A peer has been sent no more than the log. -/
lemma Sound.sentTo_le (h : Sound md) (hk : md.sentTo node = some k) : k ≤ md.logSize := by
  obtain ⟨sent, hsent, hget⟩ := sentTo_eq_some.1 hk
  exact ((h.sent sent hsent).bounds k (List.mem_of_getElem? hget)).2

/-- An entry has just been appended, and its sender acknowledges the log to itself. -/
lemma Placed.filled (hplaced : Placed cfg s f) (hsound : Sound f.metadata) {op : MapOp}
    {accepts : List Bool} (hack : f.metadata.ackLength = some ack)
    (hlt : f.metadata.getPeerSize < ack.length) :
    Filled ((f.metadata.reconnected accepts).maintained op ack) := by
  have hsize := hsound.stored.logSize
  have hlog : ((f.metadata.reconnected accepts).maintained op ack).logSize =
      f.metadata.logSize + 1 := rfl
  refine ⟨by omega, ?_, fun x hx hsent => ?_, fun x hx hfull => ?_⟩
  · rintro _ ⟨⟩
    exact List.getElem?_set_self hlt
  · have hle := hsound.sentTo_le hsent
    omega
  · obtain ⟨_, ⟨⟩, hget⟩ := ackTo_eq_some.1 hfull
    have hne : f.metadata.getPeerSize ≠ f.metadata.slot x :=
      (hplaced.slot_lt_peers (hplaced.neighbors ▸ hx)).ne'
    have hin : ack[f.metadata.slot x]? = some (f.metadata.logSize + 1) :=
      (List.getElem?_set_ne hne).symm.trans hget
    have hle := ((hsound.ack ack hack).bounds _ (List.mem_of_getElem? hin)).2
    omega

/-- A slot of `sent_length` is set to `k`. -/
lemma sentTo_of_set (hsent : md.sentLength = some sent)
    (hset : md'.sentLength = some (sent.set (md.slot node) k))
    (hindex : md'.serverIndexMap = md.serverIndexMap) (hlt : md.slot node < sent.length)
    {x : ServerNode} (hx : x ≠ node → md.slot x ≠ md.slot node) :
    md'.sentTo x = if x = node then some k else md.sentTo x := by
  obtain ⟨hself, hother⟩ := sentTo_set hset hsent hindex
  split
  · rename_i heq
    rw [heq, hself hlt]
  · rename_i hne
    exact hother x (hx hne)

/-- A slot of `ack_length` is set to `k`. -/
lemma ackTo_of_set (hack : md.ackLength = some ack)
    (hset : md'.ackLength = some (ack.set (md.slot node) k))
    (hindex : md'.serverIndexMap = md.serverIndexMap) (hlt : md.slot node < ack.length)
    {x : ServerNode} (hx : x ≠ node → md.slot x ≠ md.slot node) :
    md'.ackTo x = if x = node then some k else md.ackTo x := by
  obtain ⟨hself, hother⟩ := ackTo_set hset hack hindex
  split
  · rename_i heq
    rw [heq, hself hlt]
  · rename_i hne
    exact hother x (hx hne)

/-- Both slots of a peer are set to `k`. -/
lemma Filled.set (h : Filled md) (hack : md.ackLength = some ack)
    (hsent : md.sentLength = some sent)
    (hacks : md'.ackLength = some (ack.set (md.slot node) k))
    (hsents : md'.sentLength = some (sent.set (md.slot node) k))
    (hsize : md'.logSize = md.logSize) (hneighbors : md'.neighbors = md.neighbors)
    (hindex : md'.serverIndexMap = md.serverIndexMap) (hlt : md.slot node < ack.length)
    (hlt' : md.slot node < sent.length) (hown : md.slot node ≠ md.getPeerSize)
    (hslot : ∀ x ∈ md.neighbors, x ≠ node → md.slot x ≠ md.slot node)
    (hcommit : ∀ x ∈ md.neighbors, (if x = node then some k else md.ackTo x) = some md.logSize →
      Majority (ack.set (md.slot node) k) md.logSize → md'.commitLength = md.logSize) :
    Filled md' := by
  have hpeers : md'.getPeerSize = md.getPeerSize := congrArg List.length hneighbors
  have hsent' := fun x hx => sentTo_of_set hsent hsents hindex hlt' (hslot x hx)
  have hack' := fun x hx => ackTo_of_set hack hacks hindex hlt (hslot x hx)
  refine ⟨hsize ▸ h.nonempty, ?_, ?_, ?_⟩
  · intro ack' hset
    obtain rfl := Option.some.inj (hset.symm.trans hacks)
    rw [hpeers, hsize, List.getElem?_set_ne hown]
    exact h.own ack hack
  · rw [hneighbors, hsize]
    intro x hx hend
    rw [hsent' x hx] at hend
    rw [hack' x hx]
    split at hend
    · rename_i heq
      rwa [if_pos heq]
    · rename_i hne
      rw [if_neg hne]
      exact h.level x hx hend
  · rw [hneighbors, hsize]
    intro x hx hend ack' hset hmajority
    obtain rfl := Option.some.inj (hset.symm.trans hacks)
    exact hcommit x hx (hack' x hx ▸ hend) hmajority

/-- A peer fails. -/
lemma Filled.failed (h : Filled f.metadata) (hplaced : Placed cfg s f) (hsound : Sound f.metadata)
    (hnode : node ∈ cfg.peers s) (hfail : f.metadata.failNode node = some md) : Filled md := by
  have hpos := h.nonempty
  obtain ⟨ack, sent, hack, hsent, hlt, hlt', heq⟩ := failNode_cases hfail
  have hcommit : md.commitLength = f.metadata.commitLength := by rw [heq]
  refine h.set hack hsent (by rw [heq]) (by rw [heq]) (by rw [heq]) (by rw [heq]) (by rw [heq]) hlt
    hlt' (hplaced.slot_lt_peers hnode).ne
    (fun x hx => hplaced.slot_ne (hplaced.neighbors ▸ hx) hnode) fun x hx hend hmajority => ?_
  split at hend
  · rw [Option.some.injEq] at hend
    omega
  · -- another peer is at the end, and the majority was there before
    rw [hcommit]
    refine h.commit x hx hend ack hack (hmajority.mono (forall₂_set_le fun a ha => ?_))
    exact ((hsound.ack ack hack).bounds a (List.mem_of_getElem? ha)).1

/-- A response to an entry request is looked at. -/
lemma Filled.answered (h : Filled f.metadata) (hwf : WellFormed cfg s f)
    (hnode : node ∈ cfg.peers s) (hreact : EntryReaction f.metadata node res md true) :
    Filled md := by
  have hpos := h.nonempty
  have hslot : ∀ x ∈ f.metadata.neighbors, x ≠ node →
      f.metadata.slot x ≠ f.metadata.slot node :=
    fun x hx => hwf.placed.slot_ne (hwf.placed.neighbors ▸ hx) hnode
  have hlt := hwf.placed.slot_lt_peers hnode
  cases hreact with
  | @acked sent ack _ hterm hleader hsuccess hsent hack hcommit =>
      have hsentlen := (hwf.sound.sent sent hsent).length
      have hacklen := (hwf.sound.ack ack hack).length
      have hsized : Sized (f.metadata.recordAck node sent ack res.ack) :=
        hwf.sound.stored.sized.of_same rfl rfl rfl
      have hframe := commitLog_frame hcommit
      refine h.set hack hsent (by rw [hframe]; rfl) (by rw [hframe]; rfl) (by rw [hframe]; rfl)
        (by rw [hframe]; rfl) (by rw [hframe]; rfl) (by omega) (by omega) hlt.ne hslot
        fun x _ _ hmajority => ?_
      exact hsized.commitLog_end rfl (by rw [List.length_set]; exact hacklen) hmajority hcommit
  | @backed sent p hsent hp hpos' =>
      have hlt' := (List.getElem?_eq_some_iff.1 hp).1
      have hle := hwf.sound.sentTo_le (sentTo_eq_some.2 ⟨sent, hsent, hp⟩)
      refine ⟨hpos, h.own, fun x hx hend => ?_, h.commit⟩
      have hsents : ({ f.metadata with
          sentLength := some (sent.set (f.metadata.slot node) (p - 1)) } :
          ServerMetadata).sentLength = some (sent.set (f.metadata.slot node) (p - 1)) := rfl
      rw [sentTo_of_set hsent hsents rfl hlt' (hslot x hx)] at hend
      split at hend
      · have hback : p - 1 = f.metadata.logSize := Option.some.inj hend
        omega
      · exact h.level x hx hend
  | kept => exact h

end Slots

/-! ## Steps -/

section Steps

variable {cfg : Config} {s : ℤ} {f f' : LaptopFactory} {l : Label} {es : List Event}

/-- Outside of the calls there is nothing to keep. -/
lemma Maintaining.of_outside
    (hlock : ∀ i loop, f.metaLock ≠ .replicateLog (.leaderThread i) loop) : Maintaining f :=
  ⟨fun i loop h => absurd h (hlock i loop), fun i _ _ h => absurd h (hlock i _)⟩

lemma Maintaining.of_same (h : Maintaining f) (hmetadata : f'.metadata = f.metadata)
    (hlock : f'.metaLock = f.metaLock) : Maintaining f' := by
  constructor
  · rw [hmetadata, hlock]
    exact h.filled
  · rw [hmetadata, hlock]
    exact h.visited

/-- The call goes on to the next peer. -/
lemma Maintaining.next {caller : Caller} {rest new : List ServerNode} {n : ℕ}
    (hlock : f'.metaLock = .replicateLog caller ⟨rest, new, n⟩)
    (hfilled : ∀ i, caller = .leaderThread i → Filled f'.metadata)
    (hvisited : ∀ i, caller = .leaderThread i → n = 0 → RoundDone f'.metadata rest new) :
    Maintaining f' := by
  constructor
  · intro i loop hloop
    rw [hlock] at hloop
    exact hfilled i (MetaLock.replicateLog.inj hloop).1
  · intro i rest' new' hloop
    rw [hlock] at hloop
    cases hloop
    exact hvisited i rfl rfl

lemma ThreadStep.maintaining (hwf : WellFormed cfg s f) (hstep : ThreadStep s f l f' es)
    (h : Maintaining f) : Maintaining f' := by
  cases hstep with
  | readStatus | askVote | queue | sendLog => exact h.of_same rfl rfl
  | rest hthread hfree | timeOut hthread hfree => exact .of_outside (by simp [hfree])
  | stand | countVote | ignoreVote | elected | outvoted | endVote =>
      exact .of_outside (by simp)
  | maintain hreq hfree haccepts hack hlt =>
      refine .next rfl (fun _ _ => hwf.placed.filled hwf.sound hack hlt) fun _ _ _ => ?_
      exact List.forall_mem_nil _
  | replicate => exact .next rfl (fun _ hcaller => nomatch hcaller) fun _ hcaller => nomatch hcaller
  | @fail caller node rest new change md _ hlock hlabel hfail =>
      have hnode : node ∈ cfg.peers s := hwf.placed.visiting node (mem_nodes hlock)
      refine .next rfl ?_ ?_
      · rintro i rfl
        exact (h.filled i _ hlock).failed hwf.placed hwf.sound hnode hfail
      · rintro i rfl rfl x hx
        obtain ⟨ack, sent, -, hsent, -, -, heq⟩ := failNode_cases hfail
        by_cases hxnode : x = node
        · refine Or.inr (Or.inr ?_)
          rw [hxnode, heq]
          exact List.mem_append_right _ (List.mem_singleton_self node)
        · rcases h.visited i _ _ hlock x hx with hin | hend | hfailed
          · exact Or.inl (List.mem_of_ne_of_mem hxnode hin)
          · have hx' : x ∈ cfg.peers s := by
              refine hwf.placed.visiting x ?_
              rw [hlock]
              exact List.mem_append_right _ hx
            have hsents : md.sentLength = some (sent.set (f.metadata.slot node) 0) := by rw [heq]
            have hindex : md.serverIndexMap = f.metadata.serverIndexMap := by rw [heq]
            refine Or.inr (Or.inl ?_)
            rw [(sentTo_set hsents hsent hindex).2 x (hwf.placed.slot_ne hx' hnode hxnode), hend,
              heq]
          · refine Or.inr (Or.inr ?_)
            rw [heq]
            exact List.mem_append_left _ hfailed
  | @heartbeatAnswered caller node rest new change res hlock hwire hsent =>
      refine .next rfl ?_ ?_
      · rintro i rfl
        exact h.filled i _ hlock
      · rintro i rfl rfl x hx
        rcases mem_insertSocket.1 hx with rfl | hin
        · exact Or.inr (Or.inl hsent)
        · rcases h.visited i _ _ hlock x hin with hrest | hother
          · rcases List.mem_cons.1 hrest with rfl | hrest
            · exact Or.inr (Or.inl hsent)
            · exact Or.inl hrest
          · exact Or.inr hother
  | entryAnswered hlock hwire hsent hreact =>
      have hnode := hwf.placed.visiting _ (mem_nodes hlock)
      refine .next rfl ?_ fun _ _ hzero => absurd hzero (Nat.succ_ne_zero _)
      rintro i rfl
      exact (h.filled i _ hlock).answered hwf hnode hreact
  | deposed | «return» => exact .of_outside (by simp)
  | nextRound hlock =>
      refine .next rfl ?_ fun _ _ _ x hx => Or.inl hx
      rintro i rfl
      exact ⟨(h.filled i _ hlock).nonempty, (h.filled i _ hlock).own, (h.filled i _ hlock).level,
        (h.filled i _ hlock).commit⟩

end Steps

/-! ## Runs -/

section Runs

variable {cfg : Config} {ok : Cluster → Label → Prop} {c c' : Cluster} {tr es : List Event}
  {l : Label} {s : ℤ} {new : List ServerNode}

lemma maintaining_of_run (hrun : (system cfg).Run ok c tr) (s : ℤ) : Maintaining (c.server s) := by
  refine run_forall_server (P := fun _ f _ => Maintaining f) ?_ ?_ ?_ ?_ ?_ hrun s
  · exact fun connects s => .of_outside nofun
  · exact fun s f tr es _ h => h
  · intro c tr l s f es hrun _ hs hstep h
    exact hstep.maintaining (wellFormed hrun hs) h
  · intro c tr l p rpc md reply _ _ _ hserved _
    exact .of_outside (by simp [hserved.free])
  · intro c tr s node rpc md reply _ _ _ _ h
    exact h.of_same rfl rfl

/-- Peers that are kept at the end of a round have acknowledged everything, so a quorum of them has
it committed. -/
lemma Maintaining.committed {f : LaptopFactory} (h : Maintaining f) (hplaced : Placed cfg s f)
    (hsound : Sound f.metadata) (hs : s ∈ cfg.ids) {i : Fin 4}
    (hlock : f.metaLock = .replicateLog (.leaderThread i) ⟨[], new, 0⟩)
    (hkeeps : KeepsQuorum cfg s f.metadata new) :
    f.metadata.commitLength = f.metadata.logSize := by
  have hfilled := h.filled i _ hlock
  have hlevel : ∀ x ∈ f.metadata.kept new, x ∈ cfg.peers s ∧
      f.metadata.ackTo x = some f.metadata.logSize := by
    intro x hx
    obtain ⟨hnew, hkept⟩ := List.mem_filter.1 hx
    have hpeer : x ∈ cfg.peers s := by
      refine hplaced.visiting x ?_
      rw [hlock]
      exact hnew
    have hend : f.metadata.sentTo x = some f.metadata.logSize := by
      rcases h.visited i _ _ hlock x hnew with hin | hend | hfailed
      · cases hin
      · exact hend
      · exact absurd hfailed (of_decide_eq_true hkept)
    exact ⟨hpeer, hfilled.level x (hplaced.neighbors ▸ hpeer) hend⟩
  obtain ⟨x, hx⟩ := List.exists_mem_of_ne_nil _ hkeeps.some_kept
  obtain ⟨hpeer, hack⟩ := hlevel x hx
  obtain ⟨ack, hack', -⟩ := ackTo_eq_some.1 hack
  have hsize : f.metadata.getPeerSize = (cfg.peers s).length := by
    rw [getPeerSize, hplaced.neighbors]
  refine hfilled.commit x (hplaced.neighbors ▸ hpeer) hack ack hack' ?_
  refine hkeeps.quorum.majority_slots (Config.slots_nodup hs) (Config.slots_toFinset hs) ?_
    fun q hq => ?_
  · rw [(hsound.ack ack hack').length, hsize, Config.slots_length]
  · rw [Finset.mem_insert, List.mem_toFinset] at hq
    rcases hq with rfl | hq
    · refine ⟨(cfg.peers q).length, f.metadata.logSize, Config.slots_own, ?_, by simp⟩
      rw [← hsize]
      exact hfilled.own ack hack'
    · obtain ⟨node, hnode, rfl⟩ := List.mem_map.1 hq
      obtain ⟨hpeer, hfull⟩ := hlevel node hnode
      obtain ⟨_, hsame, hget⟩ := ackTo_eq_some.1 hfull
      obtain rfl := Option.some.inj (hack'.symm.trans hsame)
      exact ⟨f.metadata.slot node, f.metadata.logSize,
        Config.slots_peer (hplaced.getElem_slot hpeer), hget, by simp⟩

/-- **Where the call of a `LeaderThread` returns, the whole log is committed**, if the server
returns with a quorum. -/
theorem committed_on_return (hrun : (system cfg).Run ok c tr) (hs : s ∈ cfg.ids)
    (hst : (system cfg).step c l = some (c', es)) (hok : ReturnsWithQuorum cfg s c l) {i : Fin 4}
    {loop : ReplicateLoop} (hlock : (c.server s).metaLock = .replicateLog (.leaderThread i) loop)
    (hfree : (c'.server s).metaLock = .free) :
    (c.server s).metadata.commitLength = (c.server s).metadata.logSize := by
  have hwf := wellFormed hrun hs
  have hheld : (c.server s).metaLock ≠ .free := by simp [hlock]
  have hmoved : c'.server s ≠ c.server s := by
    intro hsame
    rw [hsame] at hfree
    exact hheld hfree
  rcases held_cases hst hheld with ⟨-, hsame | hstep⟩ | ⟨-, node, rpc, md, reply, hanswered⟩
  · exact absurd hsame hmoved
  · have hmaintaining := maintaining_of_run hrun s
    generalize c'.server s = f' at hstep hfree
    cases hstep with
    | @deposed caller node rest new change res hlock' hwire hsent hlt =>
        rw [hlock'] at hlock
        cases hlock
        have hquiet := hok rfl
        simp only [hlock'] at hquiet
        refine absurd ?_ (hquiet res (by simp [LaptopFactory.logResponse, hwire]))
        simpa [LaptopFactory.Outranked, hlock'] using ⟨hsent, hlt⟩
    | «return» hlock' =>
        rw [hlock'] at hlock
        cases hlock
        have hkeeps := hok rfl
        simp only [hlock'] at hkeeps
        exact hmaintaining.committed hwf.placed hwf.sound hs hlock' hkeeps
    -- the other steps do not let go of the lock
    | _ => simp_all
  · rw [hanswered.caller] at hfree
    exact absurd hfree hheld

end Runs

end LaptopRaft
