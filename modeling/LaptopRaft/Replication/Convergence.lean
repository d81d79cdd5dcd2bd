import LaptopRaft.Framework.LogMatching
import LaptopRaft.Properties.Connections
import LaptopRaft.Properties.Replay

/-!
# What a call of `ReplicateLog` achieves

A call that returns `1` has sent a heartbeat to every peer that is still connected, because its
last round changed nothing.  Whether such a peer then holds the leader's log was decided when the
call began:

* A peer with `sent_length = log_size` is sent heartbeats only, and what it answers to a
  heartbeat is not looked at.  This is the state in which `InitLeader` leaves every slot, so a
  new leader repairs nobody.
* A peer with an entry the leader does not have keeps it: no path of `GetLogResponse` removes an
  entry.
* Any other peer is brought up to the end.

`Converging` follows one peer through a call, interleaved with whatever the other servers do;
`replication_converges_iff` is the result, `repair_never_tried` a call by a new leader.
-/

namespace LaptopRaft

open ServerMetadata

/-- The log of `p` begins with the whole log of `s`. -/
def HoldsLog (c : Cluster) (s p : ℤ) : Prop :=
  (c.server s).metadata.smrLog <+: (c.server p).metadata.smrLog

instance (c : Cluster) (s p : ℤ) : Decidable (HoldsLog c s p) := by
  unfold HoldsLog
  infer_instance

/-! ## Calls -/

/-- The server is inside `ReplicateLog`. -/
def LaptopFactory.Replicating (f : LaptopFactory) : Prop :=
  match f.metaLock with
  | .replicateLog _ _ => True
  | _ => False

instance (f : LaptopFactory) : Decidable f.Replicating := by
  unfold LaptopFactory.Replicating
  exact match f.metaLock with
    | .replicateLog _ _ => instDecidableTrue
    | .requestVote _ | .free => instDecidableFalse

/-- `ReplicateLog` has just been entered: its first round has all peers before it. -/
def LaptopFactory.Entered (f : LaptopFactory) : Prop :=
  match f.metaLock with
  | .replicateLog _ loop => loop = ⟨f.metadata.nodeSocket, [], 0⟩
  | _ => False

/-- `ReplicateLog` has finished a round in which no entry request was answered: it is about to
return `1`. -/
def LaptopFactory.Finished (f : LaptopFactory) : Prop :=
  match f.metaLock with
  | .replicateLog _ loop => loop.rest = [] ∧ loop.numChange = 0
  | _ => False

instance (f : LaptopFactory) : Decidable f.Entered := by
  unfold LaptopFactory.Entered
  exact match f.metaLock with
    | .replicateLog _ _ => inferInstance
    | .requestVote _ | .free => instDecidableFalse

instance (f : LaptopFactory) : Decidable f.Finished := by
  unfold LaptopFactory.Finished
  exact match f.metaLock with
    | .replicateLog _ _ => inferInstance
    | .requestVote _ | .free => instDecidableFalse

/-- A step during a call of `ReplicateLog` by `s` in which `node` does not fail and, until it holds
the log of `s`, has its own changed by nothing but its answers to the call. -/
structure KeepsAnswering (s : ℤ) (node : ServerNode) (c : Cluster) (l : Label) : Prop where
  calling : (c.server s).Replicating
  alive : l = .logLinkFails s → (c.server s).callee ≠ some node
  answers : l = .recvLogResponse s → (c.server s).callee = some node →
    ∀ res ∈ (c.server s).logResponse, res.followerId ≠ -1
  alone : l ≠ .handle s → ¬ HoldsLog c s node.id → ∀ q ∈ c.act l,
    (q.1.server node.id).metadata.smrLog = (c.server node.id).metadata.smrLog

instance (s : ℤ) (node : ServerNode) (c : Cluster) (l : Label) :
    Decidable (KeepsAnswering s node c l) :=
  decidable_of_iff ((c.server s).Replicating ∧
      (l = .logLinkFails s → (c.server s).callee ≠ some node) ∧
      (l = .recvLogResponse s → (c.server s).callee = some node →
        ∀ res ∈ (c.server s).logResponse, res.followerId ≠ -1) ∧
      (l ≠ .handle s → ¬ HoldsLog c s node.id → ∀ q ∈ c.act l,
        (q.1.server node.id).metadata.smrLog = (c.server node.id).metadata.smrLog))
    ⟨fun h => ⟨h.1, h.2.1, h.2.2.1, h.2.2.2⟩, fun h => ⟨h.calling, h.alive, h.answers, h.alone⟩⟩

/-- A call of `ReplicateLog` by `s`, from a reachable state `c₀` in which it has just been
entered, to the state `c₁` in which it has returned `1`.  `node` is connected when the call begins
and answers every request. -/
structure CompletedCall (cfg : Config) (s : ℤ) (node : ServerNode) (c₀ c₁ : Cluster) : Prop where
  mem : s ∈ cfg.ids
  entered : (c₀.server s).Entered
  quiet : (c₀.server s).wire = .quiet
  connected : node ∈ (c₀.server s).metadata.nodeSocket
  returned : ∃ tr₀ c tr es, (system cfg).Run TransitionSystem.anyStep c₀ tr₀ ∧
    (system cfg).Path (KeepsAnswering s node) (c₀, tr₀) (c, tr) ∧
    (c.server s).Finished ∧
    (system cfg).step c (.endRound s) = some (c₁, es)

/-! ## The invariant -/

/-- The caller is in state `f` and the log of `node` is `P`; when the call began they were `f₀`
and `P₀`. -/
structure Converging (node : ServerNode) (f₀ : LaptopFactory) (P₀ : List MapOp)
    (f : LaptopFactory) (P : List MapOp) : Prop where
  smrLog : f.metadata.smrLog = f₀.metadata.smrLog
  logSize : f.metadata.logSize = f₀.metadata.logSize
  grows : P₀ <+: P
  /-- A peer that counts as complete is left alone. -/
  skipped : f₀.metadata.sentTo node = some f₀.metadata.logSize →
    f.metadata.sentTo node = some f.metadata.logSize ∧ (¬ f₀.metadata.smrLog <+: P₀ → P = P₀)
  /-- A peer that is behind stays on the leader's log, and counts as complete when it has all
  of it. -/
  behind : f₀.metadata.sentTo node ≠ some f₀.metadata.logSize → P₀ <+: f₀.metadata.smrLog →
    (P <+: f₀.metadata.smrLog ∨ f₀.metadata.smrLog <+: P) ∧
      (f.metadata.sentTo node = some f.metadata.logSize → f₀.metadata.smrLog <+: P)
  answered : ∀ caller rest new change res,
    f.metaLock = .replicateLog caller ⟨node :: rest, new, change⟩ →
    f.wire = .response (.log res) → res.success ≠ 0 →
    f.metadata.sentTo node ≠ some f.metadata.logSize → res.ack ≤ P.length
  /-- In this round the peer is still to be visited, or a further round follows, or it counts as
  complete. -/
  visited : ∀ caller rest new change,
    f.metaLock = .replicateLog caller ⟨rest, new, change⟩ →
    node ∈ rest ∨ (node ∈ new ∧
      (change = 0 → f.metadata.sentTo node = some f.metadata.logSize))

section Converging

variable {cfg : Config} {s : ℤ} {node x : ServerNode} {f₀ f f' : LaptopFactory}
  {P₀ P P' : List MapOp} {caller : Caller} {rest new : List ServerNode} {change n : ℕ}

lemma Converging.of_same (h : Converging node f₀ P₀ f P)
    (hmetadata : f'.metadata = f.metadata) (hlock : f'.metaLock = f.metaLock)
    (hwire : f'.wire = f.wire) : Converging node f₀ P₀ f' P := by
  constructor
  · rw [hmetadata]
    exact h.smrLog
  · rw [hmetadata]
    exact h.logSize
  · exact h.grows
  · rw [hmetadata]
    exact h.skipped
  · rw [hmetadata]
    exact h.behind
  · rw [hmetadata, hlock, hwire]
    exact h.answered
  · rw [hmetadata, hlock]
    exact h.visited

/-- The peer's log is changed by something else, if only when it holds the caller's. -/
lemma Converging.grown (h : Converging node f₀ P₀ f P) (hgrows : P <+: P')
    (halone : ¬ f₀.metadata.smrLog <+: P → P' = P) : Converging node f₀ P₀ f P' := by
  refine ⟨h.smrLog, h.logSize, h.grows.trans hgrows, fun hskip => ?_, fun hbehind hpre => ?_,
    fun caller rest new change res hlock hres hsuccess hnot => ?_, h.visited⟩
  · obtain ⟨hcomplete, hsame⟩ := h.skipped hskip
    refine ⟨hcomplete, fun hlacks => ?_⟩
    have hP := hsame hlacks
    rw [halone (hP ▸ hlacks), hP]
  · obtain ⟨hon, hall⟩ := h.behind hbehind hpre
    by_cases hholds : f₀.metadata.smrLog <+: P
    · exact ⟨Or.inr (hholds.trans hgrows), fun _ => hholds.trans hgrows⟩
    · rw [halone hholds]
      exact ⟨hon, hall⟩
  · exact (h.answered _ _ _ _ _ hlock hres hsuccess hnot).trans
      (Int.ofNat_le.2 hgrows.length_le)

/-- A step that leaves the log and the peer's slot as they are, and no answer behind. -/
lemma Converging.frame (h : Converging node f₀ P₀ f P)
    (hlog : f'.metadata.smrLog = f.metadata.smrLog)
    (hsize : f'.metadata.logSize = f.metadata.logSize)
    (hsent : f'.metadata.sentTo node = f.metadata.sentTo node)
    (hwire : ∀ res, f'.wire ≠ .response (.log res))
    (hvisited : ∀ caller rest new change,
      f'.metaLock = .replicateLog caller ⟨rest, new, change⟩ →
      node ∈ rest ∨ (node ∈ new ∧
        (change = 0 → f.metadata.sentTo node = some f.metadata.logSize))) :
    Converging node f₀ P₀ f' P := by
  constructor
  · rw [hlog]
    exact h.smrLog
  · rw [hsize]
    exact h.logSize
  · exact h.grows
  · rw [hsent, hsize]
    exact h.skipped
  · rw [hsent, hsize]
    exact h.behind
  · intro _ _ _ _ res _ hres
    exact absurd hres (hwire res)
  · rw [hsent, hsize]
    exact hvisited

/-- The loop moves on from a peer that has answered. -/
lemma Converging.visited_next (h : Converging node f₀ P₀ f P)
    (hlock : f.metaLock = .replicateLog caller ⟨x :: rest, new, change⟩)
    (hn : n = 0 → change = 0)
    (hself : x = node → n = 0 → f.metadata.sentTo node = some f.metadata.logSize) :
    node ∈ rest ∨ (node ∈ insertSocket new x ∧
      (n = 0 → f.metadata.sentTo node = some f.metadata.logSize)) := by
  rw [mem_insertSocket]
  rcases h.visited _ _ _ _ hlock with hin | ⟨hin, hdone⟩
  · rcases List.mem_cons.1 hin with rfl | hrest
    · exact Or.inr ⟨Or.inl rfl, hself rfl⟩
    · exact Or.inl hrest
  · exact Or.inr ⟨Or.inr hin, fun hzero => hdone (hn hzero)⟩

/-- Another peer fails. -/
lemma Converging.failed (h : Converging node f₀ P₀ f P) (hplaced : Placed cfg s f)
    (hpeer : node ∈ cfg.peers s) {md : ServerMetadata}
    (hlock : f.metaLock = .replicateLog caller ⟨x :: rest, new, change⟩) (hne : x ≠ node)
    (hfail : f.metadata.failNode x = some md)
    (hlock' : f'.metaLock = .replicateLog caller ⟨rest, new, change⟩)
    (hmetadata : f'.metadata = md) (hwire : f'.wire = .quiet) :
    Converging node f₀ P₀ f' P := by
  obtain ⟨ack, sent, -, hsent, -, -, hmd⟩ := failNode_cases hfail
  have hx : x ∈ cfg.peers s := hplaced.visiting x (mem_nodes hlock)
  have hslot := hplaced.slot_ne hx hpeer hne
  refine h.frame (by rw [hmetadata, hmd]) (by rw [hmetadata, hmd]) ?_ (by simp [hwire]) ?_
  · rw [hmetadata, hmd, sentTo, sentTo, hsent, Option.bind_eq_bind, Option.bind_some,
      Option.bind_some]
    exact List.getElem?_set_ne hslot
  · intro caller' rest' new' change' hloop
    rw [hlock'] at hloop
    cases hloop
    rcases h.visited _ _ _ _ hlock with hin | hdone
    · exact Or.inl ((List.mem_cons.1 hin).resolve_left (Ne.symm hne))
    · exact Or.inr hdone

/-- A peer has answered an entry request. -/
lemma Converging.entryAnswered (h : Converging node f₀ P₀ f P) (hwf : WellFormed cfg s f)
    (hpeer : node ∈ cfg.peers s) {res : LogResponse} {md : ServerMetadata}
    (hlock : f.metaLock = .replicateLog caller ⟨x :: rest, new, change⟩)
    (hwire : f.wire = .response (.log res))
    (hsent : f.metadata.sentTo x ≠ some f.metadata.logSize)
    (hreact : EntryReaction f.metadata x res md true)
    (hlock' : f'.metaLock = .replicateLog caller ⟨rest, insertSocket new x, change + 1⟩)
    (hmetadata : f'.metadata = md) (hwire' : f'.wire = .quiet) :
    Converging node f₀ P₀ f' P := by
  subst hmetadata
  obtain ⟨k, hk, -⟩ := hwf.flow.sent hlock hwire
  obtain ⟨⟨k', hk', hmoves⟩, hothers⟩ := hreact.sent hk
  have hlog := hreact.log
  have hx : x ∈ cfg.peers s := hwf.placed.visiting x (mem_nodes hlock)
  have hvisited : ∀ caller' rest' new' change',
      f'.metaLock = .replicateLog caller' ⟨rest', new', change'⟩ →
      node ∈ rest' ∨ (node ∈ new' ∧
        (change' = 0 → f.metadata.sentTo node = some f.metadata.logSize)) := by
    intro caller' rest' new' change' hloop
    rw [hlock'] at hloop
    cases hloop
    exact h.visited_next hlock (fun hzero => absurd hzero (Nat.succ_ne_zero _))
      fun _ hzero => absurd hzero (Nat.succ_ne_zero _)
  by_cases hself : x = node
  · subst hself
    refine ⟨hlog.1.trans h.smrLog, hlog.2.trans h.logSize, h.grows, fun hskip => ?_,
      fun hbehind hpre => ?_, by simp [hwire'], fun caller' rest' new' change' hloop => ?_⟩
    · exact absurd (h.skipped hskip).1 hsent
    · obtain ⟨hon, -⟩ := h.behind hbehind hpre
      refine ⟨hon, fun hcomplete => ?_⟩
      rcases hon with hon | hholds
      swap
      · exact hholds
      rw [hk', hlog.2, Option.some.injEq] at hcomplete
      have hbounds := hwf.sound.sentTo_lt hk hsent
      rcases hmoves with rfl | ⟨rfl, -⟩ | ⟨rfl, hsuccess⟩
      · exact absurd (hcomplete ▸ hk) hsent
      · omega
      · -- the peer has acknowledged the last entry
        have hle := h.answered _ _ _ _ _ hlock hwire hsuccess hsent
        have hsize := hwf.sound.stored.logSize
        rw [h.smrLog] at hsize
        have hlen := hon.length_le
        rw [hon.eq_of_length (by omega)]
    · refine (hvisited _ _ _ _ hloop).imp_right fun hin => ⟨hin.1, fun hzero => ?_⟩
      rw [hlock'] at hloop
      cases hloop
      exact absurd hzero (Nat.succ_ne_zero _)
  · have hslot := hwf.placed.slot_ne hx hpeer hself
    exact h.frame hlog.1 hlog.2 (hothers node (Ne.symm hslot)) (by simp [hwire']) hvisited

/-- The peer answers the request the caller waits for. -/
lemma Converging.served (h : Converging node f₀ P₀ f P) (hwf : WellFormed cfg s f)
    (hcalling : f.Replicating) {g : LaptopFactory} {rpc : Rpc} {md : ServerMetadata}
    {reply : Reply} (hstored : Stored g.metadata) (hP : g.metadata.smrLog = P)
    (hwire : f.wire = .request node rpc) (hserved : Served g rpc md reply) :
    Converging node f₀ P₀ { f with wire := .response reply } md.smrLog := by
  cases hserved with
  | vote hfree hanswer =>
      obtain ⟨⟨rest, hlock⟩, -⟩ := hwf.flow.voteRequest node _ hwire
      simp [LaptopFactory.Replicating, hlock] at hcalling
  | @log req _ res hfree hvalid hanswer =>
      obtain ⟨-, hreq⟩ := hwf.flow.logRequest node _ hwire
      have hanswer := getLogResponse_cases hstored hanswer
      have hbuilt := logRequestFor_cases hreq
      have hsize := hstored.logSize
      have hgrows : P <+: md.smrLog := hP ▸ hanswer.grows.smrLog
      -- a heartbeat leaves the peer's log alone
      have hbeat : f.metadata.sentTo node = some f.metadata.logSize → md.smrLog = P := by
        intro hcomplete
        rcases hbuilt.kinds hwf.sound with ⟨-, hop⟩ | ⟨hnot, -⟩
        · rw [← hP]
          rcases hanswer.smrLog_eq with heq | ⟨-, heq⟩
          · exact heq
          · rw [heq, appended_smrLog, if_neg (not_not.2 hop), List.append_nil]
        · exact absurd hcomplete hnot
      refine ⟨h.smrLog, h.logSize, h.grows.trans hgrows, fun hskip => ?_, fun hbehind hpre => ?_,
        ?_, h.visited⟩
      · obtain ⟨hcomplete, hsame⟩ := h.skipped hskip
        exact ⟨hcomplete, fun hlacks => (hbeat hcomplete).trans (hsame hlacks)⟩
      · obtain ⟨hon, hall⟩ := h.behind hbehind hpre
        refine ⟨?_, fun hcomplete => (hall hcomplete).trans hgrows⟩
        rcases hon with hon | hholds
        swap
        · exact Or.inr (hholds.trans hgrows)
        left
        rcases hbuilt.kinds hwf.sound with ⟨hcomplete, -⟩ | ⟨-, hentry, hop⟩
        · rw [hbeat hcomplete]
          exact hon
        · rcases hanswer.smrLog_eq with heq | ⟨hends, heq⟩
          · rw [heq, hP]
            exact hon
          · rw [heq, appended_smrLog, if_pos hentry, hP]
            rw [hsize, hP] at hends
            rw [hends, Int.toNat_natCast, h.smrLog] at hop
            exact isPrefix_concat hon hop
      · rintro _ _ _ _ res' - hres hsuccess hnot
        simp only [Wire.response.injEq, Reply.log.injEq] at hres
        subst hres
        rcases hbuilt.kinds hwf.sound with ⟨hcomplete, -⟩ | ⟨-, hentry, -⟩
        · exact absurd hcomplete hnot
        · obtain ⟨hack, hreaches⟩ := hanswer.reaches hstored hentry hsuccess
          omega

/-! ## Steps -/

/-- A step of the caller's threads. -/
lemma ThreadStep.converging {ok : Cluster → Label → Prop} {c c' : Cluster} {l : Label}
    {tr es : List Event} (hrun : (system cfg).Run ok c tr) (hok : KeepsAnswering s node c l)
    (hs : s ∈ cfg.ids) (hpeer : node ∈ cfg.peers s)
    (hst : (system cfg).step c l = some (c', es))
    (hstep : ThreadStep s (c.server s) l (c'.server s) es)
    (h : Converging node f₀ P₀ (c.server s) P) : Converging node f₀ P₀ (c'.server s) P := by
  have hwf := wellFormed hrun hs
  have hcalling := hok.calling
  have hvalid : l = .recvLogResponse s → _ := fun hl =>
    LaptopFactory.recvLogResponse_valid (recvLogResponse_of_step (hl ▸ hst))
  generalize c'.server s = f' at hstep hvalid
  unfold LaptopFactory.Replicating at hcalling
  cases hstep with
  | readStatus | queue => exact h.of_same rfl rfl rfl
  | rest hthread hlock | timeOut hthread hlock | stand hthread hlock | replicate hthread hlock
  | maintain hreq hlock | askVote hlock | countVote hlock | ignoreVote hlock | elected hlock
  | outvoted hlock | endVote hlock =>
      rw [hlock] at hcalling
      exact hcalling.elim
  | sendLog => exact h.frame rfl rfl rfl (by simp) h.visited
  | @fail caller x rest new change md _ hlock hlabel hfail =>
      have hcallee : (c.server s).callee = some x := by simp [LaptopFactory.callee, hlock]
      have hne : x ≠ node := by
        rintro rfl
        rcases hlabel with rfl | rfl
        · obtain ⟨res, hres, ⟨hinvalid, -⟩ | ⟨-, hqueue⟩⟩ := hvalid rfl
          · exact hok.answers rfl hcallee res hres hinvalid
          · obtain ⟨ack, sent, -, -, -, -, rfl⟩ := failNode_cases hfail
            simp at hqueue
        · exact hok.alive rfl hcallee
      exact h.failed hwf.placed hpeer hlock hne hfail rfl rfl rfl
  | @heartbeatAnswered caller x rest new change res hlock hwire hsent =>
      refine h.frame rfl rfl rfl (by simp) fun caller' rest' new' change' hloop => ?_
      cases hloop
      exact h.visited_next hlock id fun hself _ => hself ▸ hsent
  | entryAnswered hlock hwire hsent hreact =>
      exact h.entryAnswered hwf hpeer hlock hwire hsent hreact rfl rfl rfl
  | @deposed caller x rest new change res =>
      have hmetadata := LaptopFactory.returnTo_metadata
        { c.server s with metadata := (c.server s).metadata.demoted res.currentTerm } caller
      apply h.frame
      · rw [hmetadata]
        rfl
      · rw [hmetadata]
        rfl
      · rw [hmetadata]
        rfl
      · simp
      · simp
  | nextRound hlock =>
      have hquiet := idle_of_run hrun s (by simp [LaptopFactory.callee, hlock])
      refine h.frame rfl rfl rfl (by simp [hquiet]) fun caller' rest' new' change' hloop => ?_
      cases hloop
      exact Or.inl ((h.visited _ _ _ _ hlock).resolve_left List.not_mem_nil).1
  | @«return» caller new =>
      have hmetadata := LaptopFactory.returnTo_metadata
        { c.server s with metadata := { (c.server s).metadata with nodeSocket := new } } caller
      apply h.frame
      · rw [hmetadata]
      · rw [hmetadata]
      · rw [hmetadata]
        rfl
      · simp
      · simp

/-- A step during the call. -/
lemma Converging.step {ok : Cluster → Label → Prop} {c c' : Cluster} {l : Label}
    {tr es : List Event} (hrun : (system cfg).Run ok c tr) (hok : KeepsAnswering s node c l)
    (hs : s ∈ cfg.ids) (hpeer : node ∈ cfg.peers s)
    (hst : (system cfg).step c l = some (c', es))
    (h : Converging node f₀ P₀ (c.server s) (c.server node.id).metadata.smrLog) :
    Converging node f₀ P₀ (c'.server s) (c'.server node.id).metadata.smrLog := by
  have hwf := wellFormed hrun hs
  have hcalling := hok.calling
  have hheld : (c.server s).metaLock ≠ .free := by
    intro hfree
    simp [LaptopFactory.Replicating, hfree] at hcalling
  rcases held_cases hst hheld with ⟨hl, hmoved⟩ |
    ⟨-, x, rpc, md, reply, hwire, hserved, hcaller, hcallee, hothers⟩
  · have hgrows := (server_grows hrun hst node.id).smrLog
    have hgrown := h.grown hgrows fun hlacks => by
      rw [← h.smrLog] at hlacks
      exact hok.alone hl hlacks _ (act_of_step hst)
    rcases hmoved with hsame | hstep
    · rw [hsame]
      exact hgrown
    · exact hstep.converging hrun hok hs hpeer hst hgrown
  · rw [hcaller]
    by_cases hx : x = node
    · subst hx
      rw [hcallee]
      have hstored := (wellFormed hrun (Placed.peer_mem hs hpeer)).sound.stored
      exact h.served hwf hcalling hstored rfl hwire hserved
    · have hxpeer := hwf.peer_of_wire hwire
      have hid : node.id ≠ x.id := fun hid => hx
        (List.inj_on_of_nodup_map (cfg.peers_nodup s hs) hxpeer hpeer hid.symm)
      rw [hothers _ hid]
      refine ⟨h.smrLog, h.logSize, h.grows, h.skipped, h.behind, ?_, h.visited⟩
      rintro caller rest new change res hlock hres
      -- the answer is another peer's
      cases hserved with
      | vote => cases hres
      | @log req _ res' hfree hvalid hanswer =>
          obtain ⟨⟨caller', rest', new', change', hlock'⟩, -⟩ := hwf.flow.logRequest x req hwire
          have hsame := hlock.symm.trans hlock'
          simp only [MetaLock.replicateLog.injEq, ReplicateLoop.mk.injEq, List.cons.injEq] at hsame
          exact absurd hsame.2.1.1.symm hx

end Converging

/-! ## The result -/

lemma LaptopFactory.endRound_smrLog {f f' : LaptopFactory} (h : f.endRound = some f') :
    f'.metadata.smrLog = f.metadata.smrLog := by
  unfold endRound at h
  split at h
  · rename_i caller new change hlock
    by_cases hchange : change = 0
    · rw [if_pos hchange] at h
      obtain rfl := Option.some.inj h
      rw [returnTo_metadata]
    · rw [if_neg hchange] at h
      obtain rfl := Option.some.inj h
      rfl
  · cases h

lemma LaptopFactory.Finished.loop {f : LaptopFactory} (h : f.Finished) :
    ∃ caller new, f.metaLock = .replicateLog caller ⟨[], new, 0⟩ := by
  unfold Finished at h
  split at h
  · rename_i caller loop hlock
    obtain ⟨rest, new, change⟩ := loop
    obtain ⟨rfl, rfl⟩ := h
    exact ⟨caller, new, hlock⟩
  · exact h.elim

lemma endRound_logs {cfg : Config} {c c' : Cluster} {s : ℤ} {es : List Event}
    (hst : (system cfg).step c (.endRound s) = some (c', es)) (q : ℤ) :
    (c'.server q).metadata.smrLog = (c.server q).metadata.smrLog := by
  obtain ⟨f', hf, rfl, -⟩ := TransitionSystem.exists_of_map_eq_some (act_of_step hst)
  have hserver : (c.setServer s f').server = Function.update c.server s f' := rfl
  rw [hserver]
  by_cases hq : q = s
  · subst hq
    rw [Function.update_self]
    exact LaptopFactory.endRound_smrLog hf
  · rw [Function.update_of_ne hq]

section Calls

variable {cfg : Config} {s : ℤ} {node : ServerNode} {c₀ c₁ : Cluster}

/-- **Replication converges** for a peer that stays connected and answers if and only if, when
the call begins, the peer holds the caller's log already, or it does not count as complete and its
log is the beginning of the caller's.  In the first case others may go on to change the peer's
log. -/
theorem replication_converges_iff (h : CompletedCall cfg s node c₀ c₁) :
    HoldsLog c₁ s node.id ↔ HoldsLog c₀ s node.id ∨
      ((c₀.server s).metadata.sentTo node ≠ some (c₀.server s).metadata.logSize ∧
        (c₀.server node.id).metadata.smrLog <+: (c₀.server s).metadata.smrLog) := by
  obtain ⟨hs, hentered, hquiet, hconnected, tr₀, c, tr, es, hrun₀, hpath, hfinished, hst⟩ := h
  obtain ⟨caller, new, hlock⟩ := hfinished.loop
  have hpeer := (wellFormed hrun₀ hs).placed.nodeSocket node hconnected
  have hstart : Converging node (c₀.server s) (c₀.server node.id).metadata.smrLog (c₀.server s)
      (c₀.server node.id).metadata.smrLog := by
    refine ⟨rfl, rfl, List.prefix_rfl, fun hskip => ⟨hskip, fun _ => rfl⟩,
      fun hbehind hpre => ⟨Or.inl hpre, fun hcomplete => absurd hcomplete hbehind⟩,
      by simp [hquiet], ?_⟩
    intro _ _ _ _ hlock
    unfold LaptopFactory.Entered at hentered
    rw [hlock] at hentered
    cases hentered
    exact Or.inl hconnected
  have hend : Converging node (c₀.server s) (c₀.server node.id).metadata.smrLog (c.server s)
      (c.server node.id).metadata.smrLog :=
    TransitionSystem.Path.invariant
      (I := fun c => Converging node (c₀.server s) (c₀.server node.id).metadata.smrLog
        (c.server s) (c.server node.id).metadata.smrLog)
      (fun _ _ _ _ _ hrun hok hst h => h.step hrun hok hs hpeer hst) hpath hrun₀ hstart
  have hcomplete := ((hend.visited _ _ _ _ hlock).resolve_left List.not_mem_nil).2 rfl
  unfold HoldsLog
  rw [endRound_logs hst, endRound_logs hst, hend.smrLog]
  constructor
  · intro hholds
    by_cases hskip : (c₀.server s).metadata.sentTo node = some (c₀.server s).metadata.logSize
    · refine Or.inl (by_contra fun hlacks => ?_)
      rw [(hend.skipped hskip).2 hlacks] at hholds
      exact hlacks hholds
    · exact (List.prefix_or_prefix_of_prefix hholds hend.grows).imp_right fun hpre =>
        ⟨hskip, hpre⟩
  · rintro (hholds | ⟨hbehind, hpre⟩)
    · exact hholds.trans hend.grows
    · exact (hend.behind hbehind hpre).2 hcomplete

end Calls

/-- A call by hand: the labels that lead to it, and those between its entry and its last step. -/
lemma completedCall_of_play (cfg : Config) (s : ℤ) (node : ServerNode)
    {P : Cluster → Cluster → Prop} [∀ c c', Decidable (P c c')] (before during : List Label)
    (h : (play cfg TransitionSystem.anyStep before).any fun p =>
      (s ∈ cfg.ids ∧ (p.1.server s).Entered ∧ (p.1.server s).wire = .quiet ∧
        node ∈ (p.1.server s).metadata.nodeSocket) ∧
      ((system cfg).exec (KeepsAnswering s node) p.1 p.2 during).any fun q =>
        (q.1.server s).Finished ∧
        ((system cfg).step q.1 (.endRound s)).any fun r => P p.1 r.1) :
    ∃ c₀ c₁, CompletedCall cfg s node c₀ c₁ ∧ P c₀ c₁ := by
  simp only [Option.any_eq_true, decide_eq_true_eq] at h
  obtain ⟨⟨c₀, tr₀⟩, hplay, ⟨hs, hentered, hquiet, hconnected⟩, ⟨c, tr⟩, hexec, hfinished,
    ⟨c₁, es⟩, hst, hP⟩ := h
  have hstart : (system cfg).Run TransitionSystem.anyStep (boot cfg fun _ _ => true) [] :=
    .init ⟨_, rfl⟩
  exact ⟨c₀, c₁, ⟨hs, hentered, hquiet, hconnected, tr₀, c, tr, es,
    TransitionSystem.exec_run hstart hplay, TransitionSystem.exec_path hexec, hfinished, hst⟩, hP⟩

theorem replication_converges_oneUpdate : ∃ c₀ c₁,
    CompletedCall three 0 ⟨2, 2, "", 0⟩ c₀ c₁ ∧ (c₁.server 0).metadata.status = .leader ∧
    (c₁.server 0).metadata.smrLog = [⟨1, 7, 1⟩] ∧ HoldsLog c₁ 0 2 := by
  obtain ⟨c₀, c₁, hcall, hleader, hlog, hsent, hpeer⟩ := completedCall_of_play three 0 ⟨2, 2, "", 0⟩
    (P := fun c₀ c₁ => (c₁.server 0).metadata.status = .leader ∧
      (c₁.server 0).metadata.smrLog = [⟨1, 7, 1⟩] ∧
      (c₀.server 0).metadata.sentTo ⟨2, 2, "", 0⟩ ≠ some (c₀.server 0).metadata.logSize ∧
      (c₀.server 2).metadata.smrLog <+: (c₀.server 0).metadata.smrLog)
    (stand 0 ++ callVote 0 ++ submit 0 7 1)
    (callLog 0 ++ callLog 0 ++ [.endRound 0] ++ callLog 0 ++ callLog 0) (by decide +kernel)
  exact ⟨c₀, c₁, hcall, hleader, hlog, (replication_converges_iff hcall).2 (Or.inr ⟨hsent, hpeer⟩)⟩

/-- Server 0 replicates an update to server 1 only.  Server 1 is elected in term 2 and sends its
heartbeats; server 2, whose log is empty, refuses, and the call returns `1`. -/
theorem repair_never_tried : ∃ c₀ c₁, CompletedCall three 1 ⟨2, 2, "", 0⟩ c₀ c₁ ∧
    (c₀.server 1).metadata.status = .leader ∧ (c₁.server 1).metadata.status = .leader ∧
    (c₁.server 1).metadata.smrLog = [⟨1, 7, 1⟩] ∧ (c₁.server 2).metadata.smrLog = [] ∧
    ¬ HoldsLog c₁ 1 2 := by
  obtain ⟨c₀, c₁, hcall, hleader, hstill, hlog, hpeer⟩ :=
    completedCall_of_play three 1 ⟨2, 2, "", 0⟩
    (P := fun c₀ c₁ => (c₀.server 1).metadata.status = .leader ∧
      (c₁.server 1).metadata.status = .leader ∧
      (c₁.server 1).metadata.smrLog = [⟨1, 7, 1⟩] ∧ (c₁.server 2).metadata.smrLog = [])
    (stand 0 ++ callVote 0 ++ submit 0 7 1 ++ callLog 0 ++ [.logLinkFails 0, .endRound 0] ++
      callLog 0 ++ [.endRound 0] ++ timeOut 1 ++ stand 1 ++ callVote 1 ++ heartbeat 1)
    (callLog 1 ++ callLog 1) (by decide +kernel)
  refine ⟨c₀, c₁, hcall, hleader, hstill, hlog, hpeer, fun hholds => ?_⟩
  unfold HoldsLog at hholds
  rw [hlog, hpeer] at hholds
  exact absurd (List.prefix_nil.1 hholds) (List.cons_ne_nil _ _)

end LaptopRaft
