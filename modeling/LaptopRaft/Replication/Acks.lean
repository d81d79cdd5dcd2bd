import LaptopRaft.Properties.Replay
import LaptopRaft.Replication.Matching

/-!
# Acknowledgements

`CommitLog` counts the slots of `ack_length`, so a slot has to say what the peer's log holds.
The argument has two halves.

* A positive slot of a leader is an acceptance that was observed: `Counting` follows the slot back
  to the response, and the response to the peer's handler.
* An accepted length is held for good: the peer's log begins with that much of the log of the
  term (`held_of_run`).  Logs are never shortened, so nothing can take it back.

The second half fails on one path of `GetLogResponse`.  When the log is already longer than the
prefix, the entry is not appended, and not compared either: the answer is the same acknowledgement
whatever entry the follower has there (`FalseAck`).  `ack_sound` is the result for runs without
such an answer; `false_ack` is the run with one.
-/

namespace LaptopRaft

open ServerMetadata

/-- `ack_length` tells the truth: a leader's slot of a peer is a length up to which the two logs
are the same. -/
def AcksSound (cfg : Config) (c : Cluster) : Prop :=
  ∀ s ∈ cfg.ids, (c.server s).metadata.status = .leader →
    ∀ ack, (c.server s).metadata.ackLength = some ack →
    ∀ node ∈ cfg.peers s, ∀ k, ack[(c.server s).metadata.slot node]? = some k →
      k ≤ (c.server node.id).metadata.smrLog.length ∧
      (c.server node.id).metadata.smrLog.take k.toNat =
        (c.server s).metadata.smrLog.take k.toNat

/-! ## The condition -/

/-- The request is accepted on the path that does not append, and the log has an entry of another
term where the request's entry belongs. -/
structure FalseAck (md : ServerMetadata) (req : LogRequest) : Prop where
  current : md.currentTerm ≤ req.currentTerm
  canLog : md.canLog req = some true
  included : md.included req
  entry : req.opTerm ≠ -1
  differs : md.getTermAtIdx req.prefixLength ≠ some req.opTerm

instance (md : ServerMetadata) (req : LogRequest) : Decidable (FalseAck md req) :=
  decidable_of_iff (md.currentTerm ≤ req.currentTerm ∧ md.canLog req = some true ∧
      md.included req ∧ req.opTerm ≠ -1 ∧ md.getTermAtIdx req.prefixLength ≠ some req.opTerm)
    ⟨fun h => ⟨h.1, h.2.1, h.2.2.1, h.2.2.2.1, h.2.2.2.2⟩,
      fun h => ⟨h.current, h.canLog, h.included, h.entry, h.differs⟩⟩

def NoFalseAck (c : Cluster) (l : Label) : Prop :=
  match c.delivered l with
  | some (p, .log req) => ¬ FalseAck (c.server p).metadata req
  | _ => True

instance (c : Cluster) (l : Label) : Decidable (NoFalseAck c l) := by
  unfold NoFalseAck
  exact match c.delivered l with
    | some (_, .log _) => inferInstance
    | some (_, .vote _) | none => instDecidableTrue

lemma NoFalseAck.not {c : Cluster} {l : Label} (h : NoFalseAck c l) {p : ℤ} {req : LogRequest}
    (hdelivered : c.delivered l = some (p, .log req)) :
    ¬ FalseAck (c.server p).metadata req := by
  unfold NoFalseAck at h
  rw [hdelivered] at h
  exact h

/-- The steps under which acknowledgements are true. -/
structure KeepsAcks (c : Cluster) (l : Label) : Prop extends KeepsLogs c l where
  honest : NoFalseAck c l

instance (c : Cluster) (l : Label) : Decidable (KeepsAcks c l) :=
  decidable_of_iff (KeepsLogs c l ∧ NoFalseAck c l)
    ⟨fun h => ⟨h.1, h.2⟩, fun h => ⟨h.toKeepsLogs, h.honest⟩⟩

/-! ## The slots of the members -/

/-- Whom the slots of `ack_length` belong to: the peers, and the server itself. -/
def Config.slots (cfg : Config) (s : ℤ) : List ℤ := (cfg.peers s).map ServerNode.id ++ [s]

section Slots

variable {cfg : Config} {s : ℤ}

lemma Config.slots_nodup (hs : s ∈ cfg.ids) : (cfg.slots s).Nodup := by
  have hnot : s ∉ (cfg.peers s).map ServerNode.id := by
    rw [cfg.mem_peers s hs]
    exact fun h => h.2 rfl
  rw [Config.slots, List.nodup_append]
  refine ⟨cfg.peers_nodup s hs, List.nodup_singleton s, ?_⟩
  rintro x hx _ hy rfl
  rw [List.mem_singleton.1 hy] at hx
  exact hnot hx

lemma Config.slots_toFinset (hs : s ∈ cfg.ids) : (cfg.slots s).toFinset = cfg.ids := by
  ext x
  rw [List.mem_toFinset, Config.slots, List.mem_append, cfg.mem_peers s hs, List.mem_singleton]
  by_cases hx : x = s
  · simp [hx, hs]
  · simp [hx]

lemma Config.slots_length : (cfg.slots s).length = (cfg.peers s).length + 1 := by
  simp [Config.slots]

lemma Config.slots_own : (cfg.slots s)[(cfg.peers s).length]? = some s := by
  rw [Config.slots, List.getElem?_append_right (by simp)]
  simp

lemma Config.slots_peer {k : ℕ} {node : ServerNode} (h : (cfg.peers s)[k]? = some node) :
    (cfg.slots s)[k]? = some node.id := by
  obtain ⟨hlt, -⟩ := List.getElem?_eq_some_iff.1 h
  rw [Config.slots, List.getElem?_append_left (by simpa using hlt), List.getElem?_map, h]
  rfl

end Slots

/-! ## Slots are observed acceptances -/

structure Counting (cfg : Config) (s : ℤ) (f : LaptopFactory) (tr : List Event) : Prop where
  /-- A positive answer to an entry request is the peer's acceptance of the entry. -/
  answered : ∀ caller node rest new change res,
    f.metaLock = .replicateLog caller ⟨node :: rest, new, change⟩ →
    f.wire = .response (.log res) → res.success ≠ 0 →
    f.metadata.sentTo node ≠ some f.metadata.logSize →
    .accept node.id res.currentTerm res.ack ∈ tr
  /-- So is every slot of a leader that is not `0`. -/
  slots : f.metadata.status = .leader → ∀ ack, f.metadata.ackLength = some ack →
    ∀ (i : ℕ) q k, (cfg.slots s)[i]? = some q → ack[i]? = some k → k ≠ 0 →
    .accept q f.metadata.currentTerm k ∈ tr

section Counting

variable {cfg : Config} {s : ℤ} {f f' : LaptopFactory} {tr es : List Event} {l : Label}

/-- A step that leaves no answer to be looked at, and the slots of a leader as they are. -/
lemma Counting.of_silent (h : Counting cfg s f tr)
    (hwire : ∀ res, f'.wire ≠ .response (.log res))
    (hleader : f'.metadata.status = .leader → f.metadata.status = .leader ∧
      f'.metadata.currentTerm = f.metadata.currentTerm ∧
      f'.metadata.ackLength = f.metadata.ackLength) : Counting cfg s f' (tr ++ es) := by
  constructor
  · intro caller node rest new change res _ hres
    exact absurd hres (hwire res)
  · intro hleads ack hack i q k hq hk hpos
    obtain ⟨hled, hterm, hsame⟩ := hleader hleads
    rw [hsame] at hack
    rw [hterm]
    exact List.mem_append_left es (h.slots hled ack hack i q k hq hk hpos)

/-- A step that changes nothing the answer is about. -/
lemma Counting.of_same (h : Counting cfg s f tr) (hmetadata : f'.metadata = f.metadata)
    (hlock : f'.metaLock = f.metaLock) (hwire : f'.wire = f.wire) :
    Counting cfg s f' (tr ++ es) := by
  constructor
  · rw [hmetadata, hlock, hwire]
    intro caller node rest new change res hlock hres hsuccess hsent
    exact List.mem_append_left es
      (h.answered caller node rest new change res hlock hres hsuccess hsent)
  · rw [hmetadata]
    intro hleads ack hack i q k hq hk hpos
    exact List.mem_append_left es (h.slots hleads ack hack i q k hq hk hpos)

/-- One slot is set, to nothing or to an observed acceptance. -/
lemma Counting.of_set (h : Counting cfg s f tr) {j : ℕ} {x : ℤ} {ack : List ℤ}
    (hwire : ∀ res, f'.wire ≠ .response (.log res))
    (hterm : f'.metadata.currentTerm = f.metadata.currentTerm)
    (hleader : f'.metadata.status = .leader → f.metadata.status = .leader)
    (hack : f.metadata.ackLength = some ack) (hset : f'.metadata.ackLength = some (ack.set j x))
    (hslot : f'.metadata.status = .leader → x ≠ 0 → ∀ q, (cfg.slots s)[j]? = some q →
      .accept q f.metadata.currentTerm x ∈ tr ++ es) : Counting cfg s f' (tr ++ es) := by
  constructor
  · intro caller node rest new change res _ hres
    exact absurd hres (hwire res)
  · intro hleads ack' hack' i q k hq hk hpos
    rw [hset, Option.some.injEq] at hack'
    subst hack'
    rw [hterm]
    by_cases hij : j = i
    · subst hij
      obtain ⟨hlt, -⟩ := List.getElem?_eq_some_iff.1 hk
      rw [List.length_set] at hlt
      rw [List.getElem?_set_self hlt, Option.some.injEq] at hk
      subst hk
      exact hslot hleads hpos q hq
    · rw [List.getElem?_set_ne hij] at hk
      exact List.mem_append_left es (h.slots (hleader hleads) ack hack i q k hq hk hpos)

/-- `CommitLog` after an acknowledgement, by a well-formed server. -/
lemma WellFormed.commitLog_recordAck (hwf : WellFormed cfg s f) {node : ServerNode}
    {sent ack : List ℤ} {n : ℤ} {md : ServerMetadata} (hack : f.metadata.ackLength = some ack)
    (hcommit : (f.metadata.recordAck node sent ack n).commitLog = some md) :
    ∃ k, md = (f.metadata.recordAck node sent ack n).advance k ∧
      f.metadata.commitLength ≤ k ∧ k ≤ f.metadata.logSize ∧
      (f.metadata.commitLength < k → Majority (ack.set (f.metadata.slot node) n) k) ∧
      ∀ i ≤ f.metadata.logSize, Majority (ack.set (f.metadata.slot node) n) i →
        k = f.metadata.commitLength ∨ i ≤ k := by
  have hstored : Stored (f.metadata.recordAck node sent ack n) :=
    hwf.sound.stored.frame
  have hlen : (ack.set (f.metadata.slot node) n).length = f.metadata.getPeerSize + 1 := by
    rw [List.length_set, (hwf.sound.ack ack hack).length]
  exact commitLog_cases hstored rfl hlen hcommit

/-- The reaction to an entry response records an acceptance, or leaves the slots. -/
lemma Counting.entryAnswered (h : Counting cfg s f tr) (hwf : WellFormed cfg s f)
    {caller : Caller} {node : ServerNode} {rest new : List ServerNode} {change : ℕ}
    {res : LogResponse} {md : ServerMetadata} {lock : MetaLock}
    (hlock : f.metaLock = .replicateLog caller ⟨node :: rest, new, change⟩)
    (hwire : f.wire = .response (.log res))
    (hsent : f.metadata.sentTo node ≠ some f.metadata.logSize)
    (hreact : EntryReaction f.metadata node res md true) :
    Counting cfg s { f with metadata := md, metaLock := lock, wire := .quiet } (tr ++ es) := by
  cases hreact with
  | @acked sent ack _ hterm hleader hsuccess hsents hack hcommit =>
      have hpeer : node ∈ cfg.peers s := hwf.placed.visiting node (mem_nodes hlock)
      obtain ⟨k, rfl, -⟩ := hwf.commitLog_recordAck hack hcommit
      refine h.of_set (j := f.metadata.slot node) (x := res.ack) (by simp) rfl id hack rfl
        fun _ _ q hq => ?_
      rw [Config.slots_peer (hwf.placed.getElem_slot hpeer), Option.some.injEq] at hq
      subst hq
      rw [← hterm]
      exact List.mem_append_left es
        (h.answered caller node rest new change res hlock hwire hsuccess hsent)
  | backed => exact h.of_silent (by simp) fun hleads => ⟨hleads, rfl, rfl⟩
  | kept => exact h.of_silent (by simp) fun hleads => ⟨hleads, rfl, rfl⟩

lemma ThreadStep.counting {c : Cluster} (hwf : WellFormed cfg s (c.server s))
    (hidle : Idle (c.server s)) (hstep : ThreadStep s (c.server s) l f' es)
    (h : Counting cfg s (c.server s) tr) : Counting cfg s f' (tr ++ es) := by
  have hquiet : ∀ {g : LaptopFactory}, g.wire = .quiet → ∀ res, g.wire ≠ .response (.log res) := by
    intro g hg res hres
    rw [hg] at hres
    cases hres
  cases hstep with
  | readStatus | queue => exact h.of_same rfl rfl rfl
  | rest hthread hfree | replicate hthread hfree =>
      exact h.of_silent (hquiet (hidle.quiet hfree)) fun hleads => ⟨hleads, rfl, rfl⟩
  | timeOut hthread hfree => exact h.of_silent (hquiet (hidle.quiet hfree)) (by simp [setStatus])
  | stand hthread hfree =>
      exact h.of_silent (hquiet (hidle.quiet hfree)) fun hleads =>
        absurd hleads (hwf.flow.candidate hthread)
  | askVote | sendLog => exact h.of_silent (by simp) fun hleads => ⟨hleads, rfl, rfl⟩
  | countVote | ignoreVote | heartbeatAnswered =>
      exact h.of_silent (by simp) fun hleads => ⟨hleads, rfl, rfl⟩
  | elected =>
      constructor
      · simp
      · rintro _ _ ⟨⟩ i q k _ hk hpos
        exact absurd (List.eq_of_mem_replicate (List.mem_of_getElem? hk)) hpos
  | outvoted => exact h.of_silent (by simp) (by simp [demoted])
  | endVote hlock | nextRound hlock =>
      have hnone : (c.server s).callee = none := by simp [LaptopFactory.callee, hlock]
      exact h.of_silent (hquiet (hidle hnone)) fun hleads => ⟨hleads, rfl, rfl⟩
  | @maintain i req accepts ack hreq hfree haccepts hack hlt =>
      refine h.of_set (hquiet (hidle.quiet hfree)) rfl id hack rfl fun _ _ q hq => ?_
      change (cfg.slots s)[(c.server s).metadata.neighbors.length]? = some q at hq
      rw [hwf.placed.neighbors, Config.slots_own, Option.some.injEq] at hq
      subst hq
      exact List.mem_append_right tr (List.mem_cons_of_mem _ List.mem_cons_self)
  | fail hlock hlabel hfail =>
      obtain ⟨ack, sent, hack, -, -, -, rfl⟩ := failNode_cases hfail
      exact h.of_set (by simp) rfl id hack rfl fun _ hpos => absurd rfl hpos
  | entryAnswered hlock hwire hsent hreact => exact h.entryAnswered hwf hlock hwire hsent hreact
  | deposed =>
      refine h.of_silent (hquiet (LaptopFactory.returnTo_wire _ _)) ?_
      rw [LaptopFactory.returnTo_metadata]
      simp [demoted]
  | «return» =>
      refine h.of_silent (hquiet (LaptopFactory.returnTo_wire _ _)) ?_
      rw [LaptopFactory.returnTo_metadata]
      exact fun hleads => ⟨hleads, rfl, rfl⟩

/-- A handler leaves the slots alone. -/
lemma Served.ackLength_eq {rpc : Rpc} {md : ServerMetadata} {reply : Reply}
    (hserved : Served f rpc md reply) (hstored : Stored f.metadata) :
    md.ackLength = f.metadata.ackLength := by
  cases hserved with
  | vote hfree hanswer =>
      rw [hanswer.frame]
  | @log req _ res hfree hvalid hanswer =>
      rw [(getLogResponse_cases hstored hanswer).frame]
      unfold ServerMetadata.adoptLeader
      split <;> rfl

end Counting

/-! ## Accepted entries stay -/

/-- A server's log begins with what it has accepted of the log of a term. -/
def Held (c : Cluster) (tr : List Event) : Prop :=
  ∀ q t k, .accept q t k ∈ tr → k.toNat ≤ (termLog tr t).length ∧
    (termLog tr t).take k.toNat <+: (c.server q).metadata.smrLog

section Accepting

variable {L : ℤ → List MapOp} {md md' : ServerMetadata} {req : LogRequest} {res : LogResponse}

lemma adoptLeader_canLog (md : ServerMetadata) (req : LogRequest) :
    (md.adoptLeader req).canLog req = md.canLog req := by
  unfold canLog getTermAtIdx
  rw [adoptLeader_logSize, adoptLeader_smrLog]

/-- **An honest acceptance.**  Unless it is false, a positive answer to an entry request means
that the log begins with the log of the sender's term, up to and including the entry. -/
lemma ServerMetadata.LogAnswer.accepted (hstored : Stored md)
    (hlog : Matched MapOp.term L md.smrLog) (hterm : Matched MapOp.term L (L req.currentTerm))
    (hreq : FromLeader L req) (hpos : 0 ≤ req.prefixLength)
    (hfresh : md.status = .follower → md.currentTerm ≤ req.currentTerm)
    (hhonest : ¬ FalseAck md req) (hentry : req.opTerm ≠ -1) (hsuccess : res.success ≠ 0)
    (hanswer : LogAnswer md req md' res) :
    res.currentTerm = req.currentTerm ∧ res.ack.toNat ≤ (L req.currentTerm).length ∧
      (L req.currentTerm).take res.ack.toNat <+: md'.smrLog := by
  have hop := hreq.entry hentry
  obtain ⟨hlt, -⟩ := List.getElem?_eq_some_iff.1 hop
  have hnext : (req.prefixLength + 1).toNat = req.prefixLength.toNat + 1 := by omega
  have hreach : (req.prefixLength + 1).toNat ≤ (L req.currentTerm).length := by omega
  cases hanswer with
  | refused hno => exact absurd rfl hsuccess
  | held hcurrent hcan hlonger =>
      have hle : md.currentTerm ≤ req.currentTerm := by
        rw [← hcurrent, adoptLeader_term_le]
        exact hfresh
      rw [adoptLeader_canLog] at hcan
      have hsame : md.getTermAtIdx req.prefixLength = some req.opTerm := by
        by_contra hdiffers
        exact hhonest ⟨hle, hcan, hlonger, hentry, hdiffers⟩
      rw [getTermAtIdx, if_neg (by omega)] at hsame
      obtain ⟨e, he, heterm⟩ := Option.map_eq_some_iff.1 hsame
      have hagree := hterm.agree hlog hop he heterm.symm
      refine ⟨rfl, hreach, ?_⟩
      change (L req.currentTerm).take (req.prefixLength + 1).toNat <+: (md.adoptLeader req).smrLog
      rw [adoptLeader_smrLog, hnext, hagree]
      exact List.take_prefix _ _
  | @extended k hcurrent hcan hends hexec =>
      have hpre := adopted_isPrefix hstored hlog hterm hreq hcan hends
      have hlen : ((md.adoptLeader req).appended req).smrLog.length =
          (req.prefixLength + 1).toNat := by
        have hsize := hstored.logSize
        rw [appended_smrLog, adoptLeader_smrLog, if_pos hentry, List.length_append,
          List.length_singleton]
        omega
      refine ⟨rfl, hreach, ?_⟩
      change (L req.currentTerm).take (req.prefixLength + 1).toNat <+:
        ((md.adoptLeader req).appended req).smrLog
      rw [← hlen, ← take_eq_of_isPrefix hpre (le_refl _), List.take_length]

end Accepting

section Runs

variable {cfg : Config} {c c' : Cluster} {tr es : List Event} {l : Label} {s : ℤ}

lemma KeepsAcks.logs (hrun : (system cfg).Run KeepsAcks c tr) :
    (system cfg).Run KeepsLogs c tr :=
  hrun.mono fun _ _ hok => hok.toKeepsLogs

lemma KeepsAcks.leading (hrun : (system cfg).Run KeepsAcks c tr) (hs : s ∈ cfg.ids) :
    Leading s (c.server s) tr :=
  KeepsLogs.leading (KeepsAcks.logs hrun) hs

theorem counting_of_run (hrun : (system cfg).Run KeepsAcks c tr) (hs : s ∈ cfg.ids) :
    Counting cfg s (c.server s) tr := by
  refine run_forall_server (P := fun s f tr => s ∈ cfg.ids → Counting cfg s f tr)
    ?_ ?_ ?_ ?_ ?_ hrun s hs
  · intro connects s _
    obtain ⟨index, heq, -⟩ := bootMetadata_eq cfg connects s
    have hmetadata : ((boot cfg connects).server s).metadata = _ := heq
    constructor
    · simp [boot]
    · rw [hmetadata]
      simp
  · intro s f tr es _ h hs
    exact (h hs).of_same rfl rfl rfl
  · intro c tr l s f es hrun _ _ hstep h hs
    exact hstep.counting (wellFormed hrun hs) (idle_of_run hrun s) (h hs)
  · intro c tr l p rpc md reply hrun _ _ hserved h hp
    have hstored := (wellFormed hrun hp).sound.stored
    have hquiet := (idle_of_run hrun p).quiet hserved.free
    refine (h hp).of_silent (by simp [hquiet]) fun hleads => ?_
    rcases hserved.status_cases hstored with hfollower | ⟨hstatus, hterm⟩
    · rw [hfollower] at hleads
      cases hleads
    · exact ⟨hstatus ▸ hleads, hterm, hserved.ackLength_eq hstored⟩
  · intro c tr s node rpc md reply hrun hs hwire hserved h _
    have hwf := wellFormed hrun hs
    refine ⟨fun caller node' rest new change res hlock hres hsuccess hsent => ?_, (h hs).slots⟩
    obtain rfl : reply = .log res := Wire.response.inj hres
    cases hserved with
    | @log req _ _ hfree hvalid hanswer =>
        obtain ⟨⟨caller', rest', new', change', hlock'⟩, hreq⟩ := hwf.flow.logRequest node _ hwire
        -- the loop is still at the peer the request went to
        obtain rfl : node' = node := by
          have hsame := hlock.symm.trans hlock'
          simp only [MetaLock.replicateLog.injEq, ReplicateLoop.mk.injEq, List.cons.injEq] at hsame
          exact hsame.2.1.1
        have hbuilt := logRequestFor_cases hreq
        have hentry : req.opTerm ≠ -1 := by
          rcases hbuilt.body with ⟨hsize, -⟩ | ⟨-, hop⟩
          · exact absurd (hsize ▸ hbuilt.sent) hsent
          · have hterm := hwf.sound.entry_term _ (List.mem_of_getElem? (getOp_eq_some hop).2)
            change 0 ≤ req.opTerm at hterm
            omega
        exact List.mem_append_right tr (by simp [serveEvents, hsuccess, hentry])

lemma Held.mono (h : Held c tr) (hgrow : ∀ t, termLog tr t <+: termLog (tr ++ es) t)
    (hlogs : ∀ q, (c.server q).metadata.smrLog <+: (c'.server q).metadata.smrLog)
    (hnew : ∀ q t k, .accept q t k ∈ es → k.toNat ≤ (termLog (tr ++ es) t).length ∧
      (termLog (tr ++ es) t).take k.toNat <+: (c'.server q).metadata.smrLog) :
    Held c' (tr ++ es) := by
  intro q t k haccept
  rcases List.mem_append.1 haccept with hold | hlast
  · obtain ⟨hlen, hpre⟩ := h q t k hold
    rw [← take_eq_of_isPrefix (hgrow t) hlen]
    exact ⟨hlen.trans (hgrow t).length_le, hpre.trans (hlogs q)⟩
  · exact hnew q t k hlast

/-- Of a thread, only `LeaderMaintainLog` accepts an entry: its own, and all before. -/
lemma ThreadStep.accept_cases {f f' : LaptopFactory} (hstep : ThreadStep s f l f' es)
    {q t k : ℤ} (haccept : .accept q t k ∈ es) :
    q = s ∧ t = f'.metadata.currentTerm ∧ k = f'.metadata.logSize ∧
      f'.metadata.status = f.metadata.status ∧ ∃ i accepts, l = .leaderMaintainLog s i accepts := by
  cases hstep with
  | @maintain i req accepts ack =>
      simp only [List.mem_cons, reduceCtorEq, Event.accept.injEq, List.not_mem_nil, or_false,
        false_or] at haccept
      obtain ⟨rfl, rfl, rfl⟩ := haccept
      exact ⟨rfl, rfl, rfl, rfl, i, accepts, rfl⟩
  | queue hqueue =>
      obtain ⟨laptop, hship⟩ := hqueue.events _ haccept
      cases hship
  | entryAnswered => simp [commitEvents] at haccept
  | stand => simp [standEvents] at haccept
  | _ => simp at haccept

theorem held_of_run (hrun : (system cfg).Run KeepsAcks c tr) : Held c tr := by
  refine TransitionSystem.Run.invariant (I := Held) ?_ ?_ hrun
  · intro c _ q t k haccept
    exact absurd haccept List.not_mem_nil
  · intro c tr l c' es hrun ih hok hst
    have hlogs := KeepsAcks.logs hrun
    have hrun' : (system cfg).Run KeepsLogs c' (tr ++ es) := .step hlogs hok.toKeepsLogs hst
    refine ih.mono (termLog_grows hlogs hok.toKeepsLogs hst)
      (fun q => (server_grows hrun hst q).smrLog) fun q t k haccept => ?_
    rcases step_cases hst with ⟨s, f, hs, hstep, hserver, -⟩ |
      ⟨p, rpc, reply, hdelivered, hhandled, rfl⟩
    · -- a leader appends: its log is the log of the term
      obtain ⟨rfl, rfl, rfl, hstatus, i, accepts, rfl⟩ := hstep.accept_cases haccept
      have hself : c'.server q = f := by rw [hserver, Function.update_self]
      have hleader : (c'.server q).metadata.status = .leader := by
        rw [hself, hstatus]
        exact hok.acts
      have hlog := (matching_of_run hrun').leading q hs hleader
      have hsize := (wellFormed hrun' hs).sound.stored.logSize
      rw [hself] at hlog hsize ⊢
      rw [← hlog, hsize, Int.toNat_natCast, List.take_length]
      exact ⟨le_refl _, List.prefix_rfl⟩
    · rcases serveEvents_cases haccept with ⟨_, _, -, -, -, he⟩ |
        ⟨req, res, rfl, rfl, hsuccess, hentry, he⟩
      · cases he
      · simp only [Event.accept.injEq] at he
        obtain ⟨rfl, rfl, rfl⟩ := he
        have hrpc := soundRpc_of_delivered hrun (mem_of_step hst) hdelivered
        have hstored := (wellFormed hrun hrpc.mem).sound.stored
        have hmatching := matching_of_run hlogs
        rw [termLog_of_silent fun e he => silent_of_served he]
        have hserved := hhandled.served
        generalize (c'.server q).metadata = md at hserved
        cases hserved with
        | log hfree hvalid hanswer =>
            obtain ⟨hterm, hlen, hpre⟩ := (getLogResponse_cases hstored hanswer).accepted hstored
              (hmatching.logs q hrpc.mem) (hmatching.terms _)
              (hmatching.delivered hlogs hst hdelivered) hrpc.2.prefix_nonneg
              (hok.fresh.le hdelivered) (hok.honest.not hdelivered) hentry hsuccess
            rw [hterm]
            exact ⟨hlen, hpre⟩

/-- A slot of a leader is held by its owner. -/
theorem slot_held (hrun : (system cfg).Run KeepsAcks c tr) (hs : s ∈ cfg.ids)
    (hleader : (c.server s).metadata.status = .leader) {ack : List ℤ}
    (hack : (c.server s).metadata.ackLength = some ack) {i : ℕ} {q k : ℤ}
    (hq : (cfg.slots s)[i]? = some q) (hk : ack[i]? = some k) :
    k.toNat ≤ (c.server s).metadata.smrLog.length ∧
      (c.server s).metadata.smrLog.take k.toNat <+: (c.server q).metadata.smrLog := by
  by_cases hzero : k = 0
  · rw [hzero, Int.toNat_zero, List.take_zero]
    exact ⟨Nat.zero_le _, List.nil_prefix⟩
  · have haccept := (counting_of_run hrun hs).slots hleader ack hack i q k hq hk hzero
    rw [(matching_of_run (KeepsAcks.logs hrun)).leading s hs hleader]
    exact held_of_run hrun q _ k haccept

/-- A majority of the slots belongs to a quorum of members. -/
lemma quorum_of_majority {ok : Cluster → Label → Prop} (hrun : (system cfg).Run ok c tr)
    (hs : s ∈ cfg.ids) {ack : List ℤ} (hack : (c.server s).metadata.ackLength = some ack) {k : ℤ}
    (hmajority : Majority ack k) : HasQuorum cfg.ids fun q =>
      ∃ (i : ℕ) (a : ℤ), (cfg.slots s)[i]? = some q ∧ ack[i]? = some a ∧ k ≤ a := by
  have hwf := wellFormed hrun hs
  have hlen : ack.length = (cfg.slots s).length := by
    rw [(hwf.sound.ack ack hack).length, getPeerSize, hwf.placed.neighbors, Config.slots_length]
  refine (HasQuorum.of_slots (Config.slots_nodup hs) (Config.slots_toFinset hs) hlen
    hmajority).mono ?_
  rintro q ⟨i, a, hq, ha, hreaches⟩
  exact ⟨i, a, hq, ha, of_decide_eq_true hreaches⟩

/-- **Ack soundness**, in every run in which logs match and no acknowledgement is false. -/
theorem ack_sound (hrun : (system cfg).Run KeepsAcks c tr) : AcksSound cfg c := by
  intro s hs hleader ack hack node hnode k hk
  have hplaced := (wellFormed hrun hs).placed
  have hslot := Config.slots_peer (hplaced.getElem_slot hnode)
  obtain ⟨hlen, hpre⟩ := slot_held hrun hs hleader hack hslot hk
  have htake : ((c.server s).metadata.smrLog.take k.toNat).length = k.toNat :=
    List.length_take_of_le hlen
  have hle := hpre.length_le
  rw [htake] at hle
  refine ⟨by omega, ?_⟩
  rw [← take_eq_of_isPrefix hpre htake.ge, List.take_take, Nat.min_self]

end Runs

theorem ack_sound_oneUpdate : ∃ c tr, (system three).Run KeepsAcks c tr ∧
    (c.server 0).metadata.status = .leader ∧ (c.server 0).metadata.ackLength = some [1, 1, 1] ∧
    AcksSound three c := by
  obtain ⟨c, tr, hrun, hleader, hack⟩ := run_of_play three KeepsAcks
    (P := fun c _ => (c.server 0).metadata.status = .leader ∧
      (c.server 0).metadata.ackLength = some [1, 1, 1]) oneUpdate (by decide +kernel)
  exact ⟨c, tr, hrun, hleader, hack, ack_sound hrun⟩

/-- Server 0 appends an update as the leader of term 1, and learns from server 1 that term 2 has
begun.  Server 1, its leader, replicates another update to server 0, which acknowledges it and
keeps its own. -/
theorem false_ack : ∃ c tr, (system threeApart).Run TransitionSystem.anyStep c tr ∧
    (c.server 1).metadata.status = .leader ∧ (c.server 1).metadata.ackLength = some [1, 1, 1] ∧
    (c.server 1).metadata.smrLog = [⟨2, 8, 1⟩] ∧ (c.server 0).metadata.smrLog = [⟨1, 7, 1⟩] ∧
    ¬ AcksSound threeApart c := by
  obtain ⟨c, tr, hrun, hplayed⟩ := run_of_play threeApart TransitionSystem.anyStep
    (P := fun c _ => (c.server 1).metadata.status = .leader ∧
      (c.server 1).metadata.ackLength = some [1, 1, 1] ∧
      (c.server 1).metadata.slot ⟨2, 0, "", 0⟩ = 1 ∧
      (c.server 1).metadata.smrLog = [⟨2, 8, 1⟩] ∧ (c.server 0).metadata.smrLog = [⟨1, 7, 1⟩])
    (unawareLeader ++ submit 0 7 1 ++ callLog 0 ++ submit 1 8 1 ++ callLog 1 ++ callLog 1)
    (by decide +kernel)
  obtain ⟨hleader, hack, hslot, hone, hzero⟩ := hplayed
  refine ⟨c, tr, hrun, hleader, hack, hone, hzero, fun hsound => ?_⟩
  have hpeer : (⟨2, 0, "", 0⟩ : ServerNode) ∈ threeApart.peers 1 := by decide
  have hsame := hsound 1 (by decide) hleader _ hack _ hpeer 1 (by rw [hslot]; rfl)
  rw [hone, hzero] at hsame
  simp at hsame

end LaptopRaft
