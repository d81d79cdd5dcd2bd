import LaptopRaft.Properties.Replay
import LaptopRaft.Replication.Termination

/-!
# The indices into the vector and the arrays

The source indexes `smr_log`, `sent_length` and `ack_length` without a bound check.  For every
function that does so, this module lists the indices a call uses (`lastTermReads`,
`logRequestReads`, `logResponseReads`, `entryResponseReads`), and `Cluster.reads` collects them
for a step.

* `reads_in_range`: every index into `smr_log` lies within the vector.  For a follower this rests
  on what its requests are made from: a prefix length within the sender's log, and a heartbeat
  that announces no more than its prefix.
* `slots_in_range`: the arrays are there, with a slot for every index used, except where a
  `LeaderThread` enters `LeaderMaintainLog` on a server that has never been elected.
  `CustomerHandler` queues an update whatever `IsLeader()` has told the client
  (`update_without_arrays`).

That the lists leave nothing out is `logRequestFor_defined` and its companions: a call whose
indices are in range has a result (`ReadsInRange.callsDefined`).
-/

namespace LaptopRaft

open ServerMetadata

/-! ## What a call reads -/

/-- An index into `smr_log`, with the vector at that moment. -/
structure Read where
  log : List MapOp
  idx : ℤ
deriving DecidableEq

def Read.InRange (r : Read) : Prop := 0 ≤ r.idx ∧ r.idx < r.log.length

instance (r : Read) : Decidable r.InRange := inferInstanceAs (Decidable (_ ∧ _))

namespace ServerMetadata

variable (md : ServerMetadata)

/-- `GetLastTerm`. -/
def lastTermReads : List Read :=
  if md.logSize ≠ 0 then [⟨md.smrLog, md.logSize - 1⟩] else []

/-- `GetPrefixTerm`, which calls `GetTermAtIdx`. -/
def prefixTermReads (prefixLength : ℤ) : List Read :=
  if 0 < prefixLength then [⟨md.smrLog, prefixLength - 1⟩] else []

/-- The turn of a peer in `ReplicateLog`: for an entry request the prefix term is read a second
time, then the entry. -/
def logRequestReads (node : ServerNode) : Option (List Read) :=
  (md.sentTo node).map fun prefixLength =>
    if md.logSize = prefixLength then md.prefixTermReads prefixLength
    else md.prefixTermReads prefixLength ++ md.prefixTermReads prefixLength ++
      [⟨md.smrLog, prefixLength⟩]

/-- `can_log` of `GetLogResponse`, which calls `GetTermAtIdx`. -/
def canLogReads (req : LogRequest) : List Read :=
  if req.prefixLength ≤ md.logSize ∧ req.prefixLength ≠ 0 then
    [⟨md.smrLog, req.prefixLength - 1⟩]
  else []

/-- The `ExecuteLog` of `GetLogResponse`, after the append. -/
def executeReads (req : LogRequest) : List Read :=
  if (md.currentTerm = req.currentTerm ∧ md.canLog req = some true) ∧ ¬ md.included req ∧
      md.commitLength < req.commitLength then
    [⟨(md.appended req).smrLog, md.commitLength⟩]
  else []

/-- `GetLogResponse`. -/
def logResponseReads (req : LogRequest) : List Read :=
  (md.adoptLeader req).canLogReads req ++ (md.adoptLeader req).executeReads req

/-- The calls of `ExecuteLog` in `CommitLog`. -/
def commitReads : Option (List Read) :=
  md.commitUntil.map fun found =>
    if found = 0 then []
    else (List.range (found - md.commitLength).toNat).map fun (k : ℕ) =>
      ⟨md.smrLog, md.commitLength + k⟩

/-- The reaction of `ReplicateLog` to the answer of an entry request. -/
def entryResponseReads (node : ServerNode) (res : LogResponse) : Option (List Read) :=
  if res.currentTerm = md.currentTerm ∧ md.status = .leader ∧ res.success ≠ 0 then do
    (md.recordAck node (← md.sentLength) (← md.ackLength) res.ack).commitReads
  else some []

end ServerMetadata

namespace LaptopFactory

variable (f : LaptopFactory)

/-- The next request of `ReplicateLog`. -/
def sendReads : Option (List Read) :=
  match f.metaLock with
  | .replicateLog _ ⟨node :: _, _, _⟩ => f.metadata.logRequestReads node
  | _ => some []

/-- The answer `ReplicateLog` waits for. -/
def recvReads : Option (List Read) :=
  match f.metaLock, f.wire with
  | .replicateLog _ ⟨node :: _, _, _⟩, .response (.log res) =>
      if res.followerId = -1 ∨ f.metadata.sentTo node = some f.metadata.logSize then some []
      else f.metadata.entryResponseReads node res
  | _, _ => some []

/-- A request that is handled. -/
def serveReads : Rpc → List Read
  | .vote _ => f.metadata.lastTermReads
  | .log req => f.metadata.logResponseReads req

end LaptopFactory

/-- The indices into `smr_log` a step uses, `none` if one of them comes from an array that is not
there. -/
def Cluster.reads (c : Cluster) (l : Label) : Option (List Read) :=
  match c.delivered l with
  | some (p, rpc) => some ((c.server p).serveReads rpc)
  | none =>
      match l with
      | .sendRequestVote s => some (c.server s).metadata.lastTermReads
      | .sendLogRequest s => (c.server s).sendReads
      | .recvLogResponse s => (c.server s).recvReads
      | _ => some []

/-- The indices are known and lie within the vector. -/
def ReadsInRange (reads : Option (List Read)) : Prop :=
  ∃ rs, reads = some rs ∧ ∀ r ∈ rs, r.InRange

/-! ## The lists are complete -/

namespace ServerMetadata

variable {md : ServerMetadata}

lemma getOp_of_inRange {i : ℤ} (h : Read.InRange ⟨md.smrLog, i⟩) : ∃ op, md.getOp i = some op := by
  obtain ⟨hnonneg, hlt⟩ : 0 ≤ i ∧ i < md.smrLog.length := h
  have hin : i.toNat < md.smrLog.length := by omega
  rw [getOp, if_neg (not_lt.2 hnonneg), List.getElem?_eq_getElem hin]
  exact ⟨_, rfl⟩

lemma getTermAtIdx_of_inRange {i : ℤ} (h : Read.InRange ⟨md.smrLog, i⟩) :
    ∃ t, md.getTermAtIdx i = some t := by
  obtain ⟨op, hop⟩ := getOp_of_inRange h
  rw [getOp, if_neg (not_lt.2 h.1)] at hop
  rw [getTermAtIdx, if_neg (not_lt.2 h.1), hop]
  exact ⟨_, rfl⟩

lemma getLastTerm_defined (h : ∀ r ∈ md.lastTermReads, r.InRange) :
    ∃ t, md.getLastTerm = some t := by
  unfold getLastTerm
  split
  · rename_i hsize
    obtain ⟨op, hop⟩ := getOp_of_inRange
      (h ⟨md.smrLog, md.logSize - 1⟩ (by simp [lastTermReads, hsize]))
    exact ⟨op.term, by rw [hop]; rfl⟩
  · exact ⟨0, rfl⟩

lemma getPrefixTerm_defined {p : ℤ} (h : ∀ r ∈ md.prefixTermReads p, r.InRange) :
    ∃ t, md.getPrefixTerm p = some t := by
  unfold getPrefixTerm
  split
  · rename_i hpos
    exact getTermAtIdx_of_inRange (h ⟨md.smrLog, p - 1⟩ (by simp [prefixTermReads, hpos]))
  · exact ⟨0, rfl⟩

/-- A call whose indices are in range has a result: the message of `ReplicateLog`. -/
theorem logRequestFor_defined {node : ServerNode} (h : ReadsInRange (md.logRequestReads node)) :
    ∃ req, md.logRequestFor node = some req := by
  obtain ⟨rs, hrs, hin⟩ := h
  obtain ⟨p, hp, rfl⟩ := Option.map_eq_some_iff.1 hrs
  have hterm : ∀ r ∈ md.prefixTermReads p, r.InRange := by
    intro r hr
    apply hin
    split
    · exact hr
    · exact List.mem_append_left _ (List.mem_append_left _ hr)
  obtain ⟨t, ht⟩ := getPrefixTerm_defined hterm
  simp only [logRequestFor, hp, ht, Option.bind_eq_bind, Option.bind_some]
  split
  · exact ⟨_, rfl⟩
  · rename_i hsize
    obtain ⟨op, hop⟩ := getOp_of_inRange (hin ⟨md.smrLog, p⟩ (by simp [hsize]))
    rw [hop]
    exact ⟨_, rfl⟩

/-- The answer of a follower. -/
theorem getLogResponse_defined {req : LogRequest}
    (h : ∀ r ∈ md.logResponseReads req, r.InRange) : ∃ p, md.getLogResponse req = some p := by
  have hcanReads := fun r hr => h r (List.mem_append_left _ hr)
  have hexecuteReads := fun r hr => h r (List.mem_append_right _ hr)
  have hcan : ∃ can, (md.adoptLeader req).canLog req = some can := by
    unfold canLog
    split
    · rename_i hle
      split
      · exact ⟨true, rfl⟩
      · rename_i hpos
        obtain ⟨t, ht⟩ := getTermAtIdx_of_inRange
          (hcanReads ⟨(md.adoptLeader req).smrLog, req.prefixLength - 1⟩
            (by simpa [canLogReads, hpos] using hle))
        rw [ht]
        exact ⟨_, rfl⟩
    · exact ⟨false, rfl⟩
  obtain ⟨can, hcan⟩ := hcan
  rw [getLogResponse, hcan, Option.bind_eq_bind, Option.bind_some]
  split
  · rename_i hyes
    rw [hyes.2] at hcan
    split
    · exact ⟨_, rfl⟩
    · rename_i hnot
      have happend : ∃ md', (md.adoptLeader req).appendEntry req = some md' := by
        rw [appendEntry, if_neg hnot, Option.bind_eq_bind, Option.bind_some]
        change ∃ md', (if ((md.adoptLeader req).appended req).commitLength < req.commitLength then
          ((md.adoptLeader req).appended req).executeLog
            ((md.adoptLeader req).appended req).commitLength
          else some ((md.adoptLeader req).appended req)) = some md'
        have hcommit : ((md.adoptLeader req).appended req).commitLength =
            (md.adoptLeader req).commitLength := by rw [appended_eq]
        split
        · rename_i hbehind
          rw [hcommit] at hbehind ⊢
          obtain ⟨op, hop⟩ := getOp_of_inRange (hexecuteReads
            ⟨((md.adoptLeader req).appended req).smrLog, (md.adoptLeader req).commitLength⟩
            (by rw [executeReads, if_pos ⟨⟨hyes.1, hcan⟩, hnot, hbehind⟩, List.mem_singleton]))
          rw [executeLog, hop]
          exact ⟨_, rfl⟩
        · exact ⟨_, rfl⟩
      obtain ⟨md', hmd'⟩ := happend
      rw [hmd']
      exact ⟨_, rfl⟩
  · exact ⟨_, rfl⟩

/-- The leader's commit. -/
theorem commitLog_defined (h : ReadsInRange md.commitReads) : ∃ md', md.commitLog = some md' := by
  obtain ⟨rs, hrs, hin⟩ := h
  obtain ⟨found, hfound, rfl⟩ := Option.map_eq_some_iff.1 hrs
  rw [commitLog, hfound, Option.bind_eq_bind, Option.bind_some]
  split
  · exact ⟨md, rfl⟩
  · rename_i hne
    rw [if_neg hne] at hin
    -- no pass changes the vector
    have hpass : ∀ k < (found - md.commitLength).toNat, ∀ m : ServerMetadata,
        m.smrLog = md.smrLog → ∃ m', m.executeLog (md.commitLength + k) = some m' ∧
          m'.smrLog = md.smrLog := by
      intro k hk m hlog
      have hread := hin ⟨md.smrLog, md.commitLength + k⟩
        (List.mem_map.2 ⟨k, List.mem_range.2 hk, rfl⟩)
      rw [← hlog] at hread
      obtain ⟨op, hop⟩ := getOp_of_inRange hread
      rw [executeLog, hop]
      exact ⟨_, rfl, hlog⟩
    obtain ⟨md₁, hloop, -⟩ := foldlM_range_total
      (I := fun (_ : ℕ) (m : ServerMetadata) => m.smrLog = md.smrLog) rfl hpass
    change ∃ md', ((List.range (found - md.commitLength).toNat).foldlM
      (fun (m : ServerMetadata) (k : ℕ) => m.executeLog (md.commitLength + k)) md).bind
        (fun m => some { m with commitLength := found }) = some md'
    rw [hloop]
    exact ⟨_, rfl⟩

end ServerMetadata

namespace LaptopFactory

variable (f : LaptopFactory)

/-- `ReplicateLog` has its next request to send. -/
def SendDefined : Prop :=
  match f.metaLock with
  | .replicateLog _ ⟨node :: _, _, _⟩ => (f.metadata.logRequestFor node).isSome
  | _ => True

/-- `CommitLog` has a result, when the answer is one it is called for. -/
def RecvDefined : Prop :=
  match f.metaLock, f.wire with
  | .replicateLog _ ⟨node :: _, _, _⟩, .response (.log res) =>
      ¬ (res.followerId = -1 ∨ f.metadata.sentTo node = some f.metadata.logSize) →
        res.currentTerm = f.metadata.currentTerm ∧ f.metadata.status = .leader ∧
          res.success ≠ 0 →
        ∃ sent ack, f.metadata.sentLength = some sent ∧ f.metadata.ackLength = some ack ∧
          ((f.metadata.recordAck node sent ack res.ack).commitLog).isSome
  | _, _ => True

/-- A handler has its answer. -/
def ServeDefined : Rpc → Prop
  | .vote msg => (f.metadata.getVoteResponse msg).isSome
  | .log req => (f.metadata.getLogResponse req).isSome

end LaptopFactory

/-- The calls of a step that index `smr_log` have results. -/
def Cluster.CallsDefined (c : Cluster) (l : Label) : Prop :=
  match c.delivered l with
  | some (p, rpc) => (c.server p).ServeDefined rpc
  | none =>
      match l with
      | .sendRequestVote s => (c.server s).metadata.sendRequestVote.isSome
      | .sendLogRequest s => (c.server s).SendDefined
      | .recvLogResponse s => (c.server s).RecvDefined
      | _ => True

section Defined

variable {f : LaptopFactory} {c : Cluster} {l : Label}

lemma ReadsInRange.of_some {rs : List Read} (h : ReadsInRange (some rs)) : ∀ r ∈ rs, r.InRange := by
  obtain ⟨_, ⟨⟩, hin⟩ := h
  exact hin

lemma LaptopFactory.sendDefined (h : ReadsInRange f.sendReads) : f.SendDefined := by
  unfold LaptopFactory.sendReads at h
  unfold LaptopFactory.SendDefined
  split at h
  · obtain ⟨req, hreq⟩ := logRequestFor_defined h
    rw [hreq]
    rfl
  · trivial

lemma LaptopFactory.recvDefined (h : ReadsInRange f.recvReads) : f.RecvDefined := by
  unfold LaptopFactory.recvReads at h
  unfold LaptopFactory.RecvDefined
  split at h
  · intro hlooked hacked
    rw [if_neg hlooked, ServerMetadata.entryResponseReads, if_pos hacked] at h
    obtain ⟨rs, hrs, hin⟩ := h
    obtain ⟨sent, hsent, hrs⟩ := Option.bind_eq_some_iff.1 hrs
    obtain ⟨ack, hack, hrs⟩ := Option.bind_eq_some_iff.1 hrs
    obtain ⟨md, hmd⟩ := commitLog_defined ⟨rs, hrs, hin⟩
    exact ⟨sent, ack, hsent, hack, by rw [hmd]; rfl⟩
  · trivial

lemma LaptopFactory.serveDefined {rpc : Rpc} (h : ∀ r ∈ f.serveReads rpc, r.InRange) :
    f.ServeDefined rpc := by
  cases rpc with
  | vote msg =>
      obtain ⟨t, ht⟩ := getLastTerm_defined h
      rw [ServeDefined, getVoteResponse, ht]
      rfl
  | log req =>
      obtain ⟨p, hp⟩ := getLogResponse_defined h
      rw [ServeDefined, hp]
      rfl

/-- **The lists are complete**: a step whose indices are in range has its results. -/
theorem ReadsInRange.callsDefined (h : ReadsInRange (c.reads l)) : c.CallsDefined l := by
  unfold Cluster.reads at h
  unfold Cluster.CallsDefined
  cases hdelivered : c.delivered l with
  | some request =>
      rw [hdelivered] at h
      exact LaptopFactory.serveDefined h.of_some
  | none =>
      rw [hdelivered] at h
      cases l with
      | sendRequestVote s =>
          obtain ⟨t, ht⟩ := getLastTerm_defined h.of_some
          change (ServerMetadata.sendRequestVote _).isSome
          rw [ServerMetadata.sendRequestVote, ht]
          rfl
      | sendLogRequest s => exact LaptopFactory.sendDefined h
      | recvLogResponse s => exact LaptopFactory.recvDefined h
      | _ => trivial

end Defined

/-! ## The indices into the log -/

section Reads

variable {md : ServerMetadata}

lemma inRange_smrLog (h : Sized md) {i : ℤ} (hnonneg : 0 ≤ i) (hlt : i < md.logSize) :
    Read.InRange ⟨md.smrLog, i⟩ := by
  refine ⟨hnonneg, ?_⟩
  change i < md.smrLog.length
  rw [← h.logSize]
  exact hlt

lemma lastTermReads_inRange (h : Sized md) : ∀ r ∈ md.lastTermReads, r.InRange := by
  intro r hr
  have hnonneg := h.commit_nonneg.trans h.commit_le
  unfold lastTermReads at hr
  split at hr
  · rw [List.mem_singleton.1 hr]
    exact inRange_smrLog h (by omega) (by omega)
  · cases hr

lemma prefixTermReads_inRange (h : Sized md) {p : ℤ} (hle : p ≤ md.logSize) :
    ∀ r ∈ md.prefixTermReads p, r.InRange := by
  intro r hr
  unfold prefixTermReads at hr
  split at hr
  · rw [List.mem_singleton.1 hr]
    exact inRange_smrLog h (by omega) (by omega)
  · cases hr

/-- What has been sent to a peer is within the leader's log. -/
lemma logRequestReads_inRange (h : Sound md) {node : ServerNode} {p : ℤ}
    (hp : md.sentTo node = some p) : ReadsInRange (md.logRequestReads node) := by
  have hsized := h.stored.sized
  obtain ⟨sent, hsent, hget⟩ := sentTo_eq_some.1 hp
  obtain ⟨hnonneg, hle⟩ := (h.sent sent hsent).bounds p (List.mem_of_getElem? hget)
  have hterm := prefixTermReads_inRange hsized hle
  refine ⟨_, by rw [logRequestReads, hp, Option.map_some], fun r hr => ?_⟩
  split at hr
  · exact hterm r hr
  · rename_i hsize
    rcases List.mem_append.1 hr with hbefore | hentry
    · exact (List.mem_append.1 hbefore).elim (hterm r) (hterm r)
    · rw [List.mem_singleton.1 hentry]
      exact inRange_smrLog hsized hnonneg (lt_of_le_of_ne hle (Ne.symm hsize))

/-- A follower looks at the end of a prefix it has, and executes an entry it has: a heartbeat
announces no commit beyond its prefix, and any other request brings an entry. -/
lemma logResponseReads_inRange (h : Sized md) {req : LogRequest} (hreq : SoundRequest req) :
    ∀ r ∈ md.logResponseReads req, r.InRange := by
  have hadopt : Sized (md.adoptLeader req) :=
    h.of_same (adoptLeader_smrLog md req) (adoptLeader_logSize md req)
      (adoptLeader_commitLength md req)
  have hterm := hreq.prefix_nonneg
  intro r hr
  rcases List.mem_append.1 hr with hcan | hexecute
  · unfold canLogReads at hcan
    split at hcan
    · rename_i hreads
      rw [List.mem_singleton.1 hcan]
      exact inRange_smrLog hadopt (by omega) (by omega)
    · cases hcan
  · unfold executeReads at hexecute
    split at hexecute
    · rename_i hreads
      obtain ⟨⟨-, hcan⟩, hnot, hbehind⟩ := hreads
      have hle := (canLog_eq_true.1 hcan).1
      have hcommit := hadopt.commit_nonneg
      have hwithin := hadopt.commit_le
      have hsize := hadopt.logSize
      rw [List.mem_singleton.1 hexecute]
      refine ⟨hcommit, ?_⟩
      change (md.adoptLeader req).commitLength < ((md.adoptLeader req).appended req).smrLog.length
      rw [appended_smrLog]
      by_cases hbeat : req.opTerm = -1
      · have hannounced := hreq.heartbeat hbeat
        rw [List.length_append]
        omega
      · rw [if_pos hbeat, List.length_append, List.length_singleton]
        omega
    · cases hexecute

/-- The leader executes what a majority has, up to the end of its log. -/
lemma commitReads_inRange (h : Sized md) {ack : List ℤ} (hack : md.ackLength = some ack)
    (hlen : ack.length = md.getPeerSize + 1) : ReadsInRange md.commitReads := by
  obtain ⟨md', hmd', -⟩ := h.commitLog_isSome hack hlen
  rw [commitLog, Option.bind_eq_bind, Option.bind_eq_some_iff] at hmd'
  obtain ⟨found, hfound, -⟩ := hmd'
  have hnonneg := h.commit_nonneg
  refine ⟨_, by rw [commitReads, hfound, Option.map_some], fun r hr => ?_⟩
  split at hr
  · cases hr
  · rename_i hne
    obtain ⟨hge, hle, -⟩ := (commitUntil_spec hack hlen hfound).1.resolve_left hne
    obtain ⟨k, hk, rfl⟩ := List.mem_map.1 hr
    rw [List.mem_range] at hk
    exact inRange_smrLog h (by omega) (by omega)

lemma entryResponseReads_inRange (h : Sound md) {node : ServerNode} {p : ℤ}
    (hp : md.sentTo node = some p) (res : LogResponse) :
    ReadsInRange (md.entryResponseReads node res) := by
  obtain ⟨sent, hsent, -⟩ := sentTo_eq_some.1 hp
  have halloc := h.allocated
  rw [hsent, Option.isSome_some] at halloc
  obtain ⟨ack, hack⟩ := Option.isSome_iff_exists.1 halloc.symm
  unfold entryResponseReads
  split
  · simp only [hsent, hack, Option.bind_eq_bind, Option.bind_some]
    have hsized : Sized (md.recordAck node sent ack res.ack) :=
      h.stored.sized.of_same rfl rfl rfl
    refine commitReads_inRange hsized rfl ?_
    rw [List.length_set]
    exact (h.ack ack hack).length
  · exact ⟨[], rfl, fun r hr => absurd hr List.not_mem_nil⟩

lemma readsInRange_nil : ReadsInRange (some []) :=
  ⟨[], rfl, fun _ hr => absurd hr List.not_mem_nil⟩

end Reads

section Runs

variable {cfg : Config} {ok : Cluster → Label → Prop} {c : Cluster} {tr : List Event} {s : ℤ}

/-- A server inside `ReplicateLog` has the position of the peer at hand. -/
lemma sentTo_of_loop (hrun : (system cfg).Run ok c tr) (hs : s ∈ cfg.ids) {caller : Caller}
    {node : ServerNode} {rest new : List ServerNode} {change : ℕ}
    (hlock : (c.server s).metaLock = .replicateLog caller ⟨node :: rest, new, change⟩) :
    ∃ p, (c.server s).metadata.sentTo node = some p := by
  have hwf := wellFormed hrun hs
  have hreplicating : (c.server s).Replicating := by simp [LaptopFactory.Replicating, hlock]
  obtain ⟨sent, hsent⟩ := Option.isSome_iff_exists.1 ((allocated_of_run hrun hs).loop hreplicating)
  have hnode := hwf.placed.visiting node (mem_nodes hlock)
  obtain ⟨hslot, -⟩ := List.getElem?_eq_some_iff.1 (hwf.placed.getElem_slot hnode)
  have hlength := (hwf.sound.sent sent hsent).length
  have hpeers : (c.server s).metadata.getPeerSize = (cfg.peers s).length := by
    rw [getPeerSize, hwf.placed.neighbors]
  have hin : (c.server s).metadata.slot node < sent.length := by omega
  exact ⟨_, sentTo_eq_some.2 ⟨sent, hsent, List.getElem?_eq_getElem hin⟩⟩

lemma readsInRange_of_run (hrun : (system cfg).Run ok c tr) (l : Label)
    (hactor : ∀ s ∈ l.actor, s ∈ cfg.ids) : ReadsInRange (c.reads l) := by
  unfold Cluster.reads
  cases hdelivered : c.delivered l with
  | some request =>
      obtain ⟨p, rpc⟩ := request
      have hrpc := soundRpc_of_delivered hrun hactor hdelivered
      have hsized := (wellFormed hrun hrpc.mem).sound.stored.sized
      refine ⟨_, rfl, ?_⟩
      cases rpc with
      | vote msg => exact lastTermReads_inRange hsized
      | log req => exact logResponseReads_inRange hsized hrpc.2
  | none =>
      dsimp only
      split
      · rename_i s
        exact ⟨_, rfl, lastTermReads_inRange (wellFormed hrun (hactor s rfl)).sound.stored.sized⟩
      · rename_i s
        unfold LaptopFactory.sendReads
        split
        · rename_i hlock
          obtain ⟨p, hp⟩ := sentTo_of_loop hrun (hactor s rfl) hlock
          exact logRequestReads_inRange (wellFormed hrun (hactor s rfl)).sound hp
        · exact readsInRange_nil
      · rename_i s
        unfold LaptopFactory.recvReads
        split
        · rename_i hlock hwire
          split
          · exact readsInRange_nil
          · obtain ⟨p, hp⟩ := sentTo_of_loop hrun (hactor s rfl) hlock
            exact entryResponseReads_inRange (wellFormed hrun (hactor s rfl)).sound hp _
        · exact readsInRange_nil
      · exact readsInRange_nil

/-- **Log indices stay in range**: every step of every thread of a member uses indices into
`smr_log` that lie within it, and what it computes from them is defined. -/
theorem reads_in_range (hrun : (system cfg).Run ArraysAllocated c tr) (l : Label)
    (hactor : ∀ s ∈ l.actor, s ∈ cfg.ids) : ReadsInRange (c.reads l) ∧ c.CallsDefined l := by
  have hreads := readsInRange_of_run hrun l hactor
  exact ⟨hreads, hreads.callsDefined⟩

end Runs

/-- The leader reads the entry it sends first, behind an empty prefix. -/
theorem reads_in_range_oneUpdate : ∃ c tr, (system three).Run ArraysAllocated c tr ∧
    c.reads (.sendLogRequest 0) = some [⟨[⟨1, 7, 1⟩], 0⟩] ∧
    ReadsInRange (c.reads (.sendLogRequest 0)) ∧ c.CallsDefined (.sendLogRequest 0) := by
  obtain ⟨c, tr, hrun, hreads⟩ := run_of_play three ArraysAllocated
    (P := fun c _ => c.reads (.sendLogRequest 0) = some [⟨[⟨1, 7, 1⟩], 0⟩])
    (stand 0 ++ callVote 0 ++ submit 0 7 1) (by decide +kernel)
  exact ⟨c, tr, hrun, hreads, reads_in_range hrun _ (by decide)⟩

/-! ## The slots of the arrays -/

namespace LaptopFactory

variable (f : LaptopFactory)

/-- The slot of the peer `ReplicateLog` is at, in `sent_length` and `CleanNodeState`. -/
def calleeSlot : List ℕ :=
  match f.metaLock with
  | .replicateLog _ ⟨node :: _, _, _⟩ => [f.metadata.slot node]
  | _ => []

/-- The slots `CommitLog` counts, when the answer is one it is called for. -/
def commitSlots : List ℕ :=
  match f.metaLock, f.wire with
  | .replicateLog _ ⟨node :: _, _, _⟩, .response (.log res) =>
      if (res.followerId ≠ -1 ∧ f.metadata.sentTo node ≠ some f.metadata.logSize) ∧
          res.currentTerm = f.metadata.currentTerm ∧ f.metadata.status = .leader ∧
          res.success ≠ 0 then
        List.range (f.metadata.getPeerSize + 1)
      else []
  | _, _ => []

end LaptopFactory

/-- The slots of `sent_length` and `ack_length` a step uses. -/
def Cluster.slots (c : Cluster) : Label → List ℕ
  | .leaderMaintainLog s i _ =>
      -- `SetAckLength(-1, ..)`
      if (c.server s).metaLock = .free ∧ ((c.server s).leaderThread i).isSome then
        [(c.server s).metadata.getPeerSize]
      else []
  | .sendLogRequest s | .logLinkFails s => (c.server s).calleeSlot
  | .recvLogResponse s => (c.server s).calleeSlot ++ (c.server s).commitSlots
  | _ => []

/-- `InitLeader` has run on `s`, and both arrays have `peers + 1` elements. -/
structure ArraysReady (c : Cluster) (tr : List Event) (s : ℤ) : Prop where
  elected : ∃ t log, .initLeader s t log ∈ tr
  sent : ∃ xs, (c.server s).metadata.sentLength = some xs ∧
    xs.length = (c.server s).metadata.getPeerSize + 1
  ack : ∃ xs, (c.server s).metadata.ackLength = some xs ∧
    xs.length = (c.server s).metadata.getPeerSize + 1

/-- The server that takes the step has the arrays if it uses a slot of them, and the slot is within
them. -/
def SlotsInRange (c : Cluster) (tr : List Event) (l : Label) : Prop :=
  ∀ s ∈ l.actor, ∀ k ∈ c.slots l, ArraysReady c tr s ∧ k < (c.server s).metadata.getPeerSize + 1

/-- A `LeaderThread` that holds a request enters `LeaderMaintainLog` only where `InitLeader` has
allocated `sent_length`. -/
def EntersWhenElected (c : Cluster) : Label → Prop
  | .leaderMaintainLog s i _ => (c.server s).metaLock = .free →
      ((c.server s).leaderThread i).isSome → (c.server s).metadata.sentLength.isSome
  | _ => True

instance (c : Cluster) (l : Label) : Decidable (EntersWhenElected c l) := by
  induction l using Label.casesOn <;> dsimp only [EntersWhenElected] <;> infer_instance

/-- Whoever has the arrays has been elected. -/
def Equipped (s : ℤ) (f : LaptopFactory) (tr : List Event) : Prop :=
  f.metadata.sentLength.isSome → ∃ t log, .initLeader s t log ∈ tr

section Slots

variable {cfg : Config} {s : ℤ} {f f' : LaptopFactory} {tr es : List Event} {l : Label}

lemma Equipped.of_same (h : Equipped s f tr)
    (hsent : f'.metadata.sentLength.isSome = f.metadata.sentLength.isSome) :
    Equipped s f' (tr ++ es) := by
  intro hsome
  obtain ⟨t, log, helected⟩ := h (hsent ▸ hsome)
  exact ⟨t, log, List.mem_append_left es helected⟩

lemma ThreadStep.equipped (hwf : WellFormed cfg s f) (hstep : ThreadStep s f l f' es)
    (h : Equipped s f tr) : Equipped s f' (tr ++ es) := by
  cases hstep with
  | readStatus | rest | timeOut | stand | askVote | countVote | ignoreVote | outvoted | endVote
  | queue | maintain | replicate | sendLog | heartbeatAnswered | nextRound =>
      exact h.of_same rfl
  | elected => exact fun _ => ⟨_, _, List.mem_append_right tr (List.mem_singleton.2 rfl)⟩
  | fail hlock hlabel hfail =>
      obtain ⟨ack, sent, -, hsent, -, -, rfl⟩ := failNode_cases hfail
      exact h.of_same (by rw [hsent]; rfl)
  | entryAnswered hlock hwire hsent hreact =>
      obtain ⟨k, hk, -⟩ := hwf.flow.sent hlock hwire
      obtain ⟨⟨k', hk', -⟩, -⟩ := hreact.sent hk
      obtain ⟨before, hbefore, -⟩ := sentTo_eq_some.1 hk
      obtain ⟨after, hafter, -⟩ := sentTo_eq_some.1 hk'
      exact h.of_same (by rw [hbefore, hafter]; rfl)
  | deposed | «return» =>
      exact h.of_same (congrArg (·.sentLength.isSome) (LaptopFactory.returnTo_metadata _ _))

end Slots

section SlotRuns

variable {cfg : Config} {ok : Cluster → Label → Prop} {c : Cluster} {tr : List Event} {s : ℤ}
  {l : Label}

theorem equipped_of_run (hrun : (system cfg).Run ok c tr) (hs : s ∈ cfg.ids) :
    Equipped s (c.server s) tr := by
  refine run_forall_server (P := fun s f tr => s ∈ cfg.ids → Equipped s f tr)
    ?_ ?_ ?_ ?_ ?_ hrun s hs
  · intro connects s _
    obtain ⟨index, heq, -⟩ := bootMetadata_eq cfg connects s
    have hmetadata : ((boot cfg connects).server s).metadata = _ := heq
    rw [Equipped, hmetadata]
    nofun
  · exact fun s f tr es _ h hs => (h hs).of_same rfl
  · exact fun c tr l s f es hrun _ hs hstep h _ => hstep.equipped (wellFormed hrun hs) (h hs)
  · exact fun c tr l p rpc md reply _ _ _ hserved h hp =>
      (h hp).of_same (by rw [hserved.sentLength])
  · exact fun c tr s node rpc md reply _ _ _ _ h hs => h hs

/-- Whoever has one array is ready. -/
lemma arraysReady (hrun : (system cfg).Run ok c tr) (hs : s ∈ cfg.ids)
    (hsome : (c.server s).metadata.sentLength.isSome) : ArraysReady c tr s := by
  have hsound := (wellFormed hrun hs).sound
  obtain ⟨sent, hsent⟩ := Option.isSome_iff_exists.1 hsome
  rw [hsound.allocated] at hsome
  obtain ⟨ack, hack⟩ := Option.isSome_iff_exists.1 hsome
  exact ⟨equipped_of_run hrun hs (by rw [hsent]; rfl),
    ⟨sent, hsent, (hsound.sent sent hsent).length⟩, ⟨ack, hack, (hsound.ack ack hack).length⟩⟩

/-- The peer at hand has a slot. -/
lemma calleeSlot_ready (hrun : (system cfg).Run ok c tr) (hs : s ∈ cfg.ids) {k : ℕ}
    (hk : k ∈ (c.server s).calleeSlot) :
    ArraysReady c tr s ∧ k < (c.server s).metadata.getPeerSize + 1 := by
  unfold LaptopFactory.calleeSlot at hk
  split at hk
  · rename_i hlock
    obtain ⟨p, hp⟩ := sentTo_of_loop hrun hs hlock
    obtain ⟨sent, hsent, hget⟩ := sentTo_eq_some.1 hp
    obtain ⟨hslot, -⟩ := List.getElem?_eq_some_iff.1 hget
    have hlength := ((wellFormed hrun hs).sound.sent sent hsent).length
    rw [List.mem_singleton.1 hk]
    exact ⟨arraysReady hrun hs (by rw [hsent]; rfl), by omega⟩
  · cases hk

/-- `CommitLog` runs inside `ReplicateLog`. -/
lemma commitSlots_ready (hrun : (system cfg).Run ok c tr) (hs : s ∈ cfg.ids)
    {k : ℕ} (hk : k ∈ (c.server s).commitSlots) :
    ArraysReady c tr s ∧ k < (c.server s).metadata.getPeerSize + 1 := by
  unfold LaptopFactory.commitSlots at hk
  split at hk
  · rename_i hlock hwire
    split at hk
    · obtain ⟨p, hp⟩ := sentTo_of_loop hrun hs hlock
      obtain ⟨sent, hsent, -⟩ := sentTo_eq_some.1 hp
      exact ⟨arraysReady hrun hs (by rw [hsent]; rfl), List.mem_range.1 hk⟩
    · cases hk
  · cases hk

/-- **Replication arrays exist when used**, after any run and by any step, except where a
`LeaderThread` enters `LeaderMaintainLog` on a server that has never been elected. -/
theorem slots_in_range (hrun : (system cfg).Run ok c tr) (hactor : ∀ s ∈ l.actor, s ∈ cfg.ids) :
    SlotsInRange c tr l ↔ EntersWhenElected c l := by
  cases l with
  | leaderMaintainLog q i accepts =>
      constructor
      · intro hrange hfree hholds
        have hslots : (c.server q).metadata.getPeerSize ∈
            c.slots (.leaderMaintainLog q i accepts) := by
          rw [Cluster.slots, if_pos ⟨hfree, hholds⟩, List.mem_singleton]
        obtain ⟨⟨-, ⟨sent, hsent, -⟩, -⟩, -⟩ := hrange q rfl _ hslots
        rw [hsent]
        rfl
      · rintro helected _ ⟨⟩ k hk
        simp only [Cluster.slots] at hk
        split at hk
        · rename_i hholds
          rw [List.mem_singleton.1 hk]
          exact ⟨arraysReady hrun (hactor q rfl) (helected hholds.1 hholds.2), by omega⟩
        · cases hk
  | sendLogRequest q | logLinkFails q =>
      refine iff_of_true ?_ trivial
      rintro _ ⟨⟩ k hk
      exact calleeSlot_ready hrun (hactor q rfl) hk
  | recvLogResponse q =>
      refine iff_of_true ?_ trivial
      rintro _ ⟨⟩ k hk
      exact (List.mem_append.1 hk).elim (calleeSlot_ready hrun (hactor q rfl))
        (commitSlots_ready hrun (hactor q rfl))
  | _ => exact iff_of_true (fun _ _ _ hk => nomatch hk) trivial

end SlotRuns

theorem slots_in_range_oneUpdate : ∃ c tr,
    (system three).Run TransitionSystem.anyStep c tr ∧
    c.slots (.leaderMaintainLog 0 0 []) = [2] ∧ SlotsInRange c tr (.leaderMaintainLog 0 0 []) := by
  obtain ⟨c, tr, hrun, hslots, helected⟩ := run_of_play three TransitionSystem.anyStep
    (P := fun c _ => c.slots (.leaderMaintainLog 0 0 []) = [2] ∧
      EntersWhenElected c (.leaderMaintainLog 0 0 []))
    (stand 0 ++ callVote 0 ++ [.createLaptop 0 0 ⟨7, 1, 1⟩, .dequeue 0 0]) (by decide +kernel)
  exact ⟨c, tr, hrun, hslots, (slots_in_range hrun (by rintro _ ⟨⟩; decide)).2 helected⟩

/-- A client's update reaches server 1, where nobody has ever been elected. -/
theorem update_without_arrays : ∃ c tr, (system three).Run TransitionSystem.anyStep c tr ∧
    c.slots (.leaderMaintainLog 1 0 []) = [2] ∧ (c.server 1).metadata.ackLength = none ∧
    ¬ SlotsInRange c tr (.leaderMaintainLog 1 0 []) := by
  obtain ⟨c, tr, hrun, hslots, hnone⟩ := run_of_play three TransitionSystem.anyStep
    (P := fun c _ => c.slots (.leaderMaintainLog 1 0 []) = [2] ∧
      (c.server 1).metadata.ackLength = none)
    [.createLaptop 1 0 ⟨7, 1, 1⟩, .dequeue 1 0] (by decide +kernel)
  refine ⟨c, tr, hrun, hslots, hnone, fun hinRange => ?_⟩
  obtain ⟨⟨-, -, ack, hack, -⟩, -⟩ := hinRange 1 rfl 2 (by simp [hslots])
  rw [hnone] at hack
  cases hack

end LaptopRaft
