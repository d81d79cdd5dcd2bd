import LaptopRaft.Framework.Replicas
import LaptopRaft.Replication.Agreement

/-!
# What customers read

A read request is answered by whatever server gets it, leader or not, from its own
`customer_record`, and without `meta_lock`.  So a read may fall between the `ExecuteLog`s of one
commit, which a step of the cluster takes all at once.  `readable` is the cluster with its
`ExecuteLog`s one by one, and with customers who read in between.  A read that overlaps an
`ExecuteLog` is left out: the two race for the `std::map`, and what comes of it is undefined.

Under the conditions of state machine safety this is all that customers see of the cluster: one
history of updates, of which every server has applied a beginning.  `reads_refine` says so as a
refinement: the cluster with readers is simulated by `replicas` (`Framework/Replicas`), and the same
answers are given.  The history is the longest list of entries that some member has committed; a
majority of the logs begins with it (`OneHistory.chosen`).  `reads_of_one_history` says what that
means for the answers: stale ones are possible, but each is the state after some beginning of the
history, and at one server they do not go back.
-/

namespace LaptopRaft

open ServerMetadata TransitionSystem

/-! ## `ExecuteLog` by `ExecuteLog` -/

/-- How far the `ExecuteLog`s of each server have come: its `commit_length` and its
`customer_record`. -/
structure Records where
  commitLength : ℤ → ℤ := fun _ => 0
  customerRecord : ℤ → ℤ → Option ℤ := fun _ _ => none

/-- The metadata of a server as it is between two `ExecuteLog`s. -/
def shown (p : Cluster × Records) (s : ℤ) : ServerMetadata :=
  { (p.1.server s).metadata with
    commitLength := p.2.commitLength s
    customerRecord := p.2.customerRecord s }

/-- `ReadRecord`. -/
def readRecord (p : Cluster × Records) (s customerId : ℤ) : ℤ := (shown p s).getValue customerId

/-- The next `ExecuteLog` of a commit, if there is one left. -/
def executeNext (p : Cluster × Records) (s : ℤ) : Option Records :=
  if p.2.commitLength s < (p.1.server s).metadata.commitLength then
    ((shown p s).executeLog (p.2.commitLength s)).map fun md =>
      { commitLength := Function.update p.2.commitLength s md.commitLength
        customerRecord := Function.update p.2.customerRecord s md.customerRecord }
  else none

inductive RecordLabel
  | executeLog (s : ℤ)
  /-- A customer reads. -/
  | readRecord (s customerId : ℤ)

def recordTurn (cfg : Config) (p : Cluster × Records) :
    RecordLabel → Option (Records × List (Reading ℤ ℤ ℤ))
  | .executeLog s => if s ∈ cfg.ids then (executeNext p s).map fun r => (r, []) else none
  | .readRecord s customerId =>
      if s ∈ cfg.ids then some (p.2, [⟨s, customerId, readRecord p s customerId⟩]) else none

/-- The server whose `meta_lock` is held in the step. -/
def Cluster.locked (c : Cluster) (l : Label) : Option ℤ :=
  match c.delivered l with
  | some (p, _) => some p
  | none =>
      match l with
      | .readStatus _ | .createLaptop _ _ _ | .dequeue _ _ | .shipLaptop _ _ => none
      | l => l.actor

/-- The step has no `ExecuteLog` to wait for.  `CommitLog` does not let go of the lock before its
last one; that the answer to a request waits for it as well is not asked here. -/
def settled (p : Cluster × Records) (l : Label) : Bool :=
  ∀ s ∈ p.1.locked l, p.2.commitLength s = (p.1.server s).metadata.commitLength

/-- **The cluster with customers who read.** -/
def readable (cfg : Config) :
    TransitionSystem (Cluster × Records) (Label ⊕ RecordLabel) (Event ⊕ Reading ℤ ℤ ℤ) :=
  (system cfg).withCompanion {} settled (recordTurn cfg)

/-- The members have applied beginnings of one history. -/
structure OneHistory (cfg : Config) (p : Cluster × Records) (r : Replicas ℤ MapOp) : Prop where
  stored : ∀ s ∈ cfg.ids, Stored (shown p s)
  behind : ∀ s ∈ cfg.ids, p.2.commitLength s ≤ (p.1.server s).metadata.commitLength
  /-- A replica has applied what `ExecuteLog` has executed. -/
  applied : ∀ s ∈ cfg.ids, r.applied s = (p.2.commitLength s).toNat
  committed : ∀ s ∈ cfg.ids, p.1.executed s <+: r.history
  /-- A majority of the logs begins with it. -/
  chosen : cfg.ids.Nonempty → Chosen cfg.ids p.1.log r.history

section Steps

variable {cfg : Config} {c c' : Cluster} {rs : Records} {p : Cluster × Records}
  {tr es : List Event} {l : Label} {r : Replicas ℤ MapOp} {s : ℤ}

/-- What a replica has applied is what its server shows. -/
lemma OneHistory.view_eq (h : OneHistory cfg p r) (hs : s ∈ cfg.ids) :
    r.view s = (shown p s).smrLog.take (shown p s).commitLength.toNat := by
  have hbehind : (p.2.commitLength s).toNat ≤ (p.1.server s).metadata.commitLength.toNat :=
    Int.toNat_le_toNat (h.behind s hs)
  have hlen : (p.2.commitLength s).toNat ≤ (p.1.log s).length :=
    (h.stored s hs).commit_le_length
  have hin : (p.2.commitLength s).toNat ≤ (p.1.executed s).length := by
    rw [Cluster.executed, List.length_take]
    exact le_min hbehind hlen
  calc r.view s = r.history.take (p.2.commitLength s).toNat := by
        rw [Replicas.view, h.applied s hs]
    _ = (p.1.executed s).take (p.2.commitLength s).toNat :=
        (take_eq_of_isPrefix (h.committed s hs) hin).symm
    _ = (p.1.log s).take (p.2.commitLength s).toNat := by
        rw [Cluster.executed, List.take_take, min_eq_left hbehind]

/-- A history that covers what `q` has committed now: the old one, or if that is too short, what
`q` has committed. -/
lemma OneHistory.covers (h : OneHistory cfg (c, rs) r) (hrun : (system cfg).Run KeepsAcks c tr)
    (hok : KeepsAcks c l) (hst : (system cfg).step c l = some (c', es)) {q : ℤ} (hq : q ∈ cfg.ids) :
    ∃ history, r.history <+: history ∧ c'.executed q <+: history ∧
      Chosen cfg.ids c'.log history := by
  have hexecuted := (agreeing_of_run (.step hrun hok hst)).executed q hq
  have hhistory := (h.chosen ⟨q, hq⟩).mono (log_grows hrun hst)
  rcases hexecuted.comparable hhistory with hpre | hpre
  · exact ⟨_, List.prefix_rfl, hpre, hhistory⟩
  · exact ⟨_, hpre, List.prefix_rfl, hexecuted⟩

/-- What is shown stays right while the log and the commit length grow. -/
lemma shown_stored (hstored : Stored (shown (c, rs) s))
    (hle : rs.commitLength s ≤ (c'.server s).metadata.commitLength)
    (hgrows : Grows (c.server s).metadata (c'.server s).metadata)
    (hafter : Stored (c'.server s).metadata) : Stored (shown (c', rs) s) := by
  refine ⟨hafter.logSize, hstored.commit_nonneg, hle.trans hafter.commit_le, ?_⟩
  refine hstored.record.trans (congrArg replay ?_)
  exact take_eq_of_isPrefix hgrows.smrLog hstored.commit_le_length

/-- A step of the cluster: the history may grow. -/
lemma OneHistory.step (h : OneHistory cfg (c, rs) r) (hrun : (system cfg).Run KeepsAcks c tr)
    (hok : KeepsAcks c l) (hst : (system cfg).step c l = some (c', es))
    (reads : List (Reading ℤ ℤ ℤ)) :
    ∃ r', (replicas lastOrder).Path anyStep (r, reads) (r', reads) ∧
      OneHistory cfg (c', rs) r' := by
  have hrun' : (system cfg).Run KeepsAcks c' (tr ++ es) := .step hrun hok hst
  obtain ⟨q, hq, hothers⟩ := step_others hrun hst
  have hsame : ∀ s, s ≠ q → c'.executed s = c.executed s := by
    intro s hs
    simp only [Cluster.executed, Cluster.log, hothers s hs]
  have hgrows := server_grows hrun hst
  have hbehind : ∀ s ∈ cfg.ids, rs.commitLength s ≤ (c'.server s).metadata.commitLength :=
    fun s hs => (h.behind s hs).trans (hgrows s).commitLength
  have hstored : ∀ s ∈ cfg.ids, Stored (shown (c', rs) s) := fun s hs =>
    shown_stored (h.stored s hs) (hbehind s hs) (hgrows s) (wellFormed hrun' hs).sound.stored
  obtain ⟨history, hgrow, hcommitted, hchosen⟩ := h.covers hrun hok hst hq
  obtain ⟨hle, hpath⟩ : ∃ hle, (replicas lastOrder).Path anyStep (r, reads)
      (⟨history, r.applied, hle⟩, reads) := r.path_grow hgrow
  refine ⟨_, hpath, hstored, hbehind, h.applied, fun s hs => ?_, fun _ => hchosen⟩
  by_cases hsq : s = q
  · rw [hsq]
    exact hcommitted
  · show c'.executed s <+: history
    rw [hsame s hsq]
    exact (h.committed s hs).trans hgrow

/-- An `ExecuteLog`: the replica applies the next entry. -/
lemma OneHistory.executeNext {rs' : Records} (h : OneHistory cfg p r) (hs : s ∈ cfg.ids)
    (hexecute : LaptopRaft.executeNext p s = some rs') (reads : List (Reading ℤ ℤ ℤ)) :
    ∃ r', (replicas lastOrder).Path anyStep (r, reads) (r', reads) ∧
      OneHistory cfg (p.1, rs') r' := by
  unfold LaptopRaft.executeNext at hexecute
  split at hexecute
  swap
  · cases hexecute
  rename_i hleft
  obtain ⟨md, hmd, rfl⟩ := Option.map_eq_some_iff.1 hexecute
  have hstored := h.stored s hs
  have hnonneg : 0 ≤ p.2.commitLength s := hstored.commit_nonneg
  obtain ⟨hlt, rfl⟩ := hstored.executeLog hmd
  have hin : r.applied s < r.history.length := by
    have hsize := hstored.logSize
    have hcovers := (h.committed s hs).length_le
    change p.2.commitLength s < (shown p s).logSize at hlt
    change (shown p s).logSize = ((p.1.log s).length : ℤ) at hsize
    rw [Cluster.executed, List.length_take] at hcovers
    rw [h.applied s hs]
    omega
  obtain ⟨hle, hpath⟩ : ∃ hle, (replicas lastOrder).Path anyStep (r, reads)
      (⟨r.history, Function.update r.applied s (r.applied s + 1), hle⟩, reads) := r.path_apply hin
  refine ⟨_, hpath, fun q hq => ?_, fun q hq => ?_, fun q hq => ?_, h.committed, h.chosen⟩
  all_goals by_cases hqs : q = s
  · subst hqs
    simp only [shown, Function.update_self]
    exact hstored.advance (Int.add_nonneg hnonneg zero_le_one) hlt
  · simp only [shown, Function.update_of_ne hqs]
    exact h.stored q hq
  · subst hqs
    simp only [Function.update_self]
    exact hleft
  · simp only [Function.update_of_ne hqs]
    exact h.behind q hq
  · subst hqs
    simp only [Function.update_self]
    show r.applied q + 1 = (p.2.commitLength q + 1).toNat
    rw [h.applied q hq]
    omega
  · simp only [Function.update_of_ne hqs]
    exact h.applied q hq

end Steps

/-- **Simulation** of the cluster with readers by the replicas of one history. -/
theorem replicas_simulate (cfg : Config) :
    Simulation (readable cfg) (onSystem KeepsAcks) (replicas lastOrder) anyStep Sum.getRight?
      (OneHistory cfg) := by
  constructor
  · rintro ⟨_, _⟩ ⟨⟨connects, rfl⟩, rfl⟩
    have hempty : ∀ s, ((boot cfg connects).server s).metadata.commitLength = 0 ∧
        ((boot cfg connects).server s).metadata.smrLog = [] ∧
        ((boot cfg connects).server s).metadata.logSize = 0 := by
      intro s
      obtain ⟨index, heq, -⟩ := bootMetadata_eq cfg connects s
      have hmetadata : ((boot cfg connects).server s).metadata = _ := heq
      rw [hmetadata]
      exact ⟨rfl, rfl, rfl⟩
    refine ⟨Replicas.empty, rfl, fun s _ => ?_, fun s _ => ?_, fun _ _ => rfl, fun s _ => ?_,
      Chosen.nil⟩
    · obtain ⟨-, hlog, hsize⟩ := hempty s
      refine ⟨?_, le_rfl, ?_, ?_⟩
      · show ((boot cfg connects).server s).metadata.logSize =
          ((boot cfg connects).server s).metadata.smrLog.length
        rw [hlog, hsize]
        rfl
      · show 0 ≤ ((boot cfg connects).server s).metadata.logSize
        rw [hsize]
      · rfl
    · exact (hempty s).1.ge
    · rw [Cluster.executed, (hempty s).1]
      exact List.nil_prefix
  · rintro p tr l p' es r reads hrun _ hok hst h
    have hrun := hrun.forgetCompanion
    obtain ⟨c', rs'⟩ := p'
    rcases withCompanion_step_cases hst with
      ⟨l', es', rfl, -, hmoved, rfl, rfl⟩ | ⟨k, es', rfl, hturn, rfl, rfl⟩
    · rw [filterMap_getRight?_map_inl, List.append_nil]
      exact h.step hrun hok hmoved reads
    · rw [filterMap_getRight?_map_inr]
      cases k with
      | executeLog s =>
          simp only [recordTurn] at hturn
          split at hturn
          · rename_i hs
            obtain ⟨rs, hexecute, heq⟩ := Option.map_eq_some_iff.1 hturn
            obtain ⟨rfl, rfl⟩ := Prod.mk.inj heq
            rw [List.append_nil]
            exact h.executeNext hs hexecute reads
          · cases hturn
      | readRecord s customerId =>
          simp only [recordTurn] at hturn
          split at hturn
          · rename_i hs
            obtain ⟨rfl, rfl⟩ := Prod.mk.inj (Option.some.inj hturn)
            have hanswer : readRecord p s customerId = lastOrder (r.view s) customerId := by
              rw [readRecord, (h.stored s hs).getValue_eq, h.view_eq hs]
            rw [hanswer]
            exact ⟨r, .single ⟨.read s customerId, _, trivial, rfl, rfl⟩, h⟩
          · cases hturn

/-! ## A run with readers -/

/-- Server 0 brings an update to server 1 and executes it; then its connections fail.  Server 1 is
elected, and with its first entry commits both updates at once.  It is read in between its two
`ExecuteLog`s, and again after them; server 2 has executed nothing. -/
def readers : List (Label ⊕ RecordLabel) :=
  (stand 0 ++ callVote 0 ++ submit 0 7 1 ++ callLog 0).map .inl ++ [.inr (.executeLog 0)] ++
    (([.logLinkFails 0, .endRound 0, .logLinkFails 0, .endRound 0] : List Label) ++ timeOut 1 ++
      stand 1 ++ callVote 1 ++ submit 1 8 1 ++ callLog 1).map .inl ++
    [.inr (.executeLog 1), .inr (.readRecord 1 7), .inr (.readRecord 1 8), .inr (.executeLog 1),
      .inr (.readRecord 1 8), .inr (.readRecord 2 7)]

def readings : List (Reading ℤ ℤ ℤ) := [⟨1, 7, 1⟩, ⟨1, 8, -1⟩, ⟨1, 8, 1⟩, ⟨2, 7, -1⟩]

lemma run_readers : ∃ p tr, (readable three).Run (onSystem KeepsAcks) p tr ∧
    tr.filterMap Sum.getRight? = readings :=
  run_of_exec (readable three) _ (boot three fun _ _ => true, {}) ⟨⟨_, rfl⟩, rfl⟩ readers
    (by decide +kernel)

section Runs

variable {cfg : Config} {p : Cluster × Records} {tr : List (Event ⊕ Reading ℤ ℤ ℤ)}

/-- **The cluster refines one history with replicas.**  What customers read they could have read
there. -/
theorem reads_refine (hrun : (readable cfg).Run (onSystem KeepsAcks) p tr) :
    ∃ r, (replicas lastOrder).Run anyStep r (tr.filterMap Sum.getRight?) ∧ OneHistory cfg p r :=
  (replicas_simulate cfg).run hrun

theorem reads_refine_readers : ∃ p tr r, (readable three).Run (onSystem KeepsAcks) p tr ∧
    tr.filterMap Sum.getRight? = readings ∧
    (replicas lastOrder).Run anyStep r readings ∧ OneHistory three p r := by
  obtain ⟨p, tr, hrun, hreadings⟩ := run_readers
  obtain ⟨r, hreplicas, hone⟩ := reads_refine hrun
  exact ⟨p, tr, r, hrun, hreadings, hreadings ▸ hreplicas, hone⟩

/-- **Reads are of one history.**  Every answer is that of some version of it, and at one server
the versions do not go back; what any server has committed is its beginning, and a majority of the
logs begin with it. -/
theorem reads_of_one_history (hrun : (readable cfg).Run (onSystem KeepsAcks) p tr) :
    ∃ (history : List MapOp) (reads : List (Reading ℤ ℤ ℤ × ℕ)),
      reads.map Prod.fst = tr.filterMap Sum.getRight? ∧ Versioned lastOrder history reads ∧
      (∀ q ∈ reads, q.1.replica ∈ cfg.ids → q.2 ≤ (p.2.commitLength q.1.replica).toNat) ∧
      (∀ s ∈ cfg.ids, p.2.commitLength s ≤ (p.1.server s).metadata.commitLength ∧
        p.1.executed s <+: history) ∧
      (cfg.ids.Nonempty → Chosen cfg.ids p.1.log history) := by
  obtain ⟨r, hreplicas, hone⟩ := (replicas_simulate cfg).run hrun
  obtain ⟨reads, hreads, hversioned, happlied⟩ := versioned_of_run hreplicas
  refine ⟨r.history, reads, hreads, hversioned, fun q hq hs => ?_, fun s hs => ?_, hone.chosen⟩
  · rw [← hone.applied _ hs]
    exact happlied q hq
  · exact ⟨hone.behind s hs, hone.committed s hs⟩

theorem reads_of_one_history_readers : ∃ p tr, (readable three).Run (onSystem KeepsAcks) p tr ∧
    ∃ (history : List MapOp) (reads : List (Reading ℤ ℤ ℤ × ℕ)),
      reads.map Prod.fst = readings ∧ Versioned lastOrder history reads := by
  obtain ⟨p, tr, hrun, hreadings⟩ := run_readers
  obtain ⟨history, reads, hreads, hversioned, -⟩ := reads_of_one_history hrun
  exact ⟨p, tr, hrun, history, reads, hreadings ▸ hreads, hversioned⟩

end Runs

end LaptopRaft
