import LaptopRaft.Replication.Call
import Mathlib.Algebra.Order.BigOperators.Group.Finset
import Mathlib.Data.Prod.Lex

/-!
# When a call of `ReplicateLog` ends

A call ends for one of two reasons.

* A peer that is sent an entry is in a higher term and does not follow: the caller is deposed
  (`ends_of_refusing`).
* In some round no entry is sent.  This is reached if the caller is leader and every peer that is
  behind is repairable: the distances of `Framework/CatchUp` decrease (`Mending.finishes`).

Otherwise some peer stays behind for ever and the call goes round and round with `meta_lock` held
(`Stuck`).  Two things lead there: the caller is not leader, so that no answer moves a position
while each still counts as a change, or the peer's log has an entry of another term below
the end of the caller's log, and the position is moved up and down before it.
-/

namespace LaptopRaft

open ServerMetadata

/-- The call of `s` reaches its end, which gives the lock back. -/
def Ends (s : ℤ) (c : Cluster) : Prop := ∃ c', CallTo s c c' ∧ (c'.server s).metaLock = .free

/-- The peer's log can be brought up to the caller's from where it is. -/
def CanRepair (c : Cluster) (s : ℤ) (node : ServerNode) : Prop :=
  Repairable MapOp.term (c.server s).metadata.smrLog (standing c s node).1 (standing c s node).2

/-- No peer that is sent an entry refuses. -/
def Willing (c : Cluster) (s : ℤ) : Prop :=
  ∀ node ∈ (c.server s).metaLock.nodes, (c.server s).metadata.Behind node → ¬ Refuses c s node

section Turns

variable {cfg : Config} {s : ℤ} {c c' : Cluster} {node node' : ServerNode}

lemma VisitEffect.behind_iff (h : VisitEffect s node c c')
    (hsent : (c'.server s).metadata.sentTo node' = (c.server s).metadata.sentTo node') :
    (c'.server s).metadata.Behind node' ↔ (c.server s).metadata.Behind node' := by
  rw [Behind, Behind, hsent, h.logSize]

/-- A peer that has been visited and is behind was behind before. -/
lemma VisitEffect.behind (h : VisitEffect s node c c')
    (hbehind : (c'.server s).metadata.Behind node) : (c.server s).metadata.Behind node := by
  by_contra hcomplete
  exact hcomplete ((h.behind_iff (h.complete hcomplete).1).1 hbehind)

/-- Whether a peer can be repaired depends on its standing and the caller's log. -/
lemma Kept.canRepair (h : Kept s node c c')
    (hlog : (c'.server s).metadata.smrLog = (c.server s).metadata.smrLog) :
    CanRepair c' s node ↔ CanRepair c s node := by
  rw [CanRepair, CanRepair, h.standing, hlog]

/-- Peers that follow go on to follow. -/
lemma Willing.step (h : Willing c s) (hcall : InCall cfg s c) (hturn : Turn s c c')
    (hheld : (c'.server s).metaLock ≠ .free) : Willing c' s := by
  intro x hx hbehind
  have hold := hturn.nodes hheld x hx
  have hpeer := hcall.placed.visiting x hold
  cases hturn with
  | @visit caller node rest new change n md hlock hvisited hreact hcaller hn =>
      have hmetadata : (c'.server s).metadata = md := by rw [hcaller]
      have hmoved := hcall.moved hlock hvisited hreact hmetadata
      by_cases hself : x = node
      · subst hself
        exact hmoved.follows (h x hold (hmoved.behind hbehind))
      · have hkept := hcall.kept hlock hvisited hreact hmetadata hpeer hself
        have hbefore := h x hold ((hmoved.behind_iff hkept.sentTo).1 hbehind)
        unfold Refuses at hbefore ⊢
        rw [hkept.server, hmoved.currentTerm]
        exact hbefore
  | deposed hlock hsent hno hfree => exact absurd hfree hheld
  | @nextRound caller new change hlock hchange hothers hlink hcaller =>
      have hmetadata : (c'.server s).metadata =
          { (c.server s).metadata with nodeSocket := new } := by rw [hcaller]
      have hkept := kept_of_nextRound hcall.mem hothers hmetadata hpeer
      have hbefore : ¬ Refuses c s x := by
        refine h x hold ?_
        rw [Behind, hkept.sentTo, hmetadata] at hbehind
        exact hbehind
      unfold Refuses at hbefore ⊢
      rw [hkept.server, hmetadata]
      exact hbefore
  | «return» hlock hothers hcaller =>
      exact absurd (LaptopFactory.free_of_returnTo hcaller) hheld

/-! ## A call that is deposed -/

/-- A peer that refuses an entry ends the call when it is reached, if none before it does. -/
theorem ends_of_refusing (h : InCall cfg s c) {caller : Caller} {rest new : List ServerNode}
    {change : ℕ} (hlock : (c.server s).metaLock = .replicateLog caller ⟨rest, new, change⟩)
    (hin : node ∈ rest) (hbehind : (c.server s).metadata.Behind node)
    (hrefuses : Refuses c s node) : Ends s c := by
  induction rest generalizing c new change with
  | nil => cases hin
  | cons x rest ih =>
      obtain ⟨c', hst, hturn⟩ := h.visit hlock
      by_cases hfree : (c'.server s).metaLock = .free
      · exact ⟨c', .single hst, hfree⟩
      have hcall' := h.step hturn hfree
      have hgoesOn : ∃ new' change',
          (c'.server s).metaLock = .replicateLog caller ⟨rest, new', change'⟩ ∧ node ∈ rest ∧
            (c'.server s).metadata.Behind node ∧ Refuses c' s node := by
        cases hturn with
        | @visit _ _ _ _ _ n md hlock' hvisited hreact hcaller hn =>
            cases hlock.symm.trans hlock'
            have hmetadata : (c'.server s).metadata = md := by rw [hcaller]
            have hmoved := h.moved hlock hvisited hreact hmetadata
            have hne : node ≠ x := by
              rintro rfl
              cases hreact with
              | complete hsent => exact hbehind hsent
              | acked hk hx hleader hfollows => exact hrefuses hfollows
              | backed hk hx hleader hfollows => exact hrefuses hfollows
              | ignored hsent hstatus hfollows => exact hrefuses hfollows
            have hpeer : node ∈ cfg.peers s := by
              refine h.placed.visiting node ?_
              rw [hlock]
              exact List.mem_append_left new hin
            have hkept := h.kept hlock hvisited hreact hmetadata hpeer hne
            refine ⟨_, _, by rw [hcaller], (List.mem_cons.1 hin).resolve_left hne,
              (hmoved.behind_iff hkept.sentTo).2 hbehind, ?_⟩
            unfold Refuses at hrefuses ⊢
            rw [hkept.server, hmoved.currentTerm]
            exact hrefuses
        | deposed _ _ _ hfree' => exact absurd hfree' hfree
        | nextRound hlock' => cases hlock.symm.trans hlock'
        | «return» hlock' => cases hlock.symm.trans hlock'
      obtain ⟨new', change', hlock', hin', hbehind', hrefuses'⟩ := hgoesOn
      obtain ⟨c'', hcall'', hfree''⟩ := ih hcall' hlock' hin' hbehind' hrefuses'
      exact ⟨c'', .head hst hcall'', hfree''⟩

/-! ## A call that goes round for ever -/

/-- Peer `p` is behind, and nothing will change that. -/
structure Stuck (cfg : Config) (s : ℤ) (p : ServerNode) (c : Cluster) : Prop where
  call : InCall cfg s c
  replicating : (c.server s).Replicating
  behind : (c.server s).metadata.Behind p
  spins : (c.server s).metadata.status ≠ .leader ∨ ¬ CanRepair c s p
  willing : Willing c s
  visited : ∀ caller rest new change,
    (c.server s).metaLock = .replicateLog caller ⟨rest, new, change⟩ →
    p ∈ rest ∨ (p ∈ new ∧ change ≠ 0)

lemma LaptopFactory.Replicating.held {f : LaptopFactory} (h : f.Replicating) :
    f.metaLock ≠ .free := by
  intro hfree
  simp [LaptopFactory.Replicating, hfree] at h

lemma Stuck.peer_mem {p : ServerNode} (h : Stuck cfg s p c) : p ∈ cfg.peers s := by
  have hreplicating := h.replicating
  unfold LaptopFactory.Replicating at hreplicating
  split at hreplicating
  · rename_i caller loop hlock
    obtain ⟨rest, new, change⟩ := loop
    refine h.call.placed.visiting p ?_
    rcases h.visited _ _ _ _ hlock with hin | ⟨hin, -⟩ <;> simp [MetaLock.nodes, hlock, hin]
  · exact hreplicating.elim

/-- The peer that is stuck is visited. -/
lemma Stuck.moved {p : ServerNode} (h : Stuck cfg s p c) (hmoved : VisitEffect s p c c')
    (hready : Positioned (c.server s).metadata p) :
    (c'.server s).metadata.Behind p ∧
      ((c'.server s).metadata.status ≠ .leader ∨ ¬ CanRepair c' s p) := by
  by_cases hleader : (c.server s).metadata.status = .leader
  · have hno := h.spins.resolve_left (not_not.2 hleader)
    have hexchange := hmoved.exchange h.behind hleader
    have hlt := (hready.behind_iff h.call.ready.sized).1 h.behind
    have hstill : ¬ CanRepair c' s p := by
      rw [CanRepair, hmoved.smrLog, hexchange]
      exact fun hyes => hno ((repairable_exchange hlt).1 hyes)
    refine ⟨fun hend => ?_, Or.inr hstill⟩
    have hsize := h.call.ready.sized.logSize
    have hposition : (standing c' s p).1 = (c.server s).metadata.smrLog.length :=
      position_of_sentTo (by rw [hend, hmoved.logSize, hsize])
    rw [hexchange] at hposition
    exact exchange_ne_length hlt hno hposition
  · exact ⟨(hmoved.behind_iff (hmoved.ignored hleader)).2 h.behind,
      Or.inl (by rw [hmoved.status]; exact hleader)⟩

/-- **No step ends the call.** -/
theorem Stuck.step {p : ServerNode} (h : Stuck cfg s p c) (hst : c.callStep s = some c') :
    Stuck cfg s p c' := by
  have hturn := h.call.turn_of_step hst
  have hpeer := h.peer_mem
  cases hturn with
  | @visit caller node rest new change n md hlock hvisited hreact hcaller hn =>
      have hlock' : (c'.server s).metaLock =
          .replicateLog caller ⟨rest, insertSocket new node, n⟩ := by rw [hcaller]
      have hheld : (c'.server s).Replicating := by simp [LaptopFactory.Replicating, hlock']
      have hturn' : Turn s c c' := .visit hlock hvisited hreact hcaller hn
      have hmetadata : (c'.server s).metadata = md := by rw [hcaller]
      have hmoved := h.call.moved hlock hvisited hreact hmetadata
      have hstanding : (c'.server s).metadata.Behind p ∧
          ((c'.server s).metadata.status ≠ .leader ∨ ¬ CanRepair c' s p) := by
        by_cases hself : p = node
        · subst hself
          exact h.moved hmoved (h.call.positioned p (mem_nodes hlock))
        · have hkept := h.call.kept hlock hvisited hreact hmetadata hpeer hself
          refine ⟨(hmoved.behind_iff hkept.sentTo).2 h.behind, ?_⟩
          rw [hkept.canRepair hmoved.smrLog, hmoved.status]
          exact h.spins
      refine ⟨h.call.step hturn' hheld.held, hheld, hstanding.1, hstanding.2,
        h.willing.step h.call hturn' hheld.held, fun caller' rest' new' change' hloop => ?_⟩
      rw [hlock'] at hloop
      cases hloop
      rw [mem_insertSocket]
      by_cases hself : p = node
      · subst hself
        have hentry : n = change + 1 := hn.trans (if_neg h.behind)
        exact Or.inr ⟨Or.inl rfl, by omega⟩
      · rcases h.visited _ _ _ _ hlock with hin | ⟨hin, hchange⟩
        · exact Or.inl ((List.mem_cons.1 hin).resolve_left hself)
        · refine Or.inr ⟨Or.inr hin, ?_⟩
          rw [hn]
          split <;> omega
  | @deposed caller node rest new change hlock hsent hno hfree =>
      exact absurd hno (h.willing node (mem_nodes hlock) hsent)
  | @nextRound caller new change hlock hchange hothers hlink hcaller =>
      have hlock' : (c'.server s).metaLock = .replicateLog caller ⟨new, new, 0⟩ := by rw [hcaller]
      have hheld : (c'.server s).Replicating := by simp [LaptopFactory.Replicating, hlock']
      have hturn' : Turn s c c' := .nextRound hlock hchange hothers hlink hcaller
      have hmetadata : (c'.server s).metadata =
          { (c.server s).metadata with nodeSocket := new } := by rw [hcaller]
      have hkept := kept_of_nextRound h.call.mem hothers hmetadata hpeer
      refine ⟨h.call.step hturn' hheld.held, hheld, ?_, ?_,
        h.willing.step h.call hturn' hheld.held, fun caller' rest' new' change' hloop => ?_⟩
      · rw [Behind, hkept.sentTo, hmetadata]
        exact h.behind
      · rw [hkept.canRepair (by rw [hmetadata]), hmetadata]
        exact h.spins
      · rw [hlock'] at hloop
        cases hloop
        exact Or.inl ((h.visited _ _ _ _ hlock).resolve_left List.not_mem_nil).1
  | «return» hlock hothers hcaller =>
      exact absurd rfl ((h.visited _ _ _ _ hlock).resolve_left List.not_mem_nil).2

theorem Stuck.not_ends {p : ServerNode} (h : Stuck cfg s p c) : ¬ Ends s c := by
  rintro ⟨c', hcall, hfree⟩
  have hstuck : Stuck cfg s p c' := by
    clear hfree
    induction hcall with
    | refl => exact h
    | tail hcall hst ih => exact ih.step hst
  exact hstuck.replicating.held hfree

/-! ## A call that finishes -/

/-- Every peer that is behind follows a caller that is leader, and can be repaired. -/
structure Mending (cfg : Config) (s : ℤ) (c : Cluster) : Prop where
  call : InCall cfg s c
  replicating : (c.server s).Replicating
  willing : Willing c s
  repairable : ∀ node ∈ (c.server s).metaLock.nodes, (c.server s).metadata.Behind node →
    (c.server s).metadata.status = .leader ∧ CanRepair c s node

/-- The entries that may still have to be sent, over all peers. -/
def remaining (cfg : Config) (s : ℤ) (c : Cluster) : ℕ :=
  ∑ node ∈ (cfg.peers s).toFinset,
    distance MapOp.term (c.server s).metadata.smrLog (standing c s node).1 (standing c s node).2

/-- Whether another round is due, and what is left of this one. -/
def LaptopFactory.pendingRounds (f : LaptopFactory) : ℕ × ℕ :=
  match f.metaLock with
  | .replicateLog _ ⟨rest, _, change⟩ => (if change = 0 then 0 else 1, rest.length)
  | _ => (0, 0)

/-- The measure of a call.  An answered entry makes another round due, but is worth two. -/
def callMeasure (cfg : Config) (s : ℤ) (c : Cluster) : ℕ ×ₗ ℕ :=
  toLex (2 * remaining cfg s c + (c.server s).pendingRounds.1, (c.server s).pendingRounds.2)

lemma LaptopFactory.pendingRounds_eq {f : LaptopFactory} {caller : Caller}
    {rest new : List ServerNode} {change : ℕ}
    (hlock : f.metaLock = .replicateLog caller ⟨rest, new, change⟩) :
    f.pendingRounds = (if change = 0 then 0 else 1, rest.length) := by
  unfold pendingRounds
  rw [hlock]

lemma remaining_eq (hlog : (c'.server s).metadata.smrLog = (c.server s).metadata.smrLog)
    (hsame : ∀ x ∈ cfg.peers s, standing c' s x = standing c s x) :
    remaining cfg s c' = remaining cfg s c := by
  refine Finset.sum_congr rfl fun x hx => ?_
  rw [hlog, hsame x (List.mem_toFinset.1 hx)]

/-- An exchange with one peer. -/
lemma remaining_lt (hnode : node ∈ cfg.peers s)
    (hlog : (c'.server s).metadata.smrLog = (c.server s).metadata.smrLog)
    (hlt : (standing c s node).1 < (c.server s).metadata.smrLog.length)
    (hrepair : CanRepair c s node)
    (hself : standing c' s node =
      exchange MapOp.term (c.server s).metadata.smrLog (standing c s node))
    (hsame : ∀ x ∈ cfg.peers s, x ≠ node → standing c' s x = standing c s x) :
    remaining cfg s c' < remaining cfg s c := by
  have hdistance := distance_exchange hlt hrepair
  refine Finset.sum_lt_sum (fun x hx => ?_) ⟨node, List.mem_toFinset.2 hnode, ?_⟩
  · by_cases hx' : x = node
    · subst hx'
      rw [hlog, hself]
      exact hdistance.le
    · rw [hlog, hsame x (List.mem_toFinset.1 hx) hx']
  · rw [hlog, hself]
    exact hdistance

/-- What an iteration leaves behind can be repaired. -/
lemma Mending.repairable_of_turn (h : Mending cfg s c) (hturn : Turn s c c')
    (hheld : (c'.server s).metaLock ≠ .free) :
    ∀ x ∈ (c'.server s).metaLock.nodes, (c'.server s).metadata.Behind x →
      (c'.server s).metadata.status = .leader ∧ CanRepair c' s x := by
  intro x hx hbehind
  have hold := hturn.nodes hheld x hx
  have hpeer := h.call.placed.visiting x hold
  cases hturn with
  | @visit caller node rest new change n md hlock hvisited hreact hcaller hn =>
      have hmetadata : (c'.server s).metadata = md := by rw [hcaller]
      have hmoved := h.call.moved hlock hvisited hreact hmetadata
      rw [hmoved.status]
      by_cases hself : x = node
      · subst hself
        have hbefore := hmoved.behind hbehind
        have hlt := ((h.call.positioned x hold).behind_iff h.call.ready.sized).1 hbefore
        obtain ⟨hleader, hrepair⟩ := h.repairable x hold hbefore
        rw [CanRepair, hmoved.smrLog, hmoved.exchange hbefore hleader]
        exact ⟨hleader, (repairable_exchange hlt).2 hrepair⟩
      · have hkept := h.call.kept hlock hvisited hreact hmetadata hpeer hself
        rw [hkept.canRepair hmoved.smrLog]
        exact h.repairable x hold ((hmoved.behind_iff hkept.sentTo).1 hbehind)
  | deposed hlock hsent hno hfree => exact absurd hfree hheld
  | @nextRound caller new change hlock hchange hothers hlink hcaller =>
      have hmetadata : (c'.server s).metadata =
          { (c.server s).metadata with nodeSocket := new } := by rw [hcaller]
      have hkept := kept_of_nextRound h.call.mem hothers hmetadata hpeer
      rw [hkept.canRepair (by rw [hmetadata]), hmetadata]
      refine h.repairable x hold ?_
      rw [Behind, hkept.sentTo, hmetadata] at hbehind
      exact hbehind
  | «return» hlock hothers hcaller =>
      exact absurd (LaptopFactory.free_of_returnTo hcaller) hheld

/-- A visit either repairs something or leaves fewer peers to visit. -/
lemma Mending.measure_visit (h : Mending cfg s c) {caller : Caller} {rest new : List ServerNode}
    {change n : ℕ}
    (hlock : (c.server s).metaLock = .replicateLog caller ⟨node :: rest, new, change⟩)
    (hlock' : (c'.server s).metaLock = .replicateLog caller ⟨rest, insertSocket new node, n⟩)
    (hmoved : VisitEffect s node c c')
    (hkept : ∀ x ∈ cfg.peers s, x ≠ node → Kept s x c c')
    (hn : n = if (c.server s).metadata.sentTo node = some (c.server s).metadata.logSize then
      change else change + 1) : callMeasure cfg s c' < callMeasure cfg s c := by
  have hin : node ∈ (c.server s).metaLock.nodes := mem_nodes hlock
  rw [callMeasure, callMeasure, LaptopFactory.pendingRounds_eq hlock',
    LaptopFactory.pendingRounds_eq hlock, Prod.Lex.toLex_lt_toLex]
  by_cases hbehind : (c.server s).metadata.Behind node
  · obtain ⟨hleader, hrepair⟩ := h.repairable node hin hbehind
    have hlt := remaining_lt (h.call.placed.visiting node hin) hmoved.smrLog
      (((h.call.positioned node hin).behind_iff h.call.ready.sized).1 hbehind) hrepair
      (hmoved.exchange hbehind hleader) fun x hx hne => (hkept x hx hne).standing
    left
    dsimp only
    split <;> split <;> omega
  · have hsame : remaining cfg s c' = remaining cfg s c := by
      refine remaining_eq hmoved.smrLog fun x hx => ?_
      by_cases hself : x = node
      · subst hself
        exact (hmoved.complete hbehind).2
      · exact (hkept x hx hself).standing
    have hround : n = change := hn.trans (if_pos (not_not.1 hbehind))
    right
    rw [hsame, hround]
    exact ⟨rfl, Nat.lt_succ_self rest.length⟩

/-- **Every iteration brings the end of the call nearer.** -/
theorem Mending.step (h : Mending cfg s c) (hturn : Turn s c c')
    (hunfinished : ¬ (c.server s).Finished) :
    Mending cfg s c' ∧ callMeasure cfg s c' < callMeasure cfg s c := by
  have hgoesOn : (c'.server s).Replicating → Mending cfg s c' := fun hheld =>
    ⟨h.call.step hturn hheld.held, hheld, h.willing.step h.call hturn hheld.held,
      h.repairable_of_turn hturn hheld.held⟩
  cases hturn with
  | @visit caller node rest new change n md hlock hvisited hreact hcaller hn =>
      have hlock' : (c'.server s).metaLock =
          .replicateLog caller ⟨rest, insertSocket new node, n⟩ := by rw [hcaller]
      have hmetadata : (c'.server s).metadata = md := by rw [hcaller]
      refine ⟨hgoesOn (by simp [LaptopFactory.Replicating, hlock']), ?_⟩
      exact h.measure_visit hlock hlock' (h.call.moved hlock hvisited hreact hmetadata)
        (fun x hx hne => h.call.kept hlock hvisited hreact hmetadata hx hne) hn
  | @deposed caller node rest new change hlock hsent hno hfree =>
      exact absurd hno (h.willing node (mem_nodes hlock) hsent)
  | @nextRound caller new change hlock hchange hothers hlink hcaller =>
      have hlock' : (c'.server s).metaLock = .replicateLog caller ⟨new, new, 0⟩ := by rw [hcaller]
      have hmetadata : (c'.server s).metadata =
          { (c.server s).metadata with nodeSocket := new } := by rw [hcaller]
      have hlog : (c'.server s).metadata.smrLog = (c.server s).metadata.smrLog := by rw [hmetadata]
      refine ⟨hgoesOn (by simp [LaptopFactory.Replicating, hlock']), ?_⟩
      rw [callMeasure, callMeasure, LaptopFactory.pendingRounds_eq hlock',
        LaptopFactory.pendingRounds_eq hlock, Prod.Lex.toLex_lt_toLex,
        remaining_eq hlog fun x hx => (kept_of_nextRound h.call.mem hothers hmetadata hx).standing,
        if_pos rfl, if_neg hchange]
      left
      dsimp only
      omega
  | «return» hlock hothers hcaller =>
      refine absurd ?_ hunfinished
      simp [LaptopFactory.Finished, hlock]

/-- **The call finishes**, with whatever else its iterations preserve. -/
theorem Mending.finishes_of_callStep {K : Cluster → Prop} (h : Mending cfg s c) (hK : K c)
    (hstep : ∀ c c', Mending cfg s c → K c → c.callStep s = some c' → Mending cfg s c' → K c') :
    ∃ c', CallTo s c c' ∧ (Mending cfg s c' ∧ K c') ∧ (c'.server s).Finished := by
  refine reaches_of_measure (I := fun c => Mending cfg s c ∧ K c) (callMeasure cfg s)
    (fun c ⟨h, hK⟩ hunfinished => ?_) ⟨h, hK⟩
  obtain ⟨c', hst, hturn⟩ := h.call.turn h.replicating
  obtain ⟨h', hlt⟩ := h.step hturn hunfinished
  exact ⟨c', hst, ⟨h', hstep c c' h hK hst h'⟩, hlt⟩

/-- The same, for what the cases of an iteration show to be preserved. -/
theorem Mending.finishes {K : Cluster → Prop} (h : Mending cfg s c) (hK : K c)
    (hstep : ∀ c c', Mending cfg s c → K c → Turn s c c' → Mending cfg s c' → K c') :
    ∃ c', CallTo s c c' ∧ (Mending cfg s c' ∧ K c') ∧ (c'.server s).Finished :=
  h.finishes_of_callStep hK fun c c' hmending hK hst =>
    hstep c c' hmending hK (hmending.call.turn_of_step hst)

/-- A finished call returns. -/
lemma returns_of_finished (hfinished : (c.server s).Finished) :
    ∃ c', c.callStep s = some c' ∧ (c'.server s).metaLock = .free ∧
      (∀ q, q ≠ s → c'.server q = c.server q) ∧
      ∃ new, (c'.server s).metadata = { (c.server s).metadata with nodeSocket := new } := by
  obtain ⟨caller, new, hlock⟩ := hfinished.loop
  obtain ⟨c', hst, hturn⟩ := InCall.endRound hlock
  refine ⟨c', hst, ?_⟩
  cases hturn with
  | visit hlock' => cases hlock.symm.trans hlock'
  | deposed hlock' => cases hlock.symm.trans hlock'
  | nextRound hlock' hchange =>
      cases hlock.symm.trans hlock'
      exact absurd rfl hchange
  | «return» hlock' hothers hcaller =>
      refine ⟨LaptopFactory.free_of_returnTo hcaller, hothers, ?_⟩
      rw [hcaller]
      exact ⟨_, LaptopFactory.returnTo_metadata _ _⟩

end Turns

/-! ## When a call ends -/

/-- Whoever is leader, or has seen in its status that it was, or is inside `ReplicateLog`, has
the two arrays. -/
structure Allocated (f : LaptopFactory) : Prop where
  leader : f.metadata.status = .leader → f.metadata.sentLength.isSome
  thread : f.timeoutThread = .branch .leader → f.metadata.sentLength.isSome
  loop : f.Replicating → f.metadata.sentLength.isSome

section Begin

variable {cfg : Config} {s : ℤ} {c : Cluster} {tr : List Event} {f f' : LaptopFactory} {l : Label}
  {es : List Event}

/-- A step that keeps the arrays. -/
lemma Allocated.frame (h : Allocated f) (hsent : f'.metadata.sentLength = f.metadata.sentLength)
    (hleader : f'.metadata.status = .leader → f.metadata.status = .leader)
    (hthread : f'.timeoutThread = .branch .leader →
      f.timeoutThread = .branch .leader ∨ f.metadata.status = .leader)
    (hloop : f'.Replicating → f.Replicating ∨ f.timeoutThread = .branch .leader) :
    Allocated f' := by
  constructor
  · intro hstatus
    rw [hsent]
    exact h.leader (hleader hstatus)
  · intro hbranch
    rw [hsent]
    exact (hthread hbranch).elim h.thread h.leader
  · intro hreplicating
    rw [hsent]
    exact (hloop hreplicating).elim h.loop h.thread

lemma ThreadStep.allocated (hstep : ThreadStep s f l f' es) (h : Allocated f)
    (hwf : WellFormed cfg s f) : Allocated f' := by
  have hall : f'.metadata.sentLength.isSome → Allocated f' := fun hsome =>
    ⟨fun _ => hsome, fun _ => hsome, fun _ => hsome⟩
  cases hstep with
  | readStatus htop =>
      refine h.frame rfl id (fun hbranch => Or.inr ?_) Or.inl
      simpa using hbranch
  | rest hthread hfree | timeOut hthread hfree =>
      refine h.frame rfl ?_ (by simp) Or.inl
      simp [setHeartbeat, setStatus]
  | stand => exact h.frame rfl id Or.inl (by simp [LaptopFactory.Replicating])
  | askVote | queue | sendLog => exact h.frame rfl id Or.inl Or.inl
  | countVote | ignoreVote => exact h.frame rfl id Or.inl (by simp [LaptopFactory.Replicating])
  | elected => exact hall rfl
  | outvoted =>
      exact h.frame rfl (by simp [demoted]) (by simp) (by simp [LaptopFactory.Replicating])
  | endVote => exact h.frame rfl id (by simp) (by simp [LaptopFactory.Replicating])
  | maintain hreq hfree haccepts hack =>
      have halloc := hwf.sound.allocated
      rw [hack, Option.isSome_some] at halloc
      exact hall halloc
  | replicate hthread hfree haccepts => exact h.frame rfl id Or.inl fun _ => Or.inr hthread
  | fail hlock hlabel hfail =>
      obtain ⟨ack, sent, -, -, -, -, rfl⟩ := failNode_cases hfail
      exact hall rfl
  | heartbeatAnswered hlock =>
      exact h.frame rfl id Or.inl fun _ => Or.inl (by simp [LaptopFactory.Replicating, hlock])
  | entryAnswered hlock hwire hsent hreact =>
      obtain ⟨k, hk, -⟩ := hwf.flow.sent hlock hwire
      obtain ⟨⟨k', hk', -⟩, -⟩ := hreact.sent hk
      obtain ⟨sent, hsent', -⟩ := sentTo_eq_some.1 hk'
      exact hall (Option.isSome_iff_exists.2 ⟨sent, hsent'⟩)
  | @deposed caller _ _ _ _ _ hlock =>
      have hsome := h.loop (by simp [LaptopFactory.Replicating, hlock])
      exact hall (by rw [LaptopFactory.returnTo_metadata]; exact hsome)
  | nextRound hlock =>
      exact h.frame rfl id Or.inl fun _ => Or.inl (by simp [LaptopFactory.Replicating, hlock])
  | «return» hlock =>
      have hsome := h.loop (by simp [LaptopFactory.Replicating, hlock])
      exact hall (by rw [LaptopFactory.returnTo_metadata]; exact hsome)

lemma Served.sentLength {rpc : Rpc} {md : ServerMetadata} {reply : Reply}
    (hserved : Served f rpc md reply) : md.sentLength = f.metadata.sentLength := by
  cases hserved with
  | vote hfree hanswer => rw [hanswer.frame]
  | log hfree hvalid hanswer =>
      rw [(getLogResponse_reply hanswer).frame]
      rcases adoptLeader_cases f.metadata _ with ⟨-, heq⟩ | ⟨-, -, heq⟩ <;> rw [heq]

/-- Handlers neither make a leader nor touch the arrays. -/
lemma Served.allocated {rpc : Rpc} {md : ServerMetadata} {reply : Reply}
    (hserved : Served f rpc md reply) (h : Allocated f) (hwf : WellFormed cfg s f) :
    Allocated { f with metadata := md } := by
  have hsent := hserved.sentLength
  have hstatus : md.status = .leader → f.metadata.status = .leader := by
    intro hleader
    have hkept : md.status = f.metadata.status ∨ md.status = .follower := by
      cases hserved with
      | vote hfree hanswer => exact hanswer.status
      | log hfree hvalid hanswer =>
          exact (getLogResponse_cases hwf.sound.stored hanswer).status
    rcases hkept with hsame | hfollower
    · rw [← hsame, hleader]
    · rw [hleader] at hfollower
      cases hfollower
  exact h.frame hsent hstatus Or.inl Or.inl

theorem allocated_of_run {ok : Cluster → Label → Prop} (hrun : (system cfg).Run ok c tr)
    (hs : s ∈ cfg.ids) : Allocated (c.server s) := by
  have hall := run_forall_server (P := fun s f _ => s ∈ cfg.ids → Allocated f) ?_ ?_ ?_ ?_ ?_ hrun s
  · exact hall hs
  · intro connects s _
    obtain ⟨index, heq, -⟩ := bootMetadata_eq cfg connects s
    have hmetadata : ((boot cfg connects).server s).metadata = _ := heq
    refine ⟨?_, by simp [boot], by simp [boot, LaptopFactory.Replicating]⟩
    rw [hmetadata]
    simp
  · exact fun _ _ _ _ _ h => h
  · exact fun c tr l s f es hrun _ hs hstep h _ => hstep.allocated (h hs) (wellFormed hrun hs)
  · exact fun c tr l p rpc md reply hrun _ _ hserved h hp =>
      hserved.allocated (h hp) (wellFormed hrun hp)
  · exact fun c tr s node rpc md reply _ _ _ _ h hs => (h hs).frame rfl id Or.inl Or.inl

/-- A call of `ReplicateLog` by `s` has just been entered, in any state that `s` can reach, with
its connected peers in any state in which they answer. -/
structure CallBegins (cfg : Config) (s : ℤ) (c : Cluster) : Prop where
  mem : s ∈ cfg.ids
  /-- Nobody answers a sender whose id is the marker of an invalid request. -/
  valid : s ≠ -1
  reachable : ∃ c₀ tr, (system cfg).Run TransitionSystem.anyStep c₀ tr ∧
    c₀.server s = c.server s
  entered : (c.server s).Entered
  quiet : (c.server s).wire = .quiet
  answering : ∀ node ∈ (c.server s).metadata.nodeSocket, Answering c s node

lemma LaptopFactory.Entered.loop {f : LaptopFactory} (h : f.Entered) :
    ∃ caller, f.metaLock = .replicateLog caller ⟨f.metadata.nodeSocket, [], 0⟩ := by
  unfold Entered at h
  split at h
  · rename_i caller loop hlock
    exact ⟨caller, h ▸ hlock⟩
  · exact h.elim

lemma LaptopFactory.Entered.nodes {f : LaptopFactory} (h : f.Entered) :
    f.metaLock.nodes = f.metadata.nodeSocket := by
  obtain ⟨caller, hlock⟩ := h.loop
  rw [hlock, MetaLock.nodes, List.append_nil]

lemma LaptopFactory.Entered.replicating {f : LaptopFactory} (h : f.Entered) :
    f.Replicating := by
  obtain ⟨caller, hlock⟩ := h.loop
  simp [LaptopFactory.Replicating, hlock]

/-- The caller has what the call needs. -/
theorem CallBegins.inCall (h : CallBegins cfg s c) : InCall cfg s c := by
  obtain ⟨c₀, tr, hrun, hsame⟩ := h.reachable
  have hwf := wellFormed hrun h.mem
  have halloc := allocated_of_run hrun h.mem
  rw [hsame] at hwf halloc
  have hsound := hwf.sound
  obtain ⟨sent, hsent⟩ := Option.isSome_iff_exists.1 (halloc.loop h.entered.replicating)
  have hboth := hsound.allocated
  rw [hsent, Option.isSome_some] at hboth
  obtain ⟨ack, hack⟩ := Option.isSome_iff_exists.1 hboth.symm
  refine ⟨h.mem, hwf.placed, ⟨?_, hsound.stored.sized, hsound.entry_term,
    ⟨sent, hsent, (hsound.sent sent hsent).length⟩, ⟨ack, hack, (hsound.ack ack hack).length⟩⟩,
    fun node hnode => ?_, fun node hnode => h.answering node (h.entered.nodes ▸ hnode), h.quiet⟩
  · rw [hwf.placed.factoryId]
    exact h.valid
  · have hslot := hwf.placed.slot_lt (hwf.placed.visiting node hnode)
    have hlen := (hsound.sent sent hsent).length
    have hin : (c.server s).metadata.slot node < sent.length := by omega
    have hget := List.getElem?_eq_getElem hin
    obtain ⟨hnonneg, hle⟩ := (hsound.sent sent hsent).bounds _ (List.mem_of_getElem? hget)
    have hsize := hsound.stored.logSize
    refine ⟨(sent[(c.server s).metadata.slot node]).toNat, sentTo_eq_some.2 ⟨sent, hsent, ?_⟩,
      by omega⟩
    rw [hget, Int.toNat_of_nonneg hnonneg]

/-- A call that begins with a peer that nothing will move. -/
lemma CallBegins.stuck (h : CallBegins cfg s c) {p : ServerNode}
    (hp : p ∈ (c.server s).metadata.nodeSocket) (hbehind : (c.server s).metadata.Behind p)
    (hspins : (c.server s).metadata.status ≠ .leader ∨ ¬ CanRepair c s p)
    (hwilling : ∀ node ∈ (c.server s).metadata.nodeSocket,
      (c.server s).metadata.Behind node → ¬ Refuses c s node) : Stuck cfg s p c := by
  refine ⟨h.inCall, h.entered.replicating, hbehind, hspins, ?_,
    fun caller rest new change hlock => ?_⟩
  · unfold Willing
    rw [h.entered.nodes]
    exact hwilling
  · obtain ⟨caller', hlock'⟩ := h.entered.loop
    cases hlock.symm.trans hlock'
    exact Or.inl hp

/-- **When a call of `ReplicateLog` ends**: some connected peer that is sent an entry refuses it,
or the caller is leader and every connected peer that is behind can be repaired. -/
theorem replicateLog_ends_iff (h : CallBegins cfg s c) :
    Ends s c ↔
      (∃ node ∈ (c.server s).metadata.nodeSocket,
        (c.server s).metadata.Behind node ∧ Refuses c s node) ∨
      ∀ node ∈ (c.server s).metadata.nodeSocket, (c.server s).metadata.Behind node →
        (c.server s).metadata.status = .leader ∧ CanRepair c s node := by
  obtain ⟨caller, hlock⟩ := h.entered.loop
  by_cases hrefused : ∃ node ∈ (c.server s).metadata.nodeSocket,
      (c.server s).metadata.Behind node ∧ Refuses c s node
  · obtain ⟨node, hnode, hbehind, hrefuses⟩ := hrefused
    exact iff_of_true (ends_of_refusing h.inCall hlock hnode hbehind hrefuses)
      (Or.inl ⟨node, hnode, hbehind, hrefuses⟩)
  have hwilling : ∀ node ∈ (c.server s).metadata.nodeSocket,
      (c.server s).metadata.Behind node → ¬ Refuses c s node :=
    fun node hnode hbehind hrefuses => hrefused ⟨node, hnode, hbehind, hrefuses⟩
  rw [or_iff_right hrefused]
  constructor
  · intro hends node hnode hbehind
    by_contra hno
    exact (h.stuck hnode hbehind (not_and_or.1 hno) hwilling).not_ends hends
  · intro hmends
    have hmending : Mending cfg s c := by
      refine ⟨h.inCall, h.entered.replicating, ?_, ?_⟩
      · unfold Willing
        rw [h.entered.nodes]
        exact hwilling
      · rw [h.entered.nodes]
        exact hmends
    obtain ⟨c', hcall, -, hfinished⟩ := hmending.finishes (K := fun _ => True) trivial
      fun _ _ _ _ _ _ => trivial
    obtain ⟨c'', hst, hfree, -⟩ := returns_of_finished hfinished
    exact ⟨c'', hcall.tail hst, hfree⟩

end Begin

instance (c : Cluster) (s : ℤ) (node : ServerNode) : Decidable (Answering c s node) :=
  decidable_of_iff (c.link s node.id = true ∧ (c.server node.id).metaLock = .free ∧
      ((c.server node.id).metadata.logSize = (c.server node.id).metadata.smrLog.length ∧
        0 ≤ (c.server node.id).metadata.commitLength ∧
        (c.server node.id).metadata.commitLength ≤ (c.server node.id).metadata.logSize) ∧
      (c.server node.id).metadata.factoryId ≠ -1)
    ⟨fun h => ⟨h.1, h.2.1, ⟨h.2.2.1.1, h.2.2.1.2.1, h.2.2.1.2.2⟩, h.2.2.2⟩,
      fun h => ⟨h.link, h.free, ⟨h.sized.logSize, h.sized.commit_nonneg, h.sized.commit_le⟩,
        h.known⟩⟩

instance (c : Cluster) (s : ℤ) (node : ServerNode) : Decidable (Refuses c s node) :=
  inferInstanceAs (Decidable (¬ (_ ∨ _)))

/-- A call by hand: the labels that lead to its entry. -/
lemma callBegins_of_play (cfg : Config) (s : ℤ) {P : Cluster → Prop} [∀ c, Decidable (P c)]
    (before : List Label) (hs : s ∈ cfg.ids) (hvalid : s ≠ -1)
    (h : (play cfg TransitionSystem.anyStep before).any fun p =>
      ((p.1.server s).Entered ∧ (p.1.server s).wire = .quiet ∧
        ∀ node ∈ (p.1.server s).metadata.nodeSocket, Answering p.1 s node) ∧ P p.1) :
    ∃ c, CallBegins cfg s c ∧ P c := by
  obtain ⟨c, tr, hrun, ⟨hentered, hquiet, hanswering⟩, hP⟩ := run_of_play cfg
    TransitionSystem.anyStep (P := fun c _ => ((c.server s).Entered ∧ (c.server s).wire = .quiet ∧
      ∀ node ∈ (c.server s).metadata.nodeSocket, Answering c s node) ∧ P c) before h
  exact ⟨c, ⟨hs, hvalid, ⟨c, tr, hrun, rfl⟩, hentered, hquiet, hanswering⟩, hP⟩

theorem replicateLog_ends_oneUpdate : ∃ c, CallBegins three 0 c ∧
    (c.server 0).metadata.smrLog = [⟨1, 7, 1⟩] ∧ Ends 0 c := by
  obtain ⟨c, hbegins, hlog, hleader, hshorter⟩ := callBegins_of_play three 0
    (P := fun c => (c.server 0).metadata.smrLog = [⟨1, 7, 1⟩] ∧
      (c.server 0).metadata.status = .leader ∧
      ∀ node ∈ (c.server 0).metadata.nodeSocket,
        (c.server node.id).metadata.smrLog <+: (c.server 0).metadata.smrLog)
    (stand 0 ++ callVote 0 ++ submit 0 7 1) (by decide) (by decide) (by decide +kernel)
  exact ⟨c, hbegins, hlog, (replicateLog_ends_iff hbegins).2 (Or.inr fun node hnode _ =>
    ⟨hleader, repairable_of_isPrefix (hshorter node hnode)⟩)⟩

/-- Server 0 is leader of term 1 and has taken an update from its queue when server 1 stands in
term 2 and gets its vote.  `LeaderThread` appends the update all the same, and the call of
`ReplicateLog`, by a server that is not leader any more, goes round for ever. -/
theorem replicateLog_spins : ∃ c, CallBegins three 0 c ∧
    (c.server 0).metadata.status = .follower ∧ ¬ Ends 0 c := by
  obtain ⟨c, hbegins, hstatus, hpeer, hbehind, hwilling⟩ := callBegins_of_play three 0
    (P := fun c => (c.server 0).metadata.status = .follower ∧
      ⟨1, 1, "", 0⟩ ∈ (c.server 0).metadata.nodeSocket ∧
      (c.server 0).metadata.Behind ⟨1, 1, "", 0⟩ ∧
      ∀ node ∈ (c.server 0).metadata.nodeSocket, (c.server 0).metadata.Behind node →
        ¬ Refuses c 0 node)
    (stand 0 ++ callVote 0 ++ [.createLaptop 0 0 ⟨7, 1, 1⟩, .dequeue 0 0] ++ timeOut 1 ++
      stand 1 ++ callVote 1 ++ [.leaderMaintainLog 0 0 []]) (by decide) (by decide)
    (by decide +kernel)
  exact ⟨c, hbegins, hstatus, (hbegins.stuck hpeer hbehind (Or.inl (by simp [hstatus]))
    hwilling).not_ends⟩

end LaptopRaft
