import LaptopRaft.Replication.Matching
import Mathlib.Data.List.Pairwise

/-!
# The terms along a log

`GetVoteResponse` compares the last terms of two logs, which says something about the logs only
if the terms along each of them do not decrease.  They do not, and none of them is above the
server's own term (`terms_ordered`), as long as no follower is handed a log request of a term
below that of an entry it holds: the guard of `GetLogResponse` lets such a request lower
`current_term` below the log (`term_below_log`), and the next leader of the lower term would
append behind the higher entries.

The invariant also covers the log requests on their way (`OrderedRequest`), for what a follower
appends is what some server has read from its own log.
-/

namespace LaptopRaft

open ServerMetadata

/-- The terms along a log do not decrease, and none is above `t`. -/
structure Ordered (t : ℤ) (log : List MapOp) : Prop where
  sorted : log.Pairwise fun a b => a.term ≤ b.term
  bound : ∀ op ∈ log, op.term ≤ t

/-- `t` is the largest term of the log. -/
def LargestTerm (log : List MapOp) (t : ℤ) : Prop :=
  (∀ op ∈ log, op.term ≤ t) ∧ (log ≠ [] → ∃ op ∈ log, op.term = t)

/-- Every log is in the order of its terms and within the current term, and `GetLastTerm` returns
its largest term. -/
def TermsOrdered (cfg : Config) (c : Cluster) : Prop :=
  ∀ s ∈ cfg.ids, Ordered (c.server s).metadata.currentTerm (c.server s).metadata.smrLog ∧
    ∃ t, (c.server s).metadata.getLastTerm = some t ∧
      LargestTerm (c.server s).metadata.smrLog t

/-- No follower is handed a log request of a term below that of an entry it holds. -/
def NoOvertakenRequest (c : Cluster) (l : Label) : Prop :=
  match c.delivered l with
  | some (p, .log req) => (c.server p).metadata.status = .follower →
      ∀ op ∈ (c.server p).metadata.smrLog, op.term ≤ req.currentTerm
  | _ => True

instance (c : Cluster) (l : Label) : Decidable (NoOvertakenRequest c l) := by
  unfold NoOvertakenRequest
  exact match c.delivered l with
    | some (_, .log _) => inferInstance
    | some (_, .vote _) | none => instDecidableTrue

/-! ## Ordered logs -/

section Ordered

variable {t : ℤ} {log : List MapOp}

lemma Ordered.nil (t : ℤ) : Ordered t [] :=
  ⟨.nil, fun _ hop => absurd hop List.not_mem_nil⟩

lemma Ordered.mono (h : Ordered t log) {t' : ℤ} (hle : t ≤ t') : Ordered t' log :=
  ⟨h.sorted, fun op hop => (h.bound op hop).trans hle⟩

/-- Nothing is above the last entry. -/
lemma Ordered.le_getLast (h : Ordered t log) {last : MapOp} (hlast : log.getLast? = some last) :
    ∀ op ∈ log, op.term ≤ last.term := by
  intro op hop
  have hle := h.sorted.rel_getLast_of_rel_getLast_getLast hop (le_refl _)
  rw [List.getLast?_eq_some_getLast (List.ne_nil_of_mem hop)] at hlast
  rwa [Option.some.inj hlast] at hle

/-- An entry may follow the last one. -/
lemma Ordered.concat (h : Ordered t log) {op : MapOp} (hop : op.term ≤ t)
    (hlast : ∀ last, log.getLast? = some last → last.term ≤ op.term) : Ordered t (log ++ [op]) := by
  constructor
  · rw [List.pairwise_append]
    refine ⟨h.sorted, List.pairwise_singleton _ _, fun a ha b hb => ?_⟩
    rw [List.mem_singleton.1 hb]
    have hget := List.getLast?_eq_some_getLast (List.ne_nil_of_mem ha)
    exact (h.le_getLast hget a ha).trans (hlast _ hget)
  · intro a ha
    rcases List.mem_append.1 ha with hold | hnew
    · exact h.bound a hold
    · rw [List.mem_singleton.1 hnew]
      exact hop

/-- The last term of an ordered log is its largest. -/
lemma Ordered.largestTerm (h : Ordered t log) : LargestTerm log (lastTerm log) := by
  unfold LargestTerm lastTerm
  cases hlast : log.getLast? with
  | none => simp [List.getLast?_eq_none_iff.1 hlast]
  | some last =>
      exact ⟨h.le_getLast hlast, fun _ => ⟨last, List.mem_of_getLast? hlast, rfl⟩⟩

end Ordered

/-! ## Requests on their way -/

/-- An entry request carries an entry that may follow the one at its prefix. -/
structure OrderedRequest (req : LogRequest) : Prop where
  bound : req.opTerm ≤ req.currentTerm
  follows : 0 < req.prefixLength → req.prefixTerm ≤ req.opTerm

def OrderedRpc : Rpc → Prop
  | .vote _ => True
  | .log req => req.opTerm ≠ -1 → OrderedRequest req

section Requests

variable {md md' : ServerMetadata}

/-- What a server reads from an ordered log. -/
lemma ServerMetadata.RequestBuilt.ordered {node : ServerNode} {req : LogRequest}
    (hbuilt : RequestBuilt md node req) (hsound : Sound md)
    (h : Ordered md.currentTerm md.smrLog) (hentry : req.opTerm ≠ -1) : OrderedRequest req := by
  rcases hbuilt.kinds hsound with ⟨-, hbeat⟩ | ⟨-, -, hop⟩
  · exact absurd hbeat hentry
  constructor
  · rw [hbuilt.term]
    exact h.bound req.op (List.mem_of_getElem? hop)
  · intro hpos
    have hprefix := hbuilt.prefixTerm
    rw [getPrefixTerm_of_pos hpos] at hprefix
    obtain ⟨before, hbefore, hterm⟩ := Option.map_eq_some_iff.1 hprefix
    obtain ⟨hi, rfl⟩ := List.getElem?_eq_some_iff.1 hbefore
    obtain ⟨hj, hget⟩ := List.getElem?_eq_some_iff.1 hop
    have hle := List.pairwise_iff_getElem.1 h.sorted _ _ hi hj (by omega)
    rw [hget, hterm] at hle
    exact hle

/-- Following the sender keeps the term above the log. -/
lemma Ordered.adoptLeader (h : Ordered md.currentTerm md.smrLog) {req : LogRequest}
    (hbound : md.status = .follower → ∀ op ∈ md.smrLog, op.term ≤ req.currentTerm) :
    Ordered (md.adoptLeader req).currentTerm md.smrLog := by
  rcases adoptLeader_cases md req with ⟨hle | hfollower, heq⟩ | ⟨-, -, heq⟩
  · rw [heq]
    exact h.mono hle
  · rw [heq]
    exact ⟨h.sorted, hbound hfollower⟩
  · rw [heq]
    exact h

/-- A follower keeps its log in order. -/
lemma ServerMetadata.LogAnswer.ordered {req : LogRequest} {res : LogResponse}
    (hanswer : LogAnswer md req md' res) (hsize : md.logSize = md.smrLog.length)
    (hreq : req.opTerm ≠ -1 → OrderedRequest req)
    (hbound : md.status = .follower → ∀ op ∈ md.smrLog, op.term ≤ req.currentTerm)
    (h : Ordered md.currentTerm md.smrLog) : Ordered md'.currentTerm md'.smrLog := by
  have hadopt := h.adoptLeader hbound
  cases hanswer with
  | refused hno =>
      change Ordered (md.adoptLeader req).currentTerm (md.adoptLeader req).smrLog
      rw [adoptLeader_smrLog]
      exact hadopt
  | held hterm hcan hlonger =>
      change Ordered (md.adoptLeader req).currentTerm (md.adoptLeader req).smrLog
      rw [adoptLeader_smrLog]
      exact hadopt
  | extended hterm hcan hends hexec =>
      have hcurrent : ((md.adoptLeader req).appended req).currentTerm =
          (md.adoptLeader req).currentTerm := by rw [appended_eq]
      change Ordered ((md.adoptLeader req).appended req).currentTerm
        ((md.adoptLeader req).appended req).smrLog
      rw [hcurrent, appended_smrLog, adoptLeader_smrLog]
      by_cases hentry : req.opTerm = -1
      · simpa [hentry] using hadopt
      · rw [if_pos hentry]
        refine hadopt.concat ?_ fun last hlast => ?_
        · rw [hterm]
          exact (hreq hentry).bound
        · -- the log ends at the prefix, so the announced term is that of its last entry
          obtain ⟨-, hprefix⟩ := canLog_getElem hcan
          rw [adoptLeader_smrLog] at hprefix
          rw [List.getLast?_eq_getElem?] at hlast
          obtain ⟨hlt, -⟩ := List.getElem?_eq_some_iff.1 hlast
          have hpos : 0 < req.prefixLength := by omega
          obtain ⟨op, hop, hopTerm⟩ := hprefix hpos
          have hidx : req.prefixLength.toNat - 1 = md.smrLog.length - 1 := by omega
          rw [hidx, hlast] at hop
          rw [Option.some.inj hop, hopTerm]
          exact (hreq hentry).follows hpos

end Requests

/-! ## Runs -/

section Runs

variable {cfg : Config} {c : Cluster} {tr : List Event}

lemma ThreadStep.ordered {s : ℤ} {f f' : LaptopFactory} {l : Label} {es : List Event}
    (hstep : ThreadStep s f l f' es) (hwf : WellFormed cfg s f)
    (h : Ordered f.metadata.currentTerm f.metadata.smrLog) :
    Ordered f'.metadata.currentTerm f'.metadata.smrLog := by
  have hle := hstep.term_le hwf
  cases hstep.logStep hwf with
  | quiet hsilent hlog =>
      rw [hlog]
      exact h.mono hle
  | elected hlock hlog =>
      rw [hlog]
      exact h.mono hle
  | append hlabel hop hlog hterm =>
      rw [hlog, hterm]
      refine h.concat hop.le fun last hlast => ?_
      rw [hop]
      exact h.bound last (List.mem_of_getLast? hlast)

theorem ordered_of_run (hrun : (system cfg).Run NoOvertakenRequest c tr) :
    (∀ s, s ∈ cfg.ids → Ordered (c.server s).metadata.currentTerm (c.server s).metadata.smrLog) ∧
      ∀ p rpc, (p, rpc) ∈ c.pending → OrderedRpc rpc := by
  refine run_invariant (P := fun s f _ => s ∈ cfg.ids →
    Ordered f.metadata.currentTerm f.metadata.smrLog) (Q := fun _ => OrderedRpc)
    ?_ ?_ ?_ ?_ ?_ ?_ ?_ hrun
  · intro connects s _
    obtain ⟨index, heq, -⟩ := bootMetadata_eq cfg connects s
    have hmetadata : ((boot cfg connects).server s).metadata = _ := heq
    rw [hmetadata]
    exact .nil _
  · exact fun _ _ _ _ _ h => h
  · intro c tr l s f es hrun _ hs hstep h _
    exact hstep.ordered (wellFormed hrun hs) (h hs)
  · intro c tr s node rpc hrun hs hwire h
    cases rpc with
    | vote msg => trivial
    | log req =>
        have hwf := wellFormed hrun hs
        have hbuilt := logRequestFor_cases (hwf.flow.logRequest node req hwire).2
        exact hbuilt.ordered hwf.sound (h hs)
  · exact fun _ _ _ => trivial
  · intro c tr l p rpc md reply hrun hok hrpc hdelivered hserved h hp
    cases hserved with
    | vote hfree hanswer =>
        rcases hanswer.cases with ⟨hlt, rfl⟩ | ⟨-, rfl⟩
        · exact (h hp).mono hlt.le
        · exact h hp
    | @log req _ res hfree hvalid hanswer =>
        have hstored := (wellFormed hrun hp).sound.stored
        have hbound := hok
        simp only [NoOvertakenRequest, hdelivered] at hbound
        exact (getLogResponse_cases hstored hanswer).ordered hstored.logSize hrpc hbound (h hp)
  · exact fun _ _ _ _ _ _ _ _ _ _ _ h => h

/-- **Terms are in order in every log**, after every run in which no follower is handed a log
request of a term below its log's. -/
theorem terms_ordered (hrun : (system cfg).Run NoOvertakenRequest c tr) : TermsOrdered cfg c := by
  intro s hs
  have hordered := (ordered_of_run hrun).1 s hs
  have hsize := (wellFormed hrun hs).sound.stored.logSize
  exact ⟨hordered, _, getLastTerm_eq hsize, hordered.largestTerm⟩

end Runs

theorem terms_ordered_oneUpdate : ∃ c tr, (system three).Run NoOvertakenRequest c tr ∧
    (c.server 2).metadata.smrLog = [⟨1, 7, 1⟩] ∧ TermsOrdered three c := by
  obtain ⟨c, tr, hrun, hlog⟩ := run_of_play three NoOvertakenRequest
    (P := fun c _ => (c.server 2).metadata.smrLog = [⟨1, 7, 1⟩]) oneUpdate (by decide +kernel)
  exact ⟨c, tr, hrun, hlog, terms_ordered hrun⟩

/-- Server 2 has an entry of term 2 when the heartbeat of the leader of term 1 reaches it. -/
theorem term_below_log : ∃ c tr, (system threeApart).Run TransitionSystem.anyStep c tr ∧
    (c.server 2).metadata.currentTerm = 1 ∧ (c.server 2).metadata.smrLog = [⟨2, 7, 1⟩] ∧
    ¬ TermsOrdered threeApart c := by
  obtain ⟨c, tr, hrun, hterm, hlog⟩ := run_of_play threeApart TransitionSystem.anyStep
    (P := fun c _ => (c.server 2).metadata.currentTerm = 1 ∧
      (c.server 2).metadata.smrLog = [⟨2, 7, 1⟩])
    (unawareLeader ++ heartbeat 0 ++ callLog 0 ++ submit 1 7 1 ++ callLog 1 ++
      [.sendLogRequest 0, .handle 0]) (by decide +kernel)
  refine ⟨c, tr, hrun, hterm, hlog, fun hordered => ?_⟩
  have hbound := (hordered 2 (by decide)).1.bound ⟨2, 7, 1⟩ (by simp [hlog])
  rw [hterm] at hbound
  exact absurd hbound (by decide)

end LaptopRaft
