import LaptopRaft.Replication.Agreement
import LaptopRaft.Service.Ledger
import Mathlib.Algebra.Order.BigOperators.Group.Finset

/-!
# Where the entries of a log come from

Whatever happens to the leadership of the cluster, no server makes up an update: every entry of
every log was appended by some server for a request that was sent to it (`entries_requested`), and
what a read returns is the order number of such a request.  This needs no condition.  A log request
decoded from stale buffers would be a source of entries, but it is recognised as invalid.

Nor is an update there twice as long as logs match: a log has no entry more often than it was
appended, over all servers (`count_written`), and so no update more often than it was requested
(`no_update_twice`).
-/

namespace LaptopRaft

open ServerMetadata TransitionSystem

/-- The entries the servers have appended by `LeaderMaintainLog`. -/
def written (tr : List Event) : List MapOp :=
  tr.filterMap fun
    | .append _ op => some op
    | _ => none

lemma written_append (tr es : List Event) : written (tr ++ es) = written tr ++ written es := by
  rw [written, List.filterMap_append, written, written]

lemma NoAppend.written {es : List Event} (h : NoAppend es) : written es = [] := by
  refine List.filterMap_eq_nil_iff.2 fun e he => ?_
  cases e with
  | append s op => exact absurd he (h s op)
  | _ => rfl

lemma mem_written {tr : List Event} {op : MapOp} :
    op ∈ written tr ↔ ∃ s, .append s op ∈ tr := by
  rw [written, List.mem_filterMap]
  constructor
  · rintro ⟨e, he, hop⟩
    cases e with
    | append s op' =>
        obtain rfl := Option.some.inj hop
        exact ⟨s, he⟩
    | _ => cases hop
  · rintro ⟨s, hs⟩
    exact ⟨_, hs, rfl⟩

/-! ## Every entry was appended -/

/-- What is in the logs, or on its way to one, was appended by some server. -/
structure Sourced (cfg : Config) (c : Cluster) (tr : List Event) : Prop where
  logs : ∀ s ∈ cfg.ids, ∀ op ∈ c.log s, op ∈ written tr
  pending : ∀ p req, (p, .log req) ∈ c.pending → req.opTerm ≠ -1 → req.op ∈ written tr

section Sourced

variable {cfg : Config} {ok : Cluster → Label → Prop} {c c' : Cluster} {tr es : List Event}
  {l : Label} {s : ℤ}

/-- A request carries an entry of its sender. -/
lemma Sourced.request (h : Sourced cfg c tr) (hrun : (system cfg).Run ok c tr) (hs : s ∈ cfg.ids)
    {node : ServerNode} {req : LogRequest} (hwire : (c.server s).wire = .request node (.log req))
    (hentry : req.opTerm ≠ -1) : req.op ∈ written tr := by
  have hbuilt := logRequestFor_cases ((wellFormed hrun hs).flow.logRequest node req hwire).2
  rcases hbuilt.body with ⟨-, hbeat⟩ | ⟨-, hop⟩
  · exact absurd hbeat hentry
  · exact h.logs s hs _ (List.mem_of_getElem? (getOp_eq_some hop).2)

/-- A follower appends what the request carries, if anything. -/
lemma ServerMetadata.LogAnswer.mem_log {md md' : ServerMetadata} {req : LogRequest}
    {res : LogResponse} (h : LogAnswer md req md' res) {op : MapOp} (hop : op ∈ md'.smrLog) :
    op ∈ md.smrLog ∨ (req.opTerm ≠ -1 ∧ op = req.op) := by
  cases h with
  | refused | held =>
      change op ∈ (md.adoptLeader req).smrLog at hop
      rw [adoptLeader_smrLog] at hop
      exact Or.inl hop
  | extended =>
      change op ∈ ((md.adoptLeader req).appended req).smrLog at hop
      rw [appended_smrLog, adoptLeader_smrLog, List.mem_append] at hop
      rcases hop with hold | hnew
      · exact Or.inl hold
      · split at hnew
        · rename_i hentry
          exact Or.inr ⟨hentry, List.mem_singleton.1 hnew⟩
        · cases hnew

lemma Sourced.thread (h : Sourced cfg c tr) (hrun : (system cfg).Run ok c tr) (hs : s ∈ cfg.ids)
    {f : LaptopFactory} (hstep : ThreadStep s (c.server s) l f es)
    (hserver : c'.server = Function.update c.server s f)
    (hpending : ∀ x ∈ c'.pending, x ∈ c.pending ∨ x ∈ (c.server s).wire.abandoned) :
    Sourced cfg c' (tr ++ es) := by
  constructor
  · intro q hq op hop
    rw [written_append, List.mem_append]
    unfold Cluster.log at hop
    rw [hserver] at hop
    by_cases hqs : q = s
    · subst hqs
      rw [Function.update_self] at hop
      have hold : op ∈ (c.server q).metadata.smrLog → op ∈ written tr ∨ op ∈ written es :=
        fun hin => Or.inl (h.logs q hq op hin)
      cases hstep.logStep (wellFormed hrun hs) with
      | quiet hsilent hlog => exact hold (hlog ▸ hop)
      | elected hlock hlog => exact hold (hlog ▸ hop)
      | @append i accepts op' hlabel hterm hlog hsame hes =>
          rw [hlog, List.mem_append, List.mem_singleton] at hop
          rcases hop with hin | rfl
          · exact hold hin
          · refine Or.inr (mem_written.2 ⟨q, ?_⟩)
            rw [hes]
            exact List.mem_cons_self
    · rw [Function.update_of_ne hqs] at hop
      exact Or.inl (h.logs q hq op hop)
  · intro p req hin hentry
    rw [written_append, List.mem_append]
    rcases hpending _ hin with hold | habandoned
    · exact Or.inl (h.pending p req hold hentry)
    · obtain ⟨node, hwire, -⟩ := Wire.eq_of_mem_abandoned habandoned
      exact Or.inl (h.request hrun hs hwire hentry)

lemma Sourced.served (h : Sourced cfg c tr) (hrun : (system cfg).Run ok c tr)
    (hst : (system cfg).step c l = some (c', es)) {p : ℤ} {rpc : Rpc} {reply : Reply}
    (hdelivered : c.delivered l = some (p, rpc)) (hhandled : Handled c c' p rpc reply) :
    Sourced cfg c' (tr ++ c.served p rpc reply) := by
  obtain ⟨hserved, hothers, hpending⟩ := hhandled
  have hsame : written (tr ++ c.served p rpc reply) = written tr := by
    have hnone : NoAppend (c.served p rpc reply) := noAppend_served
    rw [written_append, hnone.written, List.append_nil]
  constructor
  · rw [hsame]
    intro q hq op hop
    by_cases hqp : q = p
    · subst hqp
      have hold := h.logs q hq op
      have hstored := (wellFormed hrun hq).sound.stored
      unfold Cluster.log at hop
      generalize (c'.server q).metadata = md at hserved hop
      cases hserved with
      | vote hfree hanswer =>
          rw [hanswer.frame] at hop
          exact hold hop
      | @log req _ res hfree hvalid hanswer =>
          rcases (getLogResponse_cases hstored hanswer).mem_log hop with hin | ⟨hentry, rfl⟩
          · exact hold hin
          · rcases log_delivered_cases hst hdelivered with ⟨s, hs, node, hwire⟩ | hin
            · exact h.request hrun hs hwire hentry
            · exact h.pending q req hin hentry
    · unfold Cluster.log at hop
      rw [hothers q hqp] at hop
      exact h.logs q hq op hop
  · rw [hsame]
    exact fun q req hin => h.pending q req (hpending _ hin)

theorem sourced_of_run (hrun : (system cfg).Run ok c tr) : Sourced cfg c tr := by
  refine TransitionSystem.Run.invariant (I := Sourced cfg) ?_ ?_ hrun
  · rintro _ ⟨connects, rfl⟩
    refine ⟨fun s _ op hop => ?_, fun p req hin => absurd hin List.not_mem_nil⟩
    obtain ⟨index, heq, -⟩ := bootMetadata_eq cfg connects s
    have hmetadata : ((boot cfg connects).server s).metadata = _ := heq
    rw [Cluster.log, hmetadata] at hop
    cases hop
  · intro c tr l c' es hrun ih _ hst
    rcases step_cases hst with ⟨s, f, hs, hstep, hserver, hpending⟩ |
      ⟨p, rpc, reply, hdelivered, hhandled, rfl⟩
    · exact ih.thread hrun hs hstep hserver hpending
    · exact ih.served hrun hst hdelivered hhandled

end Sourced

/-! ## Every entry was requested -/

section Requested

variable {cfg : Config} {ok : Cluster × (ℤ → Ledger) → Label → Prop}
  {p : Cluster × (ℤ → Ledger)} {tr : List Event} {s : ℤ}

/-- Some server got a request for this update, and has appended it. -/
def Requested (cfg : Config) (p : Cluster × (ℤ → Ledger)) (customer order : ℤ) : Prop :=
  ∃ a ∈ cfg.ids, ∃ k ∈ (p.2 a).work.done, ∃ request stub,
    (p.2 a).requests[k]? = some (request, stub) ∧ request.customerId = customer ∧
      request.orderNumber = order

lemma mem_appendsOf {s : ℤ} {op : MapOp} (h : .append s op ∈ tr) : op ∈ appendsOf s tr :=
  List.mem_filterMap.2 ⟨_, h, if_pos rfl⟩

lemma requested_of_written (hrun : (ledgered cfg).Run ok p tr) {op : MapOp}
    (hop : op ∈ written tr) : Requested cfg p op.arg1 op.arg2 := by
  obtain ⟨a, ha⟩ := mem_written.1 hop
  have hmem : some (op.arg1, op.arg2) ∈
      (appendsOf a tr).map (fun op => some (op.arg1, op.arg2)) :=
    List.mem_map_of_mem (mem_appendsOf ha)
  rw [(follows_of_run hrun a).appended] at hmem
  obtain ⟨k, hk, hreq⟩ := List.mem_map.1 hmem
  obtain ⟨req, hqueued, hpair⟩ := Option.map_eq_some_iff.1 hreq
  obtain ⟨request, stub, hget, rfl⟩ := queued_eq_some hqueued
  obtain ⟨hcustomer, horder⟩ := Prod.mk.inj hpair
  exact ⟨a, server_mem_of_run hrun.forget _ ha, k, hk, request, stub, hget, hcustomer, horder⟩

/-- **No update is made up.** -/
theorem entries_requested (hrun : (ledgered cfg).Run ok p tr) (hs : s ∈ cfg.ids) :
    (∀ op ∈ p.1.log s, Requested cfg p op.arg1 op.arg2) ∧
      ∀ customer, (p.1.server s).metadata.getValue customer ≠ -1 →
        Requested cfg p customer ((p.1.server s).metadata.getValue customer) := by
  have hlog : ∀ op ∈ p.1.log s, Requested cfg p op.arg1 op.arg2 := fun op hop =>
    requested_of_written hrun ((sourced_of_run hrun.forget).logs s hs op hop)
  refine ⟨hlog, fun customer hvalue => ?_⟩
  have hget := (wellFormed hrun.forget hs).sound.stored.getValue_eq customer
  rw [hget] at hvalue ⊢
  unfold lastOrder at hvalue ⊢
  cases hlast : (((p.1.log s).take (p.1.server s).metadata.commitLength.toNat).filter
      (·.arg1 = customer)).getLast? with
  | none =>
      unfold Cluster.log at hlast
      rw [hlast] at hvalue
      exact absurd rfl hvalue
  | some op =>
      have hop := List.mem_filter.1 (List.mem_of_getLast? hlast)
      have hcustomer : op.arg1 = customer := of_decide_eq_true hop.2
      unfold Cluster.log at hlast
      rw [hlast, ← hcustomer]
      exact hlog op (List.mem_of_mem_take hop.1)

end Requested

theorem entries_requested_oneUpdate : ∃ p tr, (ledgered three).Run anyStep p tr ∧
    (p.1.server 2).metadata.getValue 7 = 1 ∧ Requested three p 7 1 := by
  obtain ⟨p, tr, hrun, hvalue⟩ := run_of_exec (ledgered three) anyStep
    (boot three fun _ _ => true, fun _ => {}) ⟨⟨_, rfl⟩, rfl⟩ oneUpdate
    (P := fun p _ => (p.1.server 2).metadata.getValue 7 = 1) (by decide +kernel)
  have hrequested := (entries_requested (s := 2) hrun (by decide)).2 7 (by rw [hvalue]; decide)
  rw [hvalue] at hrequested
  exact ⟨p, tr, hrun, hvalue, hrequested⟩

/-! ## No update twice -/

section Once

variable {cfg : Config} {c : Cluster} {tr es : List Event}

lemma not_silent_append (s : ℤ) (op : MapOp) : ¬ (Event.append s op).Silent := by
  intro hsilent
  have hone := hsilent op.term []
  simp [Event.extend] at hone

/-- The log of a term has the entries of the term as often as they were appended.  The log its
leader was elected with has none of them. -/
theorem count_written (hrun : (system cfg).Run KeepsLogs c tr) (op : MapOp) :
    (termLog tr op.term).count op = (written tr).count op := by
  refine TransitionSystem.Run.invariant
    (I := fun _ tr => (termLog tr op.term).count op = (written tr).count op) ?_ ?_ hrun
  · exact fun _ _ => rfl
  · intro c tr l c' es hrun ih hok hst
    have hsilence : (∀ e ∈ es, e.Silent) →
        (termLog (tr ++ es) op.term).count op = (written (tr ++ es)).count op := by
      intro hsilent
      have hnone : NoAppend es := fun s op' hin => not_silent_append s op' (hsilent _ hin)
      rw [termLog_of_silent hsilent, written_append, hnone.written, List.append_nil]
      exact ih
    rcases step_cases hst with ⟨s, f, hs, hstep, -⟩ | ⟨p, rpc, reply, -, -, rfl⟩
    · cases hstep.logStep (wellFormed hrun hs) with
      | quiet hsilent => exact hsilence hsilent
      | elected hlock hlog hterm hes =>
          subst hes
          have hunled := (matching_of_run hrun).unled _
            (elected_first hrun hs hlock (.step hrun hok hst))
          have hwritten : written (tr ++ [.initLeader s (c.server s).metadata.currentTerm
              (c.server s).metadata.smrLog]) = written tr := by
            rw [written_append]
            exact List.append_nil _
          rw [termLog_initLeader, hwritten, ← ih]
          by_cases hsame : op.term = (c.server s).metadata.currentTerm
          · have hcount := ((matching_of_run hrun).logs s hs).count_le op
            rw [hsame, hunled, List.count_nil] at hcount
            rw [hsame, Function.update_self, hunled, List.count_nil]
            exact Nat.le_zero.1 hcount
          · rw [Function.update_of_ne hsame]
      | @append i accepts op' hlabel hop hlog hterm hes =>
          subst hes
          have hwritten : written (tr ++ [.append s op', .accept s
              (c.server s).metadata.currentTerm ((c.server s).metadata.logSize + 1)]) =
              written tr ++ [op'] := written_append _ _
          rw [termLog_write, hwritten, List.count_append, ← ih]
          by_cases hsame : op.term = op'.term
          · rw [hsame, Function.update_self, List.count_append]
          · have hne : op' ≠ op := by
              rintro rfl
              exact hsame rfl
            rw [Function.update_of_ne hsame, List.count_singleton,
              if_neg (by simpa using hne), Nat.add_zero]
    · exact hsilence fun e he => silent_of_served he

/-- So no log has an entry more often than it was appended. -/
lemma log_le_written (hrun : (system cfg).Run KeepsLogs c tr) {s : ℤ} (hs : s ∈ cfg.ids) :
    (c.log s : Multiset MapOp) ≤ written tr := by
  refine Multiset.le_iff_count.2 fun op => ?_
  rw [Multiset.coe_count, Multiset.coe_count, ← count_written hrun op]
  exact ((matching_of_run hrun).logs s hs).count_le op

/-- An update of `customer` to `order`. -/
def MapOp.Updates (customer order : ℤ) (op : MapOp) : Prop := op.arg1 = customer ∧ op.arg2 = order

instance (customer order : ℤ) : DecidablePred (MapOp.Updates customer order) :=
  fun op => inferInstanceAs (Decidable (op.arg1 = customer ∧ op.arg2 = order))

/-- How often `customer` has asked for `order`. -/
def Ledger.asked (g : Ledger) (customer order : ℤ) : ℕ :=
  g.requests.countP fun r => r.1.customerId = customer ∧ r.1.orderNumber = order

/-- The members have written all there is. -/
lemma countP_written (hmem : ∀ q op, .append q op ∈ tr → q ∈ cfg.ids) (P : MapOp → Bool) :
    (written tr).countP P = ∑ q ∈ cfg.ids, (appendsOf q tr).countP P := by
  induction tr with
  | nil => simp [written, appendsOf]
  | cons e tr ih =>
      have hone : (written [e]).countP P = ∑ q ∈ cfg.ids, (appendsOf q [e]).countP P := by
        cases e with
        | append s op =>
            have hs := hmem s op List.mem_cons_self
            rw [Finset.sum_eq_single_of_mem s hs]
            · simp [written, appendsOf]
            · intro q _ hq
              simp [appendsOf, Ne.symm hq]
        | _ => simp [written, appendsOf]
      have hsplit : ∀ q, (appendsOf q (e :: tr)).countP P =
          (appendsOf q [e]).countP P + (appendsOf q tr).countP P := by
        intro q
        rw [← List.countP_append, ← appendsOf_append]
        rfl
      have hwritten : written (e :: tr) = written [e] ++ written tr := written_append [e] tr
      rw [hwritten, List.countP_append, hone, ih fun q op h => hmem q op (List.mem_cons_of_mem e h),
        ← Finset.sum_add_distrib]
      exact Finset.sum_congr rfl fun q _ => (hsplit q).symm

lemma map_some_eq {α : Type*} (xs : List α) :
    xs.map some = (List.range xs.length).map fun k => xs[k]? := by
  refine List.ext_getElem (by simp) fun k hk _ => ?_
  rw [List.length_map] at hk
  simp [hk]

/-- A server appends no update more often than it was asked to: the numbers of the requests that
are done are different. -/
lemma Follows.countP_le {s : ℤ} {f : LaptopFactory} {g : Ledger} (h : Follows s f tr g)
    (customer order : ℤ) :
    (appendsOf s tr).countP (MapOp.Updates customer order) ≤ g.asked customer order := by
  let wanted : Option (ℤ × ℤ) → Bool := fun r => r = some (customer, order)
  let pair : Option (CustomerRequest × ℕ) → Option (ℤ × ℤ) :=
    Option.map fun r => (r.1.customerId, r.1.orderNumber)
  have happended : (appendsOf s tr).map (fun op => some (op.arg1, op.arg2)) =
      g.work.done.map fun k => pair g.requests[k]? := by
    rw [h.appended]
    refine List.map_congr_left fun k _ => ?_
    rw [Ledger.queued, Option.map_map]
    rfl
  have hdone : (g.work.done : Multiset ℕ) ≤ Multiset.range g.requests.length := by
    rw [h.arrived, g.work.balanced]
    exact Multiset.le_add_left _ _
  have hcount : ∀ xs : List ℕ, xs.countP (fun k => wanted (pair g.requests[k]?)) =
      ((xs : Multiset ℕ)).countP (fun k => wanted (pair g.requests[k]?)) := by
    intro xs
    rw [Multiset.coe_countP]
    simp
  calc (appendsOf s tr).countP (MapOp.Updates customer order)
      = ((appendsOf s tr).map fun op => some (op.arg1, op.arg2)).countP wanted := by
        rw [List.countP_map]
        refine List.countP_congr fun op _ => ?_
        rw [decide_eq_true_iff, Function.comp_apply, decide_eq_true_iff, Option.some.injEq,
          Prod.mk.injEq, MapOp.Updates]
    _ = g.work.done.countP (fun k => wanted (pair g.requests[k]?)) := by
        rw [happended, List.countP_map]
        rfl
    _ ≤ (List.range g.requests.length).countP (fun k => wanted (pair g.requests[k]?)) := by
        rw [hcount, hcount]
        exact Multiset.countP_le_of_le _ hdone
    _ = (g.requests.map some).countP (fun r => wanted (pair r)) := by
        rw [map_some_eq, List.countP_map]
        rfl
    _ = g.asked customer order := by
        rw [List.countP_map, Ledger.asked]
        refine List.countP_congr fun r _ => ?_
        simp [wanted, pair]

/-- **No update is there twice**, unless it was asked for twice: at any server of the cluster. -/
theorem no_update_twice {p : Cluster × (ℤ → Ledger)} {s : ℤ}
    (hrun : (ledgered cfg).Run (fun p l => KeepsLogs p.1 l) p tr) (hs : s ∈ cfg.ids)
    (customer order : ℤ) :
    (p.1.log s).countP (MapOp.Updates customer order) ≤
      ∑ q ∈ cfg.ids, (p.2 q).asked customer order := by
  have hmem : ∀ q op, .append q op ∈ tr → q ∈ cfg.ids := fun q op h =>
    server_mem_of_run hrun.forget _ h
  calc (p.1.log s).countP (MapOp.Updates customer order)
      ≤ (written tr).countP (MapOp.Updates customer order) := by
        have hle := Multiset.countP_le_of_le (MapOp.Updates customer order)
          (log_le_written hrun.forget_of hs)
        rwa [Multiset.coe_countP, Multiset.coe_countP] at hle
    _ = ∑ q ∈ cfg.ids, (appendsOf q tr).countP (MapOp.Updates customer order) :=
        countP_written hmem _
    _ ≤ ∑ q ∈ cfg.ids, (p.2 q).asked customer order :=
        Finset.sum_le_sum fun q _ => (follows_of_run hrun q).countP_le _ _

end Once

/-- Customer 7 asks for order 1 twice, and it is in the log of server 2 twice. -/
theorem no_update_twice_again : ∃ p tr,
    (ledgered three).Run (fun p l => KeepsLogs p.1 l) p tr ∧
    (p.1.log 2).countP (MapOp.Updates 7 1) = 2 ∧
    (p.1.log 2).countP (MapOp.Updates 7 1) ≤ ∑ q ∈ three.ids, (p.2 q).asked 7 1 := by
  obtain ⟨p, tr, hrun, hcount⟩ := run_of_exec (ledgered three) (fun p l => KeepsLogs p.1 l)
    (boot three fun _ _ => true, fun _ => {}) ⟨⟨_, rfl⟩, rfl⟩
    (oneUpdate ++ submit 0 7 1 ++ callLog 0 ++ callLog 0)
    (P := fun p _ => (p.1.log 2).countP (MapOp.Updates 7 1) = 2) (by decide +kernel)
  exact ⟨p, tr, hrun, hcount, no_update_twice hrun (by decide) 7 1⟩

end LaptopRaft
