import LaptopRaft.Election.Safety
import LaptopRaft.Framework.LogMatching
import LaptopRaft.Replication.Leadership

/-!
# Log matching

`termLog tr t` is the log of the leader of term `t`, put together from what was observed: what
it was elected with, and what it appended since.  Under the conditions that make leaders unique
(`KeepsElections`) and the only writers (`ActsAsLeader`), `Matching` holds throughout:

* a server with status `LEADER` has exactly the log of its term;
* every log request on its way describes the log of its term (`FromLeader`);
* every server's log is `Matched` against the logs of the terms (`Framework/LogMatching.lean`).

A follower that accepts a request has compared one term, and so everything before
(`canLog_take`).  `log_matching` is the result; `logs_diverge` is the run in which a deposed
leader appends an entry with its successor's term.
-/

namespace LaptopRaft

open ServerMetadata

/-- Log matching, in one state. -/
def LogsMatch (cfg : Config) (c : Cluster) : Prop :=
  ∀ a ∈ cfg.ids, ∀ b ∈ cfg.ids, ∀ k x y,
    (c.server a).metadata.smrLog[k]? = some x → (c.server b).metadata.smrLog[k]? = some y →
    x.term = y.term →
    (c.server a).metadata.smrLog.take (k + 1) = (c.server b).metadata.smrLog.take (k + 1)

/-- The steps under which logs match. -/
structure KeepsLogs (c : Cluster) (l : Label) : Prop extends KeepsElections c l where
  acts : ActsAsLeader c l

instance (c : Cluster) (l : Label) : Decidable (KeepsLogs c l) :=
  decidable_of_iff (KeepsElections c l ∧ ActsAsLeader c l)
    ⟨fun h => ⟨h.1, h.2⟩, fun h => ⟨h.toKeepsElections, h.acts⟩⟩

/-! ## The log of a term -/

def Event.extend (t : ℤ) (log : List MapOp) : Event → List MapOp
  | .initLeader _ t' initial => if t' = t then initial else log
  | .append _ op => if op.term = t then log ++ [op] else log
  | _ => log

def termLog (tr : List Event) (t : ℤ) : List MapOp := tr.foldl (Event.extend t) []

lemma termLog_append (tr es : List Event) (t : ℤ) :
    termLog (tr ++ es) t = es.foldl (Event.extend t) (termLog tr t) := by
  rw [termLog, List.foldl_append, termLog]

/-- An observation that adds to no log. -/
def Event.Silent (e : Event) : Prop := ∀ t log, Event.extend t log e = log

lemma termLog_of_silent {es : List Event} (hsilent : ∀ e ∈ es, e.Silent) (tr : List Event) :
    termLog (tr ++ es) = termLog tr := by
  funext t
  rw [termLog_append]
  induction es generalizing tr with
  | nil => rfl
  | cons e es ih =>
      rw [List.foldl_cons, hsilent e List.mem_cons_self]
      exact ih (fun x hx => hsilent x (List.mem_cons_of_mem e hx)) tr

lemma termLog_initLeader (tr : List Event) (s t : ℤ) (log : List MapOp) :
    termLog (tr ++ [.initLeader s t log]) = Function.update (termLog tr) t log := by
  funext u
  rw [termLog_append]
  by_cases hu : u = t
  · subst hu
    simp [Event.extend]
  · simp [Event.extend, hu, Ne.symm hu]

lemma termLog_write (tr : List Event) (s t n : ℤ) (op : MapOp) :
    termLog (tr ++ [.append s op, .accept s t n]) =
      Function.update (termLog tr) op.term (termLog tr op.term ++ [op]) := by
  funext u
  rw [termLog_append]
  by_cases hu : u = op.term
  · subst hu
    simp [Event.extend]
  · simp [Event.extend, hu, Ne.symm hu]

/-! ## What a step does to a log -/

/-- The steps of a thread, as far as logs and leadership are concerned. -/
inductive LogStep (s : ℤ) (f f' : LaptopFactory) (l : Label) (es : List Event) : Prop
  | quiet (hsilent : ∀ e ∈ es, e.Silent) (hlog : f'.metadata.smrLog = f.metadata.smrLog)
      (hleader : f'.metadata.status = .leader → f.metadata.status = .leader ∧
        f'.metadata.currentTerm = f.metadata.currentTerm)
  | elected {rest : List ServerNode} (hlock : f.metaLock = .requestVote rest)
      (hlog : f'.metadata.smrLog = f.metadata.smrLog)
      (hterm : f'.metadata.currentTerm = f.metadata.currentTerm)
      (hes : es = [.initLeader s f.metadata.currentTerm f.metadata.smrLog])
  | append {i : Fin 4} {accepts : List Bool} {op : MapOp}
      (hlabel : l = .leaderMaintainLog s i accepts) (hop : op.term = f.metadata.currentTerm)
      (hlog : f'.metadata.smrLog = f.metadata.smrLog ++ [op])
      (hterm : f'.metadata.currentTerm = f.metadata.currentTerm)
      (hes : es = [.append s op, .accept s f.metadata.currentTerm (f.metadata.logSize + 1)])

section Steps

variable {cfg : Config} {s : ℤ} {f f' : LaptopFactory} {l : Label} {es : List Event}

lemma ThreadStep.logStep (hstep : ThreadStep s f l f' es) (hwf : WellFormed cfg s f) :
    LogStep s f f' l es := by
  cases hstep with
  | readStatus | rest | askVote | countVote | ignoreVote | endVote | replicate
  | heartbeatAnswered | nextRound => exact .quiet (by simp) rfl fun hleader => ⟨hleader, rfl⟩
  | timeOut => exact .quiet (by simp) rfl (by simp [setStatus])
  | stand hthread hfree =>
      refine .quiet ?_ rfl fun hleader => absurd hleader (hwf.flow.candidate hthread)
      simp [standEvents, Event.Silent, Event.extend]
  | elected hlock => exact .elected hlock rfl rfl rfl
  | outvoted => exact .quiet (by simp) rfl (by simp [demoted])
  | queue hqueue =>
      refine .quiet (fun e he => ?_) rfl fun hleader => ⟨hleader, rfl⟩
      obtain ⟨laptop, rfl⟩ := hqueue.events e he
      exact fun _ _ => rfl
  | maintain => exact .append rfl rfl rfl rfl rfl
  | sendLog =>
      refine .quiet ?_ rfl fun hleader => ⟨hleader, rfl⟩
      simp [Event.Silent, Event.extend]
  | fail hlock hlabel hfail =>
      obtain ⟨ack, sent, -, -, -, -, rfl⟩ := failNode_cases hfail
      exact .quiet (by simp) rfl fun hleader => ⟨hleader, rfl⟩
  | entryAnswered hlock hwire hsent hreact =>
      obtain ⟨-, sent, ack, k, rfl, -, -⟩ := hreact.frame hwf hlock hwire hsent
      refine .quiet (fun e he => ?_) rfl fun hleader => ⟨hleader, rfl⟩
      obtain ⟨k, -, hk⟩ := List.mem_filterMap.1 he
      obtain ⟨op, -, rfl⟩ := Option.map_eq_some_iff.1 hk
      exact fun _ _ => rfl
  | deposed =>
      refine .quiet (by simp) ?_ ?_
      · rw [LaptopFactory.returnTo_metadata]
        rfl
      · rw [LaptopFactory.returnTo_metadata]
        simp [demoted]
  | «return» =>
      refine .quiet (by simp) ?_ ?_ <;> rw [LaptopFactory.returnTo_metadata]
      exact fun hleader => ⟨hleader, rfl⟩

lemma not_silent_initLeader (s t : ℤ) (log : List MapOp) : ¬ (Event.initLeader s t log).Silent := by
  intro hsilent
  have hempty := hsilent t []
  have hone := hsilent t [⟨0, 0, 0⟩]
  simp only [Event.extend, if_true] at hempty hone
  rw [hempty] at hone
  cases hone

/-- A leader is elected at the end of a candidacy, with the log it has. -/
lemma ThreadStep.initLeader_cases (hstep : ThreadStep s f l f' es) (hwf : WellFormed cfg s f)
    {q t : ℤ} {log : List MapOp} (helected : .initLeader q t log ∈ es) :
    ∃ rest, f.metaLock = .requestVote rest ∧ t = f.metadata.currentTerm ∧
      log = f.metadata.smrLog ∧ es = [.initLeader s t log] := by
  cases hstep.logStep hwf with
  | quiet hsilent => exact absurd (hsilent _ helected) (not_silent_initLeader q t log)
  | @elected rest hlock hlog hterm hes =>
      subst hes
      simp only [List.mem_singleton, Event.initLeader.injEq] at helected
      obtain ⟨rfl, rfl, rfl⟩ := helected
      exact ⟨rest, hlock, rfl, rfl, rfl⟩
  | append hlabel hop hlog hterm hes => simp [hes] at helected

lemma silent_of_served {p : ℤ} {log : List MapOp} {rpc : Rpc} {reply : Reply} {e : Event}
    (he : e ∈ serveEvents p log rpc reply) : e.Silent := by
  rcases serveEvents_cases he with ⟨_, _, -, -, -, rfl⟩ | ⟨_, _, -, -, -, -, rfl⟩ <;>
    exact fun _ _ => rfl

end Steps

/-! ## Requests describe the log of their term -/

/-- What a log request says of the log of its term. -/
structure FromLeader (L : ℤ → List MapOp) (req : LogRequest) : Prop where
  prefixTerm : 0 < req.prefixLength →
    ∃ op, (L req.currentTerm)[req.prefixLength.toNat - 1]? = some op ∧ op.term = req.prefixTerm
  entry : req.opTerm ≠ -1 → (L req.currentTerm)[req.prefixLength.toNat]? = some req.op

section FromLeader

variable {L L' : ℤ → List MapOp} {req : LogRequest} {md md' : ServerMetadata}

lemma FromLeader.mono (h : FromLeader L req) (hgrow : ∀ t, L t <+: L' t) : FromLeader L' req := by
  constructor
  · intro hpos
    obtain ⟨op, hop, hterm⟩ := h.prefixTerm hpos
    exact ⟨op, getElem?_of_isPrefix (hgrow _) hop, hterm⟩
  · intro hentry
    exact getElem?_of_isPrefix (hgrow _) (h.entry hentry)

/-- The request a leader builds. -/
lemma ServerMetadata.RequestBuilt.fromLeader {node : ServerNode} (hbuilt : RequestBuilt md node req)
    (hlog : md.smrLog = L md.currentTerm) : FromLeader L req := by
  constructor
  · intro hpos
    have hterm := hbuilt.prefixTerm
    rw [getPrefixTerm_of_pos hpos, hlog, ← hbuilt.term] at hterm
    have hidx : (req.prefixLength - 1).toNat = req.prefixLength.toNat - 1 := by omega
    rw [hidx] at hterm
    exact Option.map_eq_some_iff.1 hterm
  · intro hentry
    rcases hbuilt.body with ⟨-, hbeat⟩ | ⟨-, hop⟩
    · exact absurd hbeat hentry
    · have hget := (getOp_eq_some hop).2
      rw [hlog, ← hbuilt.term] at hget
      exact hget

/-- **The consistency check.**  A server that passes `can_log` has the beginning of the sender's
log, up to the prefix length. -/
theorem canLog_take (hlog : Matched MapOp.term L md.smrLog)
    (hterm : Matched MapOp.term L (L req.currentTerm)) (hreq : FromLeader L req)
    (hcan : md.canLog req = some true) :
    md.smrLog.take req.prefixLength.toNat =
      (L req.currentTerm).take req.prefixLength.toNat := by
  refine hlog.take_eq hterm fun hpos => ?_
  have hpos' : 0 < req.prefixLength := by omega
  obtain ⟨op, hop, hopterm⟩ := (canLog_getElem hcan).2 hpos'
  obtain ⟨op', hop', hopterm'⟩ := hreq.prefixTerm hpos'
  exact ⟨op, op', hop, hop', hopterm.trans hopterm'.symm⟩

/-- A follower that appends has the beginning of the sender's log afterwards. -/
lemma appended_isPrefix (hstored : Stored md) (hlog : Matched MapOp.term L md.smrLog)
    (hterm : Matched MapOp.term L (L req.currentTerm)) (hreq : FromLeader L req)
    (hcan : md.canLog req = some true) (hends : req.prefixLength = md.logSize) :
    (md.appended req).smrLog <+: L req.currentTerm := by
  have htake := canLog_take hlog hterm hreq hcan
  have hlen : req.prefixLength.toNat = md.smrLog.length := by
    have := hstored.logSize
    omega
  rw [hlen, List.take_length] at htake
  rw [appended_smrLog, htake]
  by_cases hentry : req.opTerm ≠ -1
  · have hget := hreq.entry hentry
    rw [hlen] at hget
    rw [if_pos hentry]
    have hnext : (L req.currentTerm).take md.smrLog.length ++ [req.op] =
        (L req.currentTerm).take (md.smrLog.length + 1) := by
      rw [List.take_add_one, hget]
      rfl
    rw [hnext]
    exact List.take_prefix _ _
  · rw [if_neg hentry, List.append_nil]
    exact List.take_prefix _ _

/-- The same for the server as it follows the sender. -/
lemma adopted_isPrefix (hstored : Stored md) (hlog : Matched MapOp.term L md.smrLog)
    (hterm : Matched MapOp.term L (L req.currentTerm)) (hreq : FromLeader L req)
    (hcan : (md.adoptLeader req).canLog req = some true) (hends : req.prefixLength = md.logSize) :
    ((md.adoptLeader req).appended req).smrLog <+: L req.currentTerm := by
  apply appended_isPrefix (hstored.adoptLeader req) _ hterm hreq hcan
  · rw [adoptLeader_logSize]
    exact hends
  · rw [adoptLeader_smrLog]
    exact hlog

/-- What a log request does to the log: nothing, or the server follows in the request's term and
its log is the beginning of the sender's. -/
lemma ServerMetadata.LogAnswer.log_cases {res : LogResponse} (hstored : Stored md)
    (hlog : Matched MapOp.term L md.smrLog)
    (hterm : Matched MapOp.term L (L req.currentTerm)) (hreq : FromLeader L req)
    (hanswer : LogAnswer md req md' res) :
    md'.smrLog = md.smrLog ∨ (md'.status = .follower ∧ md'.currentTerm = req.currentTerm ∧
      md'.smrLog <+: L req.currentTerm) := by
  have hstatus := hanswer.status_eq
  have hcurrentTerm := hanswer.term_eq
  cases hanswer with
  | refused hno => exact Or.inl (adoptLeader_smrLog md req)
  | held hcurrent hcan hlonger => exact Or.inl (adoptLeader_smrLog md req)
  | @extended k hcurrent hcan hends hexec =>
      have hfollower : (md.adoptLeader req).status = .follower := by
        rcases adoptLeader_cases md req with ⟨-, heq⟩ | ⟨hlt, -, heq⟩
        · rw [heq]
        · rw [heq] at hcurrent
          omega
      exact Or.inr ⟨hstatus.trans hfollower, hcurrentTerm.trans hcurrent,
        adopted_isPrefix hstored hlog hterm hreq hcan hends⟩

end FromLeader

/-! ## The invariant -/

structure Matching (cfg : Config) (c : Cluster) (tr : List Event) : Prop where
  logs : ∀ s ∈ cfg.ids, Matched MapOp.term (termLog tr) (c.server s).metadata.smrLog
  terms : ∀ t, Matched MapOp.term (termLog tr) (termLog tr t)
  unled : ∀ t, (∀ s log, .initLeader s t log ∉ tr) → termLog tr t = []
  leading : ∀ s ∈ cfg.ids, (c.server s).metadata.status = .leader →
    (c.server s).metadata.smrLog = termLog tr (c.server s).metadata.currentTerm
  pending : ∀ p req, (p, .log req) ∈ c.pending → FromLeader (termLog tr) req

section Runs

variable {cfg : Config} {c c' : Cluster} {tr es : List Event} {l : Label} {s : ℤ}

lemma KeepsLogs.elections (hrun : (system cfg).Run KeepsLogs c tr) :
    (system cfg).Run KeepsElections c tr :=
  hrun.mono fun _ _ hok => hok.toKeepsElections

lemma KeepsLogs.leading (hrun : (system cfg).Run KeepsLogs c tr) (hs : s ∈ cfg.ids) :
    Leading s (c.server s) tr :=
  leading_of_run (hrun.mono fun _ _ hok => hok.acts) hs

/-- Two leaders of one term are one. -/
lemma leader_unique (hrun : (system cfg).Run KeepsLogs c tr) {q : ℤ} (hs : s ∈ cfg.ids)
    (hq : q ∈ cfg.ids) (hleader : (c.server s).metadata.status = .leader)
    (hleader' : (c.server q).metadata.status = .leader)
    (hterm : (c.server q).metadata.currentTerm = (c.server s).metadata.currentTerm) : q = s := by
  obtain ⟨log, helected⟩ := (KeepsLogs.leading hrun hs).elected hleader
  obtain ⟨log', helected'⟩ := (KeepsLogs.leading hrun hq).elected hleader'
  rw [hterm] at helected'
  exact election_safety (KeepsLogs.elections hrun) q s _ log' log helected' helected

/-- The request a server is waiting for describes its log, which is that of its term. -/
lemma Matching.request (h : Matching cfg c tr) (hrun : (system cfg).Run KeepsLogs c tr)
    (hs : s ∈ cfg.ids) {node : ServerNode} {req : LogRequest}
    (hwire : (c.server s).wire = .request node (.log req)) : FromLeader (termLog tr) req := by
  obtain ⟨⟨caller, rest, new, change, hlock⟩, hreq⟩ :=
    (wellFormed hrun hs).flow.logRequest node req hwire
  have hleader := (KeepsLogs.leading hrun hs).replicating _ _ hlock
  exact (logRequestFor_cases hreq).fromLeader (h.leading s hs hleader)

/-- So does every request a step delivers. -/
lemma Matching.delivered (h : Matching cfg c tr) (hrun : (system cfg).Run KeepsLogs c tr)
    (hst : (system cfg).step c l = some (c', es)) {p : ℤ} {req : LogRequest}
    (hdelivered : c.delivered l = some (p, .log req)) : FromLeader (termLog tr) req := by
  rcases log_delivered_cases hst hdelivered with ⟨s, hs, node, hwire⟩ | hpending
  · exact h.request hrun hs hwire
  · exact h.pending p req hpending

/-- A step in which no log of a term grows. -/
lemma Matching.of_silent (h : Matching cfg c tr) (hsilent : ∀ e ∈ es, e.Silent)
    (hlogs : ∀ q ∈ cfg.ids, Matched MapOp.term (termLog tr) (c'.server q).metadata.smrLog)
    (hleading : ∀ q ∈ cfg.ids, (c'.server q).metadata.status = .leader →
      (c'.server q).metadata.smrLog = termLog tr (c'.server q).metadata.currentTerm)
    (hpending : ∀ p req, (p, .log req) ∈ c'.pending → FromLeader (termLog tr) req) :
    Matching cfg c' (tr ++ es) := by
  have hsame := termLog_of_silent hsilent tr
  constructor
  · rw [hsame]
    exact hlogs
  · rw [hsame]
    exact h.terms
  · intro t hunled
    rw [hsame]
    exact h.unled t fun s log hold => hunled s log (List.mem_append_left es hold)
  · rw [hsame]
    exact hleading
  · rw [hsame]
    exact hpending

/-- A step in which server `s` extends the log of its term. -/
lemma Matching.of_extend (h : Matching cfg c tr) {t : ℤ} {log : List MapOp}
    (hgrown : termLog (tr ++ es) = Function.update (termLog tr) t log)
    (hgrow : termLog tr t <+: log) (hmatched : Matched MapOp.term (termLog (tr ++ es)) log)
    (hled : ∃ q log', .initLeader q t log' ∈ tr ++ es)
    (hself : (c'.server s).metadata.smrLog = log)
    (hterm : (c'.server s).metadata.currentTerm = t)
    (hothers : ∀ q, q ≠ s → c'.server q = c.server q)
    (halone : ∀ q ∈ cfg.ids, q ≠ s → (c.server q).metadata.status = .leader →
      (c.server q).metadata.currentTerm ≠ t)
    (hpending : ∀ p req, (p, .log req) ∈ c'.pending → FromLeader (termLog tr) req) :
    Matching cfg c' (tr ++ es) := by
  have hgrows : ∀ u, termLog tr u <+: termLog (tr ++ es) u := by
    intro u
    rw [hgrown]
    exact isPrefix_update hgrow u
  have hat : termLog (tr ++ es) t = log := by
    rw [hgrown, Function.update_self]
  have haway : ∀ u, u ≠ t → termLog (tr ++ es) u = termLog tr u := by
    intro u hu
    rw [hgrown, Function.update_of_ne hu]
  constructor
  · intro q hq
    by_cases hqs : q = s
    · rw [hqs, hself]
      exact hmatched
    · rw [hothers q hqs]
      exact (h.logs q hq).mono hgrows
  · intro u
    by_cases hu : u = t
    · rw [hu, hat]
      exact hmatched
    · rw [haway u hu]
      exact (h.terms u).mono hgrows
  · intro u hunled
    have hu : u ≠ t := by
      rintro rfl
      obtain ⟨q, log', helected⟩ := hled
      exact hunled q log' helected
    rw [haway u hu]
    exact h.unled u fun q log' hold => hunled q log' (List.mem_append_left es hold)
  · intro q hq hleader
    by_cases hqs : q = s
    · rw [hqs, hself, hterm, hat]
    · rw [hothers q hqs] at hleader ⊢
      rw [haway _ (halone q hq hqs hleader)]
      exact h.leading q hq hleader
  · intro p req hin
    exact (hpending p req hin).mono hgrows

/-- A server that is elected is the first in its term. -/
lemma elected_first (hrun : (system cfg).Run KeepsLogs c tr) (hs : s ∈ cfg.ids)
    {rest : List ServerNode} (hlock : (c.server s).metaLock = .requestVote rest)
    {log₀ : List MapOp} (hrun' : (system cfg).Run KeepsLogs c'
      (tr ++ [.initLeader s (c.server s).metadata.currentTerm log₀])) (q : ℤ) (log : List MapOp) :
    .initLeader q (c.server s).metadata.currentTerm log ∉ tr := by
  intro hold
  have hsafe := election_safety (KeepsLogs.elections hrun')
  have hqs : q = s := hsafe q s _ log log₀ (List.mem_append_left _ hold)
    (List.mem_append_right tr List.mem_cons_self)
  subst hqs
  exact (electing_of_run (KeepsLogs.elections hrun) hs).running _ hlock log hold

/-- A thread of `s` moved. -/
lemma Matching.thread (h : Matching cfg c tr) (hrun : (system cfg).Run KeepsLogs c tr)
    (hok : KeepsLogs c l) (hst : (system cfg).step c l = some (c', es)) (hs : s ∈ cfg.ids)
    {f : LaptopFactory} (hstep : ThreadStep s (c.server s) l f es)
    (hserver : c'.server = Function.update c.server s f)
    (hpending : ∀ x ∈ c'.pending, x ∈ c.pending ∨ x ∈ (c.server s).wire.abandoned) :
    Matching cfg c' (tr ++ es) := by
  have hself : c'.server s = f := by rw [hserver, Function.update_self]
  have hothers : ∀ q, q ≠ s → c'.server q = c.server q := by
    intro q hq
    rw [hserver, Function.update_of_ne hq]
  have hrequests : ∀ p req, (p, .log req) ∈ c'.pending → FromLeader (termLog tr) req := by
    intro p req hin
    rcases hpending _ hin with hold | habandoned
    · exact h.pending p req hold
    · obtain ⟨node, hwire, -⟩ := Wire.eq_of_mem_abandoned habandoned
      exact h.request hrun hs hwire
  cases hstep.logStep (wellFormed hrun hs) with
  | quiet hsilent hlog hleader =>
      refine h.of_silent hsilent (fun q hq => ?_) (fun q hq hleads => ?_) hrequests
      · by_cases hqs : q = s
        · rw [hqs, hself, hlog]
          exact h.logs s hs
        · rw [hothers q hqs]
          exact h.logs q hq
      · by_cases hqs : q = s
        · rw [hqs, hself] at hleads ⊢
          obtain ⟨hled, hterm⟩ := hleader hleads
          rw [hlog, hterm]
          exact h.leading s hs hled
        · rw [hothers q hqs] at hleads ⊢
          exact h.leading q hq hleads
  | elected hlock hlog hterm hes =>
      subst hes
      have hnew := elected_first hrun hs hlock (.step hrun hok hst)
      have hgrown := termLog_initLeader tr s (c.server s).metadata.currentTerm
        (c.server s).metadata.smrLog
      have hgrow : termLog tr (c.server s).metadata.currentTerm <+:
          (c.server s).metadata.smrLog := by
        rw [h.unled _ hnew]
        exact List.nil_prefix
      refine h.of_extend hgrown hgrow ?_
        ⟨s, _, List.mem_append_right tr List.mem_cons_self⟩ (by rw [hself, hlog])
        (by rw [hself, hterm]) hothers (fun q hq _ hleader hsame => ?_) hrequests
      · rw [hgrown]
        exact (h.logs s hs).mono (isPrefix_update hgrow)
      · obtain ⟨log, helected⟩ := (KeepsLogs.leading hrun hq).elected hleader
        rw [hsame] at helected
        exact hnew q log helected
  | @append i accepts op hlabel hop hlog hterm hes =>
      subst hes hlabel
      have hleader : (c.server s).metadata.status = .leader := hok.acts
      have hold := h.leading s hs hleader
      obtain ⟨log, helected⟩ := (KeepsLogs.leading hrun hs).elected hleader
      have hgrown := termLog_write tr s (c.server s).metadata.currentTerm
        ((c.server s).metadata.logSize + 1) op
      rw [hop, ← hold] at hgrown
      have hgrow : termLog tr (c.server s).metadata.currentTerm <+:
          (c.server s).metadata.smrLog ++ [op] := by
        rw [← hold]
        exact List.prefix_append _ _
      refine h.of_extend hgrown hgrow ?_ ⟨s, log, List.mem_append_left _ helected⟩
        (by rw [hself, hlog]) (by rw [hself, hterm]) hothers (fun q hq hqs hleads hsame => ?_)
        hrequests
      · apply Matched.concat
        · rw [hgrown]
          exact (h.logs s hs).mono (isPrefix_update hgrow)
        · rw [hgrown, hop, Function.update_self]
      · exact hqs (leader_unique hrun hs hq hleader hleads hsame)

/-- A server `p` handled a request. -/
lemma Matching.served (h : Matching cfg c tr) (hrun : (system cfg).Run KeepsLogs c tr)
    (hst : (system cfg).step c l = some (c', es)) {p : ℤ} {rpc : Rpc} {reply : Reply}
    (hdelivered : c.delivered l = some (p, rpc)) (hhandled : Handled c c' p rpc reply) :
    Matching cfg c' (tr ++ c.served p rpc reply) := by
  obtain ⟨hserved, hothers, hpending⟩ := hhandled
  have hp := (soundRpc_of_delivered hrun (mem_of_step hst) hdelivered).mem
  have hstored := (wellFormed hrun hp).sound.stored
  have hlog : (c'.server p).metadata.smrLog = (c.server p).metadata.smrLog ∨
      ((c'.server p).metadata.status = .follower ∧
        ∃ t, (c'.server p).metadata.smrLog <+: termLog tr t) := by
    have hstatus := hserved.status_cases hstored
    generalize (c'.server p).metadata = md at hserved hstatus
    cases hserved with
    | vote hfree hanswer =>
        rw [hanswer.frame]
        exact Or.inl rfl
    | @log req _ res hfree hvalid hanswer =>
        have hanswer := getLogResponse_cases hstored hanswer
        rcases hanswer.log_cases hstored (h.logs p hp) (h.terms _)
          (h.delivered hrun hst hdelivered) with hsame | ⟨hfollower, -, hpre⟩
        · exact Or.inl hsame
        · exact Or.inr ⟨hfollower, _, hpre⟩
  refine h.of_silent (fun e he => silent_of_served he) (fun q hq => ?_) (fun q hq hleads => ?_)
    fun p req hin => h.pending p req (hpending _ hin)
  · by_cases hqp : q = p
    · subst hqp
      rcases hlog with hsame | ⟨-, t, hpre⟩
      · rw [hsame]
        exact h.logs q hq
      · exact (h.terms t).of_isPrefix hpre
    · rw [hothers q hqp]
      exact h.logs q hq
  · by_cases hqp : q = p
    · subst hqp
      rcases hserved.status_cases hstored with hfollower | ⟨hstatus, hterm⟩
      · rw [hfollower] at hleads
        cases hleads
      · rcases hlog with hsame | ⟨hfollower, -⟩
        · rw [hstatus] at hleads
          rw [hsame, hterm]
          exact h.leading q hq hleads
        · rw [hfollower] at hleads
          cases hleads
    · rw [hothers q hqp] at hleads ⊢
      exact h.leading q hq hleads

theorem matching_of_run (hrun : (system cfg).Run KeepsLogs c tr) : Matching cfg c tr := by
  refine TransitionSystem.Run.invariant (I := Matching cfg) ?_ ?_ hrun
  · rintro _ ⟨connects, rfl⟩
    have hmetadata : ∀ s, ((boot cfg connects).server s).metadata.smrLog = [] ∧
        ((boot cfg connects).server s).metadata.status = .follower := by
      intro s
      obtain ⟨index, heq, -⟩ := bootMetadata_eq cfg connects s
      have hboot : ((boot cfg connects).server s).metadata = _ := heq
      rw [hboot]
      exact ⟨rfl, rfl⟩
    refine ⟨fun s _ => ?_, fun t => Matched.nil, fun _ _ => rfl, fun s _ hleader => ?_,
      fun p req hin => absurd hin List.not_mem_nil⟩
    · rw [(hmetadata s).1]
      exact Matched.nil
    · rw [(hmetadata s).2] at hleader
      cases hleader
  · intro c tr l c' es hrun ih hok hst
    rcases step_cases hst with ⟨s, f, hs, hstep, hserver, hpending⟩ |
      ⟨p, rpc, reply, hdelivered, hhandled, rfl⟩
    · exact ih.thread hrun hok hst hs hstep hserver hpending
    · exact ih.served hrun hst hdelivered hhandled

/-- The log of a term only grows. -/
theorem termLog_grows (hrun : (system cfg).Run KeepsLogs c tr) (hok : KeepsLogs c l)
    (hst : (system cfg).step c l = some (c', es)) (t : ℤ) :
    termLog tr t <+: termLog (tr ++ es) t := by
  rcases step_cases hst with ⟨s, f, hs, hstep, -⟩ | ⟨p, rpc, reply, -, -, rfl⟩
  · cases hstep.logStep (wellFormed hrun hs) with
    | quiet hsilent =>
        rw [termLog_of_silent hsilent]
    | elected hlock hlog hterm hes =>
        subst hes
        have hnew := elected_first hrun hs hlock (.step hrun hok hst)
        rw [termLog_initLeader]
        apply isPrefix_update
        rw [(matching_of_run hrun).unled _ hnew]
        exact List.nil_prefix
    | append hlabel hop hlog hterm hes =>
        subst hes
        rw [termLog_write]
        exact isPrefix_update (List.prefix_append _ _) t
  · rw [termLog_of_silent fun e he => silent_of_served he]

/-- **Log matching**, in every run in which leaders are unique and the only writers. -/
theorem log_matching (hrun : (system cfg).Run KeepsLogs c tr) : LogsMatch cfg c := by
  intro a ha b hb k x y hx hy hterm
  have hmatching := matching_of_run hrun
  exact (hmatching.logs a ha).agree (hmatching.logs b hb) hx hy hterm

end Runs

theorem log_matching_oneUpdate : ∃ c tr, (system three).Run KeepsLogs c tr ∧
    (c.server 0).metadata.smrLog = [⟨1, 7, 1⟩] ∧ (c.server 2).metadata.smrLog = [⟨1, 7, 1⟩] ∧
    LogsMatch three c := by
  obtain ⟨c, tr, hrun, hleader, hfollower⟩ := run_of_play three KeepsLogs
    (P := fun c _ => (c.server 0).metadata.smrLog = [⟨1, 7, 1⟩] ∧
      (c.server 2).metadata.smrLog = [⟨1, 7, 1⟩]) oneUpdate (by decide +kernel)
  exact ⟨c, tr, hrun, hleader, hfollower, log_matching hrun⟩

/-- Server 0, deposed by the candidate of term 2, appends an update with term 2; server 1, the
leader of term 2, appends another one. -/
theorem logs_diverge : ∃ c tr, (system three).Run TransitionSystem.anyStep c tr ∧
    (c.server 0).metadata.smrLog = [⟨2, 7, 1⟩] ∧ (c.server 1).metadata.smrLog = [⟨2, 8, 1⟩] ∧
    ¬ LogsMatch three c := by
  obtain ⟨c, tr, hrun, hzero, hone⟩ := run_of_play three TransitionSystem.anyStep
    (P := fun c _ => (c.server 0).metadata.smrLog = [⟨2, 7, 1⟩] ∧
      (c.server 1).metadata.smrLog = [⟨2, 8, 1⟩])
    (stand 0 ++ callVote 0 ++ timeOut 1 ++ stand 1 ++ callVote 1 ++ submit 0 7 1 ++ submit 1 8 1)
    (by decide +kernel)
  refine ⟨c, tr, hrun, hzero, hone, fun hmatch => ?_⟩
  have hsame := hmatch 0 (by decide) 1 (by decide) 0 ⟨2, 7, 1⟩ ⟨2, 8, 1⟩
    (by rw [hzero]; rfl) (by rw [hone]; rfl) rfl
  rw [hzero, hone] at hsame
  simp at hsame

end LaptopRaft
