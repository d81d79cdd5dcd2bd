import LaptopRaft.Framework.LogMatching
import LaptopRaft.Framework.Quorum
import Mathlib.Order.Interval.Finset.Basic

/-!
# What a quorum of logs holds

A list of entries is `Chosen` when the logs of a quorum begin with it.

* As long as no log is ever shortened, a chosen list stays chosen, and any two chosen lists are
  comparable (`Chosen.comparable`).  Nothing else is needed for servers that execute chosen
  entries only to agree.
* An `ElectionHistory` is one in which leaders are elected by quorums of voters whose logs are no
  more recent than the candidate's.  If a list of entries that ends in an entry of term `t` is held
  by a quorum whose members vote after term `t` only with the list in their logs, then every leader
  of a later term starts with the list (`ElectionHistory.later_leader_extends`).
-/

namespace LaptopRaft

variable {σ α τ : Type*} {members : Finset σ} {logs logs' : σ → List α} {xs ys : List α}

/-- A quorum's logs begin with `xs`. -/
def Chosen (members : Finset σ) (logs : σ → List α) (xs : List α) : Prop :=
  HasQuorum members fun q => xs <+: logs q

lemma Chosen.nil (h : members.Nonempty) : Chosen members logs [] := by
  have hcard : members.card < 2 * members.card := by
    have := h.card_pos
    omega
  exact ⟨members, ⟨subset_rfl, hcard⟩, fun _ _ => List.nil_prefix⟩

lemma Chosen.mono (h : Chosen members logs xs) (hgrow : ∀ q, logs q <+: logs' q) :
    Chosen members logs' xs := by
  apply HasQuorum.mono h
  intro q hq
  exact hq.trans (hgrow q)

lemma Chosen.of_isPrefix (h : Chosen members logs ys) (hpre : xs <+: ys) :
    Chosen members logs xs := by
  apply HasQuorum.mono h
  intro q hq
  exact hpre.trans hq

/-- **Chosen lists are comparable**, being prefixes of one log. -/
theorem Chosen.comparable [DecidableEq σ] (hx : Chosen members logs xs)
    (hy : Chosen members logs ys) : xs <+: ys ∨ ys <+: xs := by
  obtain ⟨q, -, hxq, hyq⟩ := HasQuorum.meet hx hy
  exact List.prefix_or_prefix_of_prefix hxq hyq

/-- Chosen lists agree wherever both reach. -/
theorem Chosen.getElem?_eq [DecidableEq σ] (hx : Chosen members logs xs)
    (hy : Chosen members logs ys) {k : ℕ} (hkx : k < xs.length) (hky : k < ys.length) :
    xs[k]? = ys[k]? := by
  have hget : ∀ {as bs : List α}, as <+: bs → k < as.length → as[k]? = bs[k]? := by
    intro as bs hpre hk
    rw [List.getElem?_eq_getElem hk]
    exact (getElem?_of_isPrefix hpre (List.getElem?_eq_getElem hk)).symm
  rcases hx.comparable hy with hpre | hpre
  · exact hget hpre hkx
  · exact (hget hpre hky).symm

/-! ## Elections -/

section Elections

variable {term : α → τ} {L : τ → List α}

/-- The vote rule: the candidate's last entry is of a later term than the voter's, or of the same
term at an index at least as high.  A voter without entries has no objection. -/
def AtLeastAsRecent [LT τ] (term : α → τ) (log voterLog : List α) : Prop :=
  ∀ e, voterLog.getLast? = some e → ∃ e', log.getLast? = some e' ∧
    (term e < term e' ∨ (term e = term e' ∧ voterLog.length ≤ log.length))

/-- A matched log is the beginning of the log of its last entry's term. -/
lemma Matched.isPrefix_of_getLast? {log : List α} (h : Matched term L log) {e : α}
    (he : log.getLast? = some e) : log <+: L (term e) := by
  have hne : log ≠ [] := by
    rintro rfl
    cases he
  have hpos := List.length_pos_iff.2 hne
  rw [List.getLast?_eq_getElem?] at he
  have hpre := h _ e he
  rwa [Nat.sub_add_cancel hpos, List.take_length] at hpre

/-- **The vote rule passes the list on.**  The voter has it; the candidate's log is as recent.
Leaders of terms in between have it already. -/
lemma isPrefix_of_vote [LinearOrder τ] {t : τ} {log voterLog : List α}
    (hL : ∀ u, ∀ e ∈ L u, term e ≤ u) (hlog : Matched term L log)
    (hvoter : Matched term L voterLog) (hxs : ∃ e, xs.getLast? = some e ∧ term e = t)
    (hown : xs <+: L t) (hheld : xs <+: voterLog) (hrecent : AtLeastAsRecent term log voterLog)
    (hearlier : ∀ e ∈ log, t < term e → xs <+: L (term e)) : xs <+: log := by
  obtain ⟨x, hx, rfl⟩ := hxs
  have hne : voterLog ≠ [] := by
    rintro rfl
    rw [List.prefix_nil.1 hheld] at hx
    cases hx
  have hlast := List.getLast?_eq_some_getLast hne
  generalize voterLog.getLast hne = v at hlast
  -- the voter's last entry is not from before the last entry of the list
  have hle : term x ≤ term v := by
    have hx' := hx
    have hv' := hlast
    rw [List.getLast?_eq_getElem?] at hx' hv'
    have hlen := hheld.length_le
    exact hvoter.term_le hL (by omega) (getElem?_of_isPrefix hheld hx') hv'
  obtain ⟨e, he, hrule⟩ := hrecent v hlast
  have hpre := hlog.isPrefix_of_getLast? he
  rcases hrule with hlt | ⟨heq, hlength⟩
  · have hmem : e ∈ log := List.mem_of_getLast? he
    have hlater : term x < term e := hle.trans_lt hlt
    rcases List.prefix_or_prefix_of_prefix (hearlier e hmem hlater) hpre with hyes | hno
    · exact hyes
    · -- the log would lie within the log of `term x`, which has no entry as late as `e`
      have hbound := hL _ e ((hno.trans hown).subset hmem)
      exact absurd hbound (not_le.2 hlater)
  · have hvpre := hvoter.isPrefix_of_getLast? hlast
    rw [heq] at hvpre
    exact hheld.trans (List.prefix_of_prefix_length_le hvpre hpre hlength)

/-- A history of elections.  `elected u log`: a leader of term `u` was elected with `log`;
`voted v u log`: `v` voted in term `u`, when its log was `log`. -/
structure ElectionHistory [LinearOrder τ] (members : Finset σ) (term : α → τ) (L : τ → List α)
    (elected : τ → List α → Prop) (voted : σ → τ → List α → Prop) : Prop where
  terms : ∀ u, Matched term L (L u)
  bounded : ∀ u, ∀ e ∈ L u, term e ≤ u
  led : ∀ u, L u ≠ [] → ∃ log, elected u log
  start : ∀ u log, elected u log → log <+: L u
  before : ∀ u log, elected u log → ∀ e ∈ log, term e < u
  voters : ∀ v u log, voted v u log → Matched term L log
  quorum : ∀ u log, elected u log → HasQuorum members fun v =>
    ∃ voterLog, voted v u voterLog ∧ AtLeastAsRecent term log voterLog

variable [LinearOrder τ] {elected : τ → List α → Prop} {voted : σ → τ → List α → Prop}

lemma ElectionHistory.matched (h : ElectionHistory members term L elected voted) {u : τ}
    {log : List α} (helected : elected u log) : Matched term L log :=
  (h.terms u).of_isPrefix (h.start u log helected)

/-- An entry that a leader was elected with is from a term that had a leader. -/
lemma ElectionHistory.led_of_mem (h : ElectionHistory members term L elected voted) {u : τ}
    {log : List α} (helected : elected u log) {e : α} (he : e ∈ log) :
    ∃ log', elected (term e) log' := by
  apply h.led
  intro hnil
  obtain ⟨k, hk⟩ := List.mem_iff_getElem?.1 he
  have hin := (h.matched helected).getElem? hk
  rw [hnil] at hin
  cases hin

/-- **Leader completeness.** -/
theorem ElectionHistory.later_leader_extends [DecidableEq σ] [LocallyFiniteOrder τ]
    (h : ElectionHistory members term L elected voted) {t : τ}
    (hxs : ∃ e, xs.getLast? = some e ∧ term e = t) (hown : xs <+: L t)
    (hheld : HasQuorum members fun v => ∀ u log, t < u → voted v u log → xs <+: log)
    {u : τ} {log : List α} (hlater : t < u) (helected : elected u log) : xs <+: log := by
  -- on the number of terms since `t`
  induction hn : (Finset.Ico t u).card using Nat.strong_induction_on generalizing u log with
  | _ n ih =>
      subst hn
      obtain ⟨v, -, hv, voterLog, hvoted, hrecent⟩ := hheld.meet (h.quorum u log helected)
      refine isPrefix_of_vote h.bounded (h.matched helected) (h.voters v u voterLog hvoted) hxs
        hown (hv u voterLog hlater hvoted) hrecent fun e he hte => ?_
      have heu : term e < u := h.before u log helected e he
      obtain ⟨log', helected'⟩ := h.led_of_mem helected he
      have hfewer : (Finset.Ico t (term e)).card < (Finset.Ico t u).card := by
        apply Finset.card_lt_card
        rw [Finset.ssubset_iff_of_subset (Finset.Ico_subset_Ico_right heu.le)]
        exact ⟨term e, Finset.mem_Ico.2 ⟨hte.le, heu⟩, by simp⟩
      exact (ih _ hfewer hte helected' rfl).trans (h.start _ _ helected')

end Elections

end LaptopRaft
