import Mathlib.Logic.Relation
import Mathlib.Data.List.Basic

/-!
# Labelled transition systems with observed traces

A `TransitionSystem` is a partial step function `step : σ → ℓ → Option (σ × List ε)`: a label
that is enabled leads to a next state and emits the observations the step makes.  `Run` collects
the observations of a whole run; it takes a *step condition* `ok : σ → ℓ → Prop`, so that one
definition covers all runs of the system (`ok` constantly true) and the runs that stay clear of
some branch.

* `Run.mono` weakens the step condition.
* `Run.invariant` is the induction rule: a property of (state, trace) that holds initially and
  is preserved by every step of a run holds at the end of every run.  The rule hands the step
  case the run itself, so that earlier invariants can be used.
* `Path` is the part of a run between two of its states; `Path.relates` and `Path.invariant` are
  its induction rules.
* `no_infinite_run` is the measure rule for termination.
* `exec` runs a list of labels, checking the step condition; `exec_path`, `exec_run` and
  `run_of_exec` turn an evaluation into a `Path` or a `Run`.
-/

namespace LaptopRaft

/-- A system with states `σ`, labels `ℓ` and observations `ε`. -/
structure TransitionSystem (σ ℓ ε : Type*) where
  init : σ → Prop
  step : σ → ℓ → Option (σ × List ε)

namespace TransitionSystem

variable {σ ℓ ε : Type*} {S : TransitionSystem σ ℓ ε}

/-- `S.Run ok s tr`: some run all of whose steps meet `ok` ends in `s` and was observed
as `tr`. -/
inductive Run (S : TransitionSystem σ ℓ ε) (ok : σ → ℓ → Prop) : σ → List ε → Prop
  | init {s : σ} : S.init s → Run S ok s []
  | step {s s' : σ} {tr es : List ε} {l : ℓ} :
      Run S ok s tr → ok s l → S.step s l = some (s', es) → Run S ok s' (tr ++ es)

/-- A condition that holds of every step. -/
def anyStep : σ → ℓ → Prop := fun _ _ => True

instance (s : σ) (l : ℓ) : Decidable (anyStep s l) := isTrue trivial

lemma Run.mono {ok ok' : σ → ℓ → Prop} (himp : ∀ s l, ok s l → ok' s l)
    {s : σ} {tr : List ε} (h : S.Run ok s tr) : S.Run ok' s tr := by
  induction h with
  | init hs => exact .init hs
  | step _ hok hstep ih => exact .step ih (himp _ _ hok) hstep

/-- **Invariance.** -/
theorem Run.invariant {ok : σ → ℓ → Prop} {I : σ → List ε → Prop}
    (hinit : ∀ s, S.init s → I s [])
    (hstep : ∀ s tr l s' es, S.Run ok s tr → I s tr → ok s l → S.step s l = some (s', es) →
      I s' (tr ++ es))
    {s : σ} {tr : List ε} (h : S.Run ok s tr) : I s tr := by
  induction h with
  | init hs => exact hinit _ hs
  | step hrun hok hst ih => exact hstep _ _ _ _ _ hrun ih hok hst

/-- Inversion of a step function that maps the outcome of another one. -/
lemma exists_of_map_eq_some {α β γ : Type*} {x : Option α} {g : α → β} {k : α → γ} {b : β} {c : γ}
    (h : x.map (fun a => (g a, k a)) = some (b, c)) : ∃ a, x = some a ∧ g a = b ∧ k a = c := by
  obtain ⟨a, ha, hp⟩ := Option.map_eq_some_iff.1 h
  exact ⟨a, ha, congrArg Prod.fst hp, congrArg Prod.snd hp⟩

/-! ## The steps between two states of a run -/

/-- One step between (state, trace) pairs. -/
def StepTo (S : TransitionSystem σ ℓ ε) (ok : σ → ℓ → Prop) (p q : σ × List ε) : Prop :=
  ∃ l es, ok p.1 l ∧ S.step p.1 l = some (q.1, es) ∧ q.2 = p.2 ++ es

/-- Any number of steps. -/
def Path (S : TransitionSystem σ ℓ ε) (ok : σ → ℓ → Prop) : σ × List ε → σ × List ε → Prop :=
  Relation.ReflTransGen (S.StepTo ok)

lemma Path.run_of_imp {ok ok' : σ → ℓ → Prop} (himp : ∀ s l, ok s l → ok' s l)
    {p q : σ × List ε} (hpath : S.Path ok p q) (hrun : S.Run ok' p.1 p.2) :
    S.Run ok' q.1 q.2 := by
  induction hpath with
  | refl => exact hrun
  | tail _ hst ih =>
      obtain ⟨l, es, hok, hstep, htr⟩ := hst
      rw [htr]
      exact .step ih (himp _ _ hok) hstep

lemma Path.mono {ok ok' : σ → ℓ → Prop} (himp : ∀ s l, ok s l → ok' s l)
    {p q : σ × List ε} (hpath : S.Path ok p q) : S.Path ok' p q := by
  have hle : S.StepTo ok ≤ S.StepTo ok' := by
    rintro a b ⟨l, es, hok, hst⟩
    exact ⟨l, es, himp _ _ hok, hst⟩
  exact Relation.ReflTransGen.mono hle p q hpath

lemma Path.any {ok : σ → ℓ → Prop} {p q : σ × List ε} (hpath : S.Path ok p q) :
    S.Path anyStep p q :=
  hpath.mono fun _ _ _ => trivial

lemma Path.run {ok : σ → ℓ → Prop} {p q : σ × List ε} (hpath : S.Path ok p q)
    (hrun : S.Run anyStep p.1 p.2) : S.Run anyStep q.1 q.2 :=
  hpath.run_of_imp (fun _ _ _ => trivial) hrun

/-- Observations are only added. -/
lemma Path.trace {ok : σ → ℓ → Prop} {p q : σ × List ε} (hpath : S.Path ok p q) :
    ∃ es, q.2 = p.2 ++ es := by
  induction hpath with
  | refl => exact ⟨[], (List.append_nil _).symm⟩
  | tail _ hst ih =>
      obtain ⟨es, hes⟩ := ih
      obtain ⟨l, es', -, -, htr⟩ := hst
      exact ⟨es ++ es', by rw [htr, hes, List.append_assoc]⟩

/-- A relation that is reflexive, transitive and contains every step that meets `ok` relates
the two ends of every path of such steps that starts in a reachable state. -/
theorem Path.relates {ok : σ → ℓ → Prop} {R : σ → σ → Prop} (hrefl : ∀ s, R s s)
    (htrans : ∀ a b c, R a b → R b c → R a c)
    (hstep : ∀ s tr l s' es, S.Run anyStep s tr → ok s l → S.step s l = some (s', es) → R s s')
    {p q : σ × List ε} (hpath : S.Path ok p q) (hrun : S.Run anyStep p.1 p.2) : R p.1 q.1 := by
  induction hpath with
  | refl => exact hrefl _
  | tail hmid hst ih =>
      obtain ⟨l, es, hok, hs, -⟩ := hst
      exact htrans _ _ _ ih (hstep _ _ _ _ _ (Path.run hmid hrun) hok hs)

/-- A property of states that the steps that meet `ok` preserve holds along every path of them. -/
theorem Path.invariant {ok : σ → ℓ → Prop} {I : σ → Prop}
    (hstep : ∀ s tr l s' es, S.Run anyStep s tr → ok s l → S.step s l = some (s', es) →
      I s → I s')
    {p q : σ × List ε} (hpath : S.Path ok p q) (hrun : S.Run anyStep p.1 p.2) (h : I p.1) :
    I q.1 :=
  Path.relates (R := fun s s' => I s → I s') (fun _ h => h) (fun _ _ _ h₁ h₂ h => h₂ (h₁ h))
    hstep hpath hrun h

/-- The same for a property of states and observations. -/
theorem Path.invariant_trace {ok : σ → ℓ → Prop} {I : σ → List ε → Prop}
    (hstep : ∀ s tr l s' es, S.Run anyStep s tr → ok s l → S.step s l = some (s', es) →
      I s tr → I s' (tr ++ es))
    {p q : σ × List ε} (hpath : S.Path ok p q) (hrun : S.Run anyStep p.1 p.2) (h : I p.1 p.2) :
    I q.1 q.2 := by
  induction hpath with
  | refl => exact h
  | tail hmid hst ih =>
      obtain ⟨l, es, hok, hs, htr⟩ := hst
      rw [htr]
      exact hstep _ _ _ _ _ (Path.run hmid hrun) hok hs ih

/-! ## Termination -/

/-- **Termination.**  A measure that every step from within an invariant decreases. -/
theorem no_infinite_run {I : σ → Prop} (measure : σ → ℕ)
    (hstep : ∀ s l s' es, I s → S.step s l = some (s', es) → I s' ∧ measure s' < measure s)
    {run : ℕ → σ} (hinit : I (run 0)) :
    ¬ ∀ n, ∃ l es, S.step (run n) l = some (run (n + 1), es) := by
  intro hrun
  have hbound : ∀ n, I (run n) ∧ measure (run n) + n ≤ measure (run 0) := by
    intro n
    induction n with
    | zero => exact ⟨hinit, Nat.le_refl _⟩
    | succ n ih =>
        obtain ⟨l, es, hst⟩ := hrun n
        obtain ⟨hnext, hless⟩ := hstep _ _ _ _ ih.1 hst
        exact ⟨hnext, by omega⟩
  have hlast := (hbound (measure (run 0) + 1)).2
  omega

/-! ## Executing a list of labels -/

/-- Execute labels in order, emitting the trace; `none` when a label is not enabled or the
step condition fails. -/
def exec (S : TransitionSystem σ ℓ ε) (ok : σ → ℓ → Prop) [∀ s l, Decidable (ok s l)] :
    σ → List ε → List ℓ → Option (σ × List ε)
  | s, tr, [] => some (s, tr)
  | s, tr, l :: ls =>
      if ok s l then
        match S.step s l with
        | some (s', es) => exec S ok s' (tr ++ es) ls
        | none => none
      else none

theorem exec_path {ok : σ → ℓ → Prop} [∀ s l, Decidable (ok s l)] {ls : List ℓ} {s s' : σ}
    {tr tr' : List ε} (h : S.exec ok s tr ls = some (s', tr')) : S.Path ok (s, tr) (s', tr') := by
  induction ls generalizing s tr with
  | nil =>
      simp only [exec, Option.some.injEq, Prod.mk.injEq] at h
      obtain ⟨rfl, rfl⟩ := h
      exact .refl
  | cons l ls ih =>
      rw [exec] at h
      split at h
      · rename_i hok
        split at h
        · rename_i hst
          exact .head ⟨l, _, hok, hst, rfl⟩ (ih h)
        · cases h
      · cases h

theorem exec_run {ok : σ → ℓ → Prop} [∀ s l, Decidable (ok s l)] {ls : List ℓ} {s s' : σ}
    {tr tr' : List ε} (hrun : S.Run ok s tr) (h : S.exec ok s tr ls = some (s', tr')) :
    S.Run ok s' tr' :=
  (exec_path h).run_of_imp (fun _ _ hok => hok) hrun

/-- An evaluation that ends well. -/
theorem run_of_exec (S : TransitionSystem σ ℓ ε) (ok : σ → ℓ → Prop)
    [∀ s l, Decidable (ok s l)] (s : σ) (hinit : S.init s) (labels : List ℓ)
    {P : σ → List ε → Prop} [∀ s tr, Decidable (P s tr)]
    (h : (S.exec ok s [] labels).any fun p => P p.1 p.2) : ∃ s tr, S.Run ok s tr ∧ P s tr := by
  rw [Option.any_eq_true] at h
  obtain ⟨⟨s, tr⟩, hexec, hP⟩ := h
  exact ⟨s, tr, exec_run (.init hinit) hexec, of_decide_eq_true hP⟩

end TransitionSystem

end LaptopRaft
