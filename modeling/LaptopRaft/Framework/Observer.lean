import LaptopRaft.Framework.TransitionSystem

/-!
# A transition system with an observer

`S.observed watch m₀` is `S` together with a memory that is written by every step and read by
none: `watch` says what the memory becomes, given the state before the step and its label.  It
holds what a property of runs talks about and the states do not record, such as the order of
past steps.

The observer changes nothing: the observed runs are the runs (`Run.forget`, `Run.observe`).
-/

namespace LaptopRaft

namespace TransitionSystem

variable {σ ℓ ε μ : Type*} {S : TransitionSystem σ ℓ ε} {watch : μ → σ → ℓ → μ} {m₀ : μ}

/-- The system with an observer. -/
def observed (S : TransitionSystem σ ℓ ε) (watch : μ → σ → ℓ → μ) (m₀ : μ) :
    TransitionSystem (σ × μ) ℓ ε where
  init p := S.init p.1 ∧ p.2 = m₀
  step p l := (S.step p.1 l).map fun q => ((q.1, watch p.2 p.1 l), q.2)

theorem observed_step_iff {p p' : σ × μ} {l : ℓ} {es : List ε} :
    (S.observed watch m₀).step p l = some (p', es) ↔
      S.step p.1 l = some (p'.1, es) ∧ p'.2 = watch p.2 p.1 l := by
  obtain ⟨s', m'⟩ := p'
  constructor
  · intro h
    obtain ⟨⟨s₁, es₁⟩, hst, hp⟩ := Option.map_eq_some_iff.1 h
    simp only [Prod.mk.injEq] at hp
    obtain ⟨⟨rfl, rfl⟩, rfl⟩ := hp
    exact ⟨hst, rfl⟩
  · rintro ⟨hst, hm⟩
    have hm' : m' = watch p.2 p.1 l := hm
    subst hm'
    exact Option.map_eq_some_iff.2 ⟨_, hst, rfl⟩

/-- An observed run is a run. -/
theorem Run.forget {ok : σ × μ → ℓ → Prop} {p : σ × μ} {tr : List ε}
    (h : (S.observed watch m₀).Run ok p tr) : S.Run anyStep p.1 tr := by
  induction h with
  | init hs => exact .init hs.1
  | step _ _ hst ih => exact .step ih trivial (observed_step_iff.1 hst).1

/-- A condition on the steps of the system alone is kept. -/
theorem Run.forget_of {ok : σ → ℓ → Prop} {p : σ × μ} {tr : List ε}
    (h : (S.observed watch m₀).Run (fun p l => ok p.1 l) p tr) : S.Run ok p.1 tr := by
  induction h with
  | init hs => exact .init hs.1
  | step _ hok hst ih => exact .step ih hok (observed_step_iff.1 hst).1

/-- Every run can be observed. -/
theorem Run.observe {ok : σ → ℓ → Prop} {s : σ} {tr : List ε} (h : S.Run ok s tr) :
    ∃ m, (S.observed watch m₀).Run (fun p l => ok p.1 l) (s, m) tr := by
  induction h with
  | init hs => exact ⟨m₀, .init ⟨hs, rfl⟩⟩
  | step _ hok hst ih =>
      obtain ⟨m, hrun⟩ := ih
      exact ⟨_, .step hrun hok (observed_step_iff.2 ⟨hst, rfl⟩)⟩

end TransitionSystem

end LaptopRaft
