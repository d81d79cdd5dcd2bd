import LaptopRaft.Framework.TransitionSystem

/-!
# A transition system with a reader

`S.withReader read start` is `S` together with a process that takes steps of its own between the
steps of `S`: it looks at the state and moves on, and changes nothing of the state.  What it has
read may be out of date at its next step; what it can still rely on is an invariant of the two
together (`Run.withReader_invariant`).
-/

namespace LaptopRaft

namespace TransitionSystem

variable {σ ℓ ε ρ κ : Type*} {S : TransitionSystem σ ℓ ε} {read : ρ → σ → κ → Option ρ}
  {start : ρ → Prop}

/-- The system with a reader. -/
def withReader (S : TransitionSystem σ ℓ ε) (read : ρ → σ → κ → Option ρ) (start : ρ → Prop) :
    TransitionSystem (σ × ρ) (ℓ ⊕ κ) ε where
  init p := S.init p.1 ∧ start p.2
  step p
    | .inl l => (S.step p.1 l).map fun q => ((q.1, p.2), q.2)
    | .inr k => (read p.2 p.1 k).map fun r => ((p.1, r), [])

/-- A step is one of the system or one of the reader. -/
lemma withReader_step_cases {p p' : σ × ρ} {l : ℓ ⊕ κ} {es : List ε}
    (h : (S.withReader read start).step p l = some (p', es)) :
    (∃ l', l = .inl l' ∧ S.step p.1 l' = some (p'.1, es) ∧ p'.2 = p.2) ∨
      ∃ k, l = .inr k ∧ read p.2 p.1 k = some p'.2 ∧ p'.1 = p.1 ∧ es = [] := by
  cases l with
  | inl l' =>
      obtain ⟨⟨s', es'⟩, hst, hp⟩ := Option.map_eq_some_iff.1 h
      simp only [Prod.mk.injEq] at hp
      obtain ⟨rfl, rfl⟩ := hp
      exact Or.inl ⟨l', rfl, hst, rfl⟩
  | inr k =>
      obtain ⟨r, hread, hp⟩ := Option.map_eq_some_iff.1 h
      simp only [Prod.mk.injEq] at hp
      obtain ⟨rfl, rfl⟩ := hp
      exact Or.inr ⟨k, rfl, hread, rfl, rfl⟩

/-- Without the reader, a run is a run. -/
theorem Run.forgetReader {ok : σ × ρ → ℓ ⊕ κ → Prop} {p : σ × ρ} {tr : List ε}
    (h : (S.withReader read start).Run ok p tr) : S.Run anyStep p.1 tr := by
  induction h with
  | init hs => exact .init hs.1
  | step _ _ hst ih =>
      rcases withReader_step_cases hst with ⟨l', -, hst, -⟩ | ⟨k, -, -, hsame, rfl⟩
      · exact .step ih trivial hst
      · rw [hsame, List.append_nil]
        exact ih

/-- **Invariance**: the two take turns. -/
theorem Run.withReader_invariant {ok : σ × ρ → ℓ ⊕ κ → Prop} {I : σ → ρ → Prop}
    (hinit : ∀ s r, S.init s → start r → I s r)
    (hsystem : ∀ s r tr l s' es, S.Run anyStep s tr → ok (s, r) (.inl l) →
      S.step s l = some (s', es) → I s r → I s' r)
    (hreader : ∀ s r tr k r', S.Run anyStep s tr → ok (s, r) (.inr k) → read r s k = some r' →
      I s r → I s r')
    {p : σ × ρ} {tr : List ε} (h : (S.withReader read start).Run ok p tr) : I p.1 p.2 := by
  refine Run.invariant (I := fun p _ => I p.1 p.2) ?_ ?_ h
  · exact fun p ⟨hs, hr⟩ => hinit p.1 p.2 hs hr
  intro p tr l p' es hrun ih hok hst
  rcases withReader_step_cases hst with ⟨l', rfl, hst, hsame⟩ | ⟨k, rfl, hread, hsame, -⟩
  · rw [hsame]
    exact hsystem p.1 p.2 tr l' p'.1 es hrun.forgetReader hok hst ih
  · rw [hsame]
    exact hreader p.1 p.2 tr k p'.2 hrun.forgetReader hok hread ih

end TransitionSystem

end LaptopRaft
