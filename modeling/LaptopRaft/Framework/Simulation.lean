import LaptopRaft.Framework.TransitionSystem

/-!
# Simulations, and systems with a companion

A `Simulation` of `S` by `T` relates their states so that every step of `S` is matched by steps of
`T`, which show of it what `see` says.  Every run of `S` is then, as far as it can be seen, a run of
`T` (`Simulation.run`).  The step case is handed the two runs so far, as in `Run.invariant`.

`S.withCompanion start may turn` is `S` with a companion that has a state of its own: it sees that
of `S`, takes steps between those of `S`, and may hold up `S`.  What it does is observed beside what
`S` does; the state of `S` it leaves alone.
-/

namespace LaptopRaft

namespace TransitionSystem

variable {σ ℓ ε τ μ δ : Type*} {S : TransitionSystem σ ℓ ε} {T : TransitionSystem τ μ δ}
  {ok : σ → ℓ → Prop} {ok' : τ → μ → Prop} {see : ε → Option δ} {R : σ → τ → Prop}

/-! ## Simulations -/

structure Simulation (S : TransitionSystem σ ℓ ε) (ok : σ → ℓ → Prop) (T : TransitionSystem τ μ δ)
    (ok' : τ → μ → Prop) (see : ε → Option δ) (R : σ → τ → Prop) : Prop where
  init : ∀ s, S.init s → ∃ t, T.init t ∧ R s t
  step : ∀ s tr l s' es t tr', S.Run ok s tr → T.Run ok' t tr' → ok s l →
    S.step s l = some (s', es) → R s t →
    ∃ t', T.Path ok' (t, tr') (t', tr' ++ es.filterMap see) ∧ R s' t'

/-- **Runs of `S` are runs of `T`.** -/
theorem Simulation.run (h : Simulation S ok T ok' see R) {s : σ} {tr : List ε}
    (hrun : S.Run ok s tr) : ∃ t, T.Run ok' t (tr.filterMap see) ∧ R s t := by
  induction hrun with
  | init hs =>
      obtain ⟨t, ht, hR⟩ := h.init _ hs
      exact ⟨t, .init ht, hR⟩
  | @step s s' tr es l hrun hok hst ih =>
      obtain ⟨t, ht, hR⟩ := ih
      obtain ⟨t', hpath, hR'⟩ := h.step s tr l s' es t (tr.filterMap see) hrun ht hok hst hR
      refine ⟨t', ?_, hR'⟩
      rw [List.filterMap_append]
      exact hpath.run_of_imp (fun _ _ hok => hok) ht

/-! ## Companions -/

variable {ρ κ : Type*} {start : ρ} {may : σ × ρ → ℓ → Bool}
  {turn : σ × ρ → κ → Option (ρ × List δ)}

/-- The system with a companion. -/
def withCompanion (S : TransitionSystem σ ℓ ε) (start : ρ) (may : σ × ρ → ℓ → Bool)
    (turn : σ × ρ → κ → Option (ρ × List δ)) : TransitionSystem (σ × ρ) (ℓ ⊕ κ) (ε ⊕ δ) where
  init p := S.init p.1 ∧ p.2 = start
  step p
    | .inl l =>
        if may p l then (S.step p.1 l).map fun q => ((q.1, p.2), q.2.map Sum.inl) else none
    | .inr k => (turn p k).map fun q => ((p.1, q.1), q.2.map Sum.inr)

/-- A condition on the steps of the system alone. -/
def onSystem (ok : σ → ℓ → Prop) (p : σ × ρ) : ℓ ⊕ κ → Prop
  | .inl l => ok p.1 l
  | .inr _ => True

instance [∀ s l, Decidable (ok s l)] (p : σ × ρ) (l : ℓ ⊕ κ) : Decidable (onSystem ok p l) :=
  match l with
  | .inl l => inferInstanceAs (Decidable (ok p.1 l))
  | .inr _ => instDecidableTrue

/-- A step is one of the system, which its companion lets it take, or one of the companion. -/
lemma withCompanion_step_cases {p p' : σ × ρ} {l : ℓ ⊕ κ} {es : List (ε ⊕ δ)}
    (h : (S.withCompanion start may turn).step p l = some (p', es)) :
    (∃ l' es', l = .inl l' ∧ may p l' ∧ S.step p.1 l' = some (p'.1, es') ∧ p'.2 = p.2 ∧
      es = es'.map Sum.inl) ∨
      ∃ k es', l = .inr k ∧ turn p k = some (p'.2, es') ∧ p'.1 = p.1 ∧ es = es'.map Sum.inr := by
  cases l with
  | inl l' =>
      simp only [withCompanion] at h
      split at h
      · rename_i hmay
        obtain ⟨⟨s₁, es₁⟩, hst, hp⟩ := Option.map_eq_some_iff.1 h
        simp only [Prod.mk.injEq] at hp
        obtain ⟨rfl, rfl⟩ := hp
        exact Or.inl ⟨l', es₁, rfl, hmay, hst, rfl, rfl⟩
      · cases h
  | inr k =>
      obtain ⟨⟨r, es₁⟩, hturn, hp⟩ := Option.map_eq_some_iff.1 h
      simp only [Prod.mk.injEq] at hp
      obtain ⟨rfl, rfl⟩ := hp
      exact Or.inr ⟨k, es₁, rfl, hturn, rfl, rfl⟩

lemma filterMap_getLeft?_map_inl (es : List ε) :
    (es.map Sum.inl).filterMap (Sum.getLeft? (β := δ)) = es := by
  rw [List.filterMap_map]
  exact List.filterMap_some

lemma filterMap_getLeft?_map_inr (es : List δ) :
    (es.map Sum.inr).filterMap (Sum.getLeft? (α := ε)) = [] := by
  rw [List.filterMap_map, List.filterMap_eq_nil_iff]
  exact fun _ _ => rfl

lemma filterMap_getRight?_map_inl (es : List ε) :
    (es.map Sum.inl).filterMap (Sum.getRight? (β := δ)) = [] := by
  rw [List.filterMap_map, List.filterMap_eq_nil_iff]
  exact fun _ _ => rfl

lemma filterMap_getRight?_map_inr (es : List δ) :
    (es.map Sum.inr).filterMap (Sum.getRight? (α := ε)) = es := by
  rw [List.filterMap_map]
  exact List.filterMap_some

/-- Without its companion, a run is a run. -/
theorem Run.forgetCompanion {p : σ × ρ} {tr : List (ε ⊕ δ)}
    (h : (S.withCompanion start may turn).Run (onSystem ok) p tr) :
    S.Run ok p.1 (tr.filterMap Sum.getLeft?) := by
  induction h with
  | init hp => exact .init hp.1
  | step _ hok hstep ih =>
      rw [List.filterMap_append]
      rcases withCompanion_step_cases hstep with
        ⟨l', es', rfl, -, hst, -, rfl⟩ | ⟨k, es', rfl, -, hsame, rfl⟩
      · rw [filterMap_getLeft?_map_inl]
        exact .step ih hok hst
      · rw [filterMap_getLeft?_map_inr, List.append_nil, hsame]
        exact ih

end TransitionSystem

end LaptopRaft
