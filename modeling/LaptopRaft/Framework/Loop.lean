import Mathlib.Data.List.Basic
import Mathlib.Data.List.Forall2
import Mathlib.Logic.Function.Basic

/-!
# Counted loops that may fail

A C loop `for (k = 0; k < n; k++) body` whose body may be undefined is
`(List.range n).foldlM body`, in `Option`.  `foldlM_range_induction` is its invariant rule,
`foldlM_range_total` the rule for a loop whose body is defined wherever the invariant holds;
`foldlM_total` is the same for a loop over the elements of a list.  A loop that also writes down
what each pass was given does nothing else (`foldlM_observed`).  `mapM_eq_some_iff` is about a loop
whose passes are independent of each other, and `foldlM_map_eq_mapM` about one that could have been
cut in two: what its passes need is computed first.
-/

namespace LaptopRaft

variable {β : Type*} {n : ℕ} {b b' : β}

lemma foldlM_range_succ (f : β → ℕ → Option β) (b : β) (n : ℕ) :
    (List.range (n + 1)).foldlM f b = (List.range n).foldlM f b >>= fun x => f x n := by
  rw [List.range_succ, List.foldlM_append]
  simp

/-- **Loop invariant.**  `I k` holds before pass `k`. -/
theorem foldlM_range_induction {f : β → ℕ → Option β} {I : ℕ → β → Prop}
    (h : (List.range n).foldlM f b = some b') (hinit : I 0 b)
    (hpass : ∀ k < n, ∀ x x', I k x → f x k = some x' → I (k + 1) x') : I n b' := by
  induction n generalizing b' with
  | zero =>
      simp only [List.range_zero, List.foldlM_nil, Option.pure_def, Option.some.injEq] at h
      exact h ▸ hinit
  | succ n ih =>
      rw [foldlM_range_succ, Option.bind_eq_bind, Option.bind_eq_some_iff] at h
      obtain ⟨x, hx, hpassed⟩ := h
      have hbefore : I n x := ih hx fun k hk => hpass k (Nat.lt_succ_of_lt hk)
      exact hpass n (Nat.lt_succ_self n) x b' hbefore hpassed

/-- **A loop that is defined throughout.** -/
theorem foldlM_range_total {f : β → ℕ → Option β} {I : ℕ → β → Prop} (hinit : I 0 b)
    (hpass : ∀ k < n, ∀ x, I k x → ∃ x', f x k = some x' ∧ I (k + 1) x') :
    ∃ b', (List.range n).foldlM f b = some b' ∧ I n b' := by
  induction n with
  | zero => exact ⟨b, rfl, hinit⟩
  | succ n ih =>
      obtain ⟨x, hx, hbefore⟩ := ih fun k hk => hpass k (Nat.lt_succ_of_lt hk)
      obtain ⟨x', hx', hafter⟩ := hpass n (Nat.lt_succ_self n) x hbefore
      refine ⟨x', ?_, hafter⟩
      rw [foldlM_range_succ, hx, Option.bind_eq_bind, Option.bind_some]
      exact hx'

theorem foldlM_total {α : Type*} {f : β → α → Option β} {I : β → Prop} {xs : List α}
    (hinit : I b) (hpass : ∀ a ∈ xs, ∀ x, I x → ∃ x', f x a = some x' ∧ I x') :
    ∃ b', xs.foldlM f b = some b' ∧ I b' := by
  induction xs generalizing b with
  | nil => exact ⟨b, rfl, hinit⟩
  | cons a xs ih =>
      obtain ⟨x, hx, hbefore⟩ := hpass a List.mem_cons_self b hinit
      rw [List.foldlM_cons, hx, Option.bind_eq_bind, Option.bind_some]
      exact ih hbefore fun a ha => hpass a (List.mem_cons_of_mem _ ha)

theorem foldlM_observed {α γ : Type*} {f : β → α → Option β} {g : α → γ} {xs : List α}
    (seen : List γ) :
    xs.foldlM (fun p a => (f p.1 a).map fun x => (x, p.2 ++ [g a])) (b, seen) =
      (xs.foldlM f b).map fun x => (x, seen ++ xs.map g) := by
  induction xs generalizing b seen with
  | nil => simp
  | cons a xs ih =>
      rw [List.foldlM_cons, List.foldlM_cons]
      cases f b a with
      | none => rfl
      | some x =>
          rw [Option.map_some, Option.bind_eq_bind, Option.bind_some, Option.bind_eq_bind,
            Option.bind_some, ih, List.append_assoc]
          rfl

theorem mapM_eq_some_iff {α γ : Type*} {f : α → Option γ} {xs : List α} {ys : List γ} :
    xs.mapM f = some ys ↔ List.Forall₂ (fun x y => f x = some y) xs ys := by
  induction xs generalizing ys with
  | nil => simp [eq_comm]
  | cons x xs ih =>
      simp only [List.mapM_cons, Option.bind_eq_bind, Option.bind_eq_some_iff, Option.pure_def,
        Option.some.injEq, List.forall₂_cons_left_iff]
      constructor
      · rintro ⟨y, hy, zs, hzs, rfl⟩
        exact ⟨y, zs, hy, ih.1 hzs, rfl⟩
      · rintro ⟨y, zs, hy, hzs, rfl⟩
        exact ⟨y, hy, zs, ih.2 hzs, rfl⟩

theorem foldlM_map_eq_mapM {α γ : Type*} {f : α → Option γ} {g : β → γ → α → β} {xs : List α}
    (b : β) :
    xs.foldlM (fun b a => (f a).map fun y => g b y a) b =
      (xs.mapM f).map fun ys => (ys.zip xs).foldl (fun b p => g b p.1 p.2) b := by
  induction xs generalizing b with
  | nil => simp
  | cons a xs ih =>
      rw [List.foldlM_cons, List.mapM_cons]
      cases f a with
      | none => rfl
      | some y =>
          rw [Option.map_some, Option.bind_eq_bind, Option.bind_some, ih, Option.bind_eq_bind,
            Option.bind_some]
          cases xs.mapM f <;> rfl

end LaptopRaft
