import Mathlib.Data.List.Basic
import Mathlib.Data.List.Count
import Mathlib.Data.List.Induction
import Mathlib.Data.List.TakeDrop
import Mathlib.Logic.Function.Basic
import Mathlib.Order.Lattice

/-!
# Logs that agree with the logs of their terms

Entries carry a term, and each term `t` has one log `L t`, which only grows.  A log is `Matched`
when each of its entries sits in it as it sits in the log of the entry's term: everything up to
and including the entry is a prefix of that log.

* Matched logs that hold entries of one term at an index agree up to there (`Matched.agree`);
  this is the log matching property.
* Comparing one term is comparing everything before it (`Matched.take_eq`); this is what the
  consistency check of a follower rests on.
* The property survives growth of `L`, and extension along `L`.
* No entry is in a matched log more often than in the log of its term (`Matched.count_le`).
* In a matched log terms are in order as soon as the logs `L t` hold nothing above `t`
  (`Matched.term_le`).
-/

namespace LaptopRaft

variable {α τ : Type*} {term : α → τ} {L L' : τ → List α} {log log' : List α}

def Matched (term : α → τ) (L : τ → List α) (log : List α) : Prop :=
  ∀ k e, log[k]? = some e → log.take (k + 1) <+: L (term e)

lemma Matched.nil : Matched term L [] := by
  intro k e h
  simp at h

lemma Matched.mono (h : Matched term L log) (hgrow : ∀ t, L t <+: L' t) : Matched term L' log := by
  intro k e hk
  exact (h k e hk).trans (hgrow (term e))

/-- Taking from a log and from an extension of it. -/
lemma take_eq_of_isPrefix {n : ℕ} (h : log' <+: log) (hn : n ≤ log'.length) :
    log'.take n = log.take n := by
  obtain ⟨more, rfl⟩ := h
  rw [List.take_append_of_le_length hn]

lemma getElem?_of_isPrefix {k : ℕ} {e : α} (h : log' <+: log) (hk : log'[k]? = some e) :
    log[k]? = some e := by
  obtain ⟨hlt, -⟩ := List.getElem?_eq_some_iff.1 hk
  obtain ⟨more, rfl⟩ := h
  rw [List.getElem?_append_left hlt]
  exact hk

/-- A beginning of a log, and the entry that follows it there. -/
lemma isPrefix_concat {e : α} (h : log' <+: log) (he : log[log'.length]? = some e) :
    log' ++ [e] <+: log := by
  obtain ⟨more, rfl⟩ := h
  rw [List.getElem?_append_right (le_refl _), Nat.sub_self] at he
  cases more with
  | nil => cases he
  | cons x more =>
      obtain rfl : x = e := by simpa using he
      exact ⟨more, by simp⟩

lemma Matched.of_isPrefix (h : Matched term L log) (hpre : log' <+: log) :
    Matched term L log' := by
  intro k e hk
  obtain ⟨hlt, -⟩ := List.getElem?_eq_some_iff.1 hk
  rw [take_eq_of_isPrefix hpre hlt]
  exact h k e (getElem?_of_isPrefix hpre hk)

/-- A new entry that extends the log as it extends the log of its term. -/
lemma Matched.concat (h : Matched term L log) {e : α} (he : log ++ [e] <+: L (term e)) :
    Matched term L (log ++ [e]) := by
  intro k x hk
  by_cases hlast : k < log.length
  · rw [List.getElem?_append_left hlast] at hk
    rw [List.take_append_of_le_length hlast]
    exact h k x hk
  · obtain ⟨hlt, -⟩ := List.getElem?_eq_some_iff.1 hk
    rw [List.length_append, List.length_singleton] at hlt
    have hk' : k = log.length := by omega
    subst hk'
    rw [List.getElem?_concat_length, Option.some.injEq] at hk
    subst hk
    rw [List.take_of_length_le (by simp)]
    exact he

/-- The entry a matched log has at `k` is the entry of its term's log at `k`. -/
lemma Matched.getElem? (h : Matched term L log) {k : ℕ} {e : α} (hk : log[k]? = some e) :
    (L (term e))[k]? = some e := by
  refine getElem?_of_isPrefix (h k e hk) ?_
  rw [List.getElem?_take_of_lt (Nat.lt_succ_self k)]
  exact hk

/-- **Log matching.** -/
theorem Matched.agree (h : Matched term L log) (h' : Matched term L log') {k : ℕ} {e e' : α}
    (hk : log[k]? = some e) (hk' : log'[k]? = some e') (hterm : term e = term e') :
    log.take (k + 1) = log'.take (k + 1) := by
  have hpre := h k e hk
  have hpre' := h' k e' hk'
  rw [← hterm] at hpre'
  obtain ⟨hlt, -⟩ := List.getElem?_eq_some_iff.1 hk
  obtain ⟨hlt', -⟩ := List.getElem?_eq_some_iff.1 hk'
  have hlen : (log.take (k + 1)).length = (log'.take (k + 1)).length := by
    rw [List.length_take_of_le hlt, List.length_take_of_le hlt']
  exact (List.prefix_of_prefix_length_le hpre hpre' (Nat.le_of_eq hlen)).eq_of_length hlen

/-- Two matched logs whose terms agree at position `n - 1` have their first `n` entries in
common. -/
theorem Matched.take_eq (h : Matched term L log) (h' : Matched term L log') {n : ℕ}
    (hlast : 0 < n → ∃ e e', log[n - 1]? = some e ∧ log'[n - 1]? = some e' ∧ term e = term e') :
    log.take n = log'.take n := by
  rcases Nat.eq_zero_or_pos n with hzero | hpos
  · rw [hzero, List.take_zero, List.take_zero]
  · obtain ⟨e, e', he, he', hterm⟩ := hlast hpos
    have hagree := h.agree h' he he' hterm
    rwa [Nat.sub_add_cancel hpos] at hagree

/-- One log grows. -/
lemma isPrefix_update [DecidableEq τ] {t : τ} (h : L t <+: log) (u : τ) :
    L u <+: Function.update L t log u := by
  by_cases hu : u = t
  · subst hu
    rw [Function.update_self]
    exact h
  · exact ⟨[], by rw [List.append_nil, Function.update_of_ne hu]⟩

/-- A matched log has no entry more often than the log of the entry's term. -/
theorem Matched.count_le [DecidableEq α] (h : Matched term L log) (e : α) :
    log.count e ≤ (L (term e)).count e := by
  induction log using List.reverseRecOn with
  | nil =>
      rw [List.count_nil]
      exact Nat.zero_le _
  | append_singleton log x ih =>
      by_cases hx : x = e
      · -- the whole log is a beginning of the log of the term
        subst hx
        have hpre := h log.length x List.getElem?_concat_length
        rw [List.take_of_length_le (by simp)] at hpre
        exact hpre.sublist.count_le x
      · have hcount : (log ++ [x]).count e = log.count e := by
          rw [List.count_append, List.count_singleton, if_neg (by simpa using hx), Nat.add_zero]
        rw [hcount]
        exact ih (h.of_isPrefix (List.prefix_append log [x]))

section Order

variable [LinearOrder τ]

/-- Terms do not decrease along a matched log. -/
theorem Matched.term_le (h : Matched term L log) (hL : ∀ t, ∀ e ∈ L t, term e ≤ t) {i j : ℕ}
    {a b : α} (hij : i ≤ j) (hi : log[i]? = some a) (hj : log[j]? = some b) :
    term a ≤ term b := by
  refine hL (term b) a ?_
  have hin : (log.take (j + 1))[i]? = some a := by
    rw [List.getElem?_take_of_lt (by omega)]
    exact hi
  exact List.mem_of_getElem? (getElem?_of_isPrefix (h j b hj) hin)

end Order

end LaptopRaft
