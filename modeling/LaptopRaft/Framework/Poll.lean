import Mathlib.Data.Finset.Card
import Mathlib.Data.List.Basic

/-!
# A poll that stops early

Voters are asked one after the other.  One that `grants` its vote is counted, and the poll is `won`
when there are `enough`; one that `outranks` whoever asks ends it; any other makes no difference.

`poll_won_iff` says when a poll is won: at some voter that grants its vote, when there are enough by
then and nobody before it outranks.  Otherwise it is `lost` to a voter that does, or else all have
been asked and the votes do not suffice.
-/

namespace LaptopRaft

inductive Opinion
  | grants
  | refuses
  | outranks
deriving DecidableEq

inductive PollResult (κ : Type*)
  | won (votes : Finset κ)
  | lost (v : κ)
  | undecided (votes : Finset κ)

variable {κ : Type*} [DecidableEq κ]

/-- The votes there are when all of `voters` have been asked. -/
def granted (opinion : κ → Opinion) (voters : List κ) (votes : Finset κ) : Finset κ :=
  votes ∪ (voters.filter fun v => opinion v = .grants).toFinset

section Granted

variable {opinion : κ → Opinion} {voters rest : List κ} {votes votes' : Finset κ} {v : κ}
  {enough : Finset κ → Prop}

@[simp] lemma granted_nil : granted opinion [] votes = votes := by simp [granted]

lemma granted_cons_of_grants (h : opinion v = .grants) :
    granted opinion (v :: voters) votes = granted opinion voters (insert v votes) := by
  ext x
  simp [granted, h]

lemma granted_cons_of_ne (h : opinion v ≠ .grants) :
    granted opinion (v :: voters) votes = granted opinion voters votes := by
  simp [granted, h]

/-- Voters that all grant their vote. -/
lemma granted_of_grants (h : ∀ v ∈ voters, opinion v = .grants) :
    granted opinion voters votes = votes ∪ voters.toFinset := by
  rw [granted, List.filter_eq_self.2 fun v hv => by simp [h v hv]]

/-- There are enough votes at some voter that grants its own, and nobody before it outranks. -/
def CarriedBy (enough : Finset κ → Prop) (opinion : κ → Opinion) (voters : List κ)
    (votes : Finset κ) : Prop :=
  ∃ pre v post, voters = pre ++ v :: post ∧ opinion v = .grants ∧
    (∀ u ∈ pre, opinion u ≠ .outranks) ∧ enough (granted opinion (pre ++ [v]) votes)

lemma CarriedBy.cons (h : CarriedBy enough opinion rest votes') (hv : opinion v ≠ .outranks)
    (hvotes : ∀ xs, granted opinion (v :: xs) votes = granted opinion xs votes') :
    CarriedBy enough opinion (v :: rest) votes := by
  obtain ⟨pre, u, post, rfl, hu, hbefore, henough⟩ := h
  refine ⟨v :: pre, u, post, rfl, hu, ?_, ?_⟩
  · rintro x (_ | ⟨_, hx⟩)
    · exact hv
    · exact hbefore x hx
  · rw [List.cons_append, hvotes]
    exact henough

lemma CarriedBy.of_cons (h : CarriedBy enough opinion (v :: rest) votes)
    (hvotes : ∀ xs, granted opinion (v :: xs) votes = granted opinion xs votes')
    (hmore : opinion v = .grants → ¬ enough votes') : CarriedBy enough opinion rest votes' := by
  obtain ⟨pre, u, post, heq, hu, hbefore, henough⟩ := h
  cases pre with
  | nil =>
      obtain ⟨rfl, rfl⟩ := List.cons.inj heq
      rw [List.nil_append, hvotes, granted_nil] at henough
      exact absurd henough (hmore hu)
  | cons x pre =>
      obtain ⟨rfl, rfl⟩ := List.cons.inj heq
      rw [List.cons_append, hvotes] at henough
      exact ⟨pre, u, post, rfl, hu, fun y hy => hbefore y (List.mem_cons_of_mem _ hy), henough⟩

/-- Everybody's vote is enough. -/
lemma CarriedBy.of_grants (hne : voters ≠ []) (h : ∀ v ∈ voters, opinion v = .grants)
    (henough : enough (votes ∪ voters.toFinset)) : CarriedBy enough opinion voters votes := by
  have hlast := List.dropLast_append_getLast hne
  refine ⟨voters.dropLast, voters.getLast hne, [], hlast.symm, h _ (List.getLast_mem hne),
    fun u hu => ?_, ?_⟩
  · simp [h u (List.mem_of_mem_dropLast hu)]
  · rw [hlast, granted_of_grants h]
    exact henough

end Granted

section Poll

variable (enough : Finset κ → Prop) [DecidablePred enough] (opinion : κ → Opinion)

def poll : List κ → Finset κ → PollResult κ
  | [], votes => .undecided votes
  | v :: rest, votes =>
      match opinion v with
      | .grants =>
          if enough (insert v votes) then .won (insert v votes) else poll rest (insert v votes)
      | .refuses => poll rest votes
      | .outranks => .lost v

variable {enough} {opinion} {voters rest : List κ} {votes votes' : Finset κ} {v : κ}

lemma poll_won_here (h : opinion v = .grants) (hwon : enough (insert v votes)) :
    poll enough opinion (v :: rest) votes = .won (insert v votes) := by
  rw [poll, h]
  exact if_pos hwon

lemma poll_counted (h : opinion v = .grants) (hmore : ¬ enough (insert v votes)) :
    poll enough opinion (v :: rest) votes = poll enough opinion rest (insert v votes) := by
  rw [poll, h]
  exact if_neg hmore

lemma poll_refused (h : opinion v = .refuses) :
    poll enough opinion (v :: rest) votes = poll enough opinion rest votes := by
  rw [poll, h]

lemma poll_outranked (h : opinion v = .outranks) :
    poll enough opinion (v :: rest) votes = .lost v := by
  rw [poll, h]

lemma poll_congr {opinion' : κ → Opinion} (h : ∀ v ∈ voters, opinion' v = opinion v) :
    poll enough opinion' voters votes = poll enough opinion voters votes := by
  induction voters generalizing votes with
  | nil => rfl
  | cons v rest ih =>
      rw [List.forall_mem_cons] at h
      rw [poll, poll, h.1, ih h.2, ih h.2]

/-- **When a poll is won.** -/
theorem poll_won_iff : (∃ votes', poll enough opinion voters votes = .won votes') ↔
    CarriedBy enough opinion voters votes := by
  induction voters generalizing votes with
  | nil =>
      constructor
      · rintro ⟨votes', h⟩
        cases h
      · rintro ⟨pre, v, post, h, -⟩
        simp at h
  | cons v rest ih =>
      cases hv : opinion v with
      | grants =>
          have hvotes : ∀ xs, granted opinion (v :: xs) votes =
              granted opinion xs (insert v votes) := fun xs => granted_cons_of_grants hv
          by_cases hwon : enough (insert v votes)
          · rw [poll_won_here hv hwon]
            refine iff_of_true ⟨_, rfl⟩ ⟨[], v, rest, rfl, hv, nofun, ?_⟩
            rwa [List.nil_append, hvotes, granted_nil]
          · rw [poll_counted hv hwon, ih]
            exact ⟨fun h => h.cons (by simp [hv]) hvotes, fun h => h.of_cons hvotes fun _ => hwon⟩
      | refuses =>
          have hvotes : ∀ xs, granted opinion (v :: xs) votes = granted opinion xs votes :=
            fun xs => granted_cons_of_ne (by simp [hv])
          rw [poll_refused hv, ih]
          exact ⟨fun h => h.cons (by simp [hv]) hvotes,
            fun h => h.of_cons hvotes fun hgrants => by simp [hv] at hgrants⟩
      | outranks =>
          rw [poll_outranked hv]
          refine iff_of_false (fun ⟨_, h⟩ => by cases h) ?_
          rintro ⟨pre, u, post, heq, hu, hbefore, -⟩
          cases pre with
          | nil =>
              obtain ⟨rfl, -⟩ := List.cons.inj heq
              rw [hv] at hu
              cases hu
          | cons x pre =>
              obtain ⟨rfl, -⟩ := List.cons.inj heq
              exact hbefore v List.mem_cons_self hv

lemma poll_lost (h : poll enough opinion voters votes = .lost v) :
    v ∈ voters ∧ opinion v = .outranks := by
  induction voters generalizing votes with
  | nil => cases h
  | cons u rest ih =>
      cases hu : opinion u with
      | grants =>
          by_cases hwon : enough (insert u votes)
          · rw [poll_won_here hu hwon] at h
            cases h
          · rw [poll_counted hu hwon] at h
            exact (ih h).imp_left (List.mem_cons_of_mem _)
      | refuses =>
          rw [poll_refused hu] at h
          exact (ih h).imp_left (List.mem_cons_of_mem _)
      | outranks =>
          rw [poll_outranked hu] at h
          obtain rfl := PollResult.lost.inj h
          exact ⟨List.mem_cons_self, hu⟩

lemma poll_undecided (h : poll enough opinion voters votes = .undecided votes') :
    (∀ v ∈ voters, opinion v ≠ .outranks) ∧ votes' = granted opinion voters votes := by
  induction voters generalizing votes with
  | nil => exact ⟨nofun, by rw [granted_nil]; exact (PollResult.undecided.inj h).symm⟩
  | cons u rest ih =>
      cases hu : opinion u with
      | grants =>
          by_cases hwon : enough (insert u votes)
          · rw [poll_won_here hu hwon] at h
            cases h
          · rw [poll_counted hu hwon] at h
            rw [granted_cons_of_grants hu, List.forall_mem_cons]
            exact ⟨⟨by simp [hu], (ih h).1⟩, (ih h).2⟩
      | refuses =>
          rw [poll_refused hu] at h
          rw [granted_cons_of_ne (by simp [hu]), List.forall_mem_cons]
          exact ⟨⟨by simp [hu], (ih h).1⟩, (ih h).2⟩
      | outranks =>
          rw [poll_outranked hu] at h
          cases h

end Poll

end LaptopRaft
