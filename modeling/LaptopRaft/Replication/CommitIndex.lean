import LaptopRaft.Properties.Replay
import Mathlib.Data.Fintype.Order
import Mathlib.Data.Int.LeastGreatest
import Mathlib.Order.Bounds.Basic

/-!
# The index `CommitLog` commits

`CommitLog` by itself, on any acknowledgements and whatever the record is.

* There is a greatest index that more than half of the slots reach (`exists_isGreatest_majority`);
  raising a slot does not lower it (`Majority.mono`).
* `executeTo` executes the entries up to an index, and may be done in parts.
* `CommitLog` executes the entries up to the greatest such index within the log, or none if it
  lies behind the commit length (`Sized.commitLog_eq`).  `commitLogObserved` is `CommitLog` with the
  arguments of its calls of `ExecuteLog` written down.

`commit_majority` puts this together.
-/

namespace LaptopRaft

namespace ServerMetadata

variable {md md' : ServerMetadata} {ack ack' : List ℤ} {i j k m : ℤ}

/-! ## Majorities -/

lemma countP_le_of_forall₂ (h : List.Forall₂ (· ≤ ·) ack ack') (k : ℤ) :
    ack.countP (fun a => k ≤ a) ≤ ack'.countP (fun a => k ≤ a) := by
  induction h with
  | nil => exact le_rfl
  | @cons a b _ _ hle _ ih =>
      rw [List.countP_cons, List.countP_cons]
      by_cases ha : k ≤ a
      · simp only [ha, ha.trans hle, decide_true, if_true]
        omega
      · simp only [ha, decide_false]
        exact ih.trans (Nat.le_add_right _ _)

/-- Raising slots keeps a majority. -/
lemma Majority.mono (h : Majority ack k) (hraise : List.Forall₂ (· ≤ ·) ack ack') :
    Majority ack' k := by
  have hcount := countP_le_of_forall₂ hraise k
  have hlen := hraise.length_eq
  unfold Majority at h ⊢
  omega

/-- With one slot lowered, the array lies below what it was. -/
lemma forall₂_set_le {n : ℕ} {x : ℤ} (hx : ∀ a, ack[n]? = some a → x ≤ a) :
    List.Forall₂ (· ≤ ·) (ack.set n x) ack := by
  refine List.forall₂_iff_get.2 ⟨List.length_set, fun j hj hj' => ?_⟩
  rw [List.get_eq_getElem, List.get_eq_getElem, List.getElem_set]
  split
  · rename_i heq
    subst heq
    exact hx _ (List.getElem?_eq_getElem hj')
  · exact le_rfl

/-- There is a greatest index up to `size` that a majority reaches. -/
lemma exists_isGreatest_majority (hne : ack ≠ []) (size : ℤ) :
    ∃ m, IsGreatest {k | k ≤ size ∧ Majority ack k} m := by
  obtain ⟨low, hlow⟩ := ack.finite_toSet.exists_ge
  have hall : Majority ack (min low size) := by
    have hcount : ack.countP (fun a => min low size ≤ a) = ack.length := by
      refine List.countP_eq_length.2 fun a ha => ?_
      rw [decide_eq_true_eq]
      exact (min_le_left _ _).trans (hlow a ha)
    have hpos := List.length_pos_iff.2 hne
    rw [Majority, hcount]
    omega
  obtain ⟨m, hm, hmax⟩ := Int.exists_greatest_of_bdd (P := fun k => k ≤ size ∧ Majority ack k)
    ⟨size, fun k hk => hk.1⟩ ⟨min low size, min_le_right _ _, hall⟩
  exact ⟨m, hm, fun k hk => hmax k hk⟩

/-! ## Executing up to an index -/

/-- The record after some entries have been executed in order. -/
def execute (record : ℤ → Option ℤ) (ops : List MapOp) : ℤ → Option ℤ :=
  ops.foldl (fun record op => Function.update record op.arg1 (some op.arg2)) record

/-- The entries from the commit length up to `k` are executed. -/
def executeTo (md : ServerMetadata) (k : ℤ) : ServerMetadata :=
  { md with
    commitLength := k
    customerRecord := execute md.customerRecord
      ((md.smrLog.take k.toNat).drop md.commitLength.toNat) }

lemma executeTo_self (md : ServerMetadata) : md.executeTo md.commitLength = md := by
  have hnone : (md.smrLog.take md.commitLength.toNat).drop md.commitLength.toNat = [] :=
    List.drop_eq_nil_of_le (List.length_take_le _ _)
  unfold executeTo
  rw [hnone]
  rfl

lemma Sized.executeTo (h : Sized md) (hge : md.commitLength ≤ k) (hle : k ≤ md.logSize) :
    Sized (md.executeTo k) :=
  ⟨h.logSize, h.commit_nonneg.trans hge, hle⟩

/-- The entries may be executed in two parts. -/
lemma executeTo_executeTo (hij : md.commitLength ≤ j) (hjk : j ≤ k) :
    (md.executeTo j).executeTo k = md.executeTo k := by
  have hsplit : k.toNat - md.commitLength.toNat =
      (j.toNat - md.commitLength.toNat) + (k.toNat - j.toNat) := by omega
  have hreach : md.commitLength.toNat + (j.toNat - md.commitLength.toNat) = j.toNat := by omega
  have hparts : (md.smrLog.take k.toNat).drop md.commitLength.toNat =
      (md.smrLog.take j.toNat).drop md.commitLength.toNat ++
        (md.smrLog.take k.toNat).drop j.toNat := by
    rw [List.drop_take, List.drop_take, List.drop_take, hsplit, List.take_add, List.drop_drop,
      hreach]
  simp only [executeTo, execute, hparts, List.foldl_append]

/-- `ExecuteLog` of the next entry. -/
lemma Sized.executeLog_eq (h : Sized md) (hlt : md.commitLength < md.logSize) :
    md.executeLog md.commitLength = some (md.executeTo (md.commitLength + 1)) := by
  have hnonneg := h.commit_nonneg
  have hsize := h.logSize
  have hin : md.commitLength.toNat < md.smrLog.length := by omega
  have hnext : (md.commitLength + 1).toNat = md.commitLength.toNat + 1 := by omega
  have hone : (md.smrLog.take (md.commitLength + 1).toNat).drop md.commitLength.toNat =
      [md.smrLog[md.commitLength.toNat]] := by
    rw [hnext, List.drop_take, Nat.add_sub_cancel_left, List.drop_eq_getElem_cons hin,
      List.take_succ_cons, List.take_zero]
  rw [executeLog, getOp, if_neg (by omega), List.getElem?_eq_getElem hin, Option.map_some,
    ServerMetadata.executeTo, hone]
  rfl

/-! ## `CommitLog` -/

/-- The loop of `CommitLog` that executes. -/
lemma Sized.executeLoop_eq (h : Sized md) (hge : md.commitLength ≤ k) (hle : k ≤ md.logSize) :
    (List.range (k - md.commitLength).toNat).foldlM
      (fun (m : ServerMetadata) (n : ℕ) => m.executeLog (md.commitLength + n)) md =
      some (md.executeTo k) := by
  obtain ⟨m, hm, rfl⟩ : ∃ m, (List.range (k - md.commitLength).toNat).foldlM
      (fun (m : ServerMetadata) (n : ℕ) => m.executeLog (md.commitLength + n)) md = some m ∧
      m = md.executeTo (md.commitLength + (k - md.commitLength).toNat) := by
    refine foldlM_range_total (I := fun n m => m = md.executeTo (md.commitLength + (n : ℕ)))
      ?_ ?_
    · simpa using (executeTo_self md).symm
    · rintro n hn m rfl
      have hsized : Sized (md.executeTo (md.commitLength + n)) :=
        h.executeTo (by omega) (by omega)
      have hlt : md.commitLength + n < md.logSize := by omega
      have hnext : md.commitLength + n ≤ md.commitLength + (n + 1 : ℕ) := by omega
      refine ⟨_, hsized.executeLog_eq hlt, ?_⟩
      rw [← executeTo_executeTo (by omega) hnext, Int.natCast_succ, ← Int.add_assoc]
      rfl
  have hreach : md.commitLength + (k - md.commitLength).toNat = k := by omega
  rw [hm, hreach]

/-- `CommitLog` goes to the greatest index that a majority reaches, unless that lies behind. -/
theorem Sized.commitLog_eq (h : Sized md) (hack : md.ackLength = some ack)
    (hlen : ack.length = md.getPeerSize + 1)
    (hm : IsGreatest {k | k ≤ md.logSize ∧ Majority ack k} m) :
    md.commitLog = some (md.executeTo (max md.commitLength m)) := by
  obtain ⟨md', hcommit, -⟩ := h.commitLog_isSome hack hlen
  obtain ⟨found, hfound, -⟩ := Option.bind_eq_some_iff.1 hcommit
  obtain ⟨hwhere, hmax⟩ := commitUntil_spec hack hlen hfound
  have hnonneg := h.commit_nonneg
  obtain ⟨⟨hmle, hmmaj⟩, hgreatest⟩ := hm
  have hmfound : md.commitLength ≤ m → m ≤ found := fun hge => hmax m hge hmle hmmaj
  rw [commitLog, hfound, Option.bind_eq_bind, Option.bind_some]
  split
  · -- nothing is found above the commit length
    rename_i hzero
    have hbehind : m ≤ md.commitLength := by
      by_contra hlt
      have := hmfound (by omega)
      omega
    rw [max_eq_left hbehind, executeTo_self]
  · rename_i hne
    obtain ⟨hge, hle, hmaj⟩ := hwhere.resolve_left hne
    have hfoundm : found ≤ m := hgreatest ⟨hle, hmaj⟩
    have heq : max md.commitLength m = found := by omega
    dsimp only
    rw [h.executeLoop_eq hge hle, heq]
    rfl

/-- `CommitLog` goes to the end of the log where a majority is there. -/
lemma Sized.commitLog_end (h : Sized md) (hack : md.ackLength = some ack)
    (hlen : ack.length = md.getPeerSize + 1) (hmajority : Majority ack md.logSize)
    (hcommit : md.commitLog = some md') : md'.commitLength = md.logSize := by
  have hend : IsGreatest {k | k ≤ md.logSize ∧ Majority ack k} md.logSize :=
    ⟨⟨le_rfl, hmajority⟩, fun k hk => hk.1⟩
  rw [h.commitLog_eq hack hlen hend, max_eq_right h.commit_le, Option.some.injEq] at hcommit
  rw [← hcommit]
  rfl

/-- `CommitLog`, with the arguments of its calls of `ExecuteLog` written down in order. -/
def commitLogObserved (md : ServerMetadata) : Option (ServerMetadata × List ℤ) := do
  let found ← md.commitUntil
  if found = 0 then some (md, [])
  else
    let start := md.commitLength
    let p ← (List.range (found - start).toNat).foldlM
      (fun (p : ServerMetadata × List ℤ) (k : ℕ) => (p.1.executeLog (start + k)).map fun md =>
        (md, p.2 ++ [start + (k : ℤ)])) (md, [])
    some ({ p.1 with commitLength := found }, p.2)

/-- The indices from `i` up to but not including `k`. -/
def indices (i k : ℤ) : List ℤ := (List.range (k - i).toNat).map fun n : ℕ => i + n

/-- Writing them down changes nothing, and they are the indices that the commit length passes. -/
lemma commitLogObserved_eq (md : ServerMetadata) : md.commitLogObserved =
    md.commitLog.map fun md' => (md', indices md.commitLength md'.commitLength) := by
  unfold commitLogObserved commitLog
  cases md.commitUntil with
  | none => rfl
  | some found =>
      simp only [Option.bind_eq_bind, Option.bind_some]
      split
      · have hnone : indices md.commitLength md.commitLength = [] := by simp [indices]
        rw [Option.map_some, hnone]
      · rw [foldlM_observed
          (f := fun (m : ServerMetadata) (n : ℕ) => m.executeLog (md.commitLength + n))
          (g := fun n : ℕ => md.commitLength + (n : ℤ))]
        cases (List.range (found - md.commitLength).toNat).foldlM
          (fun (m : ServerMetadata) (n : ℕ) => m.executeLog (md.commitLength + n)) md with
        | none => rfl
        | some md₁ => rfl

/-- What `CommitLog` does where a majority of the slots reaches `m` and no further. -/
structure CommitsMajority (md : ServerMetadata) (ack : List ℤ) (m : ℤ) : Prop where
  greatest : IsGreatest {k | k ≤ md.logSize ∧ Majority ack k} m
  commits : md.commitLog = some (md.executeTo (max md.commitLength m))
  executes : md.commitLogObserved =
    some (md.executeTo (max md.commitLength m), indices md.commitLength (max md.commitLength m))
  again : (md.executeTo (max md.commitLength m)).commitLog =
    some (md.executeTo (max md.commitLength m))
  raised : ∀ ack', List.Forall₂ (· ≤ ·) ack ack' →
    ∃ md', { md with ackLength := some ack' }.commitLog = some md' ∧
      max md.commitLength m ≤ md'.commitLength

/-- **`CommitLog` computes the majority index.** -/
theorem commit_majority (h : Sized md) (hack : md.ackLength = some ack)
    (hlen : ack.length = md.getPeerSize + 1) : ∃ m, CommitsMajority md ack m := by
  have hne : ack ≠ [] := List.length_pos_iff.1 (by omega)
  obtain ⟨m, hm⟩ := exists_isGreatest_majority hne md.logSize
  have hcommits := h.commitLog_eq hack hlen hm
  refine ⟨m, hm, hcommits, ?_, ?_, fun ack' hraise => ?_⟩
  · rw [commitLogObserved_eq, hcommits]
    rfl
  · have hsized : Sized (md.executeTo (max md.commitLength m)) :=
      h.executeTo (le_max_left _ _) (max_le h.commit_le hm.1.1)
    have hsame : max (md.executeTo (max md.commitLength m)).commitLength m =
        (md.executeTo (max md.commitLength m)).commitLength := max_eq_left (le_max_right _ _)
    have hack' : (md.executeTo (max md.commitLength m)).ackLength = some ack := hack
    rw [hsized.commitLog_eq hack' hlen hm, hsame, executeTo_self]
  · have hlen' : ack'.length = md.getPeerSize + 1 := hraise.length_eq.symm.trans hlen
    have hsized : Sized { md with ackLength := some ack' } := h.of_same rfl rfl rfl
    have hne' : ack' ≠ [] := List.length_pos_iff.1 (by omega)
    obtain ⟨m', hm'⟩ := exists_isGreatest_majority hne' md.logSize
    refine ⟨_, hsized.commitLog_eq rfl hlen' hm', ?_⟩
    -- the old majority is one of the new array as well
    exact max_le_max le_rfl (hm'.2 ⟨hm.1.1, hm.1.2.mono hraise⟩)

/-- Three servers, two of which have acknowledged the first of two entries. -/
theorem commit_majority_three : ∃ m, CommitsMajority
    { smrLog := [⟨1, 7, 1⟩, ⟨1, 8, 1⟩], logSize := 2, ackLength := some [1, 0, 2],
      neighbors := [⟨0, 1, "", 0⟩, ⟨1, 2, "", 0⟩] } [1, 0, 2] m :=
  commit_majority ⟨rfl, by decide, by decide⟩ rfl rfl

end ServerMetadata

end LaptopRaft
