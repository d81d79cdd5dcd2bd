import LaptopRaft.Replication.Acks
import Mathlib.Algebra.Group.Nat.Even

/-!
# The two quorum tests

`WonElection` asks for `votes * 2 >= peers`, `CommitLog` for `count * 2 > peers + 1`.  In a
cluster of `n = peers + 1` servers the first is met by every set of `n / 2` servers, and by
`(n - 1) / 2` of them when `n` is odd; the second by strict majorities only.

* Two sets of voters may be the two halves of a cluster, from four servers on
  (`votesMeetVotes_iff`).
* Voters and acknowledging servers may split a cluster of odd size, from five servers on
  (`votesMeetAcks_iff`).

So quorums intersect in clusters of up to three servers and in no others
(`quorumsIntersect_iff`).
-/

namespace LaptopRaft

open ServerMetadata

/-- `WonElection` is true of a candidate of the cluster that has received the votes `V`, its own
and another server's among them. -/
def Elects (cfg : Config) (V : Finset ℤ) : Prop :=
  V ⊆ cfg.ids ∧ ∃ s ∈ V, (∃ v ∈ V, v ≠ s) ∧ ∃ md : ServerMetadata,
    md.neighbors = cfg.peers s ∧ md.voteReceived = V ∧ md.wonElection = true

/-- `A` are the servers whose `ack_length` values make `CommitLog`, run by a server of the cluster,
count an index from `commit_length` to `log_size` as acknowledged by the majority. -/
def Acknowledges (cfg : Config) (A : Finset ℤ) : Prop :=
  ∃ s ∈ cfg.ids, ∃ (md : ServerMetadata) (ack : List ℤ) (i : ℤ) (count : ℕ),
    md.neighbors = cfg.peers s ∧ md.ackLength = some ack ∧
    ack.length = (cfg.slots s).length ∧ md.commitLength ≤ i ∧ i ≤ md.logSize ∧
    md.countAcks i = some count ∧ md.getPeerSize + 1 < count * 2 ∧
    ∀ q, q ∈ A ↔ ∃ (j : ℕ) (a : ℤ), (cfg.slots s)[j]? = some q ∧ ack[j]? = some a ∧ i ≤ a

def VotesMeetVotes (cfg : Config) : Prop :=
  ∀ V W, Elects cfg V → Elects cfg W → (V ∩ W).Nonempty

def VotesMeetAcks (cfg : Config) : Prop :=
  ∀ V A, Elects cfg V → Acknowledges cfg A → (V ∩ A).Nonempty

/-- Every set that elects meets every other such set and every set that acknowledges. -/
def QuorumsIntersect (cfg : Config) : Prop := VotesMeetVotes cfg ∧ VotesMeetAcks cfg

/-! ## The sizes of the sets -/

section Sizes

variable {cfg : Config} {V A : Finset ℤ} {s : ℤ}

lemma Elects.card (h : Elects cfg V) : 2 ≤ V.card ∧ cfg.ids.card ≤ 2 * V.card + 1 := by
  obtain ⟨hsub, s, hs, ⟨v, hv, hne⟩, md, hpeers, hvotes, hwon⟩ := h
  have htwo : 1 < V.card := Finset.one_lt_card.2 ⟨v, hv, s, hs, hne⟩
  have hwon' : md.getPeerSize ≤ md.voteReceived.card * 2 := of_decide_eq_true hwon
  rw [getPeerSize, hpeers, hvotes] at hwon'
  have hcard := cfg.card_ids (hsub hs)
  constructor
  · exact htwo
  · omega

/-- Only the number of the votes matters. -/
lemma elects_of_card (hsub : V ⊆ cfg.ids) (htwo : 2 ≤ V.card)
    (hcard : cfg.ids.card ≤ 2 * V.card + 1) : Elects cfg V := by
  obtain ⟨s, hs, v, hv, hne⟩ := Finset.one_lt_card.1 htwo
  refine ⟨hsub, s, hs, ⟨v, hv, hne.symm⟩,
    { neighbors := cfg.peers s, voteReceived := V }, rfl, rfl, ?_⟩
  have hids := cfg.card_ids (hsub hs)
  apply decide_eq_true
  show (cfg.peers s).length ≤ V.card * 2
  omega

lemma Acknowledges.card (h : Acknowledges cfg A) :
    A ⊆ cfg.ids ∧ cfg.ids.card < 2 * A.card := by
  obtain ⟨s, hs, md, ack, i, count, hpeers, hack, hlen, -, -, hcount, hmajority, hA⟩ := h
  have hsize : ack.length = md.getPeerSize + 1 := by
    rw [hlen, Config.slots_length, getPeerSize, hpeers]
  rw [countAcks_eq hack hsize hcount, ← hsize] at hmajority
  obtain ⟨Q, hQ, hslots⟩ := HasQuorum.of_slots (Config.slots_nodup hs) (Config.slots_toFinset hs)
    hlen hmajority
  have hQA : Q ⊆ A := by
    intro q hq
    obtain ⟨j, a, hj, ha, hreaches⟩ := hslots q hq
    exact (hA q).2 ⟨j, a, hj, ha, of_decide_eq_true hreaches⟩
  constructor
  · intro q hq
    obtain ⟨j, a, hj, -, -⟩ := (hA q).1 hq
    rw [← Config.slots_toFinset hs, List.mem_toFinset]
    exact List.mem_of_getElem? hj
  · have hle := Finset.card_le_card hQA
    have hmaj := hQ.majority
    omega

/-- Every strict majority acknowledges an index: its slots have the value `1`, the others `0`. -/
lemma acknowledges_of_card (hsub : A ⊆ cfg.ids) (hcard : cfg.ids.card < 2 * A.card) :
    Acknowledges cfg A := by
  have hpos : 0 < A.card := by omega
  obtain ⟨s, hsA⟩ := Finset.card_pos.1 hpos
  have hs := hsub hsA
  have hids := cfg.card_ids hs
  let ack : List ℤ := (cfg.slots s).map fun q => if q ∈ A then 1 else 0
  let md : ServerMetadata :=
    { neighbors := cfg.peers s, ackLength := some ack, logSize := 1, smrLog := [⟨0, 0, 0⟩] }
  have hlen : ack.length = (cfg.slots s).length := List.length_map _
  have hsize : ack.length = md.getPeerSize + 1 := by rw [hlen, Config.slots_length]; rfl
  have hcountA : (ack.countP fun a => (1 : ℤ) ≤ a) = A.card := by
    have hmarked : (cfg.slots s).countP (fun q => decide (q ∈ A)) = A.card := by
      rw [List.countP_eq_length_filter, ← List.toFinset_card_of_nodup
        ((Config.slots_nodup hs).filter _), List.toFinset_filter, Config.slots_toFinset hs]
      congr 1
      ext q
      simpa using @hsub q
    rw [List.countP_map, ← hmarked]
    apply List.countP_congr
    intro q _
    by_cases hq : q ∈ A <;> simp [hq]
  have hack : md.ackLength = some ack := rfl
  obtain ⟨count, hcount⟩ := countAcks_isSome hack hsize 1
  have hequal : count = A.card := (countAcks_eq hack hsize hcount).trans hcountA
  refine ⟨s, hs, md, ack, 1, count, rfl, rfl, hlen, zero_le_one, le_refl _, hcount, ?_,
    fun q => ?_⟩
  · show (cfg.peers s).length + 1 < count * 2
    omega
  · constructor
    · intro hq
      have hmem : q ∈ cfg.slots s := by
        rw [← List.mem_toFinset, Config.slots_toFinset hs]
        exact hsub hq
      obtain ⟨j, hj⟩ := List.mem_iff_getElem?.1 hmem
      exact ⟨j, 1, hj, by simp [ack, hj, hq], le_refl _⟩
    · rintro ⟨j, a, hj, ha, hreaches⟩
      by_contra hq
      simp only [ack, List.getElem?_map, hj, Option.map_some, hq, if_false,
        Option.some.injEq] at ha
      omega

end Sizes

/-! ## When the sets meet -/

section Meeting

variable (cfg : Config)

/-- **Votes against votes.** -/
theorem votesMeetVotes_iff : VotesMeetVotes cfg ↔ cfg.ids.card ≤ 3 := by
  constructor
  · intro hmeet
    by_contra hlarge
    have hfit : cfg.ids.card / 2 + cfg.ids.card / 2 ≤ cfg.ids.card := by omega
    obtain ⟨V, W, hV, hW, hdisjoint, hVcard, hWcard⟩ := exists_disjoint_subsets hfit
    obtain ⟨x, hx⟩ := hmeet V W (elects_of_card hV (by omega) (by omega))
      (elects_of_card hW (by omega) (by omega))
    rw [Finset.disjoint_iff_inter_eq_empty.1 hdisjoint] at hx
    exact absurd hx (Finset.notMem_empty x)
  · intro hsmall V W hV hW
    apply Finset.inter_nonempty_of_card_lt_card_add_card hV.1 hW.1
    have hVcard := hV.card.1
    have hWcard := hW.card.1
    omega

/-- **Votes against acknowledgements.** -/
theorem votesMeetAcks_iff : VotesMeetAcks cfg ↔ cfg.ids.card ≤ 3 ∨ Even cfg.ids.card := by
  constructor
  · intro hmeet
    by_contra hodd
    rw [not_or, not_le, Nat.not_even_iff] at hodd
    have hfit : cfg.ids.card / 2 + (cfg.ids.card / 2 + 1) ≤ cfg.ids.card := by omega
    obtain ⟨V, A, hV, hA, hdisjoint, hVcard, hAcard⟩ := exists_disjoint_subsets hfit
    obtain ⟨x, hx⟩ := hmeet V A (elects_of_card hV (by omega) (by omega))
      (acknowledges_of_card hA (by omega))
    rw [Finset.disjoint_iff_inter_eq_empty.1 hdisjoint] at hx
    exact absurd hx (Finset.notMem_empty x)
  · intro hsize V A hV hA
    apply Finset.inter_nonempty_of_card_lt_card_add_card hV.1 hA.card.1
    have hVcard := hV.card
    have hAcard := hA.card.2
    rw [Nat.even_iff] at hsize
    omega

/-- **Quorums intersect** in clusters of up to three servers, and in no others. -/
theorem quorumsIntersect_iff : QuorumsIntersect cfg ↔ cfg.ids.card ≤ 3 := by
  rw [QuorumsIntersect, votesMeetVotes_iff, votesMeetAcks_iff]
  constructor
  · exact fun h => h.1
  · exact fun h => ⟨h, Or.inl h⟩

end Meeting

/-- In a cluster of four, servers 0 and 1 elect one of them, and servers 2 and 3 another. -/
theorem two_halves_elect : Elects four {0, 1} ∧ Elects four {2, 3} ∧
    ¬ QuorumsIntersect four := by
  have hfirst : Elects four {0, 1} := elects_of_card (by decide) (by decide) (by decide)
  have hsecond : Elects four {2, 3} := elects_of_card (by decide) (by decide) (by decide)
  refine ⟨hfirst, hsecond, fun hmeet => ?_⟩
  obtain ⟨x, hx⟩ := hmeet.1 _ _ hfirst hsecond
  revert hx
  simp

end LaptopRaft
