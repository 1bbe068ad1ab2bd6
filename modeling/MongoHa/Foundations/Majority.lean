/-
Module: MongoHa.Foundations.Majority
Layer: Foundations
Purpose: Counting facts about strict majorities of finite sets. Two disjoint majorities cannot exist in
  equal sets nor in two sets one element apart (`Adjacent.not_both_majorities`). A second question is
  when a majority of a whole set forces a majority of a chosen part of it, whichever majority is taken:
  `majority_transfers_iff` answers it exactly in terms of the three cardinalities involved.
Imports: Mathlib.Data.Finset.Card, Mathlib.Algebra.Group.Nat.Even
Trusted boundary: none (fully proved)
Main exports: IsMajority, Adjacent, Adjacent.not_both_majorities, majority_transfers_iff
Open obligations: none
-/
import Mathlib.Data.Finset.Card
import Mathlib.Algebra.Group.Nat.Even

namespace Foundations.Majority

variable {α : Type*}

/-- `part` holds more than half of `whole`. -/
def IsMajority (part whole : Finset α) : Prop :=
  whole.card < 2 * part.card

instance (part whole : Finset α) : Decidable (IsMajority part whole) :=
  inferInstanceAs (Decidable (whole.card < 2 * part.card))

variable [DecidableEq α]

/-- Two sets that are equal or differ by exactly one element, on either side. -/
def Adjacent (left right : Finset α) : Prop :=
  left = right ∨ (∃ a ∉ left, right = insert a left) ∨ (∃ a ∉ right, left = insert a right)

theorem Adjacent.card_union_le {left right : Finset α} (adjacent : Adjacent left right) :
    2 * (left ∪ right).card ≤ left.card + right.card + 1 := by
  rcases adjacent with rfl | ⟨a, fresh, rfl⟩ | ⟨a, fresh, rfl⟩
  · rw [Finset.union_self]
    omega
  · have card := Finset.card_insert_of_notMem fresh
    rw [Finset.union_eq_right.2 (Finset.subset_insert a left)]
    omega
  · have card := Finset.card_insert_of_notMem fresh
    rw [Finset.union_eq_left.2 (Finset.subset_insert a right)]
    omega

/-- Disjoint parts of two adjacent sets are not both majorities. -/
theorem Adjacent.not_both_majorities {left right leftPart rightPart : Finset α}
    (adjacent : Adjacent left right) (leftSub : leftPart ⊆ left) (rightSub : rightPart ⊆ right)
    (apart : Disjoint leftPart rightPart) :
    ¬ (IsMajority leftPart left ∧ IsMajority rightPart right) := by
  rintro ⟨leftMajority, rightMajority⟩
  have fits : leftPart.card + rightPart.card ≤ (left ∪ right).card := by
    rw [← Finset.card_union_of_disjoint apart]
    exact Finset.card_le_card (Finset.union_subset_union leftSub rightSub)
  have average := adjacent.card_union_le
  unfold IsMajority at leftMajority rightMajority
  omega

/-- The part of `part` inside `voters` is the rest of it after the outsiders. -/
theorem card_inter_add_card_sdiff_le {part whole : Finset α} (voters : Finset α)
    (inside : part ⊆ whole) :
    part.card ≤ (part ∩ voters).card + (whole \ voters).card := by
  rw [← Finset.card_inter_add_card_sdiff part voters]
  exact Nat.add_le_add_left (Finset.card_le_card (Finset.sdiff_subset_sdiff inside le_rfl)) _

/-- Every majority of `whole` that contains `fixed` is also a majority of `voters`, exactly when all of
    `whole` votes, or a single element of an even-sized `whole` does not, or the fixed voters alone are a
    majority of the voters. -/
theorem majority_transfers_iff {whole voters fixed : Finset α}
    (votersSub : voters ⊆ whole) (fixedSub : fixed ⊆ whole) :
    (∀ part, fixed ⊆ part → part ⊆ whole → IsMajority part whole →
        IsMajority (part ∩ voters) voters) ↔
      (whole \ voters).card = 0 ∨ ((whole \ voters).card = 1 ∧ Even whole.card) ∨
        IsMajority (fixed ∩ voters) voters := by
  have total : voters.card + (whole \ voters).card = whole.card := by
    rw [Nat.add_comm]
    exact Finset.card_sdiff_add_card_eq_card votersSub
  unfold IsMajority
  constructor
  · intro transfers
    by_contra! fails
    obtain ⟨someOutside, notOneEven, fixedMinority⟩ := fails
    -- The smallest voting share a majority can have: the fixed voters, topped up until every outsider
    -- together with it passes half of the whole.
    let share := max (fixed ∩ voters).card (whole.card / 2 + 1 - (whole \ voters).card)
    have small : 2 * share ≤ voters.card := by
      have topped : 2 * (whole.card / 2 + 1 - (whole \ voters).card) ≤ voters.card := by
        rcases Nat.lt_or_ge 1 (whole \ voters).card with many | few
        · omega
        · have one : (whole \ voters).card = 1 := by omega
          have odd := Nat.not_even_iff.1 (notOneEven one)
          omega
      change 2 * max _ _ ≤ _
      omega
    obtain ⟨chosen, fixedChosen, chosenVotes, chosenCard⟩ :=
      Finset.exists_subsuperset_card_eq (s := fixed ∩ voters) (t := voters) (n := share)
        Finset.inter_subset_right (le_max_left _ _) (by omega)
    have apart : Disjoint chosen (whole \ voters) :=
      Finset.disjoint_of_subset_left chosenVotes Finset.disjoint_sdiff
    have votes : (chosen ∪ whole \ voters) ∩ voters = chosen := by
      rw [Finset.union_inter_distrib_right, Finset.inter_eq_left.2 chosenVotes,
        Finset.sdiff_inter_self, Finset.union_empty]
    have forced := transfers (chosen ∪ whole \ voters)
      (fun a member => by
        by_cases voter : a ∈ voters
        · exact Finset.mem_union_left _ (fixedChosen (Finset.mem_inter.2 ⟨member, voter⟩))
        · exact Finset.mem_union_right _ (Finset.mem_sdiff.2 ⟨fixedSub member, voter⟩))
      (Finset.union_subset (chosenVotes.trans votersSub) Finset.sdiff_subset)
      (by
        have enough : whole.card / 2 + 1 - (whole \ voters).card ≤ share := le_max_right _ _
        rw [Finset.card_union_of_disjoint apart, chosenCard]
        omega)
    rw [votes, chosenCard] at forced
    omega
  · intro condition part fixedIn inside majority
    have fits := card_inter_add_card_sdiff_le voters inside
    rcases condition with none | ⟨one, even⟩ | fixedMajority
    · omega
    · have parity := Nat.even_iff.1 even
      omega
    · have grows : (fixed ∩ voters).card ≤ (part ∩ voters).card :=
        Finset.card_le_card (Finset.inter_subset_inter fixedIn le_rfl)
      omega

end Foundations.Majority
