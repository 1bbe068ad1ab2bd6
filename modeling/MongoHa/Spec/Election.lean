/-
Module: MongoHa.Spec.Election
Layer: Spec
Purpose: What the initiate decision is for, without messages, rounds or time. Every node has a standing,
  and a node may claim the replica set only when no other standing precedes its own. Where standings are
  distinct, at most one node ever claims it, whatever the order of the steps.
Imports: Mathlib.Data.Prod.Lex, Mathlib.Data.Set.Subsingleton, MongoHa.Foundations.Machine
Trusted boundary: human-reviewed spec
Main exports: Standing, standing, election, election_least, election_subsingleton
Open obligations: none
-/
import Mathlib.Data.Prod.Lex
import Mathlib.Data.Set.Subsingleton
import MongoHa.Foundations.Machine

namespace MongoHa.Spec

open Foundations

/-- How a node ranks in the election: the smaller standing precedes. -/
abbrev Standing := Bool ×ₗ Nat

/-- User data first, the declared seed order second. -/
def standing (hasData : Bool) (rank : Nat) : Standing :=
  toLex (!hasData, rank)

theorem standing_lt_iff {hasData myHasData : Bool} {rank myRank : Nat} :
    standing hasData rank < standing myHasData myRank ↔
      (hasData = true ∧ myHasData = false) ∨ (hasData = myHasData ∧ rank < myRank) := by
  rw [standing, standing, Prod.Lex.toLex_lt_toLex]
  cases hasData <;> cases myHasData <;> simp

/-- A node without user data never precedes one with it. -/
theorem hasData_of_standing_le {hasData otherHasData : Bool} {rank otherRank : Nat}
    (precedes : standing hasData rank ≤ standing otherHasData otherRank)
    (other : otherHasData = true) : hasData = true := by
  by_contra absent
  have without : hasData = false := by simpa using absent
  have follows : standing otherHasData otherRank < standing hasData rank :=
    standing_lt_iff.2 (Or.inl ⟨other, without⟩)
  exact absurd precedes (not_le_of_gt follows)

theorem rank_of_standing_eq {hasData otherHasData : Bool} {rank otherRank : Nat}
    (same : standing hasData rank = standing otherHasData otherRank) : rank = otherRank :=
  congrArg Prod.snd (toLex.injective same)

section Election

variable {ν κ : Type*} [LinearOrder κ] (place : ν → κ)

/-- The set of nodes that claimed the replica set, and the only way it grows. -/
def election : System (Set ν) where
  init claimed := claimed = ∅
  step before after := ∃ n, (∀ m, place n ≤ place m) ∧ after = insert n before

variable {place} {claimed : Set ν}

/-- Who claims has the least place. -/
theorem election_least (reached : (election place).Reachable claimed) :
    ∀ n ∈ claimed, ∀ m, place n ≤ place m := by
  induction reached with
  | init start =>
      intro n member
      rw [show _ = ∅ from start] at member
      exact absurd member (Set.notMem_empty n)
  | step _ move ih =>
      obtain ⟨winner, least, rfl⟩ := move
      intro n member
      rcases member with rfl | earlier
      · exact least
      · exact ih n earlier

/-- Distinct places leave one claimant at most. -/
theorem election_subsingleton (distinct : Function.Injective place)
    (reached : (election place).Reachable claimed) : claimed.Subsingleton := by
  intro n claimedByN m claimedByM
  apply distinct
  apply le_antisymm
  · exact election_least reached n claimedByN m
  · exact election_least reached m claimedByM n

end Election

end MongoHa.Spec
