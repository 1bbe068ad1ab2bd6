/-
Module: MongoHa.Proofs.SplitBrainFence
Layer: Proofs
Purpose: What a 200 on `/role` says about the rest of the set. Two views that are at most one member
  change apart and share no reachable host never both pass the fence (`split_brain_fence`). The fence
  counts members, not votes: `fence_covers_voters_iff` tells for which rosters every view that passes it
  also reaches a majority of the voting members.
Imports: Mathlib.Data.List.FinRange, Mathlib.Data.Fintype.Card, MongoHa.Wrapper.HealthServer
Trusted boundary: none (fully proved)
Main exports: split_brain_fence, Roster, Roster.view, fence_covers_voters_iff,
  fence_without_electable_majority
Open obligations: none
-/
import Mathlib.Data.List.FinRange
import Mathlib.Data.Fintype.Card
import MongoHa.Wrapper.HealthServer

namespace MongoHa

open Foundations.Majority

/-! ### Two sides of a partition -/

/-- Views with distinct hosts, whose host sets are equal or one member apart and whose reachable hosts
    are disjoint, do not both pass the fence: `/role` answers 200 on at most one side. -/
theorem split_brain_fence {left right : List RsMember}
    (leftDistinct : (left.map RsMember.host).Nodup) (rightDistinct : (right.map RsMember.host).Nodup)
    (adjacent : Adjacent (memberHosts left) (memberHosts right))
    (apart : Disjoint (reachableHosts left) (reachableHosts right)) :
    ¬ (hasMajority left = true ∧ hasMajority right = true) ∧
      ∀ leftReads rightReads leftVoting rightVoting, RoleReads.Shows leftReads left leftVoting →
        RoleReads.Shows rightReads right rightVoting →
        ¬ ((role false leftReads).status = StatusCode.ok ∧
          (role false rightReads).status = StatusCode.ok) := by
  have fenced : ¬ (hasMajority left = true ∧ hasMajority right = true) := by
    rw [hasMajority_iff_isMajority leftDistinct, hasMajority_iff_isMajority rightDistinct]
    exact adjacent.not_both_majorities (reachableHosts_subset left) (reachableHosts_subset right) apart
  refine ⟨fenced, ?_⟩
  intro leftReads rightReads leftVoting rightVoting leftShows rightShows bothOk
  apply fenced
  constructor
  · exact hasMajority_of_role_ok leftShows bothOk.1
  · exact hasMajority_of_role_ok rightShows bothOk.2

/-- Three members, the third cut off: only the side of the first two passes. -/
theorem split_brain_fence_three :
    let row (id : Int) (host : String) (state : Int) (stateStr : String) (healthy isSelf : Bool) :
        RsMember :=
      { id := id, host := host, state := state, stateStr := stateStr, healthy := healthy,
        isSelf := isSelf, optimeSecs := none }
    let gone (id : Int) (host : String) := row id host 8 "(not reachable/healthy)" false false
    let left := [row 0 "a" 1 "PRIMARY" true true, row 1 "b" 2 "SECONDARY" true false, gone 2 "c"]
    let right := [gone 0 "a", gone 1 "b", row 2 "c" 2 "SECONDARY" true true]
    hasMajority left = true ∧ ¬ (hasMajority left = true ∧ hasMajority right = true) := by
  intro row gone left right
  have adjacent : Adjacent (memberHosts left) (memberHosts right) := Or.inl (by decide)
  exact ⟨by decide, (split_brain_fence (by decide) (by decide) adjacent (by decide)).1⟩

/-! ### Members and votes -/

/-- The members of a set in config order and which of them vote right now. -/
structure Roster (n : Nat) where
  member : Fin n → RsMember
  votes : Fin n → Bool

namespace Roster

variable {n : Nat} (roster : Roster n)

/-- The member view of a node that hears from the given members. -/
def view (health : Fin n → Bool) : List RsMember :=
  List.ofFn fun i => { roster.member i with healthy := health i }

def voters : Finset (Fin n) :=
  Finset.univ.filter fun i => roster.votes i = true

/-- The rows that are the node itself. -/
def own : Finset (Fin n) :=
  Finset.univ.filter fun i => (roster.member i).isSelf = true

/-- The rows such a view counts as reachable. -/
def reached (health : Fin n → Bool) : Finset (Fin n) :=
  Finset.univ.filter fun i => (health i || (roster.member i).isSelf) = true

theorem countP_ofFn {α : Type*} (rows : Fin n → α) (p : α → Bool) :
    (List.ofFn rows).countP p = (Finset.univ.filter fun i => p (rows i) = true).card := by
  have distinct : ((List.finRange n).filter (p ∘ rows)).Nodup :=
    (List.nodup_finRange n).filter _
  rw [List.ofFn_eq_map, List.countP_map, List.countP_eq_length_filter,
    ← List.toFinset_card_of_nodup distinct, List.toFinset_filter, List.toFinset_finRange]
  rfl

theorem hasMajority_view (health : Fin n → Bool) :
    hasMajority (roster.view health) = true ↔ IsMajority (roster.reached health) Finset.univ := by
  rw [hasMajority_iff, IsMajority, view, countP_ofFn, List.length_ofFn, Finset.card_univ,
    Fintype.card_fin]
  rfl

theorem own_subset_reached (health : Fin n → Bool) : roster.own ⊆ roster.reached health := by
  intro i member
  simp only [own, reached, Finset.mem_filter, Finset.mem_univ, true_and] at member ⊢
  rw [member, Bool.or_true]

/-- Every set of rows that contains the node's own is reached under some health. -/
theorem reached_of_own_subset {part : Finset (Fin n)} (own : roster.own ⊆ part) :
    roster.reached (fun i => decide (i ∈ part)) = part := by
  ext i
  simp only [reached, Finset.mem_filter, Finset.mem_univ, true_and, Bool.or_eq_true,
    decide_eq_true_eq]
  constructor
  · intro counted
    rcases counted with inside | self
    · exact inside
    · exact own (by simpa [Roster.own] using self)
  · exact Or.inl

end Roster

/-- The rosters on which every 200, whatever the reachability, means a reachable majority of the voting
    members: all members vote, or one of an even number does not, or the node's own vote is already a
    majority of the votes. -/
theorem fence_covers_voters_iff {n : Nat} (roster : Roster n) :
    (∀ health reads, RoleReads.Shows reads (roster.view health) (some roster.voters.card) →
        (role false reads).status = StatusCode.ok →
        roster.voters.card < 2 * (roster.reached health ∩ roster.voters).card) ↔
      (Finset.univ \ roster.voters).card = 0 ∨
        ((Finset.univ \ roster.voters).card = 1 ∧ Even n) ∨
        roster.voters.card < 2 * (roster.own ∩ roster.voters).card := by
  have transfer := majority_transfers_iff (Finset.subset_univ roster.voters)
    (Finset.subset_univ roster.own)
  rw [Finset.card_univ, Fintype.card_fin] at transfer
  refine Iff.trans ?_ transfer
  constructor
  · intro covers part own inside majority
    have reached := roster.reached_of_own_subset own
    rw [← reached] at majority ⊢
    let reads : RoleReads :=
      { ping := .ok ()
        hello := .ok { isWritablePrimary := true }
        status := .ok (.active "rs0" States.primary "PRIMARY"
          (roster.view fun i => decide (i ∈ part)) (some roster.voters.card)) }
    have shows_ : reads.Shows (roster.view fun i => decide (i ∈ part)) (some roster.voters.card) :=
      ⟨_, _, _, rfl⟩
    apply covers _ reads shows_
    rw [role_ok_iff]
    exact ⟨⟨_, rfl, rfl⟩, _, _, shows_, (roster.hasMajority_view _).2 majority⟩
  · intro covers health reads shows_ ok
    apply covers _ (roster.own_subset_reached health) (Finset.subset_univ _)
    rw [← roster.hasMajority_view]
    exact hasMajority_of_role_ok shows_ ok

/-- Three voters and two members that still sync: the node reaches the two new ones and no other voter,
    and answers 200. -/
theorem fence_without_electable_majority :
    let roster : Roster 5 :=
      { member := fun i =>
          let (state, stateStr) : Int × String :=
            if i = 0 then (1, "PRIMARY")
            else if i < 3 then (8, "(not reachable/healthy)")
            else (5, "STARTUP2")
          { id := i, host := toString i, state := state, stateStr := stateStr, healthy := true,
            isSelf := i == 0, optimeSecs := none }
        votes := fun i => i < 3 }
    let health : Fin 5 → Bool := fun i => 3 ≤ i
    let reads : RoleReads :=
      { ping := .ok ()
        hello := .ok { isWritablePrimary := true }
        status := .ok (.active "rs0" 1 "PRIMARY" (roster.view health) (some 3)) }
    (role false reads).status = StatusCode.ok ∧ roster.voters.card = 3 ∧
      ¬ roster.voters.card < 2 * (roster.reached health ∩ roster.voters).card := by
  decide

end MongoHa
