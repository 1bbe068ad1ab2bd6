/-
Module: MongoHa.Foundations.Slots
Layer: Foundations
Purpose: Jobs on a bounded number of slots, as behind a counting semaphore. A job that gives its slot back
  may be a slow one, which has held it for the delay at least; a slow job that ends after an instant, but
  within the delay, has held its slot at that instant. So no window of the delay sees more slow jobs end
  than there are slots, and no window of several delays more than that many times the slots.
Imports: Mathlib.Data.Finset.Card, MongoHa.Foundations.Machine
Trusted boundary: none (fully proved)
Main exports: Slots, SlotStep, Slots.system, Slots.endedIn, Slots.card_holders_le, Slots.endedIn_le,
  Slots.endedIn_windows_le
Open obligations: none
-/
import Mathlib.Data.Finset.Card
import MongoHa.Foundations.Machine

namespace Foundations

/-- The jobs that hold a slot, and when the slow ones gave theirs back. -/
structure Slots (ι : Type*) where
  now : Nat
  holders : Finset ι
  /-- When a job took its slot. -/
  since : ι → Nat
  slow : List Nat

section Slots

variable {ι : Type*} [DecidableEq ι] {limit delay : Nat} {s t : Slots ι}

def Slots.wait (s : Slots ι) (elapsed : Nat) : Slots ι := { s with now := s.now + elapsed }

def Slots.take (s : Slots ι) (i : ι) : Slots ι :=
  { s with holders := insert i s.holders, since := Function.update s.since i s.now }

def Slots.release (s : Slots ι) (i : ι) : Slots ι := { s with holders := s.holders.erase i }

def Slots.releaseSlow (s : Slots ι) (i : ι) : Slots ι :=
  { s.release i with slow := s.now :: s.slow }

/-- Time passes, a job takes a free slot, or one gives its slot back, slow or not. -/
inductive SlotStep (limit delay : Nat) (s : Slots ι) : Slots ι → Prop where
  | wait (elapsed : Nat) : SlotStep limit delay s (s.wait elapsed)
  | take {i : ι} (new : i ∉ s.holders) (free : s.holders.card < limit) :
      SlotStep limit delay s (s.take i)
  | release {i : ι} (holds : i ∈ s.holders) : SlotStep limit delay s (s.release i)
  | releaseSlow {i : ι} (holds : i ∈ s.holders) (held : s.since i + delay ≤ s.now) :
      SlotStep limit delay s (s.releaseSlow i)

/-- No job has a slot at first. -/
def Slots.system (limit delay : Nat) : System (Slots ι) where
  init s := s.holders = ∅ ∧ s.slow = []
  step := SlotStep limit delay

/-- The slow jobs that ended after an instant and by another one. -/
def Slots.endedIn (s : Slots ι) (after until_ : Nat) : Nat :=
  s.slow.countP fun instant => after < instant ∧ instant ≤ until_

/-- The jobs that hold a slot which they took by an instant. -/
def Slots.heldSince (s : Slots ι) (instant : Nat) : Finset ι :=
  s.holders.filter fun i => s.since i ≤ instant

/-- What held a slot at an instant of the past is still there or has ended since, the slow jobs within the
    delay. -/
structure Slots.Bounded (limit delay : Nat) (s : Slots ι) : Prop where
  card : s.holders.card ≤ limit
  since : ∀ i ∈ s.holders, s.since i ≤ s.now
  slow : ∀ instant ∈ s.slow, instant ≤ s.now
  window : ∀ instant ≤ s.now,
    (s.heldSince instant).card + s.endedIn instant (instant + delay) ≤ limit

omit [DecidableEq ι] in
/-- Nothing has ended after the present. -/
theorem Slots.Bounded.endedIn_eq_zero (bounded : s.Bounded limit delay) {instant until_ : Nat}
    (late : s.now ≤ instant) : s.endedIn instant until_ = 0 := by
  refine List.countP_eq_zero.2 fun ended member => ?_
  have past := bounded.slow ended member
  simp only [decide_eq_true_eq, not_and]
  omega

theorem Slots.endedIn_releaseSlow (s : Slots ι) (i : ι) (after until_ : Nat) :
    (s.releaseSlow i).endedIn after until_ =
      s.endedIn after until_ + if after < s.now ∧ s.now ≤ until_ then 1 else 0 := by
  simp [Slots.endedIn, Slots.releaseSlow, Slots.release, List.countP_cons]

omit [DecidableEq ι] in
theorem Slots.mem_heldSince {i : ι} {instant : Nat} :
    i ∈ s.heldSince instant ↔ i ∈ s.holders ∧ s.since i ≤ instant :=
  Finset.mem_filter

theorem Slots.heldSince_take_of_lt {i : ι} {instant : Nat} (new : i ∉ s.holders)
    (early : instant < s.now) : (s.take i).heldSince instant = s.heldSince instant := by
  ext j
  rw [Slots.mem_heldSince, Slots.mem_heldSince]
  by_cases same : j = i
  · subst same
    simp [Slots.take, new, Nat.not_le.2 early]
  · simp [Slots.take, same]

theorem Slots.heldSince_release (s : Slots ι) (i : ι) (instant : Nat) :
    (s.release i).heldSince instant = (s.heldSince instant).erase i := by
  ext j
  rw [Finset.mem_erase, Slots.mem_heldSince, Slots.mem_heldSince]
  simp [Slots.release, and_assoc]

omit [DecidableEq ι] in
theorem Slots.card_heldSince_le (s : Slots ι) (instant : Nat) :
    (s.heldSince instant).card ≤ s.holders.card :=
  Finset.card_filter_le ..

theorem Slots.Bounded.step (bounded : s.Bounded limit delay) (step : SlotStep limit delay s t) :
    t.Bounded limit delay := by
  cases step with
  | wait elapsed =>
      have later : s.now ≤ s.now + elapsed := Nat.le_add_right ..
      refine ⟨bounded.card, fun i holds => (bounded.since i holds).trans later,
        fun ended member => (bounded.slow ended member).trans later, fun instant _ => ?_⟩
      rcases Nat.lt_or_ge s.now instant with ahead | past
      · have none_ : (s.wait elapsed).endedIn instant (instant + delay) = 0 :=
          bounded.endedIn_eq_zero ahead.le
        rw [none_]
        exact ((s.wait elapsed).card_heldSince_le instant).trans bounded.card
      · exact bounded.window instant past
  | @take i new free =>
      have card : (s.take i).holders.card ≤ limit := by
        rw [Slots.take, Finset.card_insert_of_notMem new]
        exact free
      refine ⟨card, fun j holds => ?_, bounded.slow, fun instant past => ?_⟩
      · by_cases same : j = i
        · subst same
          simp [Slots.take]
        · have held : j ∈ s.holders := (Finset.mem_insert.1 holds).resolve_left same
          simpa [Slots.take, same] using bounded.since j held
      · rcases Nat.eq_or_lt_of_le past with present | early
        · have none_ : (s.take i).endedIn instant (instant + delay) = 0 :=
            bounded.endedIn_eq_zero present.ge
          rw [none_]
          exact ((s.take i).card_heldSince_le instant).trans card
        · rw [Slots.heldSince_take_of_lt new early]
          exact bounded.window instant early.le
  | @release i holds =>
      refine ⟨?_, fun j held => ?_, bounded.slow, fun instant past => ?_⟩
      · exact (Finset.card_erase_le).trans bounded.card
      · exact bounded.since j (Finset.mem_of_mem_erase held)
      · rw [Slots.heldSince_release]
        exact (Nat.add_le_add_right Finset.card_erase_le _).trans (bounded.window instant past)
  | @releaseSlow i holds held =>
      refine ⟨?_, fun j still => ?_, fun ended member => ?_, fun instant past => ?_⟩
      · exact (Finset.card_erase_le).trans bounded.card
      · exact bounded.since j (Finset.mem_of_mem_erase still)
      · rcases List.mem_cons.1 member with rfl | before
        · exact Nat.le_refl _
        · exact bounded.slow ended before
      · have erased : (s.releaseSlow i).heldSince instant = (s.heldSince instant).erase i :=
          s.heldSince_release i instant
        have window := bounded.window instant past
        rw [Slots.endedIn_releaseSlow, erased]
        by_cases counts : instant < s.now ∧ s.now ≤ instant + delay
        · -- The job has held its slot since the instant at the latest.
          have early : i ∈ s.heldSince instant := by
            refine Slots.mem_heldSince.2 ⟨holds, ?_⟩
            omega
          have fewer : ((s.heldSince instant).erase i).card + 1 = (s.heldSince instant).card :=
            Finset.card_erase_add_one early
          rw [if_pos counts]
          omega
        · rw [if_neg counts]
          have fewer : ((s.heldSince instant).erase i).card ≤ (s.heldSince instant).card :=
            Finset.card_erase_le
          omega

theorem Slots.bounded_of_reachable (reached : (Slots.system limit delay).Reachable s) :
    s.Bounded limit delay := by
  apply System.invariant _ _ reached
  · rintro start ⟨free, fresh⟩
    refine ⟨by simp [free], by simp [free], by simp [fresh], fun instant _ => ?_⟩
    simp [Slots.heldSince, Slots.endedIn, free, fresh]
  · intro before after _ bounded step
    exact bounded.step step

/-- The jobs never hold more slots than there are. -/
theorem Slots.card_holders_le (reached : (Slots.system limit delay).Reachable s) :
    s.holders.card ≤ limit :=
  (Slots.bounded_of_reachable reached).card

/-- No window of the delay sees more slow jobs end than there are slots. -/
theorem Slots.endedIn_le (reached : (Slots.system limit delay).Reachable s) (instant : Nat) :
    s.endedIn instant (instant + delay) ≤ limit := by
  have bounded := Slots.bounded_of_reachable reached
  rcases Nat.le_total instant s.now with past | ahead
  · exact (Nat.le_add_left ..).trans (bounded.window instant past)
  · rw [bounded.endedIn_eq_zero ahead]
    exact Nat.zero_le _

omit [DecidableEq ι] in
/-- A window ends where the next one begins. -/
theorem Slots.endedIn_append (s : Slots ι) {after middle until_ : Nat} (first : after ≤ middle)
    (second : middle ≤ until_) :
    s.endedIn after until_ = s.endedIn after middle + s.endedIn middle until_ := by
  unfold Slots.endedIn
  induction s.slow with
  | nil => rfl
  | cons instant slow ih =>
      simp only [List.countP_cons, ih, decide_eq_true_eq]
      split <;> split <;> split <;> omega

/-- In any number of delays no more slow jobs end than the slots allow in each of them. -/
theorem Slots.endedIn_windows_le (reached : (Slots.system limit delay).Reachable s)
    (instant windows : Nat) :
    s.endedIn instant (instant + windows * delay) ≤ windows * limit := by
  induction windows with
  | zero =>
      rw [Nat.zero_mul, Nat.zero_mul, Nat.add_zero, Nat.le_zero]
      refine List.countP_eq_zero.2 fun ended _ => ?_
      simp only [decide_eq_true_eq, not_and]
      omega
  | succ windows ih =>
      have split := s.endedIn_append (Nat.le_add_right instant (windows * delay))
        (Nat.le_add_right (instant + windows * delay) delay)
      rw [Nat.succ_mul, ← Nat.add_assoc, split, Nat.succ_mul]
      exact Nat.add_le_add ih (Slots.endedIn_le reached _)

end Slots

end Foundations
