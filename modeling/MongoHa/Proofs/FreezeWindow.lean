/-
Module: MongoHa.Proofs.FreezeWindow
Layer: Proofs
Purpose: Freezes during a switchover. They are all in force when the step-down lands exactly when the calls
  after the first freeze that succeeded take less than a freeze lasts. One attempt among the members of a
  full set always fits; the retries that the deadline allows do not.
Imports: MongoHa.Wrapper.SwitchoverClock
Trusted boundary: none (fully proved)
Main exports: SwitchoverRun.FreezesInForce, SwitchoverRun.StepsDownInTime, freezes_in_force_iff,
  in_force_of_single_attempt, retried_step_down_outlasts_freeze
Open obligations: none
-/
import MongoHa.Wrapper.SwitchoverClock

namespace MongoHa

namespace SwitchoverRun

/-- When the step-down succeeds, every freeze that succeeded still holds. -/
def FreezesInForce (run : SwitchoverRun) : Prop :=
  ∀ steppedDown, run.steppedDownAt = some steppedDown →
    ∀ host frozen, (host, frozen) ∈ frozenAt run.freezesFrom run.freezes →
      steppedDown < frozen + Duration.fromSecs freezeSecs

/-- The calls after the first freeze that succeeds, up to a step-down that succeeds before the deadline,
    take less than a freeze lasts. -/
def StepsDownInTime (run : SwitchoverRun) : Prop :=
  ∀ failed host first later ranOut last rest,
    run.freezes = failed ++ (host, first) :: later → (∀ entry ∈ failed, entry.2.answer ≠ .ok ()) →
    first.answer = .ok () →
    run.attempts = ranOut ++ last :: rest → (∀ call ∈ ranOut, call.RanOut) → last.answer = .ok () →
    run.reads + elapsed (run.freezes.map Prod.snd) + elapsed ranOut + last.takes ≤ switchoverDeadline →
    elapsed (later.map Prod.snd) + elapsed ranOut + last.takes < Duration.fromSecs freezeSecs

end SwitchoverRun

variable {run : SwitchoverRun}

/-- A step-down that succeeds, with the attempts before it. -/
theorem steppedDownAt_eq_some_iff {steppedDown : Instant} :
    run.steppedDownAt = some steppedDown ↔
      ∃ ranOut last rest, run.attempts = ranOut ++ last :: rest ∧ (∀ call ∈ ranOut, call.RanOut) ∧
        last.answer = .ok () ∧ steppedDown = run.stepsDownFrom + elapsed ranOut + last.takes ∧
        run.reads + elapsed (run.freezes.map Prod.snd) + elapsed ranOut + last.takes ≤
          switchoverDeadline := by
  have deadline : ∀ spent : Duration, run.stepsDownFrom + spent ≤ run.startsAt + switchoverDeadline ↔
      run.reads + elapsed (run.freezes.map Prod.snd) + spent ≤ switchoverDeadline := by
    intro spent
    unfold SwitchoverRun.stepsDownFrom SwitchoverRun.freezesFrom
    rw [Nat.add_assoc run.startsAt, Nat.add_assoc run.startsAt]
    exact Nat.add_le_add_iff_left
  simp only [SwitchoverRun.steppedDownAt, Option.filter_eq_some_iff, stepDownLoop_eq_some_iff,
    decide_eq_true_eq]
  constructor
  · rintro ⟨⟨ranOut, last, rest, split, all, answered, rfl⟩, inTime⟩
    rw [Nat.add_assoc, deadline, ← Nat.add_assoc] at inTime
    exact ⟨ranOut, last, rest, split, all, answered, rfl, inTime⟩
  · rintro ⟨ranOut, last, rest, split, all, answered, rfl, inTime⟩
    refine ⟨⟨ranOut, last, rest, split, all, answered, rfl⟩, ?_⟩
    rw [Nat.add_assoc, deadline, ← Nat.add_assoc]
    exact inTime

theorem frozen_arith {start earlier call later attempts final window : Nat} :
    start + (earlier + (call + later)) + attempts + final < start + earlier + call + window ↔
      later + attempts + final < window := by
  omega

/-- A freeze that succeeds comes after the first one, or is the first one. -/
theorem first_success {freezes earlier later : List (String × TimedCall)} {host : String}
    {call : TimedCall} (split : freezes = earlier ++ (host, call) :: later)
    (answered : call.answer = .ok ()) :
    ∃ failed firstHost first behind, freezes = failed ++ (firstHost, first) :: behind ∧
      (∀ entry ∈ failed, entry.2.answer ≠ .ok ()) ∧ first.answer = .ok () ∧
      elapsed (later.map Prod.snd) ≤ elapsed (behind.map Prod.snd) := by
  induction earlier generalizing freezes with
  | nil => exact ⟨[], host, call, later, split, by simp, answered, le_refl _⟩
  | cons entry earlier ih =>
      obtain ⟨skippedHost, skipped⟩ := entry
      by_cases succeeded : skipped.answer = .ok ()
      · refine ⟨[], skippedHost, skipped, earlier ++ (host, call) :: later, split, by simp, succeeded, ?_⟩
        simp only [List.map_append, List.map_cons, elapsed_append, elapsed_cons]
        exact le_trans (Nat.le_add_left ..) (Nat.le_add_left ..)
      · obtain ⟨failed, firstHost, first, behind, rest, none, first_answered, least⟩ := ih rfl
        refine ⟨(skippedHost, skipped) :: failed, firstHost, first, behind, ?_, ?_, first_answered, least⟩
        · rw [split, List.cons_append, rest, List.cons_append]
        · exact List.forall_mem_cons.2 ⟨succeeded, none⟩

/-- The freezes are in force when the step-down lands exactly when the calls after the first one that
    succeeded take less than a freeze lasts. -/
theorem freezes_in_force_iff (run : SwitchoverRun) : run.FreezesInForce ↔ run.StepsDownInTime := by
  have started : ∀ {earlier later : List (String × TimedCall)} {host : String} {call : TimedCall},
      run.freezes = earlier ++ (host, call) :: later →
      run.stepsDownFrom = run.freezesFrom + (elapsed (earlier.map Prod.snd) +
        (call.takes + elapsed (later.map Prod.snd))) := by
    intro earlier later host call split
    rw [SwitchoverRun.stepsDownFrom, split, List.map_append, List.map_cons, elapsed_append, elapsed_cons]
  constructor
  · intro inForce failed host first later ranOut last rest split _ answered attempted all landed inTime
    have frozen := (@mem_frozenAt_iff host run.freezesFrom _ run.freezes).2
      ⟨failed, first, later, split, answered, rfl⟩
    have steppedDown := steppedDownAt_eq_some_iff.2
      ⟨ranOut, last, rest, attempted, all, landed, rfl, inTime⟩
    have lasts := inForce _ steppedDown host _ frozen
    rw [started split] at lasts
    exact frozen_arith.1 lasts
  · intro fits steppedDown landed host frozen listed
    obtain ⟨earlier, call, later, split, answered, rfl⟩ := mem_frozenAt_iff.1 listed
    obtain ⟨ranOut, last, rest, attempted, all, succeeded, rfl, inTime⟩ :=
      steppedDownAt_eq_some_iff.1 landed
    obtain ⟨failed, firstHost, first, behind, splitFirst, none, firstAnswered, least⟩ :=
      first_success split answered
    have short := fits failed firstHost first behind ranOut last rest splitFirst none firstAnswered
      attempted all succeeded inTime
    rw [started split]
    apply frozen_arith.2
    calc elapsed (later.map Prod.snd) + elapsed ranOut + last.takes
        ≤ elapsed (behind.map Prod.snd) + elapsed ranOut + last.takes :=
          Nat.add_le_add_right (Nat.add_le_add_right least _) _
      _ < Duration.fromSecs freezeSecs := short

/-- Within the timeouts of the calls. -/
theorem elapsed_le {calls : List TimedCall} {most : Duration}
    (within : ∀ call ∈ calls, call.takes ≤ most) : elapsed calls ≤ calls.length * most := by
  induction calls with
  | nil => exact Nat.zero_le _
  | cons call calls ih =>
      rw [List.forall_mem_cons] at within
      rw [elapsed_cons, List.length_cons, Nat.succ_mul, Nat.add_comm]
      exact Nat.add_le_add (ih within.2) within.1

/-- One attempt and at most eight other members: no timeout is long enough for a freeze to run out. -/
theorem in_force_of_single_attempt (within : run.WithinTimeouts) (few : run.plan.others.length ≤ 8)
    (single : run.attempts.length ≤ 1) : run.FreezesInForce := by
  refine (freezes_in_force_iff run).2 fun failed host first later ranOut last rest split _ _ attempted _ _
    _ => ?_
  have members : later.length + 1 ≤ 8 := by
    have total := congrArg List.length split
    have asked := congrArg List.length run.asked
    rw [List.length_append, List.length_cons] at total
    rw [List.length_map] at asked
    omega
  obtain rfl : ranOut = [] := by
    rw [attempted, List.length_append, List.length_cons] at single
    exact List.eq_nil_of_length_eq_zero (by omega)
  have freezing : elapsed (later.map Prod.snd) ≤ later.length * shortCommandTimeout := by
    have each : ∀ call ∈ later.map Prod.snd, call.takes ≤ shortCommandTimeout := by
      intro call member
      obtain ⟨entry, listed, rfl⟩ := List.mem_map.1 member
      exact within.1 entry (by rw [split]; simp [listed])
    simpa using elapsed_le each
  have steps : last.takes ≤ stepDownTimeout := within.2 last (by rw [attempted]; simp)
  calc elapsed (later.map Prod.snd) + elapsed [] + last.takes
      ≤ 7 * shortCommandTimeout + 0 + stepDownTimeout :=
        Nat.add_le_add (Nat.add_le_add (le_trans freezing (Nat.mul_le_mul_right _ (by omega))) (le_refl _))
          steps
    _ < Duration.fromSecs freezeSecs := by decide

/-! ### Two retries -/

/-- A healthy member of a set of three. -/
def switchRow (host : String) (state : Int) (stateStr : String) : RsMember :=
  { id := 0, host := host, state := state, stateStr := stateStr, healthy := true
    isSelf := host == "mongo-1:27017", optimeSecs := none }

/-- `mongo-1` asks `mongo-2` to step down, which waits out its catch-up window twice. -/
def retriedSwitchover : SwitchoverRun where
  me := "mongo-1:27017"
  hello := { secondary := true, setName := some "rs0", primary := some "mongo-2:27017" }
  status := .active "rs0" 2 "SECONDARY"
    [switchRow "mongo-1:27017" 2 "SECONDARY", switchRow "mongo-2:27017" 1 "PRIMARY",
      switchRow "mongo-3:27017" 2 "SECONDARY"] none
  plan := { primaryHost := "mongo-2:27017", others := ["mongo-3:27017"] }
  notPrimary := rfl
  planned := by decide
  startsAt := 0
  reads := 0
  freezes := [("mongo-3:27017", { takes := .fromSecs 1, answer := .ok () })]
  asked := rfl
  attempts :=
    let ranOut : MongoResult Unit :=
      .error { code := some Codes.exceededTimeLimit, text := "No electable secondaries caught up" }
    [{ takes := .fromSecs catchupSecs, answer := ranOut },
      { takes := .fromSecs catchupSecs, answer := ranOut },
      { takes := .fromSecs catchupSecs, answer := .ok () }]

/-- The step-down lands at 31 s, within the deadline, and the freeze of `mongo-3` ran out then. -/
theorem retried_step_down_outlasts_freeze :
    retriedSwitchover.WithinTimeouts ∧
      retriedSwitchover.steppedDownAt = some (Duration.fromSecs 31) ∧
      ¬ retriedSwitchover.FreezesInForce := by
  have landed : retriedSwitchover.steppedDownAt = some (Duration.fromSecs 31) := by decide
  refine ⟨⟨by decide, by decide⟩, landed, fun inForce => ?_⟩
  have lasts := inForce _ landed "mongo-3:27017" (Duration.fromSecs 1) (by decide)
  exact absurd lasts (by decide)

end MongoHa
