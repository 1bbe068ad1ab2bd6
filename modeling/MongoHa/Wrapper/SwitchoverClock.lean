/-
Module: MongoHa.Wrapper.SwitchoverClock
Layer: Wrapper
Purpose: The clock of one `POST /switchover` in `health_server.rs`: the freezes of the other secondaries one
  after another, the step-down asked again whenever the catch-up window ran out, and the deadline around
  them. How long every call takes and what it answers is an input.
Imports: MongoHa.Wrapper.Switchover
Trusted boundary: human-reviewed spec
Main exports: TimedCall, elapsed, frozenAt, stepDownLoop, SwitchoverRun, SwitchoverRun.steppedDownAt,
  mem_frozenAt_iff, stepDownLoop_eq_some_iff
Open obligations: none
-/
import MongoHa.Wrapper.Switchover

namespace MongoHa

/-- How long the primary waits for the own node to catch up. -/
def catchupSecs : Nat := 10

def switchoverDeadline : Duration := .fromSecs 45

def shortCommandTimeout : Duration := .fromSecs 2

def stepDownTimeout : Duration := .fromSecs (catchupSecs + 5)

namespace Codes

def exceededTimeLimit : Int := 262

end Codes

/-- A command on another member: how long it took, and the answer. -/
structure TimedCall where
  takes : Duration
  answer : MongoResult Unit
deriving Repr, DecidableEq

/-- How long the calls take one after another. -/
def elapsed : List TimedCall → Duration
  | [] => 0
  | call :: calls => call.takes + elapsed calls

@[simp] theorem elapsed_cons (call : TimedCall) (calls : List TimedCall) :
    elapsed (call :: calls) = call.takes + elapsed calls := rfl

@[simp] theorem elapsed_append (calls others : List TimedCall) :
    elapsed (calls ++ others) = elapsed calls + elapsed others := by
  induction calls with
  | nil => exact (Nat.zero_add _).symm
  | cons call calls ih =>
      rw [List.cons_append, elapsed_cons, elapsed_cons, ih]
      exact (Nat.add_assoc ..).symm

/-- The members that a run freezes from now on, and when. A failed freeze is only logged. -/
def frozenAt : Instant → List (String × TimedCall) → List (String × Instant)
  | _, [] => []
  | now, (host, call) :: rest =>
      let done := now + call.takes
      match call.answer with
      | .ok () => (host, done) :: frozenAt done rest
      | .error _ => frozenAt done rest

/-- The primary waited out the catch-up window. -/
def TimedCall.RanOut (call : TimedCall) : Prop :=
  ∃ failure, call.answer = .error failure ∧ failure.code = some Codes.exceededTimeLimit

/-- When the step-down succeeds, asked from now on. -/
def stepDownLoop : Instant → List TimedCall → Option Instant
  | _, [] => none
  | now, call :: rest =>
      let done := now + call.takes
      match call.answer with
      | .ok () => some done
      | .error failure =>
          if failure.code = some Codes.exceededTimeLimit then stepDownLoop done rest else none

/-- A run on a node that is not the primary. There are as many attempts as it comes to make. -/
structure SwitchoverRun where
  me : String
  hello : Hello
  status : RsStatus
  plan : SwitchoverPlan
  notPrimary : hello.isWritablePrimary = false
  planned : switchoverPlan me hello status = .ok plan
  startsAt : Instant
  /-- The time the run spends on `hello` and the status. -/
  reads : Duration
  freezes : List (String × TimedCall)
  asked : freezes.map Prod.fst = plan.others
  attempts : List TimedCall

namespace SwitchoverRun

def freezesFrom (run : SwitchoverRun) : Instant :=
  run.startsAt + run.reads

def stepsDownFrom (run : SwitchoverRun) : Instant :=
  run.freezesFrom + elapsed (run.freezes.map Prod.snd)

/-- When a step-down succeeds before the deadline ends the run. -/
def steppedDownAt (run : SwitchoverRun) : Option Instant :=
  (stepDownLoop run.stepsDownFrom run.attempts).filter (· ≤ run.startsAt + switchoverDeadline)

/-- No call takes longer than its own timeout. -/
def WithinTimeouts (run : SwitchoverRun) : Prop :=
  (∀ entry ∈ run.freezes, entry.2.takes ≤ shortCommandTimeout) ∧
    ∀ call ∈ run.attempts, call.takes ≤ stepDownTimeout

end SwitchoverRun

variable {host : String} {now instant : Instant}

/-- A member is frozen when its own call returned. -/
theorem mem_frozenAt_iff {freezes : List (String × TimedCall)} :
    (host, instant) ∈ frozenAt now freezes ↔
      ∃ earlier call later, freezes = earlier ++ (host, call) :: later ∧ call.answer = .ok () ∧
        instant = now + elapsed (earlier.map Prod.snd) + call.takes := by
  induction freezes generalizing now with
  | nil => simp [frozenAt]
  | cons entry rest ih =>
      obtain ⟨first, call⟩ := entry
      have listed : (host, instant) ∈ frozenAt now ((first, call) :: rest) ↔
          (call.answer = .ok () ∧ host = first ∧ instant = now + call.takes) ∨
            (host, instant) ∈ frozenAt (now + call.takes) rest := by
        cases answered : call.answer with
        | ok _ => simp [frozenAt, answered]
        | error failure => simp [frozenAt, answered]
      rw [listed, ih]
      constructor
      · rintro (⟨answered, rfl, rfl⟩ | ⟨earlier, frozen, later, rfl, answered, rfl⟩)
        · exact ⟨[], call, rest, rfl, answered, rfl⟩
        · refine ⟨(first, call) :: earlier, frozen, later, rfl, answered, ?_⟩
          rw [List.map_cons, elapsed_cons, Nat.add_assoc now]
      · rintro ⟨earlier, frozen, later, split, answered, rfl⟩
        cases earlier with
        | nil =>
            cases split
            exact Or.inl ⟨answered, rfl, rfl⟩
        | cons skipped earlier =>
            cases split
            refine Or.inr ⟨earlier, frozen, later, rfl, answered, ?_⟩
            simp only [List.map_cons, elapsed_cons, Nat.add_assoc]

/-- The step-down succeeds at the first attempt that does not run out. -/
theorem stepDownLoop_eq_some_iff {attempts : List TimedCall} :
    stepDownLoop now attempts = some instant ↔
      ∃ ranOut last rest, attempts = ranOut ++ last :: rest ∧ (∀ call ∈ ranOut, call.RanOut) ∧
        last.answer = .ok () ∧ instant = now + elapsed ranOut + last.takes := by
  induction attempts generalizing now with
  | nil => simp [stepDownLoop]
  | cons call rest ih =>
      have next : stepDownLoop now (call :: rest) = some instant ↔
          (call.answer = .ok () ∧ instant = now + call.takes) ∨
            call.RanOut ∧ stepDownLoop (now + call.takes) rest = some instant := by
        cases answered : call.answer with
        | ok _ => simp [stepDownLoop, TimedCall.RanOut, answered, eq_comm]
        | error failure => simp [stepDownLoop, TimedCall.RanOut, answered]
      rw [next, ih]
      constructor
      · rintro (⟨answered, rfl⟩ | ⟨ran, ranOut, last, others, rfl, all, answered, rfl⟩)
        · exact ⟨[], call, rest, rfl, by simp, answered, rfl⟩
        · refine ⟨call :: ranOut, last, others, rfl, List.forall_mem_cons.2 ⟨ran, all⟩, answered, ?_⟩
          rw [elapsed_cons, Nat.add_assoc now]
      · rintro ⟨ranOut, last, others, split, all, answered, rfl⟩
        cases ranOut with
        | nil =>
            cases split
            exact Or.inl ⟨answered, rfl⟩
        | cons first ranOut =>
            cases split
            rw [List.forall_mem_cons] at all
            refine Or.inr ⟨all.1, ranOut, last, others, rfl, all.2, answered, ?_⟩
            simp only [elapsed_cons, Nat.add_assoc]

end MongoHa
