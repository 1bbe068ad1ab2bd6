/-
Module: MongoHa.Wrapper.VolumeLock
Layer: Wrapper
Purpose: `volume_lock.rs`: the wait for the exclusive lock on a file at the root of the data directory, as a
  program over its calls. The wait is followed for `polls` attempts at most; `Halt.unfinished` says that it
  would go on. Log lines are left out.
Imports: MongoHa.Foundations.Program, MongoHa.Wrapper.AuthPin
Trusted boundary: human-reviewed spec
Main exports: Halt, VolumeLockOutcome, VolumeLockCall, instantAdd, acquireWithWait,
  acquireVolumeRuntimeLock, LockPolls, LockPolls.Slept, LockPolls.answer
Open obligations: none
-/
import MongoHa.Foundations.Program
import MongoHa.Wrapper.AuthPin

namespace MongoHa

open Foundations

/-- How a process of the wrapper stops by itself. -/
inductive Halt where
  /-- `main` returns the error. -/
  | error (text : String)
  /-- `main` returns the error of a pin write, whose wording is left out. -/
  | pinWrite (failure : WriteFailure)
  /-- `process::exit`. -/
  | exit (code : Int)
  | panicked (text : String)
  /-- No end: a wait that is followed no further. -/
  | unfinished
deriving Repr, DecidableEq, Inhabited

/-- How the attempt to lock the volume ended. -/
inductive VolumeLockOutcome where
  | held
  /-- The lock file could not be opened. -/
  | failedOpen
deriving Repr, DecidableEq, Inhabited

/-- The calls of the wait. -/
inductive VolumeLockCall where
  /-- `.railway-mongo-runtime.lock` in the data directory. -/
  | openLockFile
  /-- `flock` with `LOCK_EX | LOCK_NB`. -/
  | lockExclusive
  | now
  | sleep
deriving Repr, DecidableEq, Inhabited

abbrev VolumeLockCall.Reply : VolumeLockCall → Type
  | .openLockFile => Bool
  | .lockExclusive => Bool
  | .now => Instant
  | .sleep => Unit

abbrev LockTask (α : Type) := Program VolumeLockCall.Reply Halt α

def lockCall (call : VolumeLockCall) : LockTask call.Reply := Program.call call

def defaultWaitSecs : Nat := 300

/-- The seconds of an `Instant` are an `i64`. -/
def instantLimit : Nat := 2 ^ 63 * 1000000000

/-- `Instant + Duration`, which panics when the sum reaches the limit. -/
def instantAdd (instant : Instant) (duration : Duration) : LockTask Instant :=
  if instant < instantLimit - duration then .done (instant + duration)
  else .fail (.panicked "overflow when adding duration to instant")

def notReleased (waitSecs : Nat) : String :=
  "previous container did not release the volume within " ++ toString waitSecs ++
    "s; refusing to start mongod against a volume another instance may still be using"

/-- The loop: the first free attempt takes the lock, and only a refused one looks at the clock. -/
def pollLock (waitSecs : Nat) (deadline : Instant) : Nat → LockTask VolumeLockOutcome
  | 0 => .fail .unfinished
  | polls + 1 => do
      let locked ← lockCall .lockExclusive
      if locked then pure .held
      else do
        let now ← lockCall .now
        if deadline ≤ now then .fail (.error (notReleased waitSecs))
        else do
          lockCall .sleep
          pollLock waitSecs deadline polls

/-- `acquire_with_wait`. -/
def acquireWithWait (polls waitSecs : Nat) : LockTask VolumeLockOutcome := do
  let opened ← lockCall .openLockFile
  if opened then do
    let now ← lockCall .now
    let deadline ← instantAdd now (.fromSecs waitSecs)
    pollLock waitSecs deadline polls
  else pure .failedOpen

/-- `acquire_volume_runtime_lock`. -/
def acquireVolumeRuntimeLock (polls : Nat) (env : Environment) : LockTask VolumeLockOutcome :=
  acquireWithWait polls (envParse env parseU64 "RUNTIME_LOCK_WAIT_SECONDS" defaultWaitSecs)

/-! ### What a wait meets -/

/-- What one wait meets: when it starts, whether each attempt finds the lock free, and the clock it reads
    after an attempt. -/
structure LockPolls where
  startsAt : Instant
  free : Nat → Bool
  clock : Nat → Instant

/-- Each sleep lasts its second at least. -/
structure LockPolls.Slept (polls : LockPolls) : Prop where
  start : polls.startsAt ≤ polls.clock 0
  sleep : ∀ k, polls.clock k + Duration.fromSecs 1 ≤ polls.clock (k + 1)

/-- Where a wait stands: the attempts it made, and whether it has read the clock for its deadline. -/
structure LockPosition where
  started : Bool
  attempts : Nat

/-- The answers of such a wait. -/
def LockPolls.answer (polls : LockPolls) :
    (call : VolumeLockCall) → LockPosition → call.Reply × LockPosition
  | .openLockFile, position => (true, position)
  | .lockExclusive, position => (polls.free position.attempts, position)
  | .now, position =>
      if position.started then (polls.clock position.attempts, position)
      else (polls.startsAt, { position with started := true })
  | .sleep, position => ((), { position with attempts := position.attempts + 1 })

end MongoHa
