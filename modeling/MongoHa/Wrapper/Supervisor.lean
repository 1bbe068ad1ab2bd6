/-
Module: MongoHa.Wrapper.Supervisor
Layer: Wrapper
Purpose: `process_manager.rs` and `demote_on_shutdown.rs`: the supervisor of one mongod as a program over
  its calls, with the hand-off before a shutdown, the graceful shutdown and the restart a rotation asks
  for. The loop is followed for `rounds` events at most. The timeouts around the hand-offs are calls that
  fail, and log lines are left out.
Imports: MongoHa.Foundations.Processes, MongoHa.Wrapper.Credentials, MongoHa.Wrapper.VolumeLock
Trusted boundary: human-reviewed spec
Main exports: SupervisorEvent, SupervisorCall, exitCode, gracefulShutdown, demoteIfPrimary, restart,
  superviseLoop, supervise, restart_eq_superviseRestart
Open obligations: none
-/
import MongoHa.Foundations.Processes
import MongoHa.Wrapper.Credentials
import MongoHa.Wrapper.VolumeLock

namespace MongoHa.Supervisor

open Foundations

/-- The branch of the `select!` that is taken. -/
inductive SupervisorEvent where
  | restartNotified
  /-- `child.wait()`, with the exit code of a child that no signal killed. -/
  | exited (status : Except String (Option Int))
  | sigterm
  | sigint

def SupervisorEvent.isSignal : SupervisorEvent → Bool
  | .sigterm | .sigint => true
  | _ => false

/-- The calls of the supervisor and of the shutdown it runs. -/
inductive SupervisorCall where
  /-- Both handlers. -/
  | registerSignals
  /-- `child.id()`. -/
  | childId
  | select
  /-- A call of mongod, of the volume or of the statics of the process. -/
  | node (effect : Credentials.Effect)
  /-- SIGTERM to mongod; a failure is ignored. -/
  | signalMongod (pid : Int)
  /-- `child.wait()` for 30 s at most; none when the time is up. -/
  | waitMongod
  /-- `child.kill()`, which also waits for the child; a failure is ignored. -/
  | killMongod
  | spawnMongod (flags args : List String)
deriving DecidableEq

abbrev SupervisorCall.Reply : SupervisorCall → Type
  | .registerSignals => Except String Unit
  | .childId => Option Int
  | .select => SupervisorEvent
  | .node effect => effect.Reply
  | .signalMongod _ => Unit
  | .waitMongod => Option (Except String (Option Int))
  | .killMongod => Except String Unit
  | .spawnMongod _ _ => Except String Unit

abbrev Task (α : Type) := Program SupervisorCall.Reply Halt α

def perform (call : SupervisorCall) : Task call.Reply := Program.call call

/-- The `?` operator. -/
def orHalt : Except String Unit → Task Unit
  | .ok () => .done ()
  | .error text => .fail (.error text)

/-- An unasked exit never looks like success. -/
def exitCode : Except String (Option Int) → Int
  | .ok status => if status.getD 1 = 0 then 1 else status.getD 1
  | .error _ => 1

/-- `graceful_shutdown`: SIGTERM and the wait; without an id there is nothing to signal. -/
def gracefulShutdown : Option Int → Task Unit
  | none => pure ()
  | some pid => do
      perform (.signalMongod pid)
      let waited ← perform .waitMongod
      match waited with
      | some _ => pure ()
      | none => do
          let _ ← perform .killMongod
          pure ()

/-- The hand-off of `demote_if_primary`, without the deadline around it. -/
def stepDownBeforeShutdown : Credentials.Task Credentials.RotationError Bool := do
  let hello ← (Credentials.perform .hello).bind Credentials.orMongo
  if !hello.isWritablePrimary then pure false
  else do
    (Credentials.perform (.stepDown 60 10)).bind Credentials.orMongo
    pure true

/-- A component that makes only calls of the node. -/
def onNode {φ α : Type} (fails : φ → Halt) (task : Credentials.Task φ α) : Task α :=
  task.translate fails fun effect => perform (.node effect)

/-- A refusal or a timeout is only logged. -/
def demoteIfPrimary : Task Unit := do
  let _ ← onNode Empty.elim stepDownBeforeShutdown.attempt
  pure ()

section Supervise

-- `demote`: in HA mode the primary role is handed off first.
variable (demote : Bool) (flags args : List String)

/-- Run mongod on another keyfile, under the id of a new child. -/
def restartOn (target : String) (pid : Option Int) : Task (Option Int) := do
  (perform (.node (.writeKeyfileContent target))).bind orHalt
  gracefulShutdown pid
  (perform (.spawnMongod flags args)).bind orHalt
  let pid ← perform .childId
  perform (.node (.setLoadedKeyfile target))
  pure pid

/-- The branch of `RESTART_MONGO`. -/
def restart (pid : Option Int) : Task (Option Int) := do
  let pin ← perform (.node .readPin)
  match pin.bind AuthPin.keyfile with
  | none => pure pid
  | some target => do
      let loaded ← perform (.node .loadedKeyfile)
      if loaded = some target then pure pid
      else if !demote then pure pid
      else do
        let handed ← onNode Empty.elim Credentials.handoff.attempt
        match handed with
        | .error _ => pure pid
        | .ok () => restartOn flags args target pid

/-- The branches of the signals. -/
def stop (pid : Option Int) : Task Empty := do
  if demote then demoteIfPrimary
  gracefulShutdown pid
  .fail (.exit 0)

/-- The loop of `supervise`. -/
def superviseLoop : Nat → Option Int → Task Empty
  | 0, _ => .fail .unfinished
  | rounds + 1, pid => do
      let event ← perform .select
      match event with
      | .restartNotified => do
          let pid ← restart demote flags args pid
          superviseLoop rounds pid
      | .exited status => .fail (.exit (exitCode status))
      | .sigterm => stop demote pid
      | .sigint => stop demote pid

/-- `supervise`, from the handlers on. -/
def supervise (rounds : Nat) : Task Empty := do
  (perform .registerSignals).bind orHalt
  let pid ← perform .childId
  superviseLoop demote flags args rounds pid

/-! ### The restart as the credential tasks see it -/

/-- A restart of mongod as one call: the graceful shutdown and the spawn of the next one. -/
def restartMongod (pid : Option Int) : Task (Except String Unit) := do
  gracefulShutdown pid
  let spawned ← perform (.spawnMongod flags args)
  match spawned with
  | .error text => pure (.error text)
  | .ok () => do
      let _ ← perform .childId
      pure (.ok ())

def answerRestart (pid : Option Int) : (effect : Credentials.Effect) → Task effect.Reply
  | .restartMongod => restartMongod flags args pid
  | effect => perform (.node effect)

def isHandoff : Credentials.Effect → Prop
  | .hello | .stepDown _ _ => True
  | _ => False

theorem orMongo_uses {α : Type} {allowed : Credentials.Effect → Prop} (result : MongoResult α) :
    (Credentials.orMongo result).Uses allowed := by
  cases result <;> trivial

theorem handoff_uses : Credentials.handoff.Uses isHandoff := by
  have last : ((Credentials.perform .hello).bind Credentials.orMongo >>= fun hello =>
      Credentials.ensure (hello.isWritablePrimary = false) "still primary").Uses isHandoff := by
    refine ⟨trivial, fun reply => Program.uses_bind (orMongo_uses reply) fun hello => ?_⟩
    unfold Credentials.ensure Program.ensure
    split <;> trivial
  refine ⟨trivial, fun reply => Program.uses_bind (orMongo_uses reply) fun hello => ?_⟩
  split
  · exact ⟨trivial, fun reply => Program.uses_bind (orMongo_uses reply) fun _ => last⟩
  · exact last

theorem handoff_translate (pid : Option Int) :
    (Credentials.handoff.attempt : Credentials.Task String _).translate Halt.error
        (answerRestart flags args pid) =
      onNode Empty.elim Credentials.handoff.attempt := by
  refine Program.translate_attempt handoff_uses fun effect part => ?_
  cases effect <;> first | exact part.elim | rfl

theorem restartWith_translate (target : String) (pid : Option Int) :
    (Credentials.restartWith target).translate .error (answerRestart flags args pid) =
      (restartOn flags args target pid).bind fun _ => .done () := by
  simp only [Credentials.restartWith, restartOn, perform, Credentials.perform, Program.call,
    Program.bind_eq, Program.perform_bind, Program.done_bind, Program.bind_assoc,
    Program.translate_perform, Program.translate_bind, answerRestart]
  congr 1
  funext written
  cases written with
  | error text => rfl
  | ok _ =>
      simp only [orHalt, Credentials.orExit, Program.translate_done, Program.done_bind,
        Program.bind_assoc, restartMongod, perform, Program.call, Program.bind_eq,
        Program.perform_bind]
      congr 1
      funext stopped
      congr 1
      funext spawned
      cases spawned with
      | error text => rfl
      | ok _ => rfl

/-- With the restart of mongod as one call, the branch is the one the credential tasks run beside. -/
theorem restart_eq_superviseRestart (pid : Option Int) :
    (restart true flags args pid).bind (fun _ => .done ()) =
      Credentials.superviseRestart.translate .error (answerRestart flags args pid) := by
  simp only [restart, Credentials.superviseRestart, perform, Credentials.perform, Program.call,
    Program.bind_eq, Program.perform_bind, Program.done_bind, Program.translate_perform, answerRestart]
  congr 1
  funext pin
  cases pin.bind AuthPin.keyfile with
  | none => rfl
  | some target =>
      simp only [Program.perform_bind, Program.translate_perform, Program.done_bind, answerRestart,
        perform, Program.call]
      congr 1
      funext loaded
      by_cases current : loaded = some target
      · simp [current]
      · simp only [current, if_false, Bool.not_true, Bool.false_eq_true, Program.translate_bind,
          handoff_translate, Program.bind_assoc]
        congr 1
        funext handed
        cases handed with
        | error error => rfl
        | ok _ => exact (restartWith_translate flags args target pid).symm

end Supervise

end MongoHa.Supervisor
