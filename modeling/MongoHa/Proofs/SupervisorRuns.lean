/-
Module: MongoHa.Proofs.SupervisorRuns
Layer: Proofs
Purpose: What the supervisor of mongod does in every run, by the calls it made before: when it stops
  mongod and starts it again, when it hands the primary role off, and which exit code it ends with. The
  proofs follow the program with the monitor of its history, branch by branch.
Imports: MongoHa.Wrapper.Supervisor
Trusted boundary: none (fully proved)
Main exports: Calls, toldPid, Stopped, HandedOff, SignalAsked, RotationReady, StopsAfter, Acts, Exits,
  superviseLoop_meets, supervisor_acts, rotation_respawns, supervisor_exits, clean_exit_fails
Open obligations: none
-/
import MongoHa.Wrapper.Supervisor

namespace MongoHa.Supervisor

open Foundations
open Foundations.Monitor

/-- The calls of a run, with their replies. -/
abbrev Calls := List ((call : SupervisorCall) × call.Reply)

/-! ### What the calls of a run show -/

/-- What is known of the id of the mongod that was spawned last: the reply to `child.id()` since the
    spawn. -/
def nowTold (told : Option (Option Int)) : (call : SupervisorCall) × call.Reply → Option (Option Int)
  | ⟨.childId, id⟩ => some id
  | ⟨.spawnMongod _ _, _⟩ => none
  | _ => told

/-- The id that `child.id()` told since the last spawn, if it was asked. -/
def toldPid (calls : Calls) : Option (Option Int) := calls.foldl nowTold none

theorem toldPid_append_singleton (calls : Calls) (call : (call : SupervisorCall) × call.Reply) :
    toldPid (calls ++ [call]) = nowTold (toldPid calls) call := by
  rw [toldPid, List.foldl_append]
  rfl

/-- A call of the node leaves the child as it is. -/
theorem toldPid_node (calls : Calls) (effect : Credentials.Effect) (reply : effect.Reply) :
    toldPid (calls ++ [⟨.node effect, reply⟩]) = toldPid calls :=
  toldPid_append_singleton ..

/-- The graceful shutdown of the mongod with this id: SIGTERM, and SIGKILL when it outlives the wait. One
    that has no id any more has ended. -/
inductive Stopped : Option Int → Calls → Prop where
  | noChild : Stopped none []
  | exited (pid : Int) (status : Except String (Option Int)) :
      Stopped (some pid) [⟨.signalMongod pid, ()⟩, ⟨.waitMongod, some status⟩]
  | killed (pid : Int) (result : Except String Unit) :
      Stopped (some pid)
        [⟨.signalMongod pid, ()⟩, ⟨.waitMongod, none⟩, ⟨.killMongod, result⟩]

/-- The attempt to hand the primary role off: nothing on a secondary, a step-down on a primary. -/
inductive HandedOff : Calls → Prop where
  | failed (failure : MongoError) : HandedOff [⟨.node .hello, .error failure⟩]
  | secondary (hello : Hello) (other : hello.isWritablePrimary = false) :
      HandedOff [⟨.node .hello, .ok hello⟩]
  | steppedDown (hello : Hello) (primary : hello.isWritablePrimary = true) (result : MongoResult Unit) :
      HandedOff [⟨.node .hello, .ok hello⟩, ⟨.node (.stepDown 60 10), result⟩]

/-- A signal came last, and in HA mode the hand-off was attempted. -/
def SignalAsked (demote : Bool) (calls : Calls) : Prop :=
  ∃ before event handoff, calls = before ++ ⟨.select, event⟩ :: handoff ∧
    event.isSignal = true ∧ (if demote then HandedOff handoff else handoff = [])

/-- A restart was asked for last, the pin carries another keyfile than the loaded one, mongod was not a
    primary when it was asked last, and the keyfile is where mongod reads it. -/
def RotationReady (demote : Bool) (target : String) (calls : Calls) : Prop :=
  ∃ before pin loaded handoff hello, calls = before ++ ⟨.select, .restartNotified⟩ ::
      ⟨.node .readPin, some pin⟩ :: ⟨.node .loadedKeyfile, loaded⟩ ::
        (handoff ++ [⟨.node .hello, .ok hello⟩, ⟨.node (.writeKeyfileContent target), .ok ()⟩]) ∧
    demote = true ∧ pin.keyfile = some target ∧ loaded ≠ some target ∧
      hello.isWritablePrimary = false

/-- These calls end the mongod whose id was told last. -/
def StopsAfter (before stopped : Calls) : Prop := ∃ pid, toldPid before = some pid ∧ Stopped pid stopped

/-- The calls a run may make next. -/
def Acts (demote : Bool) (flags args : List String) (calls : Calls) : SupervisorCall → Prop
  | .signalMongod pid => toldPid calls = some (some pid) ∧
      (SignalAsked demote calls ∨ ∃ target, RotationReady demote target calls)
  | .killMongod => ∃ before, calls = before ++ [⟨.waitMongod, none⟩]
  | .spawnMongod own passed =>
      own = flags ∧ passed = args ∧ ∃ before target stopped,
        calls = before ++ stopped ∧ RotationReady demote target before ∧ StopsAfter before stopped
  | .node (.setLoadedKeyfile target) =>
      ∃ before stopped id, calls = before ++ stopped ++
          [⟨.spawnMongod flags args, .ok ()⟩, ⟨.childId, id⟩] ∧
        RotationReady demote target before ∧ StopsAfter before stopped
  | .node (.stepDown secs catchUpSecs) =>
      secs = 60 ∧ catchUpSecs = 10 ∧ demote = true ∧ ∃ before hello,
        calls = before ++ [⟨.node .hello, .ok hello⟩] ∧ hello.isWritablePrimary = true
  | _ => True

/-- A call that failed and ends the process. -/
inductive Fatal : String → ((call : SupervisorCall) × call.Reply) → Prop where
  | registering (text : String) : Fatal text ⟨.registerSignals, .error text⟩
  | writing (target text : String) : Fatal text ⟨.node (.writeKeyfileContent target), .error text⟩
  | spawning (flags args : List String) (text : String) :
      Fatal text ⟨.spawnMongod flags args, .error text⟩

/-- How a run ends, by its calls. -/
inductive Exits (demote : Bool) (calls : Calls) : Halt → Prop where
  | asked (before stopped : Calls) (split : calls = before ++ stopped)
      (asked : SignalAsked demote before) (down : StopsAfter before stopped) :
      Exits demote calls (.exit 0)
  | died (before : Calls) (status : Except String (Option Int)) (code : Int)
      (split : calls = before ++ [⟨.select, .exited status⟩]) (its : code = exitCode status)
      (failure : code ≠ 0) : Exits demote calls (.exit code)
  | failed (before : Calls) (text : String) (call : (call : SupervisorCall) × call.Reply)
      (split : calls = before ++ [call]) (fatal : Fatal text call) : Exits demote calls (.error text)
  | unfinished : Exits demote calls .unfinished

theorem exitCode_ne_zero (status : Except String (Option Int)) : exitCode status ≠ 0 := by
  cases status with
  | error text => exact one_ne_zero
  | ok status =>
      simp only [exitCode]
      split
      · exact one_ne_zero
      · assumption

/-! ### The branches -/

section Branches

variable {demote : Bool} {flags args : List String} {calls : Calls}

abbrev runMonitor (demote : Bool) (flags args : List String) : Monitor SupervisorCall.Reply Calls :=
  .history (Acts demote flags args)

/-- A branch that ends the run only as a run may end. -/
abbrev Stays {α : Type} (demote : Bool) (post : Calls → α → Prop) : Calls → Except Halt α → Prop :=
  ending post fun calls halt => Exits demote calls halt

theorem gracefulShutdown_meets {pid : Option Int} (told : toldPid calls = some pid)
    (allowed : SignalAsked demote calls ∨ ∃ target, RotationReady demote target calls) :
    (runMonitor demote flags args).Meets
      (Stays demote fun after _ => ∃ stopped, after = calls ++ stopped ∧ StopsAfter calls stopped) calls
      (gracefulShutdown pid) := by
  cases pid with
  | none => exact ⟨[], (List.append_nil calls).symm, none, told, .noChild⟩
  | some pid =>
      refine ⟨⟨told, allowed⟩, fun _ => ⟨trivial, fun waited => ?_⟩⟩
      cases waited with
      | some status => exact ⟨_, by simp, some pid, told, .exited pid status⟩
      | none => exact ⟨⟨_, rfl⟩, fun killed => ⟨_, by simp, some pid, told, .killed pid killed⟩⟩

theorem toldPid_handedOff {handoff : Calls} (handed : HandedOff handoff) (before : Calls) :
    toldPid (before ++ handoff) = toldPid before := by
  cases handed with
  | failed failure => exact toldPid_node ..
  | secondary hello other => exact toldPid_node ..
  | steppedDown hello primary result =>
      rw [toldPid, List.foldl_append]
      rfl

theorem demoteIfPrimary_meets (demotes : demote = true) :
    (runMonitor demote flags args).Meets
      (Stays demote fun after _ => ∃ handoff, after = calls ++ handoff ∧ HandedOff handoff) calls
      demoteIfPrimary := by
  simp only [demoteIfPrimary, onNode, stepDownBeforeShutdown, Credentials.perform, perform,
    Program.call, Program.bind_eq, Program.perform_bind, Program.done_bind, Program.attempt,
    Program.translate_perform, meets_perform, history_allows, history_learn]
  refine ⟨trivial, fun answered => ?_⟩
  cases answered with
  | error failure => exact ⟨_, rfl, .failed failure⟩
  | ok hello =>
      by_cases primary : hello.isWritablePrimary = true
      · simp only [Credentials.orMongo, Program.done_bind, primary, Bool.not_true, Bool.false_eq_true,
          if_false, Program.perform_bind, Program.attempt, Program.translate_perform, meets_perform,
          history_allows, history_learn]
        refine ⟨⟨rfl, rfl, demotes, calls, hello, rfl, primary⟩, fun result => ?_⟩
        cases result with
        | ok _ => exact ⟨_, List.append_assoc .., .steppedDown hello primary (.ok ())⟩
        | error failure => exact ⟨_, List.append_assoc .., .steppedDown hello primary (.error failure)⟩
      · have other : hello.isWritablePrimary = false := by simpa using primary
        simp only [Credentials.orMongo, Program.done_bind, other, Bool.not_false, if_true,
          Program.pure_eq, Program.attempt, Program.translate_done]
        exact ⟨_, rfl, .secondary hello other⟩

/-- After a hand-off that succeeded, mongod was not a primary when it was asked last. It is the same
    mongod. -/
def NoPrimary (calls after : Calls) (outcome : Except Credentials.RotationError Unit) : Prop :=
  toldPid after = toldPid calls ∧ (outcome = .ok () → ∃ handoff hello,
    after = calls ++ (handoff ++ [⟨.node .hello, .ok hello⟩]) ∧ hello.isWritablePrimary = false)

/-- A hand-off that did not succeed, by calls that leave the mongod as it is. -/
theorem noPrimary_error {after : Calls} {error : Credentials.RotationError}
    (same : toldPid after = toldPid calls) : NoPrimary calls after (.error error) :=
  ⟨same, fun handed => by cases handed⟩

theorem lastHello_meets {handoff : Calls} (kept : toldPid (calls ++ handoff) = toldPid calls) :
    (runMonitor demote flags args).Meets (Stays demote (NoPrimary calls)) (calls ++ handoff)
      (onNode Empty.elim ((Credentials.perform .hello).bind Credentials.orMongo >>= fun hello =>
        Credentials.ensure (hello.isWritablePrimary = false) "still primary").attempt) := by
  simp only [onNode, Credentials.perform, perform, Program.call, Program.bind_eq,
    Program.perform_bind, Program.done_bind, Program.attempt, Program.translate_perform,
    meets_perform, history_allows, history_learn]
  refine ⟨trivial, fun answered => ?_⟩
  have same : toldPid (calls ++ handoff ++ [⟨.node .hello, answered⟩]) = toldPid calls :=
    (toldPid_node ..).trans kept
  cases answered with
  | error failure => exact noPrimary_error same
  | ok hello =>
      by_cases primary : hello.isWritablePrimary = false
      · simp only [Credentials.orMongo, Program.done_bind, Credentials.ensure, Program.ensure, primary,
          if_true, Program.attempt, Program.translate_done]
        exact ⟨same, fun _ => ⟨handoff, hello, List.append_assoc .., primary⟩⟩
      · simp only [Credentials.orMongo, Program.done_bind, Credentials.ensure, Program.ensure,
          if_neg primary, Program.attempt, Program.translate_done]
        exact noPrimary_error same

theorem handoff_meets (demotes : demote = true) :
    (runMonitor demote flags args).Meets (Stays demote (NoPrimary calls)) calls
      (onNode Empty.elim Credentials.handoff.attempt) := by
  unfold Credentials.handoff
  simp only [onNode, Credentials.perform, perform, Program.call, Program.bind_eq,
    Program.perform_bind, Program.done_bind, Program.attempt, Program.translate_perform,
    meets_perform, history_allows, history_learn]
  refine ⟨trivial, fun answered => ?_⟩
  have greeted : toldPid (calls ++ [⟨.node .hello, answered⟩]) = toldPid calls :=
    toldPid_node ..
  cases answered with
  | error failure => exact noPrimary_error greeted
  | ok hello =>
      by_cases primary : hello.isWritablePrimary = true
      · simp only [Credentials.orMongo, Program.done_bind, primary, if_true, Program.perform_bind,
          Program.attempt, Program.translate_perform, meets_perform, history_allows, history_learn]
        refine ⟨⟨rfl, rfl, demotes, calls, hello, rfl, primary⟩, fun result => ?_⟩
        have stepped : toldPid (calls ++ [⟨.node .hello, .ok hello⟩] ++
            [⟨.node (.stepDown 60 10), result⟩]) = toldPid calls :=
          (toldPid_node ..).trans greeted
        cases result with
        | ok _ =>
            rw [List.append_assoc] at stepped ⊢
            exact lastHello_meets stepped
        | error failure => exact noPrimary_error stepped
      · simp only [Credentials.orMongo, Program.done_bind, if_neg primary]
        exact lastHello_meets greeted

theorem orHalt_meets {result : Except String Unit} {post : Calls → Unit → Prop} {before : Calls}
    {call : (call : SupervisorCall) × call.Reply} (split : calls = before ++ [call])
    (fatal : ∀ text, result = .error text → Fatal text call) (done : result = .ok () → post calls ()) :
    (runMonitor demote flags args).Meets (Stays demote post) calls (orHalt result) := by
  cases result with
  | ok _ => exact done rfl
  | error text => exact .failed before text call split (fatal text rfl)

theorem restartOn_meets {target : String} {pid : Option Int} (told : toldPid calls = some pid)
    (ready : RotationReady demote target (calls ++ [⟨.node (.writeKeyfileContent target), .ok ()⟩])) :
    (runMonitor demote flags args).Meets (Stays demote fun after pid => toldPid after = some pid) calls
      (restartOn flags args target pid) := by
  simp only [restartOn, perform, Program.call, Program.bind_eq, Program.perform_bind,
    Program.done_bind, meets_perform, meets_before, history_allows, history_learn]
  refine ⟨trivial, fun written => orHalt_meets rfl ?_ ?_⟩
  · rintro text rfl
    exact .writing target text
  rintro rfl
  have toldStill := (toldPid_node calls (.writeKeyfileContent target) (.ok ())).trans told
  refine (gracefulShutdown_meets toldStill (Or.inr ⟨target, ready⟩)).imp fun after outcome stopped => ?_
  cases outcome with
  | error halt => exact stopped
  | ok _ =>
      obtain ⟨stopped, rfl, down⟩ := stopped
      refine ⟨⟨rfl, rfl, _, target, stopped, rfl, ready, down⟩, fun spawned => ?_⟩
      refine orHalt_meets rfl ?_ ?_
      · rintro text rfl
        exact .spawning flags args text
      rintro rfl
      refine ⟨trivial, fun id => ⟨⟨_, stopped, id, ?_, ready, down⟩, fun _ => ?_⟩⟩
      · exact List.append_assoc ..
      · rw [Program.pure_eq, meets_done, ending_ok, toldPid_append_singleton, toldPid_append_singleton]
        rfl

theorem restart_meets {before : Calls} {pid : Option Int} (told : toldPid calls = some pid)
    (asked : calls = before ++ [⟨.select, .restartNotified⟩]) :
    (runMonitor demote flags args).Meets (Stays demote fun after pid => toldPid after = some pid) calls
      (restart demote flags args pid) := by
  simp only [restart, perform, Program.call, Program.bind_eq, Program.perform_bind,
    Program.done_bind, meets_perform, history_allows, history_learn]
  refine ⟨trivial, fun pin => ?_⟩
  have toldRead := (toldPid_node calls .readPin pin).trans told
  cases pinned : pin.bind AuthPin.keyfile with
  | none => exact toldRead
  | some target =>
      refine ⟨trivial, fun loaded => ?_⟩
      have toldLoaded := (toldPid_node _ .loadedKeyfile loaded).trans toldRead
      simp only [meets_branch]
      refine ⟨fun _ => toldLoaded, fun stale => ⟨fun _ => toldLoaded, fun demotes => ?_⟩⟩
      have ha : demote = true := by simpa using demotes
      refine meets_before.2 ((handoff_meets ha).imp fun after outcome handed => ?_)
      cases outcome with
      | error halt => exact handed
      | ok outcome =>
          obtain ⟨same, shown⟩ := handed
          have toldAfter := same.trans toldLoaded
          cases outcome with
          | error refused => exact toldAfter
          | ok _ =>
              obtain ⟨handoff, hello, rfl, other⟩ := shown rfl
              obtain ⟨own, rfl, keyed⟩ := Option.bind_eq_some_iff.1 pinned
              refine restartOn_meets toldAfter
                ⟨before, own, loaded, handoff, hello, ?_, ha, keyed, stale, other⟩
              subst asked
              simp

theorem stop_meets {before : Calls} {event : SupervisorEvent} {pid : Option Int}
    (told : toldPid calls = some pid) (asked : calls = before ++ [⟨.select, event⟩])
    (isSignal : event.isSignal = true) :
    (runMonitor demote flags args).Meets (Stays demote fun _ _ => False) calls (stop demote pid) := by
  have stops : ∀ calls, toldPid calls = some pid → SignalAsked demote calls →
      (runMonitor demote flags args).Meets (Stays demote fun _ (_ : Empty) => False) calls
        ((gracefulShutdown pid).bind fun _ => .fail (.exit 0)) := by
    intro calls told asked
    refine (gracefulShutdown_meets told (Or.inl asked)).before fun after _ stopped => ?_
    obtain ⟨stopped, split, down⟩ := stopped
    exact .asked calls stopped split asked down
  simp only [stop, meets_branch]
  refine ⟨fun demotes => ?_, fun keeps => ?_⟩
  · refine (demoteIfPrimary_meets demotes).before fun after _ handed => ?_
    obtain ⟨handoff, split, handed⟩ := handed
    have toldAfter : toldPid after = some pid := by rw [split, toldPid_handedOff handed, told]
    refine stops after toldAfter ⟨before, event, handoff, ?_, isSignal, by rwa [if_pos demotes]⟩
    rw [split, asked, List.append_assoc]
    rfl
  · exact stops calls told ⟨before, event, [], asked, isSignal, if_neg keeps ▸ rfl⟩

/-- The loop keeps to what the run monitor allows, by induction on its rounds. -/
theorem superviseLoop_meets {rounds : Nat} {pid : Option Int} (told : toldPid calls = some pid) :
    (runMonitor demote flags args).Meets (Stays demote fun _ _ => False) calls
      (superviseLoop demote flags args rounds pid) := by
  induction rounds generalizing calls pid with
  | zero => exact .unfinished
  | succ rounds ih =>
      refine ⟨trivial, fun event => ?_⟩
      have toldStill := (toldPid_append_singleton calls ⟨.select, event⟩).trans told
      cases event with
      | restartNotified => exact (restart_meets toldStill rfl).before fun _ _ toldNow => ih toldNow
      | exited status => exact .died calls status _ rfl rfl (exitCode_ne_zero status)
      | sigterm => exact stop_meets toldStill rfl rfl
      | sigint => exact stop_meets toldStill rfl rfl

theorem supervise_meets {rounds : Nat} :
    (runMonitor demote flags args).Meets (Stays demote fun _ _ => False) []
      (supervise demote flags args rounds) := by
  simp only [supervise, perform, Program.call, Program.bind_eq, Program.perform_bind,
    Program.done_bind, meets_perform, meets_before, history_allows, history_learn]
  refine ⟨trivial, fun registered => orHalt_meets rfl ?_ ?_⟩
  · rintro text rfl
    exact .registering text
  · rintro rfl
    exact ⟨trivial, fun id => superviseLoop_meets (toldPid_append_singleton ..)⟩

end Branches

/-! ### The runs of the supervisor -/

section Runs

variable {demote : Bool} {flags args : List String} {rounds : Nat} {calls : Calls}

/-- Mongod is stopped only when a signal asked for it, after the attempt to hand the primary role off, or
    for a restart on the pinned keyfile while it was not a primary. It is started again, and the keyfile
    recorded as loaded, only after such a stop, with the flags it had. A step-down is asked of a primary
    only. -/
theorem supervisor_acts {call : SupervisorCall} {next : call.Reply → Task Empty}
    (ran : (supervise demote flags args rounds).Runs calls (.perform call next)) :
    Acts demote flags args calls call :=
  (supervise_meets.history ran).1

def secondary : Hello := { (default : Hello) with isWritablePrimary := false }

/-- A restart on a member that is no primary, up to the spawn of the next mongod. -/
def rotationCalls : Calls :=
  [⟨.registerSignals, .ok ()⟩, ⟨.childId, some 7⟩, ⟨.select, .restartNotified⟩,
    ⟨.node .readPin, some { password := "pw", keyfile := some "new" }⟩,
    ⟨.node .loadedKeyfile, some "old"⟩, ⟨.node .hello, .ok secondary⟩,
    ⟨.node .hello, .ok secondary⟩, ⟨.node (.writeKeyfileContent "new"), .ok ()⟩,
    ⟨.signalMongod 7, ()⟩, ⟨.waitMongod, some (.ok (some 0))⟩]

/-- A restart for the pinned keyfile: mongod is spawned again once the one before it ended. -/
theorem rotation_respawns : Acts true [] [] rotationCalls (.spawnMongod [] []) := by
  obtain ⟨next, ran⟩ : ∃ next, (supervise true [] [] 1).Runs rotationCalls
      (.perform (.spawnMongod [] []) next) :=
    ⟨_, .cons (.cons (.cons (.cons (.cons (.cons (.cons (.cons (.cons (.cons (.nil _))))))))))⟩
  exact supervisor_acts ran

/-- The process exits with 0 only when a signal asked for it and mongod was stopped, with another code only
    when mongod ended by itself, and with an error only from the call that failed last. -/
theorem supervisor_exits {halt : Halt}
    (ran : (supervise demote flags args rounds).Runs calls (.fail halt)) : Exits demote calls halt :=
  supervise_meets.history ran

/-- A mongod that ends by itself with 0 makes the process fail. -/
theorem clean_exit_fails :
    Exits false [⟨.registerSignals, .ok ()⟩, ⟨.childId, some 7⟩, ⟨.select, .exited (.ok (some 0))⟩]
      (.exit 1) := by
  have ran : (supervise false [] [] 1).Runs
      [⟨.registerSignals, .ok ()⟩, ⟨.childId, some 7⟩, ⟨.select, .exited (.ok (some 0))⟩]
      (.fail (.exit 1)) := .cons (.cons (.cons (.nil _)))
  exact supervisor_exits ran

end Runs

end MongoHa.Supervisor
