/-
Module: MongoHa.Wrapper.SwitchoverHandler
Layer: Wrapper
Purpose: The handler of `POST /switchover` in `health_server.rs` as a program over its calls, with what it
  answers. The deadline around it drops it at a call, so what was asked so far stays asked; the time for a
  promotion runs out in a poll or in the pause after it. A loop is followed for `rounds` turns at most,
  and log lines are left out.
Imports: MongoHa.Foundations.Processes, MongoHa.Wrapper.PeerExchange, MongoHa.Wrapper.SwitchoverClock
Trusted boundary: human-reviewed spec
Main exports: SwitchoverCall, freezeEach, stepDownUntilSettled, promoted, handOver, switchover,
  Answered
Open obligations: none
-/
import MongoHa.Foundations.Processes
import MongoHa.Wrapper.PeerExchange
import MongoHa.Wrapper.SwitchoverClock

namespace MongoHa.Switchover

open Foundations

/-- The calls of the handler: those of its own mongod, and those it makes of other members as the root
    user. -/
inductive SwitchoverCall where
  /-- The own mongod's `hello` and status. -/
  | hello
  | rsStatus
  /-- `active_password`, when the connection to a member is made. -/
  | activePassword
  | freeze (host password : String) (secs : Nat)
  | stepDown (host password : String) (secs catchUpSecs : Nat)
  /-- `hello` while the promotion is awaited; none when its time is up. -/
  | pollHello
  /-- The pause between two polls: whether there is time left. -/
  | pollPause
deriving DecidableEq

abbrev SwitchoverCall.Reply : SwitchoverCall → Type
  | .hello => MongoResult Hello
  | .rsStatus => MongoResult RsStatus
  | .activePassword => String
  | .freeze _ _ _ => MongoResult Unit
  | .stepDown _ _ _ _ => MongoResult Unit
  | .pollHello => Option (MongoResult Hello)
  | .pollPause => Bool

/-- How a handler ends without an answer of success. -/
inductive SwitchoverError where
  | refused (text : String)
  /-- The loops were not followed to their end. -/
  | unfinished
deriving Repr, DecidableEq

abbrev Task (α : Type) := Program SwitchoverCall.Reply SwitchoverError α

def perform (call : SwitchoverCall) : Task call.Reply := Program.call call

def orRefuse {α : Type} : MongoResult α → Task α
  | .ok value => .done value
  | .error failure => .fail (.refused failure.text)

/-- A member that cannot be reached is only logged. -/
def freezeEach (secs : Nat) : List String → Task Unit
  | [] => pure ()
  | host :: rest => do
      let password ← perform .activePassword
      let _ ← perform (.freeze host password secs)
      freezeEach secs rest

/-- Ask until the primary does anything else than waiting out the catch-up window. -/
def stepDownUntilSettled (host password : String) : Nat → Task (MongoResult Unit)
  | 0 => .fail .unfinished
  | rounds + 1 => do
      let asked ← perform (.stepDown host password freezeSecs catchupSecs)
      match asked with
      | .ok () => pure (.ok ())
      | .error failure =>
          if failure.code = some Codes.exceededTimeLimit then
            stepDownUntilSettled host password rounds
          else pure (.error failure)

def saysPrimary : MongoResult Hello → Bool
  | .ok hello => hello.isWritablePrimary
  | .error _ => false

/-- Whether the own node takes over in time. -/
def promoted : Nat → Task Bool
  | 0 => .fail .unfinished
  | rounds + 1 => do
      let polled ← perform .pollHello
      match polled with
      | none => pure false
      | some answered =>
          if saysPrimary answered then pure true
          else do
            let timeLeft ← perform .pollPause
            if timeLeft then promoted rounds else pure false

/-- A refused step-down is logged, and then nobody has won. -/
def awaitPromotion (rounds : Nat) : MongoResult Unit → Task Bool
  | .ok () => promoted rounds
  | .error _ => pure false

def lost : String := "this node did not become primary after the step-down"

/-- From the plan on: the freezes, the step-down, their lifting, and the wait for the promotion. -/
def handOver (rounds : Nat) (plan : SwitchoverPlan) : Task Bool := do
  freezeEach freezeSecs plan.others
  let password ← perform .activePassword
  let stepped ← stepDownUntilSettled plan.primaryHost password rounds
  let won ← awaitPromotion rounds stepped
  freezeEach 0 plan.others
  if won then pure false else .fail (.refused lost)

/-- The future under the deadline: whether the node was the primary already. -/
def switchover (me : String) (rounds : Nat) : Task Bool := do
  let hello ← (perform .hello).bind orRefuse
  if hello.isWritablePrimary then pure true
  else do
    let status ← (perform .rsStatus).bind orRefuse
    match switchoverPlan me hello status with
    | .error text => .fail (.refused text)
    | .ok plan => handOver rounds plan

/-! ### The answers -/

def finishedReply : Bool → HttpResponse
  | true => .text StatusCode.ok "already primary"
  | false => .text StatusCode.ok "switchover complete"

def refusedReply (text : String) : HttpResponse :=
  .text StatusCode.serviceUnavailable ("switchover refused: " ++ text)

def timedOutReply : HttpResponse :=
  .text StatusCode.serviceUnavailable "switchover timed out after 45s"

abbrev Calls := List ((call : SwitchoverCall) × call.Reply)

/-- What a request on a member of a set is answered, after these calls. -/
inductive Answered (me : String) (calls : Calls) : HttpResponse → Prop where
  | finished {rounds : Nat} {already : Bool} (ran : (switchover me rounds).Runs calls (.done already)) :
      Answered me calls (finishedReply already)
  | refused {rounds : Nat} {text : String}
      (ran : (switchover me rounds).Runs calls (.fail (.refused text))) :
      Answered me calls (refusedReply text)
  /-- The deadline passes while the next call is under way. -/
  | timedOut {rounds : Nat} {call : SwitchoverCall} {next : call.Reply → Task Bool}
      (ran : (switchover me rounds).Runs calls (.perform call next)) : Answered me calls timedOutReply

end MongoHa.Switchover
