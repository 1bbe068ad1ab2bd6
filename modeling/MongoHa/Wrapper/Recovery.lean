/-
Module: MongoHa.Wrapper.Recovery
Layer: Wrapper
Purpose: The recovery of the pooled client in `mongo.rs`: what a failed command says about the client,
  the policy that decides on a rebuild, and `Mongo::recovering` as a machine whose every step is one
  event of one of its callers. The policy and the pool generation are shared; between two events of a
  caller any others may come. What a command answers depends on the client it runs on, which is its
  pool generation.
Imports: Mathlib.Logic.Function.Basic, MongoHa.Wrapper.Config
Trusted boundary: human-reviewed spec
Main exports: CommandError, Failure, classify, RecoveryPolicy, RecoveryPolicy.onFailure,
  RecoveryPolicy.windowOpen, RecoveryPolicy.arm_cases, RecoveryPolicy.onFailure_auth, Call, callStep,
  Callers, recoveringStep
Open obligations: none
-/
import Mathlib.Logic.Function.Basic
import MongoHa.Wrapper.Config

namespace MongoHa

/-! ### Failures -/

/-- The kinds of a failed command that `classify` tells apart. -/
inductive CommandError where
  | timedOut
  | authentication
  | command (code : Int)
  | serverSelection
  | io
  | connectionPoolCleared
  | other (text : String)
deriving Repr, DecidableEq, Inhabited

namespace Codes

def unauthorized : Int := 13

def authenticationFailed : Int := 18

end Codes

/-- What a failed command on the pooled client says about the client itself. -/
inductive Failure where
  /-- The connection is not (or no longer) authenticated. -/
  | auth
  /-- The command never got a server answer. -/
  | transport
  /-- The server answered with a verdict; the client works. -/
  | verdict
deriving Repr, DecidableEq, Inhabited

/-- `classify`: which failures of a command are the connection's and which the credential's. -/
def classify : CommandError → Failure
  | .timedOut => .transport
  | .authentication => .auth
  | .command code =>
      if code = Codes.unauthorized ∨ code = Codes.authenticationFailed then .auth else .verdict
  | .serverSelection => .transport
  | .io => .transport
  | .connectionPoolCleared => .transport
  | .other _ => .verdict

/-! ### The policy -/

def rebuildBackoffMin : Duration := .fromSecs 30

def rebuildBackoffMax : Duration := .fromSecs 300

def transportFailuresBeforeRebuild : Nat := 5

/-- What the pool remembers of its failures and its last rebuild. -/
structure RecoveryPolicy where
  transportFailures : Nat
  backoff : Duration
  /-- The kind the last rebuild was for, and when another rebuild for that kind may happen. -/
  pending : Option (Failure × Instant)
deriving Repr, DecidableEq, Inhabited

namespace RecoveryPolicy

def new : RecoveryPolicy :=
  { transportFailures := 0, backoff := rebuildBackoffMin, pending := none }

/-- Any answer proves the transport; only an authenticated one proves the credential. -/
def provenPending (authenticated : Bool) : Option (Failure × Instant) → Option (Failure × Instant)
  | some (.transport, _) => none
  | some window => if authenticated then none else some window
  | none => none

def proven (policy : RecoveryPolicy) (authenticated : Bool) : RecoveryPolicy :=
  let pending := provenPending authenticated policy.pending
  { transportFailures := 0
    backoff := if pending.isNone then rebuildBackoffMin else policy.backoff
    pending := pending }

def onSuccess (policy : RecoveryPolicy) (authenticated : Bool) : RecoveryPolicy :=
  policy.proven authenticated

/-- Arm a window for a rebuild of this kind, unless one for it is still open. -/
def arm (policy : RecoveryPolicy) (failure : Failure) (now : Instant) : RecoveryPolicy × Bool :=
  let armed (backoff : Duration) : RecoveryPolicy × Bool :=
    ({ transportFailures := 0, backoff := backoff, pending := some (failure, now + backoff) }, true)
  match policy.pending with
  | some (kind, until_) =>
      if kind = failure then
        if now < until_ then (policy, false)
        else armed (min (policy.backoff * 2) rebuildBackoffMax)
      else armed rebuildBackoffMin
  | none => armed rebuildBackoffMin

/-- Whether this failure should rebuild the client now. -/
def onFailure (policy : RecoveryPolicy) (failure : Failure) (authenticated : Bool) (now : Instant) :
    RecoveryPolicy × Bool :=
  match failure with
  | .verdict => (policy.proven authenticated, false)
  | .transport =>
      let counted := { policy with transportFailures := policy.transportFailures + 1 }
      if counted.transportFailures < transportFailuresBeforeRebuild then (counted, false)
      else counted.arm .transport now
  | .auth => policy.arm .auth now

/-- Whether a window for authentication failures is still open. -/
def authWindowOpen (policy : RecoveryPolicy) (now : Instant) : Bool :=
  match policy.pending with
  | some (.auth, until_) => now < until_
  | _ => false

/-- Whether a window for failures of this kind is still open. -/
def windowOpen (policy : RecoveryPolicy) (failure : Failure) (now : Instant) : Bool :=
  match policy.pending with
  | some (kind, until_) => decide (kind = failure) && decide (now < until_)
  | none => false

variable {policy : RecoveryPolicy} {failure : Failure} {authenticated : Bool} {now : Instant}

theorem authWindowOpen_eq : policy.authWindowOpen now = policy.windowOpen .auth now := by
  unfold authWindowOpen windowOpen
  cases policy.pending with
  | none => rfl
  | some window =>
      obtain ⟨kind, until_⟩ := window
      cases kind <;> simp

/-- Arming holds back while a window of the kind is open. Otherwise it rebuilds, counts anew and leaves a
    window that lasts at least the shortest backoff. -/
theorem arm_cases :
    (policy.windowOpen failure now = true ∧ policy.arm failure now = (policy, false)) ∨
      (policy.windowOpen failure now = false ∧ ∃ wait,
        (rebuildBackoffMin ≤ policy.backoff → rebuildBackoffMin ≤ wait) ∧
        policy.arm failure now =
          ({ transportFailures := 0, backoff := wait, pending := some (failure, now + wait) }, true)) := by
  have doubled : rebuildBackoffMin ≤ policy.backoff →
      rebuildBackoffMin ≤ min (policy.backoff * 2) rebuildBackoffMax := fun enough =>
    Nat.le_min.2 ⟨Nat.le_trans enough (Nat.le_mul_of_pos_right _ (by decide)), by decide⟩
  unfold arm windowOpen
  cases policy.pending with
  | none => exact Or.inr ⟨rfl, rebuildBackoffMin, fun _ => Nat.le_refl _, rfl⟩
  | some window =>
      obtain ⟨kind, until_⟩ := window
      by_cases same : kind = failure
      · by_cases early : now < until_
        · exact Or.inl (by simp [same, early])
        · exact Or.inr ⟨by simp [early], _, doubled, by simp [same, early]⟩
      · exact Or.inr ⟨by simp [same], rebuildBackoffMin, fun _ => Nat.le_refl _, by simp [same]⟩

theorem arm_rebuilds : (policy.arm failure now).2 = !policy.windowOpen failure now := by
  rcases @arm_cases policy failure now with ⟨opened, held⟩ | ⟨closed, wait, -, armed⟩
  · rw [opened, held]
    rfl
  · rw [closed, armed]
    rfl

/-- An authentication failure rebuilds exactly when no window for one is open. -/
theorem onFailure_auth :
    (policy.onFailure .auth authenticated now).2 = !policy.authWindowOpen now := by
  rw [authWindowOpen_eq, onFailure, arm_rebuilds]

end RecoveryPolicy

/-! ### The callers of `recovering` -/

/-- Where a call of `recovering` is. A client is named by its pool generation. -/
inductive Call (α : Type*) where
  | begins
  | running (client : Nat)
  | failed (generation : Nat) (error : CommandError)
  | rebuilding (generation : Nat) (error : CommandError)
  | retaking
  | retrying (client : Nat)
  | succeeded (value : α)
  | refused (error : CommandError)
  | returned (result : Except CommandError α)
deriving Repr

/-- The pool generation a rebuild leaves: a caller that lost the race does nothing. -/
def rebuild (generation observed : Nat) : Nat :=
  if generation ≠ observed then generation else generation + 1

/-- What a call and the state it shares with the others are after its next event. -/
structure CallStep (α : Type*) where
  policy : RecoveryPolicy
  generation : Nat
  call : Call α

/-- One event of a call of `recovering`, at this reading of the clock. -/
def callStep {α : Type*} (authenticated : Bool) (answer : Nat → Except CommandError α) (now : Instant)
    (policy : RecoveryPolicy) (generation : Nat) : Call α → CallStep α
  | .begins => { policy, generation, call := .running generation }
  | .running client =>
      match answer client with
      | .ok value => { policy, generation, call := .succeeded value }
      | .error error => { policy, generation, call := .failed client error }
  | .failed observed error =>
      let noted := policy.onFailure (classify error) authenticated now
      { policy := noted.1
        generation := generation
        call := if noted.2 then .rebuilding observed error else .returned (.error error) }
  | .rebuilding observed error =>
      { policy := policy
        generation := rebuild generation observed
        call := if classify error ≠ Failure.auth then .returned (.error error) else .retaking }
  | .retaking => { policy, generation, call := .retrying generation }
  | .retrying client =>
      match answer client with
      | .ok value => { policy, generation, call := .succeeded value }
      | .error error => { policy, generation, call := .refused error }
  | .succeeded value =>
      { policy := policy.onSuccess authenticated, generation, call := .returned (.ok value) }
  | .refused error =>
      { policy := (policy.onFailure (classify error) authenticated now).1
        generation := generation
        call := .returned (.error error) }
  | .returned result => { policy, generation, call := .returned result }

/-- The shared policy and pool generation, and the calls in progress. -/
structure Callers (ι α : Type*) where
  policy : RecoveryPolicy
  generation : Nat
  call : ι → Call α

/-- The next event of one caller, at this reading of the clock. -/
def recoveringStep {ι α : Type*} [DecidableEq ι] (authenticated : ι → Bool)
    (answer : ι → Nat → Except CommandError α) (s : Callers ι α) (event : ι × Instant) :
    Callers ι α :=
  let moved := callStep (authenticated event.1) (answer event.1) event.2 s.policy s.generation
    (s.call event.1)
  { policy := moved.policy
    generation := moved.generation
    call := Function.update s.call event.1 moved.call }

end MongoHa
