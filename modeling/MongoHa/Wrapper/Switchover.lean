/-
Module: MongoHa.Wrapper.Switchover
Layer: Wrapper
Purpose: `POST /switchover` of `health_server.rs` and the set it acts on. `switchoverPlan` is what a run
  computes from the replies of its own mongod: the primary to step down and the members to freeze. A
  `SwitchStep` is one command of one run, an election, the deadline of a run, or time passing; the runs
  share the freezes and step-down refusals of the members, and nothing serializes them.
Imports: Mathlib.Logic.Function.Basic, MongoHa.Wrapper.Mongo
Trusted boundary: human-reviewed spec
Main exports: freezeSecs, SwitchoverPlan, switchoverPlan, SwitchPhase, SwitchState, SwitchLabel,
  SwitchStep, mayRun, own_notMem_others
Open obligations: none
-/
import Mathlib.Logic.Function.Basic
import MongoHa.Wrapper.Mongo

namespace MongoHa

open Foundations.RustStr

/-! ### The plan of a run -/

/-- How long the other secondaries stay frozen, and how long the demoted primary refuses to run. -/
def freezeSecs : Nat := 30

/-- The primary to step down, and the members to keep out of the election. -/
structure SwitchoverPlan where
  primaryHost : String
  others : List String
deriving Repr, DecidableEq, Inhabited

/-- The plan from the status and the `hello` of the own mongod, which is not the writable primary. -/
def switchoverPlan (me : String) (hello : Hello) : RsStatus → Except String SwitchoverPlan
  | .active _ _ _ members _ =>
      match ((members.find? fun m => m.state == States.primary).map RsMember.host).or hello.primary with
      | none => .error "no primary to hand off from"
      | some primaryHost =>
          .ok
            { primaryHost := primaryHost
              others :=
                ((members.filter fun m =>
                  !m.isSelf && !eqIgnoreAsciiCase m.host primaryHost).filter fun m =>
                    !eqIgnoreAsciiCase m.host me).map RsMember.host }
  | _ => .error "this node is not a replica set member"

/-- A run never freezes its own node. -/
theorem own_notMem_others {me : String} {hello : Hello} {status : RsStatus} {plan : SwitchoverPlan}
    (planned : switchoverPlan me hello status = .ok plan) : me ∉ plan.others := by
  unfold switchoverPlan at planned
  split at planned
  · split at planned
    · cases planned
    · cases planned
      intro member
      obtain ⟨m, kept, same⟩ := List.mem_map.1 member
      have other := (List.mem_filter.1 kept).2
      simp [same, eqIgnoreAsciiCase] at other
  · cases planned

/-- Only a member of the set has a plan. -/
theorem active_of_planned {me : String} {hello : Hello} {status : RsStatus} {plan : SwitchoverPlan}
    (planned : switchoverPlan me hello status = .ok plan) : status ≠ .notAMember := by
  rintro rfl
  cases planned

/-! ### The set -/

/-- Where a run of `switchover` is. -/
inductive SwitchPhase where
  | begins
  /-- `hello` told it that its node is not the primary. -/
  | greeted (hello : Hello)
  /-- It has these members left to freeze; with none left it asks for the step-down. -/
  | freezing (plan : SwitchoverPlan) (left : List String)
  | waiting (plan : SwitchoverPlan)
  | unfreezing (left : List String) (won : Bool)
  | ended
deriving Repr, DecidableEq, Inhabited

/-- Whether the run has still to succeed with its step-down. -/
def SwitchPhase.handsOff : SwitchPhase → Bool
  | .greeted _ => true
  | .freezing _ _ => true
  | _ => false

/-- The members of a set, as far as elections go, and the runs on them. -/
structure SwitchState (ρ : Type) where
  now : Instant
  primary : Option String
  frozenUntil : String → Instant
  /-- Until when a primary that stepped down refuses to seek election. -/
  refusesUntil : String → Instant
  phase : ρ → SwitchPhase

/-- A member that is neither frozen nor just stepped down may seek election. -/
def SwitchState.mayRun {ρ : Type} (s : SwitchState ρ) (host : String) : Prop :=
  s.frozenUntil host ≤ s.now ∧ s.refusesUntil host ≤ s.now

instance {ρ : Type} (s : SwitchState ρ) (host : String) : Decidable (s.mayRun host) :=
  inferInstanceAs (Decidable (_ ∧ _))

/-- Time passes, an election is won, or one run of a switchover makes a call that is answered, refused or
    lost. -/
inductive SwitchLabel (ρ : Type) where
  | tick (elapsed : Duration)
  | elect (host : String)
  | hello (run : ρ)
  | status (run : ρ)
  | freeze (run : ρ) (answered : Bool)
  | stepDown (run : ρ)
  | stepDownRefused (run : ρ)
  | promotionEnds (run : ρ) (won : Bool)
  | unfreeze (run : ρ) (answered : Bool)
  | deadline (run : ρ)

section Set

variable {ρ : Type} (hosts : List String) (node : ρ → String)

/-- The `hello` of a member. -/
def helloOn (s : SwitchState ρ) (host : String) : Hello :=
  { isWritablePrimary := s.primary == some host
    secondary := s.primary != some host
    setName := some "rs0"
    isreplicaset := false
    primary := s.primary }

/-- The status of a member: it reaches every other one, and all are caught up. -/
def statusOn (s : SwitchState ρ) (self : String) : RsStatus :=
  let state (host : String) : Int := if s.primary = some host then States.primary else 2
  let row (host : String) : RsMember :=
    { id := 0, host := host, state := state host
      stateStr := if s.primary = some host then "PRIMARY" else "SECONDARY"
      healthy := true, isSelf := host == self, optimeSecs := none }
  if self ∈ hosts then .active "rs0" (state self) "SECONDARY" (hosts.map row) none
  else .notAMember

/-- The phase the plan of a run leads to. -/
def plannedPhase (s : SwitchState ρ) (run : ρ) (hello : Hello) : SwitchPhase :=
  match switchoverPlan (node run) hello (statusOn hosts s (node run)) with
  | .ok plan => .freezing plan plan.others
  | .error _ => .ended

/-- The effect of `replSetFreeze` on a member: the primary refuses it. -/
def SwitchState.freeze (s : SwitchState ρ) (host : String) (secs : Nat) : SwitchState ρ :=
  if s.primary = some host then s
  else { s with frozenUntil := Function.update s.frozenUntil host (s.now + Duration.fromSecs secs) }

theorem phase_freeze (s : SwitchState ρ) (host : String) (secs : Nat) :
    (s.freeze host secs).phase = s.phase := by
  unfold SwitchState.freeze
  split <;> rfl

/-- The effect of a step-down that succeeds. -/
def SwitchState.stepDown (s : SwitchState ρ) (host : String) : SwitchState ρ :=
  { s with
    primary := none
    refusesUntil := Function.update s.refusesUntil host (s.now + Duration.fromSecs freezeSecs) }

variable [DecidableEq ρ]

def SwitchState.withPhase (s : SwitchState ρ) (run : ρ) (phase : SwitchPhase) : SwitchState ρ :=
  { s with phase := Function.update s.phase run phase }

@[simp] theorem phase_withPhase_self (s : SwitchState ρ) (run : ρ) (phase : SwitchPhase) :
    (s.withPhase run phase).phase run = phase :=
  Function.update_self ..

theorem phase_withPhase_of_ne (s : SwitchState ρ) {run other : ρ} (phase : SwitchPhase)
    (differs : other ≠ run) : (s.withPhase run phase).phase other = s.phase other :=
  Function.update_of_ne differs ..

/-- One step of the set while any number of switchovers run on it. -/
inductive SwitchStep (s : SwitchState ρ) : SwitchLabel ρ → SwitchState ρ → Prop where
  | tick (elapsed : Duration) : SwitchStep s (.tick elapsed) { s with now := s.now + elapsed }
  | elect {host : String} (member : host ∈ hosts) (vacant : s.primary = none) (runs : s.mayRun host) :
      SwitchStep s (.elect host) { s with primary := some host }
  | hello {run : ρ} (begins : s.phase run = .begins) :
      SwitchStep s (.hello run)
        (s.withPhase run
          (if (helloOn s (node run)).isWritablePrimary then .ended
          else .greeted (helloOn s (node run))))
  | status {run : ρ} {hello : Hello} (greeted : s.phase run = .greeted hello) :
      SwitchStep s (.status run) (s.withPhase run (plannedPhase hosts node s run hello))
  | freeze {run : ρ} {plan : SwitchoverPlan} {host : String} {left : List String} (answered : Bool)
      (freezing : s.phase run = .freezing plan (host :: left)) :
      SwitchStep s (.freeze run answered)
        ((if answered then s.freeze host freezeSecs else s).withPhase run (.freezing plan left))
  | stepDown {run : ρ} {plan : SwitchoverPlan} (freezing : s.phase run = .freezing plan [])
      (primary : s.primary = some plan.primaryHost) :
      SwitchStep s (.stepDown run) ((s.stepDown plan.primaryHost).withPhase run (.waiting plan))
  | stepDownRefused {run : ρ} {plan : SwitchoverPlan} (freezing : s.phase run = .freezing plan []) :
      SwitchStep s (.stepDownRefused run) (s.withPhase run (.unfreezing plan.others false))
  | promotionEnds {run : ρ} {plan : SwitchoverPlan} (won : Bool) (waiting : s.phase run = .waiting plan) :
      SwitchStep s (.promotionEnds run won) (s.withPhase run (.unfreezing plan.others won))
  | unfreeze {run : ρ} {host : String} {left : List String} {won : Bool} (answered : Bool)
      (unfreezing : s.phase run = .unfreezing (host :: left) won) :
      SwitchStep s (.unfreeze run answered)
        ((if answered then s.freeze host 0 else s).withPhase run (.unfreezing left won))
  | deadline {run : ρ} : SwitchStep s (.deadline run) (s.withPhase run .ended)

end Set

end MongoHa
