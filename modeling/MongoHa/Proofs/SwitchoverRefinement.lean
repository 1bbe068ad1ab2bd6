/-
Module: MongoHa.Proofs.SwitchoverRefinement
Layer: Proofs
Purpose: The handlers of any number of switchovers on one set refine the machine of `Wrapper.Switchover`.
  The members answer as the machine has them, or not at all, elections and time go on beside the handlers,
  and a handler may be dropped at any call. What a handler knows is its phase in the machine.
Imports: MongoHa.Proofs.Electability, MongoHa.Wrapper.SwitchoverHandler
Trusted boundary: none (fully proved)
Main exports: Handling, phaseMonitor, MemberSet, handlers, switchovers_refine, freezing_handler_refined
Open obligations: none
-/
import MongoHa.Proofs.Electability
import MongoHa.Wrapper.SwitchoverHandler

namespace MongoHa.Switchover

open Foundations
open Foundations.Monitor

/-! ### What a handler knows -/

/-- The node of a handler, and its phase. -/
structure Handling where
  me : String
  phase : SwitchPhase

def afterHello : MongoResult Hello → SwitchPhase
  | .error _ => .ended
  | .ok hello => if hello.isWritablePrimary then .ended else .greeted hello

def afterStatus (me : String) (hello : Hello) : MongoResult RsStatus → SwitchPhase
  | .error _ => .ended
  | .ok status =>
      match switchoverPlan me hello status with
      | .ok plan => .freezing plan plan.others
      | .error _ => .ended

def afterStepDown (plan : SwitchoverPlan) : MongoResult Unit → SwitchPhase
  | .ok () => .waiting plan
  | .error failure =>
      if failure.code = some Codes.exceededTimeLimit then .freezing plan []
      else .unfreezing plan.others false

def afterPoll (plan : SwitchoverPlan) : Option (MongoResult Hello) → SwitchPhase
  | none => .unfreezing plan.others false
  | some answered =>
      if saysPrimary answered then .unfreezing plan.others true else .waiting plan

def afterFreeze : SwitchPhase → SwitchPhase
  | .freezing plan (_ :: left) => .freezing plan left
  | .unfreezing (_ :: left) won => .unfreezing left won
  | phase => phase

def nextPhase (me : String) : SwitchPhase → (call : SwitchoverCall) → call.Reply → SwitchPhase
  | _, .hello, answered => afterHello answered
  | .greeted hello, .rsStatus, answered => afterStatus me hello answered
  | phase, .freeze _ _ _, _ => afterFreeze phase
  | .freezing plan _, .stepDown _ _ _ _, answered => afterStepDown plan answered
  | .waiting plan, .pollHello, answered => afterPoll plan answered
  | .waiting plan, .pollPause, timeLeft =>
      if timeLeft then .waiting plan else .unfreezing plan.others false
  | phase, _, _ => phase

def Takes : SwitchPhase → SwitchoverCall → Prop
  | phase, .hello => phase = .begins
  | phase, .rsStatus => ∃ hello, phase = .greeted hello
  | _, .activePassword => True
  | phase, .freeze host _ secs =>
      (∃ plan left, phase = .freezing plan (host :: left) ∧ secs = freezeSecs) ∨
        ∃ left won, phase = .unfreezing (host :: left) won ∧ secs = 0
  | phase, .stepDown host _ _ _ => ∃ plan, phase = .freezing plan [] ∧ host = plan.primaryHost
  | phase, .pollHello => ∃ plan, phase = .waiting plan
  | phase, .pollPause => ∃ plan, phase = .waiting plan

/-- A handler makes the call of its phase. -/
def phaseMonitor : Monitor SwitchoverCall.Reply Handling where
  learn known call reply := { known with phase := nextPhase known.me known.phase call reply }
  allows known call := Takes known.phase call

section Handlers

variable {me : String} {plan : SwitchoverPlan}

/-- A handler may end anywhere: it fails, or it is answered. -/
abbrev Anyhow {α : Type} (post : Handling → α → Prop) : Handling → Except SwitchoverError α → Prop :=
  ending post fun _ _ => True

theorem freezing_follows {left : List String} :
    phaseMonitor.Meets (Anyhow fun after _ => after = ⟨me, .freezing plan []⟩)
      ⟨me, .freezing plan left⟩ (freezeEach freezeSecs left) := by
  induction left with
  | nil => rfl
  | cons host left ih => exact ⟨trivial, fun _ => ⟨Or.inl ⟨plan, left, rfl, rfl⟩, fun _ => ih⟩⟩

theorem unfreezing_follows {left : List String} {won : Bool} :
    phaseMonitor.Meets (Anyhow fun after _ => after = ⟨me, .unfreezing [] won⟩)
      ⟨me, .unfreezing left won⟩ (freezeEach 0 left) := by
  induction left with
  | nil => rfl
  | cons host left ih => exact ⟨trivial, fun _ => ⟨Or.inr ⟨left, won, rfl, rfl⟩, fun _ => ih⟩⟩

/-- Where the answer to the step-down leads. -/
def settledPhase (plan : SwitchoverPlan) : MongoResult Unit → SwitchPhase
  | .ok () => .waiting plan
  | .error _ => .unfreezing plan.others false

theorem stepDown_follows {password : String} {rounds : Nat} :
    phaseMonitor.Meets (Anyhow fun after answer => after = ⟨me, settledPhase plan answer⟩)
      ⟨me, .freezing plan []⟩ (stepDownUntilSettled plan.primaryHost password rounds) := by
  induction rounds with
  | zero => trivial
  | succ rounds ih =>
      simp only [stepDownUntilSettled, perform, Program.call, Program.bind_eq, Program.perform_bind,
        Program.done_bind, Program.pure_eq, meets_perform]
      refine ⟨⟨plan, rfl, rfl⟩, fun answer => ?_⟩
      cases answer with
      | ok _ => rfl
      | error failure =>
          simp only [phaseMonitor, nextPhase, afterStepDown]
          refine meets_branch.2 ⟨fun late => ?_, fun refused => ?_⟩
          · rw [if_pos late]
            exact ih
          · rw [if_neg refused]
            rfl

theorem promoted_follows {rounds : Nat} :
    phaseMonitor.Meets (Anyhow fun after won => after = ⟨me, .unfreezing plan.others won⟩)
      ⟨me, .waiting plan⟩ (promoted rounds) := by
  induction rounds with
  | zero => trivial
  | succ rounds ih =>
      simp only [promoted, perform, Program.call, Program.bind_eq, Program.perform_bind,
        Program.done_bind, Program.pure_eq, meets_perform]
      refine ⟨⟨plan, rfl⟩, fun polled => ?_⟩
      cases polled with
      | none => rfl
      | some answered =>
          simp only [phaseMonitor, nextPhase, afterPoll]
          refine meets_branch.2 ⟨fun primary => ?_, fun other => ?_⟩
          · rw [if_pos primary]
            rfl
          · rw [if_neg other]
            refine ⟨⟨plan, rfl⟩, fun timeLeft => ?_⟩
            cases timeLeft with
            | true => exact ih
            | false => rfl

theorem handOver_follows {rounds : Nat} :
    phaseMonitor.Meets (Anyhow fun _ _ => True) ⟨me, .freezing plan plan.others⟩
      (handOver rounds plan) := by
  unfold handOver
  refine freezing_follows.before fun _ _ frozen => ?_
  subst frozen
  refine ⟨trivial, fun password => stepDown_follows.before fun _ answer settled => ?_⟩
  subst settled
  have awaited : phaseMonitor.Meets
      (Anyhow fun after won => after = ⟨me, .unfreezing plan.others won⟩)
      ⟨me, settledPhase plan answer⟩ (awaitPromotion rounds answer) := by
    cases answer with
    | ok _ => exact promoted_follows
    | error failure => rfl
  refine awaited.before fun _ won lifting => ?_
  subst lifting
  refine unfreezing_follows.before fun _ _ _ => ?_
  cases won <;> trivial

theorem switchover_follows {rounds : Nat} :
    phaseMonitor.Meets (Anyhow fun _ _ => True) ⟨me, .begins⟩ (switchover me rounds) := by
  simp only [switchover, perform, Program.call, Program.bind_eq, Program.perform_bind,
    Program.done_bind, Program.pure_eq, meets_perform, meets_before]
  refine ⟨rfl, fun answered => ?_⟩
  cases answered with
  | error failure => trivial
  | ok hello =>
      simp only [phaseMonitor, nextPhase, afterHello]
      refine meets_branch.2 ⟨fun _ => trivial, fun secondary => ?_⟩
      rw [if_neg secondary]
      refine ⟨⟨hello, rfl⟩, fun answered => ?_⟩
      cases answered with
      | error failure => trivial
      | ok status =>
          simp only [Program.done_bind, orRefuse, afterStatus]
          cases switchoverPlan me hello status with
          | error text => trivial
          | ok plan => exact handOver_follows

end Handlers

/-! ### The handlers on one set -/

/-- The members of a set by themselves. -/
abbrev Members := SwitchState Empty

def withRuns {ρ : Type} (members : Members) (phase : ρ → SwitchPhase) : SwitchState ρ :=
  { now := members.now, primary := members.primary, frozenUntil := members.frozenUntil
    refusesUntil := members.refusesUntil, phase := phase }

/-- The members, and which requests have come. -/
structure MemberSet (ρ : Type) where
  members : Members
  came : ρ → Bool

section Answers

variable (hosts : List String) (me : String)

/-- How the members answer. A command that fails may have worked all the same. -/
inductive Answers (s : Members) : (call : SwitchoverCall) → call.Reply → Members → Prop where
  | hello : Answers s .hello (.ok (helloOn s me)) s
  | helloFails (failure : MongoError) : Answers s .hello (.error failure) s
  | status : Answers s .rsStatus (.ok (statusOn hosts s me)) s
  | statusFails (failure : MongoError) : Answers s .rsStatus (.error failure) s
  | password (password : String) : Answers s .activePassword password s
  | freeze (host password : String) (secs : Nat) (answer : MongoResult Unit) :
      Answers s (.freeze host password secs) answer (s.freeze host secs)
  | freezeFails (host password : String) (secs : Nat) (failure : MongoError) :
      Answers s (.freeze host password secs) (.error failure) s
  | stepDown {host : String} (password : String) (catchUpSecs : Nat) {answer : MongoResult Unit}
      (primary : s.primary = some host)
      (settled : ∀ failure, answer = .error failure → failure.code ≠ some Codes.exceededTimeLimit) :
      Answers s (.stepDown host password freezeSecs catchUpSecs) answer (s.stepDown host)
  | stepDownFails (host password : String) (secs catchUpSecs : Nat) (failure : MongoError) :
      Answers s (.stepDown host password secs catchUpSecs) (.error failure) s
  | poll : Answers s .pollHello (some (.ok (helloOn s me))) s
  | pollFails (failure : MongoError) : Answers s .pollHello (some (.error failure)) s
  | pollLate : Answers s .pollHello none s
  | pause (timeLeft : Bool) : Answers s .pollPause timeLeft s

end Answers

section Refinement

variable {ρ : Type} [DecidableEq ρ] {hosts : List String} {node : ρ → String}

/-- The handlers of all requests, each on its node with its own loops. -/
def handlers (hosts : List String) (node : ρ → String) :
    Surroundings SwitchoverCall.Reply SwitchoverError Bool ρ (MemberSet ρ) (String × Nat) where
  program input := switchover input.1 input.2
  starts s i input t :=
    s.came i = false ∧ input.1 = node i ∧ t = { s with came := Function.update s.came i true }
  answers s i call reply t :=
    ∃ members, Answers hosts (node i) s.members call reply members ∧ t = { s with members := members }
  ends s _ _ t := t = s
  moves s t :=
    (∃ elapsed, t = { s with members := { s.members with now := s.members.now + elapsed } }) ∨
      ∃ host ∈ hosts, s.members.primary = none ∧ s.members.mayRun host ∧
        t = { s with members := { s.members with primary := some host } }

/-- The phases of the machine. -/
def phases (came : ρ → Bool) (known : ρ → Option Handling) (i : ρ) : SwitchPhase :=
  match known i with
  | some mine => mine.phase
  | none => if came i then .ended else .begins

omit [DecidableEq ρ] in
theorem phases_known {came : ρ → Bool} {known : ρ → Option Handling} {i : ρ} {mine : Handling}
    (knows : known i = some mine) : phases came known i = mine.phase := by
  rw [phases, knows]

theorem phases_learn (came : ρ → Bool) (known : ρ → Option Handling) (i : ρ) (mine : Handling) :
    phases came (Function.update known i (some mine)) =
      Function.update (phases came known) i mine.phase := by
  funext j
  by_cases same : j = i
  · subst same
    simp [phases]
  · simp [phases, same]

theorem phases_end {came : ρ → Bool} (known : ρ → Option Handling) {i : ρ} (come : came i = true) :
    phases came (Function.update known i none) = Function.update (phases came known) i .ended := by
  funext j
  by_cases same : j = i
  · subst same
    simp [phases, come]
  · simp [phases, same]

/-- A handler that has just come stands where the machine has it from the start. -/
theorem phases_come {came : ρ → Bool} {known : ρ → Option Handling} {i : ρ} {me : String}
    (down : known i = none) (new : came i = false) :
    phases (Function.update came i true) (Function.update known i (some ⟨me, .begins⟩)) =
      phases came known := by
  funext j
  by_cases same : j = i
  · subst same
    simp [phases, down, new]
  · simp [phases, same]

/-- The machine reaches the set with the phases the handlers are in. -/
def Machine (hosts : List String) (node : ρ → String) (s : MemberSet ρ)
    (known : ρ → Option Handling) : Prop :=
  (switchovers hosts node fun _ _ => True).Reachable (withRuns s.members (phases s.came known)) ∧
    ∀ i mine, known i = some mine → mine.me = node i ∧ s.came i = true

omit [DecidableEq ρ] in
theorem withRuns_freeze (members : Members) (phase : ρ → SwitchPhase) (host : String) (secs : Nat) :
    withRuns (members.freeze host secs) phase = (withRuns members phase).freeze host secs := by
  have same : (withRuns members phase).primary = members.primary := rfl
  unfold SwitchState.freeze
  rw [same]
  split <;> rfl

/-- What one answer leads to, the machine reaches from where it was. -/
theorem machine_answers {members next : Members} {phase : ρ → SwitchPhase} {i : ρ}
    {call : SwitchoverCall} {reply : call.Reply} (takes : Takes (phase i) call)
    (answered : Answers hosts (node i) members call reply next)
    (reached : (switchovers hosts node fun _ _ => True).Reachable (withRuns members phase)) :
    (switchovers hosts node fun _ _ => True).Reachable
      (withRuns next (Function.update phase i (nextPhase (node i) (phase i) call reply))) := by
  have stays : (switchovers hosts node fun _ _ => True).Reachable
      (withRuns members (Function.update phase i (phase i))) := by
    rwa [Function.update_eq_self]
  have ended : (switchovers hosts node fun _ _ => True).Reachable
      (withRuns members (Function.update phase i .ended)) :=
    reached.take (.deadline i) trivial .deadline
  cases answered with
  | hello => exact reached.take (.hello i) trivial (.hello takes)
  | helloFails failure => exact ended
  | status =>
      obtain ⟨hello, greeted⟩ := takes
      rw [greeted]
      exact reached.take (.status i) trivial (.status greeted)
  | statusFails failure =>
      obtain ⟨hello, greeted⟩ := takes
      rw [greeted]
      exact ended
  | password password =>
      have same : nextPhase (node i) (phase i) .activePassword password = phase i := by
        cases phase i <;> rfl
      rwa [same]
  | freeze host password secs answer =>
      rcases takes with ⟨plan, left, freezing, rfl⟩ | ⟨left, won, unfreezing, rfl⟩
      · have moved := reached.take (.freeze i true) trivial (.freeze true freezing)
        rw [if_pos rfl, ← withRuns_freeze] at moved
        rw [freezing]
        exact moved
      · have moved := reached.take (.unfreeze i true) trivial (.unfreeze true unfreezing)
        rw [if_pos rfl, ← withRuns_freeze] at moved
        rw [unfreezing]
        exact moved
  | freezeFails host password secs failure =>
      rcases takes with ⟨plan, left, freezing, rfl⟩ | ⟨left, won, unfreezing, rfl⟩
      · rw [freezing]
        exact reached.take (.freeze i false) trivial (.freeze false freezing)
      · rw [unfreezing]
        exact reached.take (.unfreeze i false) trivial (.unfreeze false unfreezing)
  | @stepDown host password catchUpSecs answer primary settled =>
      obtain ⟨plan, freezing, rfl⟩ := takes
      have steppedDown := reached.take (.stepDown i) trivial (.stepDown freezing primary)
      rw [freezing]
      cases answer with
      | ok _ => exact steppedDown
      | error failure =>
          -- The handler does not learn that the primary stepped down.
          have given := steppedDown.take (.promotionEnds i false) trivial
            (.promotionEnds false (phase_withPhase_self ..))
          simp only [nextPhase, afterStepDown, if_neg (settled failure rfl)]
          rw [SwitchState.withPhase, SwitchState.withPhase, Function.update_idem] at given
          exact given
  | stepDownFails host password secs catchUpSecs failure =>
      obtain ⟨plan, freezing, rfl⟩ := takes
      rw [freezing] at stays ⊢
      simp only [nextPhase, afterStepDown]
      split
      · exact stays
      · exact reached.take (.stepDownRefused i) trivial (.stepDownRefused freezing)
  | poll =>
      obtain ⟨plan, waiting⟩ := takes
      rw [waiting] at stays ⊢
      simp only [nextPhase, afterPoll]
      split
      · exact reached.take (.promotionEnds i true) trivial (.promotionEnds true waiting)
      · exact stays
  | pollFails failure =>
      obtain ⟨plan, waiting⟩ := takes
      rw [waiting] at stays ⊢
      exact stays
  | pollLate =>
      obtain ⟨plan, waiting⟩ := takes
      rw [waiting]
      exact reached.take (.promotionEnds i false) trivial (.promotionEnds false waiting)
  | pause timeLeft =>
      obtain ⟨plan, waiting⟩ := takes
      rw [waiting] at stays ⊢
      cases timeLeft with
      | true => exact stays
      | false => exact reached.take (.promotionEnds i false) trivial (.promotionEnds false waiting)

theorem Machine.ends {s : MemberSet ρ} {known : ρ → Option Handling} {i : ρ} {mine : Handling}
    (machine : Machine hosts node s known) (knows : known i = some mine) :
    Machine hosts node s (Function.update known i none) := by
  obtain ⟨reached, own⟩ := machine
  refine ⟨?_, fun j other knowsOther => ?_⟩
  · rw [phases_end known (own i mine knows).2]
    exact reached.take (.deadline i) trivial .deadline
  · have differs : j ≠ i := by
      rintro rfl
      simp at knowsOther
    rw [Function.update_of_ne differs] at knowsOther
    exact own j other knowsOther

theorem handlers_uphold :
    (handlers hosts node).Upholds phaseMonitor (fun input => ⟨input.1, .begins⟩)
      (Anyhow fun _ _ => True) (Machine hosts node) where
  meets input := switchover_follows
  start := by
    rintro s t known i ⟨me, rounds⟩ ⟨reached, own⟩ down ⟨new, rfl, rfl⟩
    refine ⟨by rwa [phases_come down new], fun j mine knows => ?_⟩
    by_cases same : j = i
    · subst same
      rw [Function.update_self] at knows
      cases knows
      exact ⟨rfl, Function.update_self ..⟩
    · rw [Function.update_of_ne same] at knows
      obtain ⟨me, come⟩ := own j mine knows
      exact ⟨me, (Function.update_of_ne same ..).trans come⟩
  call := by
    rintro s t known i mine call reply ⟨reached, own⟩ knows takes ⟨members, answered, rfl⟩
    obtain ⟨me, come⟩ := own i mine knows
    refine ⟨?_, fun j other knowsOther => ?_⟩
    · have moved := machine_answers (by rw [phases_known knows]; exact takes) answered reached
      rw [phases_learn]
      rwa [phases_known knows, ← me] at moved
    · by_cases same : j = i
      · subst same
        rw [Function.update_self] at knowsOther
        cases knowsOther
        exact ⟨me, come⟩
      · rw [Function.update_of_ne same] at knowsOther
        exact own j other knowsOther
  finish machine knows _ ended := ended ▸ machine.ends knows
  kill machine knows ended := ended ▸ machine.ends knows
  move := by
    rintro s t known ⟨reached, own⟩ (⟨elapsed, rfl⟩ | ⟨host, member, vacant, runs, rfl⟩)
    · exact ⟨reached.take (.tick elapsed) trivial (.tick elapsed), own⟩
    · exact ⟨reached.take (.elect host) trivial (.elect member vacant runs), own⟩

/-- In every interleaving of any number of switchovers with elections, lost answers and deadlines, the
    machine reaches the members as they are, each handler in the phase whose calls it makes. -/
theorem switchovers_refine {s : Processes SwitchoverCall.Reply SwitchoverError Bool ρ (MemberSet ρ)}
    (reached : ((handlers hosts node).system fun start => ∀ i, start.came i = false).Reachable s) :
    ∃ phase : ρ → SwitchPhase,
      (switchovers hosts node fun _ _ => True).Reachable (withRuns s.shared.members phase) ∧
      (∀ i program, s.running i = some program →
        phaseMonitor.Meets (Anyhow fun _ _ => True) ⟨node i, phase i⟩ program) ∧
      ∀ i, s.running i = none → phase i = if s.shared.came i then .ended else .begins := by
  obtain ⟨known, ⟨machine, own⟩, informed⟩ := handlers_uphold.reachable (fun start new => by
    refine ⟨.init fun i => ?_, fun i mine knows => ?_⟩
    · simp [withRuns, phases, new i]
    · cases knows) reached
  refine ⟨_, machine, fun i program runs => ?_, fun i down => ?_⟩
  · obtain ⟨mine, knows, meets⟩ := (runs ▸ informed i).of_running
    rw [phases_known knows, ← (own i mine knows).1]
    exact meets
  · have unknown := (down ▸ informed i).of_down
    rw [phases, unknown]

end Refinement

/-! ### A handler on one of three -/

def trioMembers : Members where
  now := 0
  primary := some "mongo-1:27017"
  frozenUntil _ := 0
  refusesUntil _ := 0
  phase := Empty.elim

def loneNode (_ : Unit) : String := "mongo-2:27017"

/-- The calls of a handler on `mongo-2` until `mongo-3` is frozen. -/
def freezingCalls : List ((call : SwitchoverCall) × call.Reply) :=
  [⟨.hello, .ok (helloOn trioMembers "mongo-2:27017")⟩,
    ⟨.rsStatus, .ok (statusOn trio trioMembers "mongo-2:27017")⟩, ⟨.activePassword, "pw"⟩,
    ⟨.freeze "mongo-3:27017" "pw" freezeSecs, .ok ()⟩]

/-- A handler that has frozen the third member, seen as a run of the machine. -/
theorem freezing_handler_refined :
    ∃ phase : Unit → SwitchPhase, (switchovers trio loneNode fun _ _ => True).Reachable
      (withRuns (trioMembers.freeze "mongo-3:27017" freezeSecs) phase) := by
  obtain ⟨rest, ran⟩ : ∃ rest, (switchover "mongo-2:27017" 1).Runs freezingCalls rest :=
    ⟨_, .cons (.cons (.cons (.cons (.nil _))))⟩
  have begun : ((handlers trio loneNode).system fun start => ∀ i, start.came i = false).Reachable
      { shared := { members := trioMembers, came := fun _ => false }, running := fun _ => none } :=
    .init ⟨fun _ => rfl, fun _ => rfl⟩
  have starts : (handlers trio loneNode).starts { members := trioMembers, came := fun _ => false } ()
      ("mongo-2:27017", 1)
      { members := trioMembers, came := Function.update (fun _ => false) () true } := ⟨rfl, rfl, rfl⟩
  have come := begun.step (.start rfl starts)
  have answered : (handlers trio loneNode).AnswersAll ()
      { members := trioMembers, came := Function.update (fun _ => false) () true } freezingCalls
      { members := trioMembers.freeze "mongo-3:27017" freezeSecs
        came := Function.update (fun _ => false) () true } :=
    .cons ⟨_, .hello, rfl⟩ (.cons ⟨_, .status, rfl⟩ (.cons ⟨_, .password "pw", rfl⟩
      (.cons ⟨_, .freeze "mongo-3:27017" "pw" freezeSecs (.ok ()), rfl⟩ (.nil _))))
  have reached := Processes.reachable_runs ran answered (Function.update_self ..) come
  obtain ⟨phase, machine, -⟩ := switchovers_refine reached
  exact ⟨phase, machine⟩

end MongoHa.Switchover
