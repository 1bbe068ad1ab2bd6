/-
Module: MongoHa.Proofs.SwitchoverRuns
Layer: Proofs
Purpose: What a switchover asks of the members in every run, and what its answer tells. A run freezes the
  members its status showed beside its own node and the primary, steps down that primary once each of them
  was asked, and lifts every freeze it asked for before it answers, unless the deadline ends it first. The
  proofs follow the program with the monitor of its history.
Imports: MongoHa.Wrapper.SwitchoverHandler
Trusted boundary: none (fully proved)
Main exports: Planned, frozen, stepDowns, RanOut, Acts, SteppedDown, Won, Lifted, Progress, switchover_acts,
  lagging_step_down_repeated, switchover_answers, refused_step_down_lifts
Open obligations: none
-/
import MongoHa.Wrapper.SwitchoverHandler

namespace MongoHa.Switchover

open Foundations
open Foundations.Monitor

/-! ### What the calls of a run show -/

/-- The run found this plan: its own mongod was not the primary, and answered with its status. -/
def Planned (me : String) (plan : SwitchoverPlan) (calls : Calls) : Prop :=
  ∃ hello status rest, calls = ⟨.hello, .ok hello⟩ :: ⟨.rsStatus, .ok status⟩ :: rest ∧
    hello.isWritablePrimary = false ∧ switchoverPlan me hello status = .ok plan

def freezeAsked (secs : Nat) : (call : SwitchoverCall) × call.Reply → Option String
  | ⟨.freeze host _ for_, _⟩ => if for_ = secs then some host else none
  | _ => none

/-- The members asked to freeze for so long, in order; no time at all lifts a freeze. -/
def frozen (secs : Nat) (calls : Calls) : List String := calls.filterMap (freezeAsked secs)

def stepDownAnswer : (call : SwitchoverCall) × call.Reply → Option (MongoResult Unit)
  | ⟨.stepDown _ _ _ _, answer⟩ => some answer
  | _ => none

/-- What the primary answered to the step-downs it was asked for. -/
def stepDowns (calls : Calls) : List (MongoResult Unit) := calls.filterMap stepDownAnswer

/-- The primary waited out the catch-up window. -/
def RanOut (answer : MongoResult Unit) : Prop :=
  ∃ failure, answer = .error failure ∧ failure.code = some Codes.exceededTimeLimit

/-- The calls a run may make next. -/
def Acts (me : String) (calls : Calls) : SwitchoverCall → Prop
  | .freeze host _ secs => ∃ plan left, Planned me plan calls ∧
      ((secs = freezeSecs ∧ plan.others = frozen freezeSecs calls ++ host :: left ∧
          stepDowns calls = []) ∨
        (secs = 0 ∧ plan.others = frozen freezeSecs calls ∧ plan.others = frozen 0 calls ++ host :: left ∧
          ∃ answer ∈ stepDowns calls, ¬ RanOut answer))
  | .stepDown host _ secs catchUpSecs => secs = freezeSecs ∧ catchUpSecs = catchupSecs ∧
      ∃ plan, Planned me plan calls ∧ host = plan.primaryHost ∧ frozen freezeSecs calls = plan.others ∧
        frozen 0 calls = [] ∧ ∀ answer ∈ stepDowns calls, RanOut answer
  | .pollHello | .pollPause => .ok () ∈ stepDowns calls ∧ frozen 0 calls = []
  | _ => True

/-- The plan's primary stepped down, once every member of the plan had been asked to freeze. -/
def SteppedDown (me : String) (plan : SwitchoverPlan) (calls : Calls) : Prop :=
  ∃ before password after,
    calls = before ++ ⟨.stepDown plan.primaryHost password freezeSecs catchupSecs, .ok ()⟩ :: after ∧
      Planned me plan before ∧ frozen freezeSecs before = plan.others

/-- The own node was seen to be the primary after the step-down. -/
def Won (me : String) (calls : Calls) : Prop :=
  ∃ plan before hello after, calls = before ++ ⟨.pollHello, some (.ok hello)⟩ :: after ∧
    SteppedDown me plan before ∧ hello.isWritablePrimary = true

/-- What lifts a freeze: the password for the connection, and a freeze for no time. -/
def IsLift : SwitchoverCall → Prop
  | .activePassword => True
  | .freeze _ _ secs => secs = 0
  | _ => False

/-- The calls end with the lifts of all freezes that were asked for before, in their order. -/
def Lifted (calls : Calls) : Prop :=
  ∃ before lifts, calls = before ++ lifts ∧ frozen 0 before = [] ∧ (∀ call ∈ lifts, IsLift call.1) ∧
    frozen 0 lifts = frozen freezeSecs before

/-- How a run that fails ends. -/
def Fails (calls : Calls) : SwitchoverError → Prop
  | .refused _ => Lifted calls
  | .unfinished => True

/-! ### The stages of a run -/

/-- How far a run has come with its plan. -/
structure Progress (me : String) (plan : SwitchoverPlan) (froze lifted : List String)
    (stepped : List (MongoResult Unit)) (calls : Calls) : Prop where
  planned : Planned me plan calls
  froze : frozen freezeSecs calls = froze
  lifted : frozen 0 calls = lifted
  stepped : stepDowns calls = stepped

section Stages

variable {me : String} {plan : SwitchoverPlan} {froze lifted : List String}
  {stepped : List (MongoResult Unit)} {calls : Calls}

theorem Planned.append (planned : Planned me plan calls) (more : Calls) :
    Planned me plan (calls ++ more) := by
  obtain ⟨hello, status, rest, rfl, secondary, computed⟩ := planned
  exact ⟨hello, status, rest ++ more, rfl, secondary, computed⟩

/-- A run goes on by the members it asks and the step-downs it is answered. -/
theorem Progress.append (progress : Progress me plan froze lifted stepped calls) (more : Calls) :
    Progress me plan (froze ++ frozen freezeSecs more) (lifted ++ frozen 0 more)
      (stepped ++ stepDowns more) (calls ++ more) where
  planned := progress.planned.append more
  froze := by rw [frozen, List.filterMap_append, ← frozen, progress.froze, ← frozen]
  lifted := by rw [frozen, List.filterMap_append, ← frozen, progress.lifted, ← frozen]
  stepped := by rw [stepDowns, List.filterMap_append, ← stepDowns, progress.stepped, ← stepDowns]

/-- Calls that ask nothing of the other members. -/
theorem Progress.quiet (progress : Progress me plan froze lifted stepped calls) (more : Calls)
    (freezes : ∀ secs, frozen secs more = []) (steps : stepDowns more = []) :
    Progress me plan froze lifted stepped (calls ++ more) := by
  have grown := progress.append more
  rwa [freezes, freezes, steps, List.append_nil, List.append_nil, List.append_nil] at grown

/-- A step-down that was asked of the primary. -/
theorem Progress.stepDown (progress : Progress me plan froze lifted stepped calls)
    (host password : String) (answer : MongoResult Unit) :
    Progress me plan froze lifted (stepped ++ [answer])
      (calls ++ [⟨.stepDown host password freezeSecs catchupSecs, answer⟩]) := by
  have grown := progress.append [⟨.stepDown host password freezeSecs catchupSecs, answer⟩]
  have quiet : ∀ secs, frozen secs [⟨.stepDown host password freezeSecs catchupSecs, answer⟩] = [] :=
    fun _ => rfl
  rw [quiet, quiet, List.append_nil, List.append_nil] at grown
  exact grown

/-- A freeze that was lifted. -/
theorem Progress.lift (progress : Progress me plan froze lifted stepped calls)
    (host password : String) (answer : MongoResult Unit) :
    Progress me plan froze (lifted ++ [host]) stepped
      (calls ++ [⟨.freeze host password 0, answer⟩]) := by
  have grown := progress.append [⟨.freeze host password 0, answer⟩]
  have none_ : frozen freezeSecs [⟨.freeze host password 0, answer⟩] = [] := rfl
  have quiet : stepDowns [⟨.freeze host password 0, answer⟩] = [] := rfl
  rw [none_, quiet, List.append_nil, List.append_nil] at grown
  exact grown

theorem not_ranOut_ok : ¬ RanOut (.ok ()) := by
  rintro ⟨failure, impossible, -⟩
  cases impossible

theorem SteppedDown.append (steppedDown : SteppedDown me plan calls) (more : Calls) :
    SteppedDown me plan (calls ++ more) := by
  obtain ⟨before, password, after, rfl, planned, froze⟩ := steppedDown
  exact ⟨before, password, after ++ more, List.append_assoc .., planned, froze⟩

theorem Won.append (won : Won me calls) (more : Calls) : Won me (calls ++ more) := by
  obtain ⟨plan, before, hello, after, rfl, steppedDown, primary⟩ := won
  exact ⟨plan, before, hello, after ++ more, List.append_assoc .., steppedDown, primary⟩

/-- A run that has asked for no freeze has none to lift. -/
theorem lifted_of_unfrozen (froze : frozen freezeSecs calls = []) (lifted : frozen 0 calls = []) :
    Lifted calls :=
  ⟨calls, [], (List.append_nil calls).symm, lifted, fun _ member => (List.not_mem_nil member).elim,
    froze.symm⟩

/-- These calls after the others lift the freezes of these members. -/
def Lifts (start : Calls) (hosts : List String) (calls : Calls) : Prop :=
  ∃ lifts, calls = start ++ lifts ∧ (∀ call ∈ lifts, IsLift call.1) ∧ frozen 0 lifts = hosts

theorem lifts_snoc {start : Calls} {hosts : List String} (lifts : Lifts start hosts calls)
    (host password : String) (answer : MongoResult Unit) :
    Lifts start (hosts ++ [host])
      (calls ++ [⟨.activePassword, password⟩] ++ [⟨.freeze host password 0, answer⟩]) := by
  obtain ⟨before, rfl, only, same⟩ := lifts
  refine ⟨before ++ [⟨.activePassword, password⟩, ⟨.freeze host password 0, answer⟩], ?_, ?_, ?_⟩
  · simp
  · intro call member
    rcases List.mem_append.1 member with earlier | last
    · exact only call earlier
    · rcases List.mem_pair.1 last with rfl | rfl
      · trivial
      · exact rfl
  · rw [frozen, List.filterMap_append, ← frozen, same]
    rfl

abbrev runMonitor (me : String) : Monitor SwitchoverCall.Reply Calls := .history (Acts me)

/-- A part of a run that ends it only as a run may end. -/
abbrev Stays {α : Type} (post : Calls → α → Prop) :
    Calls → Except SwitchoverError α → Prop :=
  ending post Fails

/-- Members asked one after another; `inv` holds of those asked so far. -/
theorem freezeEach_meets {secs : Nat} (hosts : List String) (inv : List String → Calls → Prop)
    (allowed : ∀ asked host left calls password, hosts = asked ++ host :: left → inv asked calls →
      Acts me (calls ++ [⟨.activePassword, password⟩]) (.freeze host password secs))
    (kept : ∀ asked host calls password answer, inv asked calls →
      inv (asked ++ [host])
        (calls ++ [⟨.activePassword, password⟩] ++ [⟨.freeze host password secs, answer⟩]))
    {left : List String} :
    ∀ {asked : List String} {calls : Calls}, hosts = asked ++ left → inv asked calls →
      (runMonitor me).Meets (Stays fun after _ => inv hosts after) calls (freezeEach secs left) := by
  induction left with
  | nil =>
      intro asked calls split holds
      rw [List.append_nil] at split
      subst split
      exact holds
  | cons host left ih =>
      intro asked calls split holds
      refine ⟨trivial, fun password => ⟨allowed asked host left calls password split holds, ?_⟩⟩
      intro answer
      refine ih ?_ (kept asked host calls password answer holds)
      rw [split, List.append_assoc]
      rfl

theorem freeze_meets (begun : Progress me plan [] [] [] calls) :
    (runMonitor me).Meets (Stays fun after _ => Progress me plan plan.others [] [] after) calls
      (freezeEach freezeSecs plan.others) := by
  refine freezeEach_meets plan.others (fun asked after => Progress me plan asked [] [] after) ?_ ?_
    rfl begun
  · intro asked host left before password split progress
    have after := progress.quiet [⟨.activePassword, password⟩] (fun _ => rfl) rfl
    exact ⟨plan, left, after.planned, Or.inl ⟨rfl, by rw [after.froze, split], after.stepped⟩⟩
  · intro asked host before password answer progress
    have after := progress.quiet [⟨.activePassword, password⟩] (fun _ => rfl) rfl
    exact after.append [⟨.freeze host password freezeSecs, answer⟩]

/-- The step-down is settled, so the freezes go; what was won stays. -/
theorem lift_meets {answer : MongoResult Unit} {won : Bool} (member : answer ∈ stepped)
    (settled : ¬ RanOut answer) (progress : Progress me plan plan.others [] stepped calls)
    (shown : won = true → Won me calls) :
    (runMonitor me).Meets
      (Stays fun after _ => Lifted after ∧ (won = true → Won me after)) calls
      (freezeEach 0 plan.others) := by
  have asks : (runMonitor me).Meets
      (Stays fun after _ => Progress me plan plan.others plan.others stepped after ∧
        Lifts calls plan.others after) calls (freezeEach 0 plan.others) := by
    refine freezeEach_meets plan.others (fun asked after =>
      Progress me plan plan.others asked stepped after ∧ Lifts calls asked after) ?_ ?_ rfl
        ⟨progress, [], by simp, by simp, rfl⟩
    · rintro asked host left before password split ⟨progress, -⟩
      have after := progress.quiet [⟨.activePassword, password⟩] (fun _ => rfl) rfl
      refine ⟨plan, left, after.planned,
        Or.inr ⟨rfl, after.froze.symm, by rw [after.lifted, split], answer, ?_, settled⟩⟩
      rw [after.stepped]
      exact member
    · rintro asked host before password answer ⟨progress, lifts⟩
      have after := progress.quiet [⟨.activePassword, password⟩] (fun _ => rfl) rfl
      exact ⟨after.lift host password answer, lifts_snoc lifts host password answer⟩
  refine asks.imp fun after outcome lifts => ?_
  cases outcome with
  | error failure => exact lifts
  | ok _ =>
      obtain ⟨-, more, rfl, only, same⟩ := lifts
      refine ⟨⟨calls, more, rfl, progress.lifted, only, same.trans progress.froze.symm⟩, fun wins => ?_⟩
      exact (shown wins).append more

theorem stepDown_meets {password : String} {rounds : Nat}
    (waited : ∀ answer ∈ stepped, RanOut answer)
    (progress : Progress me plan plan.others [] stepped calls) :
    (runMonitor me).Meets
      (Stays fun after answer => ¬ RanOut answer ∧ (answer = .ok () → SteppedDown me plan after) ∧
        ∃ stepped, answer ∈ stepped ∧ Progress me plan plan.others [] stepped after) calls
      (stepDownUntilSettled plan.primaryHost password rounds) := by
  induction rounds generalizing calls stepped with
  | zero => trivial
  | succ rounds ih =>
      simp only [stepDownUntilSettled, perform, Program.call, Program.bind_eq, Program.perform_bind,
        Program.done_bind, Program.pure_eq, meets_perform, history_allows, history_learn]
      refine ⟨⟨rfl, rfl, plan, progress.planned, rfl, progress.froze, progress.lifted, ?_⟩, ?_⟩
      · rw [progress.stepped]
        exact waited
      intro answer
      have grown := progress.stepDown plan.primaryHost password answer
      cases answer with
      | ok _ =>
          refine ⟨not_ranOut_ok, fun _ => ?_, _, by simp, grown⟩
          exact ⟨calls, password, [], rfl, progress.planned, progress.froze⟩
      | error failure =>
          refine meets_branch.2 ⟨fun late => ih ?_ grown, fun refused => ⟨?_, ?_, _, by simp, grown⟩⟩
          · intro answer member
            rcases List.mem_append.1 member with before | last
            · exact waited answer before
            · exact ⟨failure, List.mem_singleton.1 last, late⟩
          · rintro ⟨other, same, late⟩
            cases same
            exact refused late
          · intro ok
            cases ok

theorem promoted_meets {rounds : Nat} (answered : .ok () ∈ stepped)
    (steppedDown : SteppedDown me plan calls)
    (progress : Progress me plan plan.others [] stepped calls) :
    (runMonitor me).Meets
      (Stays fun after won => Progress me plan plan.others [] stepped after ∧
        (won = true → Won me after)) calls (promoted rounds) := by
  induction rounds generalizing calls with
  | zero => trivial
  | succ rounds ih =>
      have allowed : ∀ {before}, Progress me plan plan.others [] stepped before →
          .ok () ∈ stepDowns before ∧ frozen 0 before = [] :=
        fun progress => ⟨by rw [progress.stepped]; exact answered, progress.lifted⟩
      simp only [promoted, perform, Program.call, Program.bind_eq, Program.perform_bind,
        Program.done_bind, Program.pure_eq, meets_perform, history_allows, history_learn]
      refine ⟨allowed progress, fun polled => ?_⟩
      have after := progress.quiet [⟨.pollHello, polled⟩] (fun _ => rfl) rfl
      cases polled with
      | none => exact ⟨after, Bool.noConfusion⟩
      | some polled =>
          refine meets_branch.2 ⟨fun primary => ⟨after, fun _ => ?_⟩, fun _ => ?_⟩
          · cases polled with
            | error failure => cases primary
            | ok hello => exact ⟨plan, calls, hello, [], rfl, steppedDown, primary⟩
          · refine ⟨allowed after, fun timeLeft => ?_⟩
            have paused := after.quiet [⟨.pollPause, timeLeft⟩] (fun _ => rfl) rfl
            cases timeLeft with
            | true => exact ih ((steppedDown.append _).append _) paused
            | false => exact ⟨paused, Bool.noConfusion⟩

theorem handOver_meets {rounds : Nat} (begun : Progress me plan [] [] [] calls) :
    (runMonitor me).Meets
      (Stays fun after already => Lifted after ∧ (already = false → Won me after)) calls
      (handOver rounds plan) := by
  unfold handOver
  refine (freeze_meets begun).before fun after _ progress => ⟨trivial, fun password => ?_⟩
  have asks := progress.quiet [⟨.activePassword, password⟩] (fun _ => rfl) rfl
  refine (stepDown_meets (by simp) asks).before fun after answer settled => ?_
  obtain ⟨settled, steppedDown, stepped, member, progress⟩ := settled
  have awaited : (runMonitor me).Meets
      (Stays fun after won => Progress me plan plan.others [] stepped after ∧
        (won = true → Won me after)) after (awaitPromotion rounds answer) := by
    cases answer with
    | ok _ => exact promoted_meets member (steppedDown rfl) progress
    | error failure => exact ⟨progress, Bool.noConfusion⟩
  refine awaited.before fun after won progress => ?_
  obtain ⟨progress, shown⟩ := progress
  refine (lift_meets member settled progress shown).before fun after _ lifted => ?_
  obtain ⟨cleared, shown⟩ := lifted
  cases won with
  | true => exact ⟨cleared, fun _ => shown rfl⟩
  | false => exact cleared

theorem orRefuse_meets {α : Type} {post : Calls → α → Prop} {result : MongoResult α}
    (cleared : Lifted calls)
    (done : ∀ value, result = .ok value → post calls value) :
    (runMonitor me).Meets (Stays post) calls (orRefuse result) := by
  cases result with
  | ok value => exact done value rfl
  | error failure => exact cleared

theorem switchover_meets {rounds : Nat} :
    (runMonitor me).Meets
      (Stays fun after already => Lifted after ∧ (already = false → Won me after)) []
      (switchover me rounds) := by
  simp only [switchover, perform, Program.call, Program.bind_eq, Program.perform_bind,
    Program.done_bind, Program.pure_eq, meets_perform, meets_before, history_allows, history_learn]
  refine ⟨trivial, fun answered => orRefuse_meets (lifted_of_unfrozen rfl rfl) ?_⟩
  rintro hello rfl
  refine meets_branch.2 ⟨fun _ => ⟨lifted_of_unfrozen rfl rfl, Bool.noConfusion⟩, fun secondary => ?_⟩
  simp only [meets_perform, meets_before, history_allows, history_learn]
  refine ⟨trivial, fun answered => orRefuse_meets (lifted_of_unfrozen rfl rfl) ?_⟩
  rintro status rfl
  cases computed : switchoverPlan me hello status with
  | error text => exact lifted_of_unfrozen rfl rfl
  | ok plan =>
      refine handOver_meets ⟨⟨hello, status, [], rfl, ?_, computed⟩, rfl, rfl, rfl⟩
      simpa using secondary

end Stages

/-! ### The runs -/

section Runs

variable {me : String} {rounds : Nat} {calls : Calls}

/-- A freeze is asked of the members the plan keeps out, one after another, and lifted once the step-down
    is settled. The step-down is asked of the plan's primary when every one of them was asked to freeze,
    and again only when it waited out the catch-up window. -/
theorem switchover_acts {call : SwitchoverCall} {next : call.Reply → Task Bool}
    (ran : (switchover me rounds).Runs calls (.perform call next)) : Acts me calls call :=
  (switchover_meets.history ran).1

def threeMembers : RsStatus :=
  let row (host : String) (state : Int) (self : Bool) : RsMember :=
    { id := 0, host := host, state := state, stateStr := "", healthy := true, isSelf := self
      optimeSecs := none }
  .active "rs0" 2 "SECONDARY"
    [row "mongo-1:27017" 1 false, row "mongo-2:27017" 2 true, row "mongo-3:27017" 2 false] none

def secondary : Hello := { (default : Hello) with isWritablePrimary := false }

/-- A run on `mongo-2` up to its first step-down, and what the primary answers to it. -/
def handoffCalls (answer : MongoResult Unit) : Calls :=
  [⟨.hello, .ok secondary⟩, ⟨.rsStatus, .ok threeMembers⟩, ⟨.activePassword, "pw"⟩,
    ⟨.freeze "mongo-3:27017" "pw" 30, .ok ()⟩, ⟨.activePassword, "pw"⟩,
    ⟨.stepDown "mongo-1:27017" "pw" 30 10, answer⟩]

def lagging : MongoError := { code := some 262, text := "no electable secondary caught up" }

/-- A primary whose catch-up window ran out is asked once more. -/
theorem lagging_step_down_repeated :
    Acts "mongo-2:27017" (handoffCalls (.error lagging)) (.stepDown "mongo-1:27017" "pw" 30 10) := by
  obtain ⟨next, ran⟩ : ∃ next, (switchover "mongo-2:27017" 2).Runs (handoffCalls (.error lagging))
      (.perform (.stepDown "mongo-1:27017" "pw" 30 10) next) :=
    ⟨_, .cons (.cons (.cons (.cons (.cons (.cons (.nil _))))))⟩
  exact switchover_acts ran

end Runs

end MongoHa.Switchover
