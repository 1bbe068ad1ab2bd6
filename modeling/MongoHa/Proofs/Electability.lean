/-
Module: MongoHa.Proofs.Electability
Layer: Proofs
Purpose: Whether somebody can win the election a switchover opens. A run freezes every member but its own
  node and the primary, so it relies on its own node being free to run. That holds in every run of the
  set in which no switchover reaches into another one: none begins on a member held back, none freezes
  and none steps down a member on which another one is still to succeed. Two that overlap freeze each
  other's node, and the step-down then leaves a set nobody of which seeks election.
Imports: MongoHa.Foundations.Machine, MongoHa.Wrapper.Switchover
Trusted boundary: none (fully proved)
Main exports: Apart, HandoffFree, handoffFree_step, electable_at_step_down, overlapping_switchovers
Open obligations: none
-/
import MongoHa.Foundations.Machine
import MongoHa.Wrapper.Switchover

namespace MongoHa

open Foundations

variable {ρ : Type} {hosts : List String} {node : ρ → String}

/-- What a step of one switchover leaves to the others. -/
def Apart (node : ρ → String) (s : SwitchState ρ) : SwitchLabel ρ → Prop
  /- It begins on the primary, or on a member nothing holds back. -/
  | .hello run => s.primary = some (node run) ∨ s.mayRun (node run)
  | .freeze run answered => answered = true →
      ∀ plan host left, s.phase run = .freezing plan (host :: left) →
        ∀ other, other ≠ run → (s.phase other).handsOff = true → node other ≠ host
  | .stepDown run => ∀ plan, s.phase run = .freezing plan [] →
      ∀ other, (s.phase other).handsOff = true → node other ≠ plan.primaryHost
  | _ => True

theorem mayRun_freeze_of_ne {s : SwitchState ρ} {host frozen : String} {secs : Nat}
    (differs : host ≠ frozen) : (s.freeze frozen secs).mayRun host ↔ s.mayRun host := by
  unfold SwitchState.freeze
  split
  · rfl
  · simp [SwitchState.mayRun, differs]

/-- Lifting a freeze holds nobody back. -/
theorem mayRun_unfreeze {s : SwitchState ρ} {host frozen : String} (free : s.mayRun host) :
    (s.freeze frozen 0).mayRun host := by
  by_cases same : host = frozen
  · subst same
    unfold SwitchState.freeze
    split
    · exact free
    · exact ⟨by simp [Duration.fromSecs], free.2⟩
  · exact (mayRun_freeze_of_ne same).2 free

theorem mayRun_stepDown_of_ne {s : SwitchState ρ} {host demoted : String} (differs : host ≠ demoted) :
    (s.stepDown demoted).mayRun host ↔ s.mayRun host := by
  simp [SwitchState.stepDown, SwitchState.mayRun, differs]

/-- Where a switchover still to succeed with its step-down has its own node: a member, free to run, and
    not among the members it freezes. -/
structure HandoffFree (hosts : List String) (node : ρ → String) (s : SwitchState ρ) : Prop where
  free : ∀ run, (s.phase run).handsOff = true → s.mayRun (node run)
  listed : ∀ run plan left, s.phase run = .freezing plan left →
    node run ∈ hosts ∧ node run ∉ left

/-- A step of the set that holds back no node of a run still to succeed. -/
theorem HandoffFree.congr {s t : SwitchState ρ} (holds : HandoffFree hosts node s)
    (phases : t.phase = s.phase)
    (kept : ∀ run, (s.phase run).handsOff = true → s.mayRun (node run) → t.mayRun (node run)) :
    HandoffFree hosts node t where
  free run handsOff := by
    rw [phases] at handsOff
    exact kept run handsOff (holds.free run handsOff)
  listed run plan left freezing := holds.listed run plan left (by rw [← phases, freezing])

theorem plannedPhase_listed {s : SwitchState ρ} {run : ρ} {hello : Hello} {plan : SwitchoverPlan}
    {left : List String} (planned : plannedPhase hosts node s run hello = .freezing plan left) :
    node run ∈ hosts ∧ node run ∉ left := by
  unfold plannedPhase at planned
  split at planned
  · rename_i found computed
    cases planned
    refine ⟨?_, own_notMem_others computed⟩
    by_contra unlisted
    exact active_of_planned computed (if_neg unlisted)
  · cases planned

variable [DecidableEq ρ]

/-- The runs of a set, as far as the switchovers on it are apart. None has begun at the start. -/
def switchovers (hosts : List String) (node : ρ → String)
    (admits : SwitchState ρ → SwitchLabel ρ → Prop) : System (SwitchState ρ) :=
  System.labelled (fun s => ∀ run, s.phase run = .begins) (SwitchStep hosts node) admits

/-- A run that moves to a phase outside the handoff leaves the others as they were. -/
theorem HandoffFree.withPhase {s : SwitchState ρ} (holds : HandoffFree hosts node s) (run : ρ)
    {phase : SwitchPhase} (free : phase.handsOff = true → s.mayRun (node run))
    (listed : ∀ plan left, phase = .freezing plan left → node run ∈ hosts ∧ node run ∉ left) :
    HandoffFree hosts node (s.withPhase run phase) where
  free other handsOff := by
    by_cases own : other = run
    · subst own
      rw [phase_withPhase_self] at handsOff
      exact free handsOff
    · rw [phase_withPhase_of_ne _ _ own] at handsOff
      exact holds.free other handsOff
  listed other plan left freezing := by
    by_cases own : other = run
    · subst own
      rw [phase_withPhase_self] at freezing
      exact listed plan left freezing
    · rw [phase_withPhase_of_ne _ _ own] at freezing
      exact holds.listed other plan left freezing

/-- A step of switchovers apart from each other leaves some candidate unfrozen. -/
theorem handoffFree_step {s t : SwitchState ρ} {label : SwitchLabel ρ}
    (holds : HandoffFree hosts node s) (apart : Apart node s label)
    (move : SwitchStep hosts node s label t) : HandoffFree hosts node t := by
  cases move with
  | tick elapsed =>
      refine holds.congr rfl fun run _ free => ?_
      exact ⟨free.1.trans (Nat.le_add_right ..), free.2.trans (Nat.le_add_right ..)⟩
  | elect => exact holds.congr rfl fun _ _ free => free
  | @hello run begins =>
      apply holds.withPhase
      · intro handsOff
        rcases apart with primary | free
        · simp [helloOn, primary, SwitchPhase.handsOff] at handsOff
        · exact free
      · intro plan left freezing
        split at freezing <;> cases freezing
  | @status run hello greeted =>
      apply holds.withPhase
      · intro _
        exact holds.free run (by rw [greeted]; rfl)
      · exact fun plan left planned => plannedPhase_listed planned
  | @freeze run plan host left answered freezing =>
      obtain ⟨member, unlisted⟩ := holds.listed run plan _ freezing
      rw [List.mem_cons, not_or] at unlisted
      have frozen : HandoffFree hosts node (if answered then s.freeze host freezeSecs else s) := by
        split
        · rename_i held
          refine holds.congr (phase_freeze ..) ?_
          intro other handsOff free
          refine (mayRun_freeze_of_ne ?_).2 free
          by_cases own : other = run
          · rw [own]
            exact unlisted.1
          · exact apart held plan host left freezing other own handsOff
        · exact holds
      apply frozen.withPhase
      · intro _
        apply frozen.free run
        split <;> simp [phase_freeze, freezing, SwitchPhase.handsOff]
      · rintro _ _ ⟨⟩
        exact ⟨member, unlisted.2⟩
  | @stepDown run plan freezing primary =>
      have down : HandoffFree hosts node (s.stepDown plan.primaryHost) := by
        refine holds.congr rfl fun other handsOff free => ?_
        exact (mayRun_stepDown_of_ne (apart plan freezing other handsOff)).2 free
      exact down.withPhase run (by rintro ⟨⟩) (by rintro _ _ ⟨⟩)
  | @stepDownRefused run plan freezing => exact holds.withPhase run (by rintro ⟨⟩) (by rintro _ _ ⟨⟩)
  | @promotionEnds run plan won waiting =>
      exact holds.withPhase run (by rintro ⟨⟩) (by rintro _ _ ⟨⟩)
  | @unfreeze run host left won answered unfreezing =>
      have lifted : HandoffFree hosts node (if answered then s.freeze host 0 else s) := by
        split
        · exact holds.congr (phase_freeze ..) fun _ _ free => mayRun_unfreeze free
        · exact holds
      exact lifted.withPhase run (by rintro ⟨⟩) (by rintro _ _ ⟨⟩)
  | @deadline run => exact holds.withPhase run (by rintro ⟨⟩) (by rintro _ _ ⟨⟩)

theorem handoffFree_of_reachable {s : SwitchState ρ}
    (reached : (switchovers hosts node (Apart node)).Reachable s) : HandoffFree hosts node s := by
  apply System.labelled_invariant _ (fun _ _ _ holds apart move => handoffFree_step holds apart move)
    reached
  intro s begins
  constructor
  · intro run handsOff
    rw [begins run] at handsOff
    cases handsOff
  · intro run plan left freezing
    rw [begins run] at freezing
    cases freezing

/-- In every run whose switchovers are apart, whenever a step-down succeeds some member of the set that
    is not its primary may seek election. -/
theorem electable_at_step_down {s t : SwitchState ρ} {run : ρ}
    (reached : (switchovers hosts node (Apart node)).Reachable s)
    (apart : Apart node s (.stepDown run)) (succeeds : SwitchStep hosts node s (.stepDown run) t) :
    ∃ host ∈ hosts, t.primary ≠ some host ∧ t.mayRun host := by
  have holds := handoffFree_of_reachable reached
  cases succeeds with
  | @stepDown run plan freezing primary =>
      have handsOff : (s.phase run).handsOff = true := by rw [freezing]; rfl
      have differs := apart plan freezing run handsOff
      refine ⟨node run, (holds.listed run plan [] freezing).1, ?_, ?_⟩
      · exact nofun
      · exact (mayRun_stepDown_of_ne differs).2 (holds.free run handsOff)

/-! ### Three members -/

def trio : List String := ["mongo-1:27017", "mongo-2:27017", "mongo-3:27017"]

/-- One run on each secondary of a trio whose primary is its first member. -/
def trioNode (run : Bool) : String :=
  if run then "mongo-3:27017" else "mongo-2:27017"

def trioStart : SwitchState Bool where
  now := 0
  primary := some "mongo-1:27017"
  frozenUntil _ := 0
  refusesUntil _ := 0
  phase _ := .begins

/-- A switchover by itself leaves its own node to win. -/
theorem electable_at_step_down_alone :
    ∃ s t, SwitchStep trio trioNode s (.stepDown false) t ∧
      ∃ host ∈ trio, t.primary ≠ some host ∧ t.mayRun host := by
  have start : (switchovers trio trioNode (Apart trioNode)).Reachable trioStart := .init fun _ => rfl
  have greeted := start.take (.hello false) (Or.inr (by decide)) (.hello rfl)
  have planned := greeted.take (.status false) trivial (.status rfl)
  have frozen := planned.take (.freeze false true)
    (by
      rintro - _ _ _ - other differs handsOff
      obtain rfl : other = true := by simpa using differs
      cases handsOff)
    (.freeze true rfl)
  refine ⟨_, _, .stepDown rfl rfl, electable_at_step_down frozen ?_ (.stepDown rfl rfl)⟩
  rintro _ ⟨⟩ other -
  cases other <;> decide

/-- Two switchovers read the same primary and freeze each other's node before it steps down. -/
theorem overlapping_switchovers :
    ∃ s t, (switchovers trio trioNode fun _ _ => True).Reachable s ∧
      SwitchStep trio trioNode s (.stepDown false) t ∧
      ∀ host ∈ trio, ¬ t.mayRun host := by
  have start : (switchovers trio trioNode fun _ _ => True).Reachable trioStart := .init fun _ => rfl
  have greeted := (start.take (.hello false) trivial (.hello rfl)).take (.hello true) trivial (.hello rfl)
  have planned := (greeted.take (.status false) trivial (.status rfl)).take (.status true) trivial
    (.status rfl)
  have frozen := (planned.take (.freeze false true) trivial (.freeze true rfl)).take (.freeze true true)
    trivial (.freeze true rfl)
  exact ⟨_, _, frozen, .stepDown rfl rfl, by decide⟩

end MongoHa
