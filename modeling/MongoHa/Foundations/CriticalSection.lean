/-
Module: MongoHa.Foundations.CriticalSection
Layer: Foundations
Purpose: Calls that share a value under one lock. A `LockCode` says how a call takes the lock, what it does
  while it holds it and how it gives it back, and what a crash of all calls leaves. The rule
  `LockCode.Guards` proves a property of the value whenever the lock is free from what holds at each place
  of the code that holds it, for any number of calls and every interleaving.
Imports: Mathlib.Logic.Function.Basic, MongoHa.Foundations.Machine
Trusted boundary: none (fully proved)
Main exports: LockCode, LockState, LockStep, LockCode.system, LockCode.Guards, LockState.Guarded,
  LockCode.Guards.reachable, LockState.Guarded.always
Open obligations: none
-/
import Mathlib.Logic.Function.Basic
import MongoHa.Foundations.Machine

namespace Foundations

/-! ### Code around a lock -/

/-- The code of calls around one lock, over the shared value `σ` and the places `φ` of the code. -/
structure LockCode (σ φ : Type*) where
  begins : φ → Prop
  /-- A call that waits for the lock takes it. -/
  enter : φ → φ → Prop
  /-- A step of the call that holds the lock. -/
  work : φ → σ → φ → σ → Prop
  /-- The step with which it gives the lock back. -/
  leave : φ → σ → φ → σ → Prop
  /-- What a crash of all calls leaves of the value. -/
  crash : σ → σ → Prop

/-- The state the lock guards, its holder, and where every call is. -/
structure LockState (ι σ φ : Type*) where
  shared : σ
  owner : Option ι
  phase : ι → φ

/-- Which call takes a step; a crash ends all of them at once. -/
inductive LockLabel (ι : Type*) where
  | call (i : ι)
  | crash

section Calls

variable {ι σ φ : Type*} [DecidableEq ι]

/-- A step of one call, or a crash after which calls begin anew. -/
inductive LockStep (code : LockCode σ φ) (s : LockState ι σ φ) :
    LockLabel ι → LockState ι σ φ → Prop where
  | enter {i : ι} {next : φ} (free : s.owner = none) (enters : code.enter (s.phase i) next) :
      LockStep code s (.call i)
        { s with owner := some i, phase := Function.update s.phase i next }
  | work {i : ι} {next : φ} {value : σ} (holds : s.owner = some i)
      (works : code.work (s.phase i) s.shared next value) :
      LockStep code s (.call i)
        { s with shared := value, phase := Function.update s.phase i next }
  | leave {i : ι} {next : φ} {value : σ} (holds : s.owner = some i)
      (leaves : code.leave (s.phase i) s.shared next value) :
      LockStep code s (.call i)
        { shared := value, owner := none, phase := Function.update s.phase i next }
  | crash {value : σ} {phase : ι → φ} (crashes : code.crash s.shared value)
      (begins : ∀ i, code.begins (phase i)) :
      LockStep code s .crash { shared := value, owner := none, phase := phase }

/-- The lock is free and every call is at its beginning. -/
def LockCode.Starts (code : LockCode σ φ) (start : σ) (s : LockState ι σ φ) : Prop :=
  s.shared = start ∧ s.owner = none ∧ ∀ i, code.begins (s.phase i)

variable (ι) in
/-- Any number of calls from this state, in every interleaving. -/
def LockCode.system (code : LockCode σ φ) (start : σ) : System (LockState ι σ φ) :=
  System.labelled (code.Starts start) (LockStep code) fun _ _ => True

/-! ### The rule -/

/-- The property that the free lock guards, and what holds at the places of the code that hold it. -/
structure LockCode.Guards (code : LockCode σ φ) (free : σ → Prop) (held : φ → σ → Prop) : Prop where
  enter : ∀ {place next value}, code.enter place next → free value → held next value
  work : ∀ {place value next left}, code.work place value next left → held place value → held next left
  leave : ∀ {place value next left}, code.leave place value next left → held place value → free left
  crash : ∀ {value left}, code.crash value left → free value ∨ (∃ place, held place value) → free left

/-- The shared state is as it is between calls, or as the holder's place says. -/
def LockState.Guarded (free : σ → Prop) (held : φ → σ → Prop) (s : LockState ι σ φ) : Prop :=
  match s.owner with
  | none => free s.shared
  | some i => held (s.phase i) s.shared

variable {code : LockCode σ φ} {free : σ → Prop} {held : φ → σ → Prop} {start : σ}
  {s t : LockState ι σ φ} {label : LockLabel ι}

omit [DecidableEq ι] in
theorem LockState.Guarded.of_free (guarded : s.Guarded free held) (unowned : s.owner = none) :
    free s.shared := by
  rw [LockState.Guarded, unowned] at guarded
  exact guarded

omit [DecidableEq ι] in
theorem LockState.Guarded.of_holds {i : ι} (guarded : s.Guarded free held) (holds : s.owner = some i) :
    held (s.phase i) s.shared := by
  rw [LockState.Guarded, holds] at guarded
  exact guarded

omit [DecidableEq ι] in
/-- What both follow from holds whether or not the lock is free. -/
theorem LockState.Guarded.always {property : σ → Prop} (guarded : s.Guarded free held)
    (ofFree : ∀ value, free value → property value)
    (ofHeld : ∀ place value, held place value → property value) : property s.shared := by
  cases owner : s.owner with
  | none => exact ofFree _ (guarded.of_free owner)
  | some i => exact ofHeld _ _ (guarded.of_holds owner)

/-- A step of the call that holds the lock meets what holds at its place. -/
theorem LockCode.Guards.step (guards : code.Guards free held) (guarded : s.Guarded free held)
    (step : LockStep code s label t) : t.Guarded free held := by
  cases step with
  | enter unowned enters =>
      have now := guards.enter enters (guarded.of_free unowned)
      simpa only [LockState.Guarded, Function.update_self] using now
  | work holds works =>
      have now := guards.work works (guarded.of_holds holds)
      simpa only [LockState.Guarded, holds, Function.update_self] using now
  | leave holds leaves => exact guards.leave leaves (guarded.of_holds holds)
  | crash crashes begins =>
      apply guards.crash crashes
      cases owner : s.owner with
      | none => exact Or.inl (guarded.of_free owner)
      | some i => exact Or.inr ⟨_, guarded.of_holds owner⟩

/-- The lock's rule: what every step keeps holds in every reachable state, crashes included. -/
theorem LockCode.Guards.reachable (guards : code.Guards free held) (starts : free start)
    (reached : (code.system ι start).Reachable s) : s.Guarded free held := by
  refine System.labelled_invariant ?_ ?_ reached
  · rintro s ⟨rfl, unowned, -⟩
    rw [LockState.Guarded, unowned]
    exact starts
  · intro s label t guarded _ step
    exact guards.step guarded step

end Calls

end Foundations
