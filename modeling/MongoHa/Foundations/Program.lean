/-
Module: MongoHa.Foundations.Program
Layer: Foundations
Purpose: Programs that call on their environment. A program is the tree of its calls, one branch for every
  reply, so that whoever runs it may let others act between two calls or drop it half-way. A monitor
  follows the calls of one program: it learns from the replies and says which calls are allowed by what
  it learned. `Monitor.Meets` is the logic of programs that stay within a monitor; its rules follow the
  constructors and `bind`.
Imports: Mathlib.Logic.Function.Basic
Trusted boundary: none (fully proved)
Main exports: Program, Program.bind, Program.call, Program.ensure, Program.attempt, Program.run,
  Program.run_bind, Program.Uses, Program.uses_bind, Monitor, Monitor.Meets, Monitor.Meets.imp,
  Monitor.meets_bind, Monitor.meets_attempt, Monitor.onOk, Monitor.meets_then, Monitor.Meets.then,
  Monitor.meets_of_uses
Open obligations: none
-/
import Mathlib.Logic.Function.Basic

namespace Foundations

/-- A program over the calls `ε`: it ends with a value or an error, or it calls and goes on with the
    reply. -/
inductive Program {ε : Type} (Reply : ε → Type) (φ α : Type) where
  | done (value : α)
  | fail (error : φ)
  | perform (effect : ε) (next : Reply effect → Program Reply φ α)

namespace Program

variable {ε : Type} {Reply : ε → Type} {φ ψ α β σ : Type}

/-- One program and then another, which a failure skips. -/
def bind : Program Reply φ α → (α → Program Reply φ β) → Program Reply φ β
  | .done value, rest => rest value
  | .fail error, _ => .fail error
  | .perform effect next, rest => .perform effect fun reply => (next reply).bind rest

instance : Monad (Program Reply φ) where
  pure := .done
  bind := .bind

@[simp] theorem pure_eq (value : α) : (pure value : Program Reply φ α) = .done value := rfl

@[simp] theorem bind_eq (program : Program Reply φ α) (rest : α → Program Reply φ β) :
    program >>= rest = program.bind rest := rfl

@[simp] theorem done_bind (value : α) (rest : α → Program Reply φ β) :
    (Program.done value).bind rest = rest value := rfl

@[simp] theorem fail_bind (error : φ) (rest : α → Program Reply φ β) :
    (Program.fail error : Program Reply φ α).bind rest = .fail error := rfl

@[simp] theorem perform_bind (effect : ε) (next : Reply effect → Program Reply φ α)
    (rest : α → Program Reply φ β) :
    (Program.perform effect next).bind rest = .perform effect fun reply => (next reply).bind rest :=
  rfl

/-- One call, answered with its reply. -/
def call (effect : ε) : Program Reply φ (Reply effect) := .perform effect .done

/-- Go on under this condition only. -/
def ensure (condition : Prop) [Decidable condition] (error : φ) : Program Reply φ Unit :=
  if condition then .done () else .fail error

/-- Run a program for its result, errors included. -/
def attempt : Program Reply φ α → Program Reply ψ (Except φ α)
  | .done value => .done (.ok value)
  | .fail error => .done (.error error)
  | .perform effect next => .perform effect fun reply => (next reply).attempt

/-- A program run by itself, each call answered from a state. -/
def run (answer : (effect : ε) → σ → Reply effect × σ) :
    Program Reply φ α → σ → Except φ α × σ
  | .done value, s => (.ok value, s)
  | .fail error, s => (.error error, s)
  | .perform effect next, s => (next (answer effect s).1).run answer (answer effect s).2

/-- What a program run after another one ends with. -/
theorem run_bind (answer : (effect : ε) → σ → Reply effect × σ) (program : Program Reply φ α)
    (rest : α → Program Reply φ β) (s : σ) :
    (program.bind rest).run answer s =
      match program.run answer s with
      | (.ok value, t) => (rest value).run answer t
      | (.error error, t) => (.error error, t) := by
  induction program generalizing s with
  | done value => rfl
  | fail error => rfl
  | perform effect next ih => exact ih _ _

/-- Every call the program can make is one of these. -/
def Uses (allowed : ε → Prop) : Program Reply φ α → Prop
  | .done _ => True
  | .fail _ => True
  | .perform effect next => allowed effect ∧ ∀ reply, (next reply).Uses allowed

/-- A sequence uses what its parts use. -/
theorem uses_bind {allowed : ε → Prop} {program : Program Reply φ α}
    {rest : α → Program Reply φ β} (first : program.Uses allowed)
    (second : ∀ value, (rest value).Uses allowed) : (program.bind rest).Uses allowed := by
  induction program with
  | done value => exact second value
  | fail error => trivial
  | perform effect next ih => exact ⟨first.1, fun reply => ih reply (first.2 reply)⟩

end Program

/-! ### Monitors -/

/-- What one learns from the replies to a program's calls, and the calls it may make knowing that. -/
structure Monitor {ε : Type} (Reply : ε → Type) (κ : Type*) where
  learn : κ → (effect : ε) → Reply effect → κ
  allows : κ → ε → Prop

namespace Monitor

variable {ε : Type} {Reply : ε → Type} {φ ψ α β : Type} {κ : Type*} {monitor : Monitor Reply κ}
  {ends stops : κ → Except φ α → Prop} {known : κ}

/-- The program makes only calls its knowledge allows at the time, and ends as it should, whatever the
    replies. -/
def Meets (monitor : Monitor Reply κ) (ends : κ → Except φ α → Prop) :
    κ → Program Reply φ α → Prop
  | known, .done value => ends known (.ok value)
  | known, .fail error => ends known (.error error)
  | known, .perform effect next =>
      monitor.allows known effect ∧
        ∀ reply, monitor.Meets ends (monitor.learn known effect reply) (next reply)

@[simp] theorem meets_done {value : α} :
    monitor.Meets ends known (.done value) ↔ ends known (.ok value) := Iff.rfl

@[simp] theorem meets_fail {error : φ} :
    monitor.Meets ends known (.fail error) ↔ ends known (.error error) := Iff.rfl

@[simp] theorem meets_perform {effect : ε} {next : Reply effect → Program Reply φ α} :
    monitor.Meets ends known (.perform effect next) ↔
      monitor.allows known effect ∧
        ∀ reply, monitor.Meets ends (monitor.learn known effect reply) (next reply) := Iff.rfl

/-- Meeting a monitor with some endings is meeting it with more. -/
theorem Meets.imp {program : Program Reply φ α} (meets : monitor.Meets ends known program)
    (weaker : ∀ known outcome, ends known outcome → stops known outcome) :
    monitor.Meets stops known program := by
  induction program generalizing known with
  | done value => exact weaker _ _ meets
  | fail error => exact weaker _ _ meets
  | perform effect next ih => exact ⟨meets.1, fun reply => ih reply (meets.2 reply)⟩

/-- How the program before `rest` may end, for the whole to end as it should. -/
def continues (monitor : Monitor Reply κ) (ends : κ → Except φ β → Prop)
    (rest : α → Program Reply φ β) (known : κ) : Except φ α → Prop
  | .ok value => monitor.Meets ends known (rest value)
  | .error error => ends known (.error error)

/-- A sequence meets a monitor when its first part ends where the second one can go on. -/
theorem meets_bind {program : Program Reply φ α} {rest : α → Program Reply φ β}
    {ends : κ → Except φ β → Prop} :
    monitor.Meets ends known (program.bind rest) ↔
      monitor.Meets (monitor.continues ends rest) known program := by
  induction program generalizing known with
  | done value => exact Iff.rfl
  | fail error => exact Iff.rfl
  | perform effect next ih =>
      constructor
      · exact fun meets => ⟨meets.1, fun reply => (ih reply).1 (meets.2 reply)⟩
      · exact fun meets => ⟨meets.1, fun reply => (ih reply).2 (meets.2 reply)⟩

/-- An attempt ends with the error as a value. -/
theorem meets_attempt {program : Program Reply φ α} {ends : κ → Except ψ (Except φ α) → Prop} :
    monitor.Meets ends known program.attempt ↔
      monitor.Meets (fun known outcome => ends known (.ok outcome)) known program := by
  induction program generalizing known with
  | done value => exact Iff.rfl
  | fail error => exact Iff.rfl
  | perform effect next ih =>
      constructor
      · exact fun meets => ⟨meets.1, fun reply => (ih reply).1 (meets.2 reply)⟩
      · exact fun meets => ⟨meets.1, fun reply => (ih reply).2 (meets.2 reply)⟩

/-- A condition on the value a program ends with; it may fail anyhow. -/
def onOk (post : κ → α → Prop) (known : κ) : Except φ α → Prop
  | .ok value => post known value
  | .error _ => True

section OnOk

variable {post : κ → β → Prop}

@[simp] theorem onOk_ok {value : β} : onOk post known (.ok value : Except φ β) ↔ post known value :=
  Iff.rfl

@[simp] theorem onOk_error {error : φ} : onOk post known (.error error : Except φ β) := trivial

@[simp] theorem meets_then {program : Program Reply φ α} {rest : α → Program Reply φ β} :
    monitor.Meets (onOk post) known (program.bind rest) ↔
      monitor.Meets (onOk fun known value => monitor.Meets (onOk post) known (rest value)) known
        program := by
  rw [meets_bind]
  have same : monitor.continues (onOk post) rest =
      onOk fun known value => monitor.Meets (onOk post) known (rest value) := by
    funext known outcome
    cases outcome <;> rfl
  rw [same]

/-- One program after another. -/
theorem Meets.then {program : Program Reply φ α} {rest : α → Program Reply φ β}
    {between : κ → α → Prop} (first : monitor.Meets (onOk between) known program)
    (second : ∀ known value, between known value → monitor.Meets (onOk post) known (rest value)) :
    monitor.Meets (onOk post) known (program.bind rest) := by
  refine meets_then.2 (first.imp fun known outcome held => ?_)
  cases outcome with
  | ok value => exact second known value held
  | error error => trivial

@[simp] theorem meets_ensure {condition : Prop} [Decidable condition] {error : φ} {post : κ → Unit → Prop} :
    monitor.Meets (onOk post) known (Program.ensure condition error) ↔
      (condition → post known ()) := by
  unfold Program.ensure
  split
  · rename_i holds
    simp [holds]
  · rename_i fails
    simp [fails]

@[simp] theorem meets_ite {condition : Prop} [Decidable condition] {first second : Program Reply φ β} :
    monitor.Meets (onOk post) known (if condition then first else second) ↔
      (condition → monitor.Meets (onOk post) known first) ∧
        (¬ condition → monitor.Meets (onOk post) known second) := by
  split
  · rename_i holds
    simp [holds]
  · rename_i fails
    simp [fails]

@[simp] theorem meets_attempt_ok {program : Program Reply φ α} {post : κ → Except φ α → Prop} :
    monitor.Meets (onOk post) known (program.attempt : Program Reply ψ (Except φ α)) ↔
      monitor.Meets post known program := by
  rw [meets_attempt]
  have same : (fun known (outcome : Except φ α) =>
      onOk post known (.ok outcome : Except ψ (Except φ α))) = post := by
    funext known outcome
    rfl
  rw [same]

end OnOk

/-- Calls that are always allowed and teach nothing. -/
theorem meets_of_uses {calls : ε → Prop} {program : Program Reply φ α}
    (uses : program.Uses calls)
    (quiet : ∀ effect, calls effect →
      monitor.allows known effect ∧ ∀ reply, monitor.learn known effect reply = known)
    (ended : ∀ outcome, ends known outcome) : monitor.Meets ends known program := by
  induction program with
  | done value => exact ended _
  | fail error => exact ended _
  | perform effect next ih =>
      obtain ⟨allowed, learned⟩ := quiet effect uses.1
      refine ⟨allowed, fun reply => ?_⟩
      rw [learned reply]
      exact ih reply (uses.2 reply)

end Monitor

end Foundations
