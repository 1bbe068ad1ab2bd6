/-
Module: MongoHa.Foundations.Processes
Layer: Foundations
Purpose: Programs at work. `Program.Runs` is a run of one program up to some call, with every reply;
  `Program.translate` answers the calls of one program by programs over other calls, as a component of a
  larger program does. `Surroundings` are the world of any number of processes that each run a program:
  how it answers a call and what it keeps when a process starts, ends or is killed. The rule
  `Surroundings.Upholds` proves an invariant of the world in every interleaving from what each program may
  do by a monitor.
Imports: MongoHa.Foundations.Machine, MongoHa.Foundations.Program
Trusted boundary: none (fully proved)
Main exports: Program.Runs, Monitor.follow, Monitor.Meets.runs, Monitor.history, Monitor.Meets.history,
  Monitor.ending, Monitor.meets_before, Monitor.Meets.before, Program.bind_assoc, Program.Uses.imp,
  Program.uses_any, Program.translate, Program.translate_bind, Program.Uses.translate,
  Program.translate_attempt, Monitor.Meets.translate, Ending, Surroundings, Processes, ProcessStep,
  Surroundings.system, Surroundings.AnswersAll, Processes.reachable_runs, Surroundings.Upholds,
  Surroundings.Upholds.reachable
Open obligations: none
-/
import MongoHa.Foundations.Machine
import MongoHa.Foundations.Program

namespace Foundations

/-! ### Runs of one program -/

section Runs

variable {ε : Type} {Reply : ε → Type} {φ α β : Type}

/-- A program makes these calls and gets these replies, and goes on as the last one. -/
inductive Program.Runs : Program Reply φ α → List ((effect : ε) × Reply effect) →
    Program Reply φ α → Prop where
  | nil (program : Program Reply φ α) : Runs program [] program
  | cons {effect : ε} {next : Reply effect → Program Reply φ α} {reply : Reply effect}
      {calls : List ((effect : ε) × Reply effect)} {rest : Program Reply φ α}
      (ran : Runs (next reply) calls rest) :
      Runs (.perform effect next) (⟨effect, reply⟩ :: calls) rest

variable {κ : Type*} {monitor : Monitor Reply κ} {ends : κ → Except φ α → Prop} {known : κ}

/-- What is known after these replies. -/
def Monitor.follow (monitor : Monitor Reply κ) (known : κ)
    (calls : List ((effect : ε) × Reply effect)) : κ :=
  calls.foldl (fun known call => monitor.learn known call.1 call.2) known

@[simp] theorem Monitor.follow_nil : monitor.follow known [] = known := rfl

@[simp] theorem Monitor.follow_cons (call : (effect : ε) × Reply effect)
    (calls : List ((effect : ε) × Reply effect)) :
    monitor.follow known (call :: calls) =
      monitor.follow (monitor.learn known call.1 call.2) calls := rfl

/-- What is left of a program after some calls stays within the monitor. -/
theorem Monitor.Meets.runs {program rest : Program Reply φ α}
    {calls : List ((effect : ε) × Reply effect)} (meets : monitor.Meets ends known program)
    (ran : program.Runs calls rest) :
    monitor.Meets ends (monitor.follow known calls) rest := by
  induction ran generalizing known with
  | nil program => exact meets
  | cons ran ih => exact ih (meets.2 _)

/-- The monitor that remembers every call with its reply. -/
def Monitor.history (allows : List ((effect : ε) × Reply effect) → ε → Prop) :
    Monitor Reply (List ((effect : ε) × Reply effect)) where
  learn calls effect reply := calls ++ [⟨effect, reply⟩]
  allows := allows

variable {allows : List ((effect : ε) × Reply effect) → ε → Prop}

@[simp] theorem Monitor.history_allows (calls : List ((effect : ε) × Reply effect)) (effect : ε) :
    (Monitor.history allows).allows calls effect ↔ allows calls effect := Iff.rfl

@[simp] theorem Monitor.history_learn (calls : List ((effect : ε) × Reply effect)) (effect : ε)
    (reply : Reply effect) :
    (Monitor.history allows).learn calls effect reply = calls ++ [⟨effect, reply⟩] := rfl

theorem Monitor.follow_history (before calls : List ((effect : ε) × Reply effect)) :
    (Monitor.history allows).follow before calls = before ++ calls := by
  induction calls generalizing before with
  | nil => exact (List.append_nil before).symm
  | cons call calls ih =>
      rw [Monitor.follow_cons, ih]
      exact List.append_assoc ..

/-- What is left of a program that stays within a monitor of its history, by the run so far. -/
theorem Monitor.Meets.history {program rest : Program Reply φ α}
    {calls : List ((effect : ε) × Reply effect)}
    {ends : List ((effect : ε) × Reply effect) → Except φ α → Prop}
    (meets : (Monitor.history allows).Meets ends [] program) (ran : program.Runs calls rest) :
    (Monitor.history allows).Meets ends calls rest := by
  have left := meets.runs ran
  rwa [Monitor.follow_history, List.nil_append] at left

end Runs

/-! ### Both ends of a program -/

section Ending

variable {ε : Type} {Reply : ε → Type} {φ α β : Type} {κ : Type*} {monitor : Monitor Reply κ}
  {known : κ}

/-- A condition on the value a program ends with, and one on its error. -/
def Monitor.ending (post : κ → α → Prop) (fails : κ → φ → Prop) (known : κ) : Except φ α → Prop
  | .ok value => post known value
  | .error error => fails known error

variable {post : κ → β → Prop} {fails : κ → φ → Prop}

@[simp] theorem Monitor.ending_ok {value : β} :
    Monitor.ending post fails known (.ok value : Except φ β) ↔ post known value := Iff.rfl

@[simp] theorem Monitor.ending_error {error : φ} :
    Monitor.ending post fails known (.error error : Except φ β) ↔ fails known error := Iff.rfl

/-- One program after another, where an error of the first is one of the whole. -/
@[simp] theorem Monitor.meets_before {program : Program Reply φ α} {rest : α → Program Reply φ β} :
    monitor.Meets (Monitor.ending post fails) known (program.bind rest) ↔
      monitor.Meets
        (Monitor.ending (fun known value => monitor.Meets (Monitor.ending post fails) known (rest value))
          fails) known program := by
  rw [Monitor.meets_bind]
  have same : monitor.continues (Monitor.ending post fails) rest = Monitor.ending
      (fun known value => monitor.Meets (Monitor.ending post fails) known (rest value)) fails := by
    funext known outcome
    cases outcome <;> rfl
  rw [same]

/-- A program before another one meets a monitor when what it ends with lets the other one meet it. -/
theorem Monitor.Meets.before {program : Program Reply φ α} {rest : α → Program Reply φ β}
    {between : κ → α → Prop} (first : monitor.Meets (Monitor.ending between fails) known program)
    (second : ∀ known value, between known value →
      monitor.Meets (Monitor.ending post fails) known (rest value)) :
    monitor.Meets (Monitor.ending post fails) known (program.bind rest) := by
  refine Monitor.meets_before.2 (first.imp fun known outcome held => ?_)
  cases outcome with
  | ok value => exact second known value held
  | error error => exact held

@[simp] theorem Monitor.meets_branch {condition : Prop} [Decidable condition]
    {first second : Program Reply φ β} :
    monitor.Meets (Monitor.ending post fails) known (if condition then first else second) ↔
      (condition → monitor.Meets (Monitor.ending post fails) known first) ∧
        (¬ condition → monitor.Meets (Monitor.ending post fails) known second) := by
  split
  · rename_i holds
    simp [holds]
  · rename_i fails
    simp [fails]

end Ending

/-! ### Components -/

/-- Sequencing is associative, by induction on the first program. -/
theorem Program.bind_assoc {ε : Type} {Reply : ε → Type} {φ α β γ : Type}
    (program : Program Reply φ α) (rest : α → Program Reply φ β) (last : β → Program Reply φ γ) :
    (program.bind rest).bind last = program.bind fun value => (rest value).bind last := by
  induction program with
  | done value => rfl
  | fail error => rfl
  | perform effect next ih => simp only [Program.perform_bind, ih]

/-- A program that uses some effects uses more. -/
theorem Program.Uses.imp {ε : Type} {Reply : ε → Type} {φ α : Type} {allowed more : ε → Prop}
    {program : Program Reply φ α} (uses : program.Uses allowed)
    (weaker : ∀ effect, allowed effect → more effect) : program.Uses more := by
  induction program with
  | done value => trivial
  | fail error => trivial
  | perform effect next ih => exact ⟨weaker effect uses.1, fun reply => ih reply (uses.2 reply)⟩

/-- Every program uses some effects or other. -/
theorem Program.uses_any {ε : Type} {Reply : ε → Type} {φ α : Type} (program : Program Reply φ α) :
    program.Uses fun _ => True := by
  induction program with
  | done value => trivial
  | fail error => trivial
  | perform effect next ih => exact ⟨trivial, ih⟩

section Translate

variable {ε δ : Type} {Reply : ε → Type} {Answer : δ → Type} {φ ψ α β : Type} {κ : Type*}

/-- The program with each of its calls answered by a program over other calls. -/
def Program.translate (fails : φ → ψ) (answer : (effect : ε) → Program Answer ψ (Reply effect)) :
    Program Reply φ α → Program Answer ψ α
  | .done value => .done value
  | .fail error => .fail (fails error)
  | .perform effect next =>
      (answer effect).bind fun reply => (next reply).translate fails answer

variable {fails : φ → ψ} {answer : (effect : ε) → Program Answer ψ (Reply effect)}

@[simp] theorem Program.translate_done (value : α) :
    (Program.done value : Program Reply φ α).translate fails answer = .done value := rfl

@[simp] theorem Program.translate_fail (error : φ) :
    (Program.fail error : Program Reply φ α).translate fails answer = .fail (fails error) := rfl

@[simp] theorem Program.translate_perform (effect : ε) (next : Reply effect → Program Reply φ α) :
    (Program.perform effect next).translate fails answer =
      (answer effect).bind fun reply => (next reply).translate fails answer := rfl

/-- Translating effects goes through sequencing. -/
theorem Program.translate_bind (program : Program Reply φ α) (rest : α → Program Reply φ β) :
    (program.bind rest).translate fails answer =
      (program.translate fails answer).bind fun value => (rest value).translate fails answer := by
  induction program with
  | done value => rfl
  | fail error => rfl
  | perform effect next ih =>
      simp only [Program.perform_bind, Program.translate_perform, ih, Program.bind_assoc]

/-- A translated program uses what the translations of its effects use. -/
theorem Program.Uses.translate {allowed : ε → Prop} {more : δ → Prop} {program : Program Reply φ α}
    (uses : program.Uses allowed) (each : ∀ effect, allowed effect → (answer effect).Uses more) :
    (program.translate fails answer).Uses more := by
  induction program with
  | done value => trivial
  | fail error => trivial
  | perform effect next ih =>
      exact Program.uses_bind (each effect uses.1) fun reply => ih reply (uses.2 reply)

/-- An attempt never fails, so only the calls it uses decide what becomes of it. -/
theorem Program.translate_attempt {χ ω : Type} {allowed : ε → Prop} {program : Program Reply φ α}
    (uses : program.Uses allowed) {fails : χ → ψ} {others : ω → ψ}
    {answer other : (effect : ε) → Program Answer ψ (Reply effect)}
    (agree : ∀ effect, allowed effect → answer effect = other effect) :
    (program.attempt : Program Reply χ (Except φ α)).translate fails answer =
      (program.attempt : Program Reply ω (Except φ α)).translate others other := by
  induction program with
  | done value => rfl
  | fail error => rfl
  | perform effect next ih =>
      simp only [Program.attempt, Program.translate_perform, agree effect uses.1]
      congr 1
      funext reply
      exact ih reply (uses.2 reply)

/-- A component within a monitor of its own keeps the whole within one that allows what the component's
    monitor does and learns the same. -/
theorem Monitor.Meets.translate {inner : Monitor Reply κ} {outer : Monitor Answer κ}
    {ends : κ → Except φ α → Prop} {stops : κ → Except ψ α → Prop}
    (within : ∀ known effect, inner.allows known effect →
      outer.Meets
        (fun learned (outcome : Except ψ (Reply effect)) =>
          ∃ reply, outcome = .ok reply ∧ learned = inner.learn known effect reply) known
        (answer effect))
    (done : ∀ known value, ends known (.ok value) → stops known (.ok value))
    (failed : ∀ known error, ends known (.error error) → stops known (.error (fails error)))
    {known : κ} {program : Program Reply φ α} (meets : inner.Meets ends known program) :
    outer.Meets stops known (program.translate fails answer) := by
  induction program generalizing known with
  | done value => exact done _ _ meets
  | fail error => exact failed _ _ meets
  | perform effect next ih =>
      rw [Program.translate_perform, meets_bind]
      refine (within known effect meets.1).imp ?_
      rintro learned outcome ⟨reply, rfl, rfl⟩
      exact ih reply (meets.2 reply)

end Translate

/-! ### Processes in a world -/

/-- How a process stops. -/
inductive Ending (φ α : Type) where
  | finished (outcome : Except φ α)
  | killed

/-- What surrounds processes that are started with a `β` each. `moves` is what happens by itself. -/
structure Surroundings {ε : Type} (Reply : ε → Type) (φ α : Type) (ι σ β : Type*) where
  program : β → Program Reply φ α
  starts : σ → ι → β → σ → Prop
  answers : σ → ι → (effect : ε) → Reply effect → σ → Prop
  ends : σ → ι → Ending φ α → σ → Prop
  moves : σ → σ → Prop

/-- The world and what is left of the program of each process that runs. -/
structure Processes {ε : Type} (Reply : ε → Type) (φ α : Type) (ι σ : Type*) where
  shared : σ
  running : ι → Option (Program Reply φ α)

section Processes

variable {ε : Type} {Reply : ε → Type} {φ α : Type} {ι σ β κ : Type*} [DecidableEq ι]
  {world : Surroundings Reply φ α ι σ β}

/-- One call of one process, or a start, an end or a kill, which may come between any two calls. -/
inductive ProcessStep (world : Surroundings Reply φ α ι σ β) (s : Processes Reply φ α ι σ) :
    Processes Reply φ α ι σ → Prop where
  | start {i : ι} {input : β} {value : σ} (down : s.running i = none)
      (starts : world.starts s.shared i input value) :
      ProcessStep world s
        { shared := value
          running := Function.update s.running i (some (world.program input)) }
  | call {i : ι} {effect : ε} {next : Reply effect → Program Reply φ α} {reply : Reply effect}
      {value : σ} (performs : s.running i = some (.perform effect next))
      (answered : world.answers s.shared i effect reply value) :
      ProcessStep world s
        { shared := value, running := Function.update s.running i (some (next reply)) }
  | done {i : ι} {result : α} {value : σ} (finished : s.running i = some (.done result))
      (ended : world.ends s.shared i (.finished (.ok result)) value) :
      ProcessStep world s { shared := value, running := Function.update s.running i none }
  | fail {i : ι} {error : φ} {value : σ} (finished : s.running i = some (.fail error))
      (ended : world.ends s.shared i (.finished (.error error)) value) :
      ProcessStep world s { shared := value, running := Function.update s.running i none }
  | kill {i : ι} {program : Program Reply φ α} {value : σ} (up : s.running i = some program)
      (ended : world.ends s.shared i .killed value) :
      ProcessStep world s { shared := value, running := Function.update s.running i none }
  | move {value : σ} (moved : world.moves s.shared value) :
      ProcessStep world s { s with shared := value }

/-- Nothing runs at first. -/
def Surroundings.system (world : Surroundings Reply φ α ι σ β) (start : σ → Prop) :
    System (Processes Reply φ α ι σ) where
  init s := start s.shared ∧ ∀ i, s.running i = none
  step := ProcessStep world

/-- The world answers these calls of one process in a row. -/
inductive Surroundings.AnswersAll (world : Surroundings Reply φ α ι σ β) (i : ι) :
    σ → List ((effect : ε) × Reply effect) → σ → Prop where
  | nil (value : σ) : AnswersAll world i value [] value
  | cons {value next last : σ} {effect : ε} {reply : Reply effect}
      {calls : List ((effect : ε) × Reply effect)} (answered : world.answers value i effect reply next)
      (rest : AnswersAll world i next calls last) :
      AnswersAll world i value (⟨effect, reply⟩ :: calls) last

/-- One process runs for a while. -/
theorem Processes.reachable_runs {start : σ → Prop} {shared last : σ}
    {running : ι → Option (Program Reply φ α)} {i : ι} {program rest : Program Reply φ α}
    {calls : List ((effect : ε) × Reply effect)} (ran : program.Runs calls rest)
    (answered : world.AnswersAll i shared calls last) (runs : running i = some program)
    (reached : (world.system start).Reachable { shared := shared, running := running }) :
    (world.system start).Reachable
      { shared := last, running := Function.update running i (some rest) } := by
  induction ran generalizing shared running with
  | nil program =>
      cases answered
      rwa [← runs, Function.update_eq_self]
  | cons ran ih =>
      cases answered with
      | cons first others =>
          have again := ih others (Function.update_self ..) (.step reached (.call runs first))
          rwa [Function.update_idem] at again

/-- Every program stays within the monitor, and the invariant of the world and of what the running
    processes know is kept by whatever the monitor allows. -/
structure Surroundings.Upholds (world : Surroundings Reply φ α ι σ β) (monitor : Monitor Reply κ)
    (fresh : β → κ) (ends : κ → Except φ α → Prop) (inv : σ → (ι → Option κ) → Prop) : Prop where
  meets : ∀ input, monitor.Meets ends (fresh input) (world.program input)
  start : ∀ {s t known i input}, inv s known → known i = none → world.starts s i input t →
    inv t (Function.update known i (some (fresh input)))
  call : ∀ {s t known i mine effect reply}, inv s known → known i = some mine →
    monitor.allows mine effect → world.answers s i effect reply t →
    inv t (Function.update known i (some (monitor.learn mine effect reply)))
  finish : ∀ {s t known i mine outcome}, inv s known → known i = some mine → ends mine outcome →
    world.ends s i (.finished outcome) t → inv t (Function.update known i none)
  kill : ∀ {s t known i mine}, inv s known → known i = some mine → world.ends s i .killed t →
    inv t (Function.update known i none)
  move : ∀ {s t known}, inv s known → world.moves s t → inv t known

/-- What a process that runs knows, if any does, is enough for the rest of its program. -/
def Informed (monitor : Monitor Reply κ) (ends : κ → Except φ α → Prop) :
    Option κ → Option (Program Reply φ α) → Prop
  | none, none => True
  | some known, some program => monitor.Meets ends known program
  | _, _ => False

variable {monitor : Monitor Reply κ} {ends : κ → Except φ α → Prop} {known : Option κ}
  {program : Program Reply φ α}

theorem Informed.of_running (informed : Informed monitor ends known (some program)) :
    ∃ mine, known = some mine ∧ monitor.Meets ends mine program := by
  cases known with
  | none => exact informed.elim
  | some mine => exact ⟨mine, rfl, informed⟩

theorem Informed.of_down (informed : Informed monitor ends known (none : Option (Program Reply φ α))) :
    known = none := by
  cases known with
  | none => rfl
  | some mine => exact informed.elim

theorem Informed.isSome_eq {task : Option (Program Reply φ α)}
    (informed : Informed monitor ends known task) : known.isSome = task.isSome := by
  cases task with
  | none =>
      rw [informed.of_down]
      rfl
  | some program =>
      obtain ⟨mine, knows, -⟩ := informed.of_running
      rw [knows]
      rfl

/-- The invariant with what every process knows. -/
def Surroundings.Holds (monitor : Monitor Reply κ) (ends : κ → Except φ α → Prop)
    (inv : σ → (ι → Option κ) → Prop) (s : Processes Reply φ α ι σ) : Prop :=
  ∃ known : ι → Option κ, inv s.shared known ∧
    ∀ i, Informed monitor ends (known i) (s.running i)

variable {fresh : β → κ} {inv : σ → (ι → Option κ) → Prop} {s t : Processes Reply φ α ι σ}

theorem informed_update {known : ι → Option κ} {running : ι → Option (Program Reply φ α)}
    (informed : ∀ i, Informed monitor ends (known i) (running i)) (i : ι) {mine : Option κ}
    {task : Option (Program Reply φ α)} (now : Informed monitor ends mine task) (j : ι) :
    Informed monitor ends (Function.update known i mine j) (Function.update running i task j) := by
  by_cases same : j = i
  · subst same
    simpa using now
  · simpa [same] using informed j

theorem Surroundings.Upholds.step (upholds : world.Upholds monitor fresh ends inv)
    (holds : Surroundings.Holds monitor ends inv s) (step : ProcessStep world s t) :
    Surroundings.Holds monitor ends inv t := by
  obtain ⟨known, invariant, informed⟩ := holds
  cases step with
  | @start i input value down starts =>
      have unknown : known i = none := (down ▸ informed i).of_down
      exact ⟨_, upholds.start invariant unknown starts,
        informed_update informed i (upholds.meets input)⟩
  | @call i effect next reply value performs answered =>
      obtain ⟨mine, knows, meets⟩ := (performs ▸ informed i).of_running
      exact ⟨_, upholds.call invariant knows meets.1 answered,
        informed_update informed i (meets.2 reply)⟩
  | @done i result value finished ended =>
      obtain ⟨mine, knows, meets⟩ := (finished ▸ informed i).of_running
      exact ⟨_, upholds.finish invariant knows meets ended, informed_update informed i trivial⟩
  | @fail i error value finished ended =>
      obtain ⟨mine, knows, meets⟩ := (finished ▸ informed i).of_running
      exact ⟨_, upholds.finish invariant knows meets ended, informed_update informed i trivial⟩
  | @kill i program value up ended =>
      obtain ⟨mine, knows, -⟩ := (up ▸ informed i).of_running
      exact ⟨_, upholds.kill invariant knows ended, informed_update informed i trivial⟩
  | move moved => exact ⟨known, upholds.move invariant moved, informed⟩

/-- The invariant holds in every interleaving. -/
theorem Surroundings.Upholds.reachable (upholds : world.Upholds monitor fresh ends inv) {start : σ → Prop}
    (starts : ∀ value, start value → inv value fun _ => none)
    (reached : (world.system start).Reachable s) : Surroundings.Holds monitor ends inv s := by
  refine System.invariant ?_ ?_ reached
  · rintro s ⟨begun, down⟩
    refine ⟨fun _ => none, starts _ begun, fun i => ?_⟩
    rw [down i]
    trivial
  · intro s t _ holds step
    exact upholds.step holds step

end Processes

end Foundations
