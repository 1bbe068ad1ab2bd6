/-
Module: MongoHa.Foundations.Machine
Layer: Foundations
Purpose: Runs of machines, in the two shapes the developments above use. A deterministic machine consumes
  a list of inputs: `finalState` is where it ends, `trace` lists every input together with the state that
  met it, and the split lemmas relate the two. A transition system is a step relation with initial states:
  `System.Reachable` is its reachable states, `System.invariant` the induction rule, `System.labelled`
  builds one from labelled steps, and `System.Refines` is the forward simulation (with stuttering) along
  which reachability transfers; `System.Reachable.related` is the same for a relation.
Imports: Mathlib.Data.List.Basic
Trusted boundary: none (fully proved)
Main exports: finalState, trace, mem_trace_iff, finalState_invariant, append_singleton_split, System,
  System.Reachable, System.invariant, System.labelled, System.labelled_invariant, System.Reachable.take,
  System.Reachable.weaken, System.Run, System.Refines, System.Refines.reachable, System.Reachable.related
Open obligations: none
-/
import Mathlib.Data.List.Basic

namespace Foundations

/-! ### Deterministic machines -/

section Machine

variable {σ ι : Type*}

/-- The state a machine reaches from `s` after consuming the inputs in order. -/
def finalState (step : σ → ι → σ) (s : σ) (inputs : List ι) : σ :=
  inputs.foldl step s

/-- Every input of a run, paired with the state that met it. -/
def trace (step : σ → ι → σ) : σ → List ι → List (σ × ι)
  | _, [] => []
  | s, input :: rest => (s, input) :: trace step (step s input) rest

@[simp] theorem finalState_nil (step : σ → ι → σ) (s : σ) : finalState step s [] = s := rfl

@[simp] theorem finalState_cons (step : σ → ι → σ) (s : σ) (input : ι) (rest : List ι) :
    finalState step s (input :: rest) = finalState step (step s input) rest := rfl

theorem finalState_append (step : σ → ι → σ) (s : σ) (before after : List ι) :
    finalState step s (before ++ after) =
      finalState step (finalState step s before) after := by
  simp [finalState, List.foldl_append]

@[simp] theorem trace_nil (step : σ → ι → σ) (s : σ) : trace step s [] = [] := rfl

@[simp] theorem trace_cons (step : σ → ι → σ) (s : σ) (input : ι) (rest : List ι) :
    trace step s (input :: rest) = (s, input) :: trace step (step s input) rest := rfl

theorem trace_append (step : σ → ι → σ) (s : σ) (before after : List ι) :
    trace step s (before ++ after) =
      trace step s before ++ trace step (finalState step s before) after := by
  induction before generalizing s with
  | nil => rfl
  | cons input rest ih => simp [ih]

theorem map_snd_trace (step : σ → ι → σ) (s : σ) (inputs : List ι) :
    (trace step s inputs).map Prod.snd = inputs := by
  induction inputs generalizing s with
  | nil => rfl
  | cons input rest ih => simp [ih]

theorem snd_mem_of_mem_trace {step : σ → ι → σ} {s : σ} {inputs : List ι} {entry : σ × ι}
    (member : entry ∈ trace step s inputs) : entry.2 ∈ inputs := by
  have mapped := List.mem_map_of_mem (f := Prod.snd) member
  rwa [map_snd_trace] at mapped

/-- An entry of the trace is a split of the run: the inputs before it lead to the state it records. -/
theorem mem_trace_iff {step : σ → ι → σ} {s : σ} {inputs : List ι} {entry : σ × ι} :
    entry ∈ trace step s inputs ↔
      ∃ before after, inputs = before ++ entry.2 :: after ∧
        entry.1 = finalState step s before := by
  induction inputs generalizing s with
  | nil => simp
  | cons input rest ih =>
      rw [trace_cons, List.mem_cons, ih]
      constructor
      · rintro (rfl | ⟨before, after, split, state⟩)
        · exact ⟨[], rest, rfl, rfl⟩
        · exact ⟨input :: before, after, by simp [split], by simpa using state⟩
      · rintro ⟨before, after, split, state⟩
        cases before with
        | nil =>
            obtain ⟨inputEq, -⟩ : input = entry.2 ∧ rest = after := by simpa using split
            exact Or.inl (Prod.ext state inputEq.symm)
        | cons first before =>
            obtain ⟨rfl, restEq⟩ : input = first ∧ rest = before ++ entry.2 :: after := by
              simpa using split
            exact Or.inr ⟨before, after, restEq, by simpa using state⟩

/-- What every step of a run keeps holds of the state it ends in. -/
theorem finalState_invariant {step : σ → ι → σ} {s : σ} {inputs : List ι} {motive : σ → Prop}
    (start : motive s)
    (kept : ∀ entry ∈ trace step s inputs, motive entry.1 → motive (step entry.1 entry.2)) :
    motive (finalState step s inputs) := by
  induction inputs generalizing s with
  | nil => exact start
  | cons input rest ih =>
      rw [trace_cons, List.forall_mem_cons] at kept
      exact ih (kept.1 start) kept.2

/-- A list that is one longer splits at its last element, or before it. -/
theorem append_singleton_split {early late xs : List ι} {last input : ι}
    (split : xs ++ [last] = early ++ input :: late) :
    (xs = early ∧ last = input ∧ late = []) ∨
      ∃ rest, late = rest ++ [last] ∧ xs = early ++ input :: rest := by
  rcases List.eq_nil_or_concat late with rfl | ⟨rest, final, rfl⟩
  · obtain ⟨same, final⟩ := List.append_inj' split rfl
    exact Or.inl ⟨same, List.singleton_inj.1 final, rfl⟩
  · rw [List.concat_eq_append, ← List.cons_append, ← List.append_assoc] at split
    obtain ⟨same, final⟩ := List.append_inj' split rfl
    refine Or.inr ⟨rest, ?_, same⟩
    rw [List.concat_eq_append, List.singleton_inj.1 final]

end Machine

/-! ### Transition systems -/

/-- A transition system: where it may start and how it may move. -/
structure System (σ : Type*) where
  init : σ → Prop
  step : σ → σ → Prop

namespace System

variable {σ τ : Type*}

/-- The states some finite run from an initial state ends in. -/
inductive Reachable (system : System σ) : σ → Prop where
  | init {s : σ} (start : system.init s) : Reachable system s
  | step {s t : σ} (reached : Reachable system s) (move : system.step s t) : Reachable system t

/-- A property of the initial states that every step keeps holds of every reachable state. -/
theorem invariant {system : System σ} {inv : σ → Prop}
    (start : ∀ s, system.init s → inv s)
    (kept : ∀ s t, system.Reachable s → inv s → system.step s t → inv t)
    {s : σ} (reached : system.Reachable s) : inv s := by
  induction reached with
  | init h => exact start _ h
  | step reached move ih => exact kept _ _ reached ih move

/-- The system of a labelled step relation, limited to the steps that are admitted. -/
def labelled {α : Type*} (init : σ → Prop) (step : σ → α → σ → Prop) (admits : σ → α → Prop) :
    System σ where
  init := init
  step s t := ∃ label, admits s label ∧ step s label t

/-- The induction rule for admitted labelled steps. -/
theorem labelled_invariant {α : Type*} {init : σ → Prop} {step : σ → α → σ → Prop}
    {admits : σ → α → Prop} {inv : σ → Prop} (start : ∀ s, init s → inv s)
    (kept : ∀ s label t, inv s → admits s label → step s label t → inv t)
    {s : σ} (reached : (labelled init step admits).Reachable s) : inv s := by
  apply System.invariant start _ reached
  intro s t _ holds move
  obtain ⟨label, admitted, taken⟩ := move
  exact kept s label t holds admitted taken

/-- Reachability by one more labelled step. -/
theorem Reachable.take {α : Type*} {init : σ → Prop} {step : σ → α → σ → Prop}
    {admits : σ → α → Prop} {s t : σ} (reached : (labelled init step admits).Reachable s)
    (label : α) (admitted : admits s label) (taken : step s label t) :
    (labelled init step admits).Reachable t :=
  .step reached ⟨label, admitted, taken⟩

/-- What is reachable by admitted steps stays so where more is admitted. -/
theorem Reachable.weaken {α : Type*} {init : σ → Prop} {step : σ → α → σ → Prop}
    {admits more : σ → α → Prop} {s : σ} (weaker : ∀ s label, admits s label → more s label)
    (reached : (labelled init step admits).Reachable s) : (labelled init step more).Reachable s := by
  induction reached with
  | init start => exact .init start
  | step reached move ih =>
      obtain ⟨label, admitted, taken⟩ := move
      exact ih.take label (weaker _ label admitted) taken

/-- A run of a labelled step relation, with the labels of its steps in order. -/
inductive Run {α : Type*} (step : σ → α → σ → Prop) (s : σ) : List α → σ → Prop where
  | nil : Run step s [] s
  | snoc {labels : List α} {label : α} {t u : σ} (ran : Run step s labels t)
      (taken : step t label u) : Run step s (labels ++ [label]) u

/-- Forward simulation with stuttering: the abstraction of an initial state is initial, and the
    abstraction of a step from a reachable state is a step or no move at all. -/
structure Refines (concrete : System σ) (abstract : System τ) (view : σ → τ) : Prop where
  start : ∀ s, concrete.init s → abstract.init (view s)
  simulate : ∀ s t, concrete.Reachable s → concrete.step s t →
    abstract.step (view s) (view t) ∨ view t = view s

/-- A refinement carries reachability to the abstract system. -/
theorem Refines.reachable {concrete : System σ} {abstract : System τ} {view : σ → τ}
    (refinement : Refines concrete abstract view) {s : σ} (reached : concrete.Reachable s) :
    abstract.Reachable (view s) := by
  induction reached with
  | init start => exact .init (refinement.start _ start)
  | step reached move ih =>
      rcases refinement.simulate _ _ reached move with moved | stuttered
      · exact .step ih moved
      · rw [stuttered]
        exact ih

/-- Forward simulation by a relation: what a step leads to stands for the same abstract state or for one a
    step away. -/
theorem Reachable.related {concrete : System σ} {abstract : System τ} {related : σ → τ → Prop}
    (start : ∀ s, concrete.init s → ∃ a, abstract.init a ∧ related s a)
    (simulate : ∀ s t a, abstract.Reachable a → related s a → concrete.step s t →
      related t a ∨ ∃ b, abstract.step a b ∧ related t b)
    {s : σ} (reached : concrete.Reachable s) : ∃ a, abstract.Reachable a ∧ related s a := by
  induction reached with
  | init starts =>
      obtain ⟨a, first, stands⟩ := start _ starts
      exact ⟨a, .init first, stands⟩
  | step _ move ih =>
      obtain ⟨a, reachable, stands⟩ := ih
      rcases simulate _ _ a reachable stands move with stutters | ⟨b, moved, stands⟩
      · exact ⟨a, reachable, stutters⟩
      · exact ⟨b, .step reachable moved, stands⟩

end System

end Foundations
