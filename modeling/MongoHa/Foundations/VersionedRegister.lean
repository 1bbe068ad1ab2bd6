/-
Module: MongoHa.Foundations.VersionedRegister
Layer: Foundations
Purpose: A register edited by unlocked read-modify-write. An editor derives a new value from the value it
  read, under the next version, and submits it at any later time; the register installs a submission
  exactly when its version is strictly greater than the installed one. The invariant: a draft that is
  still acceptable was derived from the value now installed, so the accepted edits compose in the order
  of their acceptance.
Imports: Mathlib.Algebra.Ring.Int.Defs, MongoHa.Foundations.Machine
Trusted boundary: none (fully proved)
Main exports: Draft, State, Step, register, Composes, composes, foldlM_invariant, value_invariant
Open obligations: none
-/
import Mathlib.Algebra.Ring.Int.Defs
import MongoHa.Foundations.Machine

namespace Foundations.VersionedRegister

variable {α ε : Type*}

/-- What an editor derived from the value it read, with the version it submits it under. -/
structure Draft (α ε : Type*) where
  edit : ε
  result : α
  version : Int

/-- The installed value with its version, every draft made so far, and the edits accepted, in order. -/
structure State (α ε : Type*) where
  value : α
  version : Int
  drafts : List (Draft α ε)
  accepted : List ε

/-- An editor reads the register and drafts its edit, or a draft of a newer version is installed. -/
inductive Step (derive : ε → α → Option α) (s : State α ε) : State α ε → Prop where
  | read {edit : ε} {result : α} (derived : derive edit s.value = some result) :
      Step derive s
        { s with drafts := s.drafts ++ [{ edit, result, version := s.version + 1 }] }
  | accept {draft : Draft α ε} (drafted : draft ∈ s.drafts) (newer : s.version < draft.version) :
      Step derive s
        { s with
          value := draft.result
          version := draft.version
          accepted := s.accepted ++ [draft.edit] }

/-- The register from one installed value, with any number of editors. -/
def register (derive : ε → α → Option α) (start : α) (version : Int) : System (State α ε) where
  init s := s = { value := start, version := version, drafts := [], accepted := [] }
  step := Step derive

/-- What holds of the register however the edits interleave. -/
structure Composes (derive : ε → α → Option α) (start : α) (version : Int) (s : State α ε) : Prop where
  counted : s.version = version + s.accepted.length
  composed : s.accepted.foldlM (fun value edit => derive edit value) start = some s.value
  bounded : ∀ draft ∈ s.drafts, draft.version ≤ s.version + 1
  current : ∀ draft ∈ s.drafts, draft.version = s.version + 1 →
    derive draft.edit s.value = some draft.result

theorem Composes.step {derive : ε → α → Option α} {start : α} {version : Int} {s t : State α ε}
    (holds : Composes derive start version s) (move : Step derive s t) :
    Composes derive start version t := by
  cases move with
  | read derived =>
      refine ⟨holds.counted, holds.composed, ?_, ?_⟩
      · intro draft drafted
        rcases List.mem_append.1 drafted with before | now
        · exact holds.bounded draft before
        · obtain rfl := List.mem_singleton.1 now
          exact Int.le_refl _
      · intro draft drafted same
        rcases List.mem_append.1 drafted with before | now
        · exact holds.current draft before same
        · rw [List.mem_singleton.1 now]
          exact derived
  | @accept draft drafted newer =>
      -- A draft that is newer than the register carries the version right after it.
      have bound := holds.bounded draft drafted
      have next : draft.version = s.version + 1 := by omega
      have derived := holds.current draft drafted next
      refine ⟨?_, ?_, ?_, ?_⟩
      · rw [next, holds.counted]
        simp only [List.length_append, List.length_singleton]
        omega
      · simp [List.foldlM_append, holds.composed, derived]
      · intro other otherDrafted
        have := holds.bounded other otherDrafted
        simp only
        omega
      · intro other otherDrafted same
        have := holds.bounded other otherDrafted
        simp only at same
        omega

/-- In every reachable state the value is what the accepted edits make of the first one, in order. -/
theorem composes {derive : ε → α → Option α} {start : α} {version : Int} {s : State α ε}
    (reached : (register derive start version).Reachable s) : Composes derive start version s := by
  apply System.invariant _ (fun _ _ _ => Composes.step) reached
  rintro _ rfl
  exact ⟨by simp, rfl, by simp, by simp⟩

/-- A property of the start that every edit keeps holds of whatever edits were composed. -/
theorem foldlM_invariant {derive : ε → α → Option α} {inv : α → Prop}
    (kept : ∀ edit value result, inv value → derive edit value = some result → inv result)
    {edits : List ε} {start value : α} (holds : inv start)
    (composed : edits.foldlM (fun value edit => derive edit value) start = some value) :
    inv value := by
  induction edits generalizing start with
  | nil =>
      cases composed
      exact holds
  | cons edit rest ih =>
      rw [List.foldlM_cons, Option.bind_eq_bind, Option.bind_eq_some_iff] at composed
      obtain ⟨next, derived, composed⟩ := composed
      exact ih (kept edit start next holds derived) composed

/-- So it holds of the installed value in every reachable state. -/
theorem value_invariant {derive : ε → α → Option α} {inv : α → Prop}
    (kept : ∀ edit value result, inv value → derive edit value = some result → inv result)
    {start : α} {version : Int} (holds : inv start) {s : State α ε}
    (reached : (register derive start version).Reachable s) : inv s.value :=
  foldlM_invariant kept holds (composes reached).composed

end Foundations.VersionedRegister
