/-
Module: MongoHa.Foundations.Collect
Layer: Foundations
Purpose: A fallible function over a list, as Rust collects an iterator of results: the values in order, or
  the first failure.
Imports: Mathlib.Data.List.Forall2
Trusted boundary: none (fully proved)
Main exports: mapM_ok_iff, mapM_error_iff
Open obligations: none
-/
import Mathlib.Data.List.Forall2

namespace Foundations.Collect

variable {α β ε : Type*} {f : α → Except ε β}

/-- A `mapM` succeeds exactly when every element does, in order. -/
theorem mapM_ok_iff {xs : List α} {ys : List β} :
    xs.mapM f = .ok ys ↔ List.Forall₂ (fun x y => f x = .ok y) xs ys := by
  induction xs generalizing ys with
  | nil =>
      rw [List.mapM_nil, List.forall₂_nil_left_iff]
      constructor
      · intro collected
        cases collected
        rfl
      · rintro rfl
        rfl
  | cons x rest ih =>
      rw [List.mapM_cons, List.forall₂_cons_left_iff]
      cases first : f x with
      | error failure =>
          apply iff_of_false
          · intro collected
            cases collected
          · rintro ⟨value, others, impossible, -⟩
            cases impossible
      | ok value =>
          cases later : rest.mapM f with
          | error failure =>
              apply iff_of_false
              · intro collected
                cases collected
              · rintro ⟨_, others, -, matched, -⟩
                rw [← ih, later] at matched
                cases matched
          | ok values =>
              constructor
              · intro collected
                cases collected
                exact ⟨value, values, rfl, ih.1 later, rfl⟩
              · rintro ⟨_, others, same, matched, rfl⟩
                cases same
                rw [← ih, later] at matched
                cases matched
                rfl

/-- The list is refused exactly when one of its entries is. -/
theorem mapM_error_iff {xs : List α} :
    (∃ failure, xs.mapM f = .error failure) ↔ ∃ x ∈ xs, ∃ failure, f x = .error failure := by
  induction xs with
  | nil =>
      apply iff_of_false
      · rintro ⟨failure, impossible⟩
        cases impossible
      · rintro ⟨x, impossible, -⟩
        cases impossible
  | cons x rest ih =>
      rw [List.exists_mem_cons_iff, ← ih, List.mapM_cons]
      cases f x with
      | error failure => exact iff_of_true ⟨failure, rfl⟩ (Or.inl ⟨failure, rfl⟩)
      | ok value =>
          cases rest.mapM f with
          | error failure => exact iff_of_true ⟨failure, rfl⟩ (Or.inr ⟨failure, rfl⟩)
          | ok values =>
              apply iff_of_false
              · rintro ⟨failure, impossible⟩
                cases impossible
              · rintro (⟨failure, impossible⟩ | ⟨failure, impossible⟩)
                · cases impossible
                · cases impossible

end Foundations.Collect
