/-
Module: MongoHa.Wrapper.Keyfile
Layer: Wrapper
Purpose: The keyfiles of a rotation: the content `keyfile.rs` derives from a shared secret, with SHA-256 as
  the parameter `sha256`, the request of `credentials.rs`, the keyfile each of its two passes asks for, and
  the test whether two keyfiles share a key.
Imports: MongoHa.Foundations.Base64, MongoHa.Foundations.JsonStrings, MongoHa.Foundations.RustStr
Trusted boundary: human-reviewed spec
Main exports: deriveKeyfileContent, Operation, Rotation, targetKeyfile, Rotation.isKeyPass,
  Rotation.passKeyfile, keysOf, keysOverlap, keysOf_derived, keysOf_both, keysOverlap_iff,
  trim_toText, trim_derived, toText_ne_derived, targetKeyfile_overlap, targetKeyfile_commit
Open obligations: none
-/
import MongoHa.Foundations.Base64
import MongoHa.Foundations.JsonStrings
import MongoHa.Foundations.RustStr

namespace MongoHa

open Foundations
open Foundations.RustStr

/-- The keyfile content for a shared secret: base64 of its SHA-256. -/
def deriveKeyfileContent (sha256 : List UInt8 → List UInt8) (sharedSecret : String) : String :=
  Base64.encode (sha256 sharedSecret.toUTF8.data.toList)

/-! ### Requests -/

/-- The phases of a rotation, as requests name them. -/
inductive Operation where
  | preflight
  | prepare
  | database
  | member
  | verify
  | keyStatus
  | keyPrepare
  | keyCommit
deriving Repr, DecidableEq, Inhabited

/-- A request to `/credentials/rotate`, which is also what the pending file of a rotation holds. -/
structure Rotation where
  operation : Operation
  newPassword : String
  currentPassword : String
deriving Repr, DecidableEq, Inhabited

/-- The keyfile a pass of the rotation asks for: both keys, then the target only. -/
def targetKeyfile (deriveKeyfileContent : String → String) (request : Rotation) (overlap : Bool) :
    String :=
  let newKey := deriveKeyfileContent request.newPassword
  let oldKey := deriveKeyfileContent request.currentPassword
  if overlap ∧ oldKey ≠ newKey then JsonStrings.toText [oldKey, newKey] else newKey

/-- Whether a request asks for a pass. -/
def Rotation.isKeyPass (request : Rotation) : Prop :=
  request.operation = .keyPrepare ∨ request.operation = .keyCommit

/-- The keyfile a request asks for. -/
def Rotation.passKeyfile (deriveKeyfileContent : String → String) (request : Rotation) : String :=
  targetKeyfile deriveKeyfileContent request (request.operation = .keyPrepare)

/-- The keys of a keyfile: an array of strings, or the whole text as one key. -/
def keysOf (text : String) : List String :=
  (JsonStrings.fromText text).getD [trim text]

/-- `keys_overlap`. -/
def keysOverlap (left right : String) : Bool :=
  (keysOf right).any fun key => (keysOf left).contains key

/-- Two keyfiles overlap exactly when they share a key. -/
theorem keysOverlap_iff {left right : String} :
    keysOverlap left right = true ↔ ∃ key, key ∈ keysOf left ∧ key ∈ keysOf right := by
  simp [keysOverlap, and_comm]

/-- The keyfile of two keys holds both. -/
theorem keysOf_both (old new : String) : keysOf (JsonStrings.toText [old, new]) = [old, new] := by
  rw [keysOf, JsonStrings.fromText_toText, Option.getD_some]

/-- The text of a list of strings is not padded. -/
theorem trim_toText (strings : List String) :
    trim (JsonStrings.toText strings) = JsonStrings.toText strings := by
  obtain ⟨inner, closed⟩ : ∃ inner, JsonStrings.elementsText strings = inner ++ [']'] := by
    cases strings with
    | nil => exact ⟨[], rfl⟩
    | cons first others => exact ⟨_, rfl⟩
  rw [JsonStrings.toText, closed]
  exact trim_enclosed inner (by decide) (by decide)

section Derived

variable (sha256 : List UInt8 → List UInt8)

/-- What stands in derived content is neither white space nor a bracket. -/
theorem solid_of_isDigit {c : Char} (digit : Base64.isDigit c = true) :
    isWhitespace c = false ∧ JsonStrings.isBlank c = false ∧ c ≠ '[' := by
  simp only [Base64.isDigit, Bool.or_eq_true, decide_eq_true_eq] at digit
  rcases digit with ((letter | rfl) | rfl) | rfl
  · have range : (65 ≤ c.toNat ∧ c.toNat ≤ 90 ∨ 97 ≤ c.toNat ∧ c.toNat ≤ 122) ∨
        48 ≤ c.toNat ∧ c.toNat ≤ 57 := by
      have bounds : ((decide (c.val ≥ 65 ∧ c.val ≤ 90) ||
          (decide (c.val ≥ 97) && decide (c.val ≤ 122))) ||
            (decide (c.val ≥ 48) && decide (c.val ≤ 57))) = true := letter
      simpa [UInt32.le_iff_toNat_le] using bounds
    have other : ∀ d : Char, ¬ ((65 ≤ d.toNat ∧ d.toNat ≤ 90 ∨ 97 ≤ d.toNat ∧ d.toNat ≤ 122) ∨
        48 ≤ d.toNat ∧ d.toNat ≤ 57) → c ≠ d := by
      rintro d outside rfl
      exact outside range
    refine ⟨?_, ?_, other '[' (by decide)⟩
    · simp [isWhitespace, UInt32.le_iff_toNat_le, ← UInt32.toNat_inj]
      omega
    · simp [JsonStrings.isBlank, other ' ' (by decide), other '\t' (by decide),
        other '\n' (by decide), other '\r' (by decide)]
  · decide
  · decide
  · decide

theorem solid_derived (secret : String) :
    ∀ c ∈ (deriveKeyfileContent sha256 secret).toList,
      isWhitespace c = false ∧ JsonStrings.isBlank c = false ∧ c ≠ '[' :=
  fun _ member => solid_of_isDigit (Base64.isDigit_of_mem_encode member)

theorem fromText_derived (secret : String) :
    JsonStrings.fromText (deriveKeyfileContent sha256 secret) = none :=
  JsonStrings.fromText_eq_none fun c member => (solid_derived sha256 secret c member).2

/-- Derived content is one key. -/
theorem keysOf_derived (secret : String) :
    keysOf (deriveKeyfileContent sha256 secret) = [deriveKeyfileContent sha256 secret] := by
  rw [keysOf, fromText_derived, Option.getD_none,
    trim_eq_self fun c member => (solid_derived sha256 secret c member).1]

/-- A derived keyfile is not padded. -/
theorem trim_derived (secret : String) :
    trim (deriveKeyfileContent sha256 secret) = deriveKeyfileContent sha256 secret :=
  trim_eq_self fun c member => (solid_derived sha256 secret c member).1

/-- Both keys together are another text than any key by itself. -/
theorem toText_ne_derived (strings : List String) (secret : String) :
    JsonStrings.toText strings ≠ deriveKeyfileContent sha256 secret := by
  intro same
  have read := JsonStrings.fromText_toText strings
  rw [same, fromText_derived] at read
  cases read

/-- The overlap pass asks for the keyfile of both keys. -/
theorem targetKeyfile_overlap {request : Rotation}
    (differs : deriveKeyfileContent sha256 request.currentPassword ≠
      deriveKeyfileContent sha256 request.newPassword) :
    targetKeyfile (deriveKeyfileContent sha256) request true =
      JsonStrings.toText [deriveKeyfileContent sha256 request.currentPassword,
        deriveKeyfileContent sha256 request.newPassword] := by
  simp [targetKeyfile, differs]

end Derived

@[simp] theorem targetKeyfile_commit (derive : String → String) (request : Rotation) :
    targetKeyfile derive request false = derive request.newPassword := by
  simp [targetKeyfile]

end MongoHa
