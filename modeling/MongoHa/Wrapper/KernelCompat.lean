/-
Module: MongoHa.Wrapper.KernelCompat
Layer: Wrapper
Purpose: `kernel_compat.rs`: which kernels MongoDB's allocator does not run on, the `GLIBC_TUNABLES` that
  make it fall back there, and the environment of a mongod child, which is decided once per wrapper.
Imports: Mathlib.Logic.Function.Basic, MongoHa.Wrapper.Config
Trusted boundary: human-reviewed spec
Main exports: rseqKey, rseqFallback, withRseqFallback, KernelVersion, affectedKernel, KernelReads,
  childTunables, configureMongod, keepsTunable_iff, inAffectedRange_iff, affectedKernel_spelled,
  setTunables_of_ne, childTunables_of_recognised
Open obligations: none
-/
import Mathlib.Logic.Function.Basic
import MongoHa.Wrapper.Config

namespace MongoHa

open Foundations.RustStr

/-! ### The tunables -/

def colon : UInt8 := ':'.toUInt8

/-- The tunable that names rseq. -/
def rseqKey : List UInt8 := bytes "glibc.pthread.rseq="

/-- The entry that is added. -/
def rseqFallback : List UInt8 := bytes "glibc.pthread.rseq=1"

/-- An inherited entry that is kept: not empty, and none for rseq. -/
def keepsTunable (entry : List UInt8) : Bool :=
  !entry.isEmpty && !rseqKey.isPrefixOf entry

/-- Replace every rseq entry, keeping all other tunables. The values are bytes and need not be UTF-8. -/
def withRseqFallback (inherited : Option (List UInt8)) : List UInt8 :=
  let entries := ((inherited.getD []).splitOn colon).filter keepsTunable
  [colon].intercalate (entries ++ [rseqFallback])

theorem colon_notMem_rseqFallback : colon ∉ rseqFallback := by decide

/-- The fallback is an rseq entry itself. -/
theorem keepsTunable_rseqFallback : keepsTunable rseqFallback = false := by decide

/-- An entry is kept unless it is empty or for rseq. -/
theorem keepsTunable_iff {entry : List UInt8} :
    keepsTunable entry = true ↔ entry ≠ [] ∧ ¬ rseqKey <+: entry := by
  rw [keepsTunable, Bool.and_eq_true, Bool.not_eq_true', Bool.not_eq_true', List.isEmpty_eq_false_iff,
    ← List.isPrefixOf_iff_prefix, Bool.not_eq_true]

/-! ### The kernel -/

/-- The three numbers of a kernel release. -/
structure KernelVersion where
  major : UInt32
  minor : UInt32
  patch : UInt32
deriving Repr, DecidableEq, Inhabited

/-- The order of Rust's tuples: the first components that differ decide. -/
def KernelVersion.Before (left right : KernelVersion) : Prop :=
  left.major < right.major ∨ left.major = right.major ∧
    (left.minor < right.minor ∨ left.minor = right.minor ∧ left.patch < right.patch)

instance (left right : KernelVersion) : Decidable (left.Before right) :=
  inferInstanceAs (Decidable (_ ∨ _))

/-- `(6, 19, 0)..(7, 0, 14)`. -/
def KernelVersion.InAffectedRange (version : KernelVersion) : Prop :=
  ¬ version.Before ⟨6, 19, 0⟩ ∧ version.Before ⟨7, 0, 14⟩

instance (version : KernelVersion) : Decidable version.InAffectedRange :=
  inferInstanceAs (Decidable (_ ∧ _))

/-- Linux 6.19.0 through 7.0.13. -/
theorem inAffectedRange_iff {version : KernelVersion} :
    version.InAffectedRange ↔
      version.major = 6 ∧ 19 ≤ version.minor ∨
        version.major = 7 ∧ version.minor = 0 ∧ version.patch ≤ 13 := by
  simp only [KernelVersion.InAffectedRange, KernelVersion.Before, ← UInt32.toNat_inj,
    UInt32.lt_iff_toNat_lt, UInt32.le_iff_toNat_le, UInt32.reduceToNat]
  omega

/-- What may follow the patch number. -/
def endsPatch : List Char → Bool
  | [] => true
  | c :: _ => c == '-' || c == '+' || c == '.'

/-- Whether a kernel release is affected, `none` for a release that is not recognised. The first two dots
    bound the major and the minor number, the patch number ends at the first character that is no digit. -/
def affectedKernel (release : String) : Option Bool := do
  let (major, rest) ← splitOnce "." (trim release)
  let major ← parseU32 major
  let (minor, tail) ← splitOnce "." rest
  let minor ← parseU32 minor
  let digits := tail.toList.takeWhile Char.isDigit
  let patch ← parseU32 (String.ofList digits)
  if endsPatch (tail.toList.drop digits.length) then
    some (decide (KernelVersion.InAffectedRange ⟨major, minor, patch⟩))
  else none

/-- The release that spells a version, with what may follow it, is recognised as that version. -/
theorem affectedKernel_spelled {release suffix : String} {version : KernelVersion}
    (spelled : trim release = toString version.major.toNat ++ "." ++
      (toString version.minor.toNat ++ "." ++ (toString version.patch.toNat ++ suffix)))
    (ends : endsPatch suffix.toList = true) :
    affectedKernel release = some (decide version.InAffectedRange) := by
  have point : ("." : String) = String.singleton '.' := rfl
  have noDot : ∀ n : Nat, '.' ∉ (toString n).toList := by
    intro n member
    exact absurd (isDigit_of_mem_toString member) (by decide)
  have cut : ∀ (n : Nat) (rest : String),
      splitOnce "." (toString n ++ "." ++ rest) = some (toString n, rest) := by
    intro n rest
    rw [point]
    exact splitOnce_singleton.2 ⟨rfl, noDot n⟩
  have stop : suffix.toList.takeWhile Char.isDigit = [] := by
    cases chars : suffix.toList with
    | nil => rfl
    | cons c rest =>
        rw [chars] at ends
        have mark : c.isDigit = false := by
          simp only [endsPatch, Bool.or_eq_true, beq_iff_eq] at ends
          rcases ends with (rfl | rfl) | rfl <;> rfl
        rw [List.takeWhile_cons_of_neg (by simp [mark])]
  have digits : (toString version.patch.toNat ++ suffix).toList.takeWhile Char.isDigit =
      (toString version.patch.toNat).toList := by
    rw [String.toList_append,
      List.takeWhile_append_of_pos fun _ member => isDigit_of_mem_toString member, stop,
      List.append_nil]
  have after : (toString version.patch.toNat ++ suffix).toList.drop
      (toString version.patch.toNat).toList.length = suffix.toList := by
    rw [String.toList_append, List.drop_left]
  rw [affectedKernel, spelled, cut]
  simp only [Option.bind_eq_bind, Option.bind_some, parseU32_toString, cut, digits, after,
    String.ofList_toList, ends, if_true]

/-! ### The children -/

/-- What the wrapper reads when it starts its first mongod: procfs and its own environment. -/
structure KernelReads where
  release : Except String String
  inherited : Option (List UInt8)
deriving Inhabited

/-- The tunables for the children, `none` where their environment is left alone. -/
def childTunables (reads : KernelReads) : Option (List UInt8) :=
  match reads.release with
  | .error _ => none
  | .ok release =>
      match affectedKernel release with
      | none => none
      | some false => none
      | some true => some (withRseqFallback reads.inherited)

/-- The variables a command sets for its child. -/
abbrev CommandEnv := String → Option (List UInt8)

def setTunables (tunables : Option (List UInt8)) (command : CommandEnv) : CommandEnv :=
  match tunables with
  | some tunables => Function.update command "GLIBC_TUNABLES" (some tunables)
  | none => command

/-- `configure_mongod`. The cell is `CHILD_TUNABLES`: the first call fills it and every later call reads
    it. -/
def configureMongod (cell : Option (Option (List UInt8))) (reads : KernelReads)
    (command : CommandEnv) : Option (Option (List UInt8)) × CommandEnv :=
  let tunables := cell.getD (childTunables reads)
  (some tunables, setTunables tunables command)

@[simp] theorem setTunables_some_self (tunables : List UInt8) (command : CommandEnv) :
    setTunables (some tunables) command "GLIBC_TUNABLES" = some tunables := by
  rw [setTunables, Function.update_self]

/-- No other variable of the child changes. -/
theorem setTunables_of_ne (tunables : Option (List UInt8)) (command : CommandEnv) {variable_ : String}
    (other : variable_ ≠ "GLIBC_TUNABLES") :
    setTunables tunables command variable_ = command variable_ := by
  cases tunables with
  | none => rfl
  | some tunables => exact Function.update_of_ne other _ _

/-- On a kernel that is recognised, the children get tunables exactly if it is affected. -/
theorem childTunables_of_recognised {reads : KernelReads} {release : String} {affected : Prop}
    [Decidable affected] (read : reads.release = .ok release)
    (recognised : affectedKernel release = some (decide affected)) :
    childTunables reads = if affected then some (withRseqFallback reads.inherited) else none := by
  rw [childTunables, read]
  dsimp only
  rw [recognised]
  by_cases holds : affected
  · simp [holds]
  · simp [holds]

end MongoHa
