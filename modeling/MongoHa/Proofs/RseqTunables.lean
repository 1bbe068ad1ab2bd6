/-
Module: MongoHa.Proofs.RseqTunables
Layer: Proofs
Purpose: The rewritten `GLIBC_TUNABLES` have exactly the inherited entries that are not for rseq, in their
  order, and the fallback; rewriting them again changes nothing. Over the life of a wrapper every mongod is
  started with the tunables that the first start decided on, by the kernel it found.
Imports: MongoHa.Foundations.Machine, MongoHa.Wrapper.KernelCompat
Trusted boundary: none (fully proved)
Main exports: withRseqFallback_lossless, MongodStart, tunables_decided_once,
  children_by_kernel
Open obligations: none
-/
import MongoHa.Foundations.Machine
import MongoHa.Wrapper.KernelCompat

namespace MongoHa

open Foundations
open Foundations.RustStr

/-! ### One rewriting -/

theorem splitOn_withRseqFallback (inherited : Option (List UInt8)) :
    (withRseqFallback inherited).splitOn colon =
      ((inherited.getD []).splitOn colon).filter keepsTunable ++ [rseqFallback] :=
  splitOn_intercalate_filter colon_notMem_rseqFallback keepsTunable (inherited.getD [])

/-- The entries that a rewriting kept are kept by the next one, and its own entry is replaced. -/
theorem filter_splitOn_withRseqFallback (inherited : Option (List UInt8)) :
    ((withRseqFallback inherited).splitOn colon).filter keepsTunable =
      ((inherited.getD []).splitOn colon).filter keepsTunable := by
  rw [splitOn_withRseqFallback, List.filter_append, List.filter_filter]
  simp [keepsTunable_rseqFallback]

theorem withRseqFallback_idempotent (inherited : Option (List UInt8)) :
    withRseqFallback (some (withRseqFallback inherited)) = withRseqFallback inherited := by
  rw [withRseqFallback, Option.getD_some, filter_splitOn_withRseqFallback, withRseqFallback]

/-- The tunables are rewritten without loss. -/
theorem withRseqFallback_lossless (inherited : Option (List UInt8)) :
    (withRseqFallback inherited).splitOn colon =
        ((inherited.getD []).splitOn colon).filter
            (fun entry => entry ≠ [] ∧ ¬ rseqKey <+: entry) ++ [rseqFallback] ∧
      withRseqFallback (some (withRseqFallback inherited)) = withRseqFallback inherited := by
  refine ⟨?_, withRseqFallback_idempotent inherited⟩
  have same : keepsTunable = fun entry => decide (entry ≠ [] ∧ ¬ rseqKey <+: entry) := by
    funext entry
    rw [Bool.eq_iff_iff, decide_eq_true_iff]
    exact keepsTunable_iff
  rw [splitOn_withRseqFallback, same]

/-! ### The starts of a wrapper -/

/-- One start of a mongod: what the wrapper would read then, and the command. -/
structure MongodStart where
  reads : KernelReads
  command : CommandEnv

namespace MongodStart

/-- The cell after a start. -/
def next (start : MongodStart) (cell : Option (Option (List UInt8))) :
    Option (Option (List UInt8)) :=
  (configureMongod cell start.reads start.command).1

/-- The environment the child gets. -/
def child (start : MongodStart) (cell : Option (Option (List UInt8))) : CommandEnv :=
  (configureMongod cell start.reads start.command).2

theorem next_eq (cell : Option (Option (List UInt8))) (start : MongodStart) :
    start.next cell = some (cell.getD (childTunables start.reads)) := rfl

theorem child_eq (cell : Option (Option (List UInt8))) (start : MongodStart) :
    start.child cell = setTunables (cell.getD (childTunables start.reads)) start.command := rfl

end MongodStart

/-- Every start of a wrapper uses what its first start decided, whatever there is to read later. -/
theorem tunables_decided_once {first : MongodStart} {later : List MongodStart}
    {entry : Option (Option (List UInt8)) × MongodStart}
    (member : entry ∈ trace (fun cell start => start.next cell) none (first :: later)) :
    entry.2.child entry.1 = setTunables (childTunables first.reads) entry.2.command := by
  rw [trace_cons, MongodStart.next_eq, Option.getD_none, List.mem_cons] at member
  rcases member with rfl | afterwards
  · rw [MongodStart.child_eq, Option.getD_none]
  · obtain ⟨before, _, -, state⟩ := mem_trace_iff.1 afterwards
    have filled : entry.1 = some (childTunables first.reads) := by
      rw [state]
      apply finalState_invariant (motive := (· = some (childTunables first.reads))) rfl
      intro met _ kept
      rw [MongodStart.next_eq, kept, Option.getD_some]
    rw [MongodStart.child_eq, filled, Option.getD_some]

/-- What every mongod of a wrapper is started with, on a kernel whose release spells a version when the
    first one starts: on Linux 6.19.0 through 7.0.13 the rewritten tunables, elsewhere what its command
    says, and in either case every other variable of the command. -/
theorem children_by_kernel {first : MongodStart} {later : List MongodStart}
    {entry : Option (Option (List UInt8)) × MongodStart}
    (member : entry ∈ trace (fun cell start => start.next cell) none (first :: later))
    {release suffix : String} {version : KernelVersion} (read : first.reads.release = .ok release)
    (spelled : trim release = toString version.major.toNat ++ "." ++
      (toString version.minor.toNat ++ "." ++ (toString version.patch.toNat ++ suffix)))
    (ends : endsPatch suffix.toList = true) :
    entry.2.child entry.1 "GLIBC_TUNABLES" =
        (if version.major = 6 ∧ 19 ≤ version.minor ∨
            version.major = 7 ∧ version.minor = 0 ∧ version.patch ≤ 13 then
          some (withRseqFallback first.reads.inherited)
        else entry.2.command "GLIBC_TUNABLES") ∧
      ∀ name, name ≠ "GLIBC_TUNABLES" → entry.2.child entry.1 name = entry.2.command name := by
  rw [tunables_decided_once member]
  refine ⟨?_, fun name other => setTunables_of_ne _ _ other⟩
  rw [childTunables_of_recognised read (affectedKernel_spelled spelled ends)]
  simp only [inAffectedRange_iff]
  split
  · exact setTunables_some_self _ _
  · rfl

end MongoHa
