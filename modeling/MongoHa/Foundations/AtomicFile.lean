/-
Module: MongoHa.Foundations.AtomicFile
Layer: Foundations
Purpose: A file that is replaced by renaming a temporary file over it, on a disk that may lose power.
  Content that was not synced may be torn by a crash, and renames that the directory was not synced for may
  be undone from the last one back; a rename itself is atomic. The disk keeps the history of its renames,
  so that what took effect can be spoken of: when only synced bodies are renamed, readers always see the
  body of the last rename that took effect, and a crash leaves a prefix of them.
Imports: Mathlib.Data.List.Infix, Mathlib.Data.List.Forall2
Trusted boundary: none (fully proved)
Main exports: File, Disk, Disk.create, Disk.write, Disk.sync, Disk.rename, Disk.syncDirectory, Disk.Crash,
  Disk.effective, Disk.Whole, Disk.effective_rename, Disk.Whole.read_path, Disk.Crash.whole,
  Disk.Crash.effective
Open obligations: none
-/
import Mathlib.Data.List.Infix
import Mathlib.Data.List.Forall2

namespace Foundations.AtomicFile

/-- What is at a path. -/
inductive File (α : Type*) where
  | absent
  /-- Not the whole of any body. -/
  | torn
  | body (content : α) (synced : Bool)
deriving Repr, DecidableEq, Inhabited

/-- The file with its history, and the temporary file beside it. -/
structure Disk (α : Type*) where
  /-- What the disk held at the path before any rename. -/
  base : File α
  /-- The renames that a crash does not undo, oldest first. -/
  settled : List (File α)
  pending : List (File α)
  temp : File α
deriving Repr

variable {α : Type*}

def File.read : File α → Option α
  | .body content _ => some content
  | _ => none

namespace Disk

/-! ### Operations -/

/-- Create or truncate the temporary file. -/
def create (disk : Disk α) : Disk α :=
  { disk with temp := .torn }

/-- Writing the temporary file. -/
def write (disk : Disk α) (content : α) : Disk α :=
  { disk with temp := .body content false }

/-- `fsync` of the temporary file. -/
def sync (disk : Disk α) : Disk α :=
  { disk with
    temp := match disk.temp with
      | .body content _ => .body content true
      | file => file }

/-- The rename into the path. -/
def rename (disk : Disk α) : Disk α :=
  { disk with pending := disk.pending ++ [disk.temp], temp := .absent }

/-- `fsync` of the directory: the renames so far stay. -/
def syncDirectory (disk : Disk α) : Disk α :=
  { disk with settled := disk.settled ++ disk.pending, pending := [] }

def renames (disk : Disk α) : List (File α) :=
  disk.settled ++ disk.pending

/-- What readers find at the path. -/
def path (disk : Disk α) : File α :=
  disk.renames.getLast?.getD disk.base

/-- What a crash may leave of a file. -/
inductive Survives : File α → File α → Prop where
  | kept (file : File α) : Survives file file
  | lost (content : α) : Survives (.body content false) .torn

/-- A crash keeps the pending renames up to some point, and anything of the temporary file. -/
structure Crash (disk after : Disk α) : Prop where
  base : after.base = disk.base
  settled : ∃ kept, kept <+: disk.pending ∧
    List.Forall₂ Survives (disk.settled ++ kept) after.settled
  pending : after.pending = []

/-! ### Whole bodies -/

/-- The bodies of the renames, oldest first. -/
def effective (disk : Disk α) : List α :=
  disk.renames.filterMap File.read

/-- Only whole bodies that were synced have been renamed. -/
def Whole (disk : Disk α) : Prop :=
  ∀ file ∈ disk.renames, ∃ content, file = .body content true

variable {disk after : Disk α} {content : α}

@[simp] theorem renames_create : disk.create.renames = disk.renames := rfl

@[simp] theorem renames_write : (disk.write content).renames = disk.renames := rfl

@[simp] theorem renames_sync : disk.sync.renames = disk.renames := rfl

theorem renames_rename : disk.rename.renames = disk.renames ++ [disk.temp] := by
  simp [renames, rename]

@[simp] theorem renames_syncDirectory : disk.syncDirectory.renames = disk.renames := by
  simp [renames, syncDirectory]

/-- A rename of a synced body takes effect as the last one. -/
theorem effective_rename (temp : disk.temp = .body content true) :
    disk.rename.effective = disk.effective ++ [content] := by
  rw [effective, renames_rename, List.filterMap_append, temp]
  rfl

/-- Renaming a synced body keeps the disk whole. -/
theorem Whole.rename (whole : disk.Whole) (temp : disk.temp = .body content true) :
    disk.rename.Whole := by
  intro file renamed
  rw [renames_rename, List.mem_append, List.mem_singleton] at renamed
  rcases renamed with earlier | rfl
  · exact whole file earlier
  · exact ⟨content, temp⟩

theorem Whole.of_renames (whole : disk.Whole) (same : after.renames = disk.renames) : after.Whole := by
  intro file renamed
  rw [same] at renamed
  exact whole file renamed

theorem effective_of_renames (same : after.renames = disk.renames) :
    after.effective = disk.effective := by
  rw [effective, same, effective]

/-- Readers find the last body that took effect. -/
theorem Whole.read_path (whole : disk.Whole) :
    disk.path.read = disk.effective.getLast?.or disk.base.read := by
  unfold path effective
  rcases List.eq_nil_or_concat disk.renames with none | ⟨earlier, last, renamed⟩
  · rw [none]
    rfl
  · obtain ⟨content, rfl⟩ := whole last (by rw [renamed]; simp)
    rw [renamed]
    simp [File.read]

/-- A crash does not touch what was synced. -/
theorem survives_whole {files left : List (File α)} (survive : List.Forall₂ Survives files left)
    (whole : ∀ file ∈ files, ∃ content, file = .body content true) : left = files := by
  induction survive with
  | nil => rfl
  | cons survives rest ih =>
      rw [List.forall_mem_cons] at whole
      obtain ⟨⟨content, rfl⟩, whole⟩ := whole
      cases survives with
      | kept => rw [ih whole]

/-- After a crash the renames are a prefix of those before, with everything that was settled. -/
theorem Crash.renames (crash : Crash disk after) (whole : disk.Whole) :
    ∃ kept, kept <+: disk.pending ∧ after.renames = disk.settled ++ kept := by
  obtain ⟨kept, inside, survive⟩ := crash.settled
  refine ⟨kept, inside, ?_⟩
  have files : ∀ file ∈ disk.settled ++ kept, ∃ content, file = .body content true := by
    intro file member
    apply whole
    rcases List.mem_append.1 member with settled | pending
    · exact List.mem_append_left _ settled
    · exact List.mem_append_right _ (inside.subset pending)
  rw [Disk.renames, crash.pending, List.append_nil, survives_whole survive files]

/-- A crash tears nothing that was renamed synced. -/
theorem Crash.whole (crash : Crash disk after) (whole : disk.Whole) : after.Whole := by
  obtain ⟨kept, inside, same⟩ := crash.renames whole
  intro file renamed
  rw [same] at renamed
  apply whole
  rcases List.mem_append.1 renamed with settled | pending
  · exact List.mem_append_left _ settled
  · exact List.mem_append_right _ (inside.subset pending)

/-- What took effect before a crash and survives it. -/
theorem Crash.effective (crash : Crash disk after) (whole : disk.Whole) :
    after.effective <+: disk.effective := by
  obtain ⟨kept, ⟨undone, pending⟩, same⟩ := crash.renames whole
  rw [Disk.effective, Disk.effective, same]
  apply List.IsPrefix.filterMap
  rw [Disk.renames, ← pending, ← List.append_assoc]
  exact List.prefix_append ..

end Disk

end Foundations.AtomicFile
