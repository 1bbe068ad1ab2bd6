/-
Module: MongoHa.Proofs.PinAtomicity
Layer: Proofs
Purpose: Pin writes by any number of tasks, with failures and crashes between any two steps. A reader finds
  the whole pin of the last rename that took effect, and one is there once a write completed. Every pin
  that took effect was computed from the one before it, so the keyfile of the last `write_pin` that took
  effect is never lost, and without one the volume's own keyfile stays.
Imports: MongoHa.Wrapper.PinWrites
Trusted boundary: none (fully proved)
Main exports: lastPin, Chained, lastKeyChange, Chained.keyfile, PinVolume.Sound, pinHeld, pin_guards,
  sound_of_reachable, pin_writes_atomic
Open obligations: none
-/
import MongoHa.Wrapper.PinWrites

namespace MongoHa

open Foundations
open Foundations.AtomicFile

/-! ### Chains of pins -/

/-- The pin after these writes. -/
def lastPin (start : Option AuthPin) (writes : List PinWrite) : Option AuthPin :=
  (writes.getLast?.map PinWrite.pin).or start

theorem lastPin_snoc (start : Option AuthPin) (writes : List PinWrite) (write : PinWrite) :
    lastPin start (writes ++ [write]) = some write.pin := by
  simp [lastPin]

/-- Every write is by a call that read the pin before it. -/
def Chained (start : Option AuthPin) (writes : List PinWrite) : Prop :=
  ∀ earlier write later, writes = earlier ++ write :: later →
    ∃ op, write.op = some op ∧ write.pin = PinOp.pin (lastPin start earlier) op

theorem Chained.of_prefix {start : Option AuthPin} {writes kept : List PinWrite}
    (chained : Chained start writes) (inside : kept <+: writes) : Chained start kept := by
  obtain ⟨undone, rfl⟩ := inside
  intro earlier write later split
  apply chained earlier write (later ++ undone)
  rw [split, List.append_assoc, List.cons_append]

theorem Chained.snoc {start : Option AuthPin} {writes : List PinWrite} {write : PinWrite} {op : PinOp}
    (chained : Chained start writes) (by_ : write.op = some op)
    (computed : write.pin = op.pin (lastPin start writes)) : Chained start (writes ++ [write]) := by
  intro earlier other later split
  rcases append_singleton_split split with ⟨rfl, rfl, rfl⟩ | ⟨rest, rfl, within⟩
  · exact ⟨op, by_, computed⟩
  · exact chained earlier other rest within

/-- The keyfile of the last `write_pin` among the writes. -/
def lastKeyChange (writes : List PinWrite) : Option String :=
  writes.foldl
    (fun latest write =>
      match write.op with
      | some (.writePin _ keyfile) => some keyfile
      | _ => latest) none

theorem lastKeyChange_snoc (writes : List PinWrite) (write : PinWrite) :
    lastKeyChange (writes ++ [write]) =
      match write.op with
      | some (.writePin _ keyfile) => some keyfile
      | _ => lastKeyChange writes := by
  rw [lastKeyChange, List.foldl_append]
  rfl

/-- A password write that had this keyfile to fall back on. -/
def FellBackOn (writes : List PinWrite) (keyfile : String) : Prop :=
  ∃ write ∈ writes, ∃ password, write.op = some (.writePasswordPin password (some keyfile))

/-- Where the keyfile of the pin comes from: the last key change, or the keyfile the volume started with,
    or the fallback of a password write. -/
structure KeyfileKept (start : Option AuthPin) (writes : List PinWrite) : Prop where
  changed : ∀ keyfile, lastKeyChange writes = some keyfile →
    (lastPin start writes).bind AuthPin.keyfile = some keyfile
  started : lastKeyChange writes = none → ∀ keyfile, start.bind AuthPin.keyfile = some keyfile →
    (lastPin start writes).bind AuthPin.keyfile = some keyfile
  fellBack : lastKeyChange writes = none → start.bind AuthPin.keyfile = none →
    ∀ keyfile, (lastPin start writes).bind AuthPin.keyfile = some keyfile → FellBackOn writes keyfile

/-- A chain of writes keeps the keyfile of the last `write_pin`. -/
theorem Chained.keyfile {start : Option AuthPin} {writes : List PinWrite}
    (chained : Chained start writes) : KeyfileKept start writes := by
  induction writes using List.reverseRecOn with
  | nil =>
      constructor
      · intro keyfile changed
        cases changed
      · intro _ keyfile started
        exact started
      · intro _ none keyfile held
        rw [lastPin, List.getLast?_nil, Option.map_none, Option.none_or, none] at held
        cases held
  | append_singleton writes write ih =>
      have kept := ih (chained.of_prefix (List.prefix_append ..))
      obtain ⟨op, by_, computed⟩ := chained writes write [] rfl
      cases op with
      | writePin password keyfile =>
          have held : (lastPin start (writes ++ [write])).bind AuthPin.keyfile = some keyfile := by
            rw [lastPin_snoc, computed]
            rfl
          have changed : lastKeyChange (writes ++ [write]) = some keyfile := by
            rw [lastKeyChange_snoc, by_]
          constructor
          · intro other same
            rw [held, ← changed, same]
          · intro none
            rw [changed] at none
            cases none
          · intro none
            rw [changed] at none
            cases none
      | writePasswordPin password fallbackKey =>
          have held : (lastPin start (writes ++ [write])).bind AuthPin.keyfile =
              ((lastPin start writes).bind AuthPin.keyfile).or fallbackKey := by
            rw [lastPin_snoc, computed]
            rfl
          have same : lastKeyChange (writes ++ [write]) = lastKeyChange writes := by
            rw [lastKeyChange_snoc, by_]
          constructor
          · intro keyfile changed
            rw [held, kept.changed keyfile (same ▸ changed), Option.some_or]
          · intro none keyfile started
            rw [held, kept.started (same ▸ none) keyfile started, Option.some_or]
          · intro none unkeyed keyfile now
            rw [held, Option.or_eq_some_iff] at now
            rcases now with before | ⟨-, rfl⟩
            · obtain ⟨other, member, fellBack⟩ :=
                kept.fellBack (same ▸ none) unkeyed keyfile before
              exact ⟨other, List.mem_append_left _ member, fellBack⟩
            · exact ⟨write, by simp, password, by_⟩

/-! ### What the lock guards -/

/-- The pin the volume started with. -/
def startPin (base : File PinWrite) : Option AuthPin :=
  readPin (pinFile base)

/-- What holds of the volume whoever has the lock. -/
structure PinVolume.Sound (base : File PinWrite) (volume : PinVolume) : Prop where
  origin : volume.disk.base = base
  whole : volume.disk.Whole
  chained : Chained (startPin base) volume.disk.effective
  completed : volume.completed = true → volume.disk.settled ≠ []

/-- The write was computed from the pin that is the last one still. -/
def PinVolume.Next (base : File PinWrite) (write : PinWrite) (volume : PinVolume) : Prop :=
  ∃ op, write.op = some op ∧ write.pin = PinOp.pin (lastPin (startPin base) volume.disk.effective) op

/-- What holds at each place of a call that has the lock. -/
def pinHeld (base : File PinWrite) : PinPhase → PinVolume → Prop
  | .locked _, volume => volume.Sound base
  | .creating write, volume => volume.Sound base ∧ volume.Next base write
  | .writing write, volume => volume.Sound base ∧ volume.Next base write
  | .syncing write, volume =>
      volume.Sound base ∧ volume.Next base write ∧ volume.disk.temp = .body write false
  | .renamingInto write, volume =>
      volume.Sound base ∧ volume.Next base write ∧ volume.disk.temp = .body write true
  | .syncingDirectory write, volume =>
      volume.Sound base ∧ volume.disk.effective.getLast? = some write
  | _, _ => False

variable {base : File PinWrite} {volume : PinVolume} {write : PinWrite}

theorem PinVolume.Sound.readPin (sound : volume.Sound base) :
    volume.readPin = lastPin (startPin base) volume.disk.effective := by
  rw [PinVolume.readPin, readPin_pinFile, sound.whole.read_path, sound.origin, lastPin, startPin,
    readPin_pinFile, Option.map_or]

/-- A step on the temporary file keeps the volume sound. -/
theorem PinVolume.Sound.onDisk (sound : volume.Sound base) {disk : Disk PinWrite}
    (same : disk.base = volume.disk.base) (settled : disk.settled = volume.disk.settled)
    (renames : disk.renames = volume.disk.renames) : (volume.onDisk disk).Sound base where
  origin := same.trans sound.origin
  whole := sound.whole.of_renames renames
  chained := by
    have same : (volume.onDisk disk).disk.effective = volume.disk.effective :=
      Disk.effective_of_renames renames
    rw [same]
    exact sound.chained
  completed := fun done => by
    rw [PinVolume.onDisk, settled]
    exact sound.completed done

theorem PinVolume.Sound.rename (sound : volume.Sound base) (next : volume.Next base write)
    (temp : volume.disk.temp = .body write true) : (volume.onDisk volume.disk.rename).Sound base where
  origin := sound.origin
  whole := sound.whole.rename temp
  chained := by
    obtain ⟨op, by_, computed⟩ := next
    rw [PinVolume.onDisk, Disk.effective_rename temp]
    exact sound.chained.snoc by_ computed
  completed := sound.completed

theorem PinVolume.Sound.syncDirectory (sound : volume.Sound base)
    (last : volume.disk.effective.getLast? = some write) :
    PinVolume.Sound base { disk := volume.disk.syncDirectory, completed := true } where
  origin := sound.origin
  whole := sound.whole.of_renames Disk.renames_syncDirectory
  chained := by
    have same : volume.disk.syncDirectory.effective = volume.disk.effective :=
      Disk.effective_of_renames Disk.renames_syncDirectory
    rw [same]
    exact sound.chained
  completed := by
    intro _ settled
    have none : volume.disk.renames = [] := settled
    rw [Disk.effective, none] at last
    cases last

theorem PinVolume.Sound.crash (sound : volume.Sound base) {left : PinVolume}
    (crash : Disk.Crash volume.disk left.disk) (completed : left.completed = volume.completed) :
    left.Sound base where
  origin := crash.base.trans sound.origin
  whole := crash.whole sound.whole
  chained := sound.chained.of_prefix (crash.effective sound.whole)
  completed := fun done => by
    obtain ⟨kept, -, same⟩ := crash.renames sound.whole
    rw [Disk.renames, crash.pending, List.append_nil] at same
    rw [same]
    simp [sound.completed (completed.symm.trans done)]

theorem sound_of_pinHeld {place : PinPhase} (held : pinHeld base place volume) :
    volume.Sound base := by
  cases place with
  | begins op => exact held.elim
  | locked op => exact held
  | creating write => exact held.1
  | writing write => exact held.1
  | syncing write => exact held.1
  | renamingInto write => exact held.1
  | syncingDirectory write => exact held.1
  | returned result => exact held.elim

/-- Every step of a pin write keeps what holds at its place. -/
theorem pin_guards (base : File PinWrite) : pinCode.Guards (PinVolume.Sound base) (pinHeld base) where
  enter enters sound := by
    obtain ⟨op, -, rfl⟩ := enters
    exact sound
  work works held := by
    cases works with
    | reads => exact ⟨held, _, rfl, by rw [held.readPin]⟩
    | creates => exact ⟨held.1.onDisk rfl rfl Disk.renames_create, held.2⟩
    | writes => exact ⟨held.1.onDisk rfl rfl Disk.renames_write, held.2, rfl⟩
    | syncs =>
        obtain ⟨sound, next, temp⟩ := held
        exact ⟨sound.onDisk rfl rfl Disk.renames_sync, next, by simp [PinVolume.onDisk, Disk.sync, temp]⟩
    | renames =>
        obtain ⟨sound, next, temp⟩ := held
        refine ⟨sound.rename next temp, ?_⟩
        rw [PinVolume.onDisk, Disk.effective_rename temp, List.getLast?_concat]
  leave leaves held := by
    cases leaves with
    | completes => exact held.1.syncDirectory held.2
    | openFails => exact held.1
    | modeFails => exact held.1.onDisk rfl rfl Disk.renames_create
    | writeFails => exact held.1.onDisk rfl rfl Disk.renames_create
    | syncFails => exact held.1
    | renameFails => exact held.1
    | syncDirectoryFails => exact held.1
  crash crashes guarded := by
    obtain ⟨crash, completed⟩ := crashes
    rcases guarded with sound | ⟨place, held⟩
    · exact sound.crash crash completed
    · exact (sound_of_pinHeld held).crash crash completed

/-! ### Runs -/

variable {ι : Type} [DecidableEq ι] {s : LockState ι PinVolume PinPhase}

theorem pinVolume_sound (base : File PinWrite) : (pinVolume base).Sound base := by
  constructor
  · rfl
  · intro file renamed
    cases renamed
  · intro earlier write later split
    simp [pinVolume, Disk.effective, Disk.renames] at split
  · intro done
    cases done

/-- Between any two steps the volume is sound, whichever task has the lock. -/
theorem sound_of_reachable (reached : (pinCode.system ι (pinVolume base)).Reachable s) :
    s.shared.Sound base :=
  ((pin_guards base).reachable (pinVolume_sound base) reached).always (fun _ free => free)
    fun _ _ => sound_of_pinHeld

/-- At every moment of a run, whichever task has the lock and wherever crashes came, readers find the whole
    pin of the last rename that took effect, and one once a write completed, and its keyfile is that of the
    last `write_pin` that took effect, or else the volume's own, or else a fallback of a password write. -/
theorem pin_writes_atomic (reached : (pinCode.system ι (pinVolume base)).Reachable s) :
    s.shared.disk.Whole ∧
    s.shared.readPin = lastPin (startPin base) s.shared.disk.effective ∧
    (s.shared.completed = true → s.shared.readPin ≠ none) ∧
    KeyfileKept (startPin base) s.shared.disk.effective := by
  have sound := sound_of_reachable reached
  refine ⟨sound.whole, sound.readPin, fun done => ?_, sound.chained.keyfile⟩
  obtain ⟨file, rest, settled⟩ := List.exists_cons_of_ne_nil (sound.completed done)
  obtain ⟨write, rfl⟩ := sound.whole file (by simp [Disk.renames, settled])
  rw [sound.readPin, lastPin]
  simp [Disk.effective, Disk.renames, settled, File.read]

/-- A first `write_pin` that completes before a crash: the pin is there afterwards with its keyfile. -/
theorem completed_pin_survives_crash :
    ∃ s : LockState Unit PinVolume PinPhase, (pinCode.system Unit (pinVolume .absent)).Reachable s ∧
      s.shared.readPin = some { password := "secret", keyfile := some "key" } := by
  have begun : (pinCode.system Unit (pinVolume .absent)).Reachable
      { shared := pinVolume .absent, owner := none
        phase := fun _ => .begins (.writePin "secret" "key") } :=
    .init ⟨rfl, rfl, fun _ => ⟨_, rfl⟩⟩
  have computed := (begun.take (.call ()) trivial (.enter rfl ⟨_, rfl, rfl⟩)).take (.call ()) trivial
    (.work rfl .reads)
  have renamed := (((computed.take (.call ()) trivial (.work rfl .creates)).take (.call ()) trivial
    (.work rfl .writes)).take (.call ()) trivial (.work rfl .syncs)).take (.call ()) trivial
      (.work rfl .renames)
  have completed := renamed.take (.call ()) trivial (.leave rfl .completes)
  have crashed := completed.take .crash trivial
    (.crash ⟨⟨rfl, ⟨[], List.nil_prefix, .cons (.kept _) .nil⟩, rfl⟩, rfl⟩
      fun _ => ⟨.writePasswordPin "later" none, rfl⟩)
  obtain ⟨-, reads, -, -⟩ := pin_writes_atomic crashed
  exact ⟨_, crashed, reads⟩

end MongoHa
