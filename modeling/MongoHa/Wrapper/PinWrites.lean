/-
Module: MongoHa.Wrapper.PinWrites
Layer: Wrapper
Purpose: `write_pin` and `write_password_pin` of `auth_pin.rs` step by step, for any number of tasks of one
  process: the process-wide lock, the read of the current pin, and every filesystem step of the write that
  follows, each of which may fail. A crash may come between any two of them; the tasks of the next process
  begin anew. A body that is not whole reads as garbage.
Imports: MongoHa.Foundations.AtomicFile, MongoHa.Foundations.CriticalSection, MongoHa.Wrapper.AuthPin
Trusted boundary: human-reviewed spec
Main exports: PinOp, PinOp.pin, PinWrite, pinFile, PinVolume, PinPhase, PinWork, PinLeave, pinCode,
  pinVolume
Open obligations: none
-/
import MongoHa.Foundations.AtomicFile
import MongoHa.Foundations.CriticalSection
import MongoHa.Wrapper.AuthPin

namespace MongoHa

open Foundations
open Foundations.AtomicFile

/-- A call that writes the pin. Every `write_pin` carries a keyfile. -/
inductive PinOp where
  | writePin (password keyfile : String)
  | writePasswordPin (password : String) (fallbackKey : Option String)
deriving Repr, DecidableEq, Inhabited

/-- The pin a call writes where it reads this one. -/
def PinOp.pin (current : Option AuthPin) : PinOp → AuthPin
  | .writePin password keyfile => { password := password, keyfile := some keyfile }
  | .writePasswordPin password fallbackKey =>
      { password := password, keyfile := (current.bind AuthPin.keyfile).or fallbackKey }

/-- A body of the pin's file, with the call that wrote it, or none for the one the volume came with. -/
structure PinWrite where
  op : Option PinOp
  pin : AuthPin
deriving Repr, DecidableEq, Inhabited

/-- The file as a reader of the pin sees it. -/
def pinFile : File PinWrite → PinFile
  | .absent => .absent
  | .torn => .garbage
  | .body write _ => .pin write.pin

theorem readPin_pinFile (file : File PinWrite) :
    readPin (pinFile file) = file.read.map PinWrite.pin := by
  cases file with
  | absent => rfl
  | torn => rfl
  | body write synced => rfl

/-- The volume, and whether a write has returned `Ok` on it. -/
structure PinVolume where
  disk : Disk PinWrite
  completed : Bool
deriving Repr

namespace PinVolume

/-- `read_pin`. -/
def readPin (volume : PinVolume) : Option AuthPin :=
  MongoHa.readPin (pinFile volume.disk.path)

def onDisk (volume : PinVolume) (disk : Disk PinWrite) : PinVolume :=
  { volume with disk := disk }

end PinVolume

/-- Where a task is in its call. -/
inductive PinPhase where
  | begins (op : PinOp)
  | locked (op : PinOp)
  | creating (write : PinWrite)
  | writing (write : PinWrite)
  | syncing (write : PinWrite)
  | renamingInto (write : PinWrite)
  | syncingDirectory (write : PinWrite)
  | returned (result : Except WriteFailure Unit)
deriving Repr, DecidableEq

/-- A step of a pin write that succeeds and keeps the lock. -/
inductive PinWork : PinPhase → PinVolume → PinPhase → PinVolume → Prop where
  | reads {op : PinOp} {volume : PinVolume} :
      PinWork (.locked op) volume (.creating { op := some op, pin := op.pin volume.readPin }) volume
  | creates {write : PinWrite} {volume : PinVolume} :
      PinWork (.creating write) volume (.writing write) (volume.onDisk volume.disk.create)
  | writes {write : PinWrite} {volume : PinVolume} :
      PinWork (.writing write) volume (.syncing write) (volume.onDisk (volume.disk.write write))
  | syncs {write : PinWrite} {volume : PinVolume} :
      PinWork (.syncing write) volume (.renamingInto write) (volume.onDisk volume.disk.sync)
  | renames {write : PinWrite} {volume : PinVolume} :
      PinWork (.renamingInto write) volume (.syncingDirectory write) (volume.onDisk volume.disk.rename)

/-- A step that fails returns its error. Creating may fail after the file was truncated, when its mode is
    set, and writing after a part of the body. -/
inductive PinLeave : PinPhase → PinVolume → PinPhase → PinVolume → Prop where
  | completes {write : PinWrite} {volume : PinVolume} :
      PinLeave (.syncingDirectory write) volume (.returned (.ok ()))
        { disk := volume.disk.syncDirectory, completed := true }
  | openFails {write : PinWrite} {volume : PinVolume} :
      PinLeave (.creating write) volume (.returned (.error .creating)) volume
  | modeFails {write : PinWrite} {volume : PinVolume} :
      PinLeave (.creating write) volume (.returned (.error .creating))
        (volume.onDisk volume.disk.create)
  | writeFails {write : PinWrite} {volume : PinVolume} :
      PinLeave (.writing write) volume (.returned (.error .writing)) (volume.onDisk volume.disk.create)
  | syncFails {write : PinWrite} {volume : PinVolume} :
      PinLeave (.syncing write) volume (.returned (.error .syncing)) volume
  | renameFails {write : PinWrite} {volume : PinVolume} :
      PinLeave (.renamingInto write) volume (.returned (.error .renaming)) volume
  | syncDirectoryFails {write : PinWrite} {volume : PinVolume} :
      PinLeave (.syncingDirectory write) volume (.returned (.error .syncingDirectory)) volume

/-- Pin writes as the code of a lock. -/
def pinCode : LockCode PinVolume PinPhase where
  begins phase := ∃ op, phase = .begins op
  enter phase next := ∃ op, phase = .begins op ∧ next = .locked op
  work := PinWork
  leave := PinLeave
  crash volume left := Disk.Crash volume.disk left.disk ∧ left.completed = volume.completed

/-- A volume before any write. -/
def pinVolume (base : File PinWrite) : PinVolume :=
  { disk := { base := base, settled := [], pending := [], temp := .absent }, completed := false }

end MongoHa
