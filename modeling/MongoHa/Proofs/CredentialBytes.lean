/-
Module: MongoHa.Proofs.CredentialBytes
Layer: Proofs
Purpose: The credential pin as bytes. Whatever the passwords and keyfiles are, the bytes at the pin's path
  are read as the pin whose write took effect last, at every moment of a run of pin writes, and those of a
  file that was cut off as no pin.
Imports: MongoHa.Proofs.PinAtomicity, MongoHa.Wrapper.Documents
Trusted boundary: none (fully proved)
Main exports: readPinBytes_spells, pin_bytes_always_read
Open obligations: none
-/
import MongoHa.Proofs.PinAtomicity
import MongoHa.Wrapper.Documents

namespace MongoHa

open Foundations
open Foundations.AtomicFile

variable {base file : File PinWrite} {raw : Option (List UInt8)}

/-- Reading the bytes of the pin's file is reading the file. -/
theorem readPinBytes_spells (spelled : pinCodec.Spells PinWrite.pin file raw) :
    readPinBytes raw = readPin (pinFile file) := by
  rw [readPin_pinFile]
  exact spelled.read

/-- At every moment of every run of pin writes, by any number of tasks, with failures and crashes between
    any two steps, the bytes at the path are read as the pin of the last rename that took effect, or else
    of the file the volume came with, which is none where that file is cut off. -/
theorem pin_bytes_always_read {ι : Type} [DecidableEq ι] {s : LockState ι PinVolume PinPhase}
    (reached : (pinCode.system ι (pinVolume base)).Reachable s)
    (spelled : pinCodec.Spells PinWrite.pin s.shared.disk.path raw) :
    readPinBytes raw = lastPin (startPin base) s.shared.disk.effective := by
  rw [readPinBytes_spells spelled]
  exact (sound_of_reachable reached).readPin

def lostPin : AuthPin := { password := "p\"w", keyfile := none }

/-- The bytes of a pin that lost its last one. -/
theorem lostPin_spells : pinCodec.Spells PinWrite.pin .torn (some (pinCodec.encode lostPin).dropLast) := by
  refine .torn (List.dropLast_prefix _) fun same => ?_
  have shorter := congrArg List.length same
  rw [List.length_dropLast] at shorter
  have filled : pinCodec.encode lostPin ≠ [] := by
    intro none_
    have read := pinCodec.decode_encode lostPin trivial
    rw [none_] at read
    cases read
  have positive := List.length_pos_of_ne_nil filled
  omega

/-- A volume whose pin lost its last byte boots without a pin. It stays torn while the body of a new pin is
    written beside it, and from the rename on its bytes are read as the new one. -/
theorem torn_pin_replaced :
    ∃ written renamed : LockState Unit PinVolume PinPhase,
      (pinCode.system Unit (pinVolume .torn)).Reachable written ∧
      (pinCode.system Unit (pinVolume .torn)).Reachable renamed ∧
      written.phase () =
        .syncing ⟨some (.writePin "new" "key"), { password := "new", keyfile := some "key" }⟩ ∧
      pinCodec.Spells PinWrite.pin written.shared.disk.path
        (some (pinCodec.encode lostPin).dropLast) ∧
      readPinBytes (some (pinCodec.encode lostPin).dropLast) = none ∧
      pinCodec.Spells PinWrite.pin renamed.shared.disk.path
        (some (pinCodec.encode { password := "new", keyfile := some "key" })) ∧
      readPinBytes (some (pinCodec.encode { password := "new", keyfile := some "key" })) =
        some { password := "new", keyfile := some "key" } := by
  have begun : (pinCode.system Unit (pinVolume .torn)).Reachable
      { shared := pinVolume .torn, owner := none, phase := fun _ => .begins (.writePin "new" "key") } :=
    .init ⟨rfl, rfl, fun _ => ⟨_, rfl⟩⟩
  have created := ((begun.take (.call ()) trivial (.enter rfl ⟨_, rfl, rfl⟩)).take (.call ()) trivial
    (.work rfl .reads)).take (.call ()) trivial (.work rfl .creates)
  have written := created.take (.call ()) trivial (.work rfl .writes)
  have renamed := (written.take (.call ()) trivial (.work rfl .syncs)).take (.call ()) trivial
    (.work rfl .renames)
  have whole := pin_bytes_always_read renamed (.body trivial)
  exact ⟨_, _, written, renamed, rfl, lostPin_spells, pin_bytes_always_read written lostPin_spells,
    .body trivial, whole⟩

end MongoHa
