/-
Module: MongoHa.Wrapper.CredentialFiles
Layer: Wrapper
Purpose: The credential files of a filesystem with more than one data directory: the tasks of a process
  write those of its configuration's, and the start of `Mongo::admin` in `mongo.rs` loads its own
  configuration from the environment to look for a pending rotation. Which paths name one directory is a
  parameter.
Imports: MongoHa.Wrapper.CredentialNode
Trusted boundary: human-reviewed spec
Main exports: CredentialFiles, Node.filesAt, pendingPassword, adminPassword
Open obligations: none
-/
import MongoHa.Wrapper.CredentialNode

namespace MongoHa.Credentials

/-- The pin and the pending file of one directory. -/
structure CredentialFiles where
  pin : PinFile
  pending : Option Rotation
deriving Repr, DecidableEq, Inhabited

/-- What a path leads to while a node runs: its own files in the data directory of its configuration, and
    in every other directory what it never writes. -/
def Node.filesAt {δ : Type*} [DecidableEq δ] (node : Node) (directory : String → δ)
    (others : δ → CredentialFiles) (dataDir : String) : CredentialFiles :=
  if directory dataDir = directory node.config.dataDir then
    { pin := node.shared.pin, pending := node.shared.pending }
  else others (directory dataDir)

/-- `pending_password`. -/
def pendingPassword (files : CredentialFiles) : Option String :=
  files.pending.map Rotation.newPassword

/-- The password that `Mongo::admin` runs its command with: a pending one that mongod accepts takes the
    place of the client's. -/
def adminPassword (host : String) (env : Environment) (filesAt : String → CredentialFiles)
    (probeLocalPassword : String → PasswordProbe) (password : String) : String :=
  if host = "127.0.0.1" then
    match Config.fromEnv env with
    | .error _ => password
    | .ok config =>
        match pendingPassword (filesAt config.dataDir) with
        | none => password
        | some pending =>
            if password ≠ pending ∧ probeLocalPassword pending = .works then pending else password
  else password

end MongoHa.Credentials
