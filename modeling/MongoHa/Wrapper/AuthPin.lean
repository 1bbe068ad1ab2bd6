/-
Module: MongoHa.Wrapper.AuthPin
Layer: Wrapper
Purpose: The credential pin of `auth_pin.rs`: reading and writing it, the credentials a boot resolves from
  it and the environment, and the resolver that proves them against the live mongod and writes them back.
  `derive_keyfile_content` hashes with a library and is a parameter here. Log lines, the wording of write
  errors and the temporary file of a write are left out.
Imports: MongoHa.Wrapper.Orchestrate
Trusted boundary: human-reviewed spec
Main exports: AuthPin, PinFile, readPin, WriteFailure, writePin, writePasswordPin, BootCredentials,
  resolveBootCredentials, PasswordProbe, Resolver, ResolverPoll, ResolverRound, resolverRound, pinKeyfile,
  resolverRound_keyfile
Open obligations: none
-/
import MongoHa.Wrapper.Orchestrate

namespace MongoHa

/-- The credentials this volume runs with. -/
structure AuthPin where
  password : String
  keyfile : Option String
deriving Repr, DecidableEq, Inhabited

/-- What is at the pin's path. -/
inductive PinFile where
  | absent
  | garbage
  | pin (pin : AuthPin)
deriving Repr, DecidableEq, Inhabited

/-- A torn or garbage file reads as absent. -/
def readPin : PinFile → Option AuthPin
  | .pin pin => some pin
  | .absent | .garbage => none

/-- The step of a pin write that failed. Syncing the directory comes after the rename. -/
inductive WriteFailure where
  | creating
  | writing
  | syncing
  | renaming
  | syncingDirectory
deriving Repr, DecidableEq, Inhabited

/-- A write to a temporary file that is renamed into place. -/
def writePin (file : PinFile) (pin : AuthPin) : Option WriteFailure → Except WriteFailure Unit × PinFile
  | none => (.ok (), .pin pin)
  | some .syncingDirectory => (.error .syncingDirectory, .pin pin)
  | some failure => (.error failure, file)

/-- The write of a password reconciliation: it keeps the keyfile the file carries. -/
def writePasswordPin (file : PinFile) (password : String) (fallbackKey : Option String)
    (failure : Option WriteFailure) : Except WriteFailure Unit × PinFile :=
  let keyfile := ((readPin file).bind AuthPin.keyfile).or fallbackKey
  writePin file { password := password, keyfile := keyfile } failure

/-! ### The credentials of a boot -/

/-- What a boot starts mongod with, and whether the environment differs from the pin. -/
structure BootCredentials where
  password : String
  keyfile : Option String
  envDrifted : Bool
deriving Repr, DecidableEq, Inhabited

/-- `resolve_boot_credentials`: the pin before the environment, a live set's keyfile before a derived one.
    -/
def resolveBootCredentials (deriveKeyfileContent : String → String) (pin : Option AuthPin)
    (envPassword : String) (envRsKey liveSetKeyfile : Option String) : BootCredentials :=
  let envKeyfile := envRsKey.map deriveKeyfileContent
  match pin with
  | some pin =>
      -- A standalone boot (no RS_KEY) carries no keyfile at all, whatever the pin says.
      let keyfile :=
        if envRsKey.isNone then none else (pin.keyfile.or liveSetKeyfile).or envKeyfile
      let keyfileDrifted := match pin.keyfile, envKeyfile with
        | some pinned, some env => pinned != env
        | _, _ => false
      { password := pin.password
        keyfile := keyfile
        envDrifted := pin.password != envPassword || keyfileDrifted }
  | none =>
      { password := envPassword, keyfile := liveSetKeyfile.or envKeyfile, envDrifted := false }

/-! ### The resolver -/

/-- What a probe of one password at the local mongod says. -/
inductive PasswordProbe where
  | works
  | accessDenied
  | notReady (reason : String)
deriving Repr, DecidableEq, Inhabited

/-- The resolver between two iterations: the password it runs on, and whether mongod accepted it. -/
structure Resolver where
  active : String
  proven : Bool
  driftReported : Bool
deriving Repr, DecidableEq, Inhabited

def Resolver.start (boot : BootCredentials) : Resolver :=
  { active := boot.password, proven := false, driftReported := false }

/-- Every reply of the environment in one iteration of the resolver. -/
structure ResolverPoll where
  initServerRunning : Bool
  /-- The new password of the rotation on the volume, if one is pending. -/
  pendingPassword : Option String
  pendingProbe : PasswordProbe
  activeProbe : PasswordProbe
  activeWrite : Option WriteFailure
  envProbe : PasswordProbe
  envWrite : Option WriteFailure
deriving Repr, DecidableEq, Inhabited

/-- What an iteration of the resolver asks for beside the pin write. -/
inductive ResolverCommand where
  | swapPassword (password : String)
  | send (event : TelemetryEvent)
deriving Repr, DecidableEq, Inhabited

/-- What one part of an iteration leaves. `settled` records that it proved the active password and that
    the pin on the volume carries it, because it already did or because the write succeeded. -/
structure ResolverPart where
  resolver : Resolver
  file : PinFile
  settled : Bool := false
  commands : List ResolverCommand := []

def noKnownPasswordWorks : TelemetryEvent :=
  .componentError "mongo-wrapper"
    "No known root password works. Regenerate the password from the database's Credentials tab."
    "credential-pin"

def envPasswordDrifted : TelemetryEvent :=
  .componentError "mongo-wrapper"
    ("The current password in MONGO_INITDB_ROOT_PASSWORD doesn't match the database's. This node " ++
      "keeps using the database's current password. Regenerate the password from the database's " ++
      "Credentials tab.")
    "credential-drift"

/-- A drift is reported once. -/
def reportDrift (resolver : Resolver) (file : PinFile) (event : TelemetryEvent) : ResolverPart :=
  if resolver.driftReported then { resolver := resolver, file := file }
  else
    { resolver := { resolver with driftReported := true }, file := file, commands := [.send event] }

/-- Follow a rotation that is under way. -/
def adoptPending (resolver : Resolver) (file : PinFile) (poll : ResolverPoll) : ResolverPart :=
  match poll.pendingPassword with
  | some pending =>
      if pending ≠ resolver.active ∧ poll.pendingProbe = .works then
        { resolver := { resolver with active := pending, proven := false }
          file := file
          commands := [.swapPassword pending] }
      else { resolver := resolver, file := file }
  | none => { resolver := resolver, file := file }

/-- Prove the active password, and write the pin if it does not say so yet. -/
def proveActive (boot : BootCredentials) (resolver : Resolver) (file : PinFile)
    (poll : ResolverPoll) : ResolverPart :=
  if resolver.proven then { resolver := resolver, file := file }
  else
    match poll.activeProbe with
    | .works =>
        let proven := { resolver with proven := true }
        let pin : AuthPin := { password := resolver.active, keyfile := boot.keyfile }
        if readPin file ≠ some pin then
          let (written, next) := writePasswordPin file pin.password pin.keyfile poll.activeWrite
          { resolver := proven, file := next, settled := written.isOk }
        else { resolver := proven, file := file, settled := true }
    | .accessDenied => reportDrift resolver file noKnownPasswordWorks
    | .notReady _ => { resolver := resolver, file := file }

/-- Adopt the environment's password once it authenticates. -/
def adoptEnvironment (boot : BootCredentials) (envPassword : String) (resolver : Resolver)
    (file : PinFile) (poll : ResolverPoll) : ResolverPart :=
  if envPassword = resolver.active then { resolver := resolver, file := file }
  else
    match poll.envProbe with
    | .works =>
        let (written, next) := writePasswordPin file envPassword boot.keyfile poll.envWrite
        { resolver := { active := envPassword, proven := true, driftReported := false }
          file := next
          settled := written.isOk
          commands := [.swapPassword envPassword] }
    | .accessDenied => reportDrift resolver file envPasswordDrifted
    | .notReady _ => { resolver := resolver, file := file }

/-- One iteration of the resolver. `next` is none once it returns. -/
structure ResolverRound where
  next : Option Resolver
  file : PinFile
  settled : Bool
  commands : List ResolverCommand

/-- One iteration of the resolver, on the polls it makes. -/
def resolverRound (boot : BootCredentials) (envPassword : String) (resolver : Resolver)
    (file : PinFile) (poll : ResolverPoll) : ResolverRound :=
  if poll.initServerRunning then
    { next := some resolver, file := file, settled := false, commands := [] }
  else
    let pending := adoptPending resolver file poll
    let active := proveActive boot pending.resolver pending.file poll
    let env := adoptEnvironment boot envPassword active.resolver active.file poll
    let done := envPassword = active.resolver.active ∧ active.resolver.proven = true
    { next := if done then none else some env.resolver
      file := env.file
      settled := active.settled || env.settled
      commands := pending.commands ++ active.commands ++ env.commands }

/-! ### The keyfile on the volume -/

/-- The keyfile the pin on the volume carries. -/
def pinKeyfile (file : PinFile) : Option String :=
  (readPin file).bind AuthPin.keyfile

/-- A password reconciliation without a keyfile of its own leaves the keyfile on the volume as it is,
    whether or not the write succeeds. -/
theorem writePasswordPin_keyfile (file : PinFile) (password : String)
    (failure : Option WriteFailure) :
    pinKeyfile (writePasswordPin file password none failure).2 = pinKeyfile file := by
  have kept : pinKeyfile
      (.pin { password := password, keyfile := ((readPin file).bind AuthPin.keyfile).or none }) =
        pinKeyfile file := by
    simp [pinKeyfile, readPin]
  cases failure with
  | none => exact kept
  | some step =>
      cases step with
      | syncingDirectory => exact kept
      | _ => rfl

theorem reportDrift_file (resolver : Resolver) (file : PinFile) (event : TelemetryEvent) :
    (reportDrift resolver file event).file = file := by
  unfold reportDrift
  split
  · rfl
  · rfl

theorem adoptPending_file (resolver : Resolver) (file : PinFile) (poll : ResolverPoll) :
    (adoptPending resolver file poll).file = file := by
  unfold adoptPending
  split
  · split
    · rfl
    · rfl
  · rfl

section NoKeyfile

variable {boot : BootCredentials}

theorem proveActive_keyfile (noKeyfile : boot.keyfile = none) (resolver : Resolver)
    (file : PinFile) (poll : ResolverPoll) :
    pinKeyfile (proveActive boot resolver file poll).file = pinKeyfile file := by
  unfold proveActive
  split
  · rfl
  · split
    · rw [noKeyfile]
      dsimp only
      split
      · exact writePasswordPin_keyfile file _ _
      · rfl
    · rw [reportDrift_file]
    · rfl

theorem adoptEnvironment_keyfile (noKeyfile : boot.keyfile = none) (envPassword : String)
    (resolver : Resolver) (file : PinFile) (poll : ResolverPoll) :
    pinKeyfile (adoptEnvironment boot envPassword resolver file poll).file = pinKeyfile file := by
  unfold adoptEnvironment
  split
  · rfl
  · split
    · rw [noKeyfile]
      exact writePasswordPin_keyfile file _ _
    · rw [reportDrift_file]
    · rfl

/-- An iteration of the resolver of a boot without a keyfile neither adds nor removes the keyfile on the
    volume. -/
theorem resolverRound_keyfile (noKeyfile : boot.keyfile = none) (envPassword : String)
    (resolver : Resolver) (file : PinFile) (poll : ResolverPoll) :
    pinKeyfile (resolverRound boot envPassword resolver file poll).file = pinKeyfile file := by
  unfold resolverRound
  split
  · rfl
  · dsimp only
    rw [adoptEnvironment_keyfile noKeyfile, proveActive_keyfile noKeyfile, adoptPending_file]

end NoKeyfile

theorem resolveBootCredentials_standalone (deriveKeyfileContent : String → String)
    (pin : Option AuthPin) (envPassword : String) :
    (resolveBootCredentials deriveKeyfileContent pin envPassword none none).keyfile = none := by
  cases pin with
  | none => rfl
  | some pin => rfl

end MongoHa
