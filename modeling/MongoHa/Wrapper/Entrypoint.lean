/-
Module: MongoHa.Wrapper.Entrypoint
Layer: Wrapper
Purpose: `main.rs`: the boot of a container up to its supervisor, in HA and in standalone mode, as one
  program over its calls, with the wait of `startup_dns.rs` before mongod opens a dataset that ran in a
  set. The components it runs inline are the programs of their own modules; what it spawns in the
  background is one call each. `Watch` bounds how long its waits are followed. Log lines and the local
  client are left out.
Imports: MongoHa.Foundations.NetAddr, MongoHa.Wrapper.HealthAuth, MongoHa.Wrapper.Passthrough,
  MongoHa.Wrapper.StandaloneRecovery, MongoHa.Wrapper.Supervisor
Trusted boundary: human-reviewed spec
Main exports: EndedRecovery, BackgroundTask, MainCall, Watch, isLocalAddress, waitForLocalAddress,
  waitForLocalAddress_uses, recoveryBoot, replayFirst, bootMember, bootStandalone, main
Open obligations: none
-/
import MongoHa.Foundations.NetAddr
import MongoHa.Wrapper.HealthAuth
import MongoHa.Wrapper.Passthrough
import MongoHa.Wrapper.StandaloneRecovery
import MongoHa.Wrapper.Supervisor

namespace MongoHa.Entrypoint

open Foundations
open Foundations.NetAddr (IpAddr)

/-! ### Calls -/

/-- A recovery boot whose mongod was spawned, with the verdict it ended with. -/
structure EndedRecovery where
  run : RecoveryRun
  spawned : run.spawn = .ok ()
  verdict : Except String Replay
  ended : replayOplogAsStandalone run = some verdict

/-- The tasks that `main` spawns, with what it hands to each. -/
inductive BackgroundTask where
  | healthServer (standalone : Bool) (keyfile : Option String) (hasData : Bool)
      (guard : Option Credential)
  | orchestrate (hasData : Bool)
  | standaloneDuties
  | fcvReconcile
  | resolver (credentials : BootCredentials)
deriving DecidableEq

/-- The calls of `main`: those of its parts, the reads and writes of the volume, and the children it
    spawns. -/
inductive MainCall where
  | startTelemetry
  | volumeLock (call : VolumeLockCall)
  /-- One attempt to send the event. -/
  | sendOnce (event : TelemetryEvent)
  /-- The names at the root of the data directory. -/
  | listDataDir
  | node (effect : Credentials.Effect)
  | markReplsetBoot
  | replsetMarkerPresent
  | clearReplsetMarker
  | spawnRecovery (flags args : List String)
  | recoveryEnds
  | startTask (task : BackgroundTask)
  /-- `lookup_host` for 2 s at most. -/
  | lookupHost (host : String)
  /-- Bind an ephemeral port on the address. -/
  | bindTo (ip : IpAddr)
  | sleep
  | spawnMongod (flags args : List String)
  | supervisor (call : Supervisor.SupervisorCall)
deriving DecidableEq

abbrev MainCall.Reply : MainCall → Type
  | .startTelemetry => Except String Unit
  | .volumeLock call => call.Reply
  | .sendOnce _ => Unit
  | .listDataDir => List String
  | .node effect => effect.Reply
  | .markReplsetBoot => Except String Unit
  | .replsetMarkerPresent => Bool
  | .clearReplsetMarker => Credentials.Removal
  | .spawnRecovery _ _ => Except String Unit
  | .recoveryEnds => EndedRecovery
  | .startTask _ => Unit
  | .lookupHost _ => Option (List IpAddr)
  | .bindTo _ => Bool
  | .sleep => Unit
  | .spawnMongod _ _ => Except String Unit
  | .supervisor call => call.Reply

abbrev Task (α : Type) := Program MainCall.Reply Halt α

def perform (call : MainCall) : Task call.Reply := Program.call call

/-- The `?` operator. -/
def orHalt {α : Type} : Except String α → Task α
  | .ok value => .done value
  | .error text => .fail (.error text)

def onVolumeLock {α : Type} (task : LockTask α) : Task α :=
  task.translate id fun call => perform (.volumeLock call)

def onSupervisor {α : Type} (task : Supervisor.Task α) : Task α :=
  task.translate id fun call => perform (.supervisor call)

def onNode {φ α : Type} (fails : φ → Halt) (task : Credentials.Task φ α) : Task α :=
  task.translate fails fun effect => perform (.node effect)

/-- How often the waits of a boot are followed. -/
structure Watch where
  lockPolls : Nat
  dnsRounds : Nat
  supervisorRounds : Nat

/-! ### The name of this node -/

def isUnspecified : IpAddr → Bool
  | .v4 octets => octets.all (· == 0)
  | .v6 groups => groups.all (· == 0)

def isMulticast : IpAddr → Bool
  | .v4 octets => 224 ≤ octets.headD 0 && octets.headD 0 ≤ 239
  | .v6 groups => groups.headD 0 / 256 == 255

/-- `is_local_address`: an address that can be bound. -/
def isLocalAddress (ip : IpAddr) : Task Bool :=
  if isUnspecified ip || isMulticast ip then pure false else perform (.bindTo ip)

def anyLocal : List IpAddr → Task Bool
  | [] => pure false
  | ip :: rest => do
      let isLocal ← isLocalAddress ip
      if isLocal then pure true else anyLocal rest

def resolvesLocally (host : String) : Task Bool := do
  let addresses ← perform (.lookupHost host)
  match addresses with
  | some addresses => anyLocal addresses
  | none => pure false

def notLocal (host : String) : String :=
  "This node's hostname " ++ host ++ " didn't resolve to this container within 120s, so the data " ++
    "isn't opened. Check that " ++ host ++ " exists in this environment and is running."

/-- The timeout drops the wait after some round. -/
def waitForLocalAddress (host : String) : Nat → Task Unit
  | 0 => .fail (.error (notLocal host))
  | rounds + 1 => do
      let ready ← resolvesLocally host
      if ready then pure () else do
        perform .sleep
        waitForLocalAddress host rounds

/-- The calls of the wait for the node's own name. -/
def isLookup : MainCall → Prop
  | .lookupHost _ | .bindTo _ | .sleep => True
  | _ => False

theorem anyLocal_uses (addresses : List NetAddr.IpAddr) : (anyLocal addresses).Uses isLookup := by
  induction addresses with
  | nil => trivial
  | cons ip rest ih =>
      have one : (isLocalAddress ip).Uses isLookup := by
        unfold isLocalAddress
        split
        · trivial
        · exact ⟨trivial, fun _ => trivial⟩
      refine Program.uses_bind one fun found => ?_
      split
      · trivial
      · exact ih

/-- The wait for the own address only looks names up and binds. -/
theorem waitForLocalAddress_uses (host : String) (rounds : Nat) :
    (waitForLocalAddress host rounds).Uses isLookup := by
  induction rounds with
  | zero => trivial
  | succ rounds ih =>
      have resolves : (resolvesLocally host).Uses isLookup := by
        refine ⟨trivial, fun addresses => ?_⟩
        cases addresses with
        | none => trivial
        | some addresses => exact anyLocal_uses addresses
      refine Program.uses_bind resolves fun ready => ?_
      split
      · trivial
      · exact ⟨trivial, fun _ => ih⟩

/-! ### The boot -/

def lockLost (dataDir : String) : TelemetryEvent :=
  .componentError "volume-lock"
    ("could not open the runtime lock file under " ++ dataDir ++ "; booting WITHOUT the volume " ++
      "lock — if a previous container is still alive on this volume, two mongod engines may now " ++
      "touch the same dbpath")
    "startup"

def recoveryFailExitCode : Int := 78

def recoveryFailed (text : String) : TelemetryEvent :=
  .componentError "mongo-wrapper" text "standalone-recovery"

/-- What ends the process when the credentials of an HA boot cannot be loaded. -/
def haltOf : Credentials.BootError → Halt
  | .write failure => .pinWrite failure
  | .keyfile text => .error text
  | .noKeyfile =>
      .panicked
        "HA mode always resolves a keyfile (RS_KEY is validated in Config::from_env)"

section Boot

variable (deriveKeyfileContent : String → String) (config : Config) (args : List String)

/-- `replay_oplog_as_standalone`. -/
def recoveryBoot : Task (Except String Replay) := do
  let spawned ← perform (.spawnRecovery (recoveryFlags config) args)
  match spawned with
  | .error cause => pure (.error (withContext "failed to spawn the recovery mongod" cause))
  | .ok () => do
      let ended ← perform .recoveryEnds
      pure ended.verdict

/-- A failed recovery boot stops the node with the data directory as it is. -/
def replayFirst : Task Unit := do
  let outcome ← recoveryBoot config args
  match outcome with
  | .ok _ => do
      let _ ← perform .clearReplsetMarker
      pure ()
  | .error text => do
      perform (.sendOnce (recoveryFailed text))
      .fail (.exit recoveryFailExitCode)

/-- HA mode. A marker that cannot be written is only warned about. -/
def bootMember (hasData : Bool) : Task BootCredentials := do
  let credentials ← onNode haltOf (Credentials.bootHa config deriveKeyfileContent)
  let _ ← perform .markReplsetBoot
  perform (.startTask
    (.healthServer false credentials.keyfile hasData config.healthApiCredential))
  perform (.startTask (.orchestrate hasData))
  pure credentials

/-- Standalone mode. -/
def bootStandalone (hasData : Bool) : Task BootCredentials := do
  let pin ← perform (.node .readPin)
  let marker ← perform .replsetMarkerPresent
  if !hasData then do
    let _ ← perform .clearReplsetMarker
    pure ()
  else if replayNeeded hasData marker pin then replayFirst config args
  perform (.startTask (.healthServer true none hasData config.healthApiCredential))
  perform (.startTask .standaloneDuties)
  pure (resolveBootCredentials deriveKeyfileContent pin config.mongoRootPassword none none)

/-- The flags mongod is started with. -/
def mongodFlags : List String :=
  mergeOwnFlags (ownFlags config) args ++ if config.rsEnabled then haFlags config else []

/-- From the inspection of the data directory on. -/
def bootOnVolume (watch : Watch) : Task Empty := do
  let files ← perform .listDataDir
  let hasData := datadirIsInitialized files
  let credentials ←
    if config.rsEnabled then bootMember deriveKeyfileContent config hasData
    else bootStandalone deriveKeyfileContent config args hasData
  perform (.startTask .fcvReconcile)
  perform (.startTask (.resolver credentials))
  if config.rsEnabled && hasData then waitForLocalAddress config.privateDomain watch.dnsRounds
  (perform (.spawnMongod (mongodFlags config args) args)).bind orHalt
  onSupervisor
    (Supervisor.supervise config.rsEnabled (mongodFlags config args) args watch.supervisorRounds)

/-- From the volume lock on. -/
def bootConfigured (watch : Watch) (env : Environment) : Task Empty := do
  (perform .startTelemetry).bind orHalt
  let outcome ← onVolumeLock (acquireVolumeRuntimeLock watch.lockPolls env)
  if outcome = .failedOpen then perform (.sendOnce (lockLost config.dataDir))
  bootOnVolume deriveKeyfileContent config args watch

end Boot

/-- `main`, up to the supervisor that ends it. -/
def main (deriveKeyfileContent : String → String) (watch : Watch) (env : Environment)
    (args : List String) : Task Empty := do
  let config ← orHalt (Config.fromEnv env)
  bootConfigured deriveKeyfileContent (passthroughConfig config args) args watch env

end MongoHa.Entrypoint
