/-
Module: MongoHa.Wrapper.VolumeBoots
Layer: Wrapper
Purpose: One volume and the containers that run `main` on it, one after another. The volume answers the
  reads of the boot and keeps its writes; a mongod writes to it while it is up, and the background tasks
  once they are started. `dirty` records that mongod ran under `--replSet` and the oplog was not replayed
  since. A container stops with every process in it.
Imports: MongoHa.Foundations.Processes, MongoHa.Wrapper.Boot, MongoHa.Wrapper.CredentialNode,
  MongoHa.Wrapper.Entrypoint
Trusted boundary: human-reviewed spec
Main exports: Start, Engine, engineOf, VolumeHost, VolumeHost.answers, VolumeHost.after,
  VolumeHost.Moves, volumeBoots, VolumeHost.Unused
Open obligations: none
-/
import MongoHa.Foundations.Processes
import MongoHa.Wrapper.Boot
import MongoHa.Wrapper.CredentialNode
import MongoHa.Wrapper.Entrypoint

namespace MongoHa.Entrypoint

open Foundations

/-- What a container is started with. The deployment's own mongod arguments name no replica set, and its
    data directory is not spelled like an option. -/
structure Start where
  watch : Watch
  env : Environment
  args : List String
  ownSet : argsSet args "replSet" = false
  plainDir : ∀ config, Config.fromEnv env = .ok config →
    optionName (passthroughConfig config args).dataDir = none

/-- The mongod on the data directory. -/
inductive Engine where
  | none
  /-- Under `--replSet`, and whether it has opened the data directory so. -/
  | member (opened : Bool)
  | recovery
  | standalone
deriving Repr, DecidableEq, Inhabited

/-- The mongod that a command line starts. -/
def engineOf (flags args : List String) (before : Engine) : Engine :=
  if argsSet (flags ++ args) "replSet" then
    match before with
    | .member opened => .member opened
    | _ => .member false
  else .standalone

/-- One volume, and what runs on it: the engine that is up, and the container with its background tasks.
    -/
structure VolumeHost where
  volume : Volume
  dirty : Bool
  engine : Engine
  /-- The configuration of the container that runs, once its boot is past the volume lock. -/
  config : Option Config
  /-- The health server answers. -/
  serving : Bool
  /-- The credentials the resolver was started with, and the resolver until it returns. -/
  resolver : Option (BootCredentials × Option Resolver)

namespace VolumeHost

/-- The answers that the volume and its mongod can give to a call. -/
def answers (markerWrites : Except String Unit → Prop) (host : VolumeHost) :
    (call : MainCall) → call.Reply → Prop
  | .listDataDir, files => files = host.volume.files
  | .node .readPin, pin => pin = readPin host.volume.pin
  | .replsetMarkerPresent, marker => marker = host.volume.marker
  | .markReplsetBoot, written => markerWrites written
  | .clearReplsetMarker, removal => removal = .notFound → host.volume.marker = false
  | _, _ => True

def withPin (host : VolumeHost) (pin : PinFile) : VolumeHost :=
  { host with volume := { host.volume with pin := pin } }

def withMarker (host : VolumeHost) (marker : Bool) : VolumeHost :=
  { host with volume := { host.volume with marker := marker } }

def withFiles (host : VolumeHost) (files : List String) : VolumeHost :=
  { host with volume := { host.volume with files := files } }

/-- A recovery boot that ended well has replayed and checkpointed everything. -/
def recovered (host : VolumeHost) : Except String Replay → VolumeHost
  | .ok _ => { host with engine := .none, dirty := false }
  | .error _ => host

/-- The volume and what runs on it after an answered call. -/
def after (host : VolumeHost) : (call : MainCall) → call.Reply → VolumeHost
  | .node (.writePin pin), written =>
      host.withPin (writePin host.volume.pin pin (Credentials.failureOf written)).2
  | .markReplsetBoot, written => host.withMarker (markReplsetBoot host.volume.marker written.isOk)
  | .clearReplsetMarker, removal =>
      host.withMarker (clearReplsetMarker host.volume.marker (removal = .removed))
  | .spawnRecovery _ _, .ok () => { host with engine := .recovery }
  | .recoveryEnds, ended => host.recovered ended.verdict
  | .startTask (.healthServer _ _ _ _), _ => { host with serving := true }
  | .startTask (.resolver credentials), _ =>
      { host with resolver := some (credentials, some (.start credentials)) }
  | .spawnMongod flags args, .ok () => { host with engine := engineOf flags args host.engine }
  | .supervisor (.spawnMongod flags args), .ok () =>
      { host with engine := engineOf flags args host.engine }
  | _, _ => host

/-- Every process of the container is gone. -/
def stopped (host : VolumeHost) : VolumeHost :=
  { host with engine := .none, config := none, serving := false, resolver := none }

/-- What goes on beside the boot. -/
inductive Moves (host : VolumeHost) : VolumeHost → Prop where
  /-- mongod opens the data directory under `--replSet`; its dataset is visible from then on. -/
  | memberOpens (files : List String) (up : host.engine = .member false)
      (visible : datadirIsInitialized files = true) :
      Moves host { host.withFiles files with engine := .member true, dirty := true }
  /-- A dataset once there stays visible. -/
  | mongodWrites (files : List String) (up : host.engine ≠ .none)
      (visible : host.volume.hasData = true → datadirIsInitialized files = true) :
      Moves host (host.withFiles files)
  /-- The rotation and the resolver of a member write any pin. -/
  | memberPin (config : Config) (pin : PinFile) (up : host.config = some config)
      (member : config.rsEnabled = true) (serving : host.serving = true) :
      Moves host (host.withPin pin)
  /-- One iteration of a standalone resolver. -/
  | resolve (config : Config) (credentials : BootCredentials) (resolver : Resolver)
      (poll : ResolverPoll) (up : host.config = some config) (standalone : config.rsEnabled = false)
      (resolving : host.resolver = some (credentials, some resolver)) :
      Moves host
        { host.withPin (resolverRound credentials config.mongoRootPassword resolver
            host.volume.pin poll).file with
          resolver := some (credentials, (resolverRound credentials config.mongoRootPassword
            resolver host.volume.pin poll).next) }
  /-- The member phase of a rotation on a standalone, which has loaded no keyfile. -/
  | rotateMember (config : Config) (password : String) (failure : Option WriteFailure)
      (up : host.config = some config) (standalone : config.rsEnabled = false)
      (serving : host.serving = true) :
      Moves host (host.withPin (writePasswordPin host.volume.pin password none failure).2)

/-- No container has run on the volume yet. -/
structure Unused (volume : Volume) (host : VolumeHost) : Prop where
  volume : host.volume = volume
  clean : host.dirty = false
  stopped : host.stopped = host

end VolumeHost

def Start.config (start : Start) : Option Config :=
  (Config.fromEnv start.env).toOption.map fun config => passthroughConfig config start.args

/-- The containers on one volume, at most one at a time. -/
def volumeBoots (deriveKeyfileContent : String → String) (markerWrites : Except String Unit → Prop) :
    Surroundings MainCall.Reply Halt Empty Unit VolumeHost Start where
  program start := main deriveKeyfileContent start.watch start.env start.args
  starts host _ start next := next = { host with config := start.config }
  answers host _ call reply next := host.answers markerWrites call reply ∧ next = host.after call reply
  ends host _ _ next := next = host.stopped
  moves := VolumeHost.Moves

end MongoHa.Entrypoint
