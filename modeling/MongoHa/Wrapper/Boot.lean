/-
Module: MongoHa.Wrapper.Boot
Layer: Wrapper
Purpose: The boots of `main.rs` on one volume, step by step, in HA and in standalone mode. A step writes or
  removes the marker, spawns a mongod, ends a recovery boot or runs one iteration of the resolver; the
  container may stop between any two. Two fields only record what happened and steer nothing: `dirty`
  (mongod ran under `--replSet` and the oplog was not replayed since) and `reverted` (a standalone boot
  replayed and its resolver put its pin on the volume, with no HA boot since).
Imports: MongoHa.Wrapper.StandaloneRecovery
Trusted boundary: human-reviewed spec
Main exports: Volume, BootPhase, BootState, BootLabel, StandaloneBoot, BootStep,
  background_cases, hasData_kept, standaloneEntry_cases
Open obligations: none
-/
import MongoHa.Wrapper.StandaloneRecovery

namespace MongoHa

/-- What a volume carries from one container to the next. -/
structure Volume where
  files : List String
  marker : Bool
  pin : PinFile
deriving Repr, DecidableEq, Inhabited

def Volume.hasData (volume : Volume) : Bool :=
  datadirIsInitialized volume.files

/-- The test of a standalone boot on this volume. -/
def Volume.replayNeeded (volume : Volume) : Bool :=
  MongoHa.replayNeeded volume.hasData volume.marker (readPin volume.pin)

/-- A standalone boot under way: its credentials and environment, the resolver until it returns, and
    whether this boot replayed. -/
structure StandaloneBoot where
  credentials : BootCredentials
  envPassword : String
  replayed : Bool
  resolver : Option Resolver
deriving Repr, DecidableEq, Inhabited

/-- Where the container on the volume is, in HA or in standalone mode. -/
inductive BootPhase where
  | down
  /-- HA mode, before the marker write. -/
  | haMarking
  | haSpawning
  /-- The entrypoint runs, its init server without `--replSet` included. -/
  | haEntrypoint
  | haRunning
  /-- Standalone mode, in the recovery boot. -/
  | saReplaying (boot : StandaloneBoot)
  | saClearing (boot : StandaloneBoot)
  | saSpawning (boot : StandaloneBoot)
  | saRunning (boot : StandaloneBoot)
deriving Repr, DecidableEq, Inhabited

/-- The volume and the phase, with the two records of what happened. -/
structure BootState where
  volume : Volume
  phase : BootPhase
  dirty : Bool
  reverted : Bool
deriving Repr, DecidableEq, Inhabited

/-- No container has run on the volume yet, or none since its last HA life. -/
def BootState.start (volume : Volume) : BootState :=
  { volume := volume, phase := .down, dirty := false, reverted := false }

/-- What the boot, its mongod or the environment does next. -/
inductive BootLabel where
  | bootHa
  | mark (written : Bool)
  | spawnHa
  | replSetOpens
  | haPin
  | bootStandalone
  | replayEnds (run : RecoveryRun)
  | clear (removed : Bool)
  | spawnStandalone
  | resolve
  | rotateMember
  | mongodWrites
  | stop

/-- The labels of steps that only an HA boot takes. -/
def BootLabel.isHa : BootLabel → Bool
  | .bootHa | .mark _ | .spawnHa | .replSetOpens | .haPin => true
  | _ => false

def standaloneBoot (deriveKeyfileContent : String → String) (volume : Volume)
    (envPassword : String) : StandaloneBoot :=
  { credentials :=
      resolveBootCredentials deriveKeyfileContent (readPin volume.pin) envPassword none none
    envPassword := envPassword
    replayed := false
    resolver := none }

/-- The resolver is spawned right before the standalone mongod. -/
def StandaloneBoot.withResolver (boot : StandaloneBoot) : StandaloneBoot :=
  { boot with resolver := some (.start boot.credentials) }

/-- The phase a standalone boot enters: without data a stale marker is cleared, on data that ran under
    `--replSet` the oplog is replayed first. -/
def standaloneEntry (volume : Volume) (boot : StandaloneBoot) : BootPhase :=
  if !volume.hasData then .saClearing boot
  else if volume.replayNeeded then .saReplaying boot
  else .saSpawning boot.withResolver

/-- A phase in which some mongod may write to the data directory. -/
def BootPhase.mongodUp : BootPhase → Prop
  | .haEntrypoint | .haRunning | .saReplaying _ | .saRunning _ => True
  | _ => False

/-- The HA phases in which the rotation protocol and the resolver may write the pin. -/
def BootPhase.isHa : BootPhase → Prop
  | .haMarking | .haSpawning | .haEntrypoint | .haRunning => True
  | _ => False

/-- The standalone boot of a phase in which its background tasks run. -/
def BootPhase.background : BootPhase → Option StandaloneBoot
  | .saSpawning boot | .saRunning boot => some boot
  | _ => none

/-- A resolver runs in the two phases of a standalone mongod. -/
theorem background_cases {phase : BootPhase} {boot : StandaloneBoot}
    (running : phase.background = some boot) : phase = .saSpawning boot ∨ phase = .saRunning boot := by
  cases phase with
  | saSpawning other =>
      left
      rw [Option.some.inj running]
  | saRunning other =>
      right
      rw [Option.some.inj running]
  | _ => cases running

/-- The same phase with its standalone boot replaced. -/
def BootPhase.withBoot (phase : BootPhase) (boot : StandaloneBoot) : BootPhase :=
  match phase with
  | .saSpawning _ => .saSpawning boot
  | .saRunning _ => .saRunning boot
  | other => other

/-- The steps of one volume's boots, with a stop possible in every phase. -/
inductive BootStep (deriveKeyfileContent : String → String) :
    BootState → BootLabel → BootState → Prop where
  | bootHa {s : BootState} (down : s.phase = .down) :
      BootStep deriveKeyfileContent s .bootHa { s with phase := .haMarking, reverted := false }
  /-- A failed write is only warned about, and the boot goes on. -/
  | mark {s : BootState} {written : Bool} (marking : s.phase = .haMarking) :
      BootStep deriveKeyfileContent s (.mark written)
        { s with
          volume := { s.volume with marker := markReplsetBoot s.volume.marker written }
          phase := .haSpawning }
  | spawnHa {s : BootState} (spawning : s.phase = .haSpawning) :
      BootStep deriveKeyfileContent s .spawnHa { s with phase := .haEntrypoint }
  /-- mongod opens the data directory under `--replSet`; its dataset is visible from then on. -/
  | replSetOpens {s : BootState} {files : List String} (entrypoint : s.phase = .haEntrypoint)
      (visible : datadirIsInitialized files = true) :
      BootStep deriveKeyfileContent s .replSetOpens
        { s with volume := { s.volume with files := files }, phase := .haRunning, dirty := true }
  | haPin {s : BootState} {pin : PinFile} (ha : s.phase.isHa) :
      BootStep deriveKeyfileContent s .haPin { s with volume := { s.volume with pin := pin } }
  | bootStandalone {s : BootState} {envPassword : String} (down : s.phase = .down) :
      BootStep deriveKeyfileContent s .bootStandalone
        { s with
          phase := standaloneEntry s.volume
            (standaloneBoot deriveKeyfileContent s.volume envPassword) }
  | replaySucceeds {s : BootState} {boot : StandaloneBoot} {run : RecoveryRun} {outcome : Replay}
      (replaying : s.phase = .saReplaying boot)
      (ended : replayOplogAsStandalone run = some (.ok outcome)) :
      BootStep deriveKeyfileContent s (.replayEnds run)
        { s with phase := .saClearing { boot with replayed := true }, dirty := false }
  /-- The process exits, with the volume as it is. -/
  | replayFails {s : BootState} {boot : StandaloneBoot} {run : RecoveryRun} {failure : String}
      (replaying : s.phase = .saReplaying boot)
      (ended : replayOplogAsStandalone run = some (.error failure)) :
      BootStep deriveKeyfileContent s (.replayEnds run) { s with phase := .down }
  | clear {s : BootState} {boot : StandaloneBoot} {removed : Bool}
      (clearing : s.phase = .saClearing boot) :
      BootStep deriveKeyfileContent s (.clear removed)
        { s with
          volume := { s.volume with marker := clearReplsetMarker s.volume.marker removed }
          phase := .saSpawning boot.withResolver }
  | spawnStandalone {s : BootState} {boot : StandaloneBoot} (spawning : s.phase = .saSpawning boot) :
      BootStep deriveKeyfileContent s .spawnStandalone { s with phase := .saRunning boot }
  | resolve {s : BootState} {boot : StandaloneBoot} {resolver : Resolver} {poll : ResolverPoll}
      (background : s.phase.background = some boot) (resolving : boot.resolver = some resolver) :
      BootStep deriveKeyfileContent s .resolve
        (let round := resolverRound boot.credentials boot.envPassword resolver s.volume.pin poll
        { s with
          volume := { s.volume with pin := round.file }
          phase := s.phase.withBoot { boot with resolver := round.next }
          reverted := s.reverted || (boot.replayed && round.settled) })
  /-- The `member` phase of a rotation, or its reconciliation: a standalone process has loaded no keyfile.
      -/
  | rotateMember {s : BootState} {boot : StandaloneBoot} {password : String}
      {failure : Option WriteFailure} (background : s.phase.background = some boot) :
      BootStep deriveKeyfileContent s .rotateMember
        { s with
          volume :=
            { s.volume with pin := (writePasswordPin s.volume.pin password none failure).2 } }
  /-- A dataset once there stays visible. -/
  | mongodWrites {s : BootState} {files : List String} (up : s.phase.mongodUp)
      (visible : s.volume.hasData = true → datadirIsInitialized files = true) :
      BootStep deriveKeyfileContent s .mongodWrites
        { s with volume := { s.volume with files := files } }
  | stop {s : BootState} :
      BootStep deriveKeyfileContent s .stop { s with phase := .down }

/-- A dataset once there stays there. -/
theorem hasData_kept {deriveKeyfileContent : String → String} {s t : BootState} {label : BootLabel}
    (taken : BootStep deriveKeyfileContent s label t) (present : s.volume.hasData = true) :
    t.volume.hasData = true := by
  cases taken with
  | replSetOpens entrypoint visible => exact visible
  | mongodWrites up visible => exact visible present
  | _ => exact present

/-- The ways into a standalone boot. -/
theorem standaloneEntry_cases (volume : Volume) (boot : StandaloneBoot) :
    (standaloneEntry volume boot = .saClearing boot ∧ volume.hasData = false) ∨
    (standaloneEntry volume boot = .saReplaying boot ∧ volume.hasData = true) ∨
    (standaloneEntry volume boot = .saSpawning boot.withResolver ∧ volume.hasData = true ∧
      volume.replayNeeded = false) := by
  unfold standaloneEntry
  split
  · rename_i noData
    left
    exact ⟨rfl, by simpa using noData⟩
  · rename_i withData
    right
    have present : volume.hasData = true := by simpa using withData
    split
    · left
      exact ⟨rfl, present⟩
    · rename_i skipped
      right
      exact ⟨rfl, present, by simpa using skipped⟩

end MongoHa
