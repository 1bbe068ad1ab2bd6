/-
Module: MongoHa.Proofs.BootRefinement
Layer: Proofs
Purpose: The program of `main` refines the machine of the boots on one volume. A call that the monitor
  allows at a place is a step of the machine or none, and so is whatever goes on beside the boot. So every
  volume that containers reach by running `main`, one after another and stopped anywhere, is one the
  machine reaches, and what the machine keeps holds of them: a standalone container spawns its mongod only
  on replayed data.
Imports: MongoHa.Proofs.BootPlaces, MongoHa.Proofs.OplogReplay
Trusted boundary: none (fully proved)
Main exports: Admits, boots, VolumeHost.phase, Engine.UpIn, Place.Agrees, Follows, Refined,
  volumeBoots_uphold, main_refines_boots, standalone_spawns_replayed
Open obligations: none
-/
import MongoHa.Proofs.BootPlaces
import MongoHa.Proofs.OplogReplay

namespace MongoHa.Entrypoint

open Foundations
open Foundations.Monitor

/-! ### The machine of the boots -/

/-- A marker write ends as this volume lets it. -/
def Admits (markerWrites : Except String Unit → Prop) : BootState → BootLabel → Prop
  | _, .mark written => ∃ result, markerWrites result ∧ written = result.isOk
  | _, _ => True

/-- Every sequence of boots on a volume. -/
def boots (deriveKeyfileContent : String → String) (markerWrites : Except String Unit → Prop)
    (volume : Volume) : System BootState :=
  System.labelled (· = .start volume) (BootStep deriveKeyfileContent) (Admits markerWrites)

section Refine

variable {deriveKeyfileContent : String → String} {markerWrites : Except String Unit → Prop}
  {volume : Volume} {host next : VolumeHost} {place : Place}

/-- A boot with the resolver as it is. -/
def VolumeHost.resolving (host : VolumeHost) (boot : StandaloneBoot) : StandaloneBoot :=
  { boot with resolver := host.resolver.bind Prod.snd }

/-- The phase of the machine, whose resolver starts when the boot is past its replay. -/
def VolumeHost.phase (host : VolumeHost) : Place → BootPhase
  | .fresh | .listed _ | .pinRead _ _ => .down
  | .marking => .haMarking
  | .spawning => .haSpawning
  | .member => if host.engine = .member true then .haRunning else .haEntrypoint
  | .replaying boot => .saReplaying boot
  | .clearing boot => .saClearing boot
  | .starting boot => .saSpawning boot.withResolver
  | .launching boot => .saSpawning (host.resolving boot)
  | .standalone boot => .saRunning (host.resolving boot)

/-- The mongod that is up in a phase. -/
def Engine.UpIn (engine : Engine) : BootPhase → Prop
  | .haEntrypoint => engine = .member false
  | .haRunning => engine = .member true
  | .saReplaying _ => engine = .none ∨ engine = .recovery
  | .saRunning _ => engine = .standalone
  | _ => engine = .none

/-- Nothing of the container writes to the volume but its boot. -/
structure VolumeHost.Quiet (host : VolumeHost) : Prop where
  engine : host.engine = .none
  serving : host.serving = false
  resolver : host.resolver = none

/-- The container runs in HA mode, or not. -/
def VolumeHost.InMode (host : VolumeHost) (member : Bool) : Prop :=
  ∃ config, host.config = some config ∧ config.rsEnabled = member

/-- The container runs this standalone boot. -/
def VolumeHost.Boots (host : VolumeHost) (boot : StandaloneBoot) : Prop :=
  ∃ config, host.config = some config ∧ config.rsEnabled = false ∧
    boot.envPassword = config.mongoRootPassword

/-- The resolver was started with the credentials of the boot. -/
def VolumeHost.Resolves (host : VolumeHost) (boot : StandaloneBoot) : Prop :=
  ∃ resolver, host.resolver = some (boot.credentials, resolver)

/-- What the place says about the volume and the container. -/
def Place.Agrees (host : VolumeHost) : Place → Prop
  | .fresh => host.Quiet
  | .marking => host.InMode true ∧ host.Quiet
  | .spawning => host.InMode true ∧ host.engine = .none
  | .member => host.InMode true ∧ ∃ opened, host.engine = .member opened
  | .listed files => host.InMode false ∧ host.Quiet ∧ files = host.volume.files
  | .pinRead files pin =>
      host.InMode false ∧ host.Quiet ∧ files = host.volume.files ∧ pin = readPin host.volume.pin
  | .replaying boot =>
      host.Boots boot ∧ (host.engine = .none ∨ host.engine = .recovery) ∧ host.serving = false ∧
        host.resolver = none
  | .clearing boot => host.Boots boot ∧ host.Quiet
  | .starting boot => host.Boots boot ∧ host.engine = .none ∧ host.resolver = none
  | .launching boot => host.Boots boot ∧ host.engine = .none ∧ host.Resolves boot
  | .standalone boot => host.Boots boot ∧ host.engine = .standalone ∧ host.Resolves boot

/-- The state of the machine that the volume and its container are in. -/
def VolumeHost.view (host : VolumeHost) (place : Place) (reverted : Bool) : BootState :=
  { volume := host.volume, phase := host.phase place, dirty := host.dirty, reverted := reverted }

/-- The machine gets to the volume with the container at this place. -/
structure Follows (deriveKeyfileContent : String → String) (markerWrites : Except String Unit → Prop)
    (volume : Volume) (host : VolumeHost) (place : Place) : Prop where
  reached : ∃ reverted,
    (boots deriveKeyfileContent markerWrites volume).Reachable (host.view place reverted)
  agrees : place.Agrees host

/-- The same for what is known of the container, if one runs. -/
def Refined (deriveKeyfileContent : String → String) (markerWrites : Except String Unit → Prop)
    (volume : Volume) (host : VolumeHost) : Option Progress → Prop
  | none =>
      host.stopped = host ∧
        Follows deriveKeyfileContent markerWrites volume host .fresh
  | some progress =>
      progress.config = host.config ∧
        Follows deriveKeyfileContent markerWrites volume host progress.place

/-! ### What steps keep -/

theorem Follows.take {other : Place} (follows : Follows deriveKeyfileContent markerWrites volume host place)
    (label : BootLabel) (admitted : ∀ s, Admits markerWrites s label)
    (taken : ∀ reverted, ∃ after,
      BootStep deriveKeyfileContent (host.view place reverted) label (next.view other after))
    (agrees : other.Agrees next) : Follows deriveKeyfileContent markerWrites volume next other := by
  obtain ⟨reverted, reached⟩ := follows.reached
  obtain ⟨after, step⟩ := taken reverted
  exact ⟨⟨after, reached.take label (admitted _) step⟩, agrees⟩

theorem Follows.stutter {other : Place}
    (follows : Follows deriveKeyfileContent markerWrites volume host place)
    (same : ∀ reverted, next.view other reverted = host.view place reverted)
    (agrees : other.Agrees next) : Follows deriveKeyfileContent markerWrites volume next other := by
  obtain ⟨reverted, reached⟩ := follows.reached
  exact ⟨⟨reverted, same reverted ▸ reached⟩, agrees⟩

/-- The machine stops with the container. -/
theorem Follows.stopped (follows : Follows deriveKeyfileContent markerWrites volume host place) :
    Follows deriveKeyfileContent markerWrites volume host.stopped .fresh :=
  follows.take .stop (fun _ => trivial) (fun reverted => ⟨reverted, .stop⟩) ⟨rfl, rfl, rfl⟩

/-- A standalone boot from its reads. -/
theorem Follows.reads {files : List String} {config : Config} {pin : Option AuthPin}
    (follows : Follows deriveKeyfileContent markerWrites volume host (.pinRead files pin))
    (mine : host.config = some config) :
    Follows deriveKeyfileContent markerWrites volume host
      (standalonePlace (standaloneStart deriveKeyfileContent config pin) (datadirIsInitialized files)
        (replayNeeded (datadirIsInitialized files) host.volume.marker pin)) := by
  obtain ⟨⟨other, again, standalone⟩, quiet, rfl, rfl⟩ := follows.agrees
  obtain rfl : config = other := Option.some.inj (mine.symm.trans again)
  have boots : host.Boots (standaloneStart deriveKeyfileContent config (readPin host.volume.pin)) :=
    ⟨config, mine, standalone, rfl⟩
  refine follows.take .bootStandalone (fun _ => trivial) (fun reverted => ⟨reverted, ?_⟩) ?_
  · have entered : host.phase (standalonePlace
          (standaloneStart deriveKeyfileContent config (readPin host.volume.pin))
          (datadirIsInitialized host.volume.files)
          (replayNeeded (datadirIsInitialized host.volume.files) host.volume.marker
            (readPin host.volume.pin))) =
        standaloneEntry host.volume
          (standaloneBoot deriveKeyfileContent host.volume config.mongoRootPassword) := by
      unfold standalonePlace standaloneEntry Volume.replayNeeded Volume.hasData
      split
      · rfl
      split <;> rfl
    have step := @BootStep.bootStandalone deriveKeyfileContent
      (host.view (.pinRead host.volume.files (readPin host.volume.pin)) reverted)
      config.mongoRootPassword rfl
    simpa only [VolumeHost.view, entered] using step
  · unfold standalonePlace
    split
    · exact ⟨boots, quiet⟩
    split
    · exact ⟨boots, Or.inl quiet.engine, quiet.serving, quiet.resolver⟩
    · exact ⟨boots, quiet.engine, quiet.resolver⟩

variable {progress : Progress}

attribute [local simp] VolumeHost.after VolumeHost.view

/-- What a call leads to: the machine follows to where the boot then stands. -/
def Answered (deriveKeyfileContent : String → String) (markerWrites : Except String Unit → Prop)
    (volume : Volume) (host : VolumeHost) (progress : Progress) (call : MainCall) (reply : call.Reply) :
    Prop :=
  (progress.learn deriveKeyfileContent call reply).config = (host.after call reply).config ∧
    Follows deriveKeyfileContent markerWrites volume (host.after call reply)
      (progress.learn deriveKeyfileContent call reply).place

theorem Follows.listDataDir {files : List String}
    (follows : Follows deriveKeyfileContent markerWrites volume host progress.place)
    (mine : progress.config = host.config) (first : progress.place = .fresh)
    (answered : files = host.volume.files) :
    Answered deriveKeyfileContent markerWrites volume host progress .listDataDir files := by
  have quiet : host.Quiet := by
    have agrees := follows.agrees
    rwa [first] at agrees
  rw [first] at follows
  unfold Answered
  simp only [Progress.learn, Progress.goesBy, VolumeHost.after]
  cases configured : progress.config with
  | none => exact ⟨mine, by simpa only [first] using follows⟩
  | some config =>
      have own : host.config = some config := mine.symm.trans configured
      refine ⟨mine, ?_⟩
      simp only [Progress.goes, first, Place.onFiles]
      cases member : config.rsEnabled with
      | true =>
          exact follows.take .bootHa (fun _ => trivial) (fun _ => ⟨false, .bootHa rfl⟩)
            ⟨⟨config, own, member⟩, quiet⟩
      | false => exact follows.stutter (fun _ => rfl) ⟨⟨config, own, member⟩, quiet, answered⟩

theorem Follows.readPin {pin : Option AuthPin}
    (follows : Follows deriveKeyfileContent markerWrites volume host progress.place)
    (mine : progress.config = host.config) (answered : pin = MongoHa.readPin host.volume.pin) :
    Answered deriveKeyfileContent markerWrites volume host progress (.node .readPin) pin := by
  refine ⟨mine, ?_⟩
  simp only [Progress.learn, Progress.goes, VolumeHost.after]
  cases place : progress.place with
  | listed files =>
      rw [place] at follows
      obtain ⟨mode, quiet, listed⟩ := follows.agrees
      exact follows.stutter (fun _ => rfl) ⟨mode, quiet, listed, answered⟩
  | _ =>
      rw [place] at follows
      exact follows

/-- A pin write of an HA boot. -/
theorem Follows.writePin {pin : AuthPin} {written : Except WriteFailure Unit}
    (follows : Follows deriveKeyfileContent markerWrites volume host progress.place)
    (mine : progress.config = host.config) (marking : progress.place = .marking) :
    Answered deriveKeyfileContent markerWrites volume host progress (.node (.writePin pin)) written := by
  refine ⟨mine, ?_⟩
  simp only [Progress.learn, VolumeHost.after, marking] at follows ⊢
  exact follows.take .haPin (fun _ => trivial) (fun reverted => ⟨reverted, .haPin trivial⟩)
    ⟨follows.agrees.1, ⟨follows.agrees.2.engine, follows.agrees.2.serving, follows.agrees.2.resolver⟩⟩

theorem Follows.markReplsetBoot {written : Except String Unit}
    (follows : Follows deriveKeyfileContent markerWrites volume host progress.place)
    (mine : progress.config = host.config) (marking : progress.place = .marking)
    (answered : markerWrites written) :
    Answered deriveKeyfileContent markerWrites volume host progress .markReplsetBoot written := by
  refine ⟨mine, ?_⟩
  simp only [Progress.learn, Progress.goes, VolumeHost.after, marking, Place.onMark] at follows ⊢
  refine ⟨?_, follows.agrees.1, follows.agrees.2.engine⟩
  obtain ⟨reverted, reached⟩ := follows.reached
  exact ⟨reverted, reached.take (.mark written.isOk) ⟨written, answered, rfl⟩ (.mark rfl)⟩

theorem Follows.replsetMarkerPresent {marker : Bool}
    (follows : Follows deriveKeyfileContent markerWrites volume host progress.place)
    (mine : progress.config = host.config)
    (reading : ∃ files pin, progress.place = .pinRead files pin)
    (answered : marker = host.volume.marker) :
    Answered deriveKeyfileContent markerWrites volume host progress .replsetMarkerPresent marker := by
  obtain ⟨files, pin, place⟩ := reading
  subst answered
  rw [place] at follows
  obtain ⟨⟨config, own, -⟩, -⟩ := follows.agrees
  have configured : progress.config = some config := mine.trans own
  unfold Answered
  simp only [Progress.learn, Progress.goesBy, configured, Progress.goes, place, Place.onMarker,
    VolumeHost.after]
  exact ⟨own.symm, follows.reads own⟩

theorem Follows.clearReplsetMarker {removal : Credentials.Removal}
    (follows : Follows deriveKeyfileContent markerWrites volume host progress.place)
    (mine : progress.config = host.config) (clearing : ∃ boot, progress.place = .clearing boot) :
    Answered deriveKeyfileContent markerWrites volume host progress .clearReplsetMarker removal := by
  obtain ⟨boot, place⟩ := clearing
  refine ⟨mine, ?_⟩
  simp only [Progress.learn, Progress.goes, VolumeHost.after, place, Place.onClear] at follows ⊢
  obtain ⟨mode, quiet⟩ := follows.agrees
  exact follows.take (.clear (removal = .removed)) (fun _ => trivial)
    (fun reverted => ⟨reverted, .clear rfl⟩) ⟨mode, quiet.engine, quiet.resolver⟩

theorem Follows.spawnRecovery {flags args : List String} {spawned : Except String Unit}
    (follows : Follows deriveKeyfileContent markerWrites volume host progress.place)
    (mine : progress.config = host.config) (replaying : ∃ boot, progress.place = .replaying boot) :
    Answered deriveKeyfileContent markerWrites volume host progress (.spawnRecovery flags args)
      spawned := by
  obtain ⟨boot, place⟩ := replaying
  cases spawned with
  | error text => exact ⟨mine, follows⟩
  | ok _ =>
      refine ⟨mine, ?_⟩
      simp only [Progress.learn, VolumeHost.after, place] at follows ⊢
      obtain ⟨mode, -, quiet⟩ := follows.agrees
      exact follows.stutter (fun _ => rfl) ⟨mode, Or.inr rfl, quiet⟩

theorem Follows.recoveryEnds {ended : EndedRecovery}
    (follows : Follows deriveKeyfileContent markerWrites volume host progress.place)
    (mine : progress.config = host.config) (replaying : ∃ boot, progress.place = .replaying boot) :
    Answered deriveKeyfileContent markerWrites volume host progress .recoveryEnds ended := by
  obtain ⟨boot, place⟩ := replaying
  unfold Answered
  simp only [Progress.learn, Progress.goes, VolumeHost.after, place] at follows ⊢
  cases verdict : ended.verdict with
  | error text => exact ⟨mine, follows⟩
  | ok outcome =>
      obtain ⟨mode, -, serving, resolver⟩ := follows.agrees
      refine ⟨mine, follows.take (.replayEnds ended.run) (fun _ => trivial)
        (fun reverted => ⟨reverted, ?_⟩) ⟨mode, rfl, serving, resolver⟩⟩
      exact .replaySucceeds rfl (ended.ended.trans (congrArg some verdict))

/-- The health server and the resolver are started before mongod. -/
theorem Follows.startTask {task : BackgroundTask}
    (follows : Follows deriveKeyfileContent markerWrites volume host progress.place)
    (mine : progress.config = host.config) (allowed : progress.place.Allows (.startTask task)) :
    Answered deriveKeyfileContent markerWrites volume host progress (.startTask task) () := by
  cases task with
  | healthServer standalone keyfile hasData guard =>
      refine ⟨mine, ?_⟩
      simp only [Progress.learn, VolumeHost.after]
      rcases allowed with place | ⟨boot, place⟩
      · rw [place] at follows ⊢
        exact follows.stutter (fun _ => rfl) follows.agrees
      · rw [place] at follows ⊢
        exact follows.stutter (fun _ => rfl) follows.agrees
  | resolver credentials =>
      refine ⟨mine, ?_⟩
      simp only [Progress.learn, VolumeHost.after]
      rcases allowed with place | ⟨boot, place, rfl⟩
      · simp only [Progress.goes, place, Place.onResolver] at follows ⊢
        exact follows.stutter (fun _ => rfl) follows.agrees
      · simp only [Progress.goes, place, Place.onResolver] at follows ⊢
        obtain ⟨mode, engine, -⟩ := follows.agrees
        exact follows.stutter (fun _ => rfl) ⟨mode, engine, _, rfl⟩
  | _ => exact ⟨mine, follows⟩

theorem Follows.spawnMongod {flags args : List String} {spawned : Except String Unit}
    (follows : Follows deriveKeyfileContent markerWrites volume host progress.place)
    (mine : progress.config = host.config)
    (allowed : progress.place.Allows (.spawnMongod flags args)) :
    Answered deriveKeyfileContent markerWrites volume host progress (.spawnMongod flags args)
      spawned := by
  unfold Answered
  simp only [Progress.learn, Progress.goes, VolumeHost.after]
  cases spawned with
  | error text =>
      refine ⟨mine, ?_⟩
      cases place : progress.place <;> exact place ▸ follows
  | ok _ =>
      refine ⟨mine, ?_⟩
      rcases allowed with ⟨place, named⟩ | ⟨⟨boot, place⟩, unnamed⟩
      · simp only [place, Place.onSpawn] at follows ⊢
        obtain ⟨mode, engine⟩ := follows.agrees
        have member : engineOf flags args host.engine = .member false := by
          simp [engineOf, named, engine]
        refine follows.take .spawnHa (fun _ => trivial) (fun reverted => ⟨reverted, ?_⟩)
          ⟨mode, false, member⟩
        simp only [VolumeHost.view, VolumeHost.phase, member]
        exact .spawnHa rfl
      · simp only [place, Place.onSpawn] at follows ⊢
        obtain ⟨mode, -, resolves⟩ := follows.agrees
        have standalone : engineOf flags args host.engine = .standalone := by
          simp [engineOf, unnamed]
        exact follows.take .spawnStandalone (fun _ => trivial)
          (fun reverted => ⟨reverted, .spawnStandalone rfl⟩) ⟨mode, standalone, resolves⟩

/-- The mongod of a member that is spawned again is the same to the volume. -/
theorem Follows.spawnAgain {flags args : List String} {spawned : Except String Unit}
    (follows : Follows deriveKeyfileContent markerWrites volume host progress.place)
    (mine : progress.config = host.config) (member : progress.place = .member)
    (named : argsSet (flags ++ args) "replSet" = true) :
    Answered deriveKeyfileContent markerWrites volume host progress
      (.supervisor (.spawnMongod flags args)) spawned := by
  cases spawned with
  | error text => exact ⟨mine, follows⟩
  | ok _ =>
      obtain ⟨opened, engine⟩ : ∃ opened, host.engine = .member opened := by
        have agrees := follows.agrees
        rw [member] at agrees
        exact agrees.2
      have same : engineOf flags args host.engine = host.engine := by
        simp [engineOf, named, engine]
      have unchanged : host.after (.supervisor (.spawnMongod flags args)) (.ok ()) = host := by
        change { host with engine := engineOf flags args host.engine } = host
        rw [same]
      unfold Answered
      rw [unchanged]
      exact ⟨mine, follows⟩

/-- A call that is allowed at the place of the boot is a step of the machine or none. -/
theorem Follows.call {call : MainCall} {reply : call.Reply}
    (follows : Follows deriveKeyfileContent markerWrites volume host progress.place)
    (mine : progress.config = host.config) (allowed : progress.place.Allows call)
    (answered : host.answers markerWrites call reply) :
    Answered deriveKeyfileContent markerWrites volume host progress call reply := by
  cases call with
  | listDataDir => exact follows.listDataDir mine allowed answered
  | node effect =>
      cases effect with
      | readPin => exact follows.readPin mine answered
      | writePin pin => exact follows.writePin mine allowed
      | writePasswordPin password fallbackKey => exact allowed.elim
      | _ => exact ⟨mine, follows⟩
  | markReplsetBoot => exact follows.markReplsetBoot mine allowed answered
  | replsetMarkerPresent => exact follows.replsetMarkerPresent mine allowed answered
  | clearReplsetMarker => exact follows.clearReplsetMarker mine allowed
  | spawnRecovery flags args => exact follows.spawnRecovery mine allowed
  | recoveryEnds => exact follows.recoveryEnds mine allowed
  | startTask task => exact follows.startTask mine allowed
  | spawnMongod flags args => exact follows.spawnMongod mine allowed
  | supervisor own =>
      cases own with
      | spawnMongod flags args => exact follows.spawnAgain mine allowed.1 allowed.2
      | _ => exact ⟨mine, follows⟩
  | _ => exact ⟨mine, follows⟩

/-! Beside the boot. -/

theorem Place.Agrees.mode {member : Bool} {config : Config} (mode : host.InMode member)
    (mine : host.config = some config) : config.rsEnabled = member := by
  obtain ⟨other, again, enabled⟩ := mode
  rwa [Option.some.inj (mine.symm.trans again)]

/-- A member has written its mongod's command line. -/
theorem Place.Agrees.member {opened : Bool} (agrees : place.Agrees host)
    (up : host.engine = .member opened) : place = .member := by
  cases place with
  | member => rfl
  | fresh => cases up.symm.trans agrees.engine
  | marking => cases up.symm.trans agrees.2.engine
  | spawning => cases up.symm.trans agrees.2
  | listed files => cases up.symm.trans agrees.2.1.engine
  | pinRead files pin => cases up.symm.trans agrees.2.1.engine
  | replaying boot =>
      rcases agrees.2.1 with idle | recovers
      · cases up.symm.trans idle
      · cases up.symm.trans recovers
  | clearing boot => cases up.symm.trans agrees.2.engine
  | starting boot => cases up.symm.trans agrees.2.1
  | launching boot => cases up.symm.trans agrees.2.1
  | standalone boot => cases up.symm.trans agrees.2.1

theorem VolumeHost.phase_member (host : VolumeHost) :
    host.phase .member = .haRunning ∨ host.phase .member = .haEntrypoint := by
  by_cases opened : host.engine = .member true
  · exact Or.inl (if_pos opened)
  · exact Or.inr (if_neg opened)

theorem Place.Agrees.withFiles (files : List String) (agrees : place.Agrees host)
    (up : host.engine ≠ .none) :
    (host.phase place).mongodUp ∧ place.Agrees (host.withFiles files) := by
  cases place with
  | member =>
      refine ⟨?_, agrees⟩
      rcases host.phase_member with running | entrypoint
      · simp [running, BootPhase.mongodUp]
      · simp [entrypoint, BootPhase.mongodUp]
  | replaying boot => exact ⟨trivial, agrees⟩
  | standalone boot => exact ⟨trivial, agrees⟩
  | fresh => exact absurd agrees.engine up
  | marking => exact absurd agrees.2.engine up
  | spawning => exact absurd agrees.2 up
  | listed files => exact absurd agrees.2.1.engine up
  | pinRead files pin => exact absurd agrees.2.1.engine up
  | clearing boot => exact absurd agrees.2.engine up
  | starting boot => exact absurd agrees.2.1 up
  | launching boot => exact absurd agrees.2.1 up

/-- The health server answers from the boot's end on. -/
theorem Place.Agrees.serves (agrees : place.Agrees host) (serving : host.serving = true) :
    (host.InMode true ∧ (place = .spawning ∨ place = .member)) ∨
      ∃ boot, host.Boots boot ∧
        (place = .starting boot ∨ place = .launching boot ∨ place = .standalone boot) := by
  cases place with
  | spawning => exact Or.inl ⟨agrees.1, Or.inl rfl⟩
  | member => exact Or.inl ⟨agrees.1, Or.inr rfl⟩
  | starting boot => exact Or.inr ⟨boot, agrees.1, Or.inl rfl⟩
  | launching boot => exact Or.inr ⟨boot, agrees.1, Or.inr (Or.inl rfl)⟩
  | standalone boot => exact Or.inr ⟨boot, agrees.1, Or.inr (Or.inr rfl)⟩
  | fresh => cases serving.symm.trans agrees.serving
  | marking => cases serving.symm.trans agrees.2.serving
  | listed files => cases serving.symm.trans agrees.2.1.serving
  | pinRead files pin => cases serving.symm.trans agrees.2.1.serving
  | replaying boot => cases serving.symm.trans agrees.2.2.1
  | clearing boot => cases serving.symm.trans agrees.2.serving

/-- The resolver of a standalone runs on the credentials of its boot. -/
theorem Place.Agrees.resolves {credentials : BootCredentials} {resolver : Option Resolver}
    {config : Config} (agrees : place.Agrees host) (mine : host.config = some config)
    (standalone : config.rsEnabled = false) (started : host.resolver = some (credentials, resolver)) :
    ∃ boot, boot.credentials = credentials ∧ boot.envPassword = config.mongoRootPassword ∧
      (place = .launching boot ∨ place = .standalone boot) := by
  have own : ∀ {boot : StandaloneBoot}, host.Boots boot → host.Resolves boot →
      boot.credentials = credentials ∧ boot.envPassword = config.mongoRootPassword := by
    rintro boot ⟨other, again, -, same⟩ ⟨resolver, resolves⟩
    rw [Option.some.inj (mine.symm.trans again)]
    exact ⟨congrArg Prod.fst (Option.some.inj (resolves.symm.trans started)), same⟩
  cases place with
  | launching boot => exact ⟨boot, (own agrees.1 agrees.2.2).1, (own agrees.1 agrees.2.2).2, Or.inl rfl⟩
  | standalone boot => exact ⟨boot, (own agrees.1 agrees.2.2).1, (own agrees.1 agrees.2.2).2, Or.inr rfl⟩
  | spawning => cases standalone.symm.trans (Place.Agrees.mode agrees.1 mine)
  | member => cases standalone.symm.trans (Place.Agrees.mode agrees.1 mine)
  | fresh => cases started.symm.trans agrees.resolver
  | marking => cases started.symm.trans agrees.2.resolver
  | listed files => cases started.symm.trans agrees.2.1.resolver
  | pinRead files pin => cases started.symm.trans agrees.2.1.resolver
  | replaying boot => cases started.symm.trans agrees.2.2.2
  | clearing boot => cases started.symm.trans agrees.2.resolver
  | starting boot => cases started.symm.trans agrees.2.2

/-- So is whatever goes on beside the boot. -/
theorem Follows.move (follows : Follows deriveKeyfileContent markerWrites volume host place)
    (moved : host.Moves next) : Follows deriveKeyfileContent markerWrites volume next place := by
  have agrees := follows.agrees
  cases moved with
  | memberOpens files up visible =>
      obtain rfl := agrees.member up
      refine follows.take .replSetOpens (fun _ => trivial) (fun reverted => ⟨reverted, ?_⟩)
        ⟨agrees.1, true, rfl⟩
      exact .replSetOpens (by simp [VolumeHost.phase, up]) visible
  | mongodWrites files up visible =>
      obtain ⟨runs, kept⟩ := agrees.withFiles files up
      refine follows.take .mongodWrites (fun _ => trivial) (fun reverted => ⟨reverted, ?_⟩) kept
      exact .mongodWrites runs visible
  | memberPin config pin up member serving =>
      rcases agrees.serves serving with ⟨-, serves⟩ | ⟨boot, ⟨other, again, off, -⟩, -⟩
      · have ha : (host.phase place).isHa := by
          rcases serves with rfl | rfl
          · trivial
          rcases host.phase_member with running | entrypoint
          · simp [running, BootPhase.isHa]
          · simp [entrypoint, BootPhase.isHa]
        have kept : place.Agrees (host.withPin pin) := by rcases serves with rfl | rfl <;> exact agrees
        refine follows.take .haPin (fun _ => trivial) (fun reverted => ⟨reverted, ?_⟩) kept
        have step := @BootStep.haPin deriveKeyfileContent (host.view place reverted) pin ha
        rcases serves with rfl | rfl <;> exact step
      · cases member.symm.trans (Place.Agrees.mode ⟨other, again, off⟩ up)
  | resolve config credentials resolver poll up standalone resolving =>
      obtain ⟨boot, rfl, env, there⟩ := agrees.resolves up standalone resolving
      have started : (host.resolving boot).resolver = some resolver := by
        simp [VolumeHost.resolving, resolving]
      rw [← env]
      rcases there with rfl | rfl
      · refine follows.take .resolve (fun _ => trivial) (fun reverted => ?_)
          ⟨agrees.1, agrees.2.1, _, rfl⟩
        exact ⟨_, @BootStep.resolve _ (host.view (.launching boot) reverted) (host.resolving boot)
          resolver poll rfl started⟩
      · refine follows.take .resolve (fun _ => trivial) (fun reverted => ?_)
          ⟨agrees.1, agrees.2.1, _, rfl⟩
        exact ⟨_, @BootStep.resolve _ (host.view (.standalone boot) reverted) (host.resolving boot)
          resolver poll rfl started⟩
  | rotateMember config password failure up standalone serving =>
      rcases agrees.serves serving with ⟨mode, -⟩ | ⟨boot, -, serves⟩
      · cases standalone.symm.trans (Place.Agrees.mode mode up)
      · refine follows.take .rotateMember (fun _ => trivial) (fun reverted => ⟨reverted, ?_⟩) ?_
        · rcases serves with rfl | rfl | rfl
          · exact .rotateMember rfl
          · exact .rotateMember rfl
          · exact .rotateMember rfl
        · rcases serves with rfl | rfl | rfl <;> exact agrees

theorem config_kept (moved : host.Moves next) : next.config = host.config := by
  cases moved <;> rfl

/-- Nothing goes on without a container. -/
theorem stopped_still (stopped : host.stopped = host) : ¬ host.Moves next := by
  have engine : host.engine = .none := by rw [← stopped]; rfl
  have config : host.config = none := by rw [← stopped]; rfl
  intro moved
  cases moved with
  | memberOpens files up visible => cases up.symm.trans engine
  | mongodWrites files up visible => exact up engine
  | memberPin other pin up member serving => cases up.symm.trans config
  | resolve other credentials resolver poll up standalone resolving => cases up.symm.trans config
  | rotateMember other password failure up standalone serving => cases up.symm.trans config

/-! ### Every run of the containers -/

/-- In every interleaving of the boot with what goes on beside it the machine follows. -/
theorem volumeBoots_uphold (deriveKeyfileContent : String → String)
    (markerWrites : Except String Unit → Prop) (volume : Volume) :
    (volumeBoots deriveKeyfileContent markerWrites).Upholds (bootMonitor deriveKeyfileContent)
      (fun start => { config := start.config, place := .fresh }) (Reaches fun _ _ => True)
      (fun host known => Refined deriveKeyfileContent markerWrites volume host (known ())) where
  meets := main_follows
  start := by
    rintro host next known ⟨⟩ start refined down rfl
    rw [down] at refined
    obtain ⟨-, follows⟩ := refined
    rw [Function.update_self]
    have quiet : host.Quiet := follows.agrees
    exact ⟨rfl, follows.stutter (fun _ => rfl) ⟨quiet.engine, quiet.serving, quiet.resolver⟩⟩
  call := by
    rintro host next known ⟨⟩ mine call reply refined knows allowed ⟨answered, rfl⟩
    rw [knows] at refined
    rw [Function.update_self]
    exact refined.2.call refined.1 allowed answered
  finish := by
    rintro host next known ⟨⟩ mine outcome refined knows - rfl
    rw [knows] at refined
    rw [Function.update_self]
    exact ⟨rfl, refined.2.stopped⟩
  kill := by
    rintro host next known ⟨⟩ mine refined knows rfl
    rw [knows] at refined
    rw [Function.update_self]
    exact ⟨rfl, refined.2.stopped⟩
  move := by
    intro host next known refined moved
    cases knows : known () with
    | none =>
        rw [knows] at refined
        exact absurd moved (stopped_still refined.1)
    | some progress =>
        rw [knows] at refined
        exact ⟨refined.1.trans (config_kept moved).symm, refined.2.move moved⟩

theorem refined_of_reachable {s : Processes MainCall.Reply Halt Empty Unit VolumeHost}
    (reached : ((volumeBoots deriveKeyfileContent markerWrites).system
      (VolumeHost.Unused volume)).Reachable s) :
    Surroundings.Holds (bootMonitor deriveKeyfileContent) (Reaches fun _ _ => True)
      (fun host known => Refined deriveKeyfileContent markerWrites volume host (known ())) s := by
  refine (volumeBoots_uphold deriveKeyfileContent markerWrites volume).reachable ?_ reached
  intro host unused
  have quiet : host.Quiet := by
    rw [← unused.stopped]
    exact ⟨rfl, rfl, rfl⟩
  have first : host.view .fresh false = .start volume := by
    simp [VolumeHost.phase, BootState.start, unused.volume, unused.clean]
  exact ⟨unused.stopped, ⟨false, .init first⟩, quiet⟩

/-- The machine gets to the volume of every run, with its container where it is. -/
theorem Refined.follows {known : Option Progress}
    (refined : Refined deriveKeyfileContent markerWrites volume host known) :
    ∃ place, Follows deriveKeyfileContent markerWrites volume host place ∧
      (known = none → place = .fresh) := by
  cases known with
  | none => exact ⟨_, refined.2, fun _ => rfl⟩
  | some progress => exact ⟨_, refined.2, fun down => by cases down⟩

theorem Place.Agrees.upIn (agrees : place.Agrees host) : host.engine.UpIn (host.phase place) := by
  cases place with
  | fresh => exact agrees.engine
  | marking => exact agrees.2.engine
  | spawning => exact agrees.2
  | member =>
      obtain ⟨-, opened, engine⟩ := agrees
      cases opened with
      | true => simp [VolumeHost.phase, engine, Engine.UpIn]
      | false => simp [VolumeHost.phase, engine, Engine.UpIn]
  | listed files => exact agrees.2.1.engine
  | pinRead files pin => exact agrees.2.1.engine
  | replaying boot => exact agrees.2.1
  | clearing boot => exact agrees.2.engine
  | starting boot => exact agrees.2.1
  | launching boot => exact agrees.2.1
  | standalone boot => exact agrees.2.1

/-- Whatever containers do to a volume by running `main`, one after another, in HA or in standalone mode and
    stopped anywhere, the machine of the boots does, in the phase of the mongod that is up. -/
theorem main_refines_boots {s : Processes MainCall.Reply Halt Empty Unit VolumeHost}
    (reached : ((volumeBoots deriveKeyfileContent markerWrites).system
      (VolumeHost.Unused volume)).Reachable s) :
    ∃ t, (boots deriveKeyfileContent markerWrites volume).Reachable t ∧
      t.volume = s.shared.volume ∧ t.dirty = s.shared.dirty ∧ s.shared.engine.UpIn t.phase ∧
      (s.running () = none → t.phase = .down) := by
  obtain ⟨known, refined, informed⟩ := refined_of_reachable reached
  obtain ⟨place, follows, idle⟩ := refined.follows
  obtain ⟨reverted, machine⟩ := follows.reached
  refine ⟨_, machine, rfl, rfl, follows.agrees.upIn, fun down => ?_⟩
  rw [idle (down ▸ informed ()).of_down]
  rfl

theorem markerWrites_of_admits {s : BootState} {label : BootLabel}
    (admitted : Admits (· = .ok ()) s label) : MarkerWrites s label := by
  cases label with
  | mark written =>
      obtain ⟨result, rfl, rfl⟩ := admitted
      rfl
  | _ => trivial

theorem Follows.recorded
    (follows : Follows deriveKeyfileContent (· = .ok ()) volume host place) :
    ∃ reverted, DirtyRecorded (host.view place reverted) := by
  obtain ⟨reverted, reached⟩ := follows.reached
  exact ⟨reverted, dirtyRecorded_of_reachable
    (reached.weaken fun _ _ => markerWrites_of_admits)⟩

/-- Past the replay, or a boot that needs none, the data is replayed. -/
theorem Follows.clean (follows : Follows deriveKeyfileContent (· = .ok ()) volume host place)
    (past : (host.phase place).pastReplay) : host.dirty = false := by
  obtain ⟨reverted, recorded⟩ := follows.recorded
  exact recorded.replayed past

theorem Place.Agrees.standalone (agrees : place.Agrees host) (up : host.engine = .standalone) :
    ∃ boot, place = .standalone boot := by
  have running : host.engine ≠ .none := by
    rw [up]
    exact nofun
  have runs := (agrees.withFiles host.volume.files running).1
  cases place with
  | standalone boot => exact ⟨boot, rfl⟩
  | member =>
      obtain ⟨-, opened, engine⟩ := agrees
      cases up.symm.trans engine
  | replaying boot =>
      rcases agrees.2.1 with idle | recovers
      · cases up.symm.trans idle
      · cases up.symm.trans recovers
  | _ => exact runs.elim

/-- Where the marker writes succeed, a container without a replica set spawns its mongod on replayed data
    only and removes the marker from replayed data only; while a member's mongod is up the marker is on the
    volume, and while one without a replica set is up the data is replayed. -/
theorem standalone_spawns_replayed {s : Processes MainCall.Reply Halt Empty Unit VolumeHost}
    (reached : ((volumeBoots deriveKeyfileContent (· = .ok ())).system
      (VolumeHost.Unused volume)).Reachable s) :
    (∀ flags args next, s.running () = some (.perform (.spawnMongod flags args) next) →
      argsSet (flags ++ args) "replSet" = false → s.shared.dirty = false) ∧
    (∀ next, s.running () = some (.perform .clearReplsetMarker next) → s.shared.dirty = false) ∧
    (∀ opened, s.shared.engine = .member opened → s.shared.volume.marker = true) ∧
    (s.shared.engine = .standalone → s.shared.dirty = false) := by
  obtain ⟨known, refined, informed⟩ := refined_of_reachable reached
  have allowed : ∀ {call : MainCall} {next : call.Reply → Task Empty},
      s.running () = some (.perform call next) →
      ∃ place, Follows deriveKeyfileContent (· = .ok ()) volume s.shared place ∧ place.Allows call := by
    intro call next performs
    obtain ⟨mine, knows, meets⟩ := (performs ▸ informed ()).of_running
    rw [knows] at refined
    exact ⟨mine.place, refined.2, meets.1⟩
  obtain ⟨place, follows, -⟩ := refined.follows
  refine ⟨?_, ?_, ?_, ?_⟩
  · intro flags args next performs unnamed
    obtain ⟨place, follows, ⟨-, named⟩ | ⟨⟨boot, rfl⟩, -⟩⟩ := allowed performs
    · cases named.symm.trans unnamed
    · exact follows.clean trivial
  · intro next performs
    obtain ⟨place, follows, boot, rfl⟩ := allowed performs
    exact follows.clean trivial
  · intro opened up
    obtain rfl := follows.agrees.member up
    obtain ⟨reverted, recorded⟩ := follows.recorded
    refine recorded.haMarked ?_
    rcases s.shared.phase_member with running | entrypoint
    · simp [running, BootPhase.pastMark]
    · simp [entrypoint, BootPhase.pastMark]
  · intro up
    obtain ⟨boot, rfl⟩ := follows.agrees.standalone up
    exact follows.clean trivial

end Refine

/-! ### An HA life that crashes, then a revert -/

/-- A member of a set when it names its seeds. -/
def seededEnvironment (seeds : Option String) : Environment
  | "MONGO_INITDB_ROOT_USERNAME" => some "mongo"
  | "MONGO_INITDB_ROOT_PASSWORD" => some "pw"
  | "RS_KEY" => some "key"
  | "RS_SEEDS" => seeds
  | _ => none

def seededStart (seeds : Option String) : Start where
  watch := { lockPolls := 0, dnsRounds := 0, supervisorRounds := 0 }
  env := seededEnvironment seeds
  args := []
  ownSet := rfl
  plainDir := by
    intro config loaded
    obtain ⟨-, -, -, dataDir⟩ := Config.fromEnv_credentials loaded
    have named : (passthroughConfig config []).dataDir = "/data/db" := dataDir
    rw [named]
    decide

def memberStart : Start := seededStart (some "a:27017")
def plainStart : Start := seededStart none

def emptyVolumeHost : VolumeHost :=
  { volume := emptyVolume
    dirty := false
    engine := .none
    config := none
    serving := false
    resolver := none }

abbrev Answer := (call : MainCall) × call.Reply

/-- A boot whose lock file cannot be opened, up to its listing. -/
def unlocked (files : List String) : List Answer :=
  [⟨.startTelemetry, .ok ()⟩, ⟨.volumeLock .openLockFile, false⟩,
    ⟨.sendOnce (lockLost "/data/db"), ()⟩, ⟨.listDataDir, files⟩]

def ownPart : List String := ["--bind_ip_all", "--ipv6", "--port", "27017"]

/-- The boot of a member on an empty volume, with its mongod. -/
def memberCalls : List Answer :=
  unlocked [] ++
    [⟨.node .readPin, none⟩, ⟨.node .readPin, none⟩, ⟨.node (.discoverLiveSetKeyfile "pw"), none⟩,
      ⟨.node (.writeKeyfileContent "key"), .ok ()⟩, ⟨.node (.setLoadedKeyfile "key"), ()⟩,
      ⟨.markReplsetBoot, .ok ()⟩, ⟨.startTask (.healthServer false (some "key") false none), ()⟩,
      ⟨.startTask (.orchestrate false), ()⟩, ⟨.startTask .fcvReconcile, ()⟩,
      ⟨.startTask (.resolver { password := "pw", keyfile := some "key", envDrifted := false }), ()⟩,
      ⟨.spawnMongod (ownPart ++ ["--replSet", "rs0", "--keyFile", "/run/mongo-ha/keyfile"]) [], .ok ()⟩]

def recovered : EndedRecovery where
  run := cleanRecovery
  spawned := rfl
  verdict := .ok .replayed
  ended := cleanRecovery_replays

/-- The standalone boot on what it leaves, up to its mongod. -/
def plainCalls : List Answer :=
  unlocked datasetFiles ++
    [⟨.node .readPin, none⟩, ⟨.replsetMarkerPresent, true⟩,
      ⟨.spawnRecovery ["--bind_ip", "127.0.0.1", "--port", "27017", "--setParameter",
        "recoverFromOplogAsStandalone=true", "--setParameter",
        "takeUnstableCheckpointOnShutdown=true"] [], .ok ()⟩,
      ⟨.recoveryEnds, recovered⟩, ⟨.clearReplsetMarker, .removed⟩,
      ⟨.startTask (.healthServer true none true none), ()⟩, ⟨.startTask .standaloneDuties, ()⟩,
      ⟨.startTask .fcvReconcile, ()⟩,
      ⟨.startTask (.resolver { password := "pw", keyfile := none, envDrifted := false }), ()⟩]

theorem memberCalls_run :
    ∃ rest, (main id memberStart.watch memberStart.env memberStart.args).Runs memberCalls rest :=
  ⟨_, .cons (.cons (.cons (.cons (.cons (.cons (.cons (.cons (.cons (.cons (.cons (.cons (.cons (.cons
    (.cons (.nil _)))))))))))))))⟩

theorem plainCalls_run : ∃ next,
    (main id plainStart.watch plainStart.env plainStart.args).Runs plainCalls
      (.perform (.spawnMongod ownPart []) next) :=
  ⟨_, .cons (.cons (.cons (.cons (.cons (.cons (.cons (.cons (.cons (.cons (.cons (.cons (.cons
    (.nil _)))))))))))))⟩

/-- The volume once the member has run its mongod under `--replSet` and was killed. -/
def crashedHost : VolumeHost :=
  { emptyVolumeHost with
    volume := { files := datasetFiles, marker := true, pin := .absent }
    dirty := true }

theorem update_unit {α : Type*} (f : Unit → α) (value : α) :
    Function.update f () value = fun _ => value := by
  funext i
  exact Function.update_self ..

/-- A standalone container on the volume that a member's crash has left. -/
theorem reverted_reachable : ∃ s : Processes MainCall.Reply Halt Empty Unit VolumeHost,
    ((volumeBoots id (· = .ok ())).system (VolumeHost.Unused emptyVolume)).Reachable s ∧
      ∃ next, s.running () = some (.perform (.spawnMongod ownPart []) next) := by
  have unused : VolumeHost.Unused emptyVolume emptyVolumeHost := ⟨rfl, rfl, rfl⟩
  have begun : ((volumeBoots id (· = .ok ())).system (VolumeHost.Unused emptyVolume)).Reachable
      { shared := emptyVolumeHost, running := fun _ => none } := .init ⟨unused, fun _ => rfl⟩
  have startsMember : (volumeBoots id (· = .ok ())).starts emptyVolumeHost () memberStart
      { emptyVolumeHost with config := memberStart.config } := rfl
  have member := begun.step (.start rfl startsMember)
  obtain ⟨rest, ran⟩ := memberCalls_run
  have answered : (volumeBoots id (· = .ok ())).AnswersAll ()
      { emptyVolumeHost with config := memberStart.config } memberCalls
      (memberCalls.foldl (fun host call => host.after call.1 call.2)
        { emptyVolumeHost with config := memberStart.config }) :=
    .cons ⟨trivial, rfl⟩ (.cons ⟨trivial, rfl⟩ (.cons ⟨trivial, rfl⟩ (.cons ⟨rfl, rfl⟩
      (.cons ⟨rfl, rfl⟩ (.cons ⟨rfl, rfl⟩ (.cons ⟨trivial, rfl⟩ (.cons ⟨trivial, rfl⟩
      (.cons ⟨trivial, rfl⟩ (.cons ⟨rfl, rfl⟩ (.cons ⟨trivial, rfl⟩ (.cons ⟨trivial, rfl⟩
      (.cons ⟨trivial, rfl⟩ (.cons ⟨trivial, rfl⟩ (.cons ⟨trivial, rfl⟩ (.nil _)))))))))))))))
  have up := Processes.reachable_runs ran answered (Function.update_self ..) member
  have opened := up.step (.move (.memberOpens datasetFiles rfl (by decide)))
  simp only [update_unit] at opened
  have crashed := opened.step (.kill (i := ()) rfl rfl)
  have startsPlain : (volumeBoots id (· = .ok ())).starts crashedHost () plainStart
      { crashedHost with config := plainStart.config } := rfl
  have plain := crashed.step (.start rfl startsPlain)
  obtain ⟨next, ran⟩ := plainCalls_run
  have answers : (volumeBoots id (· = .ok ())).AnswersAll ()
      { crashedHost with config := plainStart.config } plainCalls
      (plainCalls.foldl (fun host call => host.after call.1 call.2)
        { crashedHost with config := plainStart.config }) :=
    .cons ⟨trivial, rfl⟩ (.cons ⟨trivial, rfl⟩ (.cons ⟨trivial, rfl⟩ (.cons ⟨rfl, rfl⟩
      (.cons ⟨rfl, rfl⟩ (.cons ⟨rfl, rfl⟩ (.cons ⟨trivial, rfl⟩ (.cons ⟨trivial, rfl⟩
      (.cons ⟨nofun, rfl⟩ (.cons ⟨trivial, rfl⟩ (.cons ⟨trivial, rfl⟩ (.cons ⟨trivial, rfl⟩
      (.cons ⟨trivial, rfl⟩ (.nil _)))))))))))))
  have launching := Processes.reachable_runs ran answers (Function.update_self ..) plain
  simp only [update_unit] at launching
  exact ⟨_, launching, next, rfl⟩

/-- Its mongod opens replayed data. -/
theorem reverted_spawns_replayed : ∃ s : Processes MainCall.Reply Halt Empty Unit VolumeHost,
    ((volumeBoots id (· = .ok ())).system (VolumeHost.Unused emptyVolume)).Reachable s ∧
      (∃ next, s.running () = some (.perform (.spawnMongod ownPart []) next)) ∧
      s.shared.dirty = false := by
  obtain ⟨s, reached, next, performs⟩ := reverted_reachable
  exact ⟨s, reached, ⟨next, performs⟩, (standalone_spawns_replayed reached).1 _ _ next performs rfl⟩

/-- The machine gets there as well. -/
theorem reverted_boots : ∃ s : Processes MainCall.Reply Halt Empty Unit VolumeHost,
    (∃ next, s.running () = some (.perform (.spawnMongod ownPart []) next)) ∧
      ∃ t, (boots id (· = .ok ()) emptyVolume).Reachable t ∧ t.volume = s.shared.volume ∧
        t.dirty = s.shared.dirty ∧ s.shared.engine.UpIn t.phase ∧
        (s.running () = none → t.phase = .down) := by
  obtain ⟨s, reached, spawns⟩ := reverted_reachable
  exact ⟨s, spawns, main_refines_boots reached⟩

end MongoHa.Entrypoint
