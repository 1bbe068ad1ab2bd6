/-
Module: MongoHa.Proofs.BootPlaces
Layer: Proofs
Purpose: Where the boot of `main` stands, from the replies of its volume. A monitor follows it from the
  listing of the data directory to its mongod and says what may be called at each place: a standalone boot
  clears the marker or spawns its mongod only past the replay, if one was needed. Every component of `main`
  stays within it, and only a member names a replica set on its command line.
Imports: MongoHa.Wrapper.VolumeBoots
Trusted boundary: none (fully proved)
Main exports: Place, Progress, standalonePlace, Progress.learn, Place.Allows, bootMonitor,
  argsSet_mongodFlags, Supervises, supervise_uses, bootHa_uses, main_follows
Open obligations: none
-/
import MongoHa.Wrapper.VolumeBoots

namespace MongoHa.Entrypoint

open Foundations
open Foundations.Monitor

/-! ### Where a boot stands -/

/-- How far a boot has come, by the calls it made and what they answered. -/
inductive Place where
  | fresh
  /-- HA mode, before the marker write and after it. -/
  | marking
  | spawning
  | member
  /-- Standalone mode, with what was read of the volume. -/
  | listed (files : List String)
  | pinRead (files : List String) (pin : Option AuthPin)
  | replaying (boot : StandaloneBoot)
  | clearing (boot : StandaloneBoot)
  | starting (boot : StandaloneBoot)
  /-- The resolver runs. -/
  | launching (boot : StandaloneBoot)
  | standalone (boot : StandaloneBoot)

/-- The configuration a boot loaded, and its place. -/
structure Progress where
  config : Option Config
  place : Place

section Follow

variable (deriveKeyfileContent : String → String)

/-- The standalone boot of a configuration on a volume with this pin. -/
def standaloneStart (config : Config) (pin : Option AuthPin) : StandaloneBoot :=
  { credentials := resolveBootCredentials deriveKeyfileContent pin config.mongoRootPassword none none
    envPassword := config.mongoRootPassword
    replayed := false
    resolver := none }

/-- Where a standalone boot goes from its reads. -/
def standalonePlace (boot : StandaloneBoot) (hasData needed : Bool) : Place :=
  if !hasData then .clearing boot else if needed then .replaying boot else .starting boot

def Place.onFiles (member : Bool) (files : List String) : Place → Place
  | .fresh => if member then .marking else .listed files
  | place => place

def Place.onPin (pin : Option AuthPin) : Place → Place
  | .listed files => .pinRead files pin
  | place => place

def Place.onMarker (config : Config) (marker : Bool) : Place → Place
  | .pinRead files pin =>
      standalonePlace (standaloneStart deriveKeyfileContent config pin) (datadirIsInitialized files)
        (replayNeeded (datadirIsInitialized files) marker pin)
  | place => place

def Place.onMark : Place → Place
  | .marking => .spawning
  | place => place

def Place.onRecovery : Except String Replay → Place → Place
  | .ok _, .replaying boot => .clearing { boot with replayed := true }
  | _, place => place

def Place.onClear : Place → Place
  | .clearing boot => .starting boot
  | place => place

def Place.onResolver : Place → Place
  | .starting boot => .launching boot
  | place => place

def Place.onSpawn : Except String Unit → Place → Place
  | .ok (), .spawning => .member
  | .ok (), .launching boot => .standalone boot
  | _, place => place

def Progress.goes (progress : Progress) (place : Place) : Progress := { progress with place := place }

/-- Where the configuration has a say. -/
def Progress.goesBy (progress : Progress) (place : Config → Place) : Progress :=
  match progress.config with
  | some config => progress.goes (place config)
  | none => progress

/-- Where a boot is after an answered call. -/
def Progress.learn (progress : Progress) : (call : MainCall) → call.Reply → Progress
  | .listDataDir, files =>
      progress.goesBy fun config => progress.place.onFiles config.rsEnabled files
  | .node .readPin, pin => progress.goes (progress.place.onPin pin)
  | .replsetMarkerPresent, marker =>
      progress.goesBy fun config => progress.place.onMarker deriveKeyfileContent config marker
  | .markReplsetBoot, _ => progress.goes progress.place.onMark
  | .recoveryEnds, ended => progress.goes (progress.place.onRecovery ended.verdict)
  | .clearReplsetMarker, _ => progress.goes progress.place.onClear
  | .startTask (.resolver _), _ => progress.goes progress.place.onResolver
  | .spawnMongod _ _, spawned => progress.goes (progress.place.onSpawn spawned)
  | _, _ => progress

end Follow

/-- The calls a boot may make at a place. -/
def Place.Allows (place : Place) : MainCall → Prop
  | .listDataDir => place = .fresh
  | .node (.writePin _) => place = .marking
  | .node (.writePasswordPin _ _) => False
  | .markReplsetBoot => place = .marking
  | .replsetMarkerPresent => ∃ files pin, place = .pinRead files pin
  | .spawnRecovery _ _ | .recoveryEnds => ∃ boot, place = .replaying boot
  | .clearReplsetMarker => ∃ boot, place = .clearing boot
  | .startTask (.healthServer _ _ _ _) => place = .spawning ∨ ∃ boot, place = .starting boot
  | .startTask (.resolver credentials) =>
      place = .spawning ∨ ∃ boot, place = .starting boot ∧ boot.credentials = credentials
  | .spawnMongod flags args =>
      place = .spawning ∧ argsSet (flags ++ args) "replSet" = true ∨
        (∃ boot, place = .launching boot) ∧ argsSet (flags ++ args) "replSet" = false
  | .supervisor (.spawnMongod flags args) =>
      place = .member ∧ argsSet (flags ++ args) "replSet" = true
  | _ => True

/-- The monitor of a boot on its volume. -/
def bootMonitor (deriveKeyfileContent : String → String) : Monitor MainCall.Reply Progress where
  learn := Progress.learn deriveKeyfileContent
  allows progress := progress.place.Allows

/-! ### Every boot stays at its places -/

section Meets

variable {deriveKeyfileContent : String → String} {config : Config} {args : List String}
  {progress : Progress}

theorem optionNames_ownFlags (plain : optionName config.dataDir = none) :
    "replSet" ∉ optionNames (ownFlags config) := by
  have port : optionName config.mongoPort.toNat.repr = none := by
    rw [← Nat.toString_eq_repr]
    exact optionName_toString _
  simp only [ownFlags, dbpathFlags]
  split <;> simp [plain, port]

/-- The command line names a replica set in HA mode only. -/
theorem argsSet_mongodFlags (plain : optionName config.dataDir = none)
    (ownSet : argsSet args "replSet" = false) :
    argsSet (mongodFlags config args ++ args) "replSet" = config.rsEnabled := by
  have unset : "replSet" ∉ optionNames args := by simp [← argsSet_iff, ownSet]
  have merged : "replSet" ∉ optionNames (mergeOwnFlags (ownFlags config) args) := by
    rw [optionNames_mergeOwnFlags]
    exact fun member => optionNames_ownFlags plain (List.mem_filter.1 member).1
  cases enabled : config.rsEnabled with
  | true =>
      rw [argsSet_iff]
      simp [mongodFlags, enabled, haFlags]
  | false =>
      rw [← Bool.not_eq_true, argsSet_iff]
      simp [mongodFlags, enabled, merged, unset]

@[simp] theorem bootMonitor_learn (call : MainCall) (reply : call.Reply) :
    (bootMonitor deriveKeyfileContent).learn progress call reply =
      progress.learn deriveKeyfileContent call reply := rfl

@[simp] theorem bootMonitor_allows (call : MainCall) :
    (bootMonitor deriveKeyfileContent).allows progress call ↔ progress.place.Allows call := Iff.rfl

/-- A condition on where a part of the boot ends; it may stop anywhere. -/
abbrev Reaches {φ α : Type} (post : Progress → α → Prop) : Progress → Except φ α → Prop := onOk post

/-- The calls of the supervisor, which spawns again in HA mode only. -/
def Supervises (demote : Bool) (flags args : List String) : Supervisor.SupervisorCall → Prop
  | .spawnMongod own passed => demote = true ∧ own = flags ∧ passed = args
  | _ => True

section Supervisor

open Supervisor

variable {demote : Bool} {flags : List String}

theorem orHalt_uses (result : Except String Unit) :
    (Supervisor.orHalt result).Uses (Supervises demote flags args) := by
  cases result <;> trivial

theorem onNode_uses {φ α : Type} {fails : φ → Halt} (task : Credentials.Task φ α) :
    (Supervisor.onNode fails task).Uses (Supervises demote flags args) :=
  (Program.uses_any task).translate fun _ _ => ⟨trivial, fun _ => trivial⟩

theorem gracefulShutdown_uses (pid : Option Int) :
    (gracefulShutdown pid).Uses (Supervises demote flags args) := by
  cases pid with
  | none => trivial
  | some pid =>
      refine ⟨trivial, fun _ => ⟨trivial, fun waited => ?_⟩⟩
      cases waited with
      | some status => trivial
      | none => exact ⟨trivial, fun _ => trivial⟩

theorem restart_uses (pid : Option Int) :
    (restart demote flags args pid).Uses (Supervises demote flags args) := by
  refine ⟨trivial, fun pin => ?_⟩
  simp only [Program.done_bind]
  cases pin.bind AuthPin.keyfile with
  | none => trivial
  | some target =>
      refine ⟨trivial, fun loaded => ?_⟩
      simp only [Program.done_bind]
      split
      · trivial
      split
      · trivial
      rename_i demotes
      refine Program.uses_bind (onNode_uses _) fun handed => ?_
      cases handed with
      | error refused => trivial
      | ok _ =>
          refine ⟨trivial, fun written => Program.uses_bind (orHalt_uses written) fun _ => ?_⟩
          refine Program.uses_bind (gracefulShutdown_uses pid) fun _ => ?_
          refine ⟨⟨by simpa using demotes, rfl, rfl⟩, fun spawned => ?_⟩
          exact Program.uses_bind (orHalt_uses spawned) fun _ =>
            ⟨trivial, fun _ => ⟨trivial, fun _ => trivial⟩⟩

theorem stop_uses (pid : Option Int) : (stop demote pid).Uses (Supervises demote flags args) := by
  unfold stop
  have stops : ((gracefulShutdown pid).bind fun _ => (.fail (.exit 0) : Supervisor.Task Empty)).Uses
      (Supervises demote flags args) :=
    Program.uses_bind (gracefulShutdown_uses pid) fun _ => trivial
  dsimp only
  split
  · exact Program.uses_bind (Program.uses_bind (onNode_uses _) fun _ => trivial) fun _ => stops
  · exact stops

/-- The supervisor makes its own calls and no others. -/
theorem supervise_uses (rounds : Nat) :
    (supervise demote flags args rounds).Uses (Supervises demote flags args) := by
  have loop : ∀ pid, (superviseLoop demote flags args rounds pid).Uses
      (Supervises demote flags args) := by
    induction rounds with
    | zero => exact fun _ => trivial
    | succ rounds ih =>
        refine fun pid => ⟨trivial, fun event => ?_⟩
        simp only [Program.done_bind]
        cases event with
        | restartNotified => exact Program.uses_bind (restart_uses pid) ih
        | exited status => trivial
        | sigterm => exact stop_uses pid
        | sigint => exact stop_uses pid
  refine ⟨trivial, fun registered => Program.uses_bind (orHalt_uses registered) fun _ => ?_⟩
  exact ⟨trivial, fun pid => loop pid⟩

end Supervisor

/-! ### The boot -/

/-- Calls that leave the place as it is, wherever the boot stands. -/
def MainCall.quiet : MainCall → Prop
  | .startTelemetry | .volumeLock _ | .sendOnce _ | .lookupHost _ | .bindTo _ | .sleep => True
  | .startTask .fcvReconcile | .startTask .standaloneDuties | .startTask (.orchestrate _) => True
  | _ => False

theorem meets_of_quiet {φ α : Type} {program : Program MainCall.Reply φ α}
    {ends : Progress → Except φ α → Prop} (uses : program.Uses MainCall.quiet)
    (ended : ∀ outcome, ends progress outcome) :
    (bootMonitor deriveKeyfileContent).Meets ends progress program := by
  refine meets_of_uses uses ?_ ended
  intro call quiet
  cases call with
  | startTask task => cases task <;> first | exact quiet.elim | exact ⟨trivial, fun _ => rfl⟩
  | _ => first | exact quiet.elim | exact ⟨trivial, fun _ => rfl⟩

theorem onVolumeLock_quiet {α : Type} (task : LockTask α) : (onVolumeLock task).Uses MainCall.quiet :=
  (Program.uses_any task).translate fun _ _ => ⟨trivial, fun _ => trivial⟩

theorem waitForLocalAddress_quiet (host : String) (rounds : Nat) :
    (waitForLocalAddress host rounds).Uses MainCall.quiet :=
  (waitForLocalAddress_uses host rounds).imp fun call lookup => by
    cases call <;> first | exact lookup | exact lookup.elim

/-! HA mode. -/

/-- The calls of the credentials part of an HA boot. -/
def isBootEffect : Credentials.Effect → Prop
  | .writePasswordPin _ _ => False
  | _ => True

theorem firstLiveKeyfile_uses (candidates : List String) :
    (Credentials.firstLiveKeyfile candidates).Uses isBootEffect := by
  induction candidates with
  | nil => trivial
  | cons password candidates ih =>
      refine ⟨trivial, fun keyfile => ?_⟩
      cases keyfile with
      | some keyfile => trivial
      | none => exact ih

theorem reconcileKeyfileAtBoot_uses :
    (Credentials.reconcileKeyfileAtBoot config).Uses isBootEffect := by
  refine ⟨trivial, fun pin => ?_⟩
  simp only [Program.done_bind]
  cases pin with
  | none => trivial
  | some pin =>
      cases current : pin.keyfile with
      | none =>
          simp only [current]
          trivial
      | some keyfile =>
          simp only [current]
          refine ⟨trivial, fun pending => ?_⟩
          simp only [Program.done_bind]
          split
          · trivial
          refine Program.uses_bind (firstLiveKeyfile_uses _) fun live => ?_
          cases live with
          | none => trivial
          | some keyfile =>
              simp only
              split
              · trivial
              refine ⟨trivial, fun written => ?_⟩
              cases written <;> trivial

/-- The HA boot touches only what a boot may. -/
theorem bootHa_uses : (Credentials.bootHa config deriveKeyfileContent).Uses isBootEffect := by
  have loads : ∀ credentials, (Credentials.loadCredentials credentials).Uses isBootEffect := by
    intro credentials
    unfold Credentials.loadCredentials
    split
    · trivial
    · refine ⟨trivial, fun written => ?_⟩
      cases written with
      | error text => trivial
      | ok _ => exact ⟨trivial, fun _ => trivial⟩
  refine Program.uses_bind reconcileKeyfileAtBoot_uses fun _ => ⟨trivial, fun pin => ?_⟩
  simp only [Program.done_bind]
  split
  · exact ⟨trivial, fun live => loads _⟩
  · exact loads _

theorem bootMember_follows {hasData : Bool} :
    (bootMonitor deriveKeyfileContent).Meets
      (Reaches fun after _ => after = { config := some config, place := .spawning })
      { config := some config, place := .marking }
      (bootMember deriveKeyfileContent config hasData) := by
  have credentials : (bootMonitor deriveKeyfileContent).Meets
      (Reaches fun after _ => after = { config := some config, place := .marking })
      { config := some config, place := .marking }
      (onNode haltOf (Credentials.bootHa config deriveKeyfileContent)) := by
    have calls : (onNode haltOf (Credentials.bootHa config deriveKeyfileContent)).Uses
        fun call => ∃ effect, isBootEffect effect ∧ call = .node effect :=
      bootHa_uses.translate fun effect part => ⟨⟨effect, part, rfl⟩, fun _ => trivial⟩
    refine meets_of_uses calls ?_ fun outcome => ?_
    · rintro call ⟨effect, part, rfl⟩
      cases effect <;> first | exact part.elim | exact ⟨trivial, fun _ => rfl⟩ | exact ⟨rfl, fun _ => rfl⟩
    · cases outcome with
      | ok value => exact rfl
      | error halt => trivial
  refine credentials.then fun known credentials same => ?_
  subst same
  refine ⟨rfl, fun written => ⟨Or.inl rfl, fun _ => ⟨trivial, fun _ => ?_⟩⟩⟩
  exact rfl

/-! Standalone mode. -/

theorem replayFirst_follows (boot : StandaloneBoot) (start : progress.place = .replaying boot) :
    (bootMonitor deriveKeyfileContent).Meets
      (Reaches fun after _ => after = progress.goes (.starting { boot with replayed := true })) progress
      (replayFirst config args) := by
  simp only [replayFirst, recoveryBoot, perform, Program.call, Program.bind_eq, Program.perform_bind,
    Program.done_bind, meets_perform]
  refine ⟨⟨boot, start⟩, fun spawned => ?_⟩
  cases spawned with
  | error text => exact ⟨trivial, fun _ => trivial⟩
  | ok _ =>
      refine ⟨⟨boot, start⟩, fun ended => ?_⟩
      simp only
      cases verdict : ended.verdict with
      | error text => exact ⟨trivial, fun _ => trivial⟩
      | ok outcome =>
          have cleared : (progress.goes (progress.place.onRecovery ended.verdict)).place =
              .clearing { boot with replayed := true } := by
            simp [verdict, start, Progress.goes, Place.onRecovery]
          refine ⟨⟨_, cleared⟩, fun removal => ?_⟩
          simp [Progress.learn, verdict, start, Progress.goes, Place.onRecovery, Place.onClear]

/-- The boot is past its replay, with the credentials of its pin. -/
def Starts (config : Config) (after : Progress) (credentials : BootCredentials) : Prop :=
  ∃ boot, after = { config := some config, place := .starting boot } ∧ boot.credentials = credentials

theorem bootStandalone_follows {files : List String} :
    (bootMonitor deriveKeyfileContent).Meets (Reaches (Starts config))
      { config := some config, place := .listed files }
      (bootStandalone deriveKeyfileContent config args (datadirIsInitialized files)) := by
  simp only [bootStandalone, perform, Program.call, Program.bind_eq, Program.perform_bind,
    Program.done_bind, meets_perform, Program.pure_eq]
  refine ⟨trivial, fun pin => ⟨⟨files, pin, rfl⟩, fun marker => ?_⟩⟩
  have tasks : ∀ (boot : StandaloneBoot) (known : Progress),
      boot.credentials = (standaloneStart deriveKeyfileContent config pin).credentials →
      known = { config := some config, place := .starting boot } →
      (bootMonitor deriveKeyfileContent).Meets (Reaches (Starts config)) known
        (.perform (.startTask (.healthServer true none (datadirIsInitialized files)
            config.healthApiCredential)) fun _ =>
          .perform (.startTask .standaloneDuties) fun _ =>
            .done (resolveBootCredentials deriveKeyfileContent pin config.mongoRootPassword none none) :
          Task BootCredentials) := by
    rintro boot known same rfl
    exact ⟨Or.inr ⟨boot, rfl⟩, fun _ => ⟨trivial, fun _ => ⟨boot, rfl, same⟩⟩⟩
  have learned : (bootMonitor deriveKeyfileContent).learn
      ((bootMonitor deriveKeyfileContent).learn { config := some config, place := .listed files }
        (.node .readPin) pin) .replsetMarkerPresent marker =
      { config := some config
        place := standalonePlace (standaloneStart deriveKeyfileContent config pin)
          (datadirIsInitialized files) (replayNeeded (datadirIsInitialized files) marker pin) } := rfl
  rw [learned, standalonePlace]
  cases present : datadirIsInitialized files with
  | false => exact ⟨⟨_, rfl⟩, fun removal => tasks _ _ rfl rfl⟩
  | true =>
      cases needed : replayNeeded true marker pin with
      | false => exact tasks _ _ rfl rfl
      | true =>
          refine (replayFirst_follows (standaloneStart deriveKeyfileContent config pin) rfl).then
            fun known _ replayed => ?_
          exact tasks { standaloneStart deriveKeyfileContent config pin with replayed := true } _ rfl
            replayed

/-! The whole boot. -/

/-- Where a boot stands once its mongod is up. -/
def Place.up (config : Config) : Place → Prop
  | .member => config.rsEnabled = true
  | .standalone _ => config.rsEnabled = false
  | _ => False

theorem onSupervisor_follows (config : Config) {flags : List String} {rounds : Nat}
    (up : progress.place.up config)
    (named : argsSet (flags ++ args) "replSet" = config.rsEnabled) :
    (bootMonitor deriveKeyfileContent).Meets (Reaches fun _ _ => True) progress
      (onSupervisor (Supervisor.supervise config.rsEnabled flags args rounds)) := by
  have calls : (onSupervisor (Supervisor.supervise config.rsEnabled flags args rounds)).Uses
      fun call => ∃ own, Supervises config.rsEnabled flags args own ∧ call = .supervisor own :=
    (supervise_uses rounds).translate fun call part => ⟨⟨call, part, rfl⟩, fun _ => trivial⟩
  refine meets_of_uses calls ?_ fun outcome => ?_
  · rintro call ⟨own, part, rfl⟩
    refine ⟨?_, fun _ => rfl⟩
    cases own with
    | spawnMongod other passed =>
        obtain ⟨member, rfl, rfl⟩ := part
        rw [member] at named
        refine ⟨?_, named⟩
        cases place : progress.place <;> simp_all [Place.up]
    | _ => trivial
  · cases outcome <;> trivial

/-- Where a boot stands when it starts the resolver with these credentials. -/
def Launches (config : Config) (credentials : BootCredentials) : Place → Prop
  | .spawning => config.rsEnabled = true
  | .starting boot => config.rsEnabled = false ∧ boot.credentials = credentials
  | _ => False

theorem Launches.cases {credentials : BootCredentials} {place : Place}
    (launches : Launches config credentials place) :
    (place = .spawning ∧ config.rsEnabled = true) ∨
      ∃ boot, place = .starting boot ∧ config.rsEnabled = false ∧ boot.credentials = credentials := by
  cases place with
  | spawning => exact Or.inl ⟨rfl, launches⟩
  | starting boot => exact Or.inr ⟨boot, rfl, launches⟩
  | _ => exact launches.elim

/-- From the background tasks of both modes on. -/
theorem launch_follows {credentials : BootCredentials} {hasData : Bool} {watch : Watch}
    (named : argsSet (mongodFlags config args ++ args) "replSet" = config.rsEnabled)
    (launches : Launches config credentials progress.place) :
    (bootMonitor deriveKeyfileContent).Meets (Reaches fun _ _ => True) progress
      (do perform (.startTask .fcvReconcile)
          perform (.startTask (.resolver credentials))
          if config.rsEnabled && hasData then waitForLocalAddress config.privateDomain watch.dnsRounds
          (perform (.spawnMongod (mongodFlags config args) args)).bind orHalt
          onSupervisor (Supervisor.supervise config.rsEnabled (mongodFlags config args) args
            watch.supervisorRounds)) := by
  have spawns : (bootMonitor deriveKeyfileContent).Meets (Reaches fun _ _ => True)
      (progress.goes progress.place.onResolver)
      (do (perform (.spawnMongod (mongodFlags config args) args)).bind orHalt
          onSupervisor (Supervisor.supervise config.rsEnabled (mongodFlags config args) args
            watch.supervisorRounds)) := by
    rcases launches.cases with ⟨place, member⟩ | ⟨boot, place, standalone, -⟩
    · have there : (progress.goes progress.place.onResolver).place = .spawning := by
        simp [Progress.goes, place, Place.onResolver]
      refine ⟨Or.inl ⟨there, named.trans member⟩, fun spawned => ?_⟩
      cases spawned with
      | error text => trivial
      | ok _ =>
          refine onSupervisor_follows config ?_ named
          simp [Progress.learn, Progress.goes, Place.onSpawn, place, Place.onResolver, Place.up, member]
    · have there : (progress.goes progress.place.onResolver).place = .launching boot := by
        simp [Progress.goes, place, Place.onResolver]
      refine ⟨Or.inr ⟨⟨boot, there⟩, named.trans standalone⟩, fun spawned => ?_⟩
      cases spawned with
      | error text => trivial
      | ok _ =>
          refine onSupervisor_follows config ?_ named
          simp [Progress.learn, Progress.goes, Place.onSpawn, place, Place.onResolver, Place.up,
            standalone]
  have resolver : progress.place.Allows (.startTask (.resolver credentials)) := by
    rcases launches.cases with ⟨place, -⟩ | ⟨boot, place, -, same⟩
    · exact Or.inl place
    · exact Or.inr ⟨boot, place, same⟩
  refine ⟨trivial, fun _ => ⟨resolver, fun _ => ?_⟩⟩
  by_cases waits : (config.rsEnabled && hasData) = true
  · have waited : (bootMonitor deriveKeyfileContent).Meets
        (Reaches fun after _ => after = progress.goes progress.place.onResolver)
        (progress.goes progress.place.onResolver)
        (waitForLocalAddress config.privateDomain watch.dnsRounds) := by
      refine meets_of_quiet (waitForLocalAddress_quiet _ _) fun outcome => ?_
      cases outcome <;> trivial
    simp only [waits, if_true, Program.done_bind]
    refine Meets.then waited fun after _ same => ?_
    subst same
    exact spawns
  · simp only [waits, Program.done_bind]
    exact spawns

theorem bootOnVolume_follows {watch : Watch}
    (named : argsSet (mongodFlags config args ++ args) "replSet" = config.rsEnabled) :
    (bootMonitor deriveKeyfileContent).Meets (Reaches fun _ _ => True)
      { config := some config, place := .fresh }
      (bootOnVolume deriveKeyfileContent config args watch) := by
  refine ⟨rfl, fun files => ?_⟩
  change (bootMonitor deriveKeyfileContent).Meets _ _ (if config.rsEnabled then _ else _)
  have learned : (bootMonitor deriveKeyfileContent).learn { config := some config, place := .fresh }
      .listDataDir files =
        { config := some config
          place := if config.rsEnabled then .marking else .listed files } := rfl
  rw [learned]
  split
  · rename_i member
    refine bootMember_follows.then fun known credentials spawning => ?_
    subst spawning
    exact launch_follows named member
  · rename_i standalone
    refine bootStandalone_follows.then fun known credentials starts => ?_
    obtain ⟨boot, rfl, same⟩ := starts
    exact launch_follows named ⟨by simpa using standalone, same⟩

theorem bootConfigured_follows {watch : Watch} {env : Environment}
    (named : argsSet (mongodFlags config args ++ args) "replSet" = config.rsEnabled) :
    (bootMonitor deriveKeyfileContent).Meets (Reaches fun _ _ => True)
      { config := some config, place := .fresh }
      (bootConfigured deriveKeyfileContent config args watch env) := by
  refine ⟨trivial, fun started => ?_⟩
  cases started with
  | error text => trivial
  | ok _ =>
      have locks : (bootMonitor deriveKeyfileContent).Meets
          (Reaches fun after _ => after = { config := some config, place := .fresh })
          { config := some config, place := .fresh }
          (onVolumeLock (acquireVolumeRuntimeLock watch.lockPolls env)) := by
        refine meets_of_quiet (onVolumeLock_quiet _) fun outcome => ?_
        cases outcome <;> trivial
      refine locks.then fun known outcome same => ?_
      subst same
      cases outcome with
      | held => exact bootOnVolume_follows named
      | failedOpen => exact ⟨trivial, fun _ => bootOnVolume_follows named⟩

/-- Every boot stays at its places. -/
theorem main_follows (start : Start) :
    (bootMonitor deriveKeyfileContent).Meets (Reaches fun _ _ => True)
      { config := start.config, place := .fresh }
      (main deriveKeyfileContent start.watch start.env start.args) := by
  unfold main
  cases loaded : Config.fromEnv start.env with
  | error text => trivial
  | ok config =>
      have known : start.config = some (passthroughConfig config start.args) := by
        simp [Start.config, loaded, Except.toOption]
      rw [known]
      exact bootConfigured_follows
        (argsSet_mongodFlags (start.plainDir config loaded) start.ownSet)

end Meets

end MongoHa.Entrypoint
