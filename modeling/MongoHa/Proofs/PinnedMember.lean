/-
Module: MongoHa.Proofs.PinnedMember
Layer: Proofs
Purpose: The HA boots of one volume, each with an environment of its own. Whatever
  MONGO_INITDB_ROOT_PASSWORD and RS_KEY are edited to, the keyfile the pin carries stays and is what every
  boot loads, until a key pass or a live peer's disjoint keyfile takes its place; the pin's password
  changes only to one that the local mongod accepted in the process that writes it; and every boot
  resolves some keyfile.
Imports: MongoHa.Proofs.CredentialTasks
Trusted boundary: none (fully proved)
Main exports: Boots, boots, KeyRewrite, bootInvariant_step, pinned_member_stays
Open obligations: none
-/
import MongoHa.Proofs.CredentialTasks

namespace MongoHa.Credentials

open Foundations

/-- A node, and the passwords its mongod answered `Works` for in the process that runs. -/
structure Boots where
  node : Node
  worked : List String

/-- A process starts with no password proved. -/
def onWorked (worked : List String) (label : Label) : List String :=
  match label with
  | .boots _ => []
  | _ =>
      match label.works with
      | some (_, password) => password :: worked
      | none => worked

/-- An HA boot runs on a configuration that some environment loads. -/
def LoadedHa (label : Label) : Prop :=
  ∀ config, label = .boots config →
    ∃ environment, Config.fromEnv environment = .ok config ∧ config.rsEnabled = true

/-- One step of the node on such boots. -/
def Boots.Step (deriveKeyfileContent : String → String) (s : Boots) (label : Label) (t : Boots) : Prop :=
  LoadedHa label ∧ NodeStep deriveKeyfileContent s.node label t.node ∧
    t.worked = onWorked s.worked label

/-- The boots of a volume that holds anything. -/
def boots (deriveKeyfileContent : String → String) : System Boots :=
  System.labelled (fun s => s.node = s.node.stopped) (Boots.Step deriveKeyfileContent) fun _ _ => True

/-- A write that replaces the keyfile of the pin by another task than a password reconciliation: a key
    pass its target, a boot the keyfile of a live peer that shares no key with it. A write that failed
    before its rename is none. -/
def KeyRewrite (deriveKeyfileContent : String → String) (keyfile : String) : Label → Prop
  | .performs .rotation (.writePin pin) written =>
      replaced written = true ∧ ∃ request : Rotation, request.isKeyPass ∧
        pin.keyfile = some (request.passKeyfile deriveKeyfileContent)
  | .performs .boot (.writePin pin) written =>
      replaced written = true ∧ ∃ live, pin.keyfile = some live ∧ keysOverlap keyfile live = false
  | _ => False

variable {deriveKeyfileContent : String → String} {s t : Boots} {label : Label}

/-- What holds over every boot of the volume, whatever its environment: each task obeys its monitor. -/
structure BootInvariant (deriveKeyfileContent : String → String) (s : Boots) : Prop where
  staged : s.node.Staged
  rotation : RotationSound deriveKeyfileContent (· ∈ s.worked) s.node
  resolver : ResolverSound (· ∈ s.worked) s.node
  supervisor : SupervisorSound s.node
  boot : BootSound s.node
  /-- The process that runs loaded its configuration in HA mode. -/
  keyed : s.node.tasks .boot ≠ none → s.node.config.rsKey.isSome = true

theorem bootInvariant_start (down : s.node = s.node.stopped) :
    BootInvariant deriveKeyfileContent s := by
  have idle : ∀ name, s.node.tasks name = none := by
    intro name
    rw [down]
    rfl
  constructor
  · rw [down]
    exact staged_stopped s.node
  · exact rotationSound_idle (idle _)
  · exact resolverSound_idle (idle _)
  · refine ⟨none, fun task has => ?_⟩
    rw [idle] at has
    cases has
  · exact bootHeard_idle (idle _)
  · exact fun busy => absurd (idle _) busy

/-- Within one process nothing that worked is forgotten. -/
theorem worked_grows {worked : List String} (running : ∀ config, label ≠ .boots config) :
    ∀ password ∈ worked, password ∈ onWorked worked label := by
  intro password member
  unfold onWorked
  split
  · exact absurd rfl (running _)
  · split
    · exact List.mem_cons_of_mem _ member
    · exact member

theorem mem_worked_of_works {worked : List String} {name : TaskName} {password : String}
    (works : label.works = some (name, password)) : password ∈ onWorked worked label := by
  unfold onWorked
  split
  · cases works
  · rw [works]
    exact List.mem_cons_self

/-- A step keeps the invariant, in one process and from one to the next. -/
theorem bootInvariant_step (holds : BootInvariant deriveKeyfileContent s)
    (step : s.Step deriveKeyfileContent label t) : BootInvariant deriveKeyfileContent t := by
  obtain ⟨ha, move, worked⟩ := step
  have staged := staged_step holds.staged move
  have supervisor := supervisorSound_step move holds.supervisor
  have boot := bootSound_step holds.staged move holds.boot
  rcases config_step move with ⟨config, rfl, configured⟩ | ⟨running, configured⟩
  · -- A boot: no task of an earlier process is left.
    have idle : ∀ name, name ≠ .boot → t.node.tasks name = none := by
      intro name other
      generalize t.node = node at move
      cases move with
      | boots down => exact setTask_of_ne _ _ other
    refine ⟨staged, rotationSound_idle (idle _ nofun), resolverSound_idle (idle _ nofun), supervisor,
      boot, fun _ => ?_⟩
    obtain ⟨environment, loaded, enabled⟩ := ha config rfl
    rw [configured]
    exact Config.fromEnv_rsKey loaded enabled
  · have grows : ∀ password, password ∈ s.worked → password ∈ t.worked := by
      rw [worked]
      exact worked_grows running
    have proves : ∀ name password, label.works = some (name, password) → password ∈ t.worked := by
      rw [worked]
      exact fun _ _ works => mem_worked_of_works works
    refine ⟨staged, rotationSound_step grows (proves _) move holds.rotation,
      resolverSound_step grows (proves _) move holds.resolver, supervisor, boot, fun busy => ?_⟩
    rw [configured]
    apply holds.keyed
    obtain ⟨task, has⟩ := Option.ne_none_iff_exists'.1 busy
    rcases tasks_cases move has with ⟨kept, _⟩ | ⟨_, _, _, _, ran, _⟩ | fresh
    · rw [kept]
      exact nofun
    · rw [ran]
      exact nofun
    · cases fresh with
      | boot => exact absurd rfl (running _)

theorem bootInvariant_of_reachable (reached : (boots deriveKeyfileContent).Reachable s) :
    BootInvariant deriveKeyfileContent s := by
  apply System.labelled_invariant _ (fun _ _ _ holds _ step => bootInvariant_step holds step) reached
  exact fun _ down => bootInvariant_start down

/-! ### The keyfile of the pin -/

/-- A step that replaces the pinned keyfile is a key pass or a boot that adopts a disjoint one. -/
theorem pinKeyfile_step (holds : BootInvariant deriveKeyfileContent s)
    (step : s.Step deriveKeyfileContent label t) {keyfile : String}
    (pinned : pinKeyfile s.node.shared.pin = some keyfile)
    (kept : ¬ KeyRewrite deriveKeyfileContent keyfile label) :
    pinKeyfile t.node.shared.pin = some keyfile := by
  obtain ⟨-, move, -⟩ := step
  rcases pin_step move with
    same | ⟨name, pin, written, rfl, done, _⟩ | ⟨name, password, fallbackKey, written, rfl, _, wrote⟩
  · rw [same, pinned]
  · exfalso
    cases name with
    | boot =>
        obtain ⟨known, read, -, obeys⟩ := holds.boot
        obtain ⟨found, current, live, learned, carries, -, disjoint, rfl⟩ := obeys_allows move obeys
        refine kept ⟨done, live, rfl, ?_⟩
        have same : some current = some keyfile := by
          rw [← pinned, pinKeyfile, read _ learned]
          exact carries.symm
        rwa [Option.some.inj same] at disjoint
    | rotation =>
        obtain ⟨asked, known, -, obeys⟩ := holds.rotation
        obtain ⟨-, request, -, pass, carries⟩ := obeys_allows move obeys
        exact kept ⟨done, request, pass, carries⟩
    | resolver =>
        obtain ⟨proven, -, obeys⟩ := holds.resolver
        exact (obeys_allows move obeys).elim
    | supervisor =>
        obtain ⟨target, obeys⟩ := holds.supervisor
        exact (obeys_allows move obeys).elim
  · rw [pinKeyfile, wrote]
    simp [pinned]

/-- What a boot writes for mongod, and loads, is the pinned keyfile. -/
theorem boot_loads_pinned (holds : BootInvariant deriveKeyfileContent s) {loads : String}
    {effect : Effect} {reply : effect.Reply}
    (loading : effect = .setLoadedKeyfile loads ∨ effect = .writeKeyfileContent loads)
    (step : s.Step deriveKeyfileContent (.performs .boot effect reply) t) {keyfile : String}
    (pinned : pinKeyfile s.node.shared.pin = some keyfile) : loads = keyfile := by
  obtain ⟨known, read, -, obeys⟩ := holds.boot
  have allowed : known.loads loads := by
    have allowed := obeys_allows step.2.1 obeys
    rcases loading with rfl | rfl <;> exact allowed
  obtain ⟨pin, learned, carries⟩ := allowed
  rw [pinKeyfile, read pin learned] at pinned
  rcases carries with same | none_
  · exact Option.some.inj (same.symm.trans pinned)
  · rw [none_] at pinned
    cases pinned

theorem pinKeyfile_run (reached : (boots deriveKeyfileContent).Reachable s) {keyfile : String}
    (pinned : pinKeyfile s.node.shared.pin = some keyfile) {labels : List Label}
    (ran : System.Run (Boots.Step deriveKeyfileContent) s labels t)
    (kept : ∀ label ∈ labels, ¬ KeyRewrite deriveKeyfileContent keyfile label) :
    (boots deriveKeyfileContent).Reachable t ∧ pinKeyfile t.node.shared.pin = some keyfile := by
  induction ran with
  | nil => exact ⟨reached, pinned⟩
  | snoc ran taken ih =>
      obtain ⟨there, still⟩ := ih fun label member => kept label (List.mem_append_left _ member)
      refine ⟨there.take _ trivial taken, ?_⟩
      exact pinKeyfile_step (bootInvariant_of_reachable there) taken still
        (kept _ (List.mem_append_right _ List.mem_cons_self))

/-- On every volume, over any HA boots with any environments: a pinned keyfile stays and every boot loads
    it until a key pass or a peer's disjoint keyfile replaces it; the pin's password changes only to one
    the process proved; and no boot is left without a keyfile. -/
theorem pinned_member_stays (reached : (boots deriveKeyfileContent).Reachable s) :
    (∀ keyfile labels t, pinKeyfile s.node.shared.pin = some keyfile →
      System.Run (Boots.Step deriveKeyfileContent) s labels t →
      (∀ label ∈ labels, ¬ KeyRewrite deriveKeyfileContent keyfile label) →
      pinKeyfile t.node.shared.pin = some keyfile ∧
        ∀ loads effect reply u,
          (effect = Effect.setLoadedKeyfile loads ∨ effect = .writeKeyfileContent loads) →
          t.Step deriveKeyfileContent (.performs .boot effect reply) u → loads = keyfile) ∧
    (∀ label t pin, s.Step deriveKeyfileContent label t → readPin t.node.shared.pin = some pin →
      (readPin s.node.shared.pin).map AuthPin.password ≠ some pin.password →
      pin.password ∈ s.worked) ∧
    (∀ t, ¬ s.Step deriveKeyfileContent (.ends .boot (.booted (.error .noKeyfile))) t) := by
  have holds := bootInvariant_of_reachable reached
  refine ⟨?_, ?_, ?_⟩
  · intro keyfile labels t pinned ran kept
    obtain ⟨there, still⟩ := pinKeyfile_run reached pinned ran kept
    refine ⟨still, fun loads effect reply u loading step => ?_⟩
    exact boot_loads_pinned (bootInvariant_of_reachable there) loading step still
  · intro label t pin step pinned changed
    rcases pin_password_step holds.rotation holds.resolver holds.supervisor holds.boot step.2.1 pinned
      with same | proven | proven
    · exact absurd same changed
    · exact proven
    · exact proven
  · intro t step
    obtain ⟨known, -, -, obeys⟩ := holds.boot
    have keyed : s.node.config.rsKey.isSome = true := by
      apply holds.keyed
      rw [ends_running step.2.1]
      exact nofun
    exact obeys_ends step.2.1 obeys keyed rfl

/-! ### A member whose secrets were edited -/

/-- The environment of a member whose two secrets were edited. -/
def editedEnvironment : Environment := fun name =>
  [("MONGO_INITDB_ROOT_USERNAME", "root"), ("MONGO_INITDB_ROOT_PASSWORD", "edited"),
    ("RS_SEEDS", "mongo-1:27017,mongo-2:27017"), ("RS_KEY", "edited"),
    ("RAILWAY_PRIVATE_DOMAIN", "mongo-1")].lookup name

def editedConfig : Config :=
  { configWithSeeds "mongo-1" (some "mongo-1:27017,mongo-2:27017") with
    mongoRootUsername := "root"
    mongoRootPassword := "edited"
    rsKey := some "edited" }

theorem editedEnvironment_loads : Config.fromEnv editedEnvironment = .ok editedConfig := by rfl

def pinnedVolume : Boots where
  node :=
    { shared :=
        { pin := .pin { password := "first", keyfile := some "key" }
          pending := none
          loaded := none
          restart := false }
      stage := .down
      config := default
      credentials := default
      tasks := fun _ => none }
  worked := []

/-- A boot with the edited configuration: what is left of it, and the volume. -/
structure Boots.Amid (s : Boots) (task : Running) (shared : Shared) : Prop where
  task : s.node.tasks .boot = some task
  shared : s.node.shared = shared
  config : s.node.config = editedConfig

/-- The next call of a boot. -/
theorem boots_call {deriveKeyfileContent : String → String} {s : Boots} {effect : Effect}
    {next : effect.Reply → Running} {shared : Shared}
    (reached : (boots deriveKeyfileContent).Reachable s) (here : s.Amid (.perform effect next) shared)
    (reply : effect.Reply) (answered : shared.answers effect reply) :
    ∃ t, (boots deriveKeyfileContent).Reachable t ∧
      t.Amid (next reply) (shared.after effect reply) := by
  obtain ⟨running, rfl, configured⟩ := here
  let t : Boots :=
    ⟨{ s.node.setTask .boot (some (next reply)) with shared := s.node.shared.after effect reply },
      onWorked s.worked (.performs .boot effect reply)⟩
  have step : s.Step deriveKeyfileContent (.performs .boot effect reply) t :=
    ⟨nofun, .performs running answered, rfl⟩
  exact ⟨t, reached.take _ trivial step, rfl, rfl, configured⟩

/-- The boot after the edit writes the pinned keyfile for mongod, and no other one. -/
theorem pinned_member_stays_after_edit : ∃ s, (boots id).Reachable s ∧ s.node.config = editedConfig ∧
    (∃ t, s.Step id (.performs .boot (.writeKeyfileContent "key") (.ok ())) t) ∧
    ∀ loads reply t, s.Step id (.performs .boot (.writeKeyfileContent loads) reply) t →
      loads = "key" := by
  have start : (boots id).Reachable pinnedVolume := .init rfl
  have ha : LoadedHa (.boots editedConfig) := by
    rintro _ ⟨⟩
    exact ⟨editedEnvironment, editedEnvironment_loads, rfl⟩
  have booted := start.take (t := ⟨_, _⟩) (.boots editedConfig) trivial ⟨ha, .boots rfl, rfl⟩
  obtain ⟨_, read, here⟩ := boots_call booted ⟨rfl, rfl, rfl⟩ _ rfl
  obtain ⟨_, pending, here⟩ := boots_call read here _ rfl
  obtain ⟨_, asked, here⟩ := boots_call pending here none trivial
  obtain ⟨_, askedAgain, here⟩ := boots_call asked here none trivial
  obtain ⟨s, reread, here⟩ := boots_call askedAgain here _ rfl
  have pinned : pinKeyfile s.node.shared.pin = some "key" := by
    rw [here.shared]
    rfl
  refine ⟨s, reread, here.config, ⟨⟨_, _⟩, nofun, .performs here.task trivial, rfl⟩, ?_⟩
  have quiet : ∀ label ∈ ([] : List Label), ¬ KeyRewrite id "key" label :=
    fun _ member => absurd member List.not_mem_nil
  intro loads reply t step
  have stays := (pinned_member_stays reread).1 "key" [] s pinned .nil quiet
  exact stays.2 loads _ reply t (Or.inr rfl) step

end MongoHa.Credentials
