/-
Module: MongoHa.Proofs.CredentialTasks
Layer: Proofs
Purpose: What each credential task of a node may write and what its end says, from the replies it got: the
  holder of the rotation lock, the boot, the supervisor and the resolver. Each is one monitor, and every
  later argument about a node relies on these and not on the programs.
Imports: MongoHa.Wrapper.CredentialNode
Trusted boundary: none (fully proved)
Main exports: JobKnown, jobMonitor, Finished, jobEnds, job_meets, resolverMonitor, resolving_meets,
  supervisorMonitor, restarting_meets, bootMonitor, booting_meets, followJob, job_obeys_step, BootHeard,
  bootHeard_step, TasksSound, tasksSound_step, rotation_of_performs, pin_password_cases,
  pin_password_step
Open obligations: none
-/
import MongoHa.Wrapper.CredentialNode

namespace MongoHa.Credentials

open Foundations
open Foundations.Monitor

/-! ### Rules for the steps of a task -/

section Rules

variable {κ : Type*} {monitor : Monitor Effect.Reply κ} {known : κ} {φ α : Type}

@[simp] theorem meets_orMongo {result : MongoResult α} {post : κ → α → Prop} :
    monitor.Meets (onOk post) known (orMongo result) ↔
      ∀ value, result = .ok value → post known value := by
  cases result with
  | ok value => simp [orMongo]
  | error failure => simp [orMongo]

@[simp] theorem meets_orRunAdmin {result : MongoResult WriteReply} {post : κ → Unit → Prop} :
    monitor.Meets (onOk post) known (orRunAdmin result) ↔
      ∀ reply, result = .ok reply → post known () := by
  cases result with
  | ok reply => simp [orRunAdmin]
  | error failure => simp [orRunAdmin]

@[simp] theorem meets_orWrite {result : Except WriteFailure Unit} {post : κ → Unit → Prop} :
    monitor.Meets (onOk post) known (orWrite result) ↔ (result = .ok () → post known ()) := by
  cases result with
  | ok _ => simp [orWrite]
  | error failure => simp [orWrite]

@[simp] theorem meets_orRemoval {removal : Removal} {post : κ → Unit → Prop} :
    monitor.Meets (onOk post) known (orRemoval removal) ↔
      ((∀ text, removal ≠ .failed text) → post known ()) := by
  cases removal <;> simp [orRemoval]

@[simp] theorem meets_orExit {result : Except String Unit} {post : κ → Unit → Prop} :
    monitor.Meets (onOk post) known (orExit result) ↔ (result = .ok () → post known ()) := by
  cases result with
  | ok _ => simp [orExit]
  | error text => simp [orExit]

/-- The calls that only read the state of the set. -/
def isSurvey : Effect → Prop
  | .rsStatus | .probeName _ => True
  | _ => False

theorem goneMembers_uses (members : List RsMember) : (goneMembers members).Uses isSurvey := by
  induction members with
  | nil => trivial
  | cons m members ih =>
      unfold goneMembers
      split
      · refine ⟨trivial, fun verdict => ?_⟩
        exact @Program.uses_bind _ _ _ _ _ _ (goneMembers members) _ ih fun _ => trivial
      · exact ih

theorem setReady_uses : setReady.Uses isSurvey := by
  refine ⟨trivial, fun status => ?_⟩
  cases status with
  | error failure => trivial
  | ok status =>
      cases status with
      | active setName myState myStateStr members votingMembers =>
          exact @Program.uses_bind _ _ _ _ _ _ (goneMembers members) _ (goneMembers_uses members)
            fun _ => trivial
      | _ => trivial

/-- A monitor that lets the set be surveyed and learns nothing from it. -/
def Surveys (monitor : Monitor Effect.Reply κ) : Prop :=
  ∀ known effect, isSurvey effect →
    monitor.allows known effect ∧ ∀ reply, monitor.learn known effect reply = known

theorem meets_setReady (surveys : Surveys monitor) {ends : κ → Except RotationError Bool → Prop}
    (ended : ∀ outcome, ends known outcome) : monitor.Meets ends known setReady :=
  meets_of_uses setReady_uses (surveys known) ended

end Rules

/-! ### The holder of the rotation lock -/

/-- What a job knows from the replies it got. -/
structure JobKnown where
  /-- The passwords that mongod answered `Works` for. -/
  proven : List String
  /-- The password of the last member phase write that succeeded. -/
  pinned : Option String
  /-- The password of the last `updateUser` that mongod carried out. -/
  updated : Option String
  /-- The keyfile seen loaded last. -/
  loaded : Option String

def JobKnown.nothing : JobKnown :=
  { proven := [], pinned := none, updated := none, loaded := none }

def learnJob (known : JobKnown) : (effect : Effect) → effect.Reply → JobKnown
  | .probeLocalPassword password, probe =>
      { known with proven := if probe = .works then password :: known.proven else known.proven }
  | .writePasswordPin password _, written =>
      { known with pinned := if written = .ok () then some password else known.pinned }
  | .updateUser _ password, updated =>
      { known with updated := (updated.toOption.map fun _ => password).or known.updated }
  | .loadedKeyfile, loaded => { known with loaded := loaded }
  | _, _ => known

def allowsJob (deriveKeyfileContent : String → String) (asked : Option Rotation) (known : JobKnown) :
    Effect → Prop
  | .writePin pin =>
      (pin.password ∈ known.proven ∧ known.pinned = none) ∧
        ∃ request, asked = some request ∧ request.isKeyPass ∧
          pin.keyfile = some (request.passKeyfile deriveKeyfileContent)
  | .writePasswordPin password _ => password ∈ known.proven ∧ known.pinned = none
  | .savePending request => asked = some request ∧ request.operation = .prepare
  | .updateUser _ password =>
      ∃ request, asked = some request ∧ request.operation = .database ∧ request.newPassword = password
  | .removePending => ∃ request, asked = some request ∧ request.operation = .verify
  | .setLoadedKeyfile _ | .writeKeyfileContent _ | .restartMongod => False
  | _ => True

/-- The monitor of the rotation lock's holder. -/
def jobMonitor (deriveKeyfileContent : String → String) (asked : Option Rotation) :
    Monitor Effect.Reply JobKnown where
  learn := learnJob
  allows := allowsJob deriveKeyfileContent asked

/-- What an operation that succeeded knows. -/
def Finished (deriveKeyfileContent : String → String) (request : Rotation) (known : JobKnown) : Prop :=
  match request.operation with
  | .database => request.newPassword ∈ known.proven ∨ known.updated = some request.newPassword
  | .member => request.newPassword ∈ known.proven ∧ known.pinned = some request.newPassword
  | .keyPrepare | .keyCommit =>
      known.loaded = some (request.passKeyfile deriveKeyfileContent)
  | _ => True

section Job

variable {config : Config} {deriveKeyfileContent : String → String} {polls : Nat}
  {asked : Option Rotation} {request : Rotation} {known : JobKnown}

attribute [local simp] perform Program.call Credentials.ensure learnJob allowsJob

@[simp] theorem jobMonitor_learn (effect : Effect) (reply : effect.Reply) :
    (jobMonitor deriveKeyfileContent asked).learn known effect reply = learnJob known effect reply :=
  rfl

@[simp] theorem jobMonitor_allows (effect : Effect) :
    (jobMonitor deriveKeyfileContent asked).allows known effect ↔
      allowsJob deriveKeyfileContent asked known effect := Iff.rfl

theorem job_surveys : Surveys (jobMonitor deriveKeyfileContent asked) := by
  intro known effect survey
  cases effect <;> first | exact survey.elim | exact ⟨trivial, fun _ => rfl⟩

theorem job_setReady {post : JobKnown → Bool → Prop} (either : ∀ ready, post known ready) :
    (jobMonitor deriveKeyfileContent asked).Meets (onOk post) known setReady := by
  apply meets_setReady job_surveys
  intro outcome
  cases outcome with
  | ok ready => exact either ready
  | error error => trivial

theorem preflight_meets : (jobMonitor deriveKeyfileContent asked).Meets (onOk fun _ _ => True) known
    (preflight deriveKeyfileContent request) := by
  have surveyed : ∀ known, (jobMonitor deriveKeyfileContent asked).Meets (onOk fun _ _ => True) known
      setReady := fun known => job_setReady fun _ => trivial
  simp [preflight, surveyed]

theorem database_meets (asks : asked = some request) (operation : request.operation = .database) :
    (jobMonitor deriveKeyfileContent asked).Meets
      (onOk fun known _ => request.newPassword ∈ known.proven ∨
        known.updated = some request.newPassword) known (database config request) := by
  simp [database, Except.toOption, asks, operation]

theorem member_meets (unpinned : known.pinned = none) :
    (jobMonitor deriveKeyfileContent asked).Meets
      (onOk fun known _ => request.newPassword ∈ known.proven ∧
        known.pinned = some request.newPassword) known (member request) := by
  simp [member, unpinned]

theorem keyStatus_meets :
    (jobMonitor deriveKeyfileContent asked).Meets (onOk fun _ _ => True) known keyStatus := by
  have surveyed : ∀ known, (jobMonitor deriveKeyfileContent asked).Meets (onOk fun _ _ => True) known
      setReady := fun known => job_setReady fun _ => trivial
  simp [keyStatus, surveyed]

theorem awaitLoaded_meets (target : String) : (jobMonitor deriveKeyfileContent asked).Meets
    (onOk fun known _ => known.loaded = some target) known (awaitLoaded target polls) := by
  induction polls generalizing known with
  | zero => trivial
  | succ polls ih =>
      simp only [awaitLoaded, perform, Program.call, Program.bind_eq, Program.perform_bind,
        Program.done_bind, meets_perform, meets_then, meets_ite, meets_attempt_ok, Program.pure_eq,
        meets_done, onOk_ok, jobMonitor_allows, jobMonitor_learn, allowsJob, learnJob, true_and]
      intro loaded
      constructor
      · intro same
        apply meets_setReady job_surveys
        intro outcome
        exact ⟨fun _ => same, fun _ _ => ih⟩
      · intro _
        refine ⟨fun ready => ?_, fun _ _ => ih⟩
        cases ready

theorem keyPass_meets (asks : asked = some request) (pass : request.isKeyPass)
    (unpinned : known.pinned = none) :
    (jobMonitor deriveKeyfileContent asked).Meets
      (onOk fun known _ => known.loaded = some (request.passKeyfile deriveKeyfileContent)) known
      (keyPass deriveKeyfileContent polls request) := by
  have awaited : ∀ known, (jobMonitor deriveKeyfileContent asked).Meets
      (onOk fun known _ => known.loaded = some (request.passKeyfile deriveKeyfileContent)) known
      (awaitLoaded (request.passKeyfile deriveKeyfileContent) polls) :=
    fun known => awaitLoaded_meets _
  simp only [keyPass, perform, Program.call, Program.bind_eq, Program.perform_bind, Program.done_bind,
    meets_perform, meets_then, meets_ite, meets_ensure, Credentials.ensure, jobMonitor_allows,
    jobMonitor_learn, allowsJob, learnJob, true_and]
  intro probe works loaded
  constructor
  · intro _
    apply job_setReady
    intro ready _
    refine ⟨⟨⟨by simp [works], unpinned⟩, request, asks, pass, rfl⟩, fun written => ?_⟩
    exact meets_orWrite.2 fun _ _ => awaited _
  · exact fun _ => awaited _

theorem verify_meets (asks : asked = some request) (operation : request.operation = .verify) :
    (jobMonitor deriveKeyfileContent asked).Meets (onOk fun _ _ => True) known
      (verify deriveKeyfileContent request) := by
  subst asks
  have surveyed : ∀ known, (jobMonitor deriveKeyfileContent (some request)).Meets
      (onOk fun _ _ => True) known setReady := fun known => job_setReady fun _ => trivial
  simp [verify, operation, surveyed]

/-- Asking who leads changes nothing. -/
theorem meets_leaderReply {post : JobKnown → Prop} {task : Task RotationError Unit}
    (meets : (jobMonitor deriveKeyfileContent asked).Meets (onOk fun known _ => post known) known task) :
    (jobMonitor deriveKeyfileContent asked).Meets (onOk fun known _ => post known) known
      (task.bind fun _ => leaderReply) := by
  rw [meets_then]
  refine meets.imp fun known outcome held => ?_
  cases outcome with
  | error error => trivial
  | ok _ =>
      simp only [leaderReply, perform, Program.call, Program.bind_eq, Program.perform_bind,
        Program.done_bind, onOk_ok, meets_perform, meets_then, meets_orMongo, Program.pure_eq, meets_done,
        jobMonitor_allows, jobMonitor_learn, allowsJob, learnJob, true_and]
      exact fun _ _ _ => held

theorem apply_meets (asks : asked = some request) (unpinned : known.pinned = none) :
    (jobMonitor deriveKeyfileContent asked).Meets
      (onOk fun known _ => Finished deriveKeyfileContent request known) known
      (apply config deriveKeyfileContent polls request) := by
  unfold apply Finished
  cases operation : request.operation with
  | preflight => exact meets_leaderReply preflight_meets
  | prepare => simp [asks, operation]
  | database => exact meets_leaderReply (database_meets asks operation)
  | member => exact meets_leaderReply (member_meets unpinned)
  | keyStatus => exact meets_leaderReply keyStatus_meets
  | keyPrepare => exact meets_leaderReply (keyPass_meets asks (Or.inl operation) unpinned)
  | keyCommit => exact meets_leaderReply (keyPass_meets asks (Or.inr operation) unpinned)
  | verify => exact meets_leaderReply (verify_meets asks operation)

theorem rotate_meets {supplied : Option String} (unpinned : known.pinned = none) :
    (jobMonitor deriveKeyfileContent (some request)).Meets
      (onOk fun known answer => ∀ reply, answer = .ok reply → Finished deriveKeyfileContent request known)
      known (rotate config deriveKeyfileContent polls supplied request) := by
  simp only [rotate, perform, Program.call, Program.bind_eq, Program.perform_bind, Program.done_bind,
    meets_perform, meets_then, meets_ite, meets_attempt_ok, Program.pure_eq, meets_done, onOk_ok,
    jobMonitor_allows, jobMonitor_learn, allowsJob, learnJob, true_and]
  intro pin
  refine ⟨fun _ reply refused => ?_, fun _ => ⟨fun _ reply refused => ?_, fun _ => ?_⟩⟩
  · cases refused
  · cases refused
  · refine (apply_meets rfl unpinned).imp fun known outcome finished => ?_
    cases outcome with
    | ok reply => exact fun _ _ => finished
    | error error =>
        intro reply refused
        cases refused

theorem reconcileAttempt_meets (unpinned : known.pinned = none) :
    (jobMonitor deriveKeyfileContent none).Meets
      (onOk fun known _ => ∃ password ∈ known.proven, known.pinned = some password) known
      (reconcileAttempt config deriveKeyfileContent polls) := by
  refine ⟨trivial, fun age => ?_⟩
  cases age with
  | none => trivial
  | some age =>
      simp only [Program.done_bind, Program.bind_eq, meets_then, meets_ensure, Credentials.ensure]
      refine fun _ => ⟨trivial, fun pending => ?_⟩
      cases pending with
      | none => trivial
      | some request =>
          exact (meets_leaderReply (member_meets unpinned)).then fun known _ pinned => ⟨_, pinned⟩

/-- What the end of a job tells. -/
def jobEnds (deriveKeyfileContent : String → String) (asked : Option Rotation) (known : JobKnown) :
    Ending → Prop
  | .answered request (.ok _) => asked = some request ∧ Finished deriveKeyfileContent request known
  | .answered _ (.refused _ _) => True
  | .reconciled (.ok ()) => ∃ password ∈ known.proven, known.pinned = some password
  | .reconciled (.error _) => True
  | _ => False

/-- Every job stays within the monitor of its request. -/
theorem job_meets (job : Job) (unpinned : known.pinned = none) :
    (jobMonitor deriveKeyfileContent job.asked).Meets (onOk (jobEnds deriveKeyfileContent job.asked)) known
      (job.task config deriveKeyfileContent polls) := by
  cases job with
  | answer supplied request =>
      refine (rotate_meets unpinned).then fun known answer finished => ?_
      cases answer with
      | refused status text => trivial
      | ok reply => exact ⟨rfl, finished reply rfl⟩
  | reconcile =>
      refine meets_then.2 (meets_attempt_ok.2 ?_)
      refine (reconcileAttempt_meets unpinned).imp fun known outcome pinned => ?_
      cases outcome with
      | error error => trivial
      | ok _ => exact pinned

end Job

/-! ### The resolver -/

/-- The passwords that mongod answered `Works` for. -/
def learnProven (proven : List String) : (effect : Effect) → effect.Reply → List String
  | .probeLocalPassword password, probe => if probe = .works then password :: proven else proven
  | _, _ => proven

def allowsResolver (proven : List String) : Effect → Prop
  | .writePasswordPin password _ => password ∈ proven
  | .writePin _ | .savePending _ | .removePending | .updateUser _ _ => False
  | .setLoadedKeyfile _ | .notifyRestart | .writeKeyfileContent _ | .restartMongod => False
  | _ => True

/-- The monitor of the resolver. -/
def resolverMonitor : Monitor Effect.Reply (List String) where
  learn := learnProven
  allows := allowsResolver

def resolverEnds : Ending → Prop
  | .resolved _ => True
  | _ => False

section Resolving

variable {boot : BootCredentials} {envPassword : String} {resolver : Resolver} {proven : List String}

attribute [local simp] perform Program.call learnProven allowsResolver

@[simp] theorem resolverMonitor_learn (effect : Effect) (reply : effect.Reply) :
    resolverMonitor.learn proven effect reply = learnProven proven effect reply := rfl

@[simp] theorem resolverMonitor_allows (effect : Effect) :
    resolverMonitor.allows proven effect ↔ allowsResolver proven effect := Iff.rfl

theorem reportDriftOnce_meets {event : TelemetryEvent} : resolverMonitor.Meets
    (onOk fun _ _ => True) proven (reportDriftOnce resolver event) := by
  simp [reportDriftOnce]

theorem pendingPart_meets : resolverMonitor.Meets (onOk fun _ _ => True) proven
    (pendingPart resolver) := by
  refine ⟨trivial, fun pending => ?_⟩
  cases pending with
  | none => trivial
  | some request => simp

theorem activePart_meets : resolverMonitor.Meets (onOk fun _ _ => True) proven
    (activePart boot resolver) := by
  unfold activePart
  split
  · trivial
  · refine ⟨trivial, fun probe => ?_⟩
    cases probe with
    | works => simp
    | accessDenied => exact reportDriftOnce_meets
    | notReady reason => trivial

theorem envPart_meets : resolverMonitor.Meets (onOk fun _ _ => True) proven
    (envPart boot envPassword resolver) := by
  unfold envPart
  split
  · refine ⟨trivial, fun probe => ?_⟩
    cases probe with
    | works => simp
    | accessDenied =>
        exact reportDriftOnce_meets.then fun _ _ _ => trivial
    | notReady reason => trivial
  · split <;> trivial

/-- The resolver writes only passwords it proved, and no keyfile. -/
theorem resolving_meets : resolverMonitor.Meets (onOk fun _ => resolverEnds) proven
    (resolving boot envPassword resolver) := by
  have task : resolverMonitor.Meets (onOk fun _ _ => True) proven
      (resolverTask boot envPassword resolver) := by
    refine ⟨trivial, fun running => ?_⟩
    cases running with
    | true => trivial
    | false =>
        exact pendingPart_meets.then fun _ _ _ =>
          activePart_meets.then fun _ _ _ => envPart_meets
  exact task.then fun _ _ _ => trivial

end Resolving

/-! ### The supervisor -/

/-- The keyfile of the pin as the supervisor read it. -/
def learnTarget (target : Option String) : (effect : Effect) → effect.Reply → Option String
  | .readPin, pin => pin.bind AuthPin.keyfile
  | _, _ => target

def allowsSupervisor (target : Option String) : Effect → Prop
  | .setLoadedKeyfile keyfile | .writeKeyfileContent keyfile => target = some keyfile
  | .writePin _ | .writePasswordPin _ _ | .savePending _ | .removePending | .updateUser _ _ => False
  | .notifyRestart => False
  | _ => True

/-- The monitor of the supervisor. -/
def supervisorMonitor : Monitor Effect.Reply (Option String) where
  learn := learnTarget
  allows := allowsSupervisor

def supervisorEnds : Ending → Prop
  | .restarted _ => True
  | _ => False

section Supervising

variable {target : Option String}

@[simp] theorem supervisorMonitor_learn (effect : Effect) (reply : effect.Reply) :
    supervisorMonitor.learn target effect reply = learnTarget target effect reply := rfl

@[simp] theorem supervisorMonitor_allows (effect : Effect) :
    supervisorMonitor.allows target effect ↔ allowsSupervisor target effect := Iff.rfl

def isHandoff : Effect → Prop
  | .hello | .stepDown _ _ => True
  | _ => False

theorem handoff_uses : handoff.Uses isHandoff := by
  refine ⟨trivial, fun hello => ?_⟩
  cases hello with
  | error failure => trivial
  | ok hello =>
      have still : ((perform Effect.hello).bind orMongo >>= fun hello =>
          ensure (hello.isWritablePrimary = false) "still primary").Uses isHandoff := by
        refine ⟨trivial, fun hello => ?_⟩
        cases hello with
        | error failure => trivial
        | ok hello =>
            unfold ensure Program.ensure
            simp only [Program.done_bind, orMongo]
            split <;> trivial
      simp only [Program.done_bind, orMongo]
      split
      · refine ⟨trivial, fun down => ?_⟩
        cases down with
        | error failure => trivial
        | ok _ => exact still
      · exact still

/-- The calls of a handoff teach nothing about the pin. -/
theorem handoff_meets {ends : Option String → Except RotationError Unit → Prop}
    (ended : ∀ outcome, ends target outcome) : supervisorMonitor.Meets ends target handoff := by
  apply meets_of_uses handoff_uses _ ended
  intro effect calls
  cases effect <;> first | exact calls.elim | exact ⟨trivial, fun _ => rfl⟩

theorem restartWith_meets {keyfile : String} :
    supervisorMonitor.Meets (onOk fun _ _ => True) (some keyfile) (restartWith keyfile) := by
  simp [restartWith, perform, Program.call, allowsSupervisor, learnTarget]

theorem superviseRestart_meets : supervisorMonitor.Meets (onOk fun _ _ => True) target
    superviseRestart := by
  refine ⟨trivial, fun pin => ?_⟩
  cases pinned : pin.bind AuthPin.keyfile with
  | none => simp [pinned]
  | some keyfile =>
      simp only [Program.done_bind, pinned]
      refine ⟨trivial, fun loaded => ?_⟩
      have known : learnTarget target .readPin pin = some keyfile := pinned
      simp only [Program.done_bind, supervisorMonitor_learn, known]
      split
      · trivial
      · have attempted : supervisorMonitor.Meets (onOk fun known _ => known = some keyfile)
            (some keyfile) (handoff.attempt : Task String (Except RotationError Unit)) :=
          meets_attempt_ok.2 (handoff_meets fun _ => rfl)
        refine attempted.then fun known handed same => ?_
        subst same
        cases handed with
        | error error => trivial
        | ok _ => exact restartWith_meets

/-- The supervisor loads the keyfile of the pin it read, and writes no file of the volume. -/
theorem restarting_meets : supervisorMonitor.Meets (onOk fun _ => supervisorEnds) target
    restarting := by
  have attempted : supervisorMonitor.Meets (onOk fun _ _ => True) target
      (superviseRestart.attempt : Task Empty (Except String Unit)) :=
    meets_attempt_ok.2 (superviseRestart_meets.imp fun _ _ _ => trivial)
  exact attempted.then fun _ _ _ => trivial

end Supervising

/-! ### The boot -/

/-- The pin as the boot left it on the volume, once it read it, and what the last peer it asked handed
    out. -/
structure BootKnown where
  pin : Option (Option AuthPin)
  live : Option String

def BootKnown.nothing : BootKnown := { pin := none, live := none }

def learnBoot (known : BootKnown) : (effect : Effect) → effect.Reply → BootKnown
  | .readPin, pin => { known with pin := some pin }
  | .writePin pin, written =>
      { known with pin := if replaced written then some (some pin) else known.pin }
  | .discoverLiveSetKeyfile _, live => { known with live := live }
  | _, _ => known

/-- A keyfile a boot may load: the pin's, any if the pin has none. -/
def BootKnown.loads (known : BootKnown) (keyfile : String) : Prop :=
  ∃ pin, known.pin = some pin ∧
    (pin.bind AuthPin.keyfile = some keyfile ∨ pin.bind AuthPin.keyfile = none)

def allowsBoot (known : BootKnown) : Effect → Prop
  | .writePin pin => ∃ found current live, known.pin = some (some found) ∧
      found.keyfile = some current ∧ known.live = some live ∧ keysOverlap current live = false ∧
      pin = { found with keyfile := some live }
  | .setLoadedKeyfile keyfile | .writeKeyfileContent keyfile => known.loads keyfile
  | .writePasswordPin _ _ | .savePending _ | .removePending | .updateUser _ _ => False
  | .notifyRestart | .restartMongod => False
  | _ => True

/-- The monitor of an HA boot. -/
def bootMonitor : Monitor Effect.Reply BootKnown where
  learn := learnBoot
  allows := allowsBoot

/-- A boot on a configuration with RS_KEY resolves some keyfile. -/
def bootEnds (config : Config) : Ending → Prop
  | .booted outcome => config.rsKey.isSome = true → outcome ≠ .error .noKeyfile
  | _ => False

section Booting

variable {config : Config} {deriveKeyfileContent : String → String} {known : BootKnown}

@[simp] theorem bootMonitor_learn (effect : Effect) (reply : effect.Reply) :
    bootMonitor.learn known effect reply = learnBoot known effect reply := rfl

@[simp] theorem bootMonitor_allows (effect : Effect) :
    bootMonitor.allows known effect ↔ allowsBoot known effect := Iff.rfl

/-- Asking the peers leaves what is known of the pin as it is. -/
theorem firstLiveKeyfile_meets {ends : BootKnown → Except BootError (Option String) → Prop}
    (candidates : List String)
    (ended : ∀ after live, after.pin = known.pin → (∀ keyfile, live = some keyfile →
      after.live = some keyfile) → ends after (.ok live)) :
    bootMonitor.Meets ends known (firstLiveKeyfile candidates) := by
  induction candidates generalizing known with
  | nil => exact ended known none rfl nofun
  | cons password candidates ih =>
      refine ⟨trivial, fun live => ?_⟩
      cases live with
      | some keyfile => exact ended _ _ rfl fun _ same => same
      | none => exact ih fun after live same => ended after live same

theorem reconcileKeyfileAtBoot_meets : bootMonitor.Meets
    (fun _ outcome => outcome ≠ .error .noKeyfile) known (reconcileKeyfileAtBoot config) := by
  refine ⟨trivial, fun pin => ?_⟩
  cases pin with
  | none => exact nofun
  | some pin =>
      cases pinned : pin.keyfile with
      | none => simp [pinned]
      | some current =>
          simp only [Program.done_bind, pinned]
          refine ⟨trivial, fun pending => ?_⟩
          simp only [Program.done_bind]
          split
          · exact nofun
          · refine meets_bind.2 (firstLiveKeyfile_meets _ fun after live same fetched => ?_)
            cases live with
            | none => exact nofun
            | some keyfile =>
                simp only [continues]
                split
                · exact nofun
                · rename_i disjoint
                  refine ⟨⟨pin, current, keyfile, same, pinned, fetched keyfile rfl, ?_, rfl⟩, ?_⟩
                  · simpa using disjoint
                  · intro written
                    cases written with
                    | ok _ => exact nofun
                    | error failure => exact nofun

/-- A boot resolves the pinned keyfile, when the pin has one and RS_KEY is set. -/
theorem resolved_keyfile {pin : Option AuthPin} {live : Option String} {keyfile : String}
    (resolved : (resolveBootCredentials deriveKeyfileContent pin config.mongoRootPassword config.rsKey
      live).keyfile = some keyfile) :
    pin.bind AuthPin.keyfile = some keyfile ∨ pin.bind AuthPin.keyfile = none := by
  cases pin with
  | none => exact Or.inr rfl
  | some pin =>
      cases pinned : pin.keyfile with
      | none => exact Or.inr pinned
      | some current =>
          left
          cases key : config.rsKey with
          | none => simp [resolveBootCredentials, key] at resolved
          | some secret => simpa [resolveBootCredentials, key, pinned] using resolved

theorem resolved_isSome {pin : Option AuthPin} {live : Option String}
    (keyed : config.rsKey.isSome = true) :
    (resolveBootCredentials deriveKeyfileContent pin config.mongoRootPassword config.rsKey
      live).keyfile ≠ none := by
  obtain ⟨secret, key⟩ := Option.isSome_iff_exists.1 keyed
  cases pin with
  | none => simp [resolveBootCredentials, key]
  | some pin => simp [resolveBootCredentials, key]

theorem loadCredentials_meets {credentials : BootCredentials} (keyed : config.rsKey.isSome = true →
      credentials.keyfile ≠ none)
    (loads : ∀ keyfile, credentials.keyfile = some keyfile → known.loads keyfile) :
    bootMonitor.Meets (fun _ outcome => config.rsKey.isSome = true → outcome ≠ .error .noKeyfile)
      known (loadCredentials credentials) := by
  unfold loadCredentials
  cases resolved : credentials.keyfile with
  | none => exact fun set => absurd resolved (keyed set)
  | some keyfile =>
      refine ⟨loads keyfile resolved, fun written => ?_⟩
      cases written with
      | error text => exact fun _ => nofun
      | ok _ => exact ⟨loads keyfile resolved, fun _ _ => nofun⟩

/-- A boot loads the keyfile of the pin it read, adopts a peer's only in place of a disjoint one, and
    resolves some keyfile when RS_KEY is set. -/
theorem booting_meets : bootMonitor.Meets (onOk fun _ => bootEnds config) known
    (booting config deriveKeyfileContent) := by
  have boots : bootMonitor.Meets
      (fun _ outcome => config.rsKey.isSome = true → outcome ≠ .error .noKeyfile) known
      (bootHa config deriveKeyfileContent) := by
    refine meets_bind.2 (reconcileKeyfileAtBoot_meets.imp fun known outcome sound => ?_)
    cases outcome with
    | error error => exact fun _ => by simpa using sound
    | ok _ =>
        refine ⟨trivial, fun pin => ?_⟩
        by_cases unpinned : pin.bind AuthPin.keyfile = none
        · simp only [Program.done_bind, unpinned, ↓reduceIte]
          refine ⟨trivial, fun live => ?_⟩
          exact loadCredentials_meets resolved_isSome fun _ same => ⟨pin, rfl, resolved_keyfile same⟩
        · simp only [Program.done_bind, unpinned, ↓reduceIte]
          exact loadCredentials_meets resolved_isSome fun _ same => ⟨pin, rfl, resolved_keyfile same⟩
  have attempted : bootMonitor.Meets (onOk fun _ outcome => config.rsKey.isSome = true →
      outcome ≠ .error .noKeyfile) known
      ((bootHa config deriveKeyfileContent).attempt : Task Empty (Except BootError BootCredentials)) :=
    meets_attempt_ok.2 boots
  exact attempted.then fun _ _ sound => sound

end Booting

/-! ### The tasks of a node -/

section Sound

variable {deriveKeyfileContent : String → String} {node next : Node} {label : Label}
  {holds after : String → Prop}

/-- The holder of the rotation lock stays within its monitor, and `holds` of every password it proved. -/
def RotationSound (deriveKeyfileContent : String → String) (holds : String → Prop) (node : Node) :
    Prop :=
  ∃ asked known, (∀ password ∈ known.proven, holds password) ∧
    node.Obeys .rotation (jobMonitor deriveKeyfileContent asked)
      (onOk (jobEnds deriveKeyfileContent asked)) known

/-- What a step leaves known to the holder of the rotation lock. -/
def followJob (deriveKeyfileContent : String → String) (asked : Option Rotation) (known : JobKnown)
    (label : Label) : JobKnown :=
  match label with
  | .starts _ _ => .nothing
  | _ => follow (jobMonitor deriveKeyfileContent asked) .rotation known label

theorem followJob_of_running {asked : Option Rotation} {known : JobKnown}
    (running : ∀ job polls, label ≠ .starts job polls) :
    followJob deriveKeyfileContent asked known label =
      follow (jobMonitor deriveKeyfileContent asked) .rotation known label := by
  cases label with
  | starts job polls => exact absurd rfl (running job polls)
  | _ => rfl

theorem asks_of_running {asked : Option Rotation} (running : ∀ job polls, label ≠ .starts job polls) :
    label.asks asked = asked := by
  cases label with
  | starts job polls => exact absurd rfl (running job polls)
  | _ => rfl

/-- Over a step the holder of the lock stays within the monitor of the request it works on. -/
theorem job_obeys_step {asked : Option Rotation} {known : JobKnown}
    (step : NodeStep deriveKeyfileContent node label next)
    (obeys : node.Obeys .rotation (jobMonitor deriveKeyfileContent asked)
      (onOk (jobEnds deriveKeyfileContent asked)) known) :
    next.Obeys .rotation (jobMonitor deriveKeyfileContent (label.asks asked))
      (onOk (jobEnds deriveKeyfileContent (label.asks asked)))
      (followJob deriveKeyfileContent asked known label) := by
  by_cases starts : ∃ job polls, label = .starts job polls
  · obtain ⟨job, polls, rfl⟩ := starts
    cases step with
    | starts up free =>
        intro task has
        rw [setTask_self] at has
        cases has
        exact job_meets job rfl
  · have running : ∀ job polls, label ≠ .starts job polls :=
      fun job polls same => starts ⟨job, polls, same⟩
    rw [followJob_of_running running, asks_of_running running]
    refine obeys_step (fun task fresh => ?_) step obeys
    cases fresh with
    | rotation => exact absurd rfl (running _ _)

/-- What a step adds to the proven passwords of the job. -/
theorem mem_followJob {asked : Option Rotation} {known : JobKnown} {password : String}
    (member : password ∈ (followJob deriveKeyfileContent asked known label).proven) :
    (password ∈ known.proven ∨ label.works = some (.rotation, password)) ∧
      label.asks asked = asked := by
  cases label with
  | starts job polls => cases member
  | performs name effect reply =>
      refine ⟨?_, rfl⟩
      simp only [followJob, follow] at member
      split at member
      · rename_i own
        subst own
        cases effect with
        | probeLocalPassword probed =>
            simp only [jobMonitor_learn, learnJob] at member
            split at member
            · rename_i works
              rcases List.mem_cons.1 member with rfl | earlier
              · exact Or.inr (if_pos works)
              · exact Or.inl earlier
            · exact Or.inl member
        | _ => exact Or.inl member
      · exact Or.inl member
  | _ => exact ⟨Or.inl member, rfl⟩

theorem rotationSound_idle (idle : node.tasks .rotation = none) :
    RotationSound deriveKeyfileContent holds node := by
  refine ⟨none, .nothing, nofun, fun task has => ?_⟩
  rw [idle] at has
  cases has

theorem rotationSound_step (grows : ∀ password, holds password → after password)
    (proves : ∀ password, label.works = some (.rotation, password) → after password)
    (step : NodeStep deriveKeyfileContent node label next)
    (sound : RotationSound deriveKeyfileContent holds node) :
    RotationSound deriveKeyfileContent after next := by
  obtain ⟨asked, known, proven, obeys⟩ := sound
  refine ⟨label.asks asked, followJob deriveKeyfileContent asked known label, fun password member => ?_,
    job_obeys_step step obeys⟩
  rcases (mem_followJob member).1 with earlier | now
  · exact grows password (proven password earlier)
  · exact proves password now

/-- The resolver stays within its monitor, and `holds` of every password it proved. -/
def ResolverSound (holds : String → Prop) (node : Node) : Prop :=
  ∃ proven, (∀ password ∈ proven, holds password) ∧
    node.Obeys .resolver resolverMonitor (onOk fun _ => resolverEnds) proven

theorem resolverSound_idle (idle : node.tasks .resolver = none) : ResolverSound holds node := by
  refine ⟨[], nofun, fun task has => ?_⟩
  rw [idle] at has
  cases has

theorem mem_follow_resolver {proven : List String} {password : String}
    (member : password ∈ follow resolverMonitor .resolver proven label) :
    password ∈ proven ∨ label.works = some (.resolver, password) := by
  cases label with
  | performs name effect reply =>
      simp only [follow] at member
      split at member
      · rename_i own
        subst own
        cases effect with
        | probeLocalPassword probed =>
            simp only [resolverMonitor_learn, learnProven] at member
            split at member
            · rename_i works
              rcases List.mem_cons.1 member with rfl | earlier
              · exact Or.inr (if_pos works)
              · exact Or.inl earlier
            · exact Or.inl member
        | _ => exact Or.inl member
      · exact Or.inl member
  | _ => exact Or.inl member

theorem resolverSound_step (grows : ∀ password, holds password → after password)
    (proves : ∀ password, label.works = some (.resolver, password) → after password)
    (step : NodeStep deriveKeyfileContent node label next) (sound : ResolverSound holds node) :
    ResolverSound after next := by
  obtain ⟨proven, held, obeys⟩ := sound
  refine ⟨follow resolverMonitor .resolver proven label, ?_, ?_⟩
  · intro password member
    rcases mem_follow_resolver member with earlier | now
    · exact grows password (held password earlier)
    · exact proves password now
  · refine obeys_step ?_ step obeys
    intro task fresh
    cases fresh with
    | resolver => exact resolving_meets

/-- The supervisor stays within its monitor. -/
def SupervisorSound (node : Node) : Prop :=
  ∃ target, node.Obeys .supervisor supervisorMonitor (onOk fun _ => supervisorEnds) target

theorem supervisorSound_step (step : NodeStep deriveKeyfileContent node label next)
    (sound : SupervisorSound node) : SupervisorSound next := by
  obtain ⟨target, obeys⟩ := sound
  refine ⟨follow supervisorMonitor .supervisor target label, ?_⟩
  refine obeys_step ?_ step obeys
  intro task fresh
  cases fresh with
  | supervisor => exact restarting_meets

/-- The boot stays within its monitor, what it read is what is on the volume, and `heard` of the keyfile
    that the last peer it asked handed out. -/
def BootHeard (heard : String → Prop) (node : Node) : Prop :=
  ∃ known, (∀ pin, known.pin = some pin → readPin node.shared.pin = pin) ∧
    (∀ live, known.live = some live → heard live) ∧
    node.Obeys .boot bootMonitor (onOk fun _ => bootEnds node.config) known

def BootSound (node : Node) : Prop := BootHeard (fun _ => True) node

theorem bootHeard_idle {heard : String → Prop} (idle : node.tasks .boot = none) :
    BootHeard heard node := by
  refine ⟨.nothing, nofun, nofun, fun task has => ?_⟩
  rw [idle] at has
  cases has

/-- What a call of the boot teaches about the pin is what it leaves on the volume. -/
theorem learnBoot_pin {known : BootKnown} {shared : Shared} {effect : Effect} {reply : effect.Reply}
    (read : ∀ pin, known.pin = some pin → readPin shared.pin = pin)
    (answered : shared.answers effect reply) (allowed : allowsBoot known effect) :
    ∀ pin, (learnBoot known effect reply).pin = some pin →
      readPin (shared.after effect reply).pin = pin := by
  cases effect with
  | readPin =>
      rintro pin ⟨⟩
      exact answered.symm
  | writePin pin =>
      intro found learned
      refine (readPin_writePin shared.pin pin reply).trans ?_
      cases done : replaced reply with
      | true =>
          simp only [learnBoot, done, ↓reduceIte, Option.some.injEq] at learned
          simp [learned]
      | false =>
          simp only [learnBoot, done, Bool.false_eq_true, ↓reduceIte] at learned ⊢
          exact read found learned
  | writePasswordPin password fallbackKey => exact allowed.elim
  | savePending request => exact allowed.elim
  | removePending => exact allowed.elim
  | _ => exact read

/-- What a step teaches the boot about the peers. -/
theorem live_follow_boot {known : BootKnown} {live : String}
    (learned : (follow bootMonitor .boot known label).live = some live) :
    known.live = some live ∨
      ∃ password, label = .performs .boot (.discoverLiveSetKeyfile password) (some live) := by
  cases label with
  | performs name effect reply =>
      simp only [follow] at learned
      split at learned
      · rename_i own
        subst own
        cases effect with
        | discoverLiveSetKeyfile password =>
            have same : reply = some live := learned
            exact Or.inr ⟨password, by rw [same]⟩
        | _ => exact Or.inl learned
      · exact Or.inl learned
  | _ => exact Or.inl learned

/-- A step keeps what a boot knows of the volume and of the peers. -/
theorem bootHeard_step {heard now : String → Prop} (staged : node.Staged)
    (grows : next.tasks .boot ≠ none → ∀ live, heard live → now live)
    (hears : ∀ password live,
      label = .performs .boot (.discoverLiveSetKeyfile password) (some live) → now live)
    (step : NodeStep deriveKeyfileContent node label next) (sound : BootHeard heard node) :
    BootHeard now next := by
  by_cases idle : next.tasks .boot = none
  · exact bootHeard_idle idle
  obtain ⟨task, has⟩ := Option.ne_none_iff_exists'.1 idle
  rcases config_step step with ⟨config, rfl, configured⟩ | ⟨running, configured⟩
  · refine ⟨.nothing, nofun, nofun, fun found started => ?_⟩
    rw [configured]
    rcases tasks_cases step started with ⟨kept, _⟩ | ⟨_, _, _, same, _⟩ | fresh
    · cases step with
      | boots down => exact absurd (staged.boot found kept) (by rw [down]; exact nofun)
    · cases same
    · cases fresh with
      | boot => exact booting_meets
  · obtain ⟨known, read, live, obeys⟩ := sound
    have went : next.Obeys .boot bootMonitor (onOk fun _ => bootEnds node.config)
        (follow bootMonitor .boot known label) := by
      refine obeys_step (fun found fresh => ?_) step obeys
      cases fresh with
      | boot => exact absurd rfl (running _)
    refine ⟨follow bootMonitor .boot known label, ?_, ?_, by rw [configured]; exact went⟩
    · obtain ⟨before, booting⟩ : ∃ before, node.tasks .boot = some before := by
        rcases tasks_cases step has with ⟨kept, _⟩ | ⟨_, _, _, _, ran, _⟩ | fresh
        · exact ⟨_, kept⟩
        · exact ⟨_, ran⟩
        · cases fresh with
          | boot => exact absurd rfl (running _)
      cases label with
      | performs name effect reply =>
          obtain rfl := staged.boots booting step
          have allowed := obeys_allows step obeys
          rw [shared_step step, follow, if_pos rfl]
          cases step with
          | performs _ answered => exact learnBoot_pin read answered allowed
      | _ =>
          rcases pin_step step with same | ⟨_, _, _, written, _⟩ | ⟨_, _, _, _, written, _⟩
          · rw [same]
            exact read
          · cases written
          · cases written
    · intro found learned
      rcases live_follow_boot learned with earlier | ⟨password, rfl⟩
      · exact grows idle found (live found earlier)
      · exact hears password found rfl

theorem bootSound_step (staged : node.Staged) (step : NodeStep deriveKeyfileContent node label next)
    (sound : BootSound node) : BootSound next :=
  bootHeard_step staged (fun _ _ _ => trivial) (fun _ _ _ => trivial) step sound

/-- Every task of a node stays within its monitor, and `holds` of every password that was proved. -/
structure TasksSound (deriveKeyfileContent : String → String) (holds : String → Prop) (node : Node) :
    Prop where
  staged : node.Staged
  rotation : RotationSound deriveKeyfileContent holds node
  resolver : ResolverSound holds node
  supervisor : SupervisorSound node
  boot : BootSound node

theorem tasksSound_idle (idle : ∀ name, node.tasks name = none) :
    TasksSound deriveKeyfileContent holds node := by
  have without : ∀ {name task}, node.tasks name = some task → False := by
    intro name task has
    rw [idle] at has
    cases has
  constructor
  · exact ⟨fun _ has => (without has).elim, fun _ _ _ has => (without has).elim⟩
  · exact rotationSound_idle (idle _)
  · exact resolverSound_idle (idle _)
  · exact ⟨none, fun _ has => (without has).elim⟩
  · exact bootHeard_idle (idle _)

/-- A step keeps every task within what it learned. -/
theorem tasksSound_step (grows : ∀ password, holds password → after password)
    (proves : ∀ name password, label.works = some (name, password) → after password)
    (step : NodeStep deriveKeyfileContent node label next)
    (sound : TasksSound deriveKeyfileContent holds node) :
    TasksSound deriveKeyfileContent after next where
  staged := staged_step sound.staged step
  rotation := rotationSound_step grows (proves _) step sound.rotation
  resolver := resolverSound_step grows (proves _) step sound.resolver
  supervisor := supervisorSound_step step sound.supervisor
  boot := bootSound_step sound.staged step sound.boot

theorem TasksSound.imp (grows : ∀ password, holds password → after password)
    (sound : TasksSound deriveKeyfileContent holds node) :
    TasksSound deriveKeyfileContent after node where
  staged := sound.staged
  rotation :=
    let ⟨asked, known, proven, obeys⟩ := sound.rotation
    ⟨asked, known, fun _ member => grows _ (proven _ member), obeys⟩
  resolver :=
    let ⟨proven, held, obeys⟩ := sound.resolver
    ⟨proven, fun _ member => grows _ (held _ member), obeys⟩
  supervisor := sound.supervisor
  boot := sound.boot

/-- A call that only the monitor of the rotation lock's holder allows. -/
theorem rotation_of_performs (sound : TasksSound deriveKeyfileContent holds node) {name : TaskName}
    {effect : Effect} {reply : effect.Reply}
    (booting : ∀ known, ¬ bootMonitor.allows known effect)
    (resolving : ∀ known, ¬ resolverMonitor.allows known effect)
    (restarting : ∀ known, ¬ supervisorMonitor.allows known effect)
    (step : NodeStep deriveKeyfileContent node (.performs name effect reply) next) :
    name = .rotation := by
  cases name with
  | boot =>
      obtain ⟨known, -, -, obeys⟩ := sound.boot
      exact absurd (obeys_allows step obeys) (booting known)
  | rotation => rfl
  | resolver =>
      obtain ⟨proven, -, obeys⟩ := sound.resolver
      exact absurd (obeys_allows step obeys) (resolving proven)
  | supervisor =>
      obtain ⟨target, obeys⟩ := sound.supervisor
      exact absurd (obeys_allows step obeys) (restarting target)

/-- Only the holder of the rotation lock calls `updateUser`. -/
theorem updateUser_rotation (sound : TasksSound deriveKeyfileContent holds node) {name : TaskName}
    {username password : String} {reply : MongoResult WriteReply}
    (step : NodeStep deriveKeyfileContent node (.performs name (.updateUser username password) reply)
      next) : name = .rotation :=
  rotation_of_performs sound (fun _ => id) (fun _ => id) (fun _ => id) step

theorem job_pinWrite {asked : Option Rotation} {known : JobKnown} {password : String}
    (obeys : node.Obeys .rotation (jobMonitor deriveKeyfileContent asked)
      (onOk (jobEnds deriveKeyfileContent asked)) known)
    (step : NodeStep deriveKeyfileContent node label next)
    (writes : label.pinWrite = some (.rotation, password)) :
    password ∈ known.proven ∧ known.pinned = none := by
  unfold Label.pinWrite at writes
  split at writes
  · cases writes
    exact (obeys_allows step obeys).1
  · cases writes
    exact obeys_allows step obeys
  · cases writes

theorem resolver_pinWrite {proven : List String} {password : String}
    (obeys : node.Obeys .resolver resolverMonitor (onOk fun _ => resolverEnds) proven)
    (step : NodeStep deriveKeyfileContent node label next)
    (writes : label.pinWrite = some (.resolver, password)) : password ∈ proven := by
  unfold Label.pinWrite at writes
  split at writes
  · cases writes
    exact (obeys_allows step obeys).elim
  · cases writes
    exact obeys_allows step obeys
  · cases writes

/-- The password of the pin changes by a write of the holder of the rotation lock or of the resolver. -/
theorem pin_password_cases (supervisor : SupervisorSound node) (boot : BootSound node)
    (step : NodeStep deriveKeyfileContent node label next) {pin : AuthPin}
    (pinned : readPin next.shared.pin = some pin) :
    (readPin node.shared.pin).map AuthPin.password = some pin.password ∨
      label.pinWrite = some (.rotation, pin.password) ∨
      label.pinWrite = some (.resolver, pin.password) := by
  obtain ⟨target, supervisorObeys⟩ := supervisor
  obtain ⟨known, read, -, bootObeys⟩ := boot
  rcases pin_step step with
    same | ⟨name, written, reply, rfl, -, wrote⟩ | ⟨name, password, fallbackKey, reply, rfl, -, wrote⟩
  · left
    rw [← same, pinned]
    rfl
  · obtain rfl : written = pin := Option.some.inj (wrote.symm.trans pinned)
    cases name with
    | boot =>
        obtain ⟨found, current, live, learned, -, -, -, rfl⟩ := obeys_allows step bootObeys
        left
        rw [read _ learned]
        rfl
    | rotation => exact Or.inr (Or.inl rfl)
    | resolver => exact Or.inr (Or.inr rfl)
    | supervisor => exact (obeys_allows step supervisorObeys).elim
  · obtain rfl := Option.some.inj (wrote.symm.trans pinned)
    cases name with
    | boot => exact (obeys_allows step bootObeys).elim
    | rotation => exact Or.inr (Or.inl rfl)
    | resolver => exact Or.inr (Or.inr rfl)
    | supervisor => exact (obeys_allows step supervisorObeys).elim

/-- The password of the pin changes only to one that its writer proved. -/
theorem pin_password_step {holdsResolver : String → Prop}
    (rotation : RotationSound deriveKeyfileContent holds node)
    (resolver : ResolverSound holdsResolver node) (supervisor : SupervisorSound node)
    (boot : BootSound node) (step : NodeStep deriveKeyfileContent node label next) {pin : AuthPin}
    (pinned : readPin next.shared.pin = some pin) :
    (readPin node.shared.pin).map AuthPin.password = some pin.password ∨ holds pin.password ∨
      holdsResolver pin.password := by
  obtain ⟨asked, known, proven, jobObeys⟩ := rotation
  obtain ⟨provenResolver, held, resolverObeys⟩ := resolver
  rcases pin_password_cases supervisor boot step pinned with same | writes | writes
  · exact Or.inl same
  · exact Or.inr (Or.inl (proven _ (job_pinWrite jobObeys step writes).1))
  · exact Or.inr (Or.inr (held _ (resolver_pinWrite resolverObeys step writes)))

end Sound

end MongoHa.Credentials
