/-
Module: MongoHa.Proofs.ContainerBoot
Layer: Proofs
Purpose: What one container does, from the replies it got. `hostMonitor` lets it work on the volume only
  once it holds the lock or has reported that it has none, and spawn a mongod only when the one before is
  gone; `Leaves` says what is known when the process stops by itself. Every component of `main` stays
  within it.
Imports: MongoHa.Wrapper.Containers
Trusted boundary: none (fully proved)
Main exports: Known, Known.Cleared, Known.Gone, Known.learn, Known.Allows, hostMonitor, Leaves,
  supervise_meets, acquire_meets, bootOnVolume_meets, main_meets
Open obligations: none
-/
import MongoHa.Wrapper.Containers

namespace MongoHa.Entrypoint

open Foundations
open Foundations.Monitor

/-! ### What one container knows -/

/-- What is known of a container from the calls it made and their answers. -/
structure Known where
  dataDir : String
  lock : Option VolumeLockOutcome
  sent : List TelemetryEvent
  /-- The child may be up. -/
  up : Bool
  waitFailed : Bool
  /-- A child had no id. -/
  noId : Bool

def Known.fresh (dataDir : String) : Known :=
  { dataDir := dataDir, lock := none, sent := [], up := false, waitFailed := false, noId := false }

/-- The container holds the volume lock, or has reported that it has none. -/
def Known.Cleared (known : Known) : Prop :=
  known.lock = some .held ∨ known.lock = some .failedOpen ∧ lockLost known.dataDir ∈ known.sent

/-- The child is gone, as far as waiting for it can tell. -/
def Known.Gone (known : Known) : Prop :=
  known.up = false ∨ known.waitFailed = true ∨ known.noId = true

def Known.waited {α : Type} (known : Known) : Except String α → Known
  | .ok _ => { known with up := false }
  | .error _ => { known with waitFailed := true }

def Known.spawned (known : Known) : Except String Unit → Known
  | .ok () => { known with up := true }
  | .error _ => known

def Known.onSupervisor (known : Known) : (call : Supervisor.SupervisorCall) → call.Reply → Known
  | .childId, id => { known with noId := known.noId || id.isNone }
  | .select, .exited status => known.waited status
  | .waitMongod, some status => known.waited status
  | .killMongod, killed => known.waited killed
  | .spawnMongod _ _, spawned => known.spawned spawned
  | _, _ => known

/-- What an answered call adds to what is known. -/
def Known.learn (known : Known) : (call : MainCall) → call.Reply → Known
  | .volumeLock .openLockFile, false => { known with lock := some .failedOpen }
  | .volumeLock .lockExclusive, true => { known with lock := some .held }
  | .sendOnce event, _ => { known with sent := known.sent ++ [event] }
  | .spawnRecovery _ _, spawned => known.spawned spawned
  | .spawnMongod _ _, spawned => known.spawned spawned
  | .recoveryEnds, ended => if ended.run.sawExit then { known with up := false } else known
  | .supervisor call, reply => known.onSupervisor call reply
  | _, _ => known

/-- The calls that start a mongod. -/
def MainCall.spawns : MainCall → Bool
  | .spawnRecovery _ _ | .spawnMongod _ _ | .supervisor (.spawnMongod _ _) => true
  | _ => false

def MainCall.isLock : MainCall → Bool
  | .volumeLock _ => true
  | _ => false

/-- The calls that keep to one mongod on a volume: none before the lock is settled, and none that spawns
    beside another. -/
def Known.Allows (known : Known) (call : MainCall) : Prop :=
  (call.beforeLock = true ∨ known.Cleared) ∧ (call.isLock = true → known.lock = none) ∧
    (call.spawns = true → known.Gone)

/-- The monitor of a container on its host. -/
def hostMonitor : Monitor MainCall.Reply Known where
  learn := Known.learn
  allows := Known.Allows

/-- What is known when the process stops by itself. -/
def Leaves (known : Known) : Halt → Prop
  | .error _ => True
  | .exit code =>
      known.Gone ∨ code = recoveryFailExitCode ∧ ∃ text, recoveryFailed text ∈ known.sent
  | .pinWrite _ => known.Gone
  | .panicked _ => known.Gone
  | .unfinished => True

theorem leaves_of_gone {known : Known} (gone : known.Gone) (halt : Halt) : Leaves known halt := by
  cases halt with
  | error text => trivial
  | exit code => exact Or.inl gone
  | pinWrite failure => exact gone
  | panicked text => exact gone
  | unfinished => trivial

@[simp] theorem hostMonitor_learn (known : Known) (call : MainCall) (reply : call.Reply) :
    hostMonitor.learn known call reply = known.learn call reply := rfl

@[simp] theorem hostMonitor_allows (known : Known) (call : MainCall) :
    hostMonitor.allows known call ↔ known.Allows call := Iff.rfl

/-! ### The components -/

section Components

variable {known : Known} {α : Type}

/-- The monitor of the supervisor's own calls. -/
def supervisorPart : Monitor Supervisor.SupervisorCall.Reply Known where
  learn known call reply := hostMonitor.learn known (.supervisor call) reply
  allows known call := hostMonitor.allows known (.supervisor call)

@[simp] theorem supervisorPart_learn (call : Supervisor.SupervisorCall) (reply : call.Reply) :
    supervisorPart.learn known call reply = known.onSupervisor call reply := rfl

@[simp] theorem supervisorPart_allows (call : Supervisor.SupervisorCall) :
    supervisorPart.allows known call ↔
      known.Cleared ∧ ((MainCall.supervisor call).spawns = true → known.Gone) := by
  simp [supervisorPart, Known.Allows, MainCall.beforeLock, MainCall.isLock]

/-- A call that starts no mongod asks for nothing to be gone. -/
theorem gone_of_spawns {call : MainCall} (quiet : call.spawns = false) (spawns : call.spawns = true) :
    known.Gone := by
  simp [quiet] at spawns

def lockPart : Monitor VolumeLockCall.Reply Known where
  learn known call reply := hostMonitor.learn known (.volumeLock call) reply
  allows known call := hostMonitor.allows known (.volumeLock call)

theorem meets_onSupervisor {ends : Known → Except Halt α → Prop} {task : Supervisor.Task α}
    (meets : supervisorPart.Meets ends known task) :
    hostMonitor.Meets ends known (onSupervisor task) := by
  refine meets.translate ?_ (fun _ _ => id) fun _ _ => id
  intro known call allowed
  exact ⟨allowed, fun reply => ⟨reply, rfl, rfl⟩⟩

theorem meets_onVolumeLock {ends : Known → Except Halt α → Prop} {task : LockTask α}
    (meets : lockPart.Meets ends known task) :
    hostMonitor.Meets ends known (onVolumeLock task) := by
  refine meets.translate ?_ (fun _ _ => id) fun _ _ => id
  intro known call allowed
  exact ⟨allowed, fun reply => ⟨reply, rfl, rfl⟩⟩

/-- The calls of the node teach nothing. -/
theorem meets_onNode {φ : Type} {fails : φ → Halt} {ends : Known → Except Halt α → Prop}
    (task : Credentials.Task φ α) (cleared : known.Cleared) (ended : ∀ value, ends known (.ok value))
    (failed : ∀ error, ends known (.error (fails error))) :
    hostMonitor.Meets ends known (onNode fails task) := by
  induction task with
  | done value => exact ended value
  | fail error => exact failed error
  | perform effect next ih => exact ⟨⟨Or.inr cleared, nofun, nofun⟩, ih⟩

theorem supervisorPart_onNode {φ : Type} {fails : φ → Halt} {ends : Known → Except Halt α → Prop}
    (task : Credentials.Task φ α) (cleared : known.Cleared) (ended : ∀ value, ends known (.ok value))
    (failed : ∀ error, ends known (.error (fails error))) :
    supervisorPart.Meets ends known (Supervisor.onNode fails task) := by
  induction task with
  | done value => exact ended value
  | fail error => exact failed error
  | perform effect next ih => exact ⟨(supervisorPart_allows _).2 ⟨cleared, gone_of_spawns rfl⟩, ih⟩

end Components

/-! ### The supervisor -/

section Supervisor

variable {known : Known} {demote : Bool} {flags args : List String}

@[simp] theorem cleared_waited {α : Type} (status : Except String α) :
    (known.waited status).Cleared ↔ known.Cleared := by
  cases status <;> exact Iff.rfl

@[simp] theorem cleared_spawned (spawned : Except String Unit) :
    (known.spawned spawned).Cleared ↔ known.Cleared := by
  cases spawned <;> exact Iff.rfl

@[simp] theorem cleared_noId (noId : Bool) :
    ({ known with noId := noId } : Known).Cleared ↔ known.Cleared := Iff.rfl

@[simp] theorem noId_spawned (spawned : Except String Unit) :
    (known.spawned spawned).noId = known.noId := by
  cases spawned <;> rfl

theorem gone_waited {α : Type} (status : Except String α) : (known.waited status).Gone := by
  cases status with
  | ok value => exact Or.inl rfl
  | error text => exact Or.inr (Or.inl rfl)

@[simp] theorem supervisorPart_orHalt {result : Except String Unit} {post : Known → Unit → Prop} :
    supervisorPart.Meets (ending post Leaves) known (Supervisor.orHalt result) ↔
      (result = .ok () → post known ()) := by
  cases result with
  | ok _ => simp [Supervisor.orHalt]
  | error text => simp [Supervisor.orHalt, Leaves]

/-- What the supervisor keeps: the volume lock, and the id of its child. -/
def Known.Supervises (known : Known) (pid : Option Int) : Prop :=
  known.Cleared ∧ (pid = none → known.noId = true)

/-- After the graceful shutdown the child is gone. -/
theorem gracefulShutdown_meets {pid : Option Int} (supervises : known.Supervises pid) :
    supervisorPart.Meets (ending (fun known _ => known.Supervises pid ∧ known.Gone) Leaves) known
      (Supervisor.gracefulShutdown pid) := by
  obtain ⟨cleared, named⟩ := supervises
  cases pid with
  | none => exact ⟨⟨cleared, named⟩, Or.inr (Or.inr (named rfl))⟩
  | some pid =>
      have allowed : ∀ {known : Known} {call : Supervisor.SupervisorCall}, known.Cleared →
          (MainCall.supervisor call).spawns = false → supervisorPart.allows known call :=
        fun cleared quiet => (supervisorPart_allows _).2 ⟨cleared, gone_of_spawns quiet⟩
      refine ⟨allowed cleared rfl, fun _ => ⟨allowed cleared rfl, fun waited => ?_⟩⟩
      cases waited with
      | some status =>
          exact ⟨⟨(cleared_waited status).2 cleared, by simp⟩, gone_waited status⟩
      | none =>
          refine ⟨allowed cleared rfl, fun killed => ?_⟩
          exact ⟨⟨(cleared_waited killed).2 cleared, by simp⟩, gone_waited killed⟩

theorem restartOn_meets {target : String} {pid : Option Int} (supervises : known.Supervises pid) :
    supervisorPart.Meets (ending (fun known pid => known.Supervises pid) Leaves) known
      (Supervisor.restartOn flags args target pid) := by
  simp only [Supervisor.restartOn, Supervisor.perform, Program.call, Program.bind_eq,
    Program.perform_bind, Program.done_bind, meets_perform, supervisorPart_learn,
    supervisorPart_allows, meets_before, supervisorPart_orHalt]
  refine ⟨⟨supervises.1, gone_of_spawns rfl⟩, fun written _ => ?_⟩
  refine (gracefulShutdown_meets supervises).imp fun known outcome stopped => ?_
  cases outcome with
  | error halt => exact stopped
  | ok _ =>
      obtain ⟨⟨cleared, -⟩, gone⟩ := stopped
      refine ⟨⟨cleared, fun _ => gone⟩, fun spawned _ => ?_⟩
      have again : (known.onSupervisor (.spawnMongod flags args) spawned).Cleared :=
        (cleared_spawned spawned).2 cleared
      refine ⟨⟨again, gone_of_spawns rfl⟩, fun id => ⟨⟨again, gone_of_spawns rfl⟩, fun _ => ⟨again, ?_⟩⟩⟩
      rintro rfl
      simp [Known.onSupervisor]

theorem restart_meets {pid : Option Int} (supervises : known.Supervises pid) :
    supervisorPart.Meets (ending (fun known pid => known.Supervises pid) Leaves) known
      (Supervisor.restart demote flags args pid) := by
  have cleared := supervises.1
  simp only [Supervisor.restart, Supervisor.perform, Program.call, Program.bind_eq,
    Program.perform_bind, Program.done_bind, meets_perform, supervisorPart_learn,
    supervisorPart_allows]
  refine ⟨⟨cleared, gone_of_spawns rfl⟩, fun pin => ?_⟩
  cases pin.bind AuthPin.keyfile with
  | none => exact supervises
  | some target =>
      refine ⟨(supervisorPart_allows _).2 ⟨cleared, gone_of_spawns rfl⟩, fun loaded => ?_⟩
      simp only [meets_branch]
      refine ⟨fun _ => supervises, fun _ => ⟨fun _ => supervises, fun _ => ?_⟩⟩
      refine meets_before.2 (supervisorPart_onNode _ cleared ?_ fun error => error.elim)
      intro handed
      cases handed with
      | error refused => exact supervises
      | ok _ => exact restartOn_meets supervises

theorem stop_meets {pid : Option Int} (supervises : known.Supervises pid) :
    supervisorPart.Meets (ending (fun _ _ => False) Leaves) known (Supervisor.stop demote pid) := by
  have stops : supervisorPart.Meets (ending (fun _ (_ : Empty) => False) Leaves) known
      ((Supervisor.gracefulShutdown pid).bind fun _ => .fail (.exit 0)) :=
    (gracefulShutdown_meets supervises).before fun known _ stopped =>
      leaves_of_gone stopped.2 (.exit 0)
  unfold Supervisor.stop
  cases demote with
  | false => exact stops
  | true =>
      refine meets_before.2 ?_
      unfold Supervisor.demoteIfPrimary
      exact meets_before.2 (supervisorPart_onNode _ supervises.1 (fun _ => stops) fun error => error.elim)

theorem superviseLoop_meets {rounds : Nat} {pid : Option Int} (supervises : known.Supervises pid) :
    supervisorPart.Meets (ending (fun _ _ => False) Leaves) known
      (Supervisor.superviseLoop demote flags args rounds pid) := by
  induction rounds generalizing known pid with
  | zero => trivial
  | succ rounds ih =>
      refine ⟨(supervisorPart_allows _).2 ⟨supervises.1, gone_of_spawns rfl⟩, fun event => ?_⟩
      cases event with
      | restartNotified => exact (restart_meets supervises).before fun known pid again => ih again
      | exited status =>
          exact leaves_of_gone (gone_waited status) (.exit (Supervisor.exitCode status))
      | sigterm => exact stop_meets supervises
      | sigint => exact stop_meets supervises

/-- The supervisor spawns no mongod beside one that may be up. -/
theorem supervise_meets {rounds : Nat} (cleared : known.Cleared) :
    supervisorPart.Meets (ending (fun _ _ => False) Leaves) known
      (Supervisor.supervise demote flags args rounds) := by
  simp only [Supervisor.supervise, Supervisor.perform, Program.call, Program.bind_eq,
    Program.perform_bind, Program.done_bind, meets_perform, supervisorPart_learn,
    supervisorPart_allows, meets_before, supervisorPart_orHalt]
  refine ⟨⟨cleared, gone_of_spawns rfl⟩, fun registered _ => ⟨⟨cleared, gone_of_spawns rfl⟩, fun id => ?_⟩⟩
  refine superviseLoop_meets ⟨cleared, ?_⟩
  rintro rfl
  simp [Known.onSupervisor]

end Supervisor

/-! ### The boot -/

section Boot

variable {known : Known} {deriveKeyfileContent : String → String} {config : Config}
  {args : List String}

/-- The lock is held, or its file could not be opened; nothing else was learned. -/
def Known.Locked (before : Known) (known : Known) (outcome : VolumeLockOutcome) : Prop :=
  known = { before with lock := some outcome }

theorem pollLock_meets {waitSecs polls : Nat} {deadline : Instant} (unlocked : known.lock = none) :
    lockPart.Meets (ending known.Locked Leaves) known (pollLock waitSecs deadline polls) := by
  have allowed : ∀ call : VolumeLockCall, lockPart.allows known call :=
    fun _ => ⟨Or.inl rfl, fun _ => unlocked, nofun⟩
  induction polls with
  | zero => trivial
  | succ polls ih =>
      refine ⟨allowed _, fun locked => ?_⟩
      cases locked with
      | true => exact rfl
      | false =>
          refine ⟨allowed _, fun now => ?_⟩
          change lockPart.Meets _ known (if _ then _ else _)
          rw [meets_branch]
          exact ⟨fun _ => trivial, fun _ => ⟨allowed _, fun _ => ih⟩⟩

theorem instantAdd_meets {instant : Instant} {duration : Duration} {post : Known → Instant → Prop}
    (gone : known.Gone) (added : ∀ deadline, post known deadline) :
    lockPart.Meets (ending post Leaves) known (instantAdd instant duration) := by
  unfold instantAdd
  split
  · exact added _
  · exact gone

/-- The wait asks for the lock until it holds it. -/
theorem acquire_meets {polls waitSecs : Nat} (unlocked : known.lock = none) (gone : known.Gone) :
    lockPart.Meets (ending known.Locked Leaves) known (acquireWithWait polls waitSecs) := by
  have allowed : ∀ call : VolumeLockCall, lockPart.allows known call :=
    fun _ => ⟨Or.inl rfl, fun _ => unlocked, nofun⟩
  simp only [acquireWithWait, lockCall, Program.call, Program.bind_eq, Program.perform_bind,
    Program.done_bind, meets_perform]
  refine ⟨allowed _, fun opened => ?_⟩
  cases opened with
  | false => exact rfl
  | true =>
      simp only [if_true, meets_perform, meets_before]
      exact ⟨allowed _, fun now => instantAdd_meets gone fun deadline => pollLock_meets unlocked⟩

/-- The container may work on the volume, and has no mongod. -/
def Known.Ready (known : Known) : Prop := known.Cleared ∧ known.up = false

theorem Known.Ready.allows (ready : known.Ready) {call : MainCall} (other : call.isLock = false) :
    hostMonitor.allows known call :=
  ⟨Or.inr ready.1, by simp [other], fun _ => Or.inl ready.2⟩

theorem Known.Ready.leaves (ready : known.Ready) (halt : Halt) : Leaves known halt :=
  leaves_of_gone (Or.inl ready.2) halt

theorem waitForLocalAddress_meets {host : String} {rounds : Nat} (ready : known.Ready) :
    hostMonitor.Meets (ending (fun known _ => known.Ready) Leaves) known
      (waitForLocalAddress host rounds) := by
  refine meets_of_uses (waitForLocalAddress_uses host rounds) ?_ ?_
  · intro call lookup
    cases call <;> first | exact lookup.elim | exact ⟨ready.allows rfl, fun _ => rfl⟩
  · intro outcome
    cases outcome with
    | ok _ => exact ready
    | error halt => exact ready.leaves halt

/-- A failed recovery boot is reported before the node stops. -/
theorem recoveryFailed_meets {text : String} {post : Known → Unit → Prop} :
    hostMonitor.Meets (ending post Leaves) known
      (.perform (.sendOnce (recoveryFailed text)) fun _ => .fail (.exit recoveryFailExitCode)) :=
  ⟨⟨Or.inl rfl, nofun, nofun⟩, fun _ => Or.inr ⟨rfl, text, by simp [Known.learn]⟩⟩

/-- The oplog is replayed by a mongod that is gone. -/
theorem replayFirst_meets (ready : known.Ready) :
    hostMonitor.Meets (ending (fun known _ => known.Ready) Leaves) known (replayFirst config args) := by
  simp only [replayFirst, recoveryBoot, perform, Program.call, Program.bind_eq, Program.perform_bind,
    Program.done_bind, meets_perform]
  refine ⟨ready.allows rfl, fun spawned => ?_⟩
  cases spawned with
  | error cause => exact recoveryFailed_meets
  | ok _ =>
      have cleared : (known.spawned (.ok ())).Cleared := (cleared_spawned _).2 ready.1
      refine ⟨⟨Or.inr cleared, fun locks => ?_, fun spawns => ?_⟩, fun ended => ?_⟩
      · cases locks
      · cases spawns
      simp only [Program.pure_eq, Program.done_bind]
      cases found : ended.verdict with
      | error text => exact recoveryFailed_meets
      | ok replay =>
          have gone : ended.run.sawExit = true := replay_sawExit (ended.ended.trans (by rw [found]))
          have again : ((known.spawned (.ok ())).learn .recoveryEnds ended).Ready := by
            simp only [Known.learn, gone, if_true]
            exact ⟨cleared, rfl⟩
          exact ⟨again.allows rfl, fun _ => again⟩

theorem bootMember_meets {hasData : Bool} (ready : known.Ready) :
    hostMonitor.Meets (ending (fun known _ => known.Ready) Leaves) known
      (bootMember deriveKeyfileContent config hasData) := by
  refine meets_before.2 (meets_onNode _ ready.1 ?_ fun error => ready.leaves (haltOf error))
  intro credentials
  exact ⟨ready.allows rfl, fun _ => ⟨ready.allows rfl, fun _ => ⟨ready.allows rfl, fun _ => ready⟩⟩⟩

theorem bootStandalone_meets {hasData : Bool} (ready : known.Ready) :
    hostMonitor.Meets (ending (fun known _ => known.Ready) Leaves) known
      (bootStandalone deriveKeyfileContent config args hasData) := by
  have tasks : ∀ (known : Known) (credentials : BootCredentials), known.Ready →
      hostMonitor.Meets (ending (fun known _ => known.Ready) Leaves) known
        (do perform (.startTask (.healthServer true none hasData config.healthApiCredential))
            perform (.startTask .standaloneDuties)
            pure credentials) :=
    fun known _ ready => ⟨ready.allows rfl, fun _ => ⟨ready.allows rfl, fun _ => ready⟩⟩
  simp only [bootStandalone, perform, Program.call, Program.bind_eq, Program.perform_bind,
    Program.done_bind, meets_perform]
  refine ⟨ready.allows rfl, fun pin => ⟨ready.allows rfl, fun marker => ?_⟩⟩
  split
  · exact ⟨ready.allows rfl, fun _ => tasks _ _ ready⟩
  · split
    · exact (replayFirst_meets ready).before fun known _ ready => tasks known _ ready
    · exact tasks _ _ ready

/-- From the background tasks of both modes on. -/
theorem spawn_meets {watch : Watch} {hasData : Bool} (credentials : BootCredentials)
    (ready : known.Ready) :
    hostMonitor.Meets (ending (fun _ _ => False) Leaves) known
      (do perform (.startTask .fcvReconcile)
          perform (.startTask (.resolver credentials))
          if config.rsEnabled && hasData then waitForLocalAddress config.privateDomain watch.dnsRounds
          (perform (.spawnMongod (mongodFlags config args) args)).bind orHalt
          onSupervisor (Supervisor.supervise config.rsEnabled (mongodFlags config args) args
            watch.supervisorRounds)) := by
  have spawns : ∀ known : Known, known.Ready →
      hostMonitor.Meets (ending (fun _ _ => False) Leaves) known
        (do (perform (.spawnMongod (mongodFlags config args) args)).bind orHalt
            onSupervisor (Supervisor.supervise config.rsEnabled (mongodFlags config args) args
              watch.supervisorRounds)) := by
    intro known ready
    refine ⟨ready.allows rfl, fun spawned => ?_⟩
    cases spawned with
    | error text => trivial
    | ok _ => exact meets_onSupervisor (supervise_meets ready.1)
  refine ⟨ready.allows rfl, fun _ => ⟨ready.allows rfl, fun _ => ?_⟩⟩
  by_cases waits : (config.rsEnabled && hasData) = true
  · simp only [waits, if_true, Program.done_bind]
    exact (waitForLocalAddress_meets ready).before fun known _ ready => spawns known ready
  · simp only [waits, Program.done_bind]
    exact spawns known ready

/-- A boot past the lock keeps to one mongod at a time. -/
theorem bootOnVolume_meets {watch : Watch} (ready : known.Ready) :
    hostMonitor.Meets (ending (fun _ _ => False) Leaves) known
      (bootOnVolume deriveKeyfileContent config args watch) := by
  refine ⟨ready.allows rfl, fun files => ?_⟩
  change hostMonitor.Meets _ known (if config.rsEnabled then _ else _)
  split
  · exact (bootMember_meets ready).before fun _ credentials ready => spawn_meets credentials ready
  · exact (bootStandalone_meets ready).before fun _ credentials ready =>
      spawn_meets credentials ready

theorem bootConfigured_meets {watch : Watch} {env : Environment} :
    hostMonitor.Meets (ending (fun _ _ => False) Leaves) (.fresh config.dataDir)
      (bootConfigured deriveKeyfileContent config args watch env) := by
  refine ⟨⟨Or.inl rfl, nofun, nofun⟩, fun started => ?_⟩
  cases started with
  | error text => trivial
  | ok _ =>
      have locks : hostMonitor.Meets
          (ending (Known.fresh config.dataDir).Locked Leaves) (.fresh config.dataDir)
          (onVolumeLock (acquireVolumeRuntimeLock watch.lockPolls env)) :=
        meets_onVolumeLock (acquire_meets rfl (Or.inl rfl))
      refine locks.before fun known outcome locked => ?_
      cases outcome with
      | held => exact bootOnVolume_meets (locked ▸ ⟨Or.inl rfl, rfl⟩)
      | failedOpen =>
          refine ⟨⟨Or.inl rfl, nofun, nofun⟩, fun _ => bootOnVolume_meets ?_⟩
          rw [locked]
          exact ⟨Or.inr ⟨rfl, List.mem_cons_self ..⟩, rfl⟩

/-- Every container stays within the monitor. -/
theorem main_meets (boot : Boot) :
    hostMonitor.Meets (ending (fun _ _ => False) Leaves) (.fresh (boot.dataDir.getD ""))
      (main deriveKeyfileContent boot.watch boot.env boot.args) := by
  unfold main
  cases loaded : Config.fromEnv boot.env with
  | error text => trivial
  | ok config =>
      have dataDir : boot.dataDir = some (passthroughConfig config boot.args).dataDir := by
        simp [Boot.dataDir, loaded, Except.toOption]
      rw [dataDir]
      exact bootConfigured_meets

end Boot

end MongoHa.Entrypoint
