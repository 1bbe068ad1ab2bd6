/-
Module: MongoHa.Wrapper.CredentialNode
Layer: Wrapper
Purpose: One node in HA mode as its credential tasks see it: the pin and the pending file of its volume,
  the statics of its process and the tasks that run on them. A step is one call of one task, the start or
  the end of a task, or the stop of the process, which may come between any two calls. One request or one
  reconcile attempt runs at a time, under the rotation lock. What mongod and the peers answer is whatever
  the label says; what the node answers itself is what it holds.
Imports: Mathlib.Logic.Function.Basic, Mathlib.Tactic.ByContra, MongoHa.Foundations.Machine,
  MongoHa.Wrapper.Credentials
Trusted boundary: human-reviewed spec
Main exports: Shared, Shared.answers, Shared.after, TaskName, Job, Ending, Node, pinPassword, Label,
  NodeStep, Label.asks, Label.works, Label.pinWrite, Fresh, shared_step, config_step, tasks_cases,
  asks_cases, Node.Staged, staged_step, pin_step, loaded_step, Node.Obeys, follow, obeys_step,
  obeys_fresh, obeys_allows, obeys_ends, Node.At
Open obligations: none
-/
import Mathlib.Logic.Function.Basic
import Mathlib.Tactic.ByContra
import MongoHa.Foundations.Machine
import MongoHa.Wrapper.Credentials

namespace MongoHa.Credentials

open Foundations

/-! ### What the tasks share -/

/-- The files of the volume, `LOADED_KEYFILE`, and whether `RESTART_MONGO` holds a permit. -/
structure Shared where
  pin : PinFile
  pending : Option Rotation
  loaded : Option String
  restart : Bool
deriving Repr, DecidableEq, Inhabited

/-- The replies the node gives by itself. -/
def Shared.answers (s : Shared) : (effect : Effect) → effect.Reply → Prop
  | .readPin, pin => pin = readPin s.pin
  | .readPending, pending => pending = s.pending
  | .loadedKeyfile, loaded => loaded = s.loaded
  | .removePending, removal => removal = .notFound → s.pending = none
  | _, _ => True

/-- Where a write failed, by its result. -/
def failureOf : Except WriteFailure Unit → Option WriteFailure
  | .ok () => none
  | .error failure => some failure

/-- A write replaced the file: it succeeded, or only the sync of the directory failed. -/
def replaced : Except WriteFailure Unit → Bool
  | .ok () => true
  | .error failure => failure == .syncingDirectory

/-- What the tasks share after a call, by its reply. -/
def Shared.after (s : Shared) : (effect : Effect) → effect.Reply → Shared
  | .writePin pin, written => { s with pin := (MongoHa.writePin s.pin pin (failureOf written)).2 }
  | .writePasswordPin password fallbackKey, written =>
      { s with pin := (MongoHa.writePasswordPin s.pin password fallbackKey (failureOf written)).2 }
  | .savePending request, written =>
      if replaced written then { s with pending := some request } else s
  | .removePending, .removed => { s with pending := none }
  | .setLoadedKeyfile keyfile, _ => { s with loaded := some keyfile }
  | .notifyRestart, _ => { s with restart := true }
  | _, _ => s

/-- The statics are the process's. -/
def Shared.stopped (s : Shared) : Shared := { s with loaded := none, restart := false }

theorem writePin_file (file : PinFile) (pin : AuthPin) (written : Except WriteFailure Unit) :
    (MongoHa.writePin file pin (failureOf written)).2 =
      if replaced written then .pin pin else file := by
  cases written with
  | ok _ => rfl
  | error failure => cases failure <;> rfl

/-- A pin write in one of its two forms, with the pin it leaves when it replaces the file. -/
theorem readPin_writePin (file : PinFile) (pin : AuthPin) (written : Except WriteFailure Unit) :
    readPin (MongoHa.writePin file pin (failureOf written)).2 =
      if replaced written then some pin else readPin file := by
  rw [writePin_file]
  split <;> rfl

theorem readPin_writePasswordPin (file : PinFile) (password : String) (fallbackKey : Option String)
    (written : Except WriteFailure Unit) :
    readPin (MongoHa.writePasswordPin file password fallbackKey (failureOf written)).2 =
      if replaced written then
        some { password := password, keyfile := (pinKeyfile file).or fallbackKey }
      else readPin file :=
  readPin_writePin file _ written

/-! ### Tasks -/

/-- The tasks of a process that touch the credentials. -/
inductive TaskName where
  | boot
  /-- The holder of the rotation lock. -/
  | rotation
  | resolver
  | supervisor
deriving Repr, DecidableEq, Inhabited

/-- What the holder of the rotation lock does. -/
inductive Job where
  | answer (supplied : Option String) (request : Rotation)
  | reconcile
deriving Repr, DecidableEq, Inhabited

/-- What a task ends with. -/
inductive Ending where
  | booted (outcome : Except BootError BootCredentials)
  | answered (request : Rotation) (answer : RotateAnswer)
  | reconciled (outcome : Except RotationError Unit)
  | resolved (next : Option Resolver)
  | restarted (outcome : Except String Unit)

abbrev Running := Task Empty Ending

def booting (config : Config) (deriveKeyfileContent : String → String) : Running :=
  (bootHa config deriveKeyfileContent).attempt.bind fun outcome => .done (.booted outcome)

def Job.task (config : Config) (deriveKeyfileContent : String → String) (polls : Nat) : Job → Running
  | .answer supplied request =>
      (rotate config deriveKeyfileContent polls supplied request).bind fun answer =>
        .done (.answered request answer)
  | .reconcile =>
      (reconcileAttempt config deriveKeyfileContent polls).attempt.bind fun outcome =>
        .done (.reconciled outcome)

def resolving (boot : BootCredentials) (envPassword : String) (resolver : Resolver) : Running :=
  (resolverTask boot envPassword resolver).bind fun next => .done (.resolved next)

def restarting : Running :=
  superviseRestart.attempt.bind fun outcome => .done (.restarted outcome)

/-! ### The node -/

/-- The process is down, in its boot, or past it. -/
inductive Stage where
  | down
  | booting
  | up
deriving Repr, DecidableEq, Inhabited

/-- One node: what its tasks share, its stage, and the task under each name. -/
structure Node where
  shared : Shared
  stage : Stage
  /-- The configuration and the credentials the process booted with. -/
  config : Config
  credentials : BootCredentials
  tasks : TaskName → Option Running

/-- The password the pin holds. -/
def pinPassword (node : Node) : Option String :=
  (readPin node.shared.pin).map AuthPin.password

/-- A task takes the place of another one, or of none. -/
def Node.setTask (node : Node) (name : TaskName) (task : Option Running) : Node :=
  { node with tasks := Function.update node.tasks name task }

def Node.stopped (node : Node) : Node :=
  { node with shared := node.shared.stopped, stage := .down, tasks := fun _ => none }

/-- What happens on a node: a boot, a call of one of its tasks with the reply, the end of one, or a stop.
    -/
inductive Label where
  | boots (config : Config)
  | starts (job : Job) (polls : Nat)
  | notified
  | performs (name : TaskName) (effect : Effect) (reply : effect.Reply)
  | ends (name : TaskName) (ending : Ending)
  /-- The timeout around `apply`, or around an attempt of the reconcile loop. -/
  | expires
  | stops

/-- What a task leaves when it ends: a boot starts the resolver, the resolver its next iteration, and the
    process exits with a boot or a supervisor that fails. -/
def Node.finish (node : Node) : TaskName → Ending → Node
  | .boot, .booted (.ok credentials) =>
      { (node.setTask .boot none).setTask .resolver
          (some (resolving credentials node.config.mongoRootPassword (.start credentials))) with
        stage := .up
        credentials := credentials }
  | .boot, .booted (.error _) => node.stopped
  | .resolver, .resolved (some resolver) =>
      node.setTask .resolver
        (some (resolving node.credentials node.config.mongoRootPassword resolver))
  | .supervisor, .restarted (.error _) => node.stopped
  | name, _ => node.setTask name none

/-- One step of a node. Each task makes its calls in its own order, and the calls of all of them
    interleave. -/
inductive NodeStep (deriveKeyfileContent : String → String) : Node → Label → Node → Prop where
  | boots {node : Node} {config : Config} (down : node.stage = .down) :
      NodeStep deriveKeyfileContent node (.boots config)
        { node.stopped.setTask .boot (some (booting config deriveKeyfileContent)) with
          stage := .booting
          config := config }
  | starts {node : Node} {job : Job} {polls : Nat} (up : node.stage = .up)
      (free : node.tasks .rotation = none) :
      NodeStep deriveKeyfileContent node (.starts job polls)
        (node.setTask .rotation (some (job.task node.config deriveKeyfileContent polls)))
  | notified {node : Node} (up : node.stage = .up) (permit : node.shared.restart = true)
      (waiting : node.tasks .supervisor = none) :
      NodeStep deriveKeyfileContent node .notified
        { node.setTask .supervisor (some restarting) with
          shared := { node.shared with restart := false } }
  | performs {node : Node} {name : TaskName} {effect : Effect} {next : effect.Reply → Running}
      {reply : effect.Reply} (running : node.tasks name = some (.perform effect next))
      (answered : node.shared.answers effect reply) :
      NodeStep deriveKeyfileContent node (.performs name effect reply)
        { node.setTask name (some (next reply)) with shared := node.shared.after effect reply }
  | ends {node : Node} {name : TaskName} {ending : Ending}
      (ended : node.tasks name = some (.done ending)) :
      NodeStep deriveKeyfileContent node (.ends name ending) (node.finish name ending)
  | expires {node : Node} :
      NodeStep deriveKeyfileContent node .expires (node.setTask .rotation none)
  | stops {node : Node} : NodeStep deriveKeyfileContent node .stops node.stopped

/-- The request of a job; the reconcile loop reads its own from the volume. -/
def Job.asked : Job → Option Rotation
  | .answer _ request => some request
  | .reconcile => none

/-- The request that the holder of the rotation lock works on, or worked on last. -/
def Label.asks (asked : Option Rotation) : Label → Option Rotation
  | .starts job _ => job.asked
  | _ => asked

/-- The password that a task's probe found to work, and which task. -/
def Label.works : Label → Option (TaskName × String)
  | .performs name (.probeLocalPassword password) probe =>
      if probe = .works then some (name, password) else none
  | _ => none

/-- The password that a task writes to the pin, and which task. -/
def Label.pinWrite : Label → Option (TaskName × String)
  | .performs name (.writePin pin) _ => some (name, pin.password)
  | .performs name (.writePasswordPin password _) _ => some (name, password)
  | _ => none

theorem works_cases {label : Label} {name : TaskName} {password : String}
    (works : label.works = some (name, password)) :
    label = .performs name (.probeLocalPassword password) .works := by
  unfold Label.works at works
  split at works
  · split at works
    · rename_i answered
      cases works
      rw [answered]
    · cases works
  · cases works

/-! ### What a step can do -/

@[simp] theorem setTask_shared (node : Node) (name : TaskName) (task : Option Running) :
    (node.setTask name task).shared = node.shared := rfl

@[simp] theorem setTask_self (node : Node) (name : TaskName) (task : Option Running) :
    (node.setTask name task).tasks name = task :=
  Function.update_self ..

theorem setTask_of_ne (node : Node) {name other : TaskName} (task : Option Running)
    (different : other ≠ name) : (node.setTask name task).tasks other = node.tasks other :=
  Function.update_of_ne different ..

/-- What a step leaves of the shared state, by its label. -/
def Label.onShared (s : Shared) : Label → Shared
  | .boots _ => s.stopped
  | .notified => { s with restart := false }
  | .performs _ effect reply => s.after effect reply
  | .ends .boot (.booted (.error _)) => s.stopped
  | .ends .supervisor (.restarted (.error _)) => s.stopped
  | .stops => s.stopped
  | _ => s

variable {deriveKeyfileContent : String → String} {node next : Node} {label : Label}

/-- The ways a task can end. -/
theorem finish_cases (node : Node) (name : TaskName) (ending : Ending) :
    (∃ credentials, name = .boot ∧ ending = .booted (.ok credentials)) ∨
    (node.finish name ending = node.stopped ∧
      (Label.ends name ending).onShared node.shared = node.shared.stopped) ∨
    (∃ resolver, name = .resolver ∧ ending = .resolved (some resolver)) ∨
    (node.finish name ending = node.setTask name none ∧
      (Label.ends name ending).onShared node.shared = node.shared) := by
  cases ending with
  | booted outcome =>
      cases name with
      | boot =>
          cases outcome with
          | ok credentials => exact Or.inl ⟨credentials, rfl, rfl⟩
          | error error => exact Or.inr (Or.inl ⟨rfl, rfl⟩)
      | _ => exact Or.inr (Or.inr (Or.inr ⟨rfl, rfl⟩))
  | answered request answer => cases name <;> exact Or.inr (Or.inr (Or.inr ⟨rfl, rfl⟩))
  | reconciled outcome => cases name <;> exact Or.inr (Or.inr (Or.inr ⟨rfl, rfl⟩))
  | resolved next =>
      cases name with
      | resolver =>
          cases next with
          | some resolver => exact Or.inr (Or.inr (Or.inl ⟨resolver, rfl, rfl⟩))
          | none => exact Or.inr (Or.inr (Or.inr ⟨rfl, rfl⟩))
      | _ => exact Or.inr (Or.inr (Or.inr ⟨rfl, rfl⟩))
  | restarted outcome =>
      cases name with
      | supervisor =>
          cases outcome with
          | ok _ => exact Or.inr (Or.inr (Or.inr ⟨rfl, rfl⟩))
          | error text => exact Or.inr (Or.inl ⟨rfl, rfl⟩)
      | _ => exact Or.inr (Or.inr (Or.inr ⟨rfl, rfl⟩))

/-- What the tasks share changes by the label alone. -/
theorem shared_step (step : NodeStep deriveKeyfileContent node label next) :
    next.shared = label.onShared node.shared := by
  cases step with
  | @ends name ending ended =>
      rcases finish_cases node name ending with
        ⟨credentials, rfl, rfl⟩ | ⟨stopped, shared⟩ | ⟨resolver, rfl, rfl⟩ | ⟨removed, shared⟩
      · rfl
      · rw [stopped, shared]
        rfl
      · rfl
      · rw [removed, shared]
        rfl
  | _ => rfl

theorem ends_running {name : TaskName} {ending : Ending}
    (step : NodeStep deriveKeyfileContent node (.ends name ending) next) :
    node.tasks name = some (.done ending) := by
  cases step with
  | ends ended => exact ended

/-- The configuration a boot brings. -/
def Label.newConfig : Label → Option Config
  | .boots config => some config
  | _ => none

theorem newConfig_none {label : Label} (other : label.newConfig = none) (config : Config) :
    label ≠ .boots config := by
  rintro rfl
  cases other

/-- Only a boot brings another configuration. -/
theorem config_step (step : NodeStep deriveKeyfileContent node label next) :
    (∃ config, label = .boots config ∧ next.config = config) ∨
      ((∀ config, label ≠ .boots config) ∧ next.config = node.config) := by
  cases step with
  | @boots config down => exact Or.inl ⟨config, rfl, rfl⟩
  | @ends name ending ended =>
      right
      rcases finish_cases node name ending with
        ⟨credentials, rfl, rfl⟩ | ⟨stopped, -⟩ | ⟨resolver, rfl, rfl⟩ | ⟨removed, -⟩
      · exact ⟨newConfig_none rfl, rfl⟩
      · rw [stopped]
        exact ⟨newConfig_none rfl, rfl⟩
      · exact ⟨newConfig_none rfl, rfl⟩
      · rw [removed]
        exact ⟨newConfig_none rfl, rfl⟩
  | _ => exact Or.inr ⟨newConfig_none rfl, rfl⟩

/-- A task as it starts. -/
inductive Fresh (deriveKeyfileContent : String → String) (next : Node) :
    Label → TaskName → Running → Prop where
  | boot {config : Config} :
      Fresh deriveKeyfileContent next (.boots config) .boot (booting config deriveKeyfileContent)
  | rotation {job : Job} {polls : Nat} :
      Fresh deriveKeyfileContent next (.starts job polls) .rotation
        (job.task next.config deriveKeyfileContent polls)
  | resolver {name : TaskName} {ending : Ending} {resolver : Resolver} :
      Fresh deriveKeyfileContent next (.ends name ending) .resolver
        (resolving next.credentials next.config.mongoRootPassword resolver)
  | supervisor : Fresh deriveKeyfileContent next .notified .supervisor restarting

theorem setTask_cases {node : Node} {name other : TaskName} {task : Option Running} {found : Running}
    (has : (node.setTask name task).tasks other = some found) :
    (other = name ∧ task = some found) ∨ (other ≠ name ∧ node.tasks other = some found) := by
  by_cases same : other = name
  · subst same
    rw [setTask_self] at has
    exact Or.inl ⟨rfl, has⟩
  · rw [setTask_of_ne _ _ same] at has
    exact Or.inr ⟨same, has⟩

/-- The task that calls, on a step that is a call. -/
def Label.caller : Label → Option TaskName
  | .performs name _ _ => some name
  | _ => none

theorem caller_none {label : Label} {name : TaskName} (silent : label.caller = none)
    (effect : Effect) (reply : effect.Reply) : label ≠ .performs name effect reply := by
  rintro rfl
  cases silent

/-- A task after a step is the one before it, what a call of it went on with, or one that starts. -/
theorem tasks_cases (step : NodeStep deriveKeyfileContent node label next) {name : TaskName}
    {task : Running} (has : next.tasks name = some task) :
    (node.tasks name = some task ∧ ∀ effect reply, label ≠ .performs name effect reply) ∨
    (∃ effect reply rest, label = .performs name effect reply ∧
      node.tasks name = some (.perform effect rest) ∧ task = rest reply) ∨
    Fresh deriveKeyfileContent next label name task := by
  cases step with
  | boots down =>
      rcases setTask_cases has with ⟨rfl, started⟩ | ⟨_, kept⟩
      · cases started
        exact Or.inr (Or.inr .boot)
      · cases kept
  | starts up free =>
      rcases setTask_cases has with ⟨rfl, started⟩ | ⟨_, kept⟩
      · cases started
        exact Or.inr (Or.inr .rotation)
      · exact Or.inl ⟨kept, caller_none rfl⟩
  | notified up permit waiting =>
      rcases setTask_cases has with ⟨rfl, started⟩ | ⟨_, kept⟩
      · cases started
        exact Or.inr (Or.inr .supervisor)
      · exact Or.inl ⟨kept, caller_none rfl⟩
  | @performs called effect rest reply running answered =>
      rcases setTask_cases has with ⟨rfl, went⟩ | ⟨other, kept⟩
      · cases went
        exact Or.inr (Or.inl ⟨effect, reply, rest, rfl, running, rfl⟩)
      · refine Or.inl ⟨kept, ?_⟩
        rintro _ _ ⟨⟩
        exact other rfl
  | @ends ended ending done =>
      rcases finish_cases node ended ending with
        ⟨credentials, rfl, rfl⟩ | ⟨stopped, -⟩ | ⟨resolver, rfl, rfl⟩ | ⟨removed, -⟩
      · rcases setTask_cases has with ⟨rfl, started⟩ | ⟨_, kept⟩
        · cases started
          exact Or.inr (Or.inr .resolver)
        · rcases setTask_cases kept with ⟨_, none_⟩ | ⟨_, kept⟩
          · cases none_
          · exact Or.inl ⟨kept, caller_none rfl⟩
      · rw [stopped] at has
        cases has
      · rcases setTask_cases has with ⟨rfl, started⟩ | ⟨_, kept⟩
        · cases started
          exact Or.inr (Or.inr .resolver)
        · exact Or.inl ⟨kept, caller_none rfl⟩
      · rw [removed] at has
        rcases setTask_cases has with ⟨_, none_⟩ | ⟨_, kept⟩
        · cases none_
        · exact Or.inl ⟨kept, caller_none rfl⟩
  | expires =>
      rcases setTask_cases has with ⟨_, none_⟩ | ⟨_, kept⟩
      · cases none_
      · exact Or.inl ⟨kept, caller_none rfl⟩
  | stops => cases has

/-- The request under the rotation lock after a step is one that starts, or was there before. -/
theorem asks_cases (step : NodeStep deriveKeyfileContent node label next) {asked : Option Rotation}
    {request : Rotation} (asks : label.asks asked = some request)
    (running : next.tasks .rotation ≠ none) :
    (∃ supplied polls, label = .starts (.answer supplied request) polls) ∨
      (asked = some request ∧ node.tasks .rotation ≠ none) := by
  obtain ⟨task, has⟩ := Option.ne_none_iff_exists'.1 running
  rcases tasks_cases step has with ⟨before, -⟩ | ⟨_, _, _, rfl, before, -⟩ | fresh
  · cases label with
    | starts job polls =>
        cases step with
        | starts up free =>
            rw [free] at before
            cases before
    | _ =>
        right
        rw [before]
        exact ⟨asks, nofun⟩
  · right
    rw [before]
    exact ⟨asks, nofun⟩
  · cases fresh with
    | @rotation job polls =>
        cases job with
        | answer supplied other =>
            obtain rfl := Option.some.inj asks
            exact Or.inl ⟨supplied, polls, rfl⟩
        | reconcile => cases asks

/-- During a boot only its own task runs, the others once the node is up. -/
structure Node.Staged (node : Node) : Prop where
  boot : ∀ task, node.tasks .boot = some task → node.stage = .booting
  others : ∀ name task, name ≠ .boot → node.tasks name = some task → node.stage = .up

theorem staged_stopped (node : Node) : node.stopped.Staged where
  boot _ has := by cases has
  others _ _ _ has := by cases has

/-- Removing a task, or going on with the one that ran. -/
theorem Node.Staged.setTask (staged : node.Staged) (name : TaskName) (task : Option Running)
    (ran : task ≠ none → node.tasks name ≠ none) : (node.setTask name task).Staged := by
  have before : ∀ {other found}, (node.setTask name task).tasks other = some found →
      ∃ found, node.tasks other = some found := by
    intro other found has
    rcases setTask_cases has with ⟨rfl, started⟩ | ⟨_, kept⟩
    · exact Option.ne_none_iff_exists'.1 (ran (by rw [started]; exact nofun))
    · exact ⟨found, kept⟩
  constructor
  · intro found has
    obtain ⟨found, kept⟩ := before has
    exact staged.boot found kept
  · intro other found differs has
    obtain ⟨found, kept⟩ := before has
    exact staged.others other found differs kept

/-- A task that starts on a node that is up. -/
theorem Node.Staged.start (staged : node.Staged) (up : node.stage = .up) (name : TaskName)
    (task : Running) (differs : name ≠ .boot) : (node.setTask name (some task)).Staged := by
  constructor
  · intro found has
    rcases setTask_cases has with ⟨same, _⟩ | ⟨_, kept⟩
    · exact absurd same.symm differs
    · exact staged.boot found kept
  · exact fun _ _ _ _ => up

/-- While a boot goes on, every call is its own. -/
theorem Node.Staged.boots (staged : node.Staged) {task : Running}
    (booting : node.tasks .boot = some task) {name : TaskName} {effect : Effect} {reply : effect.Reply}
    (step : NodeStep deriveKeyfileContent node (.performs name effect reply) next) : name = .boot := by
  by_contra other
  cases step with
  | performs running answered =>
      have up := staged.others name _ other running
      rw [staged.boot task booting] at up
      cases up

/-- Tasks run only in the stages of the process that have them. -/
theorem staged_step (staged : node.Staged) (step : NodeStep deriveKeyfileContent node label next) :
    next.Staged := by
  cases step with
  | boots down =>
      constructor
      · exact fun _ _ => rfl
      · intro other found differs has
        rcases setTask_cases has with ⟨same, _⟩ | ⟨_, kept⟩
        · exact absurd same differs
        · cases kept
  | starts up free => exact staged.start up .rotation _ nofun
  | notified up permit waiting =>
      have started := staged.start up .supervisor restarting nofun
      exact ⟨started.boot, started.others⟩
  | @performs name effect rest reply running answered =>
      have went := staged.setTask name (some (rest reply)) fun _ => by rw [running]; exact nofun
      exact ⟨went.boot, went.others⟩
  | @ends ended ending done =>
      rcases finish_cases node ended ending with
        ⟨credentials, rfl, rfl⟩ | ⟨stopped, -⟩ | ⟨resolver, rfl, rfl⟩ | ⟨removed, -⟩
      · have booted : (node.finish .boot (.booted (.ok credentials))).tasks .boot = none := by
          simp [Node.finish, Node.setTask]
        constructor
        · intro found has
          rw [booted] at has
          cases has
        · exact fun _ _ _ _ => rfl
      · rw [stopped]
        exact staged_stopped node
      · exact staged.start (staged.others .resolver _ nofun done) .resolver _ nofun
      · rw [removed]
        exact staged.setTask ended none fun none_ => absurd rfl none_
  | expires => exact staged.setTask .rotation none fun none_ => absurd rfl none_
  | stops => exact staged_stopped node

/-- Without a call the files stay as they are, and a process that stopped has no keyfile any more. -/
theorem onShared_cases (label : Label) (s : Shared) :
    (∃ name effect reply, label = .performs name effect reply) ∨
    ((label.onShared s).pin = s.pin ∧ (label.onShared s).pending = s.pending ∧
      ((label.onShared s).loaded = s.loaded ∨ (label.onShared s).loaded = none)) := by
  unfold Label.onShared
  split
  · exact Or.inr ⟨rfl, rfl, Or.inr rfl⟩
  · exact Or.inr ⟨rfl, rfl, Or.inl rfl⟩
  · exact Or.inl ⟨_, _, _, rfl⟩
  · exact Or.inr ⟨rfl, rfl, Or.inr rfl⟩
  · exact Or.inr ⟨rfl, rfl, Or.inr rfl⟩
  · exact Or.inr ⟨rfl, rfl, Or.inr rfl⟩
  · exact Or.inr ⟨rfl, rfl, Or.inl rfl⟩

/-- A step leaves the pin as it is, or it is a pin write in one of its two forms that replaced it. -/
theorem pin_step (step : NodeStep deriveKeyfileContent node label next) :
    next.shared.pin = node.shared.pin ∨
    (∃ name pin written, label = .performs name (.writePin pin) written ∧
      replaced written = true ∧ readPin next.shared.pin = some pin) ∨
    (∃ name password fallbackKey written,
      label = .performs name (.writePasswordPin password fallbackKey) written ∧
      replaced written = true ∧ readPin next.shared.pin =
        some { password := password, keyfile := (pinKeyfile node.shared.pin).or fallbackKey }) := by
  rw [shared_step step]
  rcases onShared_cases label node.shared with ⟨name, effect, reply, rfl⟩ | ⟨kept, -, -⟩
  · cases effect with
    | writePin pin =>
        cases done : replaced reply with
        | true =>
            refine Or.inr (Or.inl ⟨name, pin, reply, rfl, done, ?_⟩)
            exact (readPin_writePin _ _ _).trans (if_pos done)
        | false =>
            left
            exact (writePin_file _ _ _).trans (if_neg (by simp [done]))
    | writePasswordPin password fallbackKey =>
        cases done : replaced reply with
        | true =>
            refine Or.inr (Or.inr ⟨name, password, fallbackKey, reply, rfl, done, ?_⟩)
            exact (readPin_writePasswordPin _ _ _ _).trans (if_pos done)
        | false =>
            left
            exact (writePin_file _ _ _).trans (if_neg (by simp [done]))
    | savePending request =>
        left
        simp only [Label.onShared, Shared.after]
        split <;> rfl
    | removePending =>
        left
        cases reply <;> rfl
    | _ => exact Or.inl rfl
  · exact Or.inl kept

/-- A step leaves the loaded keyfile as it is, or the process has none any more, or a task loads one. -/
theorem loaded_step (step : NodeStep deriveKeyfileContent node label next) :
    next.shared.loaded = node.shared.loaded ∨ next.shared.loaded = none ∨
    (∃ name keyfile reply, label = .performs name (.setLoadedKeyfile keyfile) reply ∧
      next.shared.loaded = some keyfile) := by
  rw [shared_step step]
  rcases onShared_cases label node.shared with ⟨name, effect, reply, rfl⟩ | ⟨-, -, kept | unloaded⟩
  · cases effect with
    | setLoadedKeyfile keyfile => exact Or.inr (Or.inr ⟨name, keyfile, reply, rfl, rfl⟩)
    | savePending request =>
        left
        simp only [Label.onShared, Shared.after]
        split <;> rfl
    | removePending =>
        left
        cases reply <;> rfl
    | _ => exact Or.inl rfl
  · exact Or.inl kept
  · exact Or.inr (Or.inl unloaded)

/-! ### Tasks within a monitor -/

section Obeys

variable {κ : Type*} {monitor : Monitor Effect.Reply κ} {ends : κ → Except Empty Ending → Prop}
  {known : κ} {name : TaskName}

/-- The task of this name, if one runs, stays within the monitor from here. -/
def Node.Obeys (node : Node) (name : TaskName) (monitor : Monitor Effect.Reply κ)
    (ends : κ → Except Empty Ending → Prop) (known : κ) : Prop :=
  ∀ task, node.tasks name = some task → monitor.Meets ends known task

/-- What a step teaches about the task of a name. -/
def follow (monitor : Monitor Effect.Reply κ) (name : TaskName) (known : κ) : Label → κ
  | .performs other effect reply => if other = name then monitor.learn known effect reply else known
  | _ => known

/-- A task that meets a monitor goes on meeting it, with what the step told it. -/
theorem obeys_step
    (fresh : ∀ task, Fresh deriveKeyfileContent next label name task → monitor.Meets ends known task)
    (step : NodeStep deriveKeyfileContent node label next) (obeys : node.Obeys name monitor ends known) :
    next.Obeys name monitor ends (follow monitor name known label) := by
  intro task has
  rcases tasks_cases step has with ⟨kept, other⟩ | ⟨effect, reply, rest, rfl, ran, rfl⟩ | starts
  · have unchanged : follow monitor name known label = known := by
      cases label with
      | performs called effect reply =>
          have differs : called ≠ name := by
            rintro rfl
            exact other effect reply rfl
          exact if_neg differs
      | _ => rfl
    rw [unchanged]
    exact obeys task kept
  · rw [follow, if_pos rfl]
    exact (obeys _ ran).2 reply
  · have unchanged : follow monitor name known label = known := by cases starts <;> rfl
    rw [unchanged]
    exact fresh task starts

/-- A task that was not there before starts afresh. -/
theorem obeys_fresh (free : node.tasks name = none)
    (fresh : ∀ task, Fresh deriveKeyfileContent next label name task → monitor.Meets ends known task)
    (step : NodeStep deriveKeyfileContent node label next) : next.Obeys name monitor ends known := by
  intro task has
  rcases tasks_cases step has with ⟨kept, -⟩ | ⟨_, _, _, _, ran, _⟩ | starts
  · rw [free] at kept
    cases kept
  · rw [free] at ran
    cases ran
  · exact fresh task starts

/-- The next call of a task that meets a monitor is allowed. -/
theorem obeys_allows {effect : Effect} {reply : effect.Reply}
    (step : NodeStep deriveKeyfileContent node (.performs name effect reply) next)
    (obeys : node.Obeys name monitor ends known) : monitor.allows known effect := by
  cases step with
  | performs running answered => exact (obeys _ running).1

/-- A task that meets a monitor ends as the monitor says. -/
theorem obeys_ends {ending : Ending}
    (step : NodeStep deriveKeyfileContent node (.ends name ending) next)
    (obeys : node.Obeys name monitor ends known) : ends known (.ok ending) := by
  cases step with
  | ends ended => exact obeys _ ended

end Obeys

/-! ### A node that is up -/

section At

/-- A configuration of the root password `a`. -/
def oldConfig : Config := { (default : Config) with mongoRootPassword := "a", rsKey := some "a" }

/-- A node that is up on the root password `a` and has nothing left to resolve. -/
def restingNode : Node where
  shared :=
    { pin := .pin { password := "a", keyfile := some "key" }
      pending := none
      loaded := some "key"
      restart := false }
  stage := .up
  config := oldConfig
  credentials := { password := "a", keyfile := some "key", envDrifted := true }
  tasks := fun _ => none

/-- A node that is up, with these tasks under way. -/
structure Node.At (node : Node) (tasks : TaskName → Option Running) (shared : Shared) : Prop where
  tasks : node.tasks = tasks
  shared : node.shared = shared
  stage : node.stage = .up
  config : node.config = oldConfig

theorem at_rest : restingNode.At (fun _ => none) restingNode.shared := ⟨rfl, rfl, rfl, rfl⟩

variable {tasks : TaskName → Option Running} {shared : Shared}

theorem Node.At.call (here : node.At tasks shared) (name : TaskName) (effect : Effect)
    {rest : effect.Reply → Running} (reply : effect.Reply)
    (running : tasks name = some (.perform effect rest)) (answered : shared.answers effect reply) :
    ∃ next, NodeStep deriveKeyfileContent node (.performs name effect reply) next ∧
      next.At (Function.update tasks name (some (rest reply))) (shared.after effect reply) := by
  obtain ⟨rfl, rfl, up, configured⟩ := here
  exact ⟨_, .performs running answered, rfl, rfl, up, configured⟩

/-- A request is taken when the rotation lock is free. -/
theorem Node.At.asks (here : node.At tasks shared) (free : tasks .rotation = none) (job : Job)
    (polls : Nat) :
    ∃ next, NodeStep deriveKeyfileContent node (.starts job polls) next ∧
      next.At (Function.update tasks .rotation (some (job.task oldConfig deriveKeyfileContent polls)))
        shared := by
  obtain ⟨rfl, rfl, up, configured⟩ := here
  exact ⟨_, .starts up free, by rw [configured]; rfl, rfl, up, configured⟩

theorem Node.At.notified (here : node.At tasks shared) (waiting : tasks .supervisor = none)
    (permit : shared.restart = true) :
    ∃ next, NodeStep deriveKeyfileContent node .notified next ∧
      next.At (Function.update tasks .supervisor (some restarting)) { shared with restart := false } := by
  obtain ⟨rfl, rfl, up, configured⟩ := here
  exact ⟨_, .notified up permit waiting, rfl, rfl, up, configured⟩

theorem Node.At.ends (here : node.At tasks shared) {ending : Ending}
    (ended : tasks .rotation = some (.done ending)) :
    ∃ next, NodeStep deriveKeyfileContent node (.ends .rotation ending) next ∧
      next.At (Function.update tasks .rotation none) shared := by
  obtain ⟨rfl, rfl, up, configured⟩ := here
  exact ⟨_, .ends ended, rfl, rfl, up, configured⟩

end At

end MongoHa.Credentials
