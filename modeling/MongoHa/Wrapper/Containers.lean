/-
Module: MongoHa.Wrapper.Containers
Layer: Wrapper
Purpose: Any number of containers that run the wrapper, each for one life, with the volumes they share.
  The kernel grants the lock of a data directory while no live process holds it and releases it when the
  holder is gone, however it ended; a child is waited for once it is gone. Everything else is answered in
  any way. A container's engines are the mongods it spawned that are still up. `sent`, `worked`,
  `waitFailed` and `outcome` only record what happened.
Imports: MongoHa.Foundations.Processes, MongoHa.Wrapper.Entrypoint
Trusted boundary: human-reviewed spec
Main exports: Boot, Boot.dataDir, Host, Host.engines, MainCall.beforeLock, Host.answers, Host.after,
  Host.ended, containers, Unprotected, Abandoned
Open obligations: none
-/
import MongoHa.Foundations.Processes
import MongoHa.Wrapper.Entrypoint

namespace MongoHa.Entrypoint

open Foundations

/-- What a container is started with. -/
structure Boot where
  watch : Watch
  env : Environment
  args : List String

/-- The data directory of a configuration that loads. -/
def Boot.dataDir (boot : Boot) : Option String :=
  (Config.fromEnv boot.env).toOption.map fun config => (passthroughConfig config boot.args).dataDir

/-- How the process of a container ended. -/
abbrev Over := Foundations.Ending Halt Empty

/-- The containers of one host, with the locks, the mongods and the reports that outlive a call. -/
structure Host (ι : Type*) where
  /-- Who holds the runtime lock of a data directory. -/
  holder : String → Option ι
  boots : ι → Option Boot
  /-- The mongod spawned last is up. -/
  child : ι → Bool
  /-- The mongods spawned before it that are up. -/
  strays : ι → Nat
  sent : ι → List TelemetryEvent
  /-- The process went on past the volume lock. -/
  worked : ι → Bool
  /-- Waiting for a child failed. -/
  waitFailed : ι → Bool
  outcome : ι → Option Over

/-- The calls of `main` up to the volume lock. -/
def MainCall.beforeLock : MainCall → Bool
  | .startTelemetry | .volumeLock _ | .sendOnce _ => true
  | _ => false

section Host

variable {ι : Type*} [DecidableEq ι] (host : Host ι) (i : ι)

omit [DecidableEq ι] in
/-- The data directory a container works on. -/
def Host.dataDir : Option String := (host.boots i).bind Boot.dataDir

omit [DecidableEq ι] in
/-- The mongods of a container that are up. -/
def Host.engines : Nat := host.strays i + (host.child i).toNat

def Host.bootedWith (boot : Boot) : Host ι :=
  { host with boots := Function.update host.boots i (some boot) }

/-- Another child takes the place of the one before. -/
def Host.spawned : Host ι :=
  { host with
    child := Function.update host.child i true
    strays := Function.update host.strays i (host.engines i) }

def Host.waited (failed : Bool) : Host ι :=
  { host with waitFailed := Function.update host.waitFailed i (host.waitFailed i || failed) }

def Host.onSupervisor (host : Host ι) (i : ι) :
    (call : Supervisor.SupervisorCall) → call.Reply → Host ι
  | .select, .exited (.error _) => host.waited i true
  | .waitMongod, some (.error _) => host.waited i true
  | .killMongod, .error _ => host.waited i true
  | .spawnMongod _ _, .ok () => host.spawned i
  | _, _ => host

/-- What a call leaves. -/
def Host.onCall (host : Host ι) (i : ι) : (call : MainCall) → call.Reply → Host ι
  | .volumeLock .lockExclusive, true =>
      { host with
        holder := fun dir => if host.dataDir i = some dir then some i else host.holder dir }
  | .sendOnce event, _ => { host with sent := Function.update host.sent i (host.sent i ++ [event]) }
  | .spawnRecovery _ _, .ok () => host.spawned i
  | .spawnMongod _ _, .ok () => host.spawned i
  | .supervisor call, reply => host.onSupervisor i call reply
  | _, _ => host

/-- The host after an answered call. -/
def Host.after (call : MainCall) (reply : call.Reply) : Host ι :=
  let next := host.onCall i call reply
  { next with worked := Function.update next.worked i (next.worked i || !call.beforeLock) }

omit [DecidableEq ι] in
/-- A new child has an id; a child that was waited for is gone. -/
def Host.answersSupervisor : (call : Supervisor.SupervisorCall) → call.Reply → Prop
  | .childId, id => id.isSome = true
  | .select, .exited (.ok _) => host.child i = false
  | .waitMongod, some (.ok _) => host.child i = false
  | .killMongod, .ok () => host.child i = false
  | _, _ => True

omit [DecidableEq ι] in
/-- The answers that the host can give to a call. -/
def Host.answers : (call : MainCall) → call.Reply → Prop
  | .volumeLock .lockExclusive, true => ∀ dir, host.dataDir i = some dir → host.holder dir = none
  | .recoveryEnds, ended => ended.run.sawExit = true → host.child i = false
  | .supervisor call, reply => host.answersSupervisor i call reply
  | _, _ => True

/-- The kernel closes the lock file of a process that is gone. -/
def Host.ended (ending : Over) : Host ι :=
  { host with
    holder := fun dir => if host.holder dir = some i then none else host.holder dir
    outcome := Function.update host.outcome i (some ending) }

/-- A mongod goes down, asked or not. -/
inductive EngineDown (host : Host ι) : Host ι → Prop where
  | child (i : ι) : EngineDown host { host with child := Function.update host.child i false }
  | stray (i : ι) :
      EngineDown host { host with strays := Function.update host.strays i (host.strays i - 1) }

end Host

/-- A wait that is followed no further is no end. -/
def Over.isEnd : Over → Prop
  | .finished (.error .unfinished) => False
  | _ => True

variable (ι : Type*) [DecidableEq ι]

/-- The containers, where `ι` numbers their lives. -/
def containers (deriveKeyfileContent : String → String) :
    Surroundings MainCall.Reply Halt Empty ι (Host ι) Boot where
  program boot := main deriveKeyfileContent boot.watch boot.env boot.args
  starts host i boot next :=
    host.boots i = none ∧ next = host.bootedWith i boot
  answers host i call reply next := host.answers i call reply ∧ next = host.after i call reply
  ends host i ending next := Over.isEnd ending ∧ next = host.ended i ending
  moves := EngineDown

/-- No container was started yet. -/
def Host.Fresh {ι : Type*} (host : Host ι) : Prop :=
  (∀ dir, host.holder dir = none) ∧
    ∀ i, host.boots i = none ∧ host.engines i = 0 ∧ host.sent i = [] ∧ host.worked i = false ∧
      host.waitFailed i = false ∧ host.outcome i = none

variable {ι}

/-- The container runs without the volume lock, and has reported it. -/
def Unprotected (host : Host ι) (i : ι) : Prop :=
  ∃ dir, host.dataDir i = some dir ∧ lockLost dir ∈ host.sent i

/-- Something other than the wrapper's own shutdown may have left a mongod of this container up. -/
inductive Abandoned (host : Host ι) (i : ι) : Prop where
  | killed (outcome : host.outcome i = some .killed)
  /-- `main` returned an error: no signal handler, or a rotation that could not write its keyfile. -/
  | failed (text : String) (outcome : host.outcome i = some (.finished (.error (.error text))))
  | recoveryFailed (text : String)
      (outcome : host.outcome i = some (.finished (.error (.exit recoveryFailExitCode))))
      (reported : recoveryFailed text ∈ host.sent i)
  | waitFailed (failed : host.waitFailed i = true)

end MongoHa.Entrypoint
