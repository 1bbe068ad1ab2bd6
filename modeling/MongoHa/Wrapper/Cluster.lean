/-
Module: MongoHa.Wrapper.Cluster
Layer: Wrapper
Purpose: The nodes of one replica set together, each running the task of `Orchestrate` in HA mode. A step
  is one thing one node does: a container starts (and decides `has_data` from the files it finds, as
  `main.rs` does), its entrypoint writes to the data directory, it stops, it computes a `/rs/state`
  answer, it starts asking its peers, one query ends, the round is closed by the loop body, the
  `rs_initiate` the loop body called for is issued. Steps of different nodes interleave freely. A query
  may end with any answer the asked node computed so far, however old.
Imports: MongoHa.Wrapper.Orchestrate
Trusted boundary: human-reviewed spec
Main exports: Cluster, Cluster.names, Cluster.Declares, Process, Node, World, Action, Cluster.Step,
  Cluster.system
Open obligations: none
-/
import MongoHa.Wrapper.Orchestrate

namespace MongoHa

open Foundations
open Foundations.RustStr

/-- Nodes that share one RS_SEEDS, each with a private domain of its own. -/
structure Cluster (ν : Type*) where
  config : ν → Config
  shared : ∀ n m, (config n).rsSeeds = (config m).rsSeeds
  oneNodePerName : ∀ n m,
    asciiLower (config n).privateDomain = asciiLower (config m).privateDomain → n = m

/-- Whether a host name leads to this node. -/
def Cluster.names {ν : Type*} (cluster : Cluster ν) (n : ν) (host : String) : Prop :=
  asciiLower host = asciiLower (cluster.config n).privateDomain

/-- The node occurs in the shared seeds. -/
def Cluster.Declares {ν : Type*} (cluster : Cluster ν) (n : ν) : Prop :=
  ∃ seed ∈ (cluster.config n).seedHosts, cluster.names n seed

/-- Where the task of a running container is. -/
inductive Control where
  | idle
  /-- The queries of a round are out; `collected i` is how the `i`-th ended, once it did. -/
  | querying (collected : Nat → Option TaskOutcome)
  /-- The loop body called for `rs_initiate`, which the local mongod has not received yet. -/
  | initiating

/-- A running container: what it decided at boot, and its background task. -/
structure Process where
  hasData : Bool
  phase : Phase
  control : Control

def Process.start (hasData : Bool) : Process :=
  { hasData := hasData, phase := .start, control := .idle }

/-- One node: the files at the root of its data directory, its container while one runs, and every
    answer it ever computed. -/
structure Node where
  files : List String
  process : Option Process
  published : List RsState

/-- All nodes of one seed list. -/
structure World (ν : Type*) where
  node : ν → Node
  /-- The nodes that issued `rs_initiate`, latest first. -/
  initiated : List ν

/-- What a node does next: its process comes and goes, answers peers, asks them, and acts on a round. -/
inductive Action (ν : Type*) where
  | boot (n : ν)
  | entrypoint (n : ν)
  | stop (n : ν)
  | publish (n : ν)
  | ask (n : ν)
  | answer (n : ν)
  | close (n : ν) (poll : Poll)
  | initiate (n : ν)

namespace World

variable {ν : Type*} [DecidableEq ν]

/-- No container has run yet; only the volumes differ. -/
def start (volume : ν → List String) : World ν :=
  { node := fun n => { files := volume n, process := none, published := [] }, initiated := [] }

def setNode (world : World ν) (n : ν) (node : Node) : World ν :=
  { world with node := Function.update world.node n node }

/-- Replace what the container of a node is doing. -/
def setProcess (world : World ν) (n : ν) (process : Option Process) : World ν :=
  world.setNode n { world.node n with process := process }

@[simp] theorem setNode_self (world : World ν) (n : ν) (node : Node) :
    (world.setNode n node).node n = node := by
  simp [setNode]

theorem setNode_of_ne (world : World ν) {n other : ν} (node : Node) (different : other ≠ n) :
    (world.setNode n node).node other = world.node other := by
  simp [setNode, Function.update_of_ne different]

@[simp] theorem setProcess_self (world : World ν) (n : ν) (process : Option Process) :
    (world.setProcess n process).node n = { world.node n with process := process } := by
  simp [setProcess]

theorem setProcess_of_ne (world : World ν) {n other : ν} (process : Option Process)
    (different : other ≠ n) : (world.setProcess n process).node other = world.node other :=
  world.setNode_of_ne _ different

/-- A property of every running container survives the change of one node that keeps it there. -/
theorem processes_setNode {holds : ν → Process → Prop} {world : World ν}
    (before : ∀ m process, (world.node m).process = some process → holds m process) {n : ν}
    {node : Node} (after : ∀ process, node.process = some process → holds n process) :
    ∀ m process, ((world.setNode n node).node m).process = some process → holds m process := by
  intro m process up
  by_cases same : m = n
  · subst same
    rw [setNode_self] at up
    exact after process up
  · rw [world.setNode_of_ne node same] at up
    exact before m process up

@[simp] theorem setProcess_files (world : World ν) (n other : ν) (process : Option Process) :
    ((world.setProcess n process).node other).files = (world.node other).files := by
  by_cases same : other = n
  · subst same
    simp
  · rw [world.setProcess_of_ne process same]

end World

namespace Cluster

variable {ν : Type*} [DecidableEq ν] (cluster : Cluster ν)

/-- How the query of the `i`-th declared peer of `n` can end: it fails, it brings no state, or it brings
    a state that the node behind that host computed at some time. -/
inductive CanEnd (world : World ν) (n : ν) (i : Nat) : TaskOutcome → Prop where
  | failed : CanEnd world n i .failed
  | notReady : CanEnd world n i (.answered .notReady)
  | unreachable : CanEnd world n i (.answered .unreachable)
  | state {host : String} {peer : ν} {reported : RsState}
      (asked : (cluster.config n).peerHosts[i]? = some host) (named : cluster.names peer host)
      (computed : reported ∈ (world.node peer).published) :
      CanEnd world n i (.answered (.state reported))

/-- The control after a round: whether the loop body called for `rs_initiate`. -/
def afterRound (report : Report) : Control :=
  if report.initiates then .initiating else .idle

/-- One action of one node. A round collects its answers one by one, so others move between them. -/
inductive Step : World ν → Action ν → World ν → Prop where
  | boot {world : World ν} {n : ν} (down : (world.node n).process = none) :
      Step world (.boot n)
        (world.setProcess n (some (.start (datadirIsInitialized (world.node n).files))))
  /-- A dataset once there stays visible. -/
  | entrypoint {world : World ν} {n : ν} {process : Process} {files : List String}
      (up : (world.node n).process = some process)
      (visible : datadirIsInitialized (world.node n).files = true →
        datadirIsInitialized files = true) :
      Step world (.entrypoint n) (world.setNode n { world.node n with files := files })
  | stop {world : World ν} {n : ν} : Step world (.stop n) (world.setProcess n none)
  | publish {world : World ν} {n : ν} {process : Process} {reads : StateReads} {reported : RsState}
      (up : (world.node n).process = some process)
      (computes : localRsState (cluster.config n) process.hasData reads = .ok reported) :
      Step world (.publish n)
        (world.setNode n
          { world.node n with published := reported :: (world.node n).published })
  | ask {world : World ν} {n : ν} {process : Process}
      (up : (world.node n).process = some process) (resting : process.control = .idle) :
      Step world (.ask n)
        (world.setProcess n (some { process with control := .querying fun _ => none }))
  | answer {world : World ν} {n : ν} {process : Process} {collected : Nat → Option TaskOutcome}
      {i : Nat} {outcome : TaskOutcome} (up : (world.node n).process = some process)
      (asking : process.control = .querying collected) (ends : CanEnd cluster world n i outcome) :
      Step world (.answer n)
        (world.setProcess n
          (some { process with
            control := .querying (Function.update collected i (some outcome)) }))
  | close {world : World ν} {n : ν} {process : Process} {collected : Nat → Option TaskOutcome}
      {poll : Poll} (up : (world.node n).process = some process)
      (asking : process.control = .querying collected)
      (ended : ∀ i < (cluster.config n).peerHosts.length, collected i = some (poll.task i)) :
      Step world (.close n poll)
        (world.setProcess n
          (some { process with
            phase := nextPhase (cluster.config n) process.hasData process.phase poll
            control := afterRound
              (pollReport (cluster.config n) process.hasData (process.phase, poll)) }))
  | initiate {world : World ν} {n : ν} {process : Process}
      (up : (world.node n).process = some process) (called : process.control = .initiating) :
      Step world (.initiate n)
        { world.setProcess n (some { process with control := .idle }) with
          initiated := n :: world.initiated }

/-- The runs of a cluster from given volumes, limited to the steps that are admitted. -/
def system (volume : ν → List String) (admits : World ν → Action ν → Prop) : System (World ν) :=
  .labelled (fun world => world = .start volume) cluster.Step admits

end Cluster

/-- Two nodes with no dwell. The first seed is `mongo-1`, the node `false`. -/
def twoNodes : Cluster Bool where
  config n :=
    { configWithSeeds (if n then "mongo-2" else "mongo-1") (some "mongo-1:27017,mongo-2:27017") with
      bootstrapDwellSeconds := 0 }
  shared := by decide
  oneNodePerName := by decide

theorem twoNodes_declares (n : Bool) : twoNodes.Declares n := by
  cases n with
  | false => exact ⟨"mongo-1", by decide, rfl⟩
  | true => exact ⟨"mongo-2", by decide, rfl⟩

end MongoHa
