/-
Module: MongoHa.Proofs.ClusterFlags
Layer: Proofs
Purpose: What every node of a cluster can rely on about the peers it hears. The declared peers are
  other nodes, ranked alike on every node. If each boot of a run computes a `has_data` flag that is
  acceptable for its node, then every running container, every answer ever computed and every answer
  collected in a round carries an acceptable flag of the node it is about (`flagsHold_of_reachable`).
Imports: MongoHa.Wrapper.Cluster
Trusted boundary: none (fully proved)
Main exports: FlagsHold, flagsHold_of_reachable, Cluster.rank, seedRank_of_names, rank_inj, peer_declared,
  dataset_kept
Open obligations: none
-/
import MongoHa.Wrapper.Cluster

namespace MongoHa

open Foundations
open Foundations.RustStr

variable {ν : Type*} {cluster : Cluster ν}

/-! ### The nodes behind the declared peers -/

/-- A node's place in the declared seed order. -/
def Cluster.rank (cluster : Cluster ν) (n : ν) : Nat :=
  ((cluster.config n).mySeedRank).getD usizeMax

theorem mySeedRank_eq {n : ν} (declares : cluster.Declares n) :
    (cluster.config n).mySeedRank = some (cluster.rank n) := by
  obtain ⟨seed, declared, same⟩ := declares
  obtain ⟨rank, found⟩ := Option.isSome_iff_exists.1 (Config.seedRank_isSome declared same)
  have mine : (cluster.config n).mySeedRank = some rank := found
  rw [Cluster.rank, mine, Option.getD_some]

/-- Every node ranks a host by the node behind it. -/
theorem seedRank_of_names {n peer : ν} {host : String} (named : cluster.names peer host) :
    (cluster.config n).seedRank host = (cluster.config peer).mySeedRank := by
  rw [Config.seedRank_congr named, Config.seedRank_of_rsSeeds (cluster.shared n peer)]
  rfl

/-- No two nodes have one rank. -/
theorem rank_inj {n m : ν} (declaresLeft : cluster.Declares n) (declaresRight : cluster.Declares m)
    (same : cluster.rank n = cluster.rank m) : n = m := by
  have left : (cluster.config n).seedRank (cluster.config n).privateDomain =
      some (cluster.rank n) := mySeedRank_eq declaresLeft
  have right : (cluster.config n).seedRank (cluster.config m).privateDomain =
      some (cluster.rank n) := by
    rw [same, ← mySeedRank_eq declaresRight]
    exact seedRank_of_names rfl
  exact cluster.oneNodePerName n m (Config.seedRank_inj left right)

theorem eq_of_names {n m : ν} {host : String} (left : cluster.names n host)
    (right : cluster.names m host) : n = m :=
  cluster.oneNodePerName n m (left.symm.trans right)

theorem declares_of_names {n m : ν} {i : Nat} {host : String}
    (declared : (cluster.config n).peerHosts[i]? = some host) (named : cluster.names m host) :
    cluster.Declares m := by
  have peer := (Config.mem_peerHosts.1 (List.mem_of_getElem? declared)).1
  rw [Config.seedHosts_of_rsSeeds (cluster.shared n m)] at peer
  exact ⟨host, peer, named⟩

/-- Every other node in the seeds stands behind one of a node's declared peers. -/
theorem peer_declared {n m : ν} (declares : cluster.Declares m) (different : m ≠ n) :
    ∃ i host, i < (cluster.config n).peerHosts.length ∧
      (cluster.config n).peerHosts[i]? = some host ∧ cluster.names m host := by
  obtain ⟨seed, declared, named⟩ := declares
  rw [← Config.seedHosts_of_rsSeeds (cluster.shared n m)] at declared
  have notSelf : asciiLower seed ≠ asciiLower (cluster.config n).privateDomain := by
    intro self
    exact different (eq_of_names named self)
  have peer : seed ∈ (cluster.config n).peerHosts := Config.mem_peerHosts.2 ⟨declared, notSelf⟩
  obtain ⟨i, inBounds, found⟩ := List.getElem_of_mem peer
  exact ⟨i, seed, inBounds, List.getElem?_eq_some_iff.2 ⟨inBounds, found⟩, named⟩

/-! ### Flags along a run -/

variable {flagOk : ν → Bool → Prop}

/-- Every state a container collected was computed by a node behind the asked host, with an acceptable
    flag. -/
def CollectedOk (cluster : Cluster ν) (flagOk : ν → Bool → Prop) (n : ν) (control : Control) : Prop :=
  ∀ collected i reported, control = .querying collected →
    collected i = some (.answered (.state reported)) →
    ∃ host peer, (cluster.config n).peerHosts[i]? = some host ∧ cluster.names peer host ∧
      flagOk peer reported.hasData

/-- What one process says of data, and what it collected of others, is what holds of those nodes. -/
structure ProcessOk (cluster : Cluster ν) (flagOk : ν → Bool → Prop) (n : ν) (process : Process) :
    Prop where
  flag : flagOk n process.hasData
  collected : CollectedOk cluster flagOk n process.control

/-- The same of every process, and of every state a node published. -/
structure FlagsHold (cluster : Cluster ν) (flagOk : ν → Bool → Prop) (world : World ν) : Prop where
  processes : ∀ n process, (world.node n).process = some process →
    ProcessOk cluster flagOk n process
  published : ∀ n, ∀ reported ∈ (world.node n).published, flagOk n reported.hasData

theorem collectedOk_of_not_querying {n : ν} {control : Control}
    (resting : ∀ collected, control ≠ .querying collected) :
    CollectedOk cluster flagOk n control := by
  intro collected i reported asking
  exact absurd asking (resting collected)

variable [DecidableEq ν]

/-- Changing one node needs an argument about that node only. -/
theorem FlagsHold.setNode {world : World ν} (holds : FlagsHold cluster flagOk world) {n : ν}
    {node : Node}
    (processOk : ∀ running, node.process = some running → ProcessOk cluster flagOk n running)
    (publishedOk : ∀ reported ∈ node.published, flagOk n reported.hasData) :
    FlagsHold cluster flagOk (world.setNode n node) := by
  constructor
  · exact World.processes_setNode holds.processes processOk
  · intro other reported member
    by_cases same : other = n
    · subst same
      rw [World.setNode_self] at member
      exact publishedOk reported member
    · rw [world.setNode_of_ne node same] at member
      exact holds.published other reported member

theorem FlagsHold.setProcess {world : World ν} (holds : FlagsHold cluster flagOk world) {n : ν}
    {process : Option Process}
    (ok : ∀ running, process = some running → ProcessOk cluster flagOk n running) :
    FlagsHold cluster flagOk (world.setProcess n process) :=
  holds.setNode ok (holds.published n)

theorem flagsHold_step {world next : World ν} {action : Action ν}
    (holds : FlagsHold cluster flagOk world)
    (boots : ∀ n, action = .boot n → flagOk n (datadirIsInitialized (world.node n).files))
    (step : cluster.Step world action next) : FlagsHold cluster flagOk next := by
  cases step with
  | @boot n down =>
      apply holds.setProcess
      intro running started
      injection started with started
      subst started
      exact ⟨boots n rfl, collectedOk_of_not_querying fun _ asking => by cases asking⟩
  | @entrypoint n process files up visible =>
      exact holds.setNode (holds.processes n) (holds.published n)
  | stop =>
      apply holds.setProcess
      intro running impossible
      cases impossible
  | @publish n process reads reported up computes =>
      refine holds.setNode ?_ ?_
      · exact holds.processes n
      · intro answer member
        rcases List.mem_cons.1 member with rfl | older
        · rw [localRsState_hasData computes]
          exact (holds.processes n process up).flag
        · exact holds.published n answer older
  | @ask n process up resting =>
      apply holds.setProcess
      intro running same
      injection same with same
      subst same
      refine ⟨(holds.processes n process up).flag, ?_⟩
      intro collected i reported asking found
      injection asking with same
      rw [← same] at found
      cases found
  | @answer n process collected i outcome up asking ends =>
      apply holds.setProcess
      intro running same
      injection same with same
      subst same
      refine ⟨(holds.processes n process up).flag, ?_⟩
      intro updated j reported asked found
      injection asked with same
      subst same
      by_cases this : j = i
      · subst this
        rw [Function.update_self] at found
        injection found with found
        subst found
        cases ends with
        | @state host peer answer declared named computed =>
            exact ⟨host, peer, declared, named, holds.published peer reported computed⟩
      · rw [Function.update_of_ne this] at found
        exact (holds.processes n process up).collected collected j reported asking found
  | @close n process collected poll up asking ended =>
      apply holds.setProcess
      intro running same
      injection same with same
      subst same
      refine ⟨(holds.processes n process up).flag, collectedOk_of_not_querying ?_⟩
      intro others
      dsimp only [Cluster.afterRound]
      split
      · exact Control.noConfusion
      · exact Control.noConfusion
  | @initiate n process up called =>
      have rested : FlagsHold cluster flagOk
          (world.setProcess n (some { process with control := .idle })) := by
        apply holds.setProcess
        intro running same
        injection same with same
        subst same
        exact ⟨(holds.processes n process up).flag,
          collectedOk_of_not_querying fun _ asked => by cases asked⟩
      exact ⟨rested.processes, rested.published⟩

section Runs

variable {volume : ν → List String} {admits : World ν → Action ν → Prop} {world : World ν}

/-- What holds of a node at its boot holds of everything anyone reports or collected of it. -/
theorem flagsHold_of_reachable
    (boots : ∀ before n, (cluster.system volume admits).Reachable before → admits before (.boot n) →
      flagOk n (datadirIsInitialized (before.node n).files))
    (reached : (cluster.system volume admits).Reachable world) :
    FlagsHold cluster flagOk world := by
  apply System.invariant _ _ reached
  · intro first start
    rw [show first = .start volume from start]
    constructor
    · intro n process up
      cases up
    · intro n reported member
      cases member
  · intro before after ran holds move
    obtain ⟨action, admitted, step⟩ := move
    apply flagsHold_step holds _ step
    intro n same
    subst same
    exact boots before n ran admitted

/-- A dataset found before the first boot is found at every later one. -/
theorem dataset_kept (reached : (cluster.system volume admits).Reachable world) {n : ν}
    (present : datadirIsInitialized (volume n) = true) :
    datadirIsInitialized (world.node n).files = true := by
  apply System.labelled_invariant _ _ reached
  · intro first start
    rw [show first = .start volume from start]
    exact present
  · intro before action after kept admitted step
    cases step with
    | @entrypoint m process files up visible =>
        by_cases same : n = m
        · subst same
          rw [World.setNode_self]
          exact visible kept
        · rw [before.setNode_of_ne _ same]
          exact kept
    | @publish m process reads reported up computes =>
        by_cases same : n = m
        · subst same
          rw [World.setNode_self]
          exact kept
        · rw [before.setNode_of_ne _ same]
          exact kept
    | initiate up called =>
        change datadirIsInitialized ((before.setProcess _ _).node n).files = true
        rw [World.setProcess_files]
        exact kept
    | _ =>
        rw [World.setProcess_files]
        exact kept

end Runs

end MongoHa
