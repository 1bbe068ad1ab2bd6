/-
Module: MongoHa.Proofs.OneInitiator
Layer: Proofs
Purpose: The cluster refines the abstract election. With the flags fixed, every query answered and nobody
  waived, a safe round proves that no standing precedes the node's own (`least_of_safe_round`); the nodes
  that issued `rs_initiate` are then the claims of an election, of which there is at most one.
Imports: MongoHa.Spec.Election, MongoHa.Proofs.BootstrapLoop, MongoHa.Proofs.ClusterFlags,
  MongoHa.Proofs.PeerRound
Trusted boundary: none (fully proved)
Main exports: FixedFlags, Cluster.place, peerWins_iff, least_of_safe_round, cluster_refines_election,
  one_initiator
Open obligations: none
-/
import MongoHa.Spec.Election
import MongoHa.Proofs.BootstrapLoop
import MongoHa.Proofs.ClusterFlags
import MongoHa.Proofs.PeerRound

namespace MongoHa

open Foundations

/-- The tie-break of `decide` is the order of standings. -/
theorem peerWins_iff {hasData myHasData : Bool} {rank myRank : Nat} :
    peerWins hasData myHasData (some rank) (some myRank) = true ↔
      Spec.standing hasData rank < Spec.standing myHasData myRank := by
  rw [Spec.standing_lt_iff]
  cases hasData <;> cases myHasData <;> simp [peerWins]

variable {ν : Type*} (cluster : Cluster ν) (hasData : ν → Bool)

/-- What ranks a node in the election: its user data, then its seed rank. -/
def Cluster.place (n : ν) : Spec.Standing :=
  Spec.standing (hasData n) (cluster.rank n)

theorem place_injective (declares : ∀ n, cluster.Declares n) :
    Function.Injective (cluster.place hasData) := by
  intro n m same
  apply rank_inj (declares n) (declares m)
  exact Spec.rank_of_standing_eq same

/-- The steps of a run with fixed flags: each boot finds the flag of its node, and a round of the
    bootstrap loop closes only with every query completed and no peer waived. -/
def FixedFlags (world : World ν) : Action ν → Prop
  | .boot n => datadirIsInitialized (world.node n).files = hasData n
  | .close n poll =>
      ∀ process state, (world.node n).process = some process → process.phase = .bootstrap state →
        (∀ i < (cluster.config n).peerHosts.length, ∃ answer, poll.task i = .answered answer) ∧
          (surveyRound (cluster.config n) state.gone poll).waived = []
  | _ => True

variable {cluster hasData}

/-- A safe round in which every peer was asked, answered and counted leaves this node first. -/
theorem least_of_safe_round (declares : ∀ n, cluster.Declares n) {n : ν} {process : Process}
    {gone : GoneTracker} {poll : Poll}
    {collected : Nat → Option TaskOutcome}
    (ok : ProcessOk cluster (fun m flag => flag = hasData m) n process)
    (asking : process.control = .querying collected)
    (ended : ∀ i < (cluster.config n).peerHosts.length, collected i = some (poll.task i))
    (answered : ∀ i < (cluster.config n).peerHosts.length,
      ∃ answer, poll.task i = .answered answer)
    (nobodyWaived : (surveyRound (cluster.config n) gone poll).waived = [])
    (safe : roundVerdict (cluster.config n) process.hasData gone poll = .safeToInitiate) :
    ∀ m, cluster.place hasData n ≤ cluster.place hasData m := by
  intro m
  by_cases same : m = n
  · rw [same]
  · obtain ⟨i, host, inBounds, declared, named⟩ := peer_declared (declares m) same
    obtain ⟨answer, gave⟩ := answered i inBounds
    obtain ⟨verdict, member⟩ := mem_roundAnswers_iff.2 ⟨i, declared, gave⟩
    have covered : host ∈ (surveyRound (cluster.config n) gone poll).waived ∨
        (host, (cluster.config n).seedRank host, standingOf answer) ∈
          (surveyRound (cluster.config n) gone poll).peers := surveyPeers_covers member
    rw [nobodyWaived] at covered
    have counted := covered.resolve_left List.not_mem_nil
    have free := decide_eq_safeToInitiate_iff.1 safe _ counted
    obtain ⟨reported, rfl, -, loses⟩ := state_of_not_standingBlocks free
    have recorded : collected i = some (.answered (.state reported)) := by
      rw [ended i inBounds, gave]
    obtain ⟨asked, peer, declaredAgain, peerNamed, flag⟩ :=
      ok.collected collected i reported asking recorded
    obtain rfl : asked = host := Option.some.inj (declaredAgain.symm.trans declared)
    obtain rfl : peer = m := eq_of_names peerNamed named
    rw [seedRank_of_names named, mySeedRank_eq (declares peer), mySeedRank_eq (declares n), ok.flag,
      flag, ← Bool.not_eq_true, peerWins_iff] at loses
    exact not_lt.1 loses

variable [DecidableEq ν]

/-- Flags are as fixed, and only a first node's loop ever called for `rs_initiate`. -/
structure ElectionInv (cluster : Cluster ν) (hasData : ν → Bool) (world : World ν) : Prop where
  flags : FlagsHold cluster (fun n flag => flag = hasData n) world
  called : ∀ n process, (world.node n).process = some process → process.control = .initiating →
    ∀ m, cluster.place hasData n ≤ cluster.place hasData m

theorem electionInv_step (declares : ∀ n, cluster.Declares n) {world next : World ν} {action : Action ν}
    (inv : ElectionInv cluster hasData world) (admitted : FixedFlags cluster hasData world action)
    (step : cluster.Step world action next) : ElectionInv cluster hasData next := by
  constructor
  · apply flagsHold_step inv.flags _ step
    intro n boots
    subst boots
    exact admitted
  · cases step with
    | boot down =>
        apply World.processes_setNode inv.called
        intro running started calling
        cases started
        cases calling
    | entrypoint up visible => exact World.processes_setNode inv.called (inv.called _)
    | stop =>
        apply World.processes_setNode inv.called
        intro running impossible
        cases impossible
    | publish up computes => exact World.processes_setNode inv.called (inv.called _)
    | ask up resting =>
        apply World.processes_setNode inv.called
        intro running same calling
        cases same
        cases calling
    | answer up asking ends =>
        apply World.processes_setNode inv.called
        intro running same calling
        cases same
        cases calling
    | @close n process collected poll up asking ended =>
        apply World.processes_setNode inv.called
        intro running same calling
        cases same
        have initiates : (pollReport (cluster.config n) process.hasData
            (process.phase, poll)).initiates = true := by
          by_contra quiet
          simp [Cluster.afterRound, quiet] at calling
        obtain ⟨state, phase, -, safe, -⟩ := pollReport_initiates_iff.1 initiates
        obtain ⟨answered, nobodyWaived⟩ := admitted process state up phase
        exact least_of_safe_round declares (inv.flags.processes n process up) asking ended answered
          nobodyWaived safe
    | initiate up called =>
        apply World.processes_setNode inv.called
        intro running same calling
        cases same
        cases calling

theorem electionInv_of_reachable (declares : ∀ n, cluster.Declares n) {volume : ν → List String}
    {world : World ν}
    (reached : (cluster.system volume (FixedFlags cluster hasData)).Reachable world) :
    ElectionInv cluster hasData world := by
  apply System.labelled_invariant _ _ reached
  · intro first start
    have begun : (cluster.system volume (FixedFlags cluster hasData)).Reachable first := .init start
    constructor
    · apply flagsHold_of_reachable _ begun
      intro before n _ admitted
      exact admitted
    · intro n process up
      rw [show first = .start volume from start] at up
      cases up
  · intro before action after inv admitted step
    exact electionInv_step declares inv admitted step

/-- The nodes that issued `rs_initiate` are the claims of an election among the standings. -/
theorem cluster_refines_election (declares : ∀ n, cluster.Declares n) (volume : ν → List String) :
    System.Refines (cluster.system volume (FixedFlags cluster hasData))
      (Spec.election (cluster.place hasData)) (fun world => {n | n ∈ world.initiated}) := by
  constructor
  · intro world start
    rw [show world = .start volume from start]
    ext n
    simp [World.start]
  · intro before after reached move
    obtain ⟨action, admitted, step⟩ := move
    cases step with
    | @initiate n process up called =>
        apply Or.inl
        refine ⟨n, (electionInv_of_reachable declares reached).called n process up called, ?_⟩
        ext m
        simp
    | _ => exact Or.inr rfl

/-- At most one node ever issues `rs_initiate`, and it has user data whenever any node has. -/
theorem one_initiator (declares : ∀ n, cluster.Declares n) {volume : ν → List String}
    {world : World ν}
    (reached : (cluster.system volume (FixedFlags cluster hasData)).Reachable world) :
    (∀ n ∈ world.initiated, ∀ m ∈ world.initiated, n = m) ∧
      ∀ n ∈ world.initiated, ∀ m, hasData m = true → hasData n = true := by
  have elected := (cluster_refines_election declares volume).reachable reached
  constructor
  · intro n initiatedByN m initiatedByM
    exact Spec.election_subsingleton (place_injective cluster hasData declares) elected initiatedByN
      initiatedByM
  · intro n initiated m withData
    exact Spec.hasData_of_standing_le (Spec.election_least elected n initiated m) withData

/-- The second seed holds the data: it hears that the first one holds none, and initiates. -/
theorem one_initiator_two_nodes :
    ∃ world, (twoNodes.system (fun n => if n then datasetFiles else [])
        (FixedFlags twoNodes id)).Reachable world ∧ world.initiated = [true] ∧
      (∀ n ∈ world.initiated, ∀ m ∈ world.initiated, n = m) ∧
      ∀ n ∈ world.initiated, ∀ m, id m = true → id n = true := by
  let reads : StateReads :=
    { status := .ok .notInitialized, oplogWindow := .ok none, rsConfig := .ok [] }
  obtain ⟨reported, computes⟩ : ∃ reported,
      localRsState (twoNodes.config false) false reads = .ok reported := ⟨_, rfl⟩
  have noSet := localRsState_notInitialized rfl computes
  have noData := localRsState_hasData computes
  let poll : Poll := { Poll.quiet 0 with task := fun _ => .answered (.state reported) }
  have peers : (twoNodes.config true).peerHosts = ["mongo-1"] := by decide
  have ranks : (twoNodes.config true).seedRank "mongo-1" = some 0 ∧
      (twoNodes.config true).mySeedRank = some 1 := by decide
  have survey : surveyRound (twoNodes.config true) .new poll =
      { gone := GoneTracker.new.observeReachable "mongo-1", waived := [],
        peers := [("mongo-1", some 0, .noSet false)] } := by
    simp [surveyRound, peers, poll, queryPeers, probeAnswers, surveyPeers, standingOf, noSet, noData,
      ranks]
  have safe : roundVerdict (twoNodes.config true) true .new poll = .safeToInitiate := by
    rw [roundVerdict, survey, ranks.2]
    decide
  have declared : (twoNodes.config true).peerHosts[0]? = some "mongo-1" := by
    rw [peers]
    rfl
  have named : twoNodes.names false "mongo-1" := rfl
  have ended : ∀ i < (twoNodes.config true).peerHosts.length,
      Function.update (fun _ => none) 0 (some (.answered (.state reported))) i =
        some (poll.task i) := by
    intro i inBounds
    rw [peers] at inBounds
    obtain rfl : i = 0 := Nat.lt_one_iff.1 inBounds
    rfl
  have called : Cluster.afterRound
      (pollReport (twoNodes.config true) true (.start, poll)) = .initiating := by
    rw [Cluster.afterRound, if_pos]
    exact pollReport_initiates_iff.2 ⟨.new, rfl, rfl, safe, Nat.le_refl 0⟩
  have closes : ∀ world control,
      (world.node true).process = some { Process.start true with control := control } →
      FixedFlags twoNodes id world (.close true poll) := by
    intro world control upNow process state up phase
    rw [upNow] at up
    cases up
    cases phase
    exact ⟨fun i _ => ⟨_, rfl⟩, congrArg Survey.waived survey⟩
  have begun : (twoNodes.system (fun n => if n then datasetFiles else [])
      (FixedFlags twoNodes id)).Reachable (.start _) := .init rfl
  have r1 := begun.take (.boot false) rfl (.boot rfl)
  have r2 := r1.take (.boot true) rfl (.boot rfl)
  have r3 := r2.take (.publish false) trivial (.publish rfl computes)
  have r4 := r3.take (.ask true) trivial (.ask rfl rfl)
  have r5 := r4.take (.answer true) trivial
    (.answer rfl rfl (.state declared named (List.mem_cons_self ..)))
  have r6 := r5.take (.close true poll) (closes _ _ rfl) (.close rfl rfl ended)
  have r7 := r6.take (.initiate true) trivial (.initiate rfl called)
  exact ⟨_, r7, rfl, one_initiator twoNodes_declares r7⟩

end MongoHa
