/-
Module: MongoHa.Proofs.AdoptedData
Layer: Proofs
Purpose: Whether a fresh node ever takes the initiate decision over a peer that holds adopted data.
  `has_data` is decided at every boot from the files found, and the first boot of a fresh node leaves a
  dataset behind, so the flag alone does not tell the two apart. `adopted_yields_of_untouched_boots`
  gives the boots under which they stay apart in every run.
Imports: MongoHa.Proofs.ClusterFlags, MongoHa.Proofs.PeerRound
Trusted boundary: none (fully proved)
Main exports: AdoptedYields, AdoptedPrecede, UntouchedBoots, adopted_yields_of_untouched_boots,
  restarted_fresh_node_outranks_adopted
Open obligations: none
-/
import MongoHa.Proofs.ClusterFlags
import MongoHa.Proofs.PeerRound

namespace MongoHa

open Foundations

variable {ν : Type*} (cluster : Cluster ν) (volume : ν → List String)

/-- The volume held a dataset before the first boot on it. -/
def Adopted (n : ν) : Prop :=
  datadirIsInitialized (volume n) = true

/-- The volume was empty before the first boot on it. -/
def Fresh (n : ν) : Prop :=
  volume n = []

/-- No round on a fresh node is safe when a declared peer with an adopted volume answered in it that it
    holds no set. -/
def AdoptedYields (world : World ν) : Prop :=
  ∀ n process state collected poll i host m reported, Fresh volume n → Adopted volume m →
    (world.node n).process = some process → process.phase = .bootstrap state →
    process.control = .querying collected →
    (∀ j < (cluster.config n).peerHosts.length, collected j = some (poll.task j)) →
    (cluster.config n).peerHosts[i]? = some host → cluster.names m host →
    poll.task i = .answered (.state reported) → reported.setActive = false →
    roundVerdict (cluster.config n) process.hasData state.gone poll ≠ .safeToInitiate

/-- Every adopted node of the seeds precedes this node in the seed order. -/
def AdoptedPrecede (n : ν) : Prop :=
  ∀ m, cluster.Declares m → Adopted volume m → cluster.rank m < cluster.rank n

/-- A boot on a fresh volume finds no dataset yet, or the adopted nodes precede its node. -/
def UntouchedBoots (world : World ν) : Action ν → Prop
  | .boot n => Fresh volume n → datadirIsInitialized (world.node n).files = false ∨
      AdoptedPrecede cluster volume n
  | _ => True

/-- What the flag of a node says about its volume under such boots. -/
def FlagTelling (n : ν) (flag : Bool) : Prop :=
  (Adopted volume n → flag = true) ∧
    (Fresh volume n → flag = false ∨ AdoptedPrecede cluster volume n)

variable {cluster volume}

theorem peerWins_of_flagTelling {n m : ν} {hasData myHasData : Bool}
    (mine : FlagTelling cluster volume n myHasData) (theirs : FlagTelling cluster volume m hasData)
    (fresh : Fresh volume n) (declares : cluster.Declares m) (adopted : Adopted volume m) :
    peerWins hasData myHasData (cluster.config m).mySeedRank (cluster.config n).mySeedRank = true := by
  rw [theirs.1 adopted]
  cases myHasData with
  | false => rfl
  | true =>
      rcases mine.2 fresh with impossible | precedes
      · cases impossible
      · simpa [peerWins, Cluster.rank] using precedes m declares adopted

variable [DecidableEq ν] {world : World ν}

theorem flagTelling_of_reachable
    (reached : (cluster.system volume (UntouchedBoots cluster volume)).Reachable world) :
    FlagsHold cluster (FlagTelling cluster volume) world := by
  apply flagsHold_of_reachable _ reached
  intro before n ran admitted
  constructor
  · intro adopted
    exact dataset_kept ran adopted
  · exact admitted

/-- In every run with such boots an adopted volume wins the tie-break against every fresh node. -/
theorem adopted_yields_of_untouched_boots
    (reached : (cluster.system volume (UntouchedBoots cluster volume)).Reachable world) :
    AdoptedYields cluster volume world := by
  intro n process state collected poll i host m reported fresh adopted up phase asking ended declared
    named gave noSet safe
  have flags := flagTelling_of_reachable reached
  have inBounds : i < (cluster.config n).peerHosts.length := (List.getElem?_eq_some_iff.1 declared).1
  have recorded : collected i = some (.answered (.state reported)) := by
    rw [ended i inBounds, gave]
  obtain ⟨mine, heard⟩ := flags.processes n process up
  obtain ⟨asked, peer, declaredAgain, peerNamed, theirs⟩ :=
    heard collected i reported asking recorded
  obtain rfl : asked = host := Option.some.inj (declaredAgain.symm.trans declared)
  obtain rfl : peer = m := eq_of_names peerNamed named
  obtain ⟨verdict, member⟩ := mem_roundAnswers_iff.2 ⟨i, declared, gave⟩
  have standing : standingOf (.state reported) = .noSet reported.hasData := by
    simp [standingOf, noSet]
  have counted : (asked, (cluster.config n).seedRank asked, standingOf (.state reported)) ∈
      (surveyRound (cluster.config n) state.gone poll).peers := by
    apply surveyPeers_mem_of_known member
    rw [standing]
    exact PeerStanding.noConfusion
  have free := decide_eq_safeToInitiate_iff.1 safe _ counted
  rw [standing, seedRank_of_names named] at free
  have wins := peerWins_of_flagTelling mine theirs fresh (declares_of_names declared named) adopted
  dsimp only [standingBlocks] at free
  rw [wins] at free
  cases free

/-! ### Two nodes, the first seed fresh and the second adopted -/

def secondAdopted (n : Bool) : List String :=
  if n then datasetFiles else []

/-- How the adopted node answers before a set exists. -/
def adoptedAnswer : RsState :=
  { nodeId := "mongo-2:27017"
    setActive := false
    setName := none
    myState := none
    isPrimary := false
    primaryHost := none
    members := []
    membersTotal := 0
    membersHealthy := 0
    votingMembers := none
    hasData := true
    configVersion := none
    oplogWindowSeconds := none }

def adoptedAnswerPoll : Poll :=
  { Poll.quiet 0 with task := fun _ => .answered (.state adoptedAnswer) }

theorem adoptedAnswer_computed :
    localRsState (twoNodes.config true) true
      { status := .ok .notInitialized, oplogWindow := .ok none, rsConfig := .ok [] } =
      .ok adoptedAnswer := rfl

theorem adopted_declared : (twoNodes.config false).peerHosts[0]? = some "mongo-2" := by decide

theorem adopted_named : twoNodes.names true "mongo-2" := rfl

theorem adoptedAnswer_collected : ∀ i < (twoNodes.config false).peerHosts.length,
    Function.update (fun _ => none) 0 (some (.answered (.state adoptedAnswer))) i =
      some (adoptedAnswerPoll.task i) := by
  have peers : (twoNodes.config false).peerHosts = ["mongo-2"] := by decide
  intro i inBounds
  rw [peers] at inBounds
  obtain rfl : i = 0 := Nat.lt_one_iff.1 inBounds
  rfl

/-- A fresh first seed on its first boot, with the answer of the adopted node in its round. -/
theorem adopted_yields_on_first_boots :
    ∃ world, (twoNodes.system secondAdopted (UntouchedBoots twoNodes secondAdopted)).Reachable world ∧
      (∃ process collected, (world.node false).process = some process ∧
        process.control = .querying collected ∧
        collected 0 = some (.answered (.state adoptedAnswer))) ∧
      AdoptedYields twoNodes secondAdopted world := by
  have begun : (twoNodes.system secondAdopted
      (UntouchedBoots twoNodes secondAdopted)).Reachable (.start _) := .init rfl
  have fresh : UntouchedBoots twoNodes secondAdopted (.start secondAdopted) (.boot false) :=
    fun _ => Or.inl rfl
  have r1 := begun.take (.boot false) fresh (.boot rfl)
  have r2 := r1.take (.boot true) (fun isFresh => by cases isFresh) (.boot rfl)
  have r3 := r2.take (.publish true) trivial (.publish rfl adoptedAnswer_computed)
  have r4 := r3.take (.ask false) trivial (.ask rfl rfl)
  have r5 := r4.take (.answer false) trivial
    (.answer rfl rfl (.state adopted_declared adopted_named (List.mem_cons_self ..)))
  exact ⟨_, r5, ⟨_, _, rfl, rfl, rfl⟩, adopted_yields_of_untouched_boots r5⟩

/-- The fresh first seed restarts after its entrypoint initialized the data directory: the round in which
    the adopted node answered is safe on the fresh one. -/
theorem restarted_fresh_node_outranks_adopted :
    ∃ world, (twoNodes.system secondAdopted fun _ _ => True).Reachable world ∧
      ¬ AdoptedYields twoNodes secondAdopted world := by
  have begun : (twoNodes.system secondAdopted fun _ _ => True).Reachable (.start _) := .init rfl
  have r1 := begun.take (.boot false) trivial (.boot rfl)
  have r2 := r1.take (.entrypoint false) trivial
    (@Cluster.Step.entrypoint _ _ _ _ _ _ datasetFiles rfl fun _ => by decide)
  have r3 := r2.take (.stop false) trivial .stop
  have r4 := r3.take (.boot false) trivial (.boot rfl)
  have r5 := r4.take (.boot true) trivial (.boot rfl)
  have r6 := r5.take (.publish true) trivial (.publish rfl adoptedAnswer_computed)
  have r7 := r6.take (.ask false) trivial (.ask rfl rfl)
  have r8 := r7.take (.answer false) trivial
    (.answer rfl rfl (.state adopted_declared adopted_named (List.mem_cons_self ..)))
  refine ⟨_, r8, ?_⟩
  intro yields
  apply yields false _ _ _ adoptedAnswerPoll 0 "mongo-2" true adoptedAnswer rfl rfl rfl rfl rfl
    adoptedAnswer_collected adopted_declared rfl rfl rfl
  rw [roundVerdict_eq_safeToInitiate_iff]
  decide

end MongoHa
