/-
Module: MongoHa.Proofs.Readmission
Layer: Proofs
Purpose: When a node that the set no longer lists adds itself again. The bootstrap loop does, through the
  first known primary its peers report; but the task leaves that loop for good at the first iteration
  that finds the node a member, and member duties add nobody. `removed_readds_iff` gives both conditions
  for every iteration of every run.
Imports: MongoHa.Proofs.Commands
Trusted boundary: none (fully proved)
Main exports: FoundMember, firstReportedPrimary, decide_eq_joinExisting_some_iff,
  finalState_isBootstrap_iff, removed_readds_iff, removed_after_membership_not_readded
Open obligations: none
-/
import MongoHa.Proofs.Commands

namespace MongoHa

open Foundations
open Foundations.RustStr

/-! ### The verdict that joins -/

/-- The first known primary among the answers that report a set, in declared order. -/
def firstReportedPrimary (config : Config) (poll : Poll) : Option String :=
  (queryPeers config.peerHosts poll.task).findSome? fun answer =>
    (standingOf answer.2).knownPrimary

theorem isInSet_of_knownPrimary {standing : PeerStanding} {primary : String}
    (known : standing.knownPrimary = some primary) : standing.isInSet = true := by
  cases standing with
  | inSet primaryHost => rfl
  | noSet hasData => cases known
  | unknown => cases known

/-- A round joins through a primary exactly when a peer knows it, and the first that does. -/
theorem decide_eq_joinExisting_some_iff {myHasData : Bool} {mySeedRank : Option Nat}
    {peers : List SurveyedPeer} {primary : String} :
    Rs.decide myHasData mySeedRank peers = .joinExisting (some primary) ↔
      peers.findSome? (fun peer => peer.2.2.knownPrimary) = some primary := by
  unfold Rs.decide
  constructor
  · intro joins
    split at joins
    · rename_i holder found
      cases first : peers.findSome? fun peer => peer.2.2.knownPrimary with
      | none =>
          -- Then the holder itself knows no primary either.
          have silent := List.findSome?_eq_none_iff.1 first holder (List.mem_of_find?_eq_some found)
          simp [first, silent] at joins
      | some known => simpa [first] using joins
    · split at joins
      · cases joins
      · split at joins
        · cases joins
        · cases joins
  · intro first
    obtain ⟨peer, member, known⟩ := List.exists_of_findSome?_eq_some first
    have holds := isInSet_of_knownPrimary known
    split
    · simp [first]
    · rename_i noHolder
      exact absurd holds (List.find?_eq_none.1 noHolder peer member)

/-- Surveying the answers neither hides nor reorders the primaries they report. -/
theorem surveyPeers_findSome_knownPrimary {config : Config} {now : Instant} (gone : GoneTracker)
    (answers : List (String × PeerAnswer × NameVerdict)) :
    ((surveyPeers config now gone answers).peers.findSome? fun peer => peer.2.2.knownPrimary) =
      answers.findSome? fun answer => (standingOf answer.2.1).knownPrimary := by
  induction answers generalizing gone with
  | nil => rfl
  | cons answer rest ih =>
      obtain ⟨host, given, verdict⟩ := answer
      by_cases unknown : standingOf given = .unknown
      · rw [surveyPeers_unknown unknown]
        have silent : PeerStanding.unknown.knownPrimary = none := rfl
        dsimp only
        split
        · simp [ih, unknown, silent]
        · simp [ih, unknown, silent]
      · rw [surveyPeers_known unknown]
        simp [List.findSome?_cons, ih]

theorem probeAnswers_findSome {answers : List (String × PeerAnswer)} {probe : Nat → NameVerdict}
    {α : Type} (read : PeerAnswer → Option α) :
    ((probeAnswers answers probe).findSome? fun answer => read answer.2.1) =
      answers.findSome? fun answer => read answer.2 := by
  induction answers generalizing probe with
  | nil => rfl
  | cons answer rest ih =>
      have shifted := @ih fun i => probe (i + 1)
      simp only [probeAnswers, List.mapIdx_cons, List.findSome?_cons] at shifted ⊢
      rw [shifted]

theorem roundVerdict_eq_joinExisting_some_iff {config : Config} {myHasData : Bool}
    {gone : GoneTracker} {poll : Poll} {primary : String} :
    roundVerdict config myHasData gone poll = .joinExisting (some primary) ↔
      firstReportedPrimary config poll = some primary := by
  rw [roundVerdict, decide_eq_joinExisting_some_iff, surveyRound, surveyPeers_findSome_knownPrimary,
    probeAnswers_findSome fun given => (standingOf given).knownPrimary]
  rfl

/-! ### How long the bootstrap loop lasts -/

/-- The iteration's own status finds this node a member in a state other than REMOVED. -/
def FoundMember (poll : Poll) : Prop :=
  ∃ status, poll.status = .ok status ∧ removedFlag status = none

theorem nextPhase_isBootstrap_iff {config : Config} {myHasData : Bool} {phase : Phase} {poll : Poll} :
    (∃ next, nextPhase config myHasData phase poll = .bootstrap next) ↔
      (∃ state, phase = .bootstrap state) ∧ ¬ FoundMember poll := by
  cases phase with
  | duties state =>
      rw [nextPhase_duties]
      simp
  | bootstrap state =>
      unfold FoundMember
      cases read : poll.status with
      | error failure => simp [nextPhase, wrapperStep, orchestrateStep, read]
      | ok status =>
          cases flag : removedFlag status with
          | none => simp [nextPhase, wrapperStep, orchestrateStep, read, flag]
          | some removed => simp [nextPhase, wrapperStep, orchestrateStep, read, flag]

/-- The task is in the bootstrap loop as long as no iteration found the node a member. -/
theorem finalState_isBootstrap_iff {config : Config} {myHasData : Bool} {polls : List Poll} :
    (∃ state, finalState (nextPhase config myHasData) .start polls = .bootstrap state) ↔
      ∀ poll ∈ polls, ¬ FoundMember poll := by
  induction polls using List.reverseRecOn with
  | nil => simp [Phase.start]
  | append_singleton before last ih =>
      rw [finalState_append, finalState_cons, finalState_nil, nextPhase_isBootstrap_iff, ih]
      simp [or_imp, forall_and]

/-! ### Adding itself again -/

theorem addSelfThroughPrimary_addSelf {config : Config} {primaryHost : String} {myHasData : Bool}
    {connection : PrimaryConnection} {current next : Document}
    (read : connection.rsConfig = .ok current)
    (unnamed : ∀ host ∈ configMemberHosts current, eqIgnoreAsciiCase host config.nodeId = false)
    (built : configWithMemberAdded current config.nodeId = .ok next) :
    .addSelf primaryHost next ∈ (addSelfThroughPrimary config primaryHost myHasData connection).2 := by
  have absent : ((configMemberHosts current).any fun host =>
      eqIgnoreAsciiCase host config.nodeId) = false := by
    rw [List.any_eq_false]
    intro host member
    simp [unnamed host member]
  simp [addSelfThroughPrimary, read, absent, built]

/-- An iteration that finds the node removed, or not a member of its own config, while the primary's
    config does not name it: the reconfig through that primary is submitted exactly when no earlier
    iteration found the node a member, the answers report this primary first, and its config can be read
    and extended. -/
theorem removed_readds_iff {config : Config} {myHasData : Bool} {before : List Poll} {poll : Poll}
    {status : RsStatus} {primary : String} (own : poll.status = .ok status)
    (removed : removedFlag status = some true)
    (unnamed : ∀ current, (poll.primary primary).rsConfig = .ok current →
      ∀ host ∈ configMemberHosts current, eqIgnoreAsciiCase host config.nodeId = false) :
    (∃ next, .addSelf primary next ∈ (pollReport config myHasData
        (finalState (nextPhase config myHasData) .start before, poll)).commands) ↔
      (∀ earlier ∈ before, ¬ FoundMember earlier) ∧
        firstReportedPrimary config poll = some primary ∧
        ∃ current next, (poll.primary primary).rsConfig = .ok current ∧
          configWithMemberAdded current config.nodeId = .ok next := by
  rw [← @finalState_isBootstrap_iff config myHasData]
  generalize finalState (nextPhase config myHasData) .start before = phase
  cases phase with
  | duties state =>
      rw [pollReport_duties]
      constructor
      · intro issued
        obtain ⟨next, issued⟩ := issued
        rcases mem_dutiesStep issued with told | pruned
        · obtain ⟨event, impossible⟩ := told
          cases impossible
        · obtain ⟨host, config, impossible⟩ := pruned
          cases impossible
      · intro facts
        obtain ⟨⟨state, impossible⟩, -⟩ := facts
        cases impossible
  | bootstrap state =>
      have step : pollReport config myHasData (.bootstrap state, poll) =
          { verdict := some (roundVerdict config myHasData state.gone poll)
            commands := (actOnVerdict config myHasData true
              { state with gone := (surveyRound config state.gone poll).gone } poll
              (roundVerdict config myHasData state.gone poll)).2 } := by
        simp only [pollReport_bootstrap, orchestrateStep, own, removed]
      rw [step, ← @roundVerdict_eq_joinExisting_some_iff config myHasData state.gone]
      constructor
      · intro issued
        obtain ⟨next, issued⟩ := issued
        refine ⟨⟨state, rfl⟩, ?_⟩
        rcases mem_actOnVerdict issued with told | added | initiated
        · obtain ⟨event, impossible⟩ := told
          cases impossible
        · obtain ⟨joined, document, verdict, same⟩ := added
          cases same
          rw [verdict] at issued
          rcases mem_addSelfThroughPrimary issued with told | submitted
          · obtain ⟨event, impossible⟩ := told
            cases impossible
          · obtain ⟨current, built, read, extends_, same⟩ := submitted
            exact ⟨verdict, current, built, read, extends_⟩
        · cases initiated.2
      · intro facts
        obtain ⟨-, joins, current, next, read, built⟩ := facts
        rw [joins]
        exact ⟨next, addSelfThroughPrimary_addSelf read (unnamed current read) built⟩

/-! ### A member that was removed while its process ran -/

def rejoiningNode : Config := configWithSeeds "mongo-2" (some "mongo-1:27017,mongo-2:27017")

/-- The set's config once this node was pruned from it. -/
def prunedConfig : Document :=
  [("_id", .string "rs0"), ("version", .int32 4),
   ("members", .array [.document [("_id", .int32 0), ("host", .string "mongo-1:27017")]])]

def primaryState : RsState :=
  { nodeId := "mongo-1:27017"
    setActive := true
    setName := some "rs0"
    myState := some "PRIMARY"
    isPrimary := true
    primaryHost := some "mongo-1:27017"
    members := ["mongo-1:27017"]
    membersTotal := 1
    membersHealthy := 1
    votingMembers := some 1
    hasData := true
    configVersion := some 4
    oplogWindowSeconds := none }

/-- An iteration with the given own status, in which the only peer reports the set and its primary. -/
def primaryReportedPoll (now : Instant) (status : RsStatus) : Poll :=
  { Poll.quiet now with
    status := .ok status
    task := fun _ => .answered (.state primaryState)
    primary := fun _ => { rsConfig := .ok prunedConfig, reconfig := .ok () } }

theorem prunedConfig_unnamed : ∀ host ∈ configMemberHosts prunedConfig,
    eqIgnoreAsciiCase host rejoiningNode.nodeId = false := by
  decide

theorem primaryReportedPoll_first (now : Instant) (status : RsStatus) :
    firstReportedPrimary rejoiningNode (primaryReportedPoll now status) =
      some "mongo-1:27017" := by
  have peers : rejoiningNode.peerHosts = ["mongo-1"] := by decide
  simp [firstReportedPrimary, peers, queryPeers, primaryReportedPoll, standingOf, primaryState,
    PeerStanding.knownPrimary]

/-- A node whose first poll already finds that its config does not list it adds itself. -/
theorem removed_readds_at_boot :
    ∃ next, .addSelf "mongo-1:27017" next ∈ (pollReport rejoiningNode true
      (finalState (nextPhase rejoiningNode true) .start [],
        primaryReportedPoll 0 .notAMember)).commands := by
  have unnamed : ∀ current,
      ((primaryReportedPoll 0 .notAMember).primary "mongo-1:27017").rsConfig = .ok current →
      ∀ host ∈ configMemberHosts current, eqIgnoreAsciiCase host rejoiningNode.nodeId = false := by
    intro current read
    cases read
    exact prunedConfig_unnamed
  apply (removed_readds_iff rfl rfl unnamed).2
  refine ⟨?_, primaryReportedPoll_first 0 _, prunedConfig, _, rfl, rfl⟩
  intro earlier member
  cases member

/-- A node that was a healthy secondary one poll ago does not add itself when it is removed, although
    the primary's config can be read, does not name it and can be extended. -/
theorem removed_after_membership_not_readded :
    (∃ next, configWithMemberAdded prunedConfig rejoiningNode.nodeId = .ok next) ∧
      ¬ ∃ next, .addSelf "mongo-1:27017" next ∈ (pollReport rejoiningNode true
        (finalState (nextPhase rejoiningNode true) .start
          [primaryReportedPoll 0 (.active "rs0" 2 "SECONDARY" [] none)],
          primaryReportedPoll 3000000000 .notAMember)).commands := by
  refine ⟨⟨_, rfl⟩, ?_⟩
  intro issued
  obtain ⟨next, issued⟩ := issued
  have duties : finalState (nextPhase rejoiningNode true) .start
      [primaryReportedPoll 0 (.active "rs0" 2 "SECONDARY" [] none)] = .duties .new := rfl
  rw [duties, pollReport_duties] at issued
  rcases mem_dutiesStep issued with told | pruned
  · obtain ⟨event, impossible⟩ := told
    cases impossible
  · obtain ⟨host, config, impossible⟩ := pruned
    cases impossible

end MongoHa
