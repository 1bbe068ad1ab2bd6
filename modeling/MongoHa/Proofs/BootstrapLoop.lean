/-
Module: MongoHa.Proofs.BootstrapLoop
Layer: Proofs
Purpose: When the bootstrap loop issues `rs_initiate`. `pollReport_initiates_iff` reads one iteration
  back: own status, verdict and dwell. `stableClock_nextPhase` shows that `stable_since` is a held-since
  clock whose event each exit of the loop body decides, so over a run the verdict held through the dwell.
Imports: MongoHa.Proofs.Commands
Trusted boundary: none (fully proved)
Main exports: actOnVerdict_initiates_iff, pollReport_initiates_iff, stableClock_nextPhase,
  initiate_held_through_dwell
Open obligations: none
-/
import MongoHa.Proofs.Commands

namespace MongoHa

open Foundations
open Foundations.HeldSince

/-! ### One iteration -/

theorem isInitiate_of_isSend {command : Command} (told : command.IsSend) :
    command.isInitiate = false := by
  obtain ⟨event, rfl⟩ := told
  rfl

theorem addSelfThroughPrimary_not_initiate (config : Config) (primaryHost : String)
    (myHasData : Bool) (connection : PrimaryConnection) :
    (addSelfThroughPrimary config primaryHost myHasData connection).2.any Command.isInitiate =
      false := by
  rw [List.any_eq_false]
  intro command issued
  rcases mem_addSelfThroughPrimary issued with told | added
  · simp [isInitiate_of_isSend told]
  · obtain ⟨current, next, -, -, rfl⟩ := added
    exact Bool.false_ne_true

/-- Member duties never initiate a set. -/
theorem dutiesStep_not_initiates (config : Config) (state : DutiesState) (poll : Poll) :
    (dutiesStep config state poll).2.initiates = false := by
  rw [Report.initiates, List.any_eq_false]
  intro command issued
  rcases mem_dutiesStep issued with told | removed
  · simp [isInitiate_of_isSend told]
  · obtain ⟨host, next, rfl⟩ := removed
    exact Bool.false_ne_true

/-- A poll initiates exactly on a safe verdict, outside a removed member, once the dwell is over. -/
theorem actOnVerdict_initiates_iff {config : Config} {myHasData removed : Bool}
    {state : OrchestrateState} {poll : Poll} {verdict : Verdict} :
    (actOnVerdict config myHasData removed state poll verdict).2.any Command.isInitiate = true ↔
      verdict = .safeToInitiate ∧ removed = false ∧
        config.bootstrapDwell ≤ poll.now - state.stableSince.getD poll.now := by
  cases verdict with
  | joinExisting primaryHost =>
      cases primaryHost with
      | none => simp [actOnVerdict]
      | some primary =>
          have silent := addSelfThroughPrimary_not_initiate config primary (myHasData && !removed)
            (poll.primary primary)
          simp only [actOnVerdict, silent]
          simp
  | safeToInitiate =>
      cases removed with
      | true => simp [actOnVerdict]
      | false =>
          by_cases waiting :
              Instant.durationSince poll.now (state.stableSince.getD poll.now) <
                config.bootstrapDwell
          · have short : ¬ config.bootstrapDwell ≤ poll.now - state.stableSince.getD poll.now :=
              not_le_of_gt waiting
            simp [actOnVerdict, waiting, short]
          · have held : config.bootstrapDwell ≤ poll.now - state.stableSince.getD poll.now :=
              not_lt.1 waiting
            simp [actOnVerdict, waiting, held, Command.isInitiate]
  | deferTo host => simp [actOnVerdict]
  | undecidable => simp [actOnVerdict]

/-- An iteration that completes its peer round acts on the verdict of that round. -/
theorem orchestrateStep_round {config : Config} {myHasData removed : Bool}
    {state : OrchestrateState} {poll : Poll} {status : RsStatus} (read : poll.status = .ok status)
    (notMember : removedFlag status = some removed) :
    orchestrateStep config myHasData state poll =
      let action := actOnVerdict config myHasData removed
        { state with gone := (surveyRound config state.gone poll).gone } poll
        (roundVerdict config myHasData state.gone poll)
      (some action.1,
        { verdict := some (roundVerdict config myHasData state.gone poll)
          commands := action.2 }) := by
  simp only [orchestrateStep, read, notMember]

theorem removedFlag_eq_false_iff {status : RsStatus} :
    removedFlag status = some false ↔ status = .notInitialized := by
  cases status with
  | notInitialized => simp [removedFlag]
  | notAMember => simp [removedFlag]
  | active setName myState myStateStr members votingMembers => simp [removedFlag]

theorem orchestrateStep_initiates_iff {config : Config} {myHasData : Bool}
    {state : OrchestrateState} {poll : Poll} :
    (orchestrateStep config myHasData state poll).2.initiates = true ↔
      poll.status = .ok .notInitialized ∧
        roundVerdict config myHasData state.gone poll = .safeToInitiate ∧
        config.bootstrapDwell ≤ poll.now - state.stableSince.getD poll.now := by
  cases read : poll.status with
  | error failure => simp [orchestrateStep, read, Report.initiates]
  | ok status =>
      cases flag : removedFlag status with
      | none =>
          have member : status ≠ .notInitialized := by
            rintro rfl
            cases flag
          simp [orchestrateStep, read, flag, Report.initiates, member]
      | some removed =>
          rw [orchestrateStep_round read flag]
          simp only [Report.initiates, actOnVerdict_initiates_iff]
          constructor
          · intro acted
            obtain ⟨safe, notRemoved, held⟩ := acted
            rw [notRemoved, removedFlag_eq_false_iff] at flag
            exact ⟨by rw [flag], safe, held⟩
          · intro facts
            obtain ⟨same, safe, held⟩ := facts
            injection same with same
            have notRemoved := removedFlag_eq_false_iff.2 same
            rw [flag] at notRemoved
            injection notRemoved with notRemoved
            exact ⟨safe, notRemoved, held⟩

/-- The iterations that issue `rs_initiate`. -/
theorem pollReport_initiates_iff {config : Config} {myHasData : Bool} {entry : Phase × Poll} :
    (pollReport config myHasData entry).initiates = true ↔
      ∃ state, entry.1 = .bootstrap state ∧ entry.2.status = .ok .notInitialized ∧
        roundVerdict config myHasData state.gone entry.2 = .safeToInitiate ∧
        config.bootstrapDwell ≤ entry.2.now - state.stableSince.getD entry.2.now := by
  obtain ⟨phase, poll⟩ := entry
  cases phase with
  | bootstrap state =>
      rw [pollReport_bootstrap, orchestrateStep_initiates_iff]
      constructor
      · intro facts
        exact ⟨state, rfl, facts⟩
      · intro facts
        obtain ⟨same, phaseEq, facts⟩ := facts
        injection phaseEq with stateEq
        rw [stateEq]
        exact facts
  | duties state =>
      have never : (pollReport config myHasData (.duties state, poll)).initiates = false :=
        dutiesStep_not_initiates config state poll
      simp [never]

/-! ### The dwell clock -/

/-- `stable_since`, in the phase that has it. -/
def stableClock : Phase → Option Instant
  | .bootstrap state => state.stableSince
  | .duties _ => none

/-- What an iteration tells the dwell clock. -/
def stableEvent (config : Config) (myHasData : Bool) (phase : Phase) (poll : Poll) :
    Event Instant :=
  match phase with
  | .duties _ => .reset
  | .bootstrap state =>
      match poll.status with
      | .error _ => .keep
      | .ok status =>
          match removedFlag status with
          | none => .reset
          | some removed =>
              if roundVerdict config myHasData state.gone poll ≠ .safeToInitiate then .reset
              else if removed then .keep
              else if config.bootstrapDwell ≤ poll.now - state.stableSince.getD poll.now then .reset
              else .hold poll.now

theorem actOnVerdict_stableSince_safe {config : Config} {myHasData removed : Bool}
    {state : OrchestrateState} {poll : Poll} :
    (actOnVerdict config myHasData removed state poll .safeToInitiate).1.stableSince =
      advance state.stableSince
        (if removed then .keep
        else if config.bootstrapDwell ≤ poll.now - state.stableSince.getD poll.now then .reset
        else .hold poll.now) := by
  cases removed with
  | true => simp [actOnVerdict]
  | false =>
      by_cases waiting : Instant.durationSince poll.now (state.stableSince.getD poll.now) <
          config.bootstrapDwell
      · have short : ¬ config.bootstrapDwell ≤ poll.now - state.stableSince.getD poll.now :=
          not_le_of_gt waiting
        have next : (actOnVerdict config myHasData false state poll .safeToInitiate).1.stableSince =
            some (state.stableSince.getD poll.now) := by
          simp [actOnVerdict, waiting]
        rw [next, if_neg Bool.false_ne_true, if_neg short]
        cases state.stableSince with
        | none => rfl
        | some since => rfl
      · have held : config.bootstrapDwell ≤ poll.now - state.stableSince.getD poll.now :=
          not_lt.1 waiting
        simp [actOnVerdict, waiting, held]

theorem actOnVerdict_stableSince_of_ne {config : Config} {myHasData removed : Bool}
    {state : OrchestrateState} {poll : Poll} {verdict : Verdict} (other : verdict ≠ .safeToInitiate) :
    (actOnVerdict config myHasData removed state poll verdict).1.stableSince = none := by
  cases verdict with
  | joinExisting primaryHost => cases primaryHost <;> rfl
  | safeToInitiate => exact absurd rfl other
  | deferTo host => rfl
  | undecidable => rfl

/-- Every exit of the loop body moves `stable_since` by exactly its event. -/
theorem stableClock_nextPhase (config : Config) (myHasData : Bool) (phase : Phase) (poll : Poll) :
    stableClock (nextPhase config myHasData phase poll) =
      advance (stableClock phase) (stableEvent config myHasData phase poll) := by
  cases phase with
  | duties state => simp [nextPhase, wrapperStep, stableClock, stableEvent]
  | bootstrap state =>
      cases read : poll.status with
      | error failure =>
          simp [nextPhase, wrapperStep, orchestrateStep, stableClock, stableEvent, read]
      | ok status =>
          cases flag : removedFlag status with
          | none =>
              simp [nextPhase, wrapperStep, orchestrateStep, stableClock, stableEvent, read, flag,
                DutiesState.new]
          | some removed =>
              simp only [nextPhase, wrapperStep, orchestrateStep_round read flag, stableClock,
                stableEvent, read, flag]
              by_cases safe : roundVerdict config myHasData state.gone poll = .safeToInitiate
              · rw [safe, actOnVerdict_stableSince_safe, if_neg (not_not.2 rfl)]
              · rw [actOnVerdict_stableSince_of_ne safe, if_pos safe, advance_reset]

theorem stableEvent_hold {config : Config} {myHasData : Bool} {phase : Phase} {poll : Poll}
    {t : Instant} (event : stableEvent config myHasData phase poll = .hold t) : poll.now = t := by
  unfold stableEvent at event
  split at event
  · cases event
  · split at event
    · cases event
    · split at event
      · cases event
      · split at event
        · cases event
        · split at event
          · cases event
          · split at event
            · cases event
            · injection event

/-- An iteration that does not reset the clock judged the round safe, if it judged one, and did not
    initiate. -/
theorem safe_of_stableEvent_ne_reset {config : Config} {myHasData : Bool} {entry : Phase × Poll}
    (kept : stableEvent config myHasData entry.1 entry.2 ≠ .reset) :
    (∀ verdict, (pollReport config myHasData entry).verdict = some verdict →
        verdict = .safeToInitiate) ∧
      (pollReport config myHasData entry).initiates = false := by
  obtain ⟨phase, poll⟩ := entry
  cases phase with
  | duties state => exact absurd rfl kept
  | bootstrap state =>
      constructor
      · intro verdict reported
        rw [pollReport_bootstrap] at reported
        cases read : poll.status with
        | error failure => simp [orchestrateStep, read] at reported
        | ok status =>
            cases flag : removedFlag status with
            | none => simp [orchestrateStep, read, flag] at reported
            | some removed =>
                rw [orchestrateStep_round read flag] at reported
                injection reported with same
                by_contra unsafeVerdict
                rw [← same] at unsafeVerdict
                simp [stableEvent, read, flag, unsafeVerdict] at kept
      · rw [← Bool.not_eq_true, pollReport_initiates_iff]
        intro initiated
        obtain ⟨same, phaseEq, read, safe, held⟩ := initiated
        injection phaseEq with stateEq
        subst stateEq
        dsimp only at read safe held
        simp [stableEvent, read, removedFlag, safe, held] at kept

/-! ### The run -/

/-- Whenever `rs_initiate` is issued, this iteration read that the node holds no config, and some
    iteration at least the dwell ago began a stretch in which every completed peer round was safe and
    nothing was initiated. -/
theorem initiate_held_through_dwell {config : Config} {myHasData : Bool} {polls : List Poll}
    (timed : Timed polls) {entry : Phase × Poll}
    (member : entry ∈ wrapperTrace config myHasData polls)
    (issued : (pollReport config myHasData entry).initiates = true) :
    entry.2.status = .ok .notInitialized ∧
      ∃ first ∈ wrapperTrace config myHasData polls,
        first.2.now + config.bootstrapDwell ≤ entry.2.now ∧
        ∀ between ∈ wrapperTrace config myHasData polls,
          first.2.now ≤ between.2.now → between.2.now ≤ entry.2.now →
            (∀ verdict, (pollReport config myHasData between).verdict = some verdict →
              verdict = .safeToInitiate) ∧
            (between.2.now < entry.2.now →
              (pollReport config myHasData between).initiates = false) := by
  obtain ⟨state, phase, read, safe, waited⟩ := pollReport_initiates_iff.1 issued
  refine ⟨read, ?_⟩
  have verdictNow : ∀ verdict, (pollReport config myHasData entry).verdict = some verdict →
      verdict = .safeToInitiate := by
    intro verdict reported
    obtain ⟨entryPhase, poll⟩ := entry
    dsimp only at phase read safe
    subst phase
    rw [pollReport_bootstrap, orchestrateStep_round read rfl] at reported
    injection reported with same
    rw [← same, safe]
  cases running : state.stableSince with
  | none =>
      -- The clock was stopped, so the dwell is zero and this iteration is the whole stretch.
      rw [running, Option.getD_none] at waited
      refine ⟨entry, member, Nat.add_le_of_le_sub' le_rfl waited, ?_⟩
      intro between betweenMember notBefore notAfter
      obtain rfl : between = entry :=
        trace_eq_of_time_eq timed betweenMember member (le_antisymm notAfter notBefore)
      exact ⟨verdictNow, fun earlier => absurd earlier (lt_irrefl _)⟩
  | some since =>
      rw [running, Option.getD_some] at waited
      have clock : stableClock entry.1 = some since := by rw [phase, ← running]; rfl
      have advances : ∀ phase poll, stableClock (nextPhase config myHasData phase poll) =
          [stableEvent config myHasData phase poll].foldl advance (stableClock phase) :=
        stableClock_nextPhase config myHasData
      have stamped : ∀ phase poll t, .hold t ∈ [stableEvent config myHasData phase poll] →
          Poll.now poll = t := by
        intro phase poll t event
        exact stableEvent_hold (List.mem_singleton.1 event).symm
      obtain ⟨first, firstMember, firstTime, started, held⟩ :=
        heldSince_from advances stamped rfl timed member clock
      have dwelt : first.2.now + config.bootstrapDwell ≤ entry.2.now := by
        rw [firstTime]
        exact Nat.add_le_of_le_sub' started.le waited
      refine ⟨first, firstMember, dwelt, ?_⟩
      intro between betweenMember notBefore notAfter
      rw [firstTime] at notBefore
      rcases notAfter.lt_or_eq with earlier | atEnd
      · have kept : stableEvent config myHasData between.1 between.2 ≠ .reset := by
          intro reset
          rcases held between betweenMember notBefore earlier with set | unbroken
          · rw [reset] at set
            cases List.mem_singleton.1 set
          · exact unbroken (List.mem_singleton.2 reset.symm)
        exact ⟨(safe_of_stableEvent_ne_reset kept).1, fun _ => (safe_of_stableEvent_ne_reset kept).2⟩
      · obtain rfl : between = entry := trace_eq_of_time_eq timed betweenMember member atEnd
        exact ⟨verdictNow, fun same => absurd same (lt_irrefl _)⟩

/-- A node that is its own only seed initiates in its second round, 20 seconds after the first. -/
theorem initiate_held_through_dwell_alone :
    let config := configWithSeeds "mongo-1" (some "mongo-1:27017")
    let polls := [Poll.quiet 0, Poll.quiet 20000000000]
    let entry : Phase × Poll :=
      (.bootstrap { gone := .new, stableSince := some 0 }, Poll.quiet 20000000000)
    (pollReport config false entry).initiates = true ∧
      ∃ first ∈ wrapperTrace config false polls,
        first.2.now + config.bootstrapDwell ≤ entry.2.now ∧
        ∀ between ∈ wrapperTrace config false polls,
          first.2.now ≤ between.2.now → between.2.now ≤ entry.2.now →
            (∀ verdict, (pollReport config false between).verdict = some verdict →
              verdict = .safeToInitiate) ∧
            (between.2.now < entry.2.now →
              (pollReport config false between).initiates = false) := by
  intro config polls entry
  have noPeers : config.peerHosts = [] := by decide
  have safe : ∀ gone now, roundVerdict config false gone (Poll.quiet now) = .safeToInitiate := by
    intro gone now
    simp [roundVerdict, surveyRound, noPeers, queryPeers, probeAnswers, surveyPeers, Rs.decide]
  have issued : (pollReport config false entry).initiates = true :=
    pollReport_initiates_iff.2 ⟨_, rfl, rfl, safe _ _, by decide⟩
  have member : entry ∈ wrapperTrace config false polls := by
    have next : nextPhase config false .start (Poll.quiet 0) =
        .bootstrap { gone := .new, stableSince := some 0 } := by
      simp only [nextPhase, wrapperStep, Phase.start,
        @orchestrateStep_round config false false .new (Poll.quiet 0) _ rfl rfl, safe, surveyRound, noPeers]
      rfl
    simp [wrapperTrace, polls, next, entry]
  have timed : Timed polls := by simp [Timed, HeldSince.Timed, polls, Poll.quiet]
  exact ⟨issued, (initiate_held_through_dwell timed member issued).2⟩

end MongoHa
