/-
Module: MongoHa.Proofs.StuckAlerts
Layer: Proofs
Purpose: What a stuck-member signal proves about the dwell before it. The clock of a member's state is a
  held-since clock over the loop of member duties: a replication health round holds or resets it row by
  row and resets it when the member is not listed, and every iteration without such a round leaves it
  running. The dwell is therefore an observed stall exactly when every iteration of it had a round
  (`stuck_signal_observed_iff`).
Imports: MongoHa.Proofs.SignalDerivation, MongoHa.Wrapper.MemberDuties
Trusted boundary: none (fully proved)
Main exports: stateClock, stateEvents, dutiesClock_step, ReadAsPrimary, ListedAsPrimary, dutiesTrace,
  derivedSignals, stuck_signal_observed_iff
Open obligations: none
-/
import MongoHa.Proofs.SignalDerivation
import MongoHa.Wrapper.MemberDuties

namespace MongoHa

open Foundations
open Foundations.HeldSince

/-! ### The clock of one state of one member -/

/-- Since when the tracker has this member in this state. -/
def stateClock (host state : String) (tracker : MemberStateTracker) : Option Instant :=
  match tracker.since host with
  | some (held, since) => if held = state then some since else none
  | none => none

/-- What one row tells the clock. -/
def observedEvents (now : Instant) (host state : String) (m : RsMember) : List (Event Instant) :=
  if m.host = host then [if m.stateStr = state then .hold now else .reset] else []

/-- Everything the rows of a status tell it, and that the member is not among them. -/
def statusEvents (now : Instant) (host state : String) (members : List RsMember) :
    List (Event Instant) :=
  members.flatMap (observedEvents now host state) ++
    if host ∈ members.map RsMember.host then [] else [.reset]

section

variable {now : Instant} {host state : String}

theorem observe_clock (tracker : MemberStateTracker) (m : RsMember) :
    stateClock host state (tracker.observe m.host m.stateStr now).1 =
      (observedEvents now host state m).foldl advance (stateClock host state tracker) := by
  rw [observedEvents]
  by_cases same : m.host = host
  · subst same
    rw [if_pos rfl, List.foldl_cons, List.foldl_nil, MemberStateTracker.observe]
    cases held : tracker.since m.host with
    | none =>
        by_cases reported : m.stateStr = state
        · simp [stateClock, held, reported]
        · simp [stateClock, held, reported]
    | some entry =>
        obtain ⟨previous, since⟩ := entry
        by_cases kept : previous = m.stateStr
        · subst kept
          by_cases reported : m.stateStr = state
          · simp [stateClock, held, reported]
          · simp [stateClock, held, reported]
        · by_cases reported : m.stateStr = state
          · have other : previous ≠ state := reported ▸ kept
            simp [stateClock, held, reported, other]
          · simp [stateClock, held, kept, reported]
  · have frame : (tracker.observe m.host m.stateStr now).1.since host = tracker.since host := by
      rw [MemberStateTracker.observe]
      split
      · split
        · rfl
        · exact Function.update_of_ne (Ne.symm same) _ _
      · exact Function.update_of_ne (Ne.symm same) _ _
    rw [if_neg same, List.foldl_nil, stateClock, frame, stateClock]

/-- The dwell of a row is what its clock shows. -/
theorem observe_dwell (tracker : MemberStateTracker) :
    (tracker.observe host state now).2 =
      match stateClock host state tracker with
      | some since => Instant.durationSince now since
      | none => 0 := by
  rw [MemberStateTracker.observe, stateClock]
  cases tracker.since host with
  | none => rfl
  | some entry =>
      obtain ⟨previous, since⟩ := entry
      by_cases kept : previous = state
      · simp [kept]
      · simp [kept]

theorem observeMembers_clock (tracker : MemberStateTracker) (members : List RsMember) :
    stateClock host state (observeMembers now tracker members).1 =
      (members.flatMap (observedEvents now host state)).foldl advance
        (stateClock host state tracker) := by
  induction members generalizing tracker with
  | nil => rfl
  | cons m rest ih =>
      rw [observeMembers, List.flatMap_cons, List.foldl_append, ← observe_clock]
      exact ih _

/-- What raises a stuck signal, whatever is known of the oplog. -/
theorem stuck_mem_deriveSignals {oplogWindow : Option Duration} {oplogSizeBounded : Bool}
    {primaryOptimeSecs : Option UInt32} {members : List MemberObservation} {stuckFor : Duration}
    (derived : .stuckInState host state stuckFor ∈
      deriveSignals oplogWindow oplogSizeBounded primaryOptimeSecs members) :
    ∃ m ∈ members, m.host = host ∧ m.stateStr = state ∧ stuckStateDwell ≤ m.dwell := by
  rw [deriveSignals, List.mem_append, List.mem_flatMap] at derived
  rcases derived with low | ⟨m, member, row⟩
  · split at low
    · split at low
      · cases List.mem_singleton.1 low
      · cases low
    · cases low
  · obtain ⟨-, ⟨-, dwelt, same⟩ | ⟨window, primarySecs, memberSecs, -, -, -, -, -, -, other⟩⟩ :=
      mem_memberSignals.1 row
    · injection same with sameHost sameState
      exact ⟨m, member, sameHost.symm, sameState.symm, dwelt⟩
    · cases other

/-- Each observation is a row, with the dwell its clock shows after the rows before it. -/
theorem mem_observeMembers {tracker : MemberStateTracker} {members : List RsMember}
    {observation : MemberObservation} (member : observation ∈ (observeMembers now tracker members).2) :
    ∃ before m after, members = before ++ m :: after ∧ observation.host = m.host ∧
      observation.stateStr = m.stateStr ∧
      observation.dwell = ((observeMembers now tracker before).1.observe m.host m.stateStr now).2 := by
  induction members generalizing tracker with
  | nil => cases member
  | cons first rest ih =>
      rw [observeMembers, List.mem_cons] at member
      rcases member with rfl | later
      · exact ⟨[], first, rest, rfl, rfl, rfl, rfl⟩
      · obtain ⟨before, m, after, rfl, sameHost, sameState, dwell⟩ := ih later
        exact ⟨first :: before, m, after, rfl, sameHost, sameState, dwell⟩

theorem retainKnown_clock (tracker : MemberStateTracker) (hosts : List String) :
    stateClock host state (tracker.retainKnown hosts) =
      (if host ∈ hosts then [] else [.reset]).foldl advance (stateClock host state tracker) := by
  by_cases known : host ∈ hosts
  · simp [stateClock, MemberStateTracker.retainKnown, known]
  · simp [stateClock, MemberStateTracker.retainKnown, known]

theorem hold_mem_observedEvents {m : RsMember} {t : Instant}
    (held : .hold t ∈ observedEvents now host state m) :
    now = t ∧ m.host = host ∧ m.stateStr = state := by
  rw [observedEvents] at held
  split at held
  · rename_i same
    rw [List.mem_singleton] at held
    split at held
    · rename_i reported
      cases held
      exact ⟨rfl, same, reported⟩
    · cases held
  · cases held

/-- A status that does not reset the clock lists the member in the state. -/
theorem listed_of_unbroken {members : List RsMember}
    (unbroken : .reset ∉ statusEvents now host state members) :
    ∃ m ∈ members, m.host = host ∧ m.stateStr = state := by
  rw [statusEvents, List.mem_append, not_or, List.mem_flatMap] at unbroken
  obtain ⟨rows, listed⟩ := unbroken
  have known : host ∈ members.map RsMember.host := by
    by_contra missing
    rw [if_neg missing] at listed
    exact listed (List.mem_singleton.2 rfl)
  obtain ⟨m, member, same⟩ := List.mem_map.1 known
  refine ⟨m, member, same, ?_⟩
  by_contra other
  apply rows
  refine ⟨m, member, ?_⟩
  rw [observedEvents, if_pos same, if_neg other]
  exact List.mem_singleton.2 rfl

theorem hold_mem_statusEvents {members : List RsMember} {t : Instant}
    (held : .hold t ∈ statusEvents now host state members) :
    now = t ∧ ∃ m ∈ members, m.host = host ∧ m.stateStr = state := by
  rw [statusEvents, List.mem_append, List.mem_flatMap] at held
  rcases held with ⟨m, member, row⟩ | missing
  · obtain ⟨stamp, same, reported⟩ := hold_mem_observedEvents row
    exact ⟨stamp, m, member, same, reported⟩
  · split at missing
    · cases missing
    · cases List.mem_singleton.1 missing

end

/-! ### The loop of member duties -/

section

variable {config : Config} {host state : String}

/-- Every iteration of a run, with the state that met it. -/
def dutiesTrace (config : Config) (iterations : List Iteration) :
    List (MemberDutiesState × Iteration) :=
  trace (fun state iteration => (memberDutiesStep config state iteration).1) .new iterations

/-- The signals an iteration derives. -/
def derivedSignals (entry : MemberDutiesState × Iteration) : List ReplicationSignal :=
  match entry.2.isPrimary, entry.2.reads.members with
  | true, some members => roundSignals entry.1.health.memberStates entry.2.reads members
  | _, _ => []

/-- The iteration read a status as primary. -/
def ReadAsPrimary (iteration : Iteration) : Prop :=
  iteration.isPrimary = true ∧ iteration.reads.members ≠ none

/-- The iteration read a status as primary in which the member was listed in this state. -/
def ListedAsPrimary (host state : String) (iteration : Iteration) : Prop :=
  iteration.isPrimary = true ∧ ∃ members, iteration.reads.members = some members ∧
    ∃ m ∈ members, m.host = host ∧ m.stateStr = state

def dutiesClock (host state : String) (duties : MemberDutiesState) : Option Instant :=
  stateClock host state duties.health.memberStates

/-- What an iteration tells the clock. -/
def stateEvents (host state : String) (iteration : Iteration) : List (Event Instant) :=
  match iteration.isPrimary, iteration.reads.members with
  | true, some members => statusEvents iteration.time host state members
  | _, _ => []

theorem stateEvents_of_read {iteration : Iteration} {members : List RsMember}
    (primary : iteration.isPrimary = true) (active : iteration.reads.members = some members) :
    stateEvents host state iteration = statusEvents iteration.time host state members := by
  rw [stateEvents, primary, active]

/-- The clock of a member's state after a poll is that of the observations the poll makes of it. -/
theorem dutiesClock_step (duties : MemberDutiesState) (iteration : Iteration) :
    dutiesClock host state (memberDutiesStep config duties iteration).1 =
      (stateEvents host state iteration).foldl advance (dutiesClock host state duties) := by
  rw [dutiesClock, dutiesClock, memberDutiesStep, stateEvents]
  cases primary : iteration.isPrimary with
  | false => rfl
  | true =>
      cases active : iteration.reads.members with
      | none =>
          dsimp only
          rw [if_pos rfl, replicationHealthRound_of_unread active]
          rfl
      | some members =>
          dsimp only
          rw [if_pos rfl, (replicationHealthRound_of_active active).1, retainKnown_clock,
            observeMembers_clock, ← List.foldl_append]
          rfl

theorem listed_of_hold {iteration : Iteration} {t : Instant}
    (held : .hold t ∈ stateEvents host state iteration) :
    iteration.time = t ∧ ListedAsPrimary host state iteration := by
  rw [stateEvents] at held
  split at held
  · rename_i members primary active
    obtain ⟨stamp, listed⟩ := hold_mem_statusEvents held
    exact ⟨stamp, primary, members, active, listed⟩
  · cases held

theorem listed_of_read {iteration : Iteration} (read : ReadAsPrimary iteration)
    (unbroken : .reset ∉ stateEvents host state iteration) : ListedAsPrimary host state iteration := by
  obtain ⟨primary, active⟩ := read
  obtain ⟨members, active⟩ := Option.ne_none_iff_exists'.1 active
  rw [stateEvents_of_read primary active] at unbroken
  exact ⟨primary, members, active, listed_of_unbroken unbroken⟩

/-- A stuck signal comes from a row that was listed in the state, on a clock that ran for the dwell. -/
theorem stuck_of_derived {entry : MemberDutiesState × Iteration} {stuckFor : Duration}
    (derived : .stuckInState host state stuckFor ∈ derivedSignals entry) :
    ListedAsPrimary host state entry.2 ∧
      ∃ since, dutiesClock host state entry.1 = some since ∧
        stuckStateDwell ≤ entry.2.time - since := by
  rw [derivedSignals] at derived
  split at derived
  · rename_i members primary active
    obtain ⟨observation, observed, same, reported, dwelt⟩ := stuck_mem_deriveSignals derived
    obtain ⟨before, m, after, rfl, sameHost, sameState, dwell⟩ := mem_observeMembers observed
    rw [sameHost] at same
    rw [sameState] at reported
    subst same reported
    have member : m ∈ before ++ m :: after := List.mem_append_right _ (List.mem_cons_self ..)
    refine ⟨⟨primary, _, active, m, member, rfl, rfl⟩, ?_⟩
    rw [dwell, observe_dwell, observeMembers_clock] at dwelt
    cases clock : (before.flatMap (observedEvents entry.2.reads.now m.host m.stateStr)).foldl advance
        (stateClock m.host m.stateStr entry.1.health.memberStates) with
    | none =>
        rw [clock] at dwelt
        change stuckStateDwell ≤ 0 at dwelt
        exact absurd dwelt (by decide)
    | some since =>
        rw [clock] at dwelt
        change stuckStateDwell ≤ entry.2.reads.now - since at dwelt
        rcases foldl_advance_eq_some_iff.1 clock with ⟨running, -⟩ | ⟨early, late, split, -, -⟩
        · exact ⟨since, running, dwelt⟩
        · -- A clock that this round's own rows set shows no time at all.
          have set : .hold since ∈
              before.flatMap (observedEvents entry.2.reads.now m.host m.stateStr) := by
            rw [split]
            exact List.mem_append_right _ (List.mem_cons_self ..)
          obtain ⟨row, -, held⟩ := List.mem_flatMap.1 set
          obtain ⟨stamp, -, -⟩ := hold_mem_observedEvents held
          rw [stamp, Nat.sub_self] at dwelt
          exact absurd dwelt (by decide)
  · cases derived

/-- Over every run: the dwell before a stuck signal is an observed stall, in every iteration of it,
    exactly when every iteration of it read a status as primary. -/
theorem stuck_signal_observed_iff {iterations : List Iteration}
    (timed : HeldSince.Timed Iteration.time iterations) {entry : MemberDutiesState × Iteration}
    (member : entry ∈ dutiesTrace config iterations) {stuckFor : Duration}
    (derived : .stuckInState host state stuckFor ∈ derivedSignals entry) :
    (∀ between ∈ dutiesTrace config iterations,
        entry.2.time ≤ between.2.time + stuckStateDwell → between.2.time ≤ entry.2.time →
        ListedAsPrimary host state between.2) ↔
      ∀ between ∈ dutiesTrace config iterations,
        entry.2.time ≤ between.2.time + stuckStateDwell → between.2.time ≤ entry.2.time →
        ReadAsPrimary between.2 := by
  obtain ⟨listedNow, since, clock, dwelt⟩ := stuck_of_derived derived
  constructor
  · intro listed between betweenMember inWindow notAfter
    obtain ⟨primary, members, active, -⟩ := listed between betweenMember inWindow notAfter
    exact ⟨primary, active ▸ Option.some_ne_none members⟩
  · intro read between betweenMember inWindow notAfter
    rcases notAfter.lt_or_eq with earlier | atEnd
    · have advances : ∀ duties iteration,
          dutiesClock host state (memberDutiesStep config duties iteration).1 =
            (stateEvents host state iteration).foldl advance (dutiesClock host state duties) :=
        dutiesClock_step
      have stamped : ∀ (_ : MemberDutiesState) (iteration : Iteration) (t : Instant),
          .hold t ∈ stateEvents host state iteration → iteration.time = t := by
        intro _ iteration t set
        exact (listed_of_hold set).1
      have held := heldSince_dwell advances stamped rfl timed member clock dwelt
      rcases held between betweenMember inWindow earlier with set | unbroken
      · exact (listed_of_hold set).2
      · exact listed_of_read (read between betweenMember inWindow notAfter) unbroken
    · obtain rfl : between = entry := trace_eq_of_time_eq timed betweenMember member atEnd
      exact listedNow

end

/-! ### A primary that steps down in between -/

/-- An iteration of a two-member set that lists the other member in this state. -/
def stalledIteration (isPrimary : Bool) (state : String) (now : Instant) : Iteration where
  poll := { Poll.quiet now with
    hello := .ok { isWritablePrimary := isPrimary, secondary := !isPrimary } }
  reads :=
    { status := .ok (.active "rs0" 1 "PRIMARY"
        [{ id := 0, host := "mongo-1:27017", state := 1, stateStr := "PRIMARY", healthy := true,
           isSelf := true, optimeSecs := none },
         { id := 1, host := "mongo-2:27017", state := 3, stateStr := state, healthy := true,
           isSelf := false, optimeSecs := none }] (some 2))
      oplogWindow := .ok none
      oplogFill := .ok none
      now := now }

def stalledNode : Config := configWithSeeds "mongo-1" (some "mongo-1:27017,mongo-2:27017")

/-- The member is listed as recovering at 0 s and at 900 s, with this iteration in between. -/
def stalledRun (between : Iteration) : List Iteration :=
  [stalledIteration true recovering 0, between, stalledIteration true recovering 900000000000]

def stalledEntry (between : Iteration) : MemberDutiesState × Iteration :=
  (finalState (fun state iteration => (memberDutiesStep stalledNode state iteration).1) .new
      [stalledIteration true recovering 0, between],
    stalledIteration true recovering 900000000000)

theorem stalledEntry_mem (between : Iteration) :
    stalledEntry between ∈ dutiesTrace stalledNode (stalledRun between) :=
  mem_trace_iff.2 ⟨[stalledIteration true recovering 0, between], [], rfl, rfl⟩

theorem stalledRun_timed {isPrimary : Bool} {state : String} :
    HeldSince.Timed Iteration.time (stalledRun (stalledIteration isPrimary state 450000000000)) := by
  simp [HeldSince.Timed, stalledRun, stalledIteration, Iteration.time]

/-- A member that is seen recovering throughout is reported after 900 s of an observed stall. -/
theorem stuck_signal_observed_steady :
    let run := stalledRun (stalledIteration true recovering 450000000000)
    .stuckInState "mongo-2:27017" recovering 900000000000 ∈
        derivedSignals (stalledEntry (stalledIteration true recovering 450000000000)) ∧
      ∀ between ∈ dutiesTrace stalledNode run,
        900000000000 ≤ between.2.time + stuckStateDwell → between.2.time ≤ 900000000000 →
        ListedAsPrimary "mongo-2:27017" recovering between.2 := by
  intro run
  have derived : .stuckInState "mongo-2:27017" recovering 900000000000 ∈
      derivedSignals (stalledEntry (stalledIteration true recovering 450000000000)) := by decide
  refine ⟨derived, (stuck_signal_observed_iff stalledRun_timed (stalledEntry_mem _) derived).2 ?_⟩
  intro between betweenMember _ _
  have input := snd_mem_of_mem_trace betweenMember
  simp only [stalledRun, List.mem_cons, List.not_mem_nil, or_false] at input
  rcases input with input | input | input
  · rw [input]
    exact ⟨rfl, nofun⟩
  · rw [input]
    exact ⟨rfl, nofun⟩
  · rw [input]
    exact ⟨rfl, nofun⟩

/-- The member is back among the secondaries while this node is not primary, and relapses: it is reported
    as stuck for 900 s. -/
theorem stuck_across_step_down :
    ¬ ∀ (config : Config) (iterations : List Iteration) (entry : MemberDutiesState × Iteration)
      (host state : String) (stuckFor : Duration),
      HeldSince.Timed Iteration.time iterations → entry ∈ dutiesTrace config iterations →
      .stuckInState host state stuckFor ∈ derivedSignals entry →
      ∀ between ∈ dutiesTrace config iterations,
        entry.2.time ≤ between.2.time + stuckStateDwell → between.2.time ≤ entry.2.time →
        ListedAsPrimary host state between.2 := by
  intro observed
  have derived : .stuckInState "mongo-2:27017" recovering 900000000000 ∈
      derivedSignals (stalledEntry (stalledIteration false "SECONDARY" 450000000000)) := by decide
  obtain ⟨primary, -⟩ := observed stalledNode _ _ _ _ _ stalledRun_timed (stalledEntry_mem _) derived
    (_, stalledIteration false "SECONDARY" 450000000000)
    (mem_trace_iff.2 ⟨[stalledIteration true recovering 0],
      [stalledIteration true recovering 900000000000], rfl, rfl⟩) (by decide) (by decide)
  cases primary

end MongoHa
