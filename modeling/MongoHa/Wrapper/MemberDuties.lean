/-
Module: MongoHa.Wrapper.MemberDuties
Layer: Wrapper
Purpose: The replication health round of `rs.rs`, with the loop of `member_duties` around it. A round reads
  the status, the primary's oplog window and its fill, each of which may fail; it advances the clocks of the
  members' states, derives the signals, and alerts of each key that the last round that read a status did
  not derive. The fill is an exact rational here. Log lines are left out.
Imports: MongoHa.Wrapper.Orchestrate, MongoHa.Wrapper.ReplicationMonitor
Trusted boundary: human-reviewed spec
Main exports: HealthReads, HealthState, observeMembers, roundSignals, alertOf, replicationHealthRound,
  replicationHealthRound_of_active, replicationHealthRound_of_unread, Iteration, MemberDutiesState,
  memberDutiesStep
Open obligations: none
-/
import MongoHa.Wrapper.Orchestrate
import MongoHa.Wrapper.ReplicationMonitor

namespace MongoHa

def oplogSizeBoundedFill : Rat := 9 / 10

/-- What one replication health round reads. -/
structure HealthReads where
  status : MongoResult RsStatus
  oplogWindow : MongoResult (Option Duration)
  oplogFill : MongoResult (Option Rat)
  now : Instant

/-- What `member_duties` keeps between its replication health rounds. -/
structure HealthState where
  memberStates : MemberStateTracker
  alerted : Finset String

def HealthState.new : HealthState := { memberStates := .new, alerted := ∅ }

namespace HealthReads

/-- The rows of the status, when the read found an active one. -/
def members (reads : HealthReads) : Option (List RsMember) :=
  match reads.status with
  | .ok (.active _ _ _ members _) => some members
  | _ => none

/-- A window that could not be read is unknown. -/
def window (reads : HealthReads) : Option Duration :=
  match reads.oplogWindow with
  | .ok window => window
  | .error _ => none

/-- A fill that could not be read is unknown. -/
def fill (reads : HealthReads) : Option Rat :=
  match reads.oplogFill with
  | .ok fill => fill
  | .error _ => none

/-- An unknown fill reads as not size-bounded. -/
def sizeBounded (reads : HealthReads) : Bool :=
  reads.fill.any fun filled => decide (oplogSizeBoundedFill ≤ filled)

end HealthReads

/-- Each row with its dwell, the clocks advanced row by row. -/
def observeMembers (now : Instant) :
    MemberStateTracker → List RsMember → MemberStateTracker × List MemberObservation
  | tracker, [] => (tracker, [])
  | tracker, m :: rest =>
      let (observed, dwell) := tracker.observe m.host m.stateStr now
      let (final, observations) := observeMembers now observed rest
      (final,
        { host := m.host
          stateStr := m.stateStr
          optimeSecs := m.optimeSecs
          isSelf := m.isSelf
          healthy := m.healthy
          dwell := dwell } :: observations)

/-- The optime of the first row in state PRIMARY. -/
def primaryOptime (members : List RsMember) : Option UInt32 :=
  (members.find? fun m => m.state == States.primary).bind RsMember.optimeSecs

/-- The signals of a round whose status lists these members. -/
def roundSignals (tracker : MemberStateTracker) (reads : HealthReads) (members : List RsMember) :
    List ReplicationSignal :=
  deriveSignals reads.window reads.sizeBounded (primaryOptime members)
    (observeMembers reads.now tracker members).2

/-- The event that reports a signal. -/
def alertOf (signal : ReplicationSignal) : TelemetryEvent :=
  .componentError "mongo-wrapper" signal.message signal.context

/-- The loop over the signals: the keys alerted of after it, and the signals that were sent. -/
def alertSignals : Finset String → List ReplicationSignal → Finset String × List ReplicationSignal
  | alerted, [] => (alerted, [])
  | alerted, signal :: rest =>
      if signal.dedupeKey ∈ alerted then alertSignals alerted rest
      else
        let (after, sent) := alertSignals (insert signal.dedupeKey alerted) rest
        (after, signal :: sent)

/-- One round: the state after it, and the signals it alerts of, each by its `alertOf`. -/
def replicationHealthRound (state : HealthState) (reads : HealthReads) :
    HealthState × List ReplicationSignal :=
  match reads.members with
  | none => (state, [])
  | some members =>
      let observed := (observeMembers reads.now state.memberStates members).1
      let signals := roundSignals state.memberStates reads members
      let stillActive := (signals.map ReplicationSignal.dedupeKey).toFinset
      let (alerted, sent) := alertSignals state.alerted signals
      ({ memberStates := observed.retainKnown (members.map RsMember.host)
         alerted := alerted.filter fun key => key ∈ stillActive }, sent)

/-! ### What a round alerts of -/

theorem alertSignals_fst (alerted : Finset String) (signals : List ReplicationSignal) :
    (alertSignals alerted signals).1 =
      alerted ∪ (signals.map ReplicationSignal.dedupeKey).toFinset := by
  induction signals generalizing alerted with
  | nil => simp [alertSignals]
  | cons signal rest ih =>
      rw [alertSignals, List.map_cons, List.toFinset_cons]
      split
      · rename_i known
        rw [ih, Finset.union_insert, Finset.insert_eq_of_mem (Finset.mem_union_left _ known)]
      · rw [ih, Finset.insert_union, Finset.union_insert]

/-- A key that was already alerted of is not sent, and any other key of the signals is sent once. -/
theorem countP_alertSignals (key : String) (alerted : Finset String)
    (signals : List ReplicationSignal) :
    (alertSignals alerted signals).2.countP (fun signal => signal.dedupeKey == key) =
      if key ∉ alerted ∧ key ∈ signals.map ReplicationSignal.dedupeKey then 1 else 0 := by
  induction signals generalizing alerted with
  | nil => simp [alertSignals]
  | cons signal rest ih =>
      rw [alertSignals]
      by_cases same : signal.dedupeKey = key
      · subst same
        split
        · rename_i known
          rw [ih]
          simp [known]
        · rename_i fresh
          rw [List.countP_cons, ih]
          simp [fresh]
      · have other : key ≠ signal.dedupeKey := fun h => same h.symm
        split
        · rw [ih]
          simp [other]
        · rw [List.countP_cons, ih]
          simp [other, same, Finset.mem_insert]

/-- A round without an active status leaves everything as it is. -/
theorem replicationHealthRound_of_unread {state : HealthState} {reads : HealthReads}
    (unread : reads.members = none) : replicationHealthRound state reads = (state, []) := by
  rw [replicationHealthRound, unread]

/-- A round with an active status keeps the keys it derived, and no other. -/
theorem replicationHealthRound_of_active {state : HealthState} {reads : HealthReads}
    {members : List RsMember} (active : reads.members = some members) :
    (replicationHealthRound state reads).1.memberStates =
        ((observeMembers reads.now state.memberStates members).1).retainKnown
          (members.map RsMember.host) ∧
      (replicationHealthRound state reads).1.alerted =
        ((roundSignals state.memberStates reads members).map
          ReplicationSignal.dedupeKey).toFinset ∧
      (replicationHealthRound state reads).2 =
        (alertSignals state.alerted (roundSignals state.memberStates reads members)).2 := by
  rw [replicationHealthRound, active]
  refine ⟨rfl, ?_, rfl⟩
  dsimp only
  rw [alertSignals_fst, Finset.filter_mem_eq_inter]
  exact Finset.inter_eq_right.2 Finset.subset_union_right

/-! ### The loop around the round -/

/-- Every reply of the environment in one iteration of `member_duties`. -/
structure Iteration where
  poll : Poll
  reads : HealthReads

namespace Iteration

/-- The time of an iteration is the one its replication health round has. -/
def time (iteration : Iteration) : Instant := iteration.reads.now

/-- Whether the iteration finds this node primary. -/
def isPrimary (iteration : Iteration) : Bool :=
  match iteration.poll.hello with
  | .ok hello => hello.isWritablePrimary
  | .error _ => false

end Iteration

/-- What `member_duties` keeps between its polls. -/
structure MemberDutiesState where
  duties : DutiesState
  health : HealthState

def MemberDutiesState.new : MemberDutiesState := { duties := .new, health := .new }

/-- One iteration of `member_duties`: role telemetry and the prune round, then the replication health
    round on a primary. -/
def memberDutiesStep (config : Config) (state : MemberDutiesState) (iteration : Iteration) :
    MemberDutiesState × Report :=
  let (duties, report) := dutiesStep config state.duties iteration.poll
  if iteration.isPrimary then
    let (health, sent) := replicationHealthRound state.health iteration.reads
    ({ duties := duties, health := health },
      { report with commands := report.commands ++ sent.map fun signal => .send (alertOf signal) })
  else ({ state with duties := duties }, report)

end MongoHa
