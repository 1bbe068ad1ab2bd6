/-
Module: MongoHa.Proofs.PruneClock
Layer: Proofs
Purpose: What the prune of a member proves about the dwell before it. The clock of a host is a held-since
  clock over the whole task (`goneClock_nextPhase`): a round that reaches the host's row holds or resets
  it, and every iteration that does not look at the host leaves it running. The window before a prune is
  therefore continuous proof exactly when every iteration in it looked (`prune_window_observed_iff`).
Imports: MongoHa.Proofs.Commands
Trusted boundary: none (fully proved)
Main exports: endsRound, roundReaches, pruneEvents, pruneMembers_clock, goneClock_nextPhase, LooksAt,
  ObservedGone, prune_window_observed_iff, prune_across_step_down
Open obligations: none
-/
import MongoHa.Proofs.Commands

namespace MongoHa

open Foundations
open Foundations.HeldSince

/-- A row of the status with the replies about it. -/
abbrev MemberRow := RsMember × MemberReply

/-! ### One prune round, read by host -/

/-- The tracker after one row. -/
def observeRow (now : Instant) (gone : GoneTracker) (row : MemberRow) : GoneTracker :=
  if row.1.isSelf then gone
  else if row.1.healthy then gone.observeReachable row.1.host
  else gone.observe row.1.host row.2.nameVerdict now

/-- Whether the round returns at this row: the row is due for removal, and the config cannot be read or
    the removal is accepted. -/
def endsRound (now : Instant) (dwell : Duration) (gone : GoneTracker) (row : MemberRow) : Bool :=
  !row.1.isSelf && !row.1.healthy && (observeRow now gone row).isWaived row.1.host now dwell &&
    match row.2.rsConfig with
    | .error _ => true
    | .ok current =>
        match configWithMemberRemoved current row.1.host with
        | .error _ => false
        | .ok _ =>
            match row.2.reconfig with
            | .ok () => true
            | .error _ => false

/-- What the round leaves when it returns at this row. -/
def endTracker (now : Instant) (gone : GoneTracker) (row : MemberRow) : GoneTracker :=
  match row.2.rsConfig with
  | .error _ => observeRow now gone row
  | .ok _ => (observeRow now gone row).observeReachable row.1.host

def rowProbes (row : MemberRow) : List (String × NameVerdict) :=
  if row.1.isSelf || row.1.healthy then [] else [(row.1.host, row.2.nameVerdict)]

/-- The commands of one row: its removal, when it is due and a config without it can be built. -/
def rowCommands (now : Instant) (dwell : Duration) (gone : GoneTracker) (row : MemberRow) :
    List Command :=
  if !row.1.isSelf && !row.1.healthy && (observeRow now gone row).isWaived row.1.host now dwell then
    match row.2.rsConfig with
    | .error _ => []
    | .ok current =>
        match configWithMemberRemoved current row.1.host with
        | .error _ => []
        | .ok next =>
            match row.2.reconfig with
            | .ok () => [.removeMember row.1.host next, .send (prunedEvent row.1.host)]
            | .error _ => [.removeMember row.1.host next]
  else []

/-- Whether the round gets to a row of this host other than the node's own. -/
def roundReaches (now : Instant) (dwell : Duration) (host : String) :
    GoneTracker → List MemberRow → Bool
  | _, [] => false
  | gone, row :: rest =>
      (!row.1.isSelf && row.1.host == host) ||
        (!endsRound now dwell gone row && roundReaches now dwell host (observeRow now gone row) rest)

/-- What one row tells the clock of a host. -/
def rowEvents (now : Instant) (host : String) (row : MemberRow) : List (Event Instant) :=
  if row.1.isSelf = false ∧ row.1.host = host then
    [if row.1.healthy then .reset else row.2.nameVerdict.event now]
  else []

/-- What the end of a round at this row tells it: an accepted removal forgets the clock. -/
def endEvents (host : String) (row : MemberRow) : List (Event Instant) :=
  match row.2.rsConfig with
  | .error _ => []
  | .ok _ => if row.1.host = host then [.reset] else []

/-- Everything a round tells the clock of a host. -/
def pruneEvents (now : Instant) (dwell : Duration) (host : String) :
    GoneTracker → List MemberRow → List (Event Instant)
  | _, [] => []
  | gone, row :: rest =>
      rowEvents now host row ++
        if endsRound now dwell gone row then endEvents host row
        else pruneEvents now dwell host (observeRow now gone row) rest

section Round

variable {now : Instant} {dwell : Duration} {host : String}

theorem observeRow_clock (gone : GoneTracker) (row : MemberRow) :
    (observeRow now gone row).goneSince host =
      (rowEvents now host row).foldl advance (gone.goneSince host) := by
  unfold observeRow rowEvents
  by_cases self : row.1.isSelf = true
  · simp [self]
  · by_cases same : row.1.host = host
    · subst same
      by_cases healthy : row.1.healthy = true
      · simp [self, healthy]
      · simp [self, healthy, GoneTracker.observe_self]
    · by_cases healthy : row.1.healthy = true
      · simp [self, healthy, same, gone.observeReachable_of_ne (Ne.symm same)]
      · simp [self, healthy, same, gone.observe_of_ne _ _ (Ne.symm same)]

/-- One row of a round: what it probes and commands, and whether the rows after it are reached. -/
theorem pruneMembers_cons (gone : GoneTracker) (row : MemberRow) (rest : List MemberRow) :
    pruneMembers now dwell gone (row :: rest) =
      let later : PruneRound :=
        if endsRound now dwell gone row then
          { gone := endTracker now gone row, probes := [], commands := [] }
        else pruneMembers now dwell (observeRow now gone row) rest
      { gone := later.gone
        probes := rowProbes row ++ later.probes
        commands := rowCommands now dwell gone row ++ later.commands } := by
  obtain ⟨m, reply⟩ := row
  rw [pruneMembers]
  by_cases self : m.isSelf = true
  · simp [self, endsRound, observeRow, rowProbes, rowCommands]
  · by_cases healthy : m.healthy = true
    · simp [self, healthy, endsRound, observeRow, rowProbes, rowCommands]
    · by_cases due :
          (gone.observe m.host reply.nameVerdict now).isWaived m.host now dwell = true
      · cases read : reply.rsConfig with
        | error failure =>
            simp [self, healthy, due, read, endsRound, observeRow, rowProbes, rowCommands, endTracker]
        | ok current =>
            cases built : configWithMemberRemoved current m.host with
            | error text =>
                simp [self, healthy, due, read, built, endsRound, observeRow, rowProbes, rowCommands]
            | ok next =>
                cases ended : reply.reconfig with
                | ok accepted =>
                    simp [self, healthy, due, read, built, ended, endsRound, observeRow, rowProbes,
                      rowCommands, endTracker]
                | error failure =>
                    simp [self, healthy, due, read, built, ended, endsRound, observeRow, rowProbes,
                      rowCommands]
      · simp [self, healthy, due, endsRound, observeRow, rowProbes, rowCommands]

theorem endTracker_clock (gone : GoneTracker) (row : MemberRow) :
    (endTracker now gone row).goneSince host =
      (endEvents host row).foldl advance ((observeRow now gone row).goneSince host) := by
  unfold endTracker endEvents
  cases row.2.rsConfig with
  | error failure => rfl
  | ok current =>
      by_cases same : row.1.host = host
      · subst same
        simp
      · simp [same, (observeRow now gone row).observeReachable_of_ne (Ne.symm same)]

/-- A round moves the clock of a host by exactly its events. -/
theorem pruneMembers_clock (gone : GoneTracker) (rows : List MemberRow) :
    (pruneMembers now dwell gone rows).gone.goneSince host =
      (pruneEvents now dwell host gone rows).foldl advance (gone.goneSince host) := by
  induction rows generalizing gone with
  | nil => rfl
  | cons row rest ih =>
      rw [pruneMembers_cons, pruneEvents, List.foldl_append, ← observeRow_clock]
      dsimp only
      by_cases ends : endsRound now dwell gone row = true
      · rw [if_pos ends, if_pos ends]
        exact endTracker_clock gone row
      · rw [if_neg ends, if_neg ends]
        exact ih (observeRow now gone row)

theorem mem_rowProbes {row : MemberRow} {verdict : NameVerdict} :
    (host, verdict) ∈ rowProbes row ↔
      row.1.isSelf = false ∧ row.1.healthy = false ∧ row.1.host = host ∧
        row.2.nameVerdict = verdict := by
  unfold rowProbes
  by_cases skipped : (row.1.isSelf || row.1.healthy) = true
  · rw [if_pos skipped]
    rw [Bool.or_eq_true] at skipped
    constructor
    · intro impossible
      cases impossible
    · intro facts
      obtain ⟨notSelf, unhealthy, -, -⟩ := facts
      rw [notSelf, unhealthy] at skipped
      simp at skipped
  · rw [if_neg skipped, List.mem_singleton, Prod.mk.injEq]
    rw [Bool.not_eq_true, Bool.or_eq_false_iff] at skipped
    constructor
    · intro same
      exact ⟨skipped.1, skipped.2, same.1.symm, same.2.symm⟩
    · intro facts
      exact ⟨facts.2.2.1.symm, facts.2.2.2.symm⟩

/-- A `hold` comes from a probe of the host that found its name gone, in this round. -/
theorem hold_mem_pruneEvents {gone : GoneTracker} {rows : List MemberRow} {t : Instant}
    (held : .hold t ∈ pruneEvents now dwell host gone rows) :
    now = t ∧ (host, .gone) ∈ (pruneMembers now dwell gone rows).probes := by
  induction rows generalizing gone with
  | nil => cases held
  | cons row rest ih =>
      rw [pruneEvents, List.mem_append] at held
      rw [pruneMembers_cons]
      dsimp only
      rcases held with own | later
      · unfold rowEvents at own
        split at own
        · rename_i looked
          by_cases healthy : row.1.healthy = true
          · simp [healthy] at own
          · cases found : row.2.nameVerdict with
            | gone =>
                rw [if_neg healthy, found, List.mem_singleton] at own
                injection own with time
                refine ⟨time.symm, List.mem_append_left _ ?_⟩
                exact mem_rowProbes.2 ⟨looked.1, Bool.not_eq_true _ ▸ healthy, looked.2, found⟩
            | existsOrUnknown => simp [healthy, found, NameVerdict.event] at own
        · cases own
      · by_cases ends : endsRound now dwell gone row = true
        · rw [if_pos ends] at later
          unfold endEvents at later
          split at later
          · cases later
          · split at later
            · simp at later
            · cases later
        · rw [if_neg ends] at later ⊢
          obtain ⟨time, probed⟩ := ih later
          exact ⟨time, List.mem_append_right _ probed⟩

/-- A round that reaches the host and does not reset its clock probed its name as gone. -/
theorem gone_probed_of_roundReaches {gone : GoneTracker} {rows : List MemberRow}
    (reaches : roundReaches now dwell host gone rows = true)
    (unbroken : .reset ∉ pruneEvents now dwell host gone rows) :
    (host, .gone) ∈ (pruneMembers now dwell gone rows).probes := by
  induction rows generalizing gone with
  | nil => cases reaches
  | cons row rest ih =>
      rw [pruneEvents, List.mem_append, not_or] at unbroken
      obtain ⟨ownUnbroken, laterUnbroken⟩ := unbroken
      rw [pruneMembers_cons]
      dsimp only
      rw [roundReaches, Bool.or_eq_true] at reaches
      rcases reaches with here | later
      · rw [Bool.and_eq_true, Bool.not_eq_true', beq_iff_eq] at here
        unfold rowEvents at ownUnbroken
        rw [if_pos here] at ownUnbroken
        apply List.mem_append_left
        by_cases healthy : row.1.healthy = true
        · simp [healthy] at ownUnbroken
        · cases found : row.2.nameVerdict with
          | gone => exact mem_rowProbes.2 ⟨here.1, Bool.not_eq_true _ ▸ healthy, here.2, found⟩
          | existsOrUnknown => simp [healthy, found, NameVerdict.event] at ownUnbroken
      · rw [Bool.and_eq_true, Bool.not_eq_true'] at later
        rw [if_neg (by simp [later.1])] at laterUnbroken ⊢
        exact List.mem_append_right _ (ih later.2 laterUnbroken)

/-- Whatever a round probed, it reached. -/
theorem roundReaches_of_probed {gone : GoneTracker} {rows : List MemberRow} {verdict : NameVerdict}
    (probed : (host, verdict) ∈ (pruneMembers now dwell gone rows).probes) :
    roundReaches now dwell host gone rows = true := by
  induction rows generalizing gone with
  | nil => cases probed
  | cons row rest ih =>
      rw [pruneMembers_cons] at probed
      dsimp only at probed
      rw [roundReaches, Bool.or_eq_true]
      rcases List.mem_append.1 probed with own | later
      · obtain ⟨notSelf, -, same, -⟩ := mem_rowProbes.1 own
        exact Or.inl (by simp [notSelf, same])
      · by_cases ends : endsRound now dwell gone row = true
        · rw [if_pos ends] at later
          cases later
        · rw [if_neg ends] at later
          exact Or.inr (by simp [ends, ih later])

theorem due_of_mem_rowCommands {gone : GoneTracker} {row : MemberRow} {next : Document}
    (removes : .removeMember host next ∈ rowCommands now dwell gone row) :
    row.1.isSelf = false ∧ row.1.healthy = false ∧ row.1.host = host ∧
      (observeRow now gone row).isWaived host now dwell = true := by
  unfold rowCommands at removes
  split at removes
  · rename_i due
    rw [Bool.and_eq_true, Bool.and_eq_true, Bool.not_eq_true', Bool.not_eq_true'] at due
    have named : row.1.host = host := by
      split at removes
      · cases removes
      · split at removes
        · cases removes
        · split at removes
          · simp at removes
            exact removes.1.symm
          · simp at removes
            exact removes.1.symm
    rw [named] at due
    exact ⟨due.1.1, due.1.2, named, due.2⟩
  · cases removes

/-- A clock that runs after a row ran before it, or was started by the row. -/
theorem clock_before_observeRow {gone : GoneTracker} {row : MemberRow} {since : Instant}
    (running : (observeRow now gone row).goneSince host = some since) :
    gone.goneSince host = some since ∨ since = now := by
  rw [observeRow_clock] at running
  rcases foldl_advance_eq_some_iff.1 running with ran | started
  · exact Or.inl ran.1
  · obtain ⟨before, after, split, -, -⟩ := started
    have held : .hold since ∈ rowEvents now host row := by simp [split]
    unfold rowEvents at held
    split at held
    · split at held
      · simp at held
      · apply Or.inr
        cases found : row.2.nameVerdict with
        | gone => simpa [found, NameVerdict.event] using held
        | existsOrUnknown => simp [found, NameVerdict.event] at held
    · cases held

/-- A round that commands the removal of a host probed it as gone, and found its clock running for the
    whole dwell when the round began, unless there is no dwell. -/
theorem removal_of_pruneMembers {gone : GoneTracker} {rows : List MemberRow} {next : Document}
    (removes : .removeMember host next ∈ (pruneMembers now dwell gone rows).commands) :
    (host, .gone) ∈ (pruneMembers now dwell gone rows).probes ∧
      ((∃ since, gone.goneSince host = some since ∧ dwell ≤ now - since) ∨ dwell = 0) := by
  induction rows generalizing gone with
  | nil => cases removes
  | cons row rest ih =>
      rw [pruneMembers_cons] at removes ⊢
      dsimp only at removes ⊢
      -- Whichever row removes the host, its clock had run for the dwell right after this first row.
      have held : (host, .gone) ∈ (pruneMembers now dwell gone (row :: rest)).probes ∧
          ((∃ since, (observeRow now gone row).goneSince host = some since ∧ dwell ≤ now - since) ∨
            dwell = 0) := by
        rw [pruneMembers_cons]
        dsimp only
        rcases List.mem_append.1 removes with own | later
        · obtain ⟨notSelf, unhealthy, same, waived⟩ := due_of_mem_rowCommands own
          obtain ⟨since, running, dwelt⟩ := GoneTracker.isWaived_iff.1 waived
          refine ⟨List.mem_append_left _ ?_, Or.inl ⟨since, running, dwelt⟩⟩
          apply mem_rowProbes.2
          refine ⟨notSelf, unhealthy, same, ?_⟩
          cases found : row.2.nameVerdict with
          | gone => rfl
          | existsOrUnknown =>
              rw [observeRow_clock, rowEvents, if_pos ⟨notSelf, same⟩, found] at running
              simp [unhealthy, NameVerdict.event] at running
        · by_cases ends : endsRound now dwell gone row = true
          · rw [if_pos ends] at later
            cases later
          · rw [if_neg ends] at later ⊢
            obtain ⟨probed, ran⟩ := ih later
            exact ⟨List.mem_append_right _ probed, ran⟩
      rw [pruneMembers_cons] at held
      refine ⟨held.1, ?_⟩
      rcases held.2 with ran | noDwell
      · obtain ⟨since, running, dwelt⟩ := ran
        rcases clock_before_observeRow running with before | started
        · exact Or.inl ⟨since, before, dwelt⟩
        · rw [started, Nat.sub_self] at dwelt
          exact Or.inr (Nat.le_zero.1 dwelt)
      · exact Or.inr noDwell

end Round

/-! ### The clock over the whole task -/

def goneClock (host : String) : Phase → Option Instant
  | .bootstrap _ => none
  | .duties state => state.gone.goneSince host

/-- The tracker and the rows of an iteration's prune round; none when the iteration has no such round. -/
def pruneRows : Phase × Poll → Option (GoneTracker × List MemberRow)
  | (.bootstrap _, _) => none
  | (.duties state, poll) =>
      match poll.hello with
      | .error _ => none
      | .ok hello =>
          if hello.isWritablePrimary then
            match poll.status with
            | .ok (.active _ _ _ members _) => some (state.gone, memberRows members poll)
            | _ => none
          else none

/-- What an iteration tells the clock of a host. -/
def goneEvents (config : Config) (host : String) (phase : Phase) (poll : Poll) :
    List (Event Instant) :=
  match phase with
  | .bootstrap _ => [.reset]
  | .duties _ =>
      match pruneRows (phase, poll) with
      | none => []
      | some (gone, rows) => pruneEvents poll.now config.memberPruneDwell host gone rows

section Task

variable {config : Config} {myHasData : Bool} {host : String}

variable (config) in
/-- An iteration in member duties is its prune round, when it has one, or leaves the tracker alone. -/
theorem dutiesStep_of_pruneRows {state : DutiesState} {poll : Poll} {gone : GoneTracker}
    {rows : List MemberRow} (round : pruneRows (.duties state, poll) = some (gone, rows)) :
    gone = state.gone ∧
      (∃ hello, poll.hello = .ok hello ∧ hello.isWritablePrimary = true ∧
        (dutiesStep config state poll).2.commands =
          roleEvents config state.lastRole hello.role ++
            (pruneMembers poll.now config.memberPruneDwell gone rows).commands) ∧
      (dutiesStep config state poll).1.gone =
        (pruneMembers poll.now config.memberPruneDwell gone rows).gone ∧
      (dutiesStep config state poll).2.probes =
        (pruneMembers poll.now config.memberPruneDwell gone rows).probes := by
  rw [pruneRows] at round
  split at round
  · cases round
  · rename_i hello answered
    split at round
    · rename_i isPrimary
      split at round
      · rename_i setName myState myStateStr members votingMembers read
        cases round
        refine ⟨rfl, ⟨hello, answered, isPrimary, ?_⟩, ?_, ?_⟩
        all_goals simp only [dutiesStep, answered, isPrimary, if_true, pruneRound, read]
      · cases round
    · cases round

variable (config) in
theorem dutiesStep_of_no_pruneRows {state : DutiesState} {poll : Poll}
    (noRound : pruneRows (.duties state, poll) = none) :
    (dutiesStep config state poll).1.gone = state.gone ∧
      (dutiesStep config state poll).2.probes = [] ∧
      ∀ command ∈ (dutiesStep config state poll).2.commands, command.IsSend := by
  rw [pruneRows] at noRound
  cases answered : poll.hello with
  | error failure => simp [dutiesStep, answered]
  | ok hello =>
      simp only [answered] at noRound
      by_cases isPrimary : hello.isWritablePrimary = true
      · rw [if_pos isPrimary] at noRound
        have idle : pruneRound config state.gone poll =
            { gone := state.gone, probes := [], commands := [] } := by
          unfold pruneRound
          split
          · rename_i read
            simp [read] at noRound
          · rfl
        simp only [dutiesStep, answered, isPrimary, if_true, idle, List.append_nil, true_and]
        intro command issued
        exact mem_roleEvents issued
      · simp only [dutiesStep, answered, isPrimary, if_false, Bool.false_eq_true, true_and]
        intro command issued
        exact mem_roleEvents issued

/-- The clock of a host after a poll is that of the observations the poll makes of it. -/
theorem goneClock_nextPhase (phase : Phase) (poll : Poll) :
    goneClock host (nextPhase config myHasData phase poll) =
      (goneEvents config host phase poll).foldl advance (goneClock host phase) := by
  cases phase with
  | bootstrap state =>
      have stopped : goneClock host (nextPhase config myHasData (.bootstrap state) poll) = none := by
        simp only [nextPhase, wrapperStep]
        split
        · rfl
        · rfl
      rw [stopped]
      rfl
  | duties state =>
      rw [nextPhase_duties]
      cases round : pruneRows (.duties state, poll) with
      | none =>
          simp only [goneClock, goneEvents, round, (dutiesStep_of_no_pruneRows config round).1]
          rfl
      | some walked =>
          obtain ⟨gone, rows⟩ := walked
          obtain ⟨rfl, -, next, -⟩ := dutiesStep_of_pruneRows config round
          simp only [goneClock, goneEvents, round, next]
          exact pruneMembers_clock _ _

/-! ### The window before a prune -/

/-- This iteration's prune round gets to the row of this host: the node is in member duties and the
    primary, its status read succeeds, and no earlier row ends the round. -/
def LooksAt (config : Config) (host : String) (entry : Phase × Poll) : Prop :=
  ∃ gone rows, pruneRows entry = some (gone, rows) ∧
    roundReaches entry.2.now config.memberPruneDwell host gone rows = true

/-- In this iteration the node was the primary and probed the host as gone. -/
def ObservedGone (config : Config) (myHasData : Bool) (host : String) (entry : Phase × Poll) :
    Prop :=
  (∃ hello, entry.2.hello = .ok hello ∧ hello.isWritablePrimary = true) ∧
    (host, .gone) ∈ (pollReport config myHasData entry).probes

variable (config myHasData host) in
/-- What an iteration with a prune round reports. -/
theorem pollReport_of_pruneRows {entry : Phase × Poll} {gone : GoneTracker} {rows : List MemberRow}
    (round : pruneRows entry = some (gone, rows)) :
    goneClock host entry.1 = gone.goneSince host ∧
      (∃ hello, entry.2.hello = .ok hello ∧ hello.isWritablePrimary = true) ∧
      (pollReport config myHasData entry).probes =
        (pruneMembers entry.2.now config.memberPruneDwell gone rows).probes ∧
      goneEvents config host entry.1 entry.2 =
        pruneEvents entry.2.now config.memberPruneDwell host gone rows ∧
      ∀ next, .removeMember host next ∈ (pollReport config myHasData entry).commands →
        .removeMember host next ∈
          (pruneMembers entry.2.now config.memberPruneDwell gone rows).commands := by
  obtain ⟨phase, poll⟩ := entry
  cases phase with
  | bootstrap state => cases round
  | duties state =>
      obtain ⟨rfl, primary, -, probes⟩ := dutiesStep_of_pruneRows config round
      obtain ⟨hello, answered, isPrimary, commands⟩ := primary
      rw [pollReport_duties, probes, commands]
      refine ⟨rfl, ⟨hello, answered, isPrimary⟩, rfl, by simp only [goneEvents, round], ?_⟩
      intro next issued
      rcases List.mem_append.1 issued with told | removed
      · obtain ⟨event, impossible⟩ := mem_roleEvents told
        cases impossible
      · exact removed

variable (config myHasData host) in
/-- An iteration without a prune round probes and removes nobody. -/
theorem pollReport_of_no_pruneRows {entry : Phase × Poll} (noRound : pruneRows entry = none) :
    (pollReport config myHasData entry).probes = [] ∧
      ∀ next, .removeMember host next ∉ (pollReport config myHasData entry).commands := by
  obtain ⟨phase, poll⟩ := entry
  cases phase with
  | bootstrap state =>
      rw [pollReport_bootstrap]
      constructor
      · unfold orchestrateStep
        split
        · rfl
        · split
          · rfl
          · rfl
      · intro next issued
        rcases mem_orchestrateStep issued with told | added | initiated
        · obtain ⟨event, impossible⟩ := told
          cases impossible
        · obtain ⟨primary, config, impossible⟩ := added
          cases impossible
        · cases initiated
  | duties state =>
      rw [pollReport_duties]
      obtain ⟨-, probes, sends⟩ := dutiesStep_of_no_pruneRows config noRound
      refine ⟨probes, ?_⟩
      intro next issued
      obtain ⟨event, impossible⟩ := sends _ issued
      cases impossible

theorem looksAt_of_observedGone {entry : Phase × Poll}
    (observed : ObservedGone config myHasData host entry) : LooksAt config host entry := by
  obtain ⟨-, probed⟩ := observed
  cases round : pruneRows entry with
  | none =>
      rw [(pollReport_of_no_pruneRows config myHasData host round).1] at probed
      cases probed
  | some walked =>
      obtain ⟨gone, rows⟩ := walked
      obtain ⟨-, -, probes, -, -⟩ :=
        pollReport_of_pruneRows config myHasData host round
      rw [probes] at probed
      exact ⟨gone, rows, round, roundReaches_of_probed probed⟩

/-- An iteration that looks at the host without resetting its clock observed it gone. -/
theorem observedGone_of_looksAt {entry : Phase × Poll} (looks : LooksAt config host entry)
    (unbroken : .reset ∉ goneEvents config host entry.1 entry.2) :
    ObservedGone config myHasData host entry := by
  obtain ⟨gone, rows, round, reaches⟩ := looks
  obtain ⟨-, primary, probes, events, -⟩ :=
    pollReport_of_pruneRows config myHasData host round
  rw [events] at unbroken
  refine ⟨primary, ?_⟩
  rw [probes]
  exact gone_probed_of_roundReaches reaches unbroken

variable (myHasData) in
theorem observedGone_of_hold {entry : Phase × Poll} {t : Instant}
    (held : .hold t ∈ goneEvents config host entry.1 entry.2) :
    entry.2.now = t ∧ ObservedGone config myHasData host entry := by
  cases round : pruneRows entry with
  | none =>
      obtain ⟨phase, poll⟩ := entry
      cases phase with
      | bootstrap state => simp [goneEvents] at held
      | duties state => simp [goneEvents, round] at held
  | some walked =>
      obtain ⟨gone, rows⟩ := walked
      obtain ⟨-, primary, probes, events, -⟩ :=
        pollReport_of_pruneRows config myHasData host round
      rw [events] at held
      obtain ⟨time, probed⟩ := hold_mem_pruneEvents held
      exact ⟨time, primary, by rwa [probes]⟩

/-- A prune found its member gone, and the member's clock running for the dwell. -/
theorem removal_of_pollReport {entry : Phase × Poll} {next : Document}
    (removes : .removeMember host next ∈ (pollReport config myHasData entry).commands) :
    ObservedGone config myHasData host entry ∧
      ((∃ since, goneClock host entry.1 = some since ∧
          config.memberPruneDwell ≤ entry.2.now - since) ∨ config.memberPruneDwell = 0) := by
  cases round : pruneRows entry with
  | none => exact absurd removes ((pollReport_of_no_pruneRows config myHasData host round).2 next)
  | some walked =>
      obtain ⟨gone, rows⟩ := walked
      obtain ⟨clock, primary, probes, -, issued⟩ :=
        pollReport_of_pruneRows config myHasData host round
      obtain ⟨probed, ran⟩ := removal_of_pruneMembers (issued next removes)
      rw [clock]
      exact ⟨⟨primary, by rwa [probes]⟩, ran⟩

/-- Over every run: the dwell before a prune is continuous proof, in every iteration of it, exactly when
    every iteration of it looked at the member. -/
theorem prune_window_observed_iff {polls : List Poll} (timed : Timed polls) {entry : Phase × Poll}
    (member : entry ∈ wrapperTrace config myHasData polls) {next : Document}
    (removes : .removeMember host next ∈ (pollReport config myHasData entry).commands) :
    (∀ between ∈ wrapperTrace config myHasData polls,
        entry.2.now ≤ between.2.now + config.memberPruneDwell → between.2.now ≤ entry.2.now →
        ObservedGone config myHasData host between) ↔
      ∀ between ∈ wrapperTrace config myHasData polls,
        entry.2.now ≤ between.2.now + config.memberPruneDwell → between.2.now ≤ entry.2.now →
        LooksAt config host between := by
  constructor
  · intro observed between betweenMember inWindow notAfter
    exact looksAt_of_observedGone (observed between betweenMember inWindow notAfter)
  · intro looks between betweenMember inWindow notAfter
    obtain ⟨observedNow, ran⟩ := removal_of_pollReport removes
    rcases notAfter.lt_or_eq with earlier | atEnd
    · rcases ran with running | noDwell
      · obtain ⟨since, clock, dwelt⟩ := running
        have advances : ∀ phase poll, goneClock host (nextPhase config myHasData phase poll) =
            (goneEvents config host phase poll).foldl advance (goneClock host phase) :=
          goneClock_nextPhase
        have stamped : ∀ phase poll t, .hold t ∈ goneEvents config host phase poll →
            Poll.now poll = t := by
          intro phase poll t held
          exact (@observedGone_of_hold _ myHasData _ (phase, poll) _ held).1
        have held := heldSince_dwell advances stamped rfl timed member clock dwelt
        rcases held between betweenMember inWindow earlier with set | unbroken
        · exact (observedGone_of_hold myHasData set).2
        · exact observedGone_of_looksAt (looks between betweenMember inWindow notAfter) unbroken
      · rw [noDwell, Nat.add_zero] at inWindow
        exact absurd inWindow (not_le_of_gt earlier)
    · obtain rfl : between = entry := trace_eq_of_time_eq timed betweenMember member atEnd
      exact observedNow

end Task

/-! ### A primary that steps down in between -/

def departedHost : String := "mongo-2:27017"

/-- A status of two members, the other one unreachable. -/
def departedStatus : RsStatus :=
  .active "rs0" States.primary "PRIMARY"
    [{ id := 0, host := "mongo-1:27017", state := 1, stateStr := "PRIMARY", healthy := true,
       isSelf := true, optimeSecs := none },
     { id := 1, host := departedHost, state := 8, stateStr := "(not reachable/healthy)",
       healthy := false, isSelf := false, optimeSecs := none }]
    (some 2)

def departedConfig : Document :=
  [("_id", .string "rs0"), ("version", .int32 3),
   ("members", .array
     [.document [("_id", .int32 0), ("host", .string "mongo-1:27017")],
      .document [("_id", .int32 1), ("host", .string departedHost)]])]

/-- An iteration that finds the departed member's name gone, on a primary or on a secondary. -/
def departedPoll (isPrimary : Bool) (now : Instant) : Poll :=
  { Poll.quiet now with
    hello := .ok { isWritablePrimary := isPrimary, secondary := !isPrimary }
    status := .ok departedStatus
    member := fun _ =>
      { nameVerdict := .gone, rsConfig := .ok departedConfig, reconfig := .ok () } }

def departedNode : Config := configWithSeeds "mongo-1" (some "mongo-1:27017,mongo-2:27017")

/-- The duties after the first look at the departed member. -/
def departedDuties (role : String) : DutiesState :=
  { lastRole := some role, gone := GoneTracker.new.observe departedHost .gone 1000000000 }

/-- A run that looks twice, the dwell apart, with other iterations in between. -/
def departedPolls (between : List Poll) : List Poll :=
  departedPoll true 0 :: departedPoll true 1000000000 :: between ++ [departedPoll true 301000000000]

theorem departed_trace_steady :
    wrapperTrace departedNode false (departedPolls []) =
      [(.start, departedPoll true 0), (.duties .new, departedPoll true 1000000000),
       (.duties (departedDuties "primary"), departedPoll true 301000000000)] := rfl

theorem departed_trace_step_down :
    wrapperTrace departedNode false (departedPolls [departedPoll false 200000000000]) =
      [(.start, departedPoll true 0), (.duties .new, departedPoll true 1000000000),
       (.duties (departedDuties "primary"), departedPoll false 200000000000),
       (.duties (departedDuties "secondary"), departedPoll true 301000000000)] := rfl

theorem departed_removed (role : String) : ∃ next, .removeMember departedHost next ∈
    (pollReport departedNode false
      (.duties (departedDuties role), departedPoll true 301000000000)).commands := by
  obtain ⟨next, built⟩ : ∃ next, configWithMemberRemoved departedConfig departedHost = .ok next :=
    ⟨_, rfl⟩
  have waived : ((departedDuties role).gone.observe departedHost .gone 301000000000).isWaived
      departedHost 301000000000 departedNode.memberPruneDwell = true := by
    rw [GoneTracker.isWaived_iff]
    exact ⟨1000000000, rfl, by decide⟩
  refine ⟨next, ?_⟩
  simp [pollReport_duties, dutiesStep, departedPoll, pruneRound, departedStatus, memberRows,
    pruneMembers, Poll.quiet, waived, built]

/-- A primary that looks at the departed member in every iteration prunes it on continuous proof. -/
theorem prune_window_observed :
    ∃ entry ∈ wrapperTrace departedNode false (departedPolls []), ∃ next,
      .removeMember departedHost next ∈ (pollReport departedNode false entry).commands ∧
      ∀ between ∈ wrapperTrace departedNode false (departedPolls []),
        entry.2.now ≤ between.2.now + departedNode.memberPruneDwell →
        between.2.now ≤ entry.2.now → ObservedGone departedNode false departedHost between := by
  obtain ⟨next, removes⟩ := departed_removed "primary"
  have member : (Phase.duties (departedDuties "primary"), departedPoll true 301000000000) ∈
      wrapperTrace departedNode false (departedPolls []) := by
    rw [departed_trace_steady]
    simp
  have timed : Timed (departedPolls []) := by
    simp [Timed, HeldSince.Timed, departedPolls, departedPoll, Poll.quiet]
  refine ⟨_, member, next, removes, ?_⟩
  apply (prune_window_observed_iff timed member removes).2
  intro between betweenMember inWindow notAfter
  rw [departed_trace_steady] at betweenMember
  simp only [List.mem_cons, List.not_mem_nil, or_false] at betweenMember
  rcases betweenMember with rfl | rfl | rfl
  · exact absurd inWindow (by decide)
  · exact ⟨_, _, rfl, rfl⟩
  · exact ⟨_, _, rfl, rfl⟩

/-- The clock survives an iteration in which the node is no primary, and the prune follows at once. -/
theorem prune_across_step_down :
    Timed (departedPolls [departedPoll false 200000000000]) ∧
      ∃ entry ∈ wrapperTrace departedNode false (departedPolls [departedPoll false 200000000000]), ∃ next,
        .removeMember departedHost next ∈ (pollReport departedNode false entry).commands ∧
        ¬ ∀ between ∈ wrapperTrace departedNode false (departedPolls [departedPoll false 200000000000]),
          entry.2.now ≤ between.2.now + departedNode.memberPruneDwell →
          between.2.now ≤ entry.2.now → ObservedGone departedNode false departedHost between := by
  obtain ⟨next, removes⟩ := departed_removed "secondary"
  have timed : Timed (departedPolls [departedPoll false 200000000000]) := by
    simp [Timed, HeldSince.Timed, departedPolls, departedPoll, Poll.quiet]
  have member : (Phase.duties (departedDuties "secondary"), departedPoll true 301000000000) ∈
      wrapperTrace departedNode false (departedPolls [departedPoll false 200000000000]) := by
    rw [departed_trace_step_down]
    simp
  refine ⟨timed, _, member, next, removes, ?_⟩
  intro observed
  have between : (Phase.duties (departedDuties "primary"), departedPoll false 200000000000) ∈
      wrapperTrace departedNode false (departedPolls [departedPoll false 200000000000]) := by
    rw [departed_trace_step_down]
    simp
  obtain ⟨⟨hello, answered, isPrimary⟩, -⟩ := observed _ between (by decide) (by decide)
  cases answered
  cases isPrimary

end MongoHa
