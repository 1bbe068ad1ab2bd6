/-
Module: MongoHa.Proofs.AlertOnce
Layer: Proofs
Purpose: How often a run of the replication health round alerts of one incident. The alert set is a clock
  per key: a round that derives the key holds it, a round that reads a status and does not derive the key
  resets it. While the condition holds wherever it could be read, the resets are the rounds with an active
  status and an unknown window or fill, so `one_alert_iff` finds a second alert exactly across such a round.
Imports: MongoHa.Proofs.SignalDerivation, MongoHa.Wrapper.MemberDuties
Trusted boundary: none (fully proved)
Main exports: healthTrace, alertsOf, SignalId.Readable, SignalId.Blind, SignalId.Derived, one_alert_iff
Open obligations: none
-/
import MongoHa.Proofs.SignalDerivation
import MongoHa.Wrapper.MemberDuties

namespace MongoHa

open Foundations
open Foundations.HeldSince

/-! ### Rounds and incidents -/

def healthStep (state : HealthState) (reads : HealthReads) : HealthState :=
  (replicationHealthRound state reads).1

/-- The rounds of a run, each with the state that met it. -/
def healthTrace (start : HealthState) (rounds : List HealthReads) : List (HealthState × HealthReads) :=
  trace healthStep start rounds

/-- The events one round sends for a key. -/
def sentFor (id : SignalId) (state : HealthState) (reads : HealthReads) : Nat :=
  (replicationHealthRound state reads).2.countP fun signal => signal.dedupeKey == id.key

/-- The events a run sends for a key. -/
def alertsOf (id : SignalId) (start : HealthState) (rounds : List HealthReads) : Nat :=
  ((healthTrace start rounds).map fun entry => sentFor id entry.1 entry.2).sum

namespace SignalId

/-- Whether the round could read everything the signal depends on: an active status, and for the oplog
    signals a window and a fill. -/
def Readable (id : SignalId) (reads : HealthReads) : Prop :=
  match id with
  | stuck _ => reads.members ≠ none
  | _ => reads.members ≠ none ∧ reads.window ≠ none ∧ reads.fill ≠ none

instance (id : SignalId) (reads : HealthReads) : Decidable (id.Readable reads) :=
  match id with
  | stuck _ => inferInstanceAs (Decidable (reads.members ≠ none))
  | fallingOff _ | windowLow =>
      inferInstanceAs (Decidable (reads.members ≠ none ∧ reads.window ≠ none ∧ reads.fill ≠ none))

/-- A round that read an active status, but not everything the signal depends on. -/
def Blind (id : SignalId) (reads : HealthReads) : Prop :=
  reads.members ≠ none ∧ ¬ id.Readable reads

/-- The condition of the signal holds in this round. -/
def Derived (id : SignalId) (entry : HealthState × HealthReads) : Prop :=
  ∃ members, entry.2.members = some members ∧
    id.key ∈ (roundSignals entry.1.memberStates entry.2 members).map ReplicationSignal.dedupeKey

end SignalId

/-- Only a known window of an oplog bounded by size raises the oplog signals. -/
theorem known_of_mem_deriveSignals {oplogWindow : Option Duration} {oplogSizeBounded : Bool}
    {primaryOptimeSecs : Option UInt32} {members : List MemberObservation} {signal : ReplicationSignal}
    (derived : signal ∈ deriveSignals oplogWindow oplogSizeBounded primaryOptimeSecs members) :
    (∃ host, signal.id = .stuck host) ∨ (oplogWindow ≠ none ∧ oplogSizeBounded = true) := by
  have known {window : Duration} (bounded : oplogWindow.filter (fun _ => oplogSizeBounded) = some window) :
      oplogWindow ≠ none ∧ oplogSizeBounded = true := by
    obtain ⟨some_, flag⟩ := Option.filter_eq_some_iff.1 bounded
    exact ⟨some_ ▸ Option.some_ne_none window, flag⟩
  rw [deriveSignals, List.mem_append, List.mem_flatMap] at derived
  rcases derived with low | ⟨m, -, row⟩
  · split at low
    · rename_i bounded
      exact Or.inr (known bounded)
    · cases low
  · obtain ⟨-, ⟨-, -, rfl⟩ | ⟨window, primarySecs, memberSecs, -, bounded, -⟩⟩ :=
      mem_memberSignals.1 row
    · exact Or.inl ⟨m.host, rfl⟩
    · exact Or.inr (known bounded)

theorem fill_of_sizeBounded {reads : HealthReads} (bounded : reads.sizeBounded = true) :
    reads.fill ≠ none := by
  intro unknown
  rw [HealthReads.sizeBounded, unknown] at bounded
  cases bounded

/-- What is derived was read. -/
theorem SignalId.Derived.readable {id : SignalId} {entry : HealthState × HealthReads}
    (derived : id.Derived entry) : id.Readable entry.2 := by
  obtain ⟨members, active, key⟩ := derived
  have read : entry.2.members ≠ none := active ▸ Option.some_ne_none members
  obtain ⟨signal, member, same⟩ := List.mem_map.1 key
  rw [dedupeKey_eq] at same
  have which := SignalId.key_injective same
  cases id with
  | stuck host => exact read
  | fallingOff host =>
      rcases known_of_mem_deriveSignals member with ⟨other, stuck⟩ | ⟨window, bounded⟩
      · rw [which] at stuck
        cases stuck
      · exact ⟨read, window, fill_of_sizeBounded bounded⟩
  | windowLow =>
      rcases known_of_mem_deriveSignals member with ⟨other, stuck⟩ | ⟨window, bounded⟩
      · rw [which] at stuck
        cases stuck
      · exact ⟨read, window, fill_of_sizeBounded bounded⟩

/-! ### The alert set as a clock -/

section

variable (id : SignalId)

/-- Running while the key is in the alert set. -/
def alertClock (state : HealthState) : Option Unit :=
  if id.key ∈ state.alerted then some () else none

/-- What a round tells the clock of a key. -/
def alertEvent (state : HealthState) (reads : HealthReads) : Event Unit :=
  match reads.members with
  | none => .keep
  | some members =>
      if id.key ∈ (roundSignals state.memberStates reads members).map ReplicationSignal.dedupeKey then
        .hold ()
      else .reset

theorem mem_alerted_of_active {state : HealthState} {reads : HealthReads} {members : List RsMember}
    (active : reads.members = some members) :
    id.key ∈ (healthStep state reads).alerted ↔
      id.key ∈ (roundSignals state.memberStates reads members).map ReplicationSignal.dedupeKey := by
  rw [healthStep, (replicationHealthRound_of_active active).2.1, List.mem_toFinset]

theorem alertClock_step (state : HealthState) (reads : HealthReads) :
    alertClock id (healthStep state reads) = advance (alertClock id state) (alertEvent id state reads) := by
  rw [alertEvent]
  cases active : reads.members with
  | none =>
      dsimp only
      rw [healthStep, replicationHealthRound_of_unread active, advance_keep]
  | some members =>
      have kept : id.key ∈ (healthStep state reads).alerted ↔ _ := mem_alerted_of_active id active
      dsimp only
      by_cases derived : id.key ∈
        (roundSignals state.memberStates reads members).map ReplicationSignal.dedupeKey
      · rw [alertClock, if_pos (kept.2 derived), if_pos derived]
        cases alertClock id state with
        | none => rfl
        | some since => rfl
      · rw [alertClock, if_neg (fun listed => derived (kept.1 listed)), if_neg derived, advance_reset]

theorem sentFor_eq_starts (state : HealthState) (reads : HealthReads) :
    sentFor id state reads = starts (alertClock id state) [alertEvent id state reads] := by
  rw [sentFor, alertEvent]
  cases active : reads.members with
  | none =>
      dsimp only
      rw [replicationHealthRound_of_unread active, starts_keep, starts, List.countP_nil]
  | some members =>
      dsimp only
      rw [(replicationHealthRound_of_active active).2.2, countP_alertSignals, alertClock]
      by_cases known : id.key ∈ state.alerted
      · by_cases derived : id.key ∈
          (roundSignals state.memberStates reads members).map ReplicationSignal.dedupeKey
        · rw [if_neg (fun both => both.1 known), if_pos known, if_pos derived]
          rfl
        · rw [if_neg (fun both => both.1 known), if_pos known, if_neg derived]
          rfl
      · by_cases derived : id.key ∈
          (roundSignals state.memberStates reads members).map ReplicationSignal.dedupeKey
        · rw [if_pos ⟨known, derived⟩, if_neg known, if_pos derived]
          rfl
        · rw [if_neg (fun both => derived both.2), if_neg known, if_neg derived]
          rfl

theorem alertsOf_eq_starts (start : HealthState) (rounds : List HealthReads) :
    alertsOf id start rounds = starts (alertClock id start)
      ((healthTrace start rounds).map fun entry => alertEvent id entry.1 entry.2) :=
  starts_trace (alertClock_step id) (sentFor_eq_starts id) start rounds

end

/-! ### One alert for each incident -/

/-- What a round tells the clock while the condition holds wherever it could be read. -/
def readEvent (id : SignalId) (reads : HealthReads) : Event Unit :=
  if id.Readable reads then .hold () else if reads.members = none then .keep else .reset

theorem SignalId.Readable.active {id : SignalId} {reads : HealthReads} (readable : id.Readable reads) :
    reads.members ≠ none := by
  cases id with
  | stuck host => exact readable
  | fallingOff host => exact readable.1
  | windowLow => exact readable.1

theorem readEvent_eq_hold {id : SignalId} {reads : HealthReads} :
    readEvent id reads = .hold () ↔ id.Readable reads := by
  rw [readEvent]
  split
  · rename_i readable
    exact iff_of_true rfl readable
  · rename_i unreadable
    split
    · exact iff_of_false nofun unreadable
    · exact iff_of_false nofun unreadable

theorem readEvent_eq_reset {id : SignalId} {reads : HealthReads} :
    readEvent id reads = .reset ↔ id.Blind reads := by
  rw [readEvent]
  split
  · rename_i readable
    exact iff_of_false nofun fun blind => blind.2 readable
  · rename_i unreadable
    split
    · rename_i unread
      exact iff_of_false nofun fun blind => blind.1 unread
    · rename_i read
      exact iff_of_true rfl ⟨read, unreadable⟩

theorem alertEvent_eq_readEvent {id : SignalId} {entry : HealthState × HealthReads}
    (holds : id.Readable entry.2 → id.Derived entry) :
    alertEvent id entry.1 entry.2 = readEvent id entry.2 := by
  rw [alertEvent]
  cases active : entry.2.members with
  | none =>
      have unreadable : ¬ id.Readable entry.2 := fun readable => readable.active active
      rw [readEvent, if_neg unreadable, if_pos active]
  | some members =>
      dsimp only
      split
      · rename_i derived
        exact (readEvent_eq_hold.2 (SignalId.Derived.readable ⟨members, active, derived⟩)).symm
      · rename_i quiet
        refine (readEvent_eq_reset.2 ⟨active ▸ Option.some_ne_none members, ?_⟩).symm
        intro readable
        obtain ⟨listed, same, derived⟩ := holds readable
        rw [active] at same
        exact quiet (Option.some.inj same ▸ derived)

/-- The alerts of such a run, counted on what its rounds read. -/
theorem alertsOf_eq_reads {id : SignalId} {start : HealthState} {rounds : List HealthReads}
    (unalerted : id.key ∉ start.alerted)
    (holds : ∀ entry ∈ healthTrace start rounds, id.Readable entry.2 → id.Derived entry) :
    alertsOf id start rounds = starts none (rounds.map (readEvent id)) := by
  have stopped : alertClock id start = none := if_neg unalerted
  have events : (healthTrace start rounds).map (fun entry => alertEvent id entry.1 entry.2) =
      rounds.map (readEvent id) := by
    calc (healthTrace start rounds).map (fun entry => alertEvent id entry.1 entry.2)
        = (healthTrace start rounds).map (readEvent id ∘ Prod.snd) := by
          apply List.map_congr_left
          intro entry member
          exact alertEvent_eq_readEvent (holds entry member)
      _ = rounds.map (readEvent id) := by
          rw [← List.map_map, healthTrace, map_snd_trace]
  rw [alertsOf_eq_starts, stopped, events]

/-- A run starts without an open incident of the key, as the process does. While the condition holds in
    every round that can read it, the key is alerted of twice exactly when a round that read an active
    status, and could not tell the signal's other inputs, lies between two rounds that could. -/
theorem one_alert_iff (id : SignalId) (start : HealthState) (rounds : List HealthReads)
    (unalerted : id.key ∉ start.alerted)
    (holds : ∀ entry ∈ healthTrace start rounds, id.Readable entry.2 → id.Derived entry) :
    alertsOf id start rounds ≤ 1 ↔
      ¬ ∃ before gap after, List.Sublist [before, gap, after] rounds ∧
        id.Readable before ∧ id.Blind gap ∧ id.Readable after := by
  rw [alertsOf_eq_reads unalerted holds, starts_map_le_one_iff]
  simp only [← readEvent_eq_hold, ← readEvent_eq_reset]
  apply not_congr
  constructor
  · rintro ⟨before, gap, after, sublist, ⟨⟨⟩, readBefore⟩, blind, ⟨⟩, readAfter⟩
    exact ⟨before, gap, after, sublist, readBefore, blind, readAfter⟩
  · rintro ⟨before, gap, after, sublist, readBefore, blind, readAfter⟩
    exact ⟨before, gap, after, sublist, ⟨(), readBefore⟩, blind, (), readAfter⟩

/-- A lone primary with a full oplog that holds the last ten minutes. -/
def shrunkenReads : HealthReads where
  status := .ok (.active "rs0" 1 "PRIMARY"
    [{ id := 0, host := "mongo-1:27017", state := 1, stateStr := "PRIMARY", healthy := true
       isSelf := true, optimeSecs := some 1700000000 }] (some 1))
  oplogWindow := .ok (some (.fromSecs 600))
  oplogFill := .ok (some 1)
  now := 0

/-- The same round with a window that could not be read. -/
def windowLost : HealthReads :=
  { shrunkenReads with
    oplogWindow := .error { code := none, text := "reading the oldest oplog entry timed out" } }

/-- The same round with a status that could not be read. -/
def statusLost : HealthReads :=
  { shrunkenReads with
    status := .error { code := none, text := "replSetGetStatus timed out" } }

theorem shrunken_sizeBounded : shrunkenReads.sizeBounded = true := by
  decide +kernel

theorem shrunken_derived (state : HealthState) :
    SignalId.Derived .windowLow (state, shrunkenReads) := by
  refine ⟨_, rfl, ?_⟩
  rw [roundSignals, shrunken_sizeBounded, deriveSignals, List.map_append]
  have low : SignalId.windowLow.key ∈
      [ReplicationSignal.oplogWindowLow (.fromSecs 600)].map ReplicationSignal.dedupeKey := by decide
  exact List.mem_append_left _ low

theorem windowLost_blind : SignalId.Blind .windowLow windowLost :=
  ⟨nofun, fun readable => readable.2.1 rfl⟩

/-- Where every readable round is the shrunken one, the condition holds wherever it can be read. -/
theorem shrunken_holds {rounds : List HealthReads}
    (only : ∀ reads ∈ rounds, SignalId.Readable .windowLow reads → reads = shrunkenReads)
    (start : HealthState) : ∀ entry ∈ healthTrace start rounds,
      SignalId.Readable .windowLow entry.2 → SignalId.Derived .windowLow entry := by
  intro entry member readable
  have which := only entry.2 (snd_mem_of_mem_trace member) readable
  obtain ⟨state, reads⟩ := entry
  dsimp only at which
  subst which
  exact shrunken_derived state

/-- A lost status between two rounds alerts no second time. -/
theorem one_alert_status_lost :
    alertsOf .windowLow .new [shrunkenReads, statusLost, shrunkenReads] ≤ 1 := by
  have unread : ¬ SignalId.Readable .windowLow statusLost := fun readable => readable.active rfl
  refine (one_alert_iff .windowLow .new [shrunkenReads, statusLost, shrunkenReads]
    (Finset.notMem_empty _) (shrunken_holds ?_ .new)).2 ?_
  · intro reads member readable
    simp only [List.mem_cons, List.not_mem_nil, or_false] at member
    rcases member with rfl | rfl | rfl
    · rfl
    · exact absurd readable unread
    · rfl
  · rintro ⟨before, gap, after, sublist, -, blind, -⟩
    have member := sublist.subset (List.mem_cons_of_mem _ (List.mem_cons_self ..))
    simp only [List.mem_cons, List.not_mem_nil, or_false] at member
    rcases member with rfl | rfl | rfl
    · exact blind.2 (shrunken_derived .new).readable
    · exact blind.1 rfl
    · exact blind.2 (shrunken_derived .new).readable

/-- One lost window between two rounds, and the same incident is alerted of twice. -/
theorem window_lost_alerts_twice :
    ¬ ∀ (id : SignalId) (start : HealthState) (rounds : List HealthReads),
      id.key ∉ start.alerted →
      (∀ entry ∈ healthTrace start rounds, id.Readable entry.2 → id.Derived entry) →
      alertsOf id start rounds ≤ 1 := by
  intro once
  have unalerted : SignalId.windowLow.key ∉ HealthState.new.alerted := Finset.notMem_empty _
  have holds := @shrunken_holds [shrunkenReads, windowLost, shrunkenReads] ?_ .new
  · have bound := once .windowLow .new _ unalerted holds
    have held := readEvent_eq_hold.2 (shrunken_derived .new).readable
    have reset := readEvent_eq_reset.2 windowLost_blind
    rw [alertsOf_eq_reads unalerted holds, List.map_cons, List.map_cons, List.map_cons, held,
      reset] at bound
    exact absurd bound (by decide)
  · intro reads member readable
    simp only [List.mem_cons, List.not_mem_nil, or_false] at member
    rcases member with rfl | rfl | rfl
    · rfl
    · exact absurd readable windowLost_blind.2
    · rfl

end MongoHa
