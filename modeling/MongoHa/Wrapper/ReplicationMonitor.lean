/-
Module: MongoHa.Wrapper.ReplicationMonitor
Layer: Wrapper
Purpose: `replication_monitor.rs`: the clock of each member's reported state, the signals one poll derives
  from the primary's oplog window and the members' rows, and how a signal is named and rendered. The ratio
  of the lag threshold and the percentage of a message are exact rationals here.
Imports: MongoHa.Wrapper.Mongo
Trusted boundary: human-reviewed spec
Main exports: MemberStateTracker, MemberObservation, ReplicationSignal, dedupeKey, context, message,
  memberSignals, deriveSignals, SignalId, SignalId.key, dedupeKey_eq, SignalId.key_injective
Open obligations: none
-/
import MongoHa.Wrapper.Mongo

namespace MongoHa

def recovering : String := "RECOVERING"

def startup2 : String := "STARTUP2"

def stuckStateDwell : Duration := .fromSecs 900

def oplogWindowFloor : Duration := .fromSecs 3600

/-- `LAG_VS_OPLOG_WINDOW_WARN_RATIO` of a window. -/
def warnAt (window : Duration) : Duration := window * 3 / 4

def Duration.asSecs (span : Duration) : Nat := span / 1000000000

/-! ### The tracker -/

/-- Each member's current state, with the time of its first report. -/
structure MemberStateTracker where
  since : String → Option (String × Instant)

namespace MemberStateTracker

def new : MemberStateTracker := { since := fun _ => none }

/-- Record this poll's state, and how long it has been held, this observation included. -/
def observe (tracker : MemberStateTracker) (host state : String) (now : Instant) :
    MemberStateTracker × Duration :=
  match tracker.since host with
  | some (previous, since) =>
      if previous = state then (tracker, Instant.durationSince now since)
      else ({ since := Function.update tracker.since host (some (state, now)) }, 0)
  | none => ({ since := Function.update tracker.since host (some (state, now)) }, 0)

/-- Drop any host that is not in the current membership view. -/
def retainKnown (tracker : MemberStateTracker) (hosts : List String) : MemberStateTracker :=
  { since := fun host => if host ∈ hosts then tracker.since host else none }

end MemberStateTracker

/-! ### Signals -/

/-- One member's row, with this poll's dwell. -/
structure MemberObservation where
  host : String
  stateStr : String
  optimeSecs : Option UInt32
  isSelf : Bool
  healthy : Bool
  dwell : Duration
deriving Repr, DecidableEq, Inhabited

/-- What a poll of replication health alerts about. -/
inductive ReplicationSignal where
  | stuckInState (host state : String) (stuckFor : Duration)
  | fallingOffOplog (host : String) (lag oplogWindow : Duration)
  | oplogWindowLow (oplogWindow : Duration)
deriving Repr, DecidableEq, Inhabited

namespace ReplicationSignal

/-- `dedupe_key`. -/
def dedupeKey : ReplicationSignal → String
  | stuckInState host _ _ => "stuck:" ++ host
  | fallingOffOplog host _ _ => "falling-off:" ++ host
  | oplogWindowLow _ => "oplog-window-low"

/-- The context of the event. -/
def context : ReplicationSignal → String
  | stuckInState _ _ _ => "member-stuck-in-state"
  | fallingOffOplog _ _ _ => "replication-lag-vs-oplog-window"
  | oplogWindowLow _ => "oplog-window-low"

/-- A quotient as `{:.0}` renders it, ties to even. -/
def rounded (numerator denominator : Nat) : Nat :=
  let whole := numerator / denominator
  let rest := numerator % denominator
  if 2 * rest < denominator then whole
  else if denominator < 2 * rest then whole + 1
  else whole + whole % 2

/-- The text of the event. -/
def message : ReplicationSignal → String
  | stuckInState host state stuckFor =>
      host ++ " has been " ++ state ++ " for " ++ toString stuckFor.asSecs ++ "s (>= " ++
        toString stuckStateDwell.asSecs ++ "s) — normal catch-up should not take " ++
        "this long; this member may need a full resync"
  | fallingOffOplog host lag oplogWindow =>
      let pct := if 0 < oplogWindow.asSecs then rounded (100 * lag) oplogWindow else 100
      host ++ " is " ++ toString lag.asSecs ++ "s behind the primary against a " ++
        toString oplogWindow.asSecs ++ "s oplog window (" ++ toString pct ++
        "% consumed) — about to fall off the oplog and need a full resync"
  | oplogWindowLow oplogWindow =>
      "the primary's oplog window has shrunk to " ++ toString oplogWindow.asSecs ++ "s (floor " ++
        toString oplogWindowFloor.asSecs ++ "s) — a lagging " ++
        "secondary now has less time to catch up before it falls off"

end ReplicationSignal

/-- The loop body of `derive_signals`; the window is already left out unless it is bounded by size. -/
def memberSignals (oplogWindow : Option Duration) (primaryOptimeSecs : Option UInt32)
    (m : MemberObservation) : List ReplicationSignal :=
  if m.isSelf then []
  else
    let stuck :=
      if (m.stateStr = recovering ∨ m.stateStr = startup2) ∧ stuckStateDwell ≤ m.dwell then
        [ReplicationSignal.stuckInState m.host m.stateStr m.dwell]
      else []
    -- Lag means something only for a reachable SECONDARY.
    let replicating := m.healthy && m.stateStr == "SECONDARY"
    let fallingOff :=
      match replicating, oplogWindow, primaryOptimeSecs, m.optimeSecs with
      | true, some window, some primarySecs, some memberSecs =>
          if memberSecs < primarySecs then
            let lag := Duration.fromSecs (primarySecs - memberSecs).toNat
            if warnAt window ≤ lag then [ReplicationSignal.fallingOffOplog m.host lag window] else []
          else []
      | _, _, _, _ => []
    stuck ++ fallingOff

/-- `derive_signals`. -/
def deriveSignals (oplogWindow : Option Duration) (oplogSizeBounded : Bool)
    (primaryOptimeSecs : Option UInt32) (members : List MemberObservation) : List ReplicationSignal :=
  let oplogWindow := oplogWindow.filter fun _ => oplogSizeBounded
  let low := match oplogWindow with
    | some window => if window < oplogWindowFloor then [ReplicationSignal.oplogWindowLow window] else []
    | none => []
  low ++ members.flatMap (memberSignals oplogWindow primaryOptimeSecs)

/-! ### Incidents -/

/-- What a dedupe key stands for. -/
inductive SignalId where
  | stuck (host : String)
  | fallingOff (host : String)
  | windowLow
deriving Repr, DecidableEq, Inhabited

namespace SignalId

/-- The key under which a signal was alerted of. -/
def key : SignalId → String
  | stuck host => "stuck:" ++ host
  | fallingOff host => "falling-off:" ++ host
  | windowLow => "oplog-window-low"

end SignalId

def ReplicationSignal.id : ReplicationSignal → SignalId
  | stuckInState host _ _ => .stuck host
  | fallingOffOplog host _ _ => .fallingOff host
  | oplogWindowLow _ => .windowLow

/-- The key of a signal is that of its identity. -/
theorem dedupeKey_eq (signal : ReplicationSignal) : signal.dedupeKey = signal.id.key := by
  cases signal with
  | stuckInState host state stuckFor => rfl
  | fallingOffOplog host lag window => rfl
  | oplogWindowLow window => rfl

/-- Every incident has a key of its own. -/
theorem SignalId.key_injective : Function.Injective SignalId.key := by
  intro left right same
  have head := congrArg (fun s => s.toList.head?) same
  cases left with
  | stuck host =>
      cases right with
      | stuck other => rw [(String.append_right_inj _).1 same]
      | fallingOff other => simp [key] at head
      | windowLow => simp [key] at head
  | fallingOff host =>
      cases right with
      | stuck other => simp [key] at head
      | fallingOff other => rw [(String.append_right_inj _).1 same]
      | windowLow => simp [key] at head
  | windowLow =>
      cases right with
      | stuck other => simp [key] at head
      | fallingOff other => simp [key] at head
      | windowLow => rfl

end MongoHa
