/-
Module: MongoHa.Wrapper.StandaloneRecovery
Layer: Wrapper
Purpose: `standalone_recovery.rs`: the marker every HA boot leaves on the volume, the test whether a
  standalone boot must replay the oplog first, and the verdict of the recovery boot from what its mongod
  logged and how it ended. The recovery mongod is observed through the polls of the two wait loops; a
  loop that has not been left yet has no result.
Imports: MongoHa.Wrapper.AuthPin
Trusted boundary: human-reviewed spec
Main exports: clearReplsetMarker, replayNeeded, Replay, mongodLogId, isFatalLine, earlyExitVerdict,
  recoveryFailedGuidance, RecoveryRun, replayOplogAsStandalone, replayNeeded_iff, RecoveryRun.sawExit,
  replay_sawExit, noOplog_reported
Open obligations: none
-/
import MongoHa.Wrapper.AuthPin

namespace MongoHa

open Foundations.RustStr

/-! ### The marker -/

/-- `mark_replset_boot`: whether the marker is on the volume after the write, failed or not. -/
def markReplsetBoot (marker written : Bool) : Bool :=
  marker || written

/-- `clear_replset_marker`: a removal that fails only warns. -/
def clearReplsetMarker (marker removed : Bool) : Bool :=
  marker && !removed

/-- Whether this standalone boot must replay the oplog first. -/
def replayNeeded (hasData markerPresent : Bool) (pin : Option AuthPin) : Bool :=
  hasData && (markerPresent || (pin.bind AuthPin.keyfile).isSome)

/-- A boot replays exactly over data that the marker or a pinned keyfile says a member wrote. -/
theorem replayNeeded_iff {hasData markerPresent : Bool} {file : PinFile} :
    replayNeeded hasData markerPresent (readPin file) = true ↔
      hasData = true ∧ (markerPresent = true ∨ (pinKeyfile file).isSome = true) := by
  simp [replayNeeded, pinKeyfile]

/-! ### What the recovery mongod logs -/

/-- mongod's fatal assertion when there is no oplog to replay. -/
def noOplogLogId : Int := 31364

/-- How a recovery boot that opened the data came out. -/
inductive Replay where
  /-- The replay ran and a clean shutdown checkpointed its state. -/
  | replayed
  /-- No oplog on the volume: nothing replicated was ever written. -/
  | noOplog
deriving Repr, DecidableEq, Inhabited

/-- `str::parse::<i32>` on a run of digits. -/
def parseI32 (digits : List Char) : Option Int :=
  if digits = [] then none
  else
    let value := digits.foldl (fun n c => n * 10 + (c.toNat - '0'.toNat)) 0
    if value < 2 ^ 31 then some value else none

/-- The `id` of a mongod JSON log line, if the line is one. -/
def mongodLogId (line : String) : Option Int :=
  match splitOnce "\"id\":" line with
  | some (_, rest) => parseI32 ((trimStart rest).toList.takeWhile Char.isDigit)
  | none => none

/-- A mongod JSON log line at severity F. -/
def isFatalLine (line : String) : Bool :=
  contains line "\"s\":\"F\""

example : mongodLogId "\x7b\"s\":\"F\",  \"c\":\"REPL\",  \"id\":31364,  \"ctx\":\"main\"\x7d"
    = some noOplogLogId := by decide

/-- What the forwarded log shows: whether it reported a missing oplog, and its last fatal line. -/
structure Observed where
  sawNoOplog : Bool
  lastFatal : Option String
deriving Repr, DecidableEq, Inhabited

def observeLine (observed : Observed) (line : String) : Observed :=
  { sawNoOplog := observed.sawNoOplog || mongodLogId line == some noOplogLogId
    lastFatal := if isFatalLine line then some line else observed.lastFatal }

def forwardLog (lines : List String) : Observed :=
  lines.foldl observeLine { sawNoOplog := false, lastFatal := none }

/-- The reason a node stops when the recovery boot fails. -/
def recoveryFailedGuidance (code : Option Int) (lastFatal : Option String) : String :=
  let exit := match code with
    | some code => "exited with code " ++ toString code
    | none => "was killed by a signal"
  let fatal := (lastFatal.map fun line => "; its last fatal line: " ++ line).getD ""
  "This node's data couldn't be prepared for a standalone start: the recovery step " ++
    "(recoverFromOplogAsStandalone) " ++ exit ++ " before it came up" ++ fatal ++
    ". The data directory is unchanged. Starting standalone without that step would lose the " ++
    "writes after the last checkpoint, so this node stops here. To fix it, set RS_ENABLED=true " ++
    "and restore RS_SEEDS and RS_KEY to the values this service had before the revert, then " ++
    "redeploy. Once the node is up, revert to standalone again. If it stops here again, restore " ++
    "from a backup."

/-- Verdict for a recovery mongod that exited before it accepted connections. -/
def earlyExitVerdict (sawNoOplog : Bool) (code : Option Int) (lastFatal : Option String) :
    Except String Replay :=
  if sawNoOplog then .ok .noOplog else .error (recoveryFailedGuidance code lastFatal)

/-! ### The recovery boot -/

/-- What `try_wait` returns: an error, or the exit code of a child that ended (none for a signal). -/
inductive TryWait where
  | failed (cause : String)
  | running
  | exited (code : Option Int)
deriving Repr, DecidableEq, Inhabited

/-- One iteration of the wait for the recovery mongod to come up. -/
structure RecoveryPoll where
  exit : TryWait
  answersPing : Bool
deriving Repr, DecidableEq, Inhabited

/-- One iteration of the wait for its shutdown checkpoint. -/
structure ShutdownPoll where
  exit : TryWait
  elapsed : Duration
deriving Repr, DecidableEq, Inhabited

/-- Everything the environment does in a recovery boot. -/
structure RecoveryRun where
  spawn : Except String Unit
  stdoutPiped : Bool
  polls : List RecoveryPoll
  /-- The lines forwarded before the verdict. -/
  lines : List String
  pidKnown : Bool
  signal : Except String Unit
  shutdownPolls : List ShutdownPoll

def shutdownLimit : Duration := .fromSecs (30 * 60)

def withContext (context cause : String) : String := context ++ ": " ++ cause

/-- Whether the recovery mongod came up, or the verdict if it ended first. -/
def awaitRecovery (observed : Observed) : List RecoveryPoll → Option (Except String Replay ⊕ Unit)
  | [] => none
  | poll :: rest =>
      match poll.exit with
      | .failed cause => some (.inl (.error (withContext "waiting on the recovery mongod" cause)))
      | .exited code => some (.inl (earlyExitVerdict observed.sawNoOplog code observed.lastFatal))
      | .running => if poll.answersPing then some (.inr ()) else awaitRecovery observed rest

/-- The exit of the stopped recovery mongod. It is never killed, only waited on. -/
def awaitShutdown : List ShutdownPoll → Option (Except String (Option Int))
  | [] => none
  | poll :: rest =>
      match poll.exit with
      | .failed cause =>
          some (.error (withContext "waiting for the recovery mongod to exit" cause))
      | .exited code => some (.ok code)
      | .running =>
          if shutdownLimit ≤ poll.elapsed then
            some (.error ("the recovery mongod did not finish its shutdown checkpoint within " ++
              toString (shutdownLimit / 1000000000) ++ "s"))
          else awaitShutdown rest

/-- `Option<i32>` in the debug format. -/
def debugCode : Option Int → String
  | some code => "Some(" ++ toString code ++ ")"
  | none => "None"

def stopCleanly (run : RecoveryRun) : Option (Except String Unit) :=
  if !run.pidKnown then some (.error "the recovery mongod has no pid")
  else
    match run.signal with
    | .error cause => some (.error (withContext "signaling the recovery mongod" cause))
    | .ok () =>
        match awaitShutdown run.shutdownPolls with
        | none => none
        | some (.error failure) => some (.error failure)
        | some (.ok code) =>
            if code = some 0 then some (.ok ())
            else
              some (.error ("the recovery mongod exited with code " ++ debugCode code ++
                " during its shutdown; the checkpoint may not have been taken"))

/-- The recovery boot, run to completion. -/
def replayOplogAsStandalone (run : RecoveryRun) : Option (Except String Replay) :=
  match run.spawn with
  | .error cause => some (.error (withContext "failed to spawn the recovery mongod" cause))
  | .ok () =>
      if !run.stdoutPiped then some (.error "the recovery mongod has no stdout pipe")
      else
        match awaitRecovery (forwardLog run.lines) run.polls with
        | none => none
        | some (.inl verdict) => some verdict
        | some (.inr ()) =>
            match stopCleanly run with
            | none => none
            | some (.error failure) => some (.error failure)
            | some (.ok ()) => some (.ok .replayed)

/-! ### When a recovery boot succeeds -/

def TryWait.isExit : TryWait → Bool
  | .exited _ => true
  | _ => false

/-- A `try_wait` of the recovery boot found that its mongod is gone. -/
def RecoveryRun.sawExit (run : RecoveryRun) : Bool :=
  (run.polls.any fun poll => poll.exit.isExit) || run.shutdownPolls.any fun poll => poll.exit.isExit

theorem awaitRecovery_exited {observed : Observed} {polls : List RecoveryPoll} {verdict : Replay}
    (left : awaitRecovery observed polls = some (.inl (.ok verdict))) :
    (polls.any fun poll => poll.exit.isExit) = true := by
  induction polls with
  | nil => cases left
  | cons poll rest ih =>
      unfold awaitRecovery at left
      split at left
      · cases left
      · rename_i code exited
        simp [exited, TryWait.isExit]
      · split at left
        · cases left
        · simp [ih left]

theorem awaitShutdown_exited {polls : List ShutdownPoll} {code : Option Int}
    (left : awaitShutdown polls = some (.ok code)) :
    (polls.any fun poll => poll.exit.isExit) = true := by
  induction polls with
  | nil => cases left
  | cons poll rest ih =>
      unfold awaitShutdown at left
      split at left
      · cases left
      · rename_i code exited
        simp [exited, TryWait.isExit]
      · split at left
        · cases left
        · simp [ih left]

/-- A recovery boot succeeds only once its mongod is gone. -/
theorem replay_sawExit {run : RecoveryRun} {verdict : Replay}
    (ended : replayOplogAsStandalone run = some (.ok verdict)) : run.sawExit = true := by
  unfold replayOplogAsStandalone at ended
  split at ended
  · cases ended
  split at ended
  · cases ended
  split at ended
  · cases ended
  · rename_i early waited
    cases ended
    simp [RecoveryRun.sawExit, awaitRecovery_exited waited]
  split at ended
  · cases ended
  · cases ended
  · rename_i stopped
    unfold stopCleanly at stopped
    split at stopped
    · cases stopped
    split at stopped
    · cases stopped
    split at stopped
    · cases stopped
    · cases stopped
    · rename_i code waited
      simp [RecoveryRun.sawExit, awaitShutdown_exited waited]

theorem forwardLog_sawNoOplog {lines : List String} :
    (forwardLog lines).sawNoOplog = true ↔ ∃ line ∈ lines, mongodLogId line = some noOplogLogId := by
  have general : ∀ observed, (lines.foldl observeLine observed).sawNoOplog = true ↔
      observed.sawNoOplog = true ∨ ∃ line ∈ lines, mongodLogId line = some noOplogLogId := by
    induction lines with
    | nil => simp
    | cons line rest ih =>
        intro observed
        rw [List.foldl_cons, ih]
        simp [observeLine, or_assoc]
  rw [forwardLog, general]
  simp

/-- A verdict without a replay is the missing oplog that mongod itself reported. -/
theorem noOplog_reported {run : RecoveryRun}
    (ended : replayOplogAsStandalone run = some (.ok .noOplog)) :
    ∃ line ∈ run.lines, mongodLogId line = some noOplogLogId := by
  have early : ∀ polls, awaitRecovery (forwardLog run.lines) polls = some (.inl (.ok .noOplog)) →
      (forwardLog run.lines).sawNoOplog = true := by
    intro polls verdict
    induction polls with
    | nil => cases verdict
    | cons poll rest ih =>
        unfold awaitRecovery at verdict
        split at verdict
        · cases verdict
        · rename_i code exited
          unfold earlyExitVerdict at verdict
          split at verdict
          · rename_i saw
            exact saw
          · cases verdict
        · split at verdict
          · cases verdict
          · exact ih verdict
  apply forwardLog_sawNoOplog.1
  unfold replayOplogAsStandalone at ended
  split at ended
  · cases ended
  · split at ended
    · cases ended
    · split at ended
      · cases ended
      · rename_i verdict waited
        cases ended
        exact early _ waited
      · split at ended
        · cases ended
        · cases ended
        · cases ended

end MongoHa
