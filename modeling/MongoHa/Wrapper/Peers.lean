/-
Module: MongoHa.Wrapper.Peers
Layer: Wrapper
Purpose: The state nodes exchange over their health servers: the `/rs/state` body, how a node computes
  its own (`local_rs_state` of `rs.rs`), what a peer query can come back with, and the verdict of the
  name probe on a peer that did not answer.
Imports: MongoHa.Wrapper.Bson, MongoHa.Wrapper.Mongo
Trusted boundary: human-reviewed spec
Main exports: RsState, PeerAnswer, NameVerdict, StateReads, localRsState, localRsState_hasData
Open obligations: none
-/
import MongoHa.Wrapper.Bson
import MongoHa.Wrapper.Mongo

namespace MongoHa

/-- mongod's state code for a member that was removed from the set's config. -/
def stateRemoved : Int := 10

/-- A node's self-reported replica set state, the `/rs/state` body. -/
structure RsState where
  nodeId : String
  /-- This node holds a replica set config: a set exists, join it. -/
  setActive : Bool
  setName : Option String
  myState : Option String
  isPrimary : Bool
  primaryHost : Option String
  members : List String
  membersTotal : Nat
  membersHealthy : Nat
  votingMembers : Option Nat
  /-- The data directory already held a mongod dataset when the container started. -/
  hasData : Bool
  configVersion : Option Int
  oplogWindowSeconds : Option Nat
deriving Repr, DecidableEq, Inhabited

/-- One peer's answer, or why there is none. -/
inductive PeerAnswer where
  | state (reported : RsState)
  | notReady
  | unreachable
deriving Repr, DecidableEq, Inhabited

/-- What a completed name probe learned. -/
inductive NameVerdict where
  | gone
  | existsOrUnknown
deriving Repr, DecidableEq, Inhabited

/-- The replies of the local mongod that one `/rs/state` answer is computed from. -/
structure StateReads where
  status : MongoResult RsStatus
  oplogWindow : MongoResult (Option Duration)
  rsConfig : MongoResult Document

namespace StateReads

/-- The whole seconds of the oplog window; absent when it is empty or could not be read. -/
def oplogWindowSeconds (reads : StateReads) : Option Nat :=
  match reads.oplogWindow with
  | .ok window => window.map (· / 1000000000)
  | .error _ => none

/-- The config's `version`, when it is an int64 or an int32. -/
def configVersion (reads : StateReads) : Option Int :=
  match reads.rsConfig with
  | .ok config =>
      match config.get "version" with
      | some (.int64 version) => some version
      | some (.int32 version) => some version
      | _ => none
  | .error _ => none

end StateReads

/-- This node's own `/rs/state` answer. `hasData` was decided before mongod spawned. -/
def localRsState (config : Config) (hasData : Bool) (reads : StateReads) : MongoResult RsState :=
  match reads.status with
  | .error failure => .error failure
  | .ok status =>
      match status with
      -- No config at all, or one that does not list this node: not part of a live set.
      | .notInitialized | .notAMember =>
          .ok
            { nodeId := config.nodeId
              setActive := false
              setName := none
              myState := none
              isPrimary := false
              primaryHost := none
              members := []
              membersTotal := 0
              membersHealthy := 0
              votingMembers := none
              hasData := hasData
              configVersion := none
              oplogWindowSeconds := reads.oplogWindowSeconds }
      | .active setName myState myStateStr members votingMembers =>
          .ok
            { nodeId := config.nodeId
              setActive := myState != stateRemoved
              setName := some setName
              myState := some myStateStr
              isPrimary := myState == States.primary
              primaryHost := (members.find? fun m => m.state == States.primary).map RsMember.host
              members := members.map RsMember.host
              membersTotal := members.length
              membersHealthy := members.countP RsMember.reachable
              votingMembers := votingMembers
              hasData := hasData
              configVersion := reads.configVersion
              oplogWindowSeconds := reads.oplogWindowSeconds }

/-- Whatever mongod replies, an answer carries the flag decided at boot. -/
theorem localRsState_hasData {config : Config} {hasData : Bool} {reads : StateReads}
    {reported : RsState} (answer : localRsState config hasData reads = .ok reported) :
    reported.hasData = hasData := by
  unfold localRsState at answer
  split at answer
  · cases answer
  · split at answer
    all_goals
      injection answer with same
      rw [← same]

/-- A node whose mongod holds no config answers that no set is active. -/
theorem localRsState_notInitialized {config : Config} {hasData : Bool} {reads : StateReads}
    {reported : RsState} (noSet : reads.status = .ok .notInitialized)
    (answer : localRsState config hasData reads = .ok reported) :
    reported.setActive = false := by
  rw [localRsState, noSet] at answer
  injection answer with same
  rw [← same]

end MongoHa
