/-
Module: MongoHa.Wrapper.Orchestrate
Layer: Wrapper
Purpose: The background task of `rs.rs` as a machine over polls. `orchestrateStep` is one iteration of
  the bootstrap loop (own status, peer round, verdict, action), `dutiesStep` one iteration of
  `member_duties` with its prune round, and `wrapperStep` the two phases in sequence: the bootstrap loop
  breaks into the duties once and never comes back. A `Poll` holds every reply the environment gives in
  one iteration, so a step is a function and every run of the task is a list of polls. Log lines are left
  out, but for the probes the prune round logs; the replication health round of the duties is in
  `MongoHa.Wrapper.MemberDuties`.
Imports: MongoHa.Foundations.HeldSince, MongoHa.Wrapper.InitiateGuard
Trusted boundary: human-reviewed spec
Main exports: TelemetryEvent, Command, Poll, addSelfThroughPrimary, OrchestrateState, orchestrateStep,
  pruneMembers, dutiesStep, Phase, Report, wrapperStep, wrapperTrace
Open obligations: none
-/
import MongoHa.Foundations.HeldSince
import MongoHa.Wrapper.InitiateGuard

namespace MongoHa

open Foundations
open Foundations.RustStr

/-- The events the wrapper reports. -/
inductive TelemetryEvent where
  | nodeStarted (node role : String)
  | roleChanged (node oldRole newRole : String)
  | componentError (component error context : String)
deriving Repr, DecidableEq, Inhabited

/-- What the task asks of the outside world. -/
inductive Command where
  /-- `replSetInitiate` of a one-member set on the local mongod. -/
  | initiate (setName selfHost : String)
  /-- `replSetReconfig`, on the primary at this address, to the config that adds this node. -/
  | addSelf (primaryHost : String) (next : Document)
  /-- `replSetReconfig`, on the local mongod, to the config without this member. -/
  | removeMember (member : String) (next : Document)
  | send (event : TelemetryEvent)
deriving Repr

/-- What a direct connection to the primary answers. -/
structure PrimaryConnection where
  rsConfig : MongoResult Document
  reconfig : MongoResult Unit

/-- What the prune round reads about one row of the status, and how its own reconfig ends. -/
structure MemberReply where
  nameVerdict : NameVerdict
  rsConfig : MongoResult Document
  reconfig : MongoResult Unit

/-- Every reply of the environment in one iteration of the task. -/
structure Poll where
  now : Instant
  hello : MongoResult Hello
  status : MongoResult RsStatus
  /-- How the query of the `i`-th declared peer ended. -/
  task : Nat → TaskOutcome
  /-- What probing the name of the `i`-th answer would return. -/
  probe : Nat → NameVerdict
  primary : String → PrimaryConnection
  initiate : MongoResult Unit
  /-- The replies about the `i`-th row of the status. -/
  member : Nat → MemberReply

/-- The poll of a node without a config, on a mongod that answers and refuses nothing. -/
def Poll.quiet (now : Instant) : Poll :=
  { now := now
    hello := .ok {}
    status := .ok .notInitialized
    task := fun _ => .failed
    probe := fun _ => .existsOrUnknown
    primary := fun _ => { rsConfig := .ok [], reconfig := .ok () }
    initiate := .ok ()
    member := fun _ =>
      { nameVerdict := .existsOrUnknown, rsConfig := .ok [], reconfig := .ok () } }

def MongoError.withContext (failure : MongoError) (context : String) : MongoError :=
  { failure with text := context ++ ": " ++ failure.text }

/-- Add this node to the live set through its primary. `ok true` when a reconfig was accepted,
    `ok false` when the config already names this node. -/
def addSelfThroughPrimary (config : Config) (primaryHost : String) (myHasData : Bool)
    (connection : PrimaryConnection) : MongoResult Bool × List Command :=
  match connection.rsConfig with
  | .error failure =>
      (.error (failure.withContext ("reading the set's config from " ++ primaryHost)), [])
  | .ok current =>
      let me := config.nodeId
      if (configMemberHosts current).any fun host => eqIgnoreAsciiCase host me then (.ok false, [])
      else
        let warning :=
          if myHasData then
            [Command.send (.componentError "mongo-wrapper"
              ("this node holds user data but is not part of the live set at " ++ primaryHost ++
                "; joining it — initial sync will replace the local data") "join")]
          else []
        match configWithMemberAdded current me with
        | .error text => (.error { code := none, text := text }, warning)
        | .ok next =>
            let outcome := match connection.reconfig with
              | .ok () => .ok true
              | .error failure => .error (failure.withContext
                  ("adding " ++ me ++ " to the set through " ++ primaryHost))
            (outcome, warning ++ [.addSelf primaryHost next])

/-! ### The bootstrap loop -/

/-- What `orchestrate` keeps between its polls. -/
structure OrchestrateState where
  gone : GoneTracker
  stableSince : Option Instant

def OrchestrateState.new : OrchestrateState := { gone := .new, stableSince := none }

/-- What one iteration did: the verdict of its peer round, when it completed one, the probes it logged
    and the commands it issued, in order. -/
structure Report where
  verdict : Option Verdict := none
  probes : List (String × NameVerdict) := []
  commands : List Command := []

/-- Whether the status calls for the peer round: `none` breaks the loop, this node is a member;
    otherwise whether this node was removed from the set's config. -/
def removedFlag : RsStatus → Option Bool
  | .notInitialized => some false
  | .notAMember => some true
  | .active _ myState _ _ _ => if myState ≠ stateRemoved then none else some true

/-- The peer round of an iteration. -/
def surveyRound (config : Config) (gone : GoneTracker) (poll : Poll) : Survey :=
  surveyPeers config poll.now gone
    (probeAnswers (queryPeers config.peerHosts poll.task) poll.probe)

def roundVerdict (config : Config) (myHasData : Bool) (gone : GoneTracker) (poll : Poll) : Verdict :=
  Rs.decide myHasData config.mySeedRank (surveyRound config gone poll).peers

/-- The telemetry of an initiate attempt. -/
def initiateEvents (config : Config) (outcome : MongoResult Unit) : List Command :=
  match outcome with
  | .ok () => [.send (.nodeStarted config.privateDomain "primary")]
  | .error failure =>
      if failure.code = some Codes.alreadyInitialized then []
      else [.send (.componentError "mongo-wrapper" failure.text "replSetInitiate")]

/-- The match on the verdict at the end of an iteration. -/
def actOnVerdict (config : Config) (myHasData removed : Bool) (state : OrchestrateState)
    (poll : Poll) : Verdict → OrchestrateState × List Command
  | .joinExisting (some primary) =>
      -- A node this set removed holds the set's own data: no join over foreign data.
      ({ state with stableSince := none },
        (addSelfThroughPrimary config primary (myHasData && !removed) (poll.primary primary)).2)
  | .joinExisting none => ({ state with stableSince := none }, [])
  | .safeToInitiate =>
      -- Removed, and nobody holds a set: mongod would refuse the initiate. The clock is left alone.
      if removed then (state, [])
      else
        let since := state.stableSince.getD poll.now
        if Instant.durationSince poll.now since < config.bootstrapDwell then
          ({ state with stableSince := some since }, [])
        else
          ({ state with stableSince := none },
            .initiate config.rsName config.nodeId :: initiateEvents config poll.initiate)
  | .deferTo _ => ({ state with stableSince := none }, [])
  | .undecidable => ({ state with stableSince := none }, [])

/-- One iteration of the bootstrap loop. No next state means that the loop is left. -/
def orchestrateStep (config : Config) (myHasData : Bool) (state : OrchestrateState) (poll : Poll) :
    Option OrchestrateState × Report :=
  match poll.status with
  | .error _ => (some state, {})
  | .ok status =>
      match removedFlag status with
      | none => (none, {})
      | some removed =>
          let verdict := roundVerdict config myHasData state.gone poll
          let (next, commands) := actOnVerdict config myHasData removed
            { state with gone := (surveyRound config state.gone poll).gone } poll verdict
          (some next, { verdict := some verdict, commands := commands })

/-! ### Member duties -/

/-- What one prune round leaves. -/
structure PruneRound where
  gone : GoneTracker
  probes : List (String × NameVerdict)
  commands : List Command

def prunedEvent (host : String) : TelemetryEvent :=
  .componentError "mongo-wrapper"
    ("removed departed member " ++ host ++ " from the replica set config") "membership-prune"

/-- The loop of `prune_round` over the rows of the status, each with the replies about it. A failed
    config read and an accepted removal end the round, whatever rows are left. -/
def pruneMembers (now : Instant) (dwell : Duration) :
    GoneTracker → List (RsMember × MemberReply) → PruneRound
  | gone, [] => { gone := gone, probes := [], commands := [] }
  | gone, (m, reply) :: rest =>
      if m.isSelf then pruneMembers now dwell gone rest
      else if m.healthy then pruneMembers now dwell (gone.observeReachable m.host) rest
      else
        let observed := gone.observe m.host reply.nameVerdict now
        let probed (round : PruneRound) : PruneRound :=
          { round with probes := (m.host, reply.nameVerdict) :: round.probes }
        if !observed.isWaived m.host now dwell then probed (pruneMembers now dwell observed rest)
        else
          match reply.rsConfig with
          | .error _ => probed { gone := observed, probes := [], commands := [] }
          | .ok current =>
              match configWithMemberRemoved current m.host with
              | .error _ => probed (pruneMembers now dwell observed rest)
              | .ok next =>
                  match reply.reconfig with
                  | .ok () =>
                      probed
                        { gone := observed.observeReachable m.host
                          probes := []
                          commands := [.removeMember m.host next, .send (prunedEvent m.host)] }
                  | .error _ =>
                      let round := pruneMembers now dwell observed rest
                      probed { round with commands := .removeMember m.host next :: round.commands }

/-- The rows of the status with the replies about them. -/
def memberRows (members : List RsMember) (poll : Poll) : List (RsMember × MemberReply) :=
  members.mapIdx fun i m => (m, poll.member i)

def pruneRound (config : Config) (gone : GoneTracker) (poll : Poll) : PruneRound :=
  match poll.status with
  | .ok (.active _ _ _ members _) =>
      pruneMembers poll.now config.memberPruneDwell gone (memberRows members poll)
  | _ => { gone := gone, probes := [], commands := [] }

/-- What the duties of a member keep between its polls. -/
structure DutiesState where
  lastRole : Option String
  gone : GoneTracker

def DutiesState.new : DutiesState := { lastRole := none, gone := .new }

def Hello.role (hello : Hello) : String :=
  if hello.isWritablePrimary then "primary" else if hello.secondary then "secondary" else "other"

/-- The telemetry of a role read: the first one, and every change. -/
def roleEvents (config : Config) (lastRole : Option String) (role : String) : List Command :=
  match lastRole with
  | none => [.send (.nodeStarted config.privateDomain role)]
  | some previous =>
      if previous ≠ role then [.send (.roleChanged config.privateDomain previous role)] else []

/-- One iteration of `member_duties`. -/
def dutiesStep (config : Config) (state : DutiesState) (poll : Poll) : DutiesState × Report :=
  match poll.hello with
  | .error _ => (state, {})
  | .ok hello =>
      let events := roleEvents config state.lastRole hello.role
      if hello.isWritablePrimary then
        let round := pruneRound config state.gone poll
        ({ lastRole := some hello.role, gone := round.gone },
          { probes := round.probes, commands := events ++ round.commands })
      else ({ state with lastRole := some hello.role }, { commands := events })

/-! ### The task as a whole -/

/-- Where the task is: still deciding how to become a member, or a member for the rest of the
    process. -/
inductive Phase where
  | bootstrap (state : OrchestrateState)
  | duties (state : DutiesState)

def Phase.start : Phase := .bootstrap .new

/-- One iteration of the task, in whichever phase it is. -/
def wrapperStep (config : Config) (myHasData : Bool) : Phase → Poll → Phase × Report
  | .bootstrap state, poll =>
      match orchestrateStep config myHasData state poll with
      | (some next, report) => (.bootstrap next, report)
      | (none, report) => (.duties .new, report)
  | .duties state, poll =>
      let (next, report) := dutiesStep config state poll
      (.duties next, report)

def nextPhase (config : Config) (myHasData : Bool) (phase : Phase) (poll : Poll) : Phase :=
  (wrapperStep config myHasData phase poll).1

/-- What the task does in one iteration. -/
def pollReport (config : Config) (myHasData : Bool) (entry : Phase × Poll) : Report :=
  (wrapperStep config myHasData entry.1 entry.2).2

theorem pollReport_bootstrap {config : Config} {myHasData : Bool} {state : OrchestrateState}
    {poll : Poll} :
    pollReport config myHasData (.bootstrap state, poll) =
      (orchestrateStep config myHasData state poll).2 := by
  simp only [pollReport, wrapperStep]
  cases step : orchestrateStep config myHasData state poll with
  | mk next report => cases next <;> rfl

theorem pollReport_duties {config : Config} {myHasData : Bool} {state : DutiesState} {poll : Poll} :
    pollReport config myHasData (.duties state, poll) = (dutiesStep config state poll).2 := rfl

theorem nextPhase_duties {config : Config} {myHasData : Bool} {state : DutiesState} {poll : Poll} :
    nextPhase config myHasData (.duties state) poll = .duties (dutiesStep config state poll).1 := rfl

def Command.isInitiate : Command → Bool
  | .initiate _ _ => true
  | _ => false

/-- Whether the iteration issued `rs_initiate`. -/
def Report.initiates (report : Report) : Bool :=
  report.commands.any Command.isInitiate

/-- Every iteration of a run from process start, with the phase that met it. -/
def wrapperTrace (config : Config) (myHasData : Bool) (polls : List Poll) : List (Phase × Poll) :=
  trace (nextPhase config myHasData) .start polls

/-- Iterations are a sleep apart, so the clock strictly advances from each to every later one. -/
def Timed (polls : List Poll) : Prop :=
  HeldSince.Timed Poll.now polls

end MongoHa
