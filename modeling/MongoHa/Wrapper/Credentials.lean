/-
Module: MongoHa.Wrapper.Credentials
Layer: Wrapper
Purpose: The tasks that work on a node's credentials, as programs over their calls: the handler of
  `/credentials/rotate` with every operation of `apply`, an attempt of the reconcile loop and
  `reconcile_keyfile_at_boot` of `credentials.rs`, the HA part of `main.rs`, the restart in
  `process_manager.rs` and one iteration of the resolver of `auth_pin.rs`. Every call of mongod, of a peer
  and of the volume is a call of the program, so that other tasks may come between any two. Log lines are
  left out. The wait for the restarted mongod ends after `polls` rounds at the latest, where the timeout
  around `apply` drops it; the other timeouts are calls that fail.
Imports: MongoHa.Foundations.Program, MongoHa.Wrapper.AuthPin, MongoHa.Wrapper.Keyfile
Trusted boundary: human-reviewed spec
Main exports: WriteReply, Effect, Effect.Reply, Task, orRunAdmin, healthySet, setReady, apply,
  RotateAnswer, rotate, reconcileAttempt, reconcileKeyfileAtBoot, bootHa, superviseRestart, resolverTask
Open obligations: none
-/
import MongoHa.Foundations.Program
import MongoHa.Wrapper.AuthPin
import MongoHa.Wrapper.Keyfile

namespace MongoHa.Credentials

open Foundations

/-! ### Calls -/

/-- How a `remove_file` ends. -/
inductive Removal where
  | removed
  | notFound
  | failed (text : String)
deriving Repr, DecidableEq, Inhabited

/-- The document of a write that mongod carried out: `ok: 1`, and `writeConcernError` when a majority did
    not confirm the write in time. -/
structure WriteReply where
  writeConcernError : Option MongoError := none
deriving Repr, DecidableEq, Inhabited

/-- One call of mongod, of a peer, of the volume or of the statics of the process. -/
inductive Effect where
  | probeLocalPassword (password : String)
  | swapPassword (password : String)
  | ping
  | hello
  | rsStatus
  | probeName (host : String)
  /-- `updateUser` with a majority write concern and a write timeout of 30 s. -/
  | updateUser (username password : String)
  | stepDown (secs catchUpSecs : Nat)
  | readPin
  | writePin (pin : AuthPin)
  | writePasswordPin (password : String) (fallbackKey : Option String)
  /-- The pending file, when it parses. -/
  | readPending
  /-- The whole seconds since the pending file was written. -/
  | pendingAge
  | savePending (request : Rotation)
  | removePending
  | loadedKeyfile
  | setLoadedKeyfile (keyfile : String)
  | notifyRestart
  | writeKeyfileContent (content : String)
  /-- Stop mongod gracefully and spawn it again. -/
  | restartMongod
  | discoverLiveSetKeyfile (password : String)
  | initServerRunning
  | send (event : TelemetryEvent)
  | sleep
deriving Repr, DecidableEq

/-- What each call brings back. -/
abbrev Effect.Reply : Effect → Type
  | .probeLocalPassword _ => PasswordProbe
  | .swapPassword _ => Unit
  | .ping => MongoResult Unit
  | .hello => MongoResult Hello
  | .rsStatus => MongoResult RsStatus
  | .probeName _ => NameVerdict
  | .updateUser _ _ => MongoResult WriteReply
  | .stepDown _ _ => MongoResult Unit
  | .readPin => Option AuthPin
  | .writePin _ => Except WriteFailure Unit
  | .writePasswordPin _ _ => Except WriteFailure Unit
  | .readPending => Option Rotation
  | .pendingAge => Option Nat
  | .savePending _ => Except WriteFailure Unit
  | .removePending => Removal
  | .loadedKeyfile => Option String
  | .setLoadedKeyfile _ => Unit
  | .notifyRestart => Unit
  | .writeKeyfileContent _ => Except String Unit
  | .restartMongod => Except String Unit
  | .discoverLiveSetKeyfile _ => Option String
  | .initServerRunning => Bool
  | .send _ => Unit
  | .sleep => Unit

/-- A program over these calls. -/
abbrev Task (φ α : Type) := Program Effect.Reply φ α

def perform {φ : Type} (effect : Effect) : Task φ effect.Reply := Program.call effect

/-- What makes `apply` fail: one of its own checks, with its text, or a call it relies on. -/
inductive RotationError where
  | refused (text : String)
  | mongo (failure : MongoError)
  | write (failure : WriteFailure)
  | io (text : String)
  | deadline
deriving Repr, DecidableEq, Inhabited

def orMongo {α : Type} : MongoResult α → Task RotationError α
  | .ok value => .done value
  | .error failure => .fail (.mongo failure)

/-- `run_admin(..).await?`, which drops the document: whether a majority confirmed the write is not looked
    at. -/
def orRunAdmin : MongoResult WriteReply → Task RotationError Unit
  | .ok _ => .done ()
  | .error failure => .fail (.mongo failure)

def orWrite : Except WriteFailure Unit → Task RotationError Unit
  | .ok () => .done ()
  | .error failure => .fail (.write failure)

/-- A file that is not there needs no removal. -/
def orRemoval : Removal → Task RotationError Unit
  | .removed => .done ()
  | .notFound => .done ()
  | .failed text => .fail (.io text)

def ensure (condition : Prop) [Decidable condition] (text : String) : Task RotationError Unit :=
  Program.ensure condition (.refused text)

/-! ### The health of the set -/

/-- Every member that still exists is healthy, exactly one of them is the primary, and the config as a
    whole has a majority. `gone` are the members whose service no longer exists. -/
def healthySet (status : RsStatus) (gone : List String) : Bool :=
  match status with
  | .active _ _ _ members _ =>
      let present := members.filter fun m => !gone.contains m.host
      !present.isEmpty && (present.countP fun m => m.state == 1) == 1 &&
        (present.all fun m => m.healthy && (m.state == 1 || m.state == 2)) && hasMajority members
  | _ => false

/-- The members the set cannot reach whose name is gone right now. -/
def goneMembers : List RsMember → Task RotationError (List String)
  | [] => pure []
  | m :: members =>
      if !m.healthy && !m.isSelf then do
        let verdict ← perform (.probeName (splitHostPort m.host).1)
        let gone ← goneMembers members
        pure (if verdict = .gone then m.host :: gone else gone)
      else goneMembers members

/-- Whether the set is healthy, by its status and the names of the members that are down. -/
def setReady : Task RotationError Bool := do
  let status ← (perform .rsStatus).bind orMongo
  let gone ← match status with
    | .active _ _ _ members _ => goneMembers members
    | _ => pure []
  pure (healthySet status gone)

/-! ### The operations -/

section Apply

variable (config : Config) (deriveKeyfileContent : String → String) (polls : Nat)

def preflight (request : Rotation) : Task RotationError Unit := do
  let loaded ← perform .loadedKeyfile
  ensure (loaded = some (targetKeyfile deriveKeyfileContent request false))
    "keyfile and root password are not coupled"
  let probe ← perform (.probeLocalPassword request.newPassword)
  ensure (probe = .works) "current password refused"
  (perform .ping).bind orMongo
  let ready ← setReady
  ensure (ready = true) "cluster not healthy"

def database (request : Rotation) : Task RotationError Unit := do
  let probe ← perform (.probeLocalPassword request.newPassword)
  if probe ≠ .works then
    let current ← perform (.probeLocalPassword request.currentPassword)
    ensure (current = .works) "current password refused"
    perform (.swapPassword request.currentPassword)
    let hello ← (perform .hello).bind orMongo
    ensure (hello.isWritablePrimary = true) "not primary"
    (perform (.updateUser config.mongoRootUsername request.newPassword)).bind orRunAdmin
  perform (.swapPassword request.newPassword)

def member (request : Rotation) : Task RotationError Unit := do
  let probe ← perform (.probeLocalPassword request.newPassword)
  ensure (probe = .works) "new password not replicated"
  perform (.swapPassword request.newPassword)
  let loaded ← perform .loadedKeyfile
  (perform (.writePasswordPin request.newPassword loaded)).bind orWrite

def keyStatus : Task RotationError Unit := do
  let ready ← setReady
  ensure (ready = true) "replica set not healthy"

/-- Wait for the supervisor to load the keyfile and for the set to be healthy again. -/
def awaitLoaded (target : String) : Nat → Task RotationError Unit
  | 0 => .fail .deadline
  | polls + 1 => do
      let loaded ← perform .loadedKeyfile
      let ready ←
        if loaded = some target then setReady.attempt.bind fun outcome => pure (outcome.toOption.getD false)
        else pure false
      if ready then pure () else do
        perform .sleep
        awaitLoaded target polls

/-- `key_prepare` and `key_commit`. The pin is durable restart intent. -/
def keyPass (request : Rotation) : Task RotationError Unit := do
  let probe ← perform (.probeLocalPassword request.newPassword)
  ensure (probe = .works) "target root password refused"
  let target := targetKeyfile deriveKeyfileContent request (request.operation = .keyPrepare)
  let loaded ← perform .loadedKeyfile
  if loaded ≠ some target then
    let ready ← setReady
    ensure (ready = true) "replica set not healthy before restart"
    (perform (.writePin { password := request.newPassword, keyfile := some target })).bind orWrite
    perform .notifyRestart
  awaitLoaded target polls

def verify (request : Rotation) : Task RotationError Unit := do
  let target := targetKeyfile deriveKeyfileContent request false
  let loaded ← perform .loadedKeyfile
  ensure (loaded = some target) "previous internal key still loaded"
  let pin ← perform .readPin
  ensure (pin.bind AuthPin.keyfile = some target) "keyfile pin differs"
  let ready ← setReady
  ensure (ready = true) "cluster not healthy"
  if request.currentPassword ≠ request.newPassword then
    let previous ← perform (.probeLocalPassword request.currentPassword)
    ensure (previous = .accessDenied) "previous password still accepted"
  let probe ← perform (.probeLocalPassword request.newPassword)
  ensure (probe = .works) "new password refused"
  let pin ← perform .readPin
  ensure (pin.map AuthPin.password = some request.newPassword) "pin differs"
  (perform .ping).bind orMongo
  (perform .removePending).bind orRemoval

/-- The answer to an operation that succeeded. -/
structure RotationReply where
  version : Nat := 1
  leader : Bool
deriving Repr, DecidableEq, Inhabited

def leaderReply : Task RotationError RotationReply := do
  let hello ← (perform .hello).bind orMongo
  pure { leader := hello.isWritablePrimary }

/-- `apply`: the phase a request asks for. -/
def apply (request : Rotation) : Task RotationError RotationReply :=
  match request.operation with
  | .preflight => (preflight deriveKeyfileContent request).bind fun _ => leaderReply
  | .prepare => do
      (perform (.savePending request)).bind orWrite
      pure { leader := false }
  | .database => (database config request).bind fun _ => leaderReply
  | .member => (member request).bind fun _ => leaderReply
  | .keyStatus => keyStatus.bind fun _ => leaderReply
  | .keyPrepare => (keyPass deriveKeyfileContent polls request).bind fun _ => leaderReply
  | .keyCommit => (keyPass deriveKeyfileContent polls request).bind fun _ => leaderReply
  | .verify => (verify deriveKeyfileContent request).bind fun _ => leaderReply

/-- What the handler answers: a status with a fixed text, or 200 with the reply of the operation. -/
inductive RotateAnswer where
  | refused (status : Nat) (error : String)
  | ok (reply : RotationReply)
deriving Repr, DecidableEq, Inhabited

/-- The answer when the operation failed or ran past its 35 s. -/
def RotateAnswer.unavailable : RotateAnswer :=
  .refused 503 "credential rotation could not be verified"

/-- The handler. `supplied` is the credential of the Basic header, when it carries one that decodes. -/
def rotate (supplied : Option String) (request : Rotation) : Task Empty RotateAnswer := do
  let pin ← perform .readPin
  let active := (pin.map AuthPin.password).getD config.mongoRootPassword
  if supplied ≠ some ("railway:" ++ active) then
    pure (.refused 401 "unauthorized")
  else if request.newPassword.isEmpty ∨ 1024 < request.newPassword.utf8ByteSize then
    pure (.refused 400 "invalid password")
  else do
    let outcome ← (apply config deriveKeyfileContent polls request).attempt
    match outcome with
    | .ok reply => pure (.ok reply)
    | .error _ => pure .unavailable

/-- One attempt of the reconcile loop: the member phase of a pending rotation that is at least 30 s old. -/
def reconcileAttempt : Task RotationError Unit := do
  let age ← perform .pendingAge
  match age with
  | none => .fail (.io "the pending file")
  | some age => do
      ensure (30 ≤ age) "normal ordered phase"
      let pending ← perform .readPending
      match pending with
      | none => .fail (.io "the pending file")
      | some request => do
          let _ ← apply config deriveKeyfileContent polls { request with operation := .member }
          pure ()

end Apply

/-! ### A boot -/

/-- What ends the process during an HA boot. -/
inductive BootError where
  | write (failure : WriteFailure)
  | keyfile (text : String)
  /-- `expect("HA mode always resolves a keyfile")`. -/
  | noKeyfile
deriving Repr, DecidableEq, Inhabited

/-- The keyfile of the first candidate a live peer accepts. -/
def firstLiveKeyfile : List String → Task BootError (Option String)
  | [] => pure none
  | password :: candidates => do
      let keyfile ← perform (.discoverLiveSetKeyfile password)
      match keyfile with
      | some keyfile => pure (some keyfile)
      | none => firstLiveKeyfile candidates

/-- The passwords a boot shows its peers, the pending rotation's first. -/
def bootCandidates (config : Config) (pin : AuthPin) (pending : Option Rotation) : List String :=
  match pending with
  | some request =>
      [request.newPassword, request.currentPassword, config.mongoRootPassword, pin.password]
  | none => [config.mongoRootPassword, pin.password]

/-- Adopt the keyfile of a live peer that shares no key with the pinned one. -/
def reconcileKeyfileAtBoot (config : Config) : Task BootError Unit := do
  let pin ← perform .readPin
  match pin with
  | none => pure ()
  | some pin =>
      match pin.keyfile with
      | none => pure ()
      | some current => do
          let pending ← perform .readPending
          if pending = none ∧ pin.password = config.mongoRootPassword then pure ()
          else do
            let live ← firstLiveKeyfile (bootCandidates config pin pending)
            match live with
            | none => pure ()
            | some keyfile =>
                if keysOverlap current keyfile then pure ()
                else do
                  let written ← perform (.writePin { pin with keyfile := some keyfile })
                  match written with
                  | .ok () => pure ()
                  | .error failure => .fail (.write failure)

/-- `auth_pin::active_password`, from the pin a boot read. -/
def activePassword (config : Config) (pin : Option AuthPin) : String :=
  (pin.map AuthPin.password).getD config.mongoRootPassword

/-- Write the resolved keyfile where mongod reads it, and record it as loaded. -/
def loadCredentials (credentials : BootCredentials) : Task BootError BootCredentials :=
  match credentials.keyfile with
  | none => .fail .noKeyfile
  | some keyfile => do
      let written ← perform (.writeKeyfileContent keyfile)
      match written with
      | .error text => .fail (.keyfile text)
      | .ok () => do
          perform (.setLoadedKeyfile keyfile)
          pure credentials

/-- The HA part of `main`, up to the background tasks. -/
def bootHa (config : Config) (deriveKeyfileContent : String → String) :
    Task BootError BootCredentials := do
  reconcileKeyfileAtBoot config
  let pin ← perform .readPin
  let live ←
    if pin.bind AuthPin.keyfile = none then
      perform (.discoverLiveSetKeyfile (activePassword config pin))
    else pure none
  loadCredentials
    (resolveBootCredentials deriveKeyfileContent pin config.mongoRootPassword config.rsKey live)

/-! ### The supervisor -/

/-- Hand the primary role off: unlike a shutdown, a rotation refuses to stop a primary. -/
def handoff : Task RotationError Unit := do
  let hello ← (perform .hello).bind orMongo
  if hello.isWritablePrimary then
    (perform (.stepDown 60 10)).bind orMongo
  let hello ← (perform .hello).bind orMongo
  ensure (hello.isWritablePrimary = false) "still primary"

/-- The text of a failed start ends the process. -/
def orExit : Except String Unit → Task String Unit
  | .ok () => .done ()
  | .error text => .fail text

/-- Restart mongod on a keyfile. -/
def restartWith (target : String) : Task String Unit := do
  (perform (.writeKeyfileContent target)).bind orExit
  (perform .restartMongod).bind orExit
  perform (.setLoadedKeyfile target)

/-- What the supervisor of an HA process does on `RESTART_MONGO`. An error ends the process. -/
def superviseRestart : Task String Unit := do
  let pin ← perform .readPin
  match pin.bind AuthPin.keyfile with
  | none => pure ()
  | some target => do
      let loaded ← perform .loadedKeyfile
      if loaded = some target then pure ()
      else do
        let handed ← handoff.attempt
        match handed with
        | .error _ => pure ()
        | .ok () => restartWith target

/-! ### The resolver -/

def reportDriftOnce (resolver : Resolver) (event : TelemetryEvent) : Task Empty Resolver :=
  if resolver.driftReported then pure resolver
  else do
    perform (.send event)
    pure { resolver with driftReported := true }

/-- Follow a rotation that is under way. -/
def pendingPart (resolver : Resolver) : Task Empty Resolver := do
  let pending ← perform .readPending
  match pending.map Rotation.newPassword with
  | none => pure resolver
  | some pending =>
      if pending ≠ resolver.active then do
        let probe ← perform (.probeLocalPassword pending)
        if probe = .works then do
          perform (.swapPassword pending)
          pure { resolver with active := pending, proven := false }
        else pure resolver
      else pure resolver

/-- Prove the active password, and write the pin if it does not say so yet. A failed write is logged. -/
def activePart (boot : BootCredentials) (resolver : Resolver) : Task Empty Resolver :=
  if resolver.proven then pure resolver
  else do
    let probe ← perform (.probeLocalPassword resolver.active)
    match probe with
    | .works => do
        let found ← perform .readPin
        if found ≠ some { password := resolver.active, keyfile := boot.keyfile } then
          let _ ← perform (.writePasswordPin resolver.active boot.keyfile)
        pure { resolver with proven := true }
    | .accessDenied => reportDriftOnce resolver noKnownPasswordWorks
    | .notReady _ => pure resolver

/-- Adopt the environment's password once it authenticates; return once nothing disagrees. -/
def envPart (boot : BootCredentials) (envPassword : String) (resolver : Resolver) :
    Task Empty (Option Resolver) :=
  if envPassword ≠ resolver.active then do
    let probe ← perform (.probeLocalPassword envPassword)
    match probe with
    | .works => do
        perform (.swapPassword envPassword)
        let _ ← perform (.writePasswordPin envPassword boot.keyfile)
        pure (some { active := envPassword, proven := true, driftReported := false })
    | .accessDenied => (reportDriftOnce resolver envPasswordDrifted).bind fun next => pure (some next)
    | .notReady _ => pure (some resolver)
  else if resolver.proven then pure none
  else pure (some resolver)

/-- One iteration of the resolver, up to its sleep. It returns on `none`. -/
def resolverTask (boot : BootCredentials) (envPassword : String) (resolver : Resolver) :
    Task Empty (Option Resolver) := do
  let running ← perform .initServerRunning
  if running then pure (some resolver)
  else do
    let resolver ← pendingPart resolver
    let resolver ← activePart boot resolver
    envPart boot envPassword resolver

end MongoHa.Credentials
