/-
Module: MongoHa.Wrapper.PeerExchange
Layer: Wrapper
Purpose: What nodes ask of each other over HTTP, both ends: `GET /rs/state` of `health_server.rs` with
  `query_peer` of `peers.rs`, and `POST /rs/keyfile` with the root probe of `mongo.rs`, `fetch_keyfile` and
  the discovery of a live set's keyfile in `rs.rs`. What mongod replies is an input, as is a response that
  never comes. Text that is no UTF-8 decodes by the parameter `lossy`.
Imports: MongoHa.Wrapper.Documents, MongoHa.Wrapper.HealthServer, MongoHa.Wrapper.InitiateGuard,
  MongoHa.Wrapper.Recovery
Trusted boundary: human-reviewed spec
Main exports: HttpResponse, rsStateReply, queryPeer, RootProbe, authenticatedAsRoot, probeRoot,
  keyfileReply, rsKeyfile, fetchKeyfile, discoverLiveSetKeyfile
Open obligations: none
-/
import MongoHa.Wrapper.Documents
import MongoHa.Wrapper.HealthServer
import MongoHa.Wrapper.InitiateGuard
import MongoHa.Wrapper.Recovery

namespace MongoHa

open Foundations
open Foundations.RustStr

/-- A response as its status and the bytes of its body. -/
structure HttpResponse where
  status : Nat
  body : List UInt8
deriving Repr, DecidableEq, Inhabited

def HttpResponse.isSuccess (response : HttpResponse) : Bool :=
  200 ≤ response.status && response.status < 300

def HttpResponse.text (status : Nat) (body : String) : HttpResponse :=
  { status := status, body := bytes body }

namespace StatusCode

def unauthorized : Nat := 401
def notFound : Nat := 404

end StatusCode

/-! ### The state of a peer -/

/-- mongod is running with `--replSet`, initiated or not. -/
def Hello.replicationEnabled (hello : Hello) : Bool :=
  hello.setName.isSome || hello.isreplicaset

/-- The answer to `GET /rs/state`. -/
def rsStateReply (standalone : Bool) (config : Config) (hasData : Bool) (hello : MongoResult Hello)
    (reads : StateReads) : HttpResponse :=
  match hello with
  | .error _ => .text StatusCode.serviceUnavailable "mongod not answering"
  | .ok hello =>
      -- The init server of the entrypoint answers `hello` too, without a replica set.
      if !standalone && !hello.replicationEnabled then
        .text StatusCode.serviceUnavailable "mongod initializing"
      else
        match localRsState config hasData reads with
        | .ok state => { status := StatusCode.ok, body := rsStateCodec.encode state }
        | .error _ => .text StatusCode.serviceUnavailable "state unavailable"

/-- What a query of a peer comes back with; no response at all is a transport failure. -/
def queryPeer : Option HttpResponse → PeerAnswer
  | none => .unreachable
  | some response =>
      if response.isSuccess then
        match rsStateCodec.decode response.body with
        | some state => .state state
        | none => .notReady
      else .notReady

/-! ### The keyfile of a set -/

/-- Outcome of proving that a caller is the root account. -/
inductive RootProbe where
  | root
  | refused
  | notReady (reason : String)
deriving Repr, DecidableEq, Inhabited

/-- How `connectionStatus` on a connection with the caller's credential ended. -/
inductive ConnectionStatus where
  | replied (reply : Document)
  /-- The handshake failed. -/
  | authentication (text : String)
  | failed (error : MongoError)
  | timedOut

def Document.getDocument (document : Document) (key : String) : Option Document :=
  (document.get key).bind Bson.asDocument

/-- Some document of a list names this value on `admin`. -/
def hasAdminEntry (info : Document) (list field value : String) : Bool :=
  ((info.getArray list).getD []).filterMap Bson.asDocument |>.any fun entry =>
    entry.getStr field == some value && entry.getStr "db" == some "admin"

/-- Whether the session is authenticated as `username` on `admin` and holds `root` there. -/
def authenticatedAsRoot (reply : Document) (username : String) : Bool :=
  match reply.getDocument "authInfo" with
  | none => false
  | some info =>
      hasAdminEntry info "authenticatedUsers" "user" username &&
        hasAdminEntry info "authenticatedUserRoles" "role" "root"

/-- `probe_root`, from mongod's `connectionStatus`. -/
def probeRoot (username : String) : ConnectionStatus → RootProbe
  | .replied reply => if authenticatedAsRoot reply username then .root else .refused
  | .authentication _ => .refused
  | .failed error =>
      if error.code = some Codes.authenticationFailed then .refused else .notReady error.text
  | .timedOut => .notReady "probe timed out"

/-- The bodies are fixed: a refusal does not say what failed. -/
def keyfileReply (keyfile : String) : RootProbe → HttpResponse
  | .root => .text StatusCode.ok keyfile
  | .refused => .text StatusCode.unauthorized "authentication failed"
  | .notReady _ => .text StatusCode.serviceUnavailable "mongod not ready"

/-- The keyfiles of the process, and the account that may have them. -/
structure KeyfileHolder where
  /-- `loaded_keyfile`: what the mongod under supervision runs with. -/
  loaded : Option String
  /-- What the process booted with. -/
  booted : Option String
  rootUsername : String
deriving Repr, DecidableEq, Inhabited

def KeyfileHolder.keyfile (holder : KeyfileHolder) : Option String :=
  holder.loaded.or holder.booted

/-- mongod is only asked about the root account. -/
def KeyfileHolder.probe (holder : KeyfileHolder) (username : String) (status : ConnectionStatus) :
    RootProbe :=
  if username = holder.rootUsername then probeRoot username status else .refused

/-- The answer to `POST /rs/keyfile`. -/
def rsKeyfile (holder : KeyfileHolder) (username : String) (status : ConnectionStatus) : HttpResponse :=
  match holder.keyfile with
  | none => .text StatusCode.notFound "not a replica set member"
  | some keyfile => keyfileReply keyfile (holder.probe username status)

/-- The text of a response. -/
def HttpResponse.decodeText (lossy : List UInt8 → String) (response : HttpResponse) : String :=
  (fromUtf8 response.body).getD (lossy response.body)

/-- The keyfile a peer hands out. -/
def fetchKeyfile (lossy : List UInt8 → String) : Option HttpResponse → Option String
  | none => none
  | some response =>
      if response.isSuccess then (some (trim (response.decodeText lossy))).filter (· ≠ "") else none

/-- The keyfile of a peer that answered; only one of an active set is asked. -/
def offeredKeyfile (fetch : String → Option String) : String × PeerAnswer → Option String
  | (host, .state state) => if state.setActive then fetch host else none
  | _ => none

/-- The first keyfile that a peer of an active set hands out. -/
def discoverLiveSetKeyfile (answers : List (String × PeerAnswer)) (fetch : String → Option String) :
    Option String :=
  answers.findSome? (offeredKeyfile fetch)

end MongoHa
