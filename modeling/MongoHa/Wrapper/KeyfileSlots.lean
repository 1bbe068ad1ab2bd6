/-
Module: MongoHa.Wrapper.KeyfileSlots
Layer: Wrapper
Purpose: `rs_keyfile` of `health_server.rs` with all its requests at once. `KEYFILE_PROBES` is the count
  of its free permits; a request takes one before its credential is checked, and one that is refused keeps
  it while it sleeps. A client may go away at any await, which drops the handler and its permit. The
  keyfile may be rotated under the requests.
Imports: MongoHa.Wrapper.PeerExchange
Trusted boundary: human-reviewed spec
Main exports: keyfileProbes, keyfileRefusalDelay, KeyfilePhase, KeyfileAnswer, KeyfileServer, KeyfileStep,
  KeyfileServer.system, KeyfileServer.refusedIn
Open obligations: none
-/
import MongoHa.Wrapper.PeerExchange

namespace MongoHa

open Foundations

/-- At most this many credential checks run at once. -/
def keyfileProbes : Nat := 4

/-- `KEYFILE_REFUSAL_DELAY`. -/
def keyfileRefusalDelay : Duration := Duration.fromSecs 1

/-- Where a request stands in the handler. -/
inductive KeyfilePhase where
  | idle
  /-- It has read the keyfile and awaits a permit. -/
  | waiting (keyfile username : String)
  | probing (keyfile username : String)
  /-- Not the root account: the answer is held back until then, and the permit with it. -/
  | refused (keyfile : String) (wakes : Instant)
  | ended
deriving Repr, DecidableEq, Inhabited

def KeyfilePhase.holdsSlot : KeyfilePhase → Bool
  | .probing _ _ | .refused _ _ => true
  | .idle | .waiting _ _ | .ended => false

/-- What was sent to a request, and when. -/
structure KeyfileAnswer (ι : Type*) where
  request : ι
  sentAt : Instant
  response : HttpResponse

/-- The handler with all its requests, and what it has answered. -/
structure KeyfileServer (ι : Type*) where
  now : Instant
  holder : KeyfileHolder
  /-- The free permits of `KEYFILE_PROBES`. -/
  permits : Nat
  phase : ι → KeyfilePhase
  answers : List (KeyfileAnswer ι)
  /-- What each request met when it came in, and the account it names. -/
  asked : ι → Option (KeyfileHolder × String)
  /-- How mongod took the credential of a request. It is only asked about the root account. -/
  verdict : ι → Option ConnectionStatus

namespace KeyfileServer

variable {ι : Type*} [DecidableEq ι] (s : KeyfileServer ι) (i : ι)

def enter (phase : KeyfilePhase) : KeyfileServer ι :=
  { s with phase := Function.update s.phase i phase }

def answer (response : HttpResponse) : KeyfileServer ι :=
  { s.enter i .ended with
    answers := { request := i, sentAt := s.now, response := response } :: s.answers }

def release : KeyfileServer ι := { s with permits := s.permits + 1 }

def note (username : String) : KeyfileServer ι :=
  { s with asked := Function.update s.asked i (some (s.holder, username)) }

def arrive (username : String) : KeyfileServer ι :=
  match s.holder.keyfile with
  | none => (s.note i username).answer i (.text StatusCode.notFound "not a replica set member")
  | some keyfile => (s.note i username).enter i (.waiting keyfile username)

def acquire (keyfile username : String) : KeyfileServer ι :=
  { s.enter i (.probing keyfile username) with permits := s.permits - 1 }

def hear (status : ConnectionStatus) : KeyfileServer ι :=
  { s with verdict := Function.update s.verdict i (some status) }

/-- The probe has answered. -/
def judged (keyfile username : String) (status : ConnectionStatus) : KeyfileServer ι :=
  match s.holder.probe username status with
  | .refused => (s.hear i status).enter i (.refused keyfile (s.now + keyfileRefusalDelay))
  | probe => ((s.hear i status).answer i (keyfileReply keyfile probe)).release

def woken (keyfile : String) : KeyfileServer ι :=
  (s.answer i (keyfileReply keyfile .refused)).release

def dropped : KeyfileServer ι :=
  if (s.phase i).holdsSlot then (s.enter i .ended).release else s.enter i .ended

/-- `set_loaded_keyfile`. -/
def rotated (keyfile : String) : KeyfileServer ι :=
  { s with holder := { s.holder with loaded := some keyfile } }

end KeyfileServer

/-- One await of one request ends, a request comes in or goes away, the keyfile is rotated, or time
    passes. -/
inductive KeyfileStep {ι : Type*} [DecidableEq ι] (s : KeyfileServer ι) : KeyfileServer ι → Prop where
  | wait (elapsed : Duration) : KeyfileStep s { s with now := s.now + elapsed }
  | rotate (keyfile : String) : KeyfileStep s (s.rotated keyfile)
  | arrive {i : ι} (username : String) (idle : s.phase i = .idle) :
      KeyfileStep s (s.arrive i username)
  | acquire {i : ι} {keyfile username : String} (waits : s.phase i = .waiting keyfile username)
      (free : 0 < s.permits) : KeyfileStep s (s.acquire i keyfile username)
  | judged {i : ι} {keyfile username : String} (probes : s.phase i = .probing keyfile username)
      (status : ConnectionStatus) : KeyfileStep s (s.judged i keyfile username status)
  | woken {i : ι} {keyfile : String} {wakes : Instant} (sleeps : s.phase i = .refused keyfile wakes)
      (due : wakes ≤ s.now) : KeyfileStep s (s.woken i keyfile)
  | dropped {i : ι} (came : s.phase i ≠ .idle) (gone : s.phase i ≠ .ended) :
      KeyfileStep s (s.dropped i)

/-- A node that nobody has asked for its keyfile. -/
def KeyfileServer.system (ι : Type*) [DecidableEq ι] : System (KeyfileServer ι) where
  init s := s.permits = keyfileProbes ∧ (∀ i, s.phase i = .idle) ∧ s.answers = []
  step := KeyfileStep

/-- The refusals sent after an instant and by another one. -/
def KeyfileServer.refusedIn {ι : Type*} (s : KeyfileServer ι) (after until_ : Instant) : Nat :=
  s.answers.countP fun answer =>
    answer.response.status = StatusCode.unauthorized ∧ after < answer.sentAt ∧ answer.sentAt ≤ until_

end MongoHa
