/-
Module: MongoHa.Proofs.AdoptedKeyfile
Layer: Proofs
Purpose: The keyfile a member without one boots with, when it asks the peers for the live set's. It is the
  keyfile of the first peer that holds an active set and whose own mongod confirmed the caller as root,
  without a character changed, and only without such a peer the one derived from `RS_KEY`.
Imports: MongoHa.Proofs.PeerAnswers, MongoHa.Wrapper.Keyfile
Trusted boundary: none (fully proved)
Main exports: probeRoot_eq_root_iff, rsKeyfile_ok_iff, Rendered, Rendered.trim, ServingPeer, HandsOut,
  discoverLiveSetKeyfile_eq_some_iff, fresh_member_keyfile
Open obligations: none
-/
import MongoHa.Proofs.PeerAnswers
import MongoHa.Wrapper.Keyfile

namespace MongoHa

open Foundations
open Foundations.RustStr

/-! ### The probe -/

/-- Some document of a list of `authInfo` names this value on `admin`. -/
def ListsOnAdmin (info : Document) (list field value : String) : Prop :=
  ∃ entries entry fields, info.getArray list = some entries ∧ entry ∈ entries ∧
    entry.asDocument = some fields ∧ fields.getStr field = some value ∧
    fields.getStr "db" = some "admin"

theorem hasAdminEntry_iff {info : Document} {list field value : String} :
    hasAdminEntry info list field value = true ↔ ListsOnAdmin info list field value := by
  unfold hasAdminEntry ListsOnAdmin
  cases found : info.getArray list with
  | none => simp
  | some entries =>
      simp only [Option.getD_some, List.any_eq_true, List.mem_filterMap, Bool.and_eq_true, beq_iff_eq,
        Option.some.injEq]
      constructor
      · rintro ⟨fields, ⟨entry, member, read⟩, named, admin⟩
        exact ⟨entries, entry, fields, rfl, member, read, named, admin⟩
      · rintro ⟨_, entry, fields, rfl, member, read, named, admin⟩
        exact ⟨fields, ⟨entry, member, read⟩, named, admin⟩

/-- mongod authenticated the session as this account, which still carries the role. -/
def ConfirmsRoot (status : ConnectionStatus) (username : String) : Prop :=
  ∃ reply info, status = .replied reply ∧ reply.getDocument "authInfo" = some info ∧
    ListsOnAdmin info "authenticatedUsers" "user" username ∧
    ListsOnAdmin info "authenticatedUserRoles" "role" "root"

theorem authenticatedAsRoot_iff {reply : Document} {username : String} :
    authenticatedAsRoot reply username = true ↔
      ∃ info, reply.getDocument "authInfo" = some info ∧
        ListsOnAdmin info "authenticatedUsers" "user" username ∧
        ListsOnAdmin info "authenticatedUserRoles" "role" "root" := by
  unfold authenticatedAsRoot
  cases reply.getDocument "authInfo" with
  | none => simp
  | some info => simp [hasAdminEntry_iff]

/-- A probe says root exactly for a caller that mongod's status names as root on `admin`. -/
theorem probeRoot_eq_root_iff {username : String} {status : ConnectionStatus} :
    probeRoot username status = .root ↔ ConfirmsRoot status username := by
  cases status with
  | replied reply =>
      have named : probeRoot username (.replied reply) = .root ↔
          authenticatedAsRoot reply username = true := by
        rw [probeRoot]
        split <;> simp_all
      rw [named, authenticatedAsRoot_iff]
      simp [ConfirmsRoot]
  | authentication text => simp [probeRoot, ConfirmsRoot]
  | failed error =>
      simp only [probeRoot, ConfirmsRoot]
      split <;> simp
  | timedOut => simp [probeRoot, ConfirmsRoot]

section Reply

variable {holder : KeyfileHolder} {username : String} {status : ConnectionStatus}

/-- The conditions for handing out the keyfile. -/
structure KeyfileHolder.Grants (holder : KeyfileHolder) (username : String) (status : ConnectionStatus)
    (keyfile : String) : Prop where
  holds : holder.keyfile = some keyfile
  named : username = holder.rootUsername
  confirmed : ConfirmsRoot status username

/-- Only a 200 carries the keyfile, and only to root. -/
theorem rsKeyfile_of_grants {keyfile : String} (grants : holder.Grants username status keyfile) :
    rsKeyfile holder username status = .text StatusCode.ok keyfile := by
  have probed : holder.probe username status = .root := by
    rw [KeyfileHolder.probe, if_pos grants.named]
    exact probeRoot_eq_root_iff.2 grants.confirmed
  simp only [rsKeyfile, grants.holds, probed, keyfileReply]

theorem rsKeyfile_refused (refused : ∀ keyfile, ¬ holder.Grants username status keyfile) :
    (rsKeyfile holder username status).isSuccess = false := by
  unfold rsKeyfile
  split
  · rfl
  · rename_i keyfile holds
    cases probed : holder.probe username status with
    | root =>
        unfold KeyfileHolder.probe at probed
        split at probed
        · rename_i named
          exact absurd ⟨holds, named, probeRoot_eq_root_iff.1 probed⟩ (refused keyfile)
        · cases probed
    | refused => rfl
    | notReady reason => rfl

end Reply

/-! ### Keyfiles on the wire -/

/-- The contents a keyfile ever has: derived from a secret, or both keys of a rotation. -/
def Rendered (sha256 : List UInt8 → List UInt8) (keyfile : String) : Prop :=
  (∃ secret, keyfile = deriveKeyfileContent sha256 secret) ∨
    ∃ old new, keyfile =
      JsonStrings.toText [deriveKeyfileContent sha256 old, deriveKeyfileContent sha256 new]

/-- The white space a reader takes off was not there. -/
theorem Rendered.trim {sha256 : List UInt8 → List UInt8} {keyfile : String}
    (rendered : Rendered sha256 keyfile) : RustStr.trim keyfile = keyfile := by
  rcases rendered with ⟨secret, rfl⟩ | ⟨old, new, rfl⟩
  · exact trim_derived sha256 secret
  · exact trim_toText _

/-- Two mongod with the same keyfile accept each other. -/
theorem Rendered.keysOverlap_self {sha256 : List UInt8 → List UInt8} {keyfile : String}
    (rendered : Rendered sha256 keyfile) : keysOverlap keyfile keyfile = true := by
  rw [keysOverlap_iff]
  rcases rendered with ⟨secret, rfl⟩ | ⟨old, new, rfl⟩
  · exact ⟨_, by rw [keysOf_derived]; exact List.mem_singleton_self _,
      by rw [keysOf_derived]; exact List.mem_singleton_self _⟩
  · exact ⟨_, by rw [keysOf_both]; exact List.mem_cons_self, by rw [keysOf_both]; exact List.mem_cons_self⟩

theorem decodeText_text (lossy : List UInt8 → String) (status : Nat) (body : String) :
    (HttpResponse.text status body).decodeText lossy = body := by
  have text : fromUtf8 (bytes body) = some body := fromUtf8_eq_some.2 rfl
  rw [HttpResponse.decodeText, HttpResponse.text, text, Option.getD_some]

theorem fetchKeyfile_text (lossy : List UInt8 → String) {keyfile : String}
    (kept : RustStr.trim keyfile = keyfile) (filled : keyfile ≠ "") :
    fetchKeyfile lossy (some (.text StatusCode.ok keyfile)) = some keyfile := by
  have success : (HttpResponse.text StatusCode.ok keyfile).isSuccess = true := rfl
  simp only [fetchKeyfile, success, ↓reduceIte, decodeText_text, kept]
  simp [filled]

/-! ### Discovery -/

/-- A node as far as its peers' requests reach it: what it computes `/rs/state` from, and what it answers
    the caller's credential on `/rs/keyfile` with. -/
structure ServingPeer where
  standalone : Bool
  config : Config
  hasData : Bool
  hello : MongoResult Hello
  reads : StateReads
  holder : KeyfileHolder
  status : ConnectionStatus

def ServingPeer.stateReply (peer : ServingPeer) : HttpResponse :=
  rsStateReply peer.standalone peer.config peer.hasData peer.hello peer.reads

def ServingPeer.keyfileReply (peer : ServingPeer) (username : String) : HttpResponse :=
  rsKeyfile peer.holder username peer.status

/-- What the peers are while one discovery asks them; a host without one does not answer. A peer may have
    changed between its two requests. -/
structure PeerNetwork where
  asked : String → Option ServingPeer
  exchanged : String → Option ServingPeer

namespace PeerNetwork

variable (network : PeerNetwork) (lossy : List UInt8 → String) (username : String)

def answers (hosts : List String) : List (String × PeerAnswer) :=
  hosts.map fun host => (host, queryPeer ((network.asked host).map ServingPeer.stateReply))

def fetch (host : String) : Option String :=
  fetchKeyfile lossy ((network.exchanged host).map fun peer => peer.keyfileReply username)

/-- The peer at a host holds an active set, by the final mongod's word. -/
def HoldsSet (host : String) : Prop :=
  ∃ peer state, network.asked host = some peer ∧ Answers peer.standalone peer.hello ∧
    localRsState peer.config peer.hasData peer.reads = .ok state ∧ state.setActive = true

/-- The peer at a host holds an active set and grants the caller its keyfile. -/
def HandsOut (host keyfile : String) : Prop :=
  network.HoldsSet host ∧
    ∃ peer, network.exchanged host = some peer ∧ peer.holder.Grants username peer.status keyfile

/-- Every number a peer replies with is one of its type, and every keyfile it has was rendered. -/
structure Sound (sha256 : List UInt8 → List UInt8) : Prop where
  inRange : ∀ host peer, network.asked host = some peer → peer.reads.InRange
  rendered : ∀ host peer keyfile, network.exchanged host = some peer →
    peer.holder.keyfile = some keyfile → Rendered sha256 keyfile

end PeerNetwork

section Discovery

variable {network : PeerNetwork} {lossy : List UInt8 → String} {username : String}
  {sha256 : List UInt8 → List UInt8}

/-- A digest is never empty, so a rendered keyfile is not. -/
theorem Rendered.ne_empty (digest : ∀ input, sha256 input ≠ []) {keyfile : String}
    (rendered : Rendered sha256 keyfile) : keyfile ≠ "" := by
  rcases rendered with ⟨secret, rfl⟩ | ⟨old, new, rfl⟩
  · exact Base64.encode_ne_empty (digest _)
  · intro empty
    have read := JsonStrings.fromText_toText
      [deriveKeyfileContent sha256 old, deriveKeyfileContent sha256 new]
    rw [empty] at read
    cases read

theorem queryPeer_active_iff (sound : network.Sound sha256) {host : String} :
    (∃ state, queryPeer ((network.asked host).map ServingPeer.stateReply) = .state state ∧
      state.setActive = true) ↔ network.HoldsSet host := by
  unfold PeerNetwork.HoldsSet
  cases there : network.asked host with
  | none => simp [queryPeer]
  | some peer =>
      have inRange := sound.inRange host peer there
      constructor
      · rintro ⟨state, answered, active⟩
        by_cases serves : Answers peer.standalone peer.hello ∧
            ∃ state, localRsState peer.config peer.hasData peer.reads = .ok state
        · obtain ⟨answers, own, computed⟩ := serves
          have same := queryPeer_rsStateReply inRange answers computed
          rw [Option.map_some, ServingPeer.stateReply, same] at answered
          cases answered
          exact ⟨peer, state, rfl, answers, computed, active⟩
        · have refused := queryPeer_refused (rsStateReply_silent serves)
          rw [Option.map_some, ServingPeer.stateReply, refused] at answered
          cases answered
      · rintro ⟨_, state, same, answers, computed, active⟩
        cases same
        exact ⟨state, queryPeer_rsStateReply inRange answers computed, active⟩

theorem fetch_eq_some_iff (digest : ∀ input, sha256 input ≠ []) (sound : network.Sound sha256)
    {host keyfile : String} :
    network.fetch lossy username host = some keyfile ↔
      ∃ peer, network.exchanged host = some peer ∧ peer.holder.Grants username peer.status keyfile := by
  unfold PeerNetwork.fetch
  cases there : network.exchanged host with
  | none => simp [fetchKeyfile]
  | some peer =>
      have served : ∀ own, peer.holder.Grants username peer.status own →
          fetchKeyfile lossy ((some peer).map fun peer => peer.keyfileReply username) = some own := by
        intro own grants
        have rendered := sound.rendered host peer own there grants.holds
        rw [Option.map_some, ServingPeer.keyfileReply, rsKeyfile_of_grants grants]
        exact fetchKeyfile_text lossy rendered.trim (rendered.ne_empty digest)
      constructor
      · intro fetched
        by_cases granted : ∃ own, peer.holder.Grants username peer.status own
        · obtain ⟨own, grants⟩ := granted
          rw [served own grants] at fetched
          cases fetched
          exact ⟨peer, rfl, grants⟩
        · have refused := rsKeyfile_refused fun own grants => granted ⟨own, grants⟩
          simp [fetchKeyfile, ServingPeer.keyfileReply, refused] at fetched
      · rintro ⟨_, same, grants⟩
        cases same
        exact served keyfile grants

theorem offeredKeyfile_eq_some_iff (digest : ∀ input, sha256 input ≠ []) (sound : network.Sound sha256)
    {host keyfile : String} :
    offeredKeyfile (network.fetch lossy username)
        (host, queryPeer ((network.asked host).map ServingPeer.stateReply)) = some keyfile ↔
      network.HandsOut username host keyfile := by
  rw [PeerNetwork.HandsOut, ← queryPeer_active_iff sound, ← @fetch_eq_some_iff _ lossy _ _ digest sound]
  cases queryPeer ((network.asked host).map ServingPeer.stateReply) with
  | state state => simp [offeredKeyfile]
  | notReady => simp [offeredKeyfile]
  | unreachable => simp [offeredKeyfile]

theorem offeredKeyfile_eq_none_iff (digest : ∀ input, sha256 input ≠ []) (sound : network.Sound sha256)
    {host : String} :
    offeredKeyfile (network.fetch lossy username)
        (host, queryPeer ((network.asked host).map ServingPeer.stateReply)) = none ↔
      ∀ keyfile, ¬ network.HandsOut username host keyfile := by
  rw [Option.eq_none_iff_forall_ne_some]
  exact forall_congr' fun keyfile => not_congr (offeredKeyfile_eq_some_iff digest sound)

/-- The keyfile discovered is that of the first peer, in the order asked, that hands one out. -/
theorem discoverLiveSetKeyfile_eq_some_iff (digest : ∀ input, sha256 input ≠ [])
    (sound : network.Sound sha256) {hosts : List String} {keyfile : String} :
    discoverLiveSetKeyfile (network.answers hosts) (network.fetch lossy username) = some keyfile ↔
      ∃ before host after, hosts = before ++ host :: after ∧ network.HandsOut username host keyfile ∧
        ∀ earlier ∈ before, ∀ other, ¬ network.HandsOut username earlier other := by
  rw [discoverLiveSetKeyfile, PeerNetwork.answers, List.findSome?_map, List.findSome?_eq_some_iff]
  simp only [Function.comp_def, offeredKeyfile_eq_some_iff digest sound,
    offeredKeyfile_eq_none_iff digest sound]

theorem discoverLiveSetKeyfile_eq_none_iff (digest : ∀ input, sha256 input ≠ [])
    (sound : network.Sound sha256) {hosts : List String} :
    discoverLiveSetKeyfile (network.answers hosts) (network.fetch lossy username) = none ↔
      ∀ host ∈ hosts, ∀ keyfile, ¬ network.HandsOut username host keyfile := by
  rw [discoverLiveSetKeyfile, PeerNetwork.answers, List.findSome?_map, List.findSome?_eq_none_iff]
  simp only [Function.comp_def, offeredKeyfile_eq_none_iff digest sound]

/-! ### The boot of a member without a keyfile -/

/-- The keyfile an HA boot without a pinned one resolves, from the peers it asks. -/
def freshKeyfile (sha256 : List UInt8 → List UInt8) (network : PeerNetwork)
    (lossy : List UInt8 → String) (username : String) (hosts : List String) (pin : Option AuthPin)
    (envPassword envRsKey : String) : Option String :=
  (resolveBootCredentials (deriveKeyfileContent sha256) pin envPassword (some envRsKey)
    (discoverLiveSetKeyfile (network.answers hosts) (network.fetch lossy username))).keyfile

/-- A member whose volume has no keyfile boots with the keyfile of the first peer that holds an active set
    and whose mongod confirmed the caller as root, exactly as that peer runs it, so the two can speak to
    each other; it derives one from the environment only when there is no such peer. -/
theorem fresh_member_keyfile (digest : ∀ input, sha256 input ≠ []) (sound : network.Sound sha256)
    {hosts : List String} {pin : Option AuthPin} {envPassword envRsKey : String}
    (unpinned : pin.bind AuthPin.keyfile = none) :
    (∃ before host after keyfile,
      freshKeyfile sha256 network lossy username hosts pin envPassword envRsKey = some keyfile ∧
      hosts = before ++ host :: after ∧ network.HandsOut username host keyfile ∧
      (∀ earlier ∈ before, ∀ other, ¬ network.HandsOut username earlier other) ∧
      keysOverlap keyfile keyfile = true) ∨
    (freshKeyfile sha256 network lossy username hosts pin envPassword envRsKey =
        some (deriveKeyfileContent sha256 envRsKey) ∧
      ∀ host ∈ hosts, ∀ keyfile, ¬ network.HandsOut username host keyfile) := by
  have resolved : ∀ live,
      (resolveBootCredentials (deriveKeyfileContent sha256) pin envPassword (some envRsKey)
        live).keyfile = live.or (some (deriveKeyfileContent sha256 envRsKey)) := by
    intro live
    cases pin with
    | none => rfl
    | some pinned =>
        have noKey : pinned.keyfile = none := unpinned
        simp [resolveBootCredentials, noKey]
  unfold freshKeyfile
  rw [resolved]
  cases found : discoverLiveSetKeyfile (network.answers hosts) (network.fetch lossy username) with
  | some keyfile =>
      left
      obtain ⟨before, host, after, split, handsOut, first⟩ :=
        (discoverLiveSetKeyfile_eq_some_iff digest sound).1 found
      have rendered : Rendered sha256 keyfile := by
        obtain ⟨-, peer, there, grants⟩ := handsOut
        exact sound.rendered host peer keyfile there grants.holds
      exact ⟨before, host, after, keyfile, rfl, split, handsOut, first, rendered.keysOverlap_self⟩
  | none =>
      right
      exact ⟨rfl, (discoverLiveSetKeyfile_eq_none_iff digest sound).1 found⟩

end Discovery

/-! ### A drifted environment -/

/-- SHA-256 on the two secrets of the example. -/
def exampleSha256 (input : List UInt8) : List UInt8 :=
  if input = bytes "old" then
    [203, 160, 107, 87, 54, 250, 246, 126, 84, 176, 123, 86, 30, 174, 148, 57, 94, 119, 76, 81, 122,
     125, 145, 10, 84, 54, 158, 18, 99, 204, 251, 212]
  else
    [17, 80, 122, 14, 47, 94, 105, 213, 223, 164, 10, 98, 161, 189, 123, 110, 229, 126, 107, 205,
     133, 198, 124, 155, 132, 49, 179, 111, 255, 33, 196, 55]

/-- A set that still runs with the keyfile of the old password, on a member whose status names root. -/
def exampleMember : ServingPeer :=
  { standalone := false, config := default, hasData := true
    hello := .ok { isWritablePrimary := true, setName := some "rs0" }
    reads :=
      { status := .ok (.active "rs0" 1 "PRIMARY" [] (some 1))
        oplogWindow := .ok none
        rsConfig := .error { code := none, text := "no config" } }
    holder :=
      { loaded := some (deriveKeyfileContent exampleSha256 "old"), booted := none
        rootUsername := "mongo" }
    status := .replied
      [("authInfo", .document
        [("authenticatedUsers", .array
           [.document [("user", .string "mongo"), ("db", .string "admin")]]),
         ("authenticatedUserRoles", .array
           [.document [("role", .string "root"), ("db", .string "admin")]])])] }

def exampleSet : PeerNetwork :=
  { asked := fun host => if host = "mongo-2" then some exampleMember else none
    exchanged := fun host => if host = "mongo-2" then some exampleMember else none }

theorem exampleSet_found {host : String} {peer : ServingPeer}
    (found : (if host = "mongo-2" then some exampleMember else none) = some peer) :
    host = "mongo-2" ∧ peer = exampleMember := by
  split at found
  · rename_i same
    exact ⟨same, (Option.some.inj found).symm⟩
  · cases found

theorem exampleSet_sound : exampleSet.Sound exampleSha256 where
  inRange := by
    intro host peer there
    obtain ⟨-, rfl⟩ := exampleSet_found there
    refine ⟨?_, nofun, nofun⟩
    intro setName myState myStateStr members votingMembers read
    cases read
    refine ⟨by decide, ?_⟩
    intro n is
    cases is
    decide
  rendered := by
    intro host peer keyfile there holds
    obtain ⟨-, rfl⟩ := exampleSet_found there
    cases holds
    exact Or.inl ⟨"old", rfl⟩

theorem exampleSet_handsOut :
    exampleSet.HandsOut "mongo" "mongo-2" (deriveKeyfileContent exampleSha256 "old") := by
  refine ⟨⟨exampleMember, _, rfl, ⟨_, rfl, Or.inr rfl⟩, rfl, rfl⟩, exampleMember, rfl, rfl, rfl, ?_⟩
  exact ⟨_, _, rfl, rfl, ⟨_, _, _, rfl, List.mem_singleton_self _, rfl, rfl, rfl⟩,
    ⟨_, _, _, rfl, List.mem_singleton_self _, rfl, rfl, rfl⟩⟩

/-- A member whose environment names the new password joins with the old one's keyfile. -/
theorem drifted_member_adopts :
    freshKeyfile exampleSha256 exampleSet (fun _ => "?") "mongo" ["mongo-2", "mongo-3"] none "new" "new" =
      some (deriveKeyfileContent exampleSha256 "old") := by
  have digest : ∀ input, exampleSha256 input ≠ [] := by
    intro input
    unfold exampleSha256
    split <;> exact List.cons_ne_nil _ _
  rcases @fresh_member_keyfile _ (fun _ => "?") "mongo" _ digest exampleSet_sound
      ["mongo-2", "mongo-3"] none "new" "new" rfl with
    ⟨before, host, after, keyfile, resolved, -, ⟨-, peer, there, grants⟩, -⟩ | ⟨-, nobody⟩
  · obtain ⟨-, rfl⟩ := exampleSet_found there
    rw [resolved, ← grants.holds]
    rfl
  · exact absurd exampleSet_handsOut (nobody "mongo-2" (by simp) _)

end MongoHa
