/-
Module: MongoHa.Proofs.PeerAnswers
Layer: Proofs
Purpose: What a query of a peer comes back with. It is a state exactly when the final mongod of the peer
  answered, and then the very state the peer computed; a body that was cut off is no state. Between
  wrappers of different versions a state is read from fields in any order, among unknown ones, and
  without those a reader does without.
Imports: MongoHa.Wrapper.PeerExchange
Trusted boundary: none (fully proved)
Main exports: StateReads.InRange, localRsState_inRange, rsStateReply_silent, queryPeer_cut,
  peer_answers_itself, rsState_rolling_deploy
Open obligations: none
-/
import MongoHa.Wrapper.PeerExchange

namespace MongoHa

open Foundations
open Foundations.JsonDocuments
open Foundations.JsonLiterals

/-- The numbers mongod replies with are those of their types: `usize` lengths and counts, `i64` and `i32`
    versions, and whole seconds in an `u64`. -/
structure StateReads.InRange (reads : StateReads) : Prop where
  status : ∀ setName myState myStateStr members votingMembers,
    reads.status = .ok (.active setName myState myStateStr members votingMembers) →
      members.length < usizeBound ∧ ∀ n, votingMembers = some n → n < usizeBound
  version : ∀ i, reads.configVersion = some i → -(i64Bound : Int) ≤ i ∧ i < i64Bound
  oplogWindow : ∀ n, reads.oplogWindowSeconds = some n → n < usizeBound

variable {standalone hasData : Bool} {config : Config} {hello : MongoResult Hello} {reads : StateReads}
  {state : RsState}

/-- A state computed from numbers in range is in range. -/
theorem localRsState_inRange (inRange : reads.InRange)
    (computed : localRsState config hasData reads = .ok state) : state.InRange := by
  have small : 0 < usizeBound := by decide
  unfold localRsState at computed
  split at computed
  · cases computed
  · rename_i status read
    split at computed
    · cases computed
      exact ⟨small, small, nofun, nofun, inRange.oplogWindow⟩
    · cases computed
      exact ⟨small, small, nofun, nofun, inRange.oplogWindow⟩
    · rename_i setName myState myStateStr members votingMembers
      cases computed
      obtain ⟨total, voting⟩ := inRange.status _ _ _ _ _ read
      exact ⟨total, List.countP_le_length.trans_lt total, voting, inRange.version, inRange.oplogWindow⟩

/-- A peer whose final mongod answers; on a standalone node every mongod counts. -/
def Answers (standalone : Bool) (hello : MongoResult Hello) : Prop :=
  ∃ greeting, hello = .ok greeting ∧ (standalone = true ∨ greeting.replicationEnabled = true)

theorem rsStateReply_answers (answers : Answers standalone hello)
    (computed : localRsState config hasData reads = .ok state) :
    rsStateReply standalone config hasData hello reads =
      { status := StatusCode.ok, body := rsStateCodec.encode state } := by
  obtain ⟨greeting, rfl, enabled⟩ := answers
  have final : (!standalone && !greeting.replicationEnabled) = false := by
    rcases enabled with enabled | enabled
    · rw [enabled]
      rfl
    · rw [enabled, Bool.not_true, Bool.and_false]
  simp only [rsStateReply, final, computed, Bool.false_eq_true, ↓reduceIte]

/-- Every other reply is a refusal. -/
theorem rsStateReply_silent
    (silent : ¬ (Answers standalone hello ∧ ∃ state, localRsState config hasData reads = .ok state)) :
    (rsStateReply standalone config hasData hello reads).status = StatusCode.serviceUnavailable := by
  unfold rsStateReply
  split
  · rfl
  · rename_i greeting
    split
    · rfl
    · rename_i final
      split
      · rename_i state computed
        refine absurd ⟨⟨greeting, rfl, ?_⟩, state, computed⟩ silent
        simpa only [Bool.and_eq_true, Bool.not_eq_true', not_and_or, Bool.not_eq_false] using final
      · rfl

theorem queryPeer_refused {response : HttpResponse}
    (refused : response.status = StatusCode.serviceUnavailable) :
    queryPeer (some response) = .notReady := by
  have failed : response.isSuccess = false := by
    rw [HttpResponse.isSuccess, refused]
    rfl
  simp only [queryPeer, failed, Bool.false_eq_true, ↓reduceIte]

theorem queryPeer_rsStateReply (inRange : reads.InRange) (answers : Answers standalone hello)
    (computed : localRsState config hasData reads = .ok state) :
    queryPeer (some (rsStateReply standalone config hasData hello reads)) = .state state := by
  have read := rsStateCodec.decode_encode state (localRsState_inRange inRange computed)
  rw [rsStateReply_answers answers computed, queryPeer]
  simp only [read]
  rfl

/-- A body that was cut off is no state. -/
theorem queryPeer_cut {response : HttpResponse} {cut : List UInt8}
    (body : response.body = rsStateCodec.encode state) (inside : cut <+: response.body)
    (strict : cut ≠ response.body) : queryPeer (some { response with body := cut }) = .notReady := by
  rw [body] at inside strict
  have refused := rsStateCodec.decode_cut state cut inside strict
  rw [queryPeer]
  simp only [refused]
  split <;> rfl

/-- A query of a peer comes back with the state the peer computed exactly when its final mongod answered,
    and a body that was cut off anywhere with none. -/
theorem peer_answers_itself (inRange : reads.InRange) :
    (∀ state, queryPeer (some (rsStateReply standalone config hasData hello reads)) = .state state ↔
      Answers standalone hello ∧ localRsState config hasData reads = .ok state) ∧
    ∀ cut, cut <+: (rsStateReply standalone config hasData hello reads).body →
      cut ≠ (rsStateReply standalone config hasData hello reads).body →
        queryPeer (some { rsStateReply standalone config hasData hello reads with body := cut }) =
          .notReady := by
  by_cases serves : Answers standalone hello ∧ ∃ state, localRsState config hasData reads = .ok state
  · obtain ⟨answers, state, computed⟩ := serves
    refine ⟨fun other => ?_, fun cut inside strict => ?_⟩
    · rw [queryPeer_rsStateReply inRange answers computed, computed]
      constructor
      · intro same
        cases same
        exact ⟨answers, rfl⟩
      · rintro ⟨-, same⟩
        cases same
        rfl
    · apply @queryPeer_cut state _ _ _ inside strict
      rw [rsStateReply_answers answers computed]
  · refine ⟨fun state => ?_, fun cut inside strict => ?_⟩
    · rw [queryPeer_refused (rsStateReply_silent serves)]
      constructor
      · nofun
      · exact fun answered => absurd ⟨answered.1, state, answered.2⟩ serves
    · exact queryPeer_refused (rsStateReply_silent serves)

/-- What mongod tells the primary of a set of two, whose oplog reaches back a day. -/
def primaryReads : StateReads :=
  { status := .ok (.active "rs0" 1 "PRIMARY"
      [{ id := 0, host := "mongo-1:27017", state := 1, stateStr := "PRIMARY", healthy := true
         isSelf := true, optimeSecs := some 1700000000 },
       { id := 1, host := "mongo-2:27017", state := 2, stateStr := "SECONDARY", healthy := true
         isSelf := false, optimeSecs := some 1700000000 }]
      (some 2))
    oplogWindow := .ok (some 86400000000000)
    rsConfig := .ok [("_id", .string "rs0"), ("version", .int32 5)] }

theorem primaryReads_inRange : primaryReads.InRange := by
  refine ⟨?_, ?_, ?_⟩
  · intro setName myState myStateStr members votingMembers read
    cases read
    exact ⟨by decide, fun n two => by cases two; decide⟩
  · intro version read
    cases read
    decide
  · intro seconds read
    cases read
    decide

/-- Its primary, members, votes, version and window arrive as it computed them. -/
theorem primary_answers_itself :
    queryPeer (some (rsStateReply false default true
        (.ok { isWritablePrimary := true, setName := some "rs0", primary := some "mongo-1:27017" })
        primaryReads)) =
      .state
        { nodeId := Config.nodeId default, setActive := true, setName := some "rs0"
          myState := some "PRIMARY", isPrimary := true, primaryHost := some "mongo-1:27017"
          members := ["mongo-1:27017", "mongo-2:27017"], membersTotal := 2, membersHealthy := 2
          votingMembers := some 2, hasData := true, configVersion := some 5
          oplogWindowSeconds := some 86400 } := by
  exact ((peer_answers_itself primaryReads_inRange).1 _).2 ⟨⟨_, rfl, Or.inr rfl⟩, rfl⟩

/-! ### Wrappers of different versions -/

/-- A body of another version of the wrapper, with its fields in another order, some of its own whatever
    they hold, and without those a reader does without: the query comes back with the state of the fields
    it has. -/
theorem rsState_rolling_deploy (inRange : state.InRange) {fields extra : List (String × Json)}
    {dropped : List String} (spare : ∀ name ∈ dropped, name ∈ RsState.optionalNames)
    (unknown : ∀ field ∈ extra, field.1 ∉ RsState.names)
    (perm : fields.Perm ((state.fields.filter fun field => !dropped.contains field.1) ++ extra)) :
    queryPeer
        (some { status := StatusCode.ok, body := (Json.ofFields fields).body }) =
      .state (state.without dropped) := by
  have read := RsState.ofFields_compatible inRange spare unknown perm
  have decoded : rsStateCodec.decode (Json.ofFields fields).body = some (state.without dropped) := by
    have document := decodeJson_body RsState.fromJson (Json.ofFields fields)
    rw [RsState.fromJson, structFields_ofFields, Option.bind_some, read] at document
    exact document
  rw [queryPeer]
  simp only [decoded]
  rfl

/-- A primary of a set of three, as a wrapper without the oplog window reports it. -/
def olderState : RsState :=
  { nodeId := "mongo-1:27017", setActive := true, setName := some "rs0", myState := some "PRIMARY"
    isPrimary := true, primaryHost := some "mongo-1:27017"
    members := ["mongo-1:27017", "mongo-2:27017", "mongo-3:27017"], membersTotal := 3
    membersHealthy := 3, votingMembers := some 3, hasData := true, configVersion := some 5
    oplogWindowSeconds := some 86400 }

/-- An escape that stands for no character. -/
def loneSurrogate : Literal where
  octets := ['\\', 'u', 'd', '8', '0', '0']
  spelled := .cons (.unicode rfl) .nil

example : loneSurrogate.read = none := by decide +kernel

/-- A body without the oplog window and with a field this reader does not know, whose string it could not
    read. -/
theorem older_wrapper_is_read :
    queryPeer
        (some
          { status := StatusCode.ok
            body :=
              (Json.ofFields
                ((olderState.fields.filter fun field =>
                  !(["oplog_window_seconds"].contains field.1)) ++
                    [("build", .string loneSurrogate)])).body }) =
      .state { olderState with oplogWindowSeconds := none } :=
  rsState_rolling_deploy
    { membersTotal := by decide
      membersHealthy := by decide
      votingMembers := by simp [olderState, usizeBound]
      configVersion := by simp [olderState, i64Bound]
      oplogWindowSeconds := by simp [olderState, usizeBound] }
    (by decide) (by simp [RsState.names]) (.refl _)

end MongoHa
