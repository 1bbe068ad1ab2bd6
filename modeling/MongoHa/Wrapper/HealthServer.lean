/-
Module: MongoHa.Wrapper.HealthServer
Layer: Wrapper
Purpose: The `/role` endpoint of `health_server.rs`: the verdict computed from the replies of the local
  mongod, and the status code and body it is rendered to. Only a 200 routes writes to the node. The log
  lines on failures are left out.
Imports: MongoHa.Wrapper.Mongo
Trusted boundary: human-reviewed spec
Main exports: RoleVerdict, RoleReply, roleReply, RoleReads, ownMemberState, roleVerdict, role, role_ok_iff
Open obligations: none
-/
import MongoHa.Wrapper.Mongo

namespace MongoHa

namespace StatusCode

def ok : Nat := 200
def serviceUnavailable : Nat := 503

end StatusCode

/-- What `/role` answers, before it is rendered. -/
inductive RoleVerdict where
  | primary
  | fenced (state : String)
  | replica (state : String)
  | unavailable (reason : String)
deriving Repr, DecidableEq, Inhabited

/-- A value in the body of a reply. -/
inductive JsonValue where
  | string (value : String)
  | bool (value : Bool)
deriving Repr, DecidableEq, Inhabited

/-- The answer of a role route: a status and the fields of its body. -/
structure RoleReply where
  status : Nat
  body : List (String × JsonValue)
deriving Repr, DecidableEq, Inhabited

/-- The member states in which a non-primary serves reads as a caught-up replica. -/
def readyReplicaStates : List String := ["SECONDARY"]

/-- `role_reply`. -/
def roleReply : RoleVerdict → RoleReply
  | .primary => { status := StatusCode.ok, body := [("role", .string "primary")] }
  | .fenced state =>
      { status := StatusCode.serviceUnavailable
        body := [("role", .string "fenced"), ("state", .string state), ("ready", .bool false)] }
  | .replica state =>
      { status := StatusCode.serviceUnavailable
        body :=
          [("role", .string "replica"), ("state", .string state),
           ("ready", .bool (readyReplicaStates.contains state))] }
  | .unavailable reason =>
      { status := StatusCode.serviceUnavailable
        body := [("role", .string "unknown"), ("reason", .string reason)] }

/-- The replies of the local mongod that one `/role` request may read. -/
structure RoleReads where
  ping : MongoResult Unit
  hello : MongoResult Hello
  status : MongoResult RsStatus

/-- This node's own member state as mongod names it. -/
def ownMemberState (status : MongoResult RsStatus) : MongoResult String :=
  match status with
  | .error failure => .error failure
  | .ok (.active _ _ myStateStr _ _) => .ok myStateStr
  | .ok .notInitialized => .ok "STARTUP"
  | .ok .notAMember => .ok "REMOVED"

/-- The verdict of a node in HA mode. -/
def roleVerdict (reads : RoleReads) : MongoResult RoleVerdict :=
  match reads.hello with
  | .error failure => .error failure
  | .ok hello =>
      if !hello.isWritablePrimary then
        match ownMemberState reads.status with
        | .error failure => .error failure
        | .ok state => .ok (.replica state)
      else
        match reads.status with
        | .error failure => .error failure
        | .ok (.active _ _ _ members _) =>
            if hasMajority members then .ok .primary else .ok (.fenced "PRIMARY")
        | .ok .notInitialized | .ok .notAMember => .ok (.fenced "PRIMARY")

/-- The role route, from what it reads. -/
def role (standalone : Bool) (reads : RoleReads) : RoleReply :=
  if standalone then
    -- No set to fence against: alive means writable.
    match reads.ping with
    | .ok () => roleReply .primary
    | .error _ => roleReply (.unavailable "mongod not answering")
  else
    match roleVerdict reads with
    | .ok verdict => roleReply verdict
    | .error _ => roleReply (.unavailable "state unavailable")

theorem roleReply_ok_iff {verdict : RoleVerdict} :
    (roleReply verdict).status = StatusCode.ok ↔ verdict = .primary := by
  cases verdict with
  | primary => simp [roleReply]
  | fenced state => simp [roleReply, StatusCode.ok, StatusCode.serviceUnavailable]
  | replica state => simp [roleReply, StatusCode.ok, StatusCode.serviceUnavailable]
  | unavailable reason => simp [roleReply, StatusCode.ok, StatusCode.serviceUnavailable]

/-- The status read showed this member view, with this count of voting members. -/
def RoleReads.Shows (reads : RoleReads) (members : List RsMember) (votingMembers : Option Nat) :
    Prop :=
  ∃ setName myState myStateStr,
    reads.status = .ok (.active setName myState myStateStr members votingMembers)

/-- In HA mode a 200 comes from a writable primary whose own view has a reachable majority. -/
theorem role_ok_iff {reads : RoleReads} :
    (role false reads).status = StatusCode.ok ↔
      (∃ hello, reads.hello = .ok hello ∧ hello.isWritablePrimary = true) ∧
        ∃ members votingMembers, reads.Shows members votingMembers ∧ hasMajority members = true := by
  have unknown : (roleReply (.unavailable "state unavailable")).status ≠ StatusCode.ok := by
    simp [roleReply_ok_iff]
  unfold RoleReads.Shows
  cases answered : reads.hello with
  | error failure => simpa [role, roleVerdict, answered] using unknown
  | ok hello =>
      by_cases primary : hello.isWritablePrimary = true
      · cases read : reads.status with
        | error failure => simpa [role, roleVerdict, answered, primary, read] using unknown
        | ok status =>
            cases status with
            | notInitialized =>
                simp [role, roleVerdict, answered, primary, read, roleReply_ok_iff]
            | notAMember => simp [role, roleVerdict, answered, primary, read, roleReply_ok_iff]
            | active setName myState myStateStr members votingMembers =>
                by_cases majority : hasMajority members = true
                · simp [role, roleVerdict, answered, primary, read, roleReply_ok_iff, majority]
                · simp [role, roleVerdict, answered, primary, read, roleReply_ok_iff, majority]
      · cases state : ownMemberState reads.status with
        | error failure => simpa [role, roleVerdict, answered, primary, state] using unknown
        | ok name => simp [role, roleVerdict, answered, primary, state, roleReply_ok_iff]

theorem hasMajority_of_role_ok {reads : RoleReads} {members : List RsMember}
    {votingMembers : Option Nat} (shown : reads.Shows members votingMembers)
    (ok : (role false reads).status = StatusCode.ok) : hasMajority members = true := by
  obtain ⟨-, others, otherVoting, shownAgain, majority⟩ := role_ok_iff.1 ok
  obtain ⟨setName, myState, myStateStr, read⟩ := shown
  obtain ⟨setNameAgain, myStateAgain, myStateStrAgain, readAgain⟩ := shownAgain
  rw [read] at readAgain
  cases readAgain
  exact majority

end MongoHa
