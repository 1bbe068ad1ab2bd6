/-
Module: MongoHa.Proofs.RoleInstants
Layer: Proofs
Purpose: `/role` on a mongod that changes during the request. `hello` and the status are read at two
  instants; a 200 is about one of them exactly when the first view already had its majority, or the second
  reply still says PRIMARY, which the handler does not look at.
Imports: MongoHa.Wrapper.HealthServer
Trusted boundary: none (fully proved)
Main exports: MongodSnapshot, MongodSnapshot.ServesWrites, RoleRequest, RoleRequest.Truthful,
  truthful_iff, stepped_down_node_answers_ok
Open obligations: none
-/
import MongoHa.Wrapper.HealthServer

namespace MongoHa

/-! ### A request -/

/-- What a mongod answers at one instant. Only a PRIMARY calls itself the writable primary, and the status
    carries the own state. -/
structure MongodSnapshot where
  state : Int
  hello : Hello
  status : RsStatus
  writable : hello.isWritablePrimary = true → state = States.primary
  mine : ∀ setName myState myStateStr members votingMembers,
    status = .active setName myState myStateStr members votingMembers → myState = state

namespace MongodSnapshot

/-- The member view has a majority. -/
def Majority (snapshot : MongodSnapshot) : Prop :=
  match snapshot.status with
  | .active _ _ _ members _ => hasMajority members = true
  | _ => False

/-- What a 200 of `/role` promises. -/
def ServesWrites (snapshot : MongodSnapshot) : Prop :=
  snapshot.state = States.primary ∧ snapshot.Majority

end MongodSnapshot

/-- A `/role` request in HA mode, and the mongod it reads at two of its instants. Either read may fail. -/
structure RoleRequest where
  server : Instant → MongodSnapshot
  startsAt : Instant
  helloAt : Instant
  statusAt : Instant
  endsAt : Instant
  ordered : startsAt ≤ helloAt ∧ helloAt ≤ statusAt ∧ statusAt ≤ endsAt
  ping : MongoResult Unit
  helloFails : Option MongoError
  statusFails : Option MongoError

namespace RoleRequest

def read {α : Type} (fails : Option MongoError) (value : α) : MongoResult α :=
  match fails with
  | some failure => .error failure
  | none => .ok value

def reads (request : RoleRequest) : RoleReads :=
  { ping := request.ping
    hello := read request.helloFails (request.server request.helloAt).hello
    status := read request.statusFails (request.server request.statusAt).status }

/-- A 200 is true at some instant of the request. -/
def Truthful (request : RoleRequest) : Prop :=
  (role false request.reads).status = StatusCode.ok →
    ∃ instant, request.startsAt ≤ instant ∧ instant ≤ request.endsAt ∧
      (request.server instant).ServesWrites

/-- The request reads `hello` off the first snapshot and the status off the second one. -/
def Sees (request : RoleRequest) (first second : MongodSnapshot) : Prop :=
  request.server request.helloAt = first ∧ request.server request.statusAt = second

theorem read_eq_ok {α : Type} {fails : Option MongoError} {value answer : α}
    (answered : read fails value = .ok answer) : value = answer := by
  cases fails with
  | none => exact Except.ok.inj answered
  | some failure => cases answered

/-- A 200 comes from a first snapshot that is the writable primary and a second one with a majority. -/
theorem seen_of_ok {request : RoleRequest} {first second : MongodSnapshot}
    (sees : request.Sees first second) (ok : (role false request.reads).status = StatusCode.ok) :
    first.hello.isWritablePrimary = true ∧ second.Majority := by
  obtain ⟨rfl, rfl⟩ := sees
  obtain ⟨⟨hello, greeted, writable⟩, members, votingMembers, ⟨_, _, _, shown⟩, majority⟩ :=
    role_ok_iff.1 ok
  rw [read_eq_ok greeted]
  refine ⟨writable, ?_⟩
  rw [MongodSnapshot.Majority, read_eq_ok shown]
  exact majority

/-- The request that meets the first snapshot before the second and never another one. -/
def between (first second : MongodSnapshot) : RoleRequest :=
  { server := fun instant => if instant = 0 then first else second
    startsAt := 0, helloAt := 0, statusAt := 1, endsAt := 1
    ordered := by decide
    ping := .ok (), helloFails := none, statusFails := none }

theorem between_sees (first second : MongodSnapshot) : (between first second).Sees first second :=
  ⟨rfl, rfl⟩

theorem between_ok {first second : MongodSnapshot} (writable : first.hello.isWritablePrimary = true)
    (majority : second.Majority) :
    (role false (between first second).reads).status = StatusCode.ok := by
  refine role_ok_iff.2 ⟨⟨first.hello, rfl, writable⟩, ?_⟩
  unfold MongodSnapshot.Majority at majority
  split at majority
  · rename_i setName myState myStateStr members votingMembers active
    exact ⟨members, votingMembers, ⟨setName, myState, myStateStr, congrArg Except.ok active⟩, majority⟩
  · cases majority

/-- For the snapshots of the two reads, every request that sees them is truthful exactly when none of them
    answers 200, or one of the two snapshots alone bears the 200 out. -/
theorem truthful_iff (first second : MongodSnapshot) :
    (∀ request : RoleRequest, request.Sees first second → request.Truthful) ↔
      (first.hello.isWritablePrimary = false ∨ ¬ second.Majority ∨
        first.Majority ∨ second.state = States.primary) := by
  constructor
  · intro truthful
    by_contra unborne
    obtain ⟨primary, majority, lost, steppedDown⟩ : first.hello.isWritablePrimary = true ∧
        second.Majority ∧ ¬ first.Majority ∧ second.state ≠ States.primary := by
      simpa using unborne
    obtain ⟨instant, -, -, serves⟩ := truthful (between first second) (between_sees first second)
      (between_ok primary majority)
    by_cases start : instant = 0
    · simp only [between, start, ↓reduceIte] at serves
      exact lost serves.2
    · simp only [between, start, ↓reduceIte] at serves
      exact steppedDown serves.1
  · intro borne request sees ok
    obtain ⟨writable, majority⟩ := seen_of_ok sees ok
    obtain ⟨rfl, rfl⟩ := sees
    obtain ⟨starts, inTurn, ends⟩ := request.ordered
    rcases borne with notWritable | lost | held | primary
    · rw [writable] at notWritable
      cases notWritable
    · exact absurd majority lost
    · exact ⟨request.helloAt, starts, le_trans inTurn ends, MongodSnapshot.writable _ writable, held⟩
    · exact ⟨request.statusAt, le_trans starts inTurn, ends, primary, majority⟩

end RoleRequest

/-! ### A step-down between the reads -/

/-- A member of the view of `mongo-1`. -/
def viewRow (host : String) (healthy : Bool) (state : Int) (stateStr : String) : RsMember :=
  { id := 0, host := host, state := state, stateStr := stateStr, healthy := healthy
    isSelf := host == "mongo-1", optimeSecs := none }

/-- A primary that reaches nobody, before mongod steps it down. -/
def cutOffPrimary : MongodSnapshot where
  state := States.primary
  hello := { isWritablePrimary := true, setName := some "rs0" }
  status := .active "rs0" States.primary "PRIMARY"
    [viewRow "mongo-1" true 1 "PRIMARY", viewRow "mongo-2" false 8 "(not reachable/healthy)",
      viewRow "mongo-3" false 8 "(not reachable/healthy)"] none
  writable _ := rfl
  mine _ _ _ _ _ same := by cases same; rfl

/-- The same node later, a secondary of the new primary. -/
def rejoinedSecondary : MongodSnapshot where
  state := 2
  hello := { secondary := true, setName := some "rs0" }
  status := .active "rs0" 2 "SECONDARY"
    [viewRow "mongo-1" true 2 "SECONDARY", viewRow "mongo-2" true 1 "PRIMARY",
      viewRow "mongo-3" true 2 "SECONDARY"] none
  writable primary := by cases primary
  mine _ _ _ _ _ same := by cases same; rfl

/-- A node that steps down and rejoins between the reads answers 200, and was at no instant of the request
    a primary with a majority. -/
theorem stepped_down_node_answers_ok :
    (role false (RoleRequest.between cutOffPrimary rejoinedSecondary).reads).status = StatusCode.ok ∧
      ¬ (RoleRequest.between cutOffPrimary rejoinedSecondary).Truthful := by
  refine ⟨by decide, fun truthful => ?_⟩
  obtain ⟨instant, -, -, primary, majority⟩ := truthful (by decide)
  by_cases start : instant = 0
  · simp only [RoleRequest.between, start, ↓reduceIte] at majority
    exact absurd (show hasMajority _ = true from majority) (by decide)
  · simp only [RoleRequest.between, start, ↓reduceIte] at primary
    exact absurd primary (by decide)

end MongoHa
