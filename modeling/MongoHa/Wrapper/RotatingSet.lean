/-
Module: MongoHa.Wrapper.RotatingSet
Layer: Wrapper
Purpose: The members of a set while a rotation runs: the wrapper of every member and the stored root user,
  which one `updateUser` writes on the primary and the other members apply later. A password probe asks
  the member's own mongod, which authenticates against its local data. A write whose reply names no write
  concern error is majority committed. One whose reply names such an error stands on the primary, and one
  that failed may stand there nevertheless.
Imports: MongoHa.Foundations.Replication, MongoHa.Wrapper.CredentialNode
Trusted boundary: human-reviewed spec
Main exports: RotatingSet, UserAfter, SetLabel, SetLabel.asks, SetStep, userAfter_cases
Open obligations: none
-/
import MongoHa.Foundations.Replication
import MongoHa.Wrapper.CredentialNode

namespace MongoHa.Credentials

open Foundations

/-- The members of a set, and the root user that replicates between them. -/
structure RotatingSet (ι : Type*) where
  nodes : ι → Node
  user : Replication ι String

section

variable {ι : Type*} [DecidableEq ι]

/-- What a call of a member does to the stored user. -/
def UserAfter (member : ι) (label : Label) (user after : Replication ι String) : Prop :=
  match label with
  | .performs _ (.updateUser _ password) (.ok { writeConcernError := none }) =>
      user.primary = member ∧ after = user.acknowledge password
  | .performs _ (.updateUser _ password) (.ok { writeConcernError := some _ }) =>
      user.primary = member ∧ after = user.write password
  | .performs _ (.updateUser _ password) (.error _) =>
      after = user ∨ (user.primary = member ∧ after = user.write password)
  | _ => after = user

/-- A step of one member, or of the stored user by itself. -/
inductive SetLabel (ι : Type*) where
  | node (member : ι) (label : Label)
  | replicates (user : Replication ι String)

/-- The request that the holder of each member's rotation lock works on, or worked on last. -/
def SetLabel.asks (asked : ι → Option Rotation) : SetLabel ι → ι → Option Rotation
  | .node member label => Function.update asked member (label.asks (asked member))
  | .replicates _ => asked

/-- One step of the set. A probe on a member answers by what that member has applied. -/
inductive SetStep (deriveKeyfileContent : String → String) :
    RotatingSet ι → SetLabel ι → RotatingSet ι → Prop where
  | node {s : RotatingSet ι} {member : ι} {label : Label} {node : Node} {user : Replication ι String}
      (step : NodeStep deriveKeyfileContent (s.nodes member) label node)
      (truthful : ∀ name password, label.works = some (name, password) →
        s.user.value member = some password)
      (written : UserAfter member label s.user user) :
      SetStep deriveKeyfileContent s (.node member label)
        { nodes := Function.update s.nodes member node, user := user }
  | replicates {s : RotatingSet ι} {user : Replication ι String} (moves : s.user.Moves user) :
      SetStep deriveKeyfileContent s (.replicates user) { s with user := user }

/-- A call leaves the stored user as it is, or it is an `updateUser` on the primary. -/
theorem userAfter_cases {member : ι} {label : Label} {user after : Replication ι String}
    (written : UserAfter member label user after) :
    after = user ∨ (user.primary = member ∧ ∃ name username password reply,
      label = .performs name (.updateUser username password) reply ∧
        ((reply = .ok {} ∧ after = user.acknowledge password) ∨ after = user.write password)) := by
  unfold UserAfter at written
  split at written
  · exact Or.inr ⟨written.1, _, _, _, _, rfl, Or.inl ⟨rfl, written.2⟩⟩
  · exact Or.inr ⟨written.1, _, _, _, _, rfl, Or.inr written.2⟩
  · rcases written with same | ⟨leads, wrote⟩
    · exact Or.inl same
    · exact Or.inr ⟨leads, _, _, _, _, rfl, Or.inr wrote⟩
  · exact Or.inl written

end

end MongoHa.Credentials
