/-
Module: MongoHa.Wrapper.Membership
Layer: Wrapper
Purpose: The set's config as a register that many nodes edit. `rsInitiateConfig` is the config a set
  starts from; an `EditStep` is a joiner or a prune round reading the installed config and drafting its
  edit, mongod installing a draft whose version is strictly greater, or an election changing the term.
  A draft may be submitted at any later time, more than once or never, and a refused one changes nothing.
Imports: MongoHa.Foundations.Machine, MongoHa.Wrapper.Orchestrate
Trusted boundary: human-reviewed spec
Main exports: rsInitiateConfig, MemberEdit, editConfig, EditState, EditStep, membershipEdits,
  addSelf_derives, removeMember_derives
Open obligations: none
-/
import MongoHa.Foundations.Machine
import MongoHa.Wrapper.Orchestrate

namespace MongoHa

open Foundations
open Foundations.RustStr

/-- The config `rs_initiate` hands to mongod. -/
def rsInitiateConfig (setName selfHost : String) : Document :=
  [("_id", .string setName), ("version", .int32 1),
    ("members", .array [.document [("_id", .int32 0), ("host", .string selfHost)]])]

def configVersion (config : Document) : Option Int :=
  bsonInt (config.get "version")

/-- The two edits of a member list. -/
inductive MemberEdit where
  | add (host : String)
  | remove (host : String)
deriving Repr, DecidableEq

/-- The config that an edit makes of the current one. -/
def MemberEdit.draft (current : Document) : MemberEdit → Except String Document
  | .add host => configWithMemberAdded current host
  | .remove host => configWithMemberRemoved current host

/-- The config after an edit; one that is refused leaves it. -/
def editConfig (current : Document) (edit : MemberEdit) : Document :=
  match edit.draft current with
  | .ok next => next
  | .error _ => current

/-- The installed config, the configs drafted so far with the edit each makes, and the edits mongod
    accepted, in order. -/
structure EditState where
  installed : Document
  drafts : List (MemberEdit × Document)
  accepted : List MemberEdit

/-- A node drafts its edit from the config it reads, mongod installs a draft, or an election moves the
    term. -/
inductive EditStep (s : EditState) : EditState → Prop where
  /-- A joiner reads the installed config through the primary. -/
  | join (config : Config) (primaryHost : String) (myHasData : Bool) (reconfig : MongoResult Unit)
      {next : Document}
      (derived : .addSelf primaryHost next ∈ (addSelfThroughPrimary config primaryHost myHasData
        { rsConfig := .ok s.installed, reconfig := reconfig }).2) :
      EditStep s { s with drafts := s.drafts ++ [(.add config.nodeId, next)] }
  /-- The primary's prune round reads it at a row whose member is due. -/
  | prune (now : Instant) (dwell : Duration) (gone : GoneTracker) (m : RsMember)
      (nameVerdict : NameVerdict) (reconfig : MongoResult Unit) {next : Document}
      (derived : .removeMember m.host next ∈ (pruneMembers now dwell gone
        [(m, { nameVerdict := nameVerdict, rsConfig := .ok s.installed,
               reconfig := reconfig })]).commands) :
      EditStep s { s with drafts := s.drafts ++ [(.remove m.host, next)] }
  | install {edit : MemberEdit} {next : Document} {version newer : Int}
      (drafted : (edit, next) ∈ s.drafts) (installed : configVersion s.installed = some version)
      (submitted : configVersion next = some newer) (greater : version < newer) :
      EditStep s { s with installed := next, accepted := s.accepted ++ [edit] }
  | elect (term : Bson) :
      EditStep s { s with installed := s.installed.insert "term" term }

/-- Every interleaving of the edits of one set, from the config it was initiated with. -/
def membershipEdits (setName selfHost : String) : System EditState where
  init s := s = { installed := rsInitiateConfig setName selfHost, drafts := [], accepted := [] }
  step := EditStep

/-! ### What a read derives -/

/-- A joiner that submits was not named in the config it read, and submits its addition to it. -/
theorem addSelf_derives {config : Config} {primaryHost : String} {myHasData : Bool}
    {reconfig : MongoResult Unit} {current next : Document}
    (derived : .addSelf primaryHost next ∈ (addSelfThroughPrimary config primaryHost myHasData
      { rsConfig := .ok current, reconfig := reconfig }).2) :
    ((configMemberHosts current).any fun host => eqIgnoreAsciiCase host config.nodeId) = false ∧
      configWithMemberAdded current config.nodeId = .ok next := by
  simp only [addSelfThroughPrimary] at derived
  split at derived
  · cases derived
  · rename_i unnamed
    refine ⟨Bool.not_eq_true _ ▸ unnamed, ?_⟩
    cases built : configWithMemberAdded current config.nodeId with
    | error text =>
        rw [built] at derived
        cases myHasData <;> simp at derived
    | ok added =>
        rw [built] at derived
        cases myHasData <;> simp_all

/-- A removal is of the row's host, from the config that was read. -/
theorem removeMember_derives {now : Instant} {dwell : Duration} {gone : GoneTracker} {m : RsMember}
    {nameVerdict : NameVerdict} {reconfig : MongoResult Unit} {current next : Document}
    {host : String}
    (derived : .removeMember host next ∈ (pruneMembers now dwell gone
      [(m, { nameVerdict := nameVerdict, rsConfig := .ok current, reconfig := reconfig })]).commands) :
    host = m.host ∧ configWithMemberRemoved current m.host = .ok next := by
  cases built : configWithMemberRemoved current m.host with
  | error text =>
      rw [pruneMembers] at derived
      simp only [built, pruneMembers] at derived
      repeat' split at derived
      all_goals cases derived
  | ok pruned =>
      rw [pruneMembers] at derived
      simp only [built, pruneMembers] at derived
      repeat' split at derived
      all_goals simp_all

end MongoHa
