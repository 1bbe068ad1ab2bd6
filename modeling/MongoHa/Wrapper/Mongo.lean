/-
Module: MongoHa.Wrapper.Mongo
Layer: Wrapper
Purpose: What `mongo.rs` tells its callers about the local mongod: failed commands with their server
  code, the `hello` reply, the replica set status, and the reachable-majority test on a member view.
Imports: MongoHa.Foundations.Majority, MongoHa.Wrapper.Config
Trusted boundary: human-reviewed spec
Main exports: MongoError, Hello, RsMember, RsStatus, splitHostPort, hasMajority, hasMajority_iff
Open obligations: none
-/
import MongoHa.Foundations.Majority
import MongoHa.Wrapper.Config

namespace MongoHa

open Foundations.RustStr
open Foundations.Majority

/-- A failed command: the server's error code, when the failure is a server verdict, and its text. -/
structure MongoError where
  code : Option Int
  text : String
deriving Repr, DecidableEq, Inhabited

abbrev MongoResult := Except MongoError

namespace Codes

def alreadyInitialized : Int := 23

end Codes

/-- What `hello` said about the server behind the connection. -/
structure Hello where
  isWritablePrimary : Bool := false
  secondary : Bool := false
  setName : Option String := none
  isreplicaset : Bool := false
  primary : Option String := none
deriving Repr, DecidableEq, Inhabited

/-- One `members[]` row of `replSetGetStatus`. -/
structure RsMember where
  id : Int
  host : String
  state : Int
  stateStr : String
  healthy : Bool
  isSelf : Bool
  optimeSecs : Option UInt32
deriving Repr, DecidableEq, Inhabited

/-- The node's replica set status, or the fact that it has none. -/
inductive RsStatus where
  | notInitialized
  /-- The node holds a config that does not list it. -/
  | notAMember
  | active (setName : String) (myState : Int) (myStateStr : String) (members : List RsMember)
      (votingMembers : Option Nat)
deriving Repr, DecidableEq, Inhabited

namespace States

def primary : Int := 1

end States

/-- `str::rsplit_once(':')`. -/
def rsplitOnceColon (s : String) : Option (String × String) :=
  match (s.toList.reverse.span (· != ':')) with
  | (_, []) => none
  | (reversedPort, _ :: reversedHost) =>
      some (String.ofList reversedHost.reverse, String.ofList reversedPort.reverse)

def trimBrackets (s : String) : String :=
  String.ofList
    ((s.toList.dropWhile fun c => c == '[' || c == ']').reverse.dropWhile
      fun c => c == '[' || c == ']').reverse

/-- Parse a `host:port` member address; the port defaults to 27017. -/
def splitHostPort (addr : String) : String × UInt16 :=
  match rsplitOnceColon addr with
  | some (host, port) =>
      if !host.toList.contains ':' || host.toList.head? == some '[' then
        (trimBrackets host, (parseU16 port).getD 27017)
      else (addr, 27017)
  | none => (addr, 27017)

example : splitHostPort "mongo-1:27018" = ("mongo-1", 27018) := by decide
example : splitHostPort "[fd12::1]:27017" = ("fd12::1", 27017) := by decide

/-- A row counted as reachable: this node itself, or a member it hears from. -/
def RsMember.reachable (m : RsMember) : Bool :=
  m.healthy || m.isSelf

/-- Whether a member view has a reachable majority, the fence `/role` applies. -/
def hasMajority (members : List RsMember) : Bool :=
  if members.isEmpty then false
  else members.countP RsMember.reachable * 2 > members.length

/-- More than half of the members are reachable. -/
theorem hasMajority_iff {members : List RsMember} :
    hasMajority members = true ↔ members.length < 2 * members.countP RsMember.reachable := by
  cases members with
  | nil => simp [hasMajority]
  | cons m rest => simp [hasMajority, Nat.mul_comm]

/-- The hosts of a member view. -/
def memberHosts (members : List RsMember) : Finset String :=
  (members.map RsMember.host).toFinset

/-- The hosts a member view counts as reachable. -/
def reachableHosts (members : List RsMember) : Finset String :=
  memberHosts (members.filter RsMember.reachable)

theorem reachableHosts_subset (members : List RsMember) :
    reachableHosts members ⊆ memberHosts members := by
  intro host member
  rw [reachableHosts, memberHosts, List.mem_toFinset, List.mem_map] at member
  obtain ⟨row, kept, rfl⟩ := member
  rw [memberHosts, List.mem_toFinset]
  exact List.mem_map_of_mem (List.mem_of_mem_filter kept)

/-- On a view with distinct hosts the fence is the abstract majority of its host sets. -/
theorem hasMajority_iff_isMajority {members : List RsMember}
    (distinct : (members.map RsMember.host).Nodup) :
    hasMajority members = true ↔ IsMajority (reachableHosts members) (memberHosts members) := by
  have whole : (memberHosts members).card = members.length := by
    rw [memberHosts, List.toFinset_card_of_nodup distinct, List.length_map]
  have part : (reachableHosts members).card = members.countP RsMember.reachable := by
    have kept : ((members.filter RsMember.reachable).map RsMember.host).Nodup :=
      distinct.sublist (List.filter_sublist.map _)
    rw [reachableHosts, memberHosts, List.toFinset_card_of_nodup kept, List.length_map,
      List.countP_eq_length_filter]
  rw [hasMajority_iff, IsMajority, whole, part]

end MongoHa
