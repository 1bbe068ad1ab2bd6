/-
Module: MongoHa.Wrapper.Bson
Layer: Wrapper
Purpose: BSON documents as far as the wrapper reads and writes them, and the replica set config edits of
  `mongo.rs`: `nextConfig` and the member additions and removals built on it. A document is its fields
  in order, with `insert` and `remove` behaving as on the driver's insertion-ordered map. Versions and ids
  are integers here and an `i64` in the source, whose bounds no config of a set comes near.
Imports: Mathlib.Algebra.Ring.Int.Defs, Mathlib.Algebra.Ring.Nat, MongoHa.Foundations.RustStr
Trusted boundary: human-reviewed spec
Main exports: F64, Bson, Document, bsonInt, nextConfig, configWithMemberAdded, configWithMemberRemoved,
  configMemberHosts, get_insert_self, get_insert_of_ne, get_remove_of_ne, nextConfig_eq_ok
Open obligations: none
-/
import Mathlib.Algebra.Ring.Int.Defs
import Mathlib.Algebra.Ring.Nat
import MongoHa.Foundations.RustStr

namespace MongoHa

open Foundations.RustStr

/-- An IEEE 754 double, by its bits. -/
structure F64 where
  bits : UInt64
deriving Repr, DecidableEq

/-- The cast `f as i64`: truncation toward zero, saturating at the ends, NaN to zero. -/
def F64.toI64 (f : F64) : Int :=
  let negative := f.bits >>> 63 == 1
  let exponent := ((f.bits >>> 52) &&& 0x7ff).toNat
  let fraction := (f.bits &&& 0xfffffffffffff).toNat
  if exponent = 0x7ff then
    if fraction ≠ 0 then 0 else if negative then -2 ^ 63 else 2 ^ 63 - 1
  else
    let magnitude : Nat :=
      if exponent < 1023 then 0
      else if exponent < 1075 then (fraction + 2 ^ 52) / 2 ^ (1075 - exponent)
      else (fraction + 2 ^ 52) * 2 ^ (exponent - 1075)
    if negative then max (-2 ^ 63) (-(magnitude : Int)) else min (2 ^ 63 - 1) (magnitude : Int)

/-- The BSON values that occur in a replica set config; `other` is every further type. -/
inductive Bson where
  | double (value : F64)
  | string (value : String)
  | document (fields : List (String × Bson))
  | array (items : List Bson)
  | boolean (value : Bool)
  | int32 (value : Int)
  | int64 (value : Int)
  | other (tag : UInt8) (bytes : List UInt8)
deriving Repr

/-- A document as its fields in order. -/
abbrev Document := List (String × Bson)

namespace Document

def get (document : Document) (key : String) : Option Bson :=
  document.lookup key

def getStr (document : Document) (key : String) : Option String :=
  match document.get key with
  | some (.string value) => some value
  | _ => none

def getArray (document : Document) (key : String) : Option (List Bson) :=
  match document.get key with
  | some (.array items) => some items
  | _ => none

/-- Replace the value of a key in place, or append the key. -/
def insert : Document → String → Bson → Document
  | [], key, value => [(key, value)]
  | (name, old) :: rest, key, value =>
      if name = key then (name, value) :: rest else (name, old) :: insert rest key value

def remove (document : Document) (key : String) : Document :=
  document.filter fun field => field.1 != key

@[simp] theorem get_nil (key : String) : get [] key = none := rfl

theorem get_cons (field : String × Bson) (rest : Document) (key : String) :
    get (field :: rest) key = if key = field.1 then some field.2 else get rest key := by
  rw [get, List.lookup_cons]
  by_cases same : key = field.1
  · simp [same]
  · have differs : (key == field.1) = false := beq_eq_false_iff_ne.2 same
    simp [differs, same, get]

/-- An inserted field is found. -/
theorem get_insert_self (document : Document) (key : String) (value : Bson) :
    (document.insert key value).get key = some value := by
  induction document with
  | nil => simp [insert, get_cons]
  | cons field rest ih =>
      by_cases same : field.1 = key
      · simp [insert, get_cons, same]
      · simp [insert, get_cons, same, Ne.symm same, ih]

/-- Inserting a field leaves the others. -/
theorem get_insert_of_ne (document : Document) {key other : String} (value : Bson)
    (differs : other ≠ key) : (document.insert key value).get other = document.get other := by
  induction document with
  | nil => simp [insert, get_cons, differs]
  | cons field rest ih =>
      by_cases same : field.1 = key
      · simp [insert, get_cons, same, differs]
      · simp [insert, get_cons, same, ih]

/-- Removing a field leaves the others. -/
theorem get_remove_of_ne (document : Document) {key other : String} (differs : other ≠ key) :
    (document.remove key).get other = document.get other := by
  induction document with
  | nil => rfl
  | cons field rest ih =>
      rw [remove] at ih
      by_cases same : field.1 = key
      · simp [remove, get_cons, same, differs, ih]
      · simp [remove, get_cons, same, ih]

end Document

def Bson.asDocument : Bson → Option Document
  | .document fields => some fields
  | _ => none

/-- `bson_int`: the integer a numeric value stands for, whichever of the three encodings it has. -/
def bsonInt : Option Bson → Option Int
  | some (.int32 value) => some value
  | some (.int64 value) => some value
  | some (.double value) => some value.toI64
  | _ => none

/-- Build the next config from the current one: bump `version`, drop `term`, apply `edit` to the
    members. Every other top-level field is kept. -/
def nextConfig (current : Document) (edit : List Bson → List Bson) : Except String Document :=
  match bsonInt (current.get "version") with
  | none => .error "config has no version"
  | some version =>
      match current.getArray "members" with
      | none => .error "config has no members"
      | some members =>
          if edit members = [] then .error "refusing to produce a config with no members"
          else .ok (((current.insert "version" (.int64 (version + 1))).remove "term").insert
            "members" (.array (edit members)))

/-- What a next config was built from, and what it is. -/
theorem nextConfig_eq_ok {current next : Document} {edit : List Bson → List Bson}
    (built : nextConfig current edit = .ok next) :
    ∃ version members, bsonInt (current.get "version") = some version ∧
      current.getArray "members" = some members ∧ edit members ≠ [] ∧
      next = ((current.insert "version" (.int64 (version + 1))).remove "term").insert
        "members" (.array (edit members)) := by
  unfold nextConfig at built
  split at built
  · cases built
  · rename_i version versioned
    split at built
    · cases built
    · rename_i members listed
      split at built
      · cases built
      · rename_i filled
        cases built
        exact ⟨version, members, versioned, listed, filled, rfl⟩

/-- The `_id` fields of the members that are documents and carry an integer one. -/
def memberIds (members : List Bson) : List Int :=
  (members.filterMap Bson.asDocument).filterMap fun member => bsonInt (member.get "_id")

/-- One more than the largest member `_id`, or 0 when there is none. -/
def nextMemberId (members : List Bson) : Int :=
  match (memberIds members).max? with
  | some id => id + 1
  | none => 0

def addedMember (id : Int) (host : String) : Bson :=
  .document [("_id", .int64 id), ("host", .string host), ("priority", .int32 1), ("votes", .int32 1)]

/-- The config with `host` appended as a fresh voting member. -/
def configWithMemberAdded (current : Document) (host : String) : Except String Document :=
  nextConfig current fun members => members ++ [addedMember (nextMemberId members) host]

/-- Whether `retain` keeps this entry: it is dropped only when it names `host`, case aside. -/
def keepsMember (host : String) (entry : Bson) : Bool :=
  match entry.asDocument.bind fun member => member.getStr "host" with
  | some named => !eqIgnoreAsciiCase named host
  | none => true

/-- The config with the member at `host` removed. -/
def configWithMemberRemoved (current : Document) (host : String) : Except String Document :=
  nextConfig current fun members => members.filter (keepsMember host)

/-- Every `host:port` in a config. -/
def configMemberHosts (config : Document) : List String :=
  match config.getArray "members" with
  | some members =>
      (members.filterMap Bson.asDocument).filterMap fun member => member.getStr "host"
  | none => []

end MongoHa
