/-
Module: MongoHa.Wrapper.Documents
Layer: Wrapper
Purpose: The JSON documents of the wrapper: the credential pin of `auth_pin.rs` and the `/rs/state` body of
  `peers.rs`. Each is written with the fields of its struct in order, and read with the struct's defaults;
  what other fields hold is skipped. The pin is read as a text, a body as octets.
Imports: MongoHa.Foundations.Codec, MongoHa.Wrapper.AuthPin, MongoHa.Wrapper.Peers
Trusted boundary: human-reviewed spec
Main exports: AuthPin.toJson, AuthPin.fromJson, pinCodec, readPinBytes, RsState.InRange, RsState.toJson,
  RsState.fromJson, rsStateCodec
Open obligations: none
-/
import MongoHa.Foundations.Codec
import MongoHa.Wrapper.AuthPin
import MongoHa.Wrapper.Peers

namespace MongoHa

open Foundations
open Foundations.JsonDocuments
open Foundations.JsonLiterals

/-! ### The pin -/

def AuthPin.names : List String := ["password", "keyfile"]

theorem AuthPin.names_nodup : AuthPin.names.Nodup := by decide

/-- The document of a pin. -/
def AuthPin.toJson (pin : AuthPin) : Json :=
  .ofFields [("password", .ofString pin.password), ("keyfile", .ofOption .ofString pin.keyfile)]

/-- A pin from its document; the keyfile may be missing. -/
def AuthPin.fromJson (document : Json) : Option AuthPin := do
  let fields ← structFields AuthPin.names 1 document
  let password ← field "password" (required Json.string?) fields
  let keyfile ← field "keyfile" (optional Json.string?) fields
  pure { password := password, keyfile := keyfile }

theorem AuthPin.fromJson_toJson (pin : AuthPin) : AuthPin.fromJson pin.toJson = some pin := by
  obtain ⟨password, keyfile⟩ := pin
  have distinct : ([("password", Json.ofString password),
      ("keyfile", Json.ofOption .ofString keyfile)].map Prod.fst).Nodup :=
    AuthPin.names_nodup
  have named : field "password" (required Json.string?)
      [("password", .ofString password), ("keyfile", .ofOption .ofString keyfile)] = some password := by
    rw [field, lookup_of_mem distinct (List.mem_cons_self ..), Option.bind_some, required,
      Json.string?_ofString]
  have keyed : field "keyfile" (optional Json.string?)
      [("password", .ofString password), ("keyfile", .ofOption .ofString keyfile)] = some keyfile := by
    rw [field, lookup_of_mem distinct (List.mem_cons_of_mem _ (List.mem_cons_self ..)), Option.bind_some]
    exact optional_ofOption (fun key _ => Json.string?_ofString key) fun _ => Json.noConfusion
  rw [AuthPin.fromJson, AuthPin.toJson, structFields_ofFields]
  simp only [Option.bind_eq_bind, Option.bind_some, named, keyed, Option.pure_def]

/-- The bytes of a pin are a text. -/
theorem AuthPin.isText_toJson (pin : AuthPin) : IsText pin.toJson.write := by
  obtain ⟨password, keyfile⟩ := pin
  have null : IsText ['n', 'u', 'l', 'l', '\x7d'] := isText_ascii (by simp)
  have closing : IsText ['\x7d'] := isText_ascii (by simp)
  have keyed : IsText ((Json.ofOption .ofString keyfile).write ++ ['\x7d']) := by
    cases keyfile with
    | none => exact null
    | some key => exact (isText_ofString key).append closing
  simp only [AuthPin.toJson, Json.ofFields, List.map_cons, List.map_nil, named, Json.write, writeMembers,
    Json.ofString]
  exact .cons (by decide) ((isText_ofString _).append (.cons (by decide) ((isText_ofString _).append
    (.cons (by decide) ((isText_ofString _).append (.cons (by decide) keyed))))))

/-- The bytes of a pin. -/
def pinCodec : Codec AuthPin :=
  .asText
    (.json AuthPin.toJson AuthPin.fromJson (fun _ => True) (fun pin _ => pin.fromJson_toJson) fun _ => rfl)
    AuthPin.isText_toJson

/-- `read_pin`, from the bytes at the pin's path. -/
def readPinBytes (raw : Option (List UInt8)) : Option AuthPin :=
  raw.bind pinCodec.decode

/-! ### The state of a node -/

def usizeBound : Nat := 2 ^ 64

def i64Bound : Nat := 2 ^ 63

/-- The numbers of the state are those of their types in the source. -/
structure RsState.InRange (state : RsState) : Prop where
  membersTotal : state.membersTotal < usizeBound
  membersHealthy : state.membersHealthy < usizeBound
  votingMembers : ∀ n, state.votingMembers = some n → n < usizeBound
  configVersion : ∀ i, state.configVersion = some i → -(i64Bound : Int) ≤ i ∧ i < i64Bound
  oplogWindowSeconds : ∀ n, state.oplogWindowSeconds = some n → n < usizeBound

namespace RsState

def names : List String :=
  ["node_id", "set_active", "set_name", "my_state", "is_primary", "primary_host", "members",
   "members_total", "members_healthy", "voting_members", "has_data", "config_version",
   "oplog_window_seconds"]

def natural (n : Nat) : Json := .number (.ofNat n)

def integer (i : Int) : Json := .number (.ofInt i)

def fields (state : RsState) : List (String × Json) :=
  [("node_id", .ofString state.nodeId),
   ("set_active", .bool state.setActive),
   ("set_name", .ofOption .ofString state.setName),
   ("my_state", .ofOption .ofString state.myState),
   ("is_primary", .bool state.isPrimary),
   ("primary_host", .ofOption .ofString state.primaryHost),
   ("members", .array (state.members.map .ofString)),
   ("members_total", natural state.membersTotal),
   ("members_healthy", natural state.membersHealthy),
   ("voting_members", .ofOption natural state.votingMembers),
   ("has_data", .bool state.hasData),
   ("config_version", .ofOption integer state.configVersion),
   ("oplog_window_seconds", .ofOption natural state.oplogWindowSeconds)]

/-- The document of a state. -/
def toJson (state : RsState) : Json := .ofFields state.fields

/-- The state from its fields. -/
def ofFields (fields : List (String × Json)) : Option RsState := do
  let nodeId ← field "node_id" (required Json.string?) fields
  let setActive ← field "set_active" (required Json.bool?) fields
  let setName ← field "set_name" (optional Json.string?) fields
  let myState ← field "my_state" (optional Json.string?) fields
  let isPrimary ← field "is_primary" (required Json.bool?) fields
  let primaryHost ← field "primary_host" (optional Json.string?) fields
  let members ← field "members" (defaulting (Json.array? Json.string?) []) fields
  let membersTotal ← field "members_total" (required (Json.natBelow? usizeBound)) fields
  let membersHealthy ← field "members_healthy" (required (Json.natBelow? usizeBound)) fields
  let votingMembers ← field "voting_members" (optional (Json.natBelow? usizeBound)) fields
  let hasData ← field "has_data" (required Json.bool?) fields
  let configVersion ← field "config_version" (optional (Json.intWithin? i64Bound)) fields
  let oplogWindowSeconds ← field "oplog_window_seconds" (optional (Json.natBelow? usizeBound)) fields
  pure
    { nodeId := nodeId
      setActive := setActive
      setName := setName
      myState := myState
      isPrimary := isPrimary
      primaryHost := primaryHost
      members := members
      membersTotal := membersTotal
      membersHealthy := membersHealthy
      votingMembers := votingMembers
      hasData := hasData
      configVersion := configVersion
      oplogWindowSeconds := oplogWindowSeconds }

/-- A state from its document. -/
def fromJson (document : Json) : Option RsState :=
  (structFields names 12 document).bind ofFields

end RsState

theorem natBelow?_natural {bound n : Nat} (below : n < bound) :
    (RsState.natural n).natBelow? bound = some n := by
  simp [RsState.natural, Json.natBelow?, below]

theorem intWithin?_integer {bound : Nat} {i : Int} (within_ : -(bound : Int) ≤ i ∧ i < bound) :
    (RsState.integer i).intWithin? bound = some i := by
  simp [RsState.integer, Json.intWithin?, within_]

namespace RsState

theorem names_nodup : names.Nodup := by decide

/-- The fields that a reader does without. -/
def optionalNames : List String :=
  ["set_name", "my_state", "primary_host", "members", "voting_members", "config_version",
   "oplog_window_seconds"]

/-- The state as it is read where the fields of these names are missing. -/
def without (state : RsState) (dropped : List String) : RsState :=
  { state with
    setName := if dropped.contains "set_name" then none else state.setName
    myState := if dropped.contains "my_state" then none else state.myState
    primaryHost := if dropped.contains "primary_host" then none else state.primaryHost
    members := if dropped.contains "members" then [] else state.members
    votingMembers := if dropped.contains "voting_members" then none else state.votingMembers
    configVersion := if dropped.contains "config_version" then none else state.configVersion
    oplogWindowSeconds :=
      if dropped.contains "oplog_window_seconds" then none else state.oplogWindowSeconds }

theorem optional_dropped {α : Type} {read : Json → Option α} {write : α → Json} {a : Option α}
    (readBack : ∀ b, a = some b → read (write b) = some b) (filled : ∀ b, write b ≠ .null)
    (missing : Bool) :
    optional read (if missing then none else some (.ofOption write a)) =
      some (if missing then none else a) := by
  cases missing with
  | true => rfl
  | false => exact optional_ofOption readBack filled

/-- The fields of a state in any order, less some that a reader does without, and among fields of other
    names. -/
theorem ofFields_compatible {state : RsState} (inRange : state.InRange)
    {fields extra : List (String × Json)} {dropped : List String}
    (spare : ∀ name ∈ dropped, name ∈ optionalNames)
    (unknown : ∀ field ∈ extra, field.1 ∉ names)
    (perm : fields.Perm ((state.fields.filter fun field => !dropped.contains field.1) ++ extra)) :
    ofFields fields = some (state.without dropped) := by
  have distinct : (state.fields.map Prod.fst).Nodup := names_nodup
  have kept : ((state.fields.filter fun field => !dropped.contains field.1).map Prod.fst).Nodup :=
    distinct.sublist (List.filter_sublist.map _)
  have found : ∀ {name read}, (name, read) ∈ state.fields →
      lookup name fields = some (if dropped.contains name then none else some read) := by
    intro name read member
    have known : name ∈ names := List.mem_map_of_mem (f := Prod.fst) member
    rw [lookup_of_perm perm (fun field inside same => unknown field inside (same ▸ known)) kept]
    exact lookup_filter distinct member dropped
  have needed : ∀ {name read}, (name, read) ∈ state.fields → name ∉ optionalNames →
      lookup name fields = some (some read) := by
    intro name read member needed
    have present : dropped.contains name = false := by
      rw [Bool.eq_false_iff]
      intro listed
      exact needed (spare name (by simpa using listed))
    rw [found member, present]
    rfl
  have required_ : ∀ {α name document} {read : Json → Option α} {a},
      (name, document) ∈ state.fields → name ∉ optionalNames → read document = some a →
        field name (required read) fields = some a := by
    intro α name document read a member needs back
    rw [field, needed member needs]
    exact back
  have optional_ : ∀ {α name} {read : Json → Option α} {write : α → Json} {a : Option α},
      (name, Json.ofOption write a) ∈ state.fields → (∀ b, a = some b → read (write b) = some b) →
        (∀ b, write b ≠ .null) →
          field name (optional read) fields = some (if dropped.contains name then none else a) := by
    intro α name read write a member back filled
    rw [field, found member]
    exact optional_dropped back filled _
  have members : field "members" (defaulting (Json.array? Json.string?) []) fields =
      some (if dropped.contains "members" then [] else state.members) := by
    rw [field, @found "members" (.array (state.members.map .ofString)) (by simp [RsState.fields])]
    cases dropped.contains "members" with
    | true => rfl
    | false => exact array?_map state.members fun host _ => Json.string?_ofString host
  have count : ∀ {n}, n < usizeBound → (natural n).natBelow? usizeBound = some n := natBelow?_natural
  unfold ofFields
  rw [@required_ _ "node_id" (.ofString state.nodeId) Json.string? state.nodeId
      (by simp [RsState.fields]) (by decide) (Json.string?_ofString _),
    @required_ _ "set_active" (.bool state.setActive) Json.bool? state.setActive
      (by simp [RsState.fields]) (by decide) rfl,
    @optional_ _ "set_name" Json.string? .ofString state.setName (by simp [RsState.fields])
      (fun _ _ => Json.string?_ofString _) (fun _ => Json.noConfusion),
    @optional_ _ "my_state" Json.string? .ofString state.myState (by simp [RsState.fields])
      (fun _ _ => Json.string?_ofString _) (fun _ => Json.noConfusion),
    @required_ _ "is_primary" (.bool state.isPrimary) Json.bool? state.isPrimary
      (by simp [RsState.fields]) (by decide) rfl,
    @optional_ _ "primary_host" Json.string? .ofString state.primaryHost (by simp [RsState.fields])
      (fun _ _ => Json.string?_ofString _) (fun _ => Json.noConfusion),
    members,
    @required_ _ "members_total" _ _ state.membersTotal (by simp [RsState.fields]) (by decide)
      (count inRange.membersTotal),
    @required_ _ "members_healthy" _ _ state.membersHealthy (by simp [RsState.fields]) (by decide)
      (count inRange.membersHealthy),
    @optional_ _ "voting_members" _ natural state.votingMembers (by simp [RsState.fields])
      (fun n is => count (inRange.votingMembers n is)) (fun _ => Json.noConfusion),
    @required_ _ "has_data" (.bool state.hasData) Json.bool? state.hasData
      (by simp [RsState.fields]) (by decide) rfl,
    @optional_ _ "config_version" _ integer state.configVersion (by simp [RsState.fields])
      (fun i is => intWithin?_integer (inRange.configVersion i is)) (fun _ => Json.noConfusion),
    @optional_ _ "oplog_window_seconds" _ natural state.oplogWindowSeconds (by simp [RsState.fields])
      (fun n is => count (inRange.oplogWindowSeconds n is)) (fun _ => Json.noConfusion)]
  rfl

theorem fromJson_toJson {state : RsState} (inRange : state.InRange) :
    fromJson state.toJson = some state := by
  have whole : (state.fields.filter fun field => !([] : List String).contains field.1) ++ [] =
      state.fields := by
    simp
  have read := @ofFields_compatible state inRange state.fields [] [] (by simp) (by simp)
    (by rw [whole])
  rw [fromJson, toJson, structFields_ofFields, Option.bind_some, read]
  rfl

end RsState

/-- The bytes of a state. -/
def rsStateCodec : Codec RsState :=
  .json RsState.toJson RsState.fromJson RsState.InRange (fun _ inRange => RsState.fromJson_toJson inRange)
    fun _ => rfl

end MongoHa
