/-
Module: MongoHa.Wrapper.HealthAuth
Layer: Wrapper
Purpose: `health_auth.rs`: the credential that the mutating route of the health server requires, the one
  it is compared with once a rotation has moved the root password, and HTTP Basic as it is sent and
  accepted. Decoding base64 is a library's work and a parameter here.
Imports: MongoHa.Foundations.Base64, MongoHa.Wrapper.AuthPin
Trusted boundary: human-reviewed spec
Main exports: Credential, Config.healthApiCredential, HeaderValue, basicHeader, liveCredential,
  requiredCredential, basicPayload, constantTimeEq, authorized, require, constantTimeEq_iff,
  basicPayload_eq_some, authorized_iff, sentHeader, authorized_sentHeader_iff
Open obligations: none
-/
import MongoHa.Foundations.Base64
import MongoHa.Wrapper.AuthPin

namespace MongoHa

open Foundations
open Foundations.RustStr

/-- The credential the mutating route requires. -/
structure Credential where
  username : String
  password : String
deriving Repr, DecidableEq, Inhabited

/-- The credential of the guarded routes, when one is configured. -/
def Config.healthApiCredential (config : Config) : Option Credential :=
  config.healthApiPassword.map fun password =>
    { username := config.healthApiUsername, password := password }

/-- The value of a header field. -/
structure HeaderValue where
  bytes : List UInt8
deriving Repr, DecidableEq, Inhabited

namespace HeaderValue

def isVisibleAscii (b : UInt8) : Bool :=
  (32 ≤ b && b < 127) || b == 9

/-- The value as text, when it is visible ASCII, spaces and tabs. -/
def toStr (value : HeaderValue) : Option String :=
  if value.bytes.all isVisibleAscii then fromUtf8 value.bytes else none

end HeaderValue

/-- The `Authorization` header value a caller sends. -/
def basicHeader (cred : Credential) : String :=
  "Basic " ++ Base64.encode (bytes (cred.username ++ ":" ++ cred.password))

/-- The credential a request is compared against right now. -/
def liveCredential (expected : Credential) (envRootPassword pinnedPassword : Option String) :
    Credential :=
  match envRootPassword, pinnedPassword with
  | some root, some pin =>
      if expected.password = trim root ∧ pin ≠ expected.password then
        { username := expected.username, password := pin }
      else expected
  | _, _ => expected

/-- The credential that `require` compares with; `pinAt` is the pin in a data directory. -/
def requiredCredential (expected : Credential) (env : Environment) (pinAt : String → PinFile) :
    Credential :=
  let pinned := (readPin (pinAt (dataDirFromEnv env))).map AuthPin.password
  liveCredential expected (env "MONGO_INITDB_ROOT_PASSWORD") pinned

/-- The base64 payload of a `Basic <payload>` header, none for any other scheme or shape. -/
def basicPayload (value : String) : Option String :=
  (splitOnceWhere isWhitespace (trim value)).bind fun (scheme, rest) =>
    if eqIgnoreAsciiCase scheme "basic" then (some (trim rest)).filter (· != "") else none

/-- The walk always covers the longer input, and the difference of the lengths is folded in. -/
def constantTimeEq (a b : List UInt8) : Bool :=
  (List.range (max a.length b.length)).foldl
    (fun diff i => diff ||| (a.getD i 0 ^^^ b.getD i 0).toNat) (a.length ^^^ b.length) == 0

section Authorization

variable (decode : String → Option (List UInt8))

/-- Whether the header carries exactly the expected credential as HTTP Basic. -/
def authorized (expected : Credential) (header : Option HeaderValue) : Bool :=
  match header.bind HeaderValue.toStr with
  | none => false
  | some value =>
      match basicPayload value with
      | none => false
      | some encoded =>
          match (decode encoded).bind fromUtf8 with
          | none => false
          | some decoded =>
              match splitOnce ":" decoded with
              | none => false
              | some (username, password) =>
                  let userOk := constantTimeEq (bytes username) (bytes expected.username)
                  let passOk := constantTimeEq (bytes password) (bytes expected.password)
                  userOk && passOk

/-- The layer around the mutating routes: whether the request is passed on. -/
def require (guard : Option Credential) (env : Environment) (pinAt : String → PinFile)
    (header : Option HeaderValue) : Bool :=
  match guard with
  | none => true
  | some expected => authorized decode (requiredCredential expected env pinAt) header

end Authorization

/-! ### The comparison -/

theorem foldl_or_eq_zero {f : Nat → Nat} (is : List Nat) (start : Nat) :
    is.foldl (fun diff i => diff ||| f i) start = 0 ↔ start = 0 ∧ ∀ i ∈ is, f i = 0 := by
  induction is generalizing start with
  | nil => simp
  | cons i is ih => rw [List.foldl_cons, ih, Nat.or_eq_zero_iff, List.forall_mem_cons, and_assoc]

/-- The walk is equality of the two byte strings. -/
theorem constantTimeEq_iff {a b : List UInt8} : constantTimeEq a b = true ↔ a = b := by
  rw [constantTimeEq, beq_iff_eq, foldl_or_eq_zero]
  constructor
  · rintro ⟨noDifference, bytes⟩
    have lengths : a.length = b.length := by
      rw [← Nat.xor_zero a.length, ← Nat.xor_self b.length, ← Nat.xor_assoc, noDifference,
        Nat.zero_xor]
    apply List.ext_getElem lengths
    intro i inA inB
    have same := bytes i (List.mem_range.2 (by omega))
    rw [← UInt8.toNat_zero, UInt8.toNat_inj, UInt8.xor_eq_zero_iff] at same
    simpa [List.getD_eq_getElem?_getD, List.getElem?_eq_getElem inA,
      List.getElem?_eq_getElem inB] using same
  · rintro rfl
    simp

/-! ### The payload -/

theorem isWhitespace_of_toLower {c : Char} (solid : isWhitespace c.toLower = false) :
    isWhitespace c = false := by
  unfold Char.toLower at solid
  split at solid
  · rename_i upper
    have low : 65 ≤ c.val.toNat := UInt32.le_iff_toNat_le.1 upper.1
    have high : c.val.toNat ≤ 90 := UInt32.le_iff_toNat_le.1 upper.2
    exact isWhitespace_of_visible (by omega) (by omega)
  · exact solid

/-- The scheme, in any case, holds no white space. -/
theorem isWhitespace_of_mem_scheme {scheme : String} (basic : eqIgnoreAsciiCase scheme "basic" = true) :
    ∀ c ∈ scheme.toList, isWhitespace c = false := by
  intro c member
  have lowered : c.toLower ∈ asciiLower "basic" := by
    rw [eqIgnoreAsciiCase_iff] at basic
    rw [← basic, asciiLower]
    exact List.mem_map_of_mem member
  have letters : ∀ d ∈ asciiLower "basic", isWhitespace d = false := solid_of_all (by decide)
  exact isWhitespace_of_toLower (letters _ lowered)

/-- What a header must look like for its payload to be read: the scheme in any case, white space, and the
    payload, with nothing around them. -/
theorem basicPayload_eq_some {value payload : String} :
    basicPayload value = some payload ↔
      ∃ scheme gap : String, trim value = scheme ++ gap ++ payload ∧
        eqIgnoreAsciiCase scheme "basic" = true ∧ gap ≠ "" ∧
        (∀ c ∈ gap.toList, isWhitespace c = true) ∧
        (∀ c, payload.toList.head? = some c → isWhitespace c = false) := by
  have closed := @solid_of_getLast?_trim value
  rw [basicPayload, Option.bind_eq_some_iff]
  constructor
  · rintro ⟨⟨scheme, rest⟩, split, kept⟩
    obtain ⟨c, spelled, white, -⟩ := splitOnceWhere_eq_some.1 split
    dsimp only at kept
    split at kept
    · rename_i basic
      obtain ⟨same, -⟩ := Option.filter_eq_some_iff.1 kept
      obtain rfl := Option.some.inj same
      have solid : ∀ d, rest.toList.getLast? = some d → isWhitespace d = false := by
        intro d last
        apply closed
        rw [spelled, List.getLast?_append, List.getLast?_cons, last]
        rfl
      rw [trim_eq_trimStart solid]
      refine ⟨scheme, String.ofList (c :: rest.toList.takeWhile isWhitespace), ?_, basic, ?_, ?_, ?_⟩
      · apply String.toList_injective
        simp [spelled, trimStart, List.takeWhile_append_dropWhile]
      · intro empty
        simpa using congrArg String.toList empty
      · intro d member
        rw [String.toList_ofList] at member
        rcases List.mem_cons.1 member with rfl | inner
        · exact white
        · exact List.all_eq_true.1 List.all_takeWhile d inner
      · intro d first
        rw [trimStart, String.toList_ofList] at first
        have solid := List.head?_dropWhile_not isWhitespace rest.toList
        rw [first] at solid
        simpa using solid
    · cases kept
  · rintro ⟨scheme, gap, spelled, basic, gapped, white, begins⟩
    cases gapSpelled : gap.toList with
    | nil => exact absurd (String.toList_injective gapSpelled) gapped
    | cons c more =>
        rw [gapSpelled, List.forall_mem_cons] at white
        have whole : (trim value).toList = scheme.toList ++ c :: (more ++ payload.toList) := by
          rw [spelled, String.toList_append, String.toList_append, gapSpelled]
          simp
        have filled : payload ≠ "" := by
          rintro rfl
          -- Then the trimmed value ends in the gap.
          cases ends : (c :: more).getLast? with
          | none => simp at ends
          | some d =>
              have member := List.mem_of_getLast? ends
              have last : (trim value).toList.getLast? = some d := by
                rw [whole, String.toList_empty, List.append_nil, List.getLast?_append, ends]
                rfl
              have solid := closed last
              rcases List.mem_cons.1 member with rfl | inner
              · rw [white.1] at solid
                cases solid
              · rw [white.2 d inner] at solid
                cases solid
        have rest : trim (String.ofList (more ++ payload.toList)) = payload := by
          rw [trim_eq_trimStart, trimStart, String.toList_ofList,
            List.dropWhile_append_of_pos white.2]
          · cases payloadSpelled : payload.toList with
            | nil => exact absurd (String.toList_injective payloadSpelled) filled
            | cons d others =>
                have solid := begins d (by rw [payloadSpelled]; rfl)
                rw [List.dropWhile_cons_of_neg (by simp [solid]), ← payloadSpelled,
                  String.ofList_toList]
          · intro d last
            apply closed
            rw [String.toList_ofList] at last
            rw [whole, List.getLast?_append, List.getLast?_cons, last]
            rfl
        refine ⟨(scheme, String.ofList (more ++ payload.toList)), ?_, ?_⟩
        · apply splitOnceWhere_eq_some.2
          exact ⟨c, by simpa using whole, white.1, isWhitespace_of_mem_scheme basic⟩
        · dsimp only
          rw [if_pos basic, rest, Option.filter_some, if_pos (bne_iff_ne.2 filled)]

/-- A header is accepted exactly when its text carries a payload that decodes to the credential. A username
    with a colon is never accepted, since the first colon splits. -/
theorem authorized_iff {decode : String → Option (List UInt8)} {expected : Credential}
    {header : HeaderValue} {value : String} (text : header.toStr = some value) :
    authorized decode expected (some header) = true ↔
      ':' ∉ expected.username.toList ∧ ∃ encoded, basicPayload value = some encoded ∧
        decode encoded = some (bytes (expected.username ++ ":" ++ expected.password)) := by
  rw [authorized, Option.bind_some, text]
  dsimp only
  cases payload : basicPayload value with
  | none => simp
  | some encoded =>
      simp only [Option.some.injEq, exists_eq_left']
      cases decoded : (decode encoded).bind fromUtf8 with
      | none =>
          simp only [Bool.false_eq_true, false_iff]
          rintro ⟨-, same⟩
          rw [same, Option.bind_some, fromUtf8_eq_some.2 rfl] at decoded
          cases decoded
      | some text =>
          obtain ⟨raw, read, utf8⟩ := Option.bind_eq_some_iff.1 decoded
          rw [fromUtf8_eq_some] at utf8
          subst utf8
          have carries : (':' ∉ expected.username.toList ∧
              bytes text = bytes (expected.username ++ ":" ++ expected.password)) ↔
                splitOnce ":" text = some (expected.username, expected.password) := by
            rw [splitOnce_colon]
            exact ⟨fun both => ⟨bytes_injective both.2, both.1⟩,
              fun split => ⟨split.2, by rw [split.1]⟩⟩
          simp only [read, Option.some.injEq]
          rw [carries]
          cases split : splitOnce ":" text with
          | none => simp
          | some parts =>
              obtain ⟨username, password⟩ := parts
              simp only [Bool.and_eq_true, constantTimeEq_iff, Option.some.injEq, Prod.mk.injEq]
              exact and_congr ⟨bytes_injective, congrArg bytes⟩ ⟨bytes_injective, congrArg bytes⟩

/-! ### The header of a caller -/

/-- The header field that a caller with the credential sends. -/
def sentHeader (cred : Credential) : HeaderValue :=
  { bytes := bytes (basicHeader cred) }

theorem visible_of_isDigit {c : Char} (digit : Base64.isDigit c = true) :
    33 ≤ c.val.toNat ∧ c.val.toNat ≤ 126 := by
  have spelled : ((((decide (65 ≤ c.val ∧ c.val ≤ 90)) ||
      (decide (97 ≤ c.val) && decide (c.val ≤ 122))) ||
      (decide (48 ≤ c.val) && decide (c.val ≤ 57))) || decide (c = '+') || decide (c = '/') ||
        decide (c = '=')) = true := digit
  simp only [Bool.or_eq_true, Bool.and_eq_true, decide_eq_true_eq, UInt32.le_iff_toNat_le,
    UInt32.reduceToNat] at spelled
  rcases spelled with ((((upper | lower) | number) | rfl) | rfl) | rfl
  · omega
  · omega
  · omega
  · decide
  · decide
  · decide

/-- Text of visible ASCII and spaces is a header value, and reads back as itself. -/
theorem toStr_bytes {s : String} (visible : ∀ c ∈ s.toList, 32 ≤ c.val.toNat ∧ c.val.toNat ≤ 126) :
    ({ bytes := bytes s } : HeaderValue).toStr = some s := by
  have all : (bytes s).all HeaderValue.isVisibleAscii = true := by
    rw [List.all_eq_true]
    intro b member
    obtain ⟨c, spelled, encoded⟩ := List.mem_flatMap.1 member
    obtain ⟨low, high⟩ := visible c spelled
    have single : c.utf8Size = 1 := by
      rw [Char.utf8Size_eq_one_iff, UInt32.le_iff_toNat_le]
      exact Nat.le_trans high (by decide)
    rw [String.utf8EncodeChar_eq_singleton single, List.mem_singleton] at encoded
    subst encoded
    simp only [HeaderValue.isVisibleAscii, Bool.or_eq_true, Bool.and_eq_true, decide_eq_true_eq,
      UInt8.le_iff_toNat_le, UInt8.lt_iff_toNat_lt, UInt32.toNat_toUInt8, UInt8.reduceToNat]
    omega
  rw [HeaderValue.toStr, if_pos all, fromUtf8_eq_some.2 rfl]

theorem basicHeader_visible (cred : Credential) :
    ∀ c ∈ (basicHeader cred).toList, 32 ≤ c.val.toNat ∧ c.val.toNat ≤ 126 := by
  intro c member
  rw [basicHeader, String.toList_append, List.mem_append] at member
  rcases member with scheme | payload
  · have letters : "Basic ".toList.all (fun d => 32 ≤ d.val.toNat ∧ d.val.toNat ≤ 126) = true := by
      decide
    exact of_decide_eq_true (List.all_eq_true.1 letters c scheme)
  · obtain ⟨low, high⟩ := visible_of_isDigit (Base64.isDigit_of_mem_encode payload)
    omega

theorem toStr_sentHeader (cred : Credential) : (sentHeader cred).toStr = some (basicHeader cred) :=
  toStr_bytes (basicHeader_visible cred)

theorem basicPayload_basicHeader (cred : Credential) :
    basicPayload (basicHeader cred) =
      some (Base64.encode (bytes (cred.username ++ ":" ++ cred.password))) := by
  have solid : ∀ c ∈ (Base64.encode (bytes (cred.username ++ ":" ++ cred.password))).toList,
      isWhitespace c = false := by
    intro c member
    obtain ⟨low, high⟩ := visible_of_isDigit (Base64.isDigit_of_mem_encode member)
    exact isWhitespace_of_visible low high
  have filled : Base64.encode (bytes (cred.username ++ ":" ++ cred.password)) ≠ "" := by
    apply Base64.encode_ne_empty
    intro empty
    have lengths := congrArg List.length empty
    rw [bytes_append, bytes_append, List.length_append, List.length_append] at lengths
    have one : (bytes ":").length = 1 := by decide
    rw [one, List.length_nil] at lengths
    omega
  have ends : ∀ c, (basicHeader cred).toList.getLast? = some c → isWhitespace c = false := by
    intro c last
    rw [basicHeader, String.toList_append, List.getLast?_append] at last
    cases encoded :
        (Base64.encode (bytes (cred.username ++ ":" ++ cred.password))).toList.getLast? with
    | none => exact absurd (String.toList_injective (List.getLast?_eq_none_iff.1 encoded)) filled
    | some d =>
        rw [encoded] at last
        cases last
        exact solid c (List.mem_of_getLast? encoded)
  have trimmed : trim (basicHeader cred) = basicHeader cred := by
    rw [trim_eq_trimStart ends, trimStart]
    have begins : isWhitespace 'B' = false := by decide
    rw [basicHeader, String.toList_append, show "Basic ".toList = 'B' :: "asic ".toList by decide,
      List.cons_append, List.dropWhile_cons_of_neg (by simp [begins])]
    apply String.toList_injective
    simp
  rw [basicPayload_eq_some, trimmed]
  refine ⟨"Basic", " ", ?_, by decide, by decide, List.all_eq_true.1 (by decide), ?_⟩
  · rfl
  · intro c first
    exact solid c (List.mem_of_head? first)

/-- The header of one credential, asked of another. -/
theorem authorized_sentHeader_iff {decode : String → Option (List UInt8)}
    (inverts : ∀ bytes, decode (Base64.encode bytes) = some bytes) {expected cred : Credential} :
    authorized decode expected (some (sentHeader cred)) = true ↔
      ':' ∉ expected.username.toList ∧
        cred.username ++ ":" ++ cred.password = expected.username ++ ":" ++ expected.password := by
  rw [authorized_iff (toStr_sentHeader cred), basicPayload_basicHeader]
  simp only [Option.some.injEq, exists_eq_left', inverts]
  exact and_congr_right fun _ => ⟨bytes_injective, congrArg bytes⟩

end MongoHa
