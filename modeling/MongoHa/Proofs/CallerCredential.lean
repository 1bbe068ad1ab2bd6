/-
Module: MongoHa.Proofs.CallerCredential
Layer: Proofs
Purpose: What the mutating route accepts. A header is accepted exactly when it carries the credential in
  HTTP Basic, so that a caller's header is accepted by its own credential and by no other. Without a
  rotation the route compares with the configured credential, unless the root password in the environment
  is padded, mirrored by the health password and pinned: the pin is then followed as if it were rotated.
Imports: MongoHa.Wrapper.HealthAuth
Trusted boundary: none (fully proved)
Main exports: CarriesCredential, AcceptsExactly, authorized_exactly, liveCredential_eq_iff,
  live_credential_unchanged_iff, padded_root_refuses_configured
Open obligations: none
-/
import MongoHa.Wrapper.HealthAuth

namespace MongoHa

open Foundations
open Foundations.RustStr

/-! ### Acceptance -/

/-- The scheme in any case, at least one white space, and a payload that decodes to the credential. -/
def CarriesCredential (decode : String → Option (List UInt8)) (expected : Credential) (value : String) :
    Prop :=
  ∃ scheme gap payload : String, trim value = scheme ++ gap ++ payload ∧
    eqIgnoreAsciiCase scheme "basic" = true ∧
    gap ≠ "" ∧ (∀ c ∈ gap.toList, isWhitespace c = true) ∧
    (∀ c, payload.toList.head? = some c → isWhitespace c = false) ∧
    (decode payload).bind fromUtf8 = some (expected.username ++ ":" ++ expected.password)

/-- What the guard accepts: a header that carries the credential and no other, so the one that a client
    builds for it and none that it builds for another. -/
structure AcceptsExactly (decode : String → Option (List UInt8)) (expected : Credential) : Prop where
  carries : ∀ header value, HeaderValue.toStr header = some value →
    (authorized decode expected (some header) = true ↔ CarriesCredential decode expected value)
  own : authorized decode expected (some (sentHeader expected)) = true
  other : ∀ cred, authorized decode cred (some (sentHeader expected)) = true → cred = expected

/-- The first colon ends a username without one. -/
theorem credential_of_joined {left right : Credential} (leftPlain : ':' ∉ left.username.toList)
    (rightPlain : ':' ∉ right.username.toList)
    (same : left.username ++ ":" ++ left.password = right.username ++ ":" ++ right.password) :
    left = right := by
  have split : ∀ cred : Credential, ':' ∉ cred.username.toList →
      splitOnce ":" (cred.username ++ ":" ++ cred.password) = some (cred.username, cred.password) := by
    intro cred plain
    exact splitOnce_colon.2 ⟨rfl, plain⟩
  have both := split left leftPlain
  rw [same, split right rightPlain, Option.some.injEq, Prod.mk.injEq] at both
  obtain ⟨usernames, passwords⟩ := both
  cases left
  cases right
  simp_all

/-- For every credential whose username has no colon the guard accepts exactly the headers that carry it,
    whatever Base64 reader undoes the encoding. -/
theorem authorized_exactly {decode : String → Option (List UInt8)}
    (inverts : ∀ bytes, decode (Base64.encode bytes) = some bytes) {expected : Credential}
    (noColon : ':' ∉ expected.username.toList) : AcceptsExactly decode expected where
  carries := by
    intro header value text
    have utf8 : ∀ payload, (decode payload).bind fromUtf8 =
        some (expected.username ++ ":" ++ expected.password) ↔
          decode payload = some (bytes (expected.username ++ ":" ++ expected.password)) := by
      intro payload
      rw [Option.bind_eq_some_iff]
      simp only [fromUtf8_eq_some]
      exact ⟨fun ⟨raw, read, encoded⟩ => encoded ▸ read, fun read => ⟨_, read, rfl⟩⟩
    rw [authorized_iff text]
    simp only [CarriesCredential, utf8, basicPayload_eq_some]
    constructor
    · rintro ⟨-, payload, ⟨scheme, gap, spelled, basic, gapped, white, begins⟩, decoded⟩
      exact ⟨scheme, gap, payload, spelled, basic, gapped, white, begins, decoded⟩
    · rintro ⟨scheme, gap, payload, spelled, basic, gapped, white, begins, decoded⟩
      exact ⟨noColon, payload, ⟨scheme, gap, spelled, basic, gapped, white, begins⟩, decoded⟩
  own := (authorized_sentHeader_iff inverts).2 ⟨noColon, rfl⟩
  other := by
    intro cred accepted
    obtain ⟨plain, same⟩ := (authorized_sentHeader_iff inverts).1 accepted
    exact (credential_of_joined noColon plain same).symm

/-- The strict reader undoes the encoding, so the guard is exact with it, also for a password with colons.
    -/
theorem authorized_exactly_strict :
    AcceptsExactly Base64.decode { username := "railway", password := "s3cr3t:with:colons" } :=
  authorized_exactly Base64.decode_encode (by decide)

/-! ### The live credential -/

/-- With no pin, or one that holds the environment's own password, the configured credential is kept
    unless that password is padded and mirrored. -/
theorem liveCredential_eq_iff {configured : Credential} {root : String} {pinned : Option String}
    (unrotated : pinned = none ∨ pinned = some root) :
    liveCredential configured (some root) pinned = configured ↔
      pinned = none ∨ trim root = root ∨ configured.password ≠ trim root := by
  rcases unrotated with rfl | rfl
  · simp [liveCredential]
  · simp only [liveCredential, reduceCtorEq, false_or]
    by_cases mirrored : configured.password = trim root
    · by_cases solid : trim root = root
      · have same : root = configured.password := by rw [mirrored, solid]
        rw [if_neg (fun both => both.2 same)]
        simp [solid]
      · have differs : root ≠ configured.password := fun same => solid (same.trans mirrored).symm
        rw [if_pos ⟨mirrored, differs⟩]
        constructor
        · intro same
          exact absurd (congrArg Credential.password same) differs
        · rintro (trimmed | apart)
          · exact absurd trimmed solid
          · exact absurd mirrored apart
    · rw [if_neg (fun both => mirrored both.1)]
      simp [mirrored]

/-- Without a rotation the configured credential is required and its header accepted, exactly when the
    username has no colon and the environment's root password is not pinned, or has no white space around
    it, or is another than the health password once both are trimmed. -/
theorem live_credential_unchanged_iff {decode : String → Option (List UInt8)}
    (inverts : ∀ bytes, decode (Base64.encode bytes) = some bytes)
    {env : Environment} {config : Config} {password root : String} {pin : PinFile}
    (loaded : Config.fromEnv env = .ok config)
    (given : env "HEALTH_API_PASSWORD" = some password) (nonBlank : trim password ≠ "")
    (rooted : env "MONGO_INITDB_ROOT_PASSWORD" = some root)
    (unrotated : readPin pin = none ∨ ∃ held, readPin pin = some held ∧ held.password = root) :
    (∃ configured, config.healthApiCredential = some configured ∧
        liveCredential configured (env "MONGO_INITDB_ROOT_PASSWORD")
          ((readPin pin).map AuthPin.password) = configured ∧
        authorized decode
          (liveCredential configured (env "MONGO_INITDB_ROOT_PASSWORD")
            ((readPin pin).map AuthPin.password))
          (some (sentHeader configured)) = true) ↔
      ':' ∉ (healthApiUsernameFrom (env "HEALTH_API_USERNAME")).toList ∧
        (readPin pin = none ∨ trim root = root ∨ trim password ≠ trim root) := by
  obtain ⟨-, username, raw, -⟩ := Config.fromEnv_credentials loaded
  have credential : config.healthApiCredential =
      some { username := healthApiUsernameFrom (env "HEALTH_API_USERNAME")
             password := trim password } := by
    rw [Config.healthApiCredential, raw, username, given]
    simp [healthApiPasswordFrom, nonEmpty, Option.filter, nonBlank]
  have held : (readPin pin).map AuthPin.password = none ∨
      (readPin pin).map AuthPin.password = some root := by
    rcases unrotated with absent | ⟨held, read, same⟩
    · exact Or.inl (by rw [absent]; rfl)
    · exact Or.inr (by rw [read, Option.map_some, same])
  have kept := @liveCredential_eq_iff
    { username := healthApiUsernameFrom (env "HEALTH_API_USERNAME"), password := trim password } root _
    held
  rw [Option.map_eq_none_iff] at kept
  simp only [credential, rooted, Option.some.injEq, exists_eq_left']
  constructor
  · rintro ⟨same, accepted⟩
    rw [same, authorized_sentHeader_iff inverts] at accepted
    exact ⟨accepted.1, kept.1 same⟩
  · rintro ⟨plain, condition⟩
    have same := kept.2 condition
    rw [same, authorized_sentHeader_iff inverts]
    exact ⟨rfl, plain, rfl⟩

/-- An environment with these two passwords. -/
def passwordsEnvironment (root health : String) : Environment := fun name =>
  [("MONGO_INITDB_ROOT_USERNAME", "mongo"), ("MONGO_INITDB_ROOT_PASSWORD", root),
    ("HEALTH_API_PASSWORD", health)].lookup name

/-- What `Config.fromEnv` makes of it. -/
def passwordsConfig (root health : String) : Config :=
  { configWithSeeds "localhost" none with
    mongoRootPassword := root
    rsKey := none
    healthApiPassword := healthApiPasswordFrom (some health) }

/-- A root password without padding: callers keep their credential once the pin is written, also where
    theirs is padded in the environment. -/
theorem live_credential_unchanged_solid :
    let env := passwordsEnvironment "pw" " pw "
    let pin := PinFile.pin { password := "pw", keyfile := none }
    (∃ configured, (passwordsConfig "pw" " pw ").healthApiCredential = some configured ∧
        liveCredential configured (env "MONGO_INITDB_ROOT_PASSWORD")
          ((readPin pin).map AuthPin.password) = configured ∧
        authorized Base64.decode
          (liveCredential configured (env "MONGO_INITDB_ROOT_PASSWORD")
            ((readPin pin).map AuthPin.password))
          (some (sentHeader configured)) = true) ↔
      ':' ∉ (healthApiUsernameFrom (env "HEALTH_API_USERNAME")).toList ∧
        (readPin pin = none ∨ trim "pw" = "pw" ∨ trim " pw " ≠ trim "pw") :=
  @live_credential_unchanged_iff _ Base64.decode_encode (passwordsEnvironment "pw" " pw ")
    (passwordsConfig "pw" " pw ") " pw " "pw" (.pin { password := "pw", keyfile := none }) rfl rfl
    (by decide) rfl (Or.inr ⟨_, rfl, rfl⟩)

/-- The root password is padded and pinned as it is, and the health password repeats it. The header of the
    configured credential is refused. -/
theorem padded_root_refuses_configured :
    let pinned := (readPin (.pin { password := " pw ", keyfile := none })).map AuthPin.password
    let configured : Credential := { username := "railway", password := "pw" }
    Config.fromEnv (passwordsEnvironment " pw " " pw ") = .ok (passwordsConfig " pw " " pw ") ∧
      (passwordsConfig " pw " " pw ").healthApiCredential = some configured ∧
      liveCredential configured (some " pw ") pinned ≠ configured ∧
      authorized Base64.decode (liveCredential configured (some " pw ") pinned)
        (some (sentHeader configured)) = false := by
  intro pinned configured
  have live : liveCredential configured (some " pw ") pinned =
      { username := "railway", password := " pw " } := by decide
  refine ⟨rfl, by decide, ?_, ?_⟩
  · rw [live]
    decide
  · rw [live, Bool.eq_false_iff]
    intro accepted
    obtain ⟨-, same⟩ := (authorized_sentHeader_iff Base64.decode_encode).1 accepted
    exact absurd same (by decide)

end MongoHa
