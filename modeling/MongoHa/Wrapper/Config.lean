/-
Module: MongoHa.Wrapper.Config
Layer: Wrapper
Purpose: The part of `config.rs` the wrapper's decisions read: the mode switch, the declared seeds and
  what is derived from them (peer hosts, seed ranks), the files that make a data directory count as
  initialized, and `Config::from_env` with its checks. Also the clock types every module shares: an
  `Instant` is a number of nanoseconds on the process's monotonic clock, and differences saturate at
  zero as `Instant::duration_since` does.
Imports: MongoHa.Foundations.RustStr
Trusted boundary: human-reviewed spec
Main exports: Instant, Duration, Config, Config.seedHosts, Config.peerHosts, Config.seedRank,
  Config.mySeedRank, parseU16, Environment, Config.fromEnv, datadirIsInitialized, mem_peerHosts,
  seedRank_congr, seedRank_inj, fromEnv_rsKey, fromEnv_credentials
Open obligations: none
-/
import MongoHa.Foundations.RustStr

namespace MongoHa

open Foundations.RustStr

/-- A reading of the monotonic clock, in nanoseconds. -/
abbrev Instant := Nat

/-- A span of time, in nanoseconds. -/
abbrev Duration := Nat

def Duration.fromSecs (secs : Nat) : Duration := secs * 1000000000

/-- `Instant::duration_since`, which saturates at zero. -/
def Instant.durationSince (now earlier : Instant) : Duration := now - earlier

/-- `usize::MAX` on the 64-bit targets the image is built for. -/
def usizeMax : Nat := UInt64.size - 1

/-- The wrapper's configuration, without the fields no modelled function reads. -/
structure Config where
  mongoRootUsername : String
  mongoRootPassword : String
  mongoPort : UInt16
  rsEnabledFlag : Bool
  /-- Comma-separated `host:port` list of all members, self included. -/
  rsSeeds : Option String
  rsName : String
  /-- Shared secret every member derives the keyfile from. Required in HA mode. -/
  rsKey : Option String
  keyfilePath : String
  healthApiUsername : String
  /-- None leaves the mutating route of the health server open. -/
  healthApiPassword : Option String
  /-- This node's private hostname. -/
  privateDomain : String
  dataDir : String
  bootstrapDwellSeconds : Nat
  peerGoneDwellSeconds : Nat
  memberPruneDwellSeconds : Nat
deriving Repr, DecidableEq, Inhabited

namespace Config

def rsEnabled (config : Config) : Bool :=
  config.rsEnabledFlag && config.rsSeeds.isSome

def nodeId (config : Config) : String :=
  config.privateDomain ++ ":" ++ toString config.mongoPort

/-- The bare hostnames from RS_SEEDS, in declared order. -/
def seedHosts (config : Config) : List String :=
  match config.rsSeeds with
  | some seeds =>
      ((split ',' seeds).map fun entry => (split ':' (trim entry)).headD "").filter (· != "")
  | none => []

/-- The seeds beside this node. -/
def peerHosts (config : Config) : List String :=
  config.seedHosts.filter fun host => !eqIgnoreAsciiCase host config.privateDomain

/-- A host's 0-based position in the declared seed order. -/
def seedRank (config : Config) (host : String) : Option Nat :=
  config.seedHosts.findIdx? fun seed => eqIgnoreAsciiCase seed host

/-- This node's place among the seeds. -/
def mySeedRank (config : Config) : Option Nat :=
  config.seedRank config.privateDomain

def bootstrapDwell (config : Config) : Duration := .fromSecs config.bootstrapDwellSeconds

def peerGoneDwell (config : Config) : Duration := .fromSecs config.peerGoneDwellSeconds

def memberPruneDwell (config : Config) : Duration := .fromSecs config.memberPruneDwellSeconds

/-- The peers are the seeds that are not this node, in any case of letters. -/
theorem mem_peerHosts {config : Config} {host : String} :
    host ∈ config.peerHosts ↔
      host ∈ config.seedHosts ∧ asciiLower host ≠ asciiLower config.privateDomain := by
  simp [peerHosts, eqIgnoreAsciiCase]

/-- The rank does not depend on the case of letters. -/
theorem seedRank_congr {config : Config} {left right : String}
    (same : asciiLower left = asciiLower right) :
    config.seedRank left = config.seedRank right := by
  simp [seedRank, eqIgnoreAsciiCase, same]

/-- Two declared hosts with one rank are one host, case aside. -/
theorem seedRank_inj {config : Config} {left right : String} {rank : Nat}
    (leftRank : config.seedRank left = some rank)
    (rightRank : config.seedRank right = some rank) :
    asciiLower left = asciiLower right := by
  obtain ⟨_, leftSeed, -⟩ := List.findIdx?_eq_some_iff_getElem.1 leftRank
  obtain ⟨_, rightSeed, -⟩ := List.findIdx?_eq_some_iff_getElem.1 rightRank
  rw [eqIgnoreAsciiCase_iff] at leftSeed rightSeed
  exact leftSeed.symm.trans rightSeed

theorem seedRank_isSome {config : Config} {seed host : String} (declared : seed ∈ config.seedHosts)
    (same : asciiLower seed = asciiLower host) : (config.seedRank host).isSome := by
  rw [seedRank, List.findIdx?_isSome]
  exact List.any_eq_true.2 ⟨seed, declared, eqIgnoreAsciiCase_iff.2 same⟩

theorem seedRank_of_rsSeeds {left right : Config} (shared : left.rsSeeds = right.rsSeeds) :
    left.seedRank = right.seedRank := by
  funext host
  simp [seedRank, seedHosts, shared]

theorem seedHosts_of_rsSeeds {left right : Config} (shared : left.rsSeeds = right.rsSeeds) :
    left.seedHosts = right.seedHosts := by
  simp [seedHosts, shared]

end Config

/-- The configuration of one node of a small cluster with the default dwells. -/
def configWithSeeds (privateDomain : String) (seeds : Option String) : Config :=
  { mongoRootUsername := "mongo"
    mongoRootPassword := "pw"
    mongoPort := 27017
    rsEnabledFlag := true
    rsSeeds := seeds
    rsName := "rs0"
    rsKey := some "k"
    keyfilePath := "/run/mongo-ha/keyfile"
    healthApiUsername := "railway"
    healthApiPassword := none
    privateDomain := privateDomain
    dataDir := "/data/db"
    bootstrapDwellSeconds := 15
    peerGoneDwellSeconds := 1800
    memberPruneDwellSeconds := 300 }

example : (configWithSeeds "mongo-2" (some "mongo-1:27017, mongo-2:27017,mongo-3:27017")).peerHosts
    = ["mongo-1", "mongo-3"] := by decide

/-! ### The environment -/

/-- `env::var`, none when the variable is unset. -/
abbrev Environment := String → Option String

/-- The digits `str::parse` reads an unsigned integer from, after the optional sign it accepts. -/
def unsignedDigits (s : String) : List Char :=
  match s.toList with
  | '+' :: rest => rest
  | chars => chars

def digitsValue (digits : List Char) : Nat :=
  digits.foldl (fun n c => n * 10 + (c.toNat - '0'.toNat)) 0

/-- `str::parse` for an unsigned integer below a bound. -/
def parseUnsigned (bound : Nat) (s : String) : Option Nat :=
  if unsignedDigits s ≠ [] ∧ (unsignedDigits s).all Char.isDigit ∧
      digitsValue (unsignedDigits s) < bound then
    some (digitsValue (unsignedDigits s))
  else none

def parseU16 (s : String) : Option UInt16 :=
  (parseUnsigned UInt16.size s).map Nat.toUInt16

def parseU32 (s : String) : Option UInt32 :=
  (parseUnsigned UInt32.size s).map Nat.toUInt32

def parseU64 (s : String) : Option Nat :=
  parseUnsigned UInt64.size s

theorem isDigit_of_mem_toString {n : Nat} {c : Char} (member : c ∈ (toString n).toList) :
    c.isDigit = true := by
  rw [Nat.toString_eq_repr, Nat.toList_repr] at member
  exact Nat.isDigit_of_mem_toDigits (by decide) (by decide) member

theorem toString_toList_ne_nil (n : Nat) : (toString n).toList ≠ [] := by
  rw [Nat.toString_eq_repr, Nat.toList_repr]
  exact Nat.toDigits_ne_nil

theorem unsignedDigits_toString (n : Nat) : unsignedDigits (toString n) = (toString n).toList := by
  unfold unsignedDigits
  split
  · rename_i rest spelled
    have sign : ('+' : Char).isDigit = true :=
      isDigit_of_mem_toString (n := n) (by rw [spelled]; exact List.mem_cons_self ..)
    exact absurd sign (by decide)
  · rfl

theorem digitsValue_toString (n : Nat) : digitsValue (toString n).toList = n := by
  rw [Nat.toString_eq_repr, Nat.toList_repr]
  simpa only [digitsValue, Nat.ofDigitChars, Nat.mul_comm] using
    Nat.ofDigitChars_ten_toDigits (n := n)

/-- The decimal spelling of a number in range parses back to it. -/
theorem parseUnsigned_toString {bound n : Nat} (fits : n < bound) :
    parseUnsigned bound (toString n) = some n := by
  have digits : (toString n).toList.all Char.isDigit = true :=
    List.all_eq_true.2 fun _ member => isDigit_of_mem_toString member
  rw [parseUnsigned, unsignedDigits_toString, digitsValue_toString,
    if_pos ⟨toString_toList_ne_nil n, digits, fits⟩]

theorem parseU16_toString (port : UInt16) : parseU16 (toString port.toNat) = some port := by
  rw [parseU16, parseUnsigned_toString port.toNat_lt_size, Option.map_some]
  simp

theorem parseU32_toString (n : UInt32) : parseU32 (toString n.toNat) = some n := by
  rw [parseU32, parseUnsigned_toString n.toNat_lt_size, Option.map_some]
  simp

/-- A spelling that parses holds no whitespace, so trimming it changes nothing. -/
theorem trim_of_parseU16 {s : String} {port : UInt16} (parsed : parseU16 s = some port) :
    trim s = s := by
  have digits : (unsignedDigits s).all Char.isDigit = true := by
    rw [parseU16, parseUnsigned] at parsed
    split at parsed
    · rename_i read
      exact read.2.1
    · cases parsed
  apply trim_eq_self
  intro c member
  unfold unsignedDigits at digits
  split at digits
  · rename_i rest spelled
    rw [spelled] at member
    rcases List.mem_cons.1 member with rfl | member
    · decide
    · exact isWhitespace_of_isDigit (List.all_eq_true.1 digits c member)
  · exact isWhitespace_of_isDigit (List.all_eq_true.1 digits c member)

def envOr (env : Environment) (name default : String) : String :=
  (env name).getD default

def envRequired (env : Environment) (name : String) : Except String String :=
  match env name with
  | some value => .ok value
  | none => .error (name ++ " must be set")

/-- A value that does not parse falls back to the default, as an unset one does. -/
def envParse {α : Type} (env : Environment) (parse : String → Option α) (name : String) (default : α) :
    α :=
  ((env name).bind parse).getD default

def nonEmpty (value : Option String) : Option String :=
  value.filter fun s => trim s != ""

def defaultHealthApiUsername : String := "railway"

/-- The username as the health server compares it: trimmed, the default when unset or blank. -/
def healthApiUsernameFrom (raw : Option String) : String :=
  ((nonEmpty raw).map trim).getD defaultHealthApiUsername

/-- The password as the health server compares it: trimmed, none when unset or blank. -/
def healthApiPasswordFrom (raw : Option String) : Option String :=
  (nonEmpty raw).map trim

def dataDirFromEnv (env : Environment) : String :=
  ((nonEmpty (env "DATA_DIR")).or (nonEmpty (env "RAILWAY_VOLUME_MOUNT_PATH"))).getD "/data/db"

def defaultPeerGoneDwellSeconds : Nat := 1800

def defaultMemberPruneDwellSeconds : Nat := 300

/-- The two checks at the end of `Config::from_env`. -/
def Config.validated (config : Config) : Except String Config :=
  if config.rsEnabled && config.rsKey.isNone then
    .error "RS_KEY must be set when RS_SEEDS is set"
  else if config.rsName == "" || config.rsName.toList.any isWhitespace then
    .error "RS_NAME must be a non-empty name without whitespace"
  else .ok config

/-- `Config::from_env`. -/
def Config.fromEnv (env : Environment) : Except String Config := do
  let mongoRootUsername ← envRequired env "MONGO_INITDB_ROOT_USERNAME"
  let mongoRootPassword ← envRequired env "MONGO_INITDB_ROOT_PASSWORD"
  Config.validated
    { mongoRootUsername := mongoRootUsername
      mongoRootPassword := mongoRootPassword
      mongoPort := envParse env parseU16 "MONGO_PORT" 27017
      -- Only a literal "false" disables; absence means that RS_SEEDS decides.
      rsEnabledFlag := (env "RS_ENABLED").all (· != "false")
      rsSeeds := nonEmpty (env "RS_SEEDS")
      rsName := envOr env "RS_NAME" "rs0"
      rsKey := nonEmpty (env "RS_KEY")
      keyfilePath := envOr env "RS_KEYFILE_PATH" "/run/mongo-ha/keyfile"
      healthApiUsername := healthApiUsernameFrom (env "HEALTH_API_USERNAME")
      healthApiPassword := healthApiPasswordFrom (env "HEALTH_API_PASSWORD")
      privateDomain := envOr env "RAILWAY_PRIVATE_DOMAIN" "localhost"
      dataDir := dataDirFromEnv env
      bootstrapDwellSeconds := envParse env parseU64 "BOOTSTRAP_DWELL_SECONDS" 15
      peerGoneDwellSeconds :=
        envParse env parseU64 "PEER_GONE_DWELL_SECONDS" defaultPeerGoneDwellSeconds
      memberPruneDwellSeconds :=
        envParse env parseU64 "MEMBER_PRUNE_DWELL_SECONDS" defaultMemberPruneDwellSeconds }

theorem Config.validated_eq_ok {checked config : Config} (passed : checked.validated = .ok config) :
    config = checked ∧ (checked.rsEnabled = true → checked.rsKey.isSome = true) := by
  simp only [Config.validated] at passed
  split at passed
  · cases passed
  · rename_i keyed
    split at passed
    · cases passed
    · cases passed
      refine ⟨rfl, fun enabled => ?_⟩
      simpa [enabled, Option.isSome_iff_ne_none] using keyed

/-- A configuration that passes the checks has a key wherever it runs a set. -/
theorem Config.fromEnv_rsKey {env : Environment} {config : Config}
    (loaded : Config.fromEnv env = .ok config) (enabled : config.rsEnabled = true) :
    config.rsKey.isSome = true := by
  simp only [Config.fromEnv, bind, Except.bind] at loaded
  split at loaded
  · cases loaded
  split at loaded
  · cases loaded
  obtain ⟨rfl, keyed⟩ := Config.validated_eq_ok loaded
  exact keyed enabled

/-- What a loaded configuration takes from the environment for the credentials. -/
theorem Config.fromEnv_credentials {env : Environment} {config : Config}
    (loaded : Config.fromEnv env = .ok config) :
    env "MONGO_INITDB_ROOT_PASSWORD" = some config.mongoRootPassword ∧
      config.healthApiUsername = healthApiUsernameFrom (env "HEALTH_API_USERNAME") ∧
      config.healthApiPassword = healthApiPasswordFrom (env "HEALTH_API_PASSWORD") ∧
      config.dataDir = dataDirFromEnv env := by
  simp only [Config.fromEnv, bind, Except.bind] at loaded
  split at loaded
  · cases loaded
  split at loaded
  · cases loaded
  rename_i password given
  obtain ⟨rfl, -⟩ := Config.validated_eq_ok loaded
  refine ⟨?_, rfl, rfl, rfl⟩
  unfold envRequired at given
  split at given
  · rename_i value present
    cases given
    exact present
  · cases given

/-- The files a mongod dataset always carries, by the upstream entrypoint's own test. -/
def datasetFiles : List String := ["WiredTiger", "journal", "local.0", "storage.bson"]

/-- `Config::datadir_is_initialized`, on the names present at the root of the data directory. -/
def datadirIsInitialized (files : List String) : Bool :=
  datasetFiles.any fun file => files.contains file

end MongoHa
