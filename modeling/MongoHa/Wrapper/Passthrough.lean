/-
Module: MongoHa.Wrapper.Passthrough
Layer: Wrapper
Purpose: `passthrough.rs` and the mongod command lines. The option a token of an argument list spells,
  the value an option is given, the merge of the wrapper's own flags with the arguments, and the three
  command lines the wrapper starts mongod with: the replica set boot, the standalone boot and the
  standalone recovery boot.
Imports: MongoHa.Wrapper.Config
Trusted boundary: human-reviewed spec
Main exports: optionName, argsSet, argValue, mergeOwnFlags, passthroughPort, passthroughDbpath,
  passthroughConfig, ownFlags, haFlags, recoveryFlags, mongodCommand, optionNames_mergeOwnFlags,
  argValue_append_of_not_named
Open obligations: none
-/
import MongoHa.Wrapper.Config

namespace MongoHa

open Foundations.RustStr

/-! ### Options and their values -/

/-- The option name of one argv token: mongod accepts `--port`, `--port=27018` and `-port`. -/
def optionName (token : String) : Option String :=
  ((stripPrefix "--" token).or (stripPrefix "-" token)).bind fun body =>
    if body == "" || body.toList.head?.any Char.isDigit then none
    else some ((split '=' body).headD body)

/-- `args_set`. -/
def argsSet (args : List String) (name : String) : Bool :=
  args.any fun token => optionName token == some name

/-- The value the passthrough args give `name`, as `--name v` or `--name=v`. -/
def argValue : List String → String → Option String
  | [], _ => none
  | token :: rest, name =>
      if optionName token ≠ some name then argValue rest name
      else
        match splitOnce "=" token with
        | some (_, value) => some value
        | none => rest.head?

/-- The test of the merge: the args set the option, or its counterpart of the conflicting pair. -/
def overridden (args : List String) (name : String) : Bool :=
  argsSet args name || (name == "bind_ip_all" && argsSet args "bind_ip") ||
    (name == "bind_ip" && argsSet args "bind_ip_all")

/-- The wrapper's own flags without every option the args already set, its paired value included. -/
def mergeOwnFlags : List String → List String → List String
  | [], _ => []
  | flag :: rest, args =>
      match optionName flag with
      | none => flag :: mergeOwnFlags rest args
      | some name =>
          match rest with
          | [] => if overridden args name then [] else [flag]
          | next :: following =>
              -- The paired value, when the next own token is not itself an option.
              if (optionName next).isNone then
                if overridden args name then mergeOwnFlags following args
                else flag :: next :: mergeOwnFlags following args
              else if overridden args name then mergeOwnFlags (next :: following) args
              else flag :: mergeOwnFlags (next :: following) args

/-- `passthrough_port`. -/
def passthroughPort (args : List String) : Option UInt16 :=
  (argValue args "port").bind fun value => parseU16 (trim value)

/-- `passthrough_dbpath`. -/
def passthroughDbpath (args : List String) : Option String :=
  ((argValue args "dbpath").map trim).filter (· != "")

/-! ### The command lines -/

/-- `main`'s configuration, with the port and the dbpath the args name. -/
def passthroughConfig (config : Config) (args : List String) : Config :=
  { config with
    mongoPort := (passthroughPort args).getD config.mongoPort
    dataDir := (passthroughDbpath args).getD config.dataDir }

/-- The dbpath pair, left out where the data directory is mongod's default. -/
def dbpathFlags (config : Config) : List String :=
  if config.dataDir != "/data/db" then ["--dbpath", config.dataDir] else []

/-- The flags `main` starts from. -/
def ownFlags (config : Config) : List String :=
  ["--bind_ip_all", "--ipv6", "--port", toString config.mongoPort.toNat] ++ dbpathFlags config

/-- The flags of a replica set member. -/
def haFlags (config : Config) : List String :=
  ["--replSet", config.rsName, "--keyFile", config.keyfilePath]

/-- `recovery_flags`. -/
def recoveryFlags (config : Config) : List String :=
  ["--bind_ip", "127.0.0.1", "--port", toString config.mongoPort.toNat] ++ dbpathFlags config ++
    ["--setParameter", "recoverFromOplogAsStandalone=true", "--setParameter",
      "takeUnstableCheckpointOnShutdown=true"]

/-- The arguments `docker-entrypoint-upstream.sh` is spawned with. -/
def mongodCommand (flags args : List String) : List String :=
  "mongod" :: (flags ++ args)

def standaloneCommand (config : Config) (args : List String) : List String :=
  mongodCommand (mergeOwnFlags (ownFlags config) args) args

def haCommand (config : Config) (args : List String) : List String :=
  mongodCommand (mergeOwnFlags (ownFlags config) args ++ haFlags config) args

def recoveryCommand (config : Config) (args : List String) : List String :=
  mongodCommand (recoveryFlags config) args

/-! ### Tokens that spell no option -/

theorem optionName_eq_none {token : String} (plain : token.toList.head? ≠ some '-') :
    optionName token = none := by
  rw [optionName, stripPrefix_eq_none (by decide) plain, stripPrefix_eq_none (by decide) plain]
  rfl

theorem optionName_toString (n : Nat) : optionName (toString n) = none := by
  apply optionName_eq_none
  intro dash
  have digit := isDigit_of_mem_toString (List.mem_of_head? dash)
  exact absurd digit (by decide)

@[simp] theorem optionName_bindIpAll : optionName "--bind_ip_all" = some "bind_ip_all" := rfl
@[simp] theorem optionName_bindIp : optionName "--bind_ip" = some "bind_ip" := rfl
@[simp] theorem optionName_ipv6 : optionName "--ipv6" = some "ipv6" := rfl
@[simp] theorem optionName_port : optionName "--port" = some "port" := rfl
@[simp] theorem optionName_dbpath : optionName "--dbpath" = some "dbpath" := rfl
@[simp] theorem optionName_replSet : optionName "--replSet" = some "replSet" := rfl
@[simp] theorem optionName_keyFile : optionName "--keyFile" = some "keyFile" := rfl
@[simp] theorem optionName_setParameter : optionName "--setParameter" = some "setParameter" :=
  rfl

/-! ### One step of the merge -/

theorem mergeOwnFlags_last {flag name : String} (args : List String)
    (named : optionName flag = some name) :
    mergeOwnFlags [flag] args = if overridden args name then [] else [flag] := by
  simp [mergeOwnFlags, named]

theorem mergeOwnFlags_pair {flag name value : String} (rest args : List String)
    (named : optionName flag = some name) (plain : optionName value = none) :
    mergeOwnFlags (flag :: value :: rest) args =
      (if overridden args name then [] else [flag, value]) ++ mergeOwnFlags rest args := by
  rw [mergeOwnFlags]
  by_cases yields : overridden args name <;> simp [named, plain, yields]

theorem mergeOwnFlags_unpaired {flag name next : String} (rest args : List String)
    (named : optionName flag = some name) (option : (optionName next).isSome = true) :
    mergeOwnFlags (flag :: next :: rest) args =
      (if overridden args name then [] else [flag]) ++ mergeOwnFlags (next :: rest) args := by
  rw [mergeOwnFlags]
  have isOption : (optionName next).isNone = false := by simpa using option
  by_cases yields : overridden args name <;> simp only [named, isOption, yields] <;> simp

/-! ### The options a command line names -/

/-- The options the tokens of a command line spell, in order. -/
def optionNames (tokens : List String) : List String :=
  tokens.filterMap optionName

@[simp] theorem optionNames_nil : optionNames [] = [] := rfl

@[simp] theorem optionNames_cons (token : String) (rest : List String) :
    optionNames (token :: rest) = (optionName token).toList ++ optionNames rest := by
  cases named : optionName token <;> simp [optionNames, named]

@[simp] theorem optionNames_append (left right : List String) :
    optionNames (left ++ right) = optionNames left ++ optionNames right :=
  List.filterMap_append

theorem argsSet_iff {args : List String} {name : String} :
    argsSet args name = true ↔ name ∈ optionNames args := by
  simp [argsSet, optionNames]

/-- The merge drops the overridden options and no others, whatever the own list looks like. -/
theorem optionNames_mergeOwnFlags (own args : List String) :
    optionNames (mergeOwnFlags own args) =
      (optionNames own).filter fun name => !overridden args name := by
  fun_induction mergeOwnFlags own args <;>
    simp_all [List.filter_append]

/-- Reading a value skips a part of the list that does not name the option. -/
theorem argValue_append_of_not_named {tokens rest : List String} {name : String}
    (unnamed : name ∉ optionNames tokens) :
    argValue (tokens ++ rest) name = argValue rest name := by
  induction tokens with
  | nil => rfl
  | cons token following ih =>
      rw [optionNames_cons, List.mem_append, not_or] at unnamed
      have other : optionName token ≠ some name := fun named => unnamed.1 (by simp [named])
      rw [List.cons_append, argValue, if_pos other, ih unnamed.2]

end MongoHa
