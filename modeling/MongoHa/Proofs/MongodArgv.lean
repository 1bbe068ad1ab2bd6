/-
Module: MongoHa.Proofs.MongodArgv
Layer: Proofs
Purpose: What the merge of own flags and passthrough arguments yields. On a list of option groups the
  merge keeps exactly the groups the arguments leave alone, and the port and the dbpath read back from
  the merged command line are the ones the wrapper supervises. The second part settles which of the
  three command lines mongod accepts: the recovery boot places its flags unmerged, so it does exactly
  when the arguments leave those flags alone.
Imports: Mathlib.Data.List.Basic, Mathlib.Tactic.Tauto, MongoHa.Wrapper.Passthrough
Trusted boundary: none (fully proved)
Main exports: OptionGroup, mergeOwnFlags_groups, merge_keeps_unset_options, Accepted,
  argv_accepted_iff, recovery_repeats_template_flag
Open obligations: none
-/
import Mathlib.Data.List.Basic
import Mathlib.Tactic.Tauto
import MongoHa.Wrapper.Passthrough

namespace MongoHa

open Foundations.RustStr

/-! ### Option groups -/

/-- One option of an own flag list, with the value that goes with it, which spells no option itself. -/
structure OptionGroup where
  flag : String
  name : String
  value : Option String
  named : optionName flag = some name
  plain : ∀ v ∈ value, optionName v = none

namespace OptionGroup

def tokens (group : OptionGroup) : List String :=
  group.flag :: group.value.toList

/-- The tokens of a group that survive the merge. -/
def kept (group : OptionGroup) (args : List String) : List String :=
  if overridden args group.name then [] else group.tokens

theorem optionNames_tokens (group : OptionGroup) : optionNames group.tokens = [group.name] := by
  cases valued : group.value with
  | none => simp [tokens, valued, group.named]
  | some v => simp [tokens, valued, group.named, group.plain v valued]

theorem mem_optionNames_kept {group : OptionGroup} {args : List String} {name : String}
    (member : name ∈ optionNames (group.kept args)) : name = group.name := by
  rw [kept] at member
  split at member
  · simp at member
  · rw [optionNames_tokens] at member
    exact List.mem_singleton.1 member

/-- A group in front does not change the value of another option. -/
theorem argValue_kept_append {group : OptionGroup} {args rest : List String} {name : String}
    (other : name ≠ group.name) : argValue (group.kept args ++ rest) name = argValue rest name := by
  apply argValue_append_of_not_named
  intro member
  exact other (mem_optionNames_kept member)

end OptionGroup

/-- A group with a value is taken off the front whole, whatever follows. -/
theorem mergeOwnFlags_valued (group : OptionGroup) (args rest : List String)
    (valued : group.value.isSome = true) :
    mergeOwnFlags (group.tokens ++ rest) args = group.kept args ++ mergeOwnFlags rest args := by
  obtain ⟨v, valueEq⟩ := Option.isSome_iff_exists.1 valued
  have tokens : group.tokens = [group.flag, v] := by simp [OptionGroup.tokens, valueEq]
  rw [OptionGroup.kept, tokens]
  exact mergeOwnFlags_pair rest args group.named (group.plain v valueEq)

/-- Any group is, when what follows begins with an option or ends. -/
theorem mergeOwnFlags_group (group : OptionGroup) (args : List String) {rest : List String}
    (option : ∀ token ∈ rest.head?, (optionName token).isSome = true) :
    mergeOwnFlags (group.tokens ++ rest) args = group.kept args ++ mergeOwnFlags rest args := by
  cases valued : group.value with
  | some v => exact mergeOwnFlags_valued group args rest (by simp [valued])
  | none =>
      have tokens : group.tokens = [group.flag] := by simp [OptionGroup.tokens, valued]
      rw [OptionGroup.kept, tokens]
      cases rest with
      | nil => simpa [mergeOwnFlags] using mergeOwnFlags_last args group.named
      | cons next following =>
          exact mergeOwnFlags_unpaired following args group.named (option next rfl)

/-- The merge keeps exactly the groups whose option the arguments leave alone, in order. -/
theorem mergeOwnFlags_groups (groups : List OptionGroup) (args : List String) :
    mergeOwnFlags (groups.flatMap OptionGroup.tokens) args =
      (groups.filter fun group => !overridden args group.name).flatMap OptionGroup.tokens := by
  induction groups with
  | nil => rfl
  | cons group rest ih =>
      have option : ∀ token ∈ (rest.flatMap OptionGroup.tokens).head?,
          (optionName token).isSome = true := by
        intro token first
        cases rest with
        | nil => simp at first
        | cons next following =>
            obtain rfl : next.flag = token := by simpa [OptionGroup.tokens] using first
            simp [next.named]
      rw [List.flatMap_cons, mergeOwnFlags_group group args option, ih, OptionGroup.kept]
      by_cases yields : overridden args group.name <;> simp [yields]

/-! ### The flags of `main`, group by group -/

def bindIpAllGroup : OptionGroup :=
  { flag := "--bind_ip_all", name := "bind_ip_all", value := none
    named := optionName_bindIpAll, plain := by simp }

def ipv6Group : OptionGroup :=
  { flag := "--ipv6", name := "ipv6", value := none, named := optionName_ipv6, plain := by simp }

def portGroup (port : UInt16) : OptionGroup :=
  { flag := "--port", name := "port", value := some (toString port.toNat)
    named := optionName_port
    plain := by
      rintro v ⟨⟩
      exact optionName_toString port.toNat }

theorem mergeOwnFlags_ownFlags (config : Config) (args : List String) :
    mergeOwnFlags (ownFlags config) args =
      bindIpAllGroup.kept args ++ (ipv6Group.kept args ++ ((portGroup config.mongoPort).kept args ++
        mergeOwnFlags (dbpathFlags config) args)) := by
  have split : ownFlags config = bindIpAllGroup.tokens ++ (ipv6Group.tokens ++
      ((portGroup config.mongoPort).tokens ++ dbpathFlags config)) := rfl
  rw [split, mergeOwnFlags_group, mergeOwnFlags_group, mergeOwnFlags_valued]
  · rfl
  · rintro token ⟨⟩
    rw [portGroup, optionName_port]
    rfl
  · rintro token ⟨⟩
    rw [ipv6Group, optionName_ipv6]
    rfl

/-! ### Reading the port and the dbpath back -/

def isAbsolute (path : String) : Bool :=
  path.toList.head? == some '/'

/-- What the arguments and the data directory are asked for: the data directory the wrapper places is
    absolute, and an argument that names the port or the dbpath gives it a readable first value. -/
structure PassthroughReadable (config : Config) (args : List String) : Prop where
  absolute : argsSet args "dbpath" = false → isAbsolute config.dataDir = true
  port : argsSet args "port" = true →
    ∃ value port, argValue args "port" = some value ∧ parseU16 value = some port
  dbpath : argsSet args "dbpath" = true →
    ∃ value, argValue args "dbpath" = some value ∧ trim value = value ∧ value ≠ ""

theorem argValue_eq_none {args : List String} {name : String} (unset : argsSet args name = false) :
    argValue args name = none := by
  have unnamed : name ∉ optionNames args := by simp [← argsSet_iff, unset]
  simpa [argValue] using @argValue_append_of_not_named args [] name unnamed

/-- An option the arguments set is read from them, the merge having removed it from the own flags. -/
theorem argValue_merged_of_set (own : List String) {args : List String} {name : String}
    (set : argsSet args name = true) :
    argValue (mergeOwnFlags own args ++ args) name = argValue args name := by
  apply argValue_append_of_not_named
  simp [optionNames_mergeOwnFlags, overridden, set]

theorem port_read_back {config : Config} {args : List String}
    (readable : PassthroughReadable config args) :
    (argValue (mergeOwnFlags (ownFlags (passthroughConfig config args)) args ++ args) "port").bind
      parseU16 = some (passthroughConfig config args).mongoPort := by
  cases set : argsSet args "port" with
  | true =>
      obtain ⟨value, port, given, parsed⟩ := readable.port set
      rw [argValue_merged_of_set _ set, given]
      simp [passthroughConfig, passthroughPort, given, trim_of_parseU16 parsed, parsed]
  | false =>
      have keptPort : (portGroup (passthroughConfig config args).mongoPort).kept args =
          ["--port", toString (passthroughConfig config args).mongoPort.toNat] := by
        simp [OptionGroup.kept, OptionGroup.tokens, portGroup, overridden, set]
      rw [mergeOwnFlags_ownFlags, keptPort, List.append_assoc, List.append_assoc, List.append_assoc,
        OptionGroup.argValue_kept_append, OptionGroup.argValue_kept_append]
      · have noEquals : splitOnce "=" "--port" = none := by decide
        simp only [List.cons_append, argValue, optionName_port, noEquals]
        exact parseU16_toString _
      · decide
      · decide

theorem dbpath_read_back {config : Config} {args : List String}
    (readable : PassthroughReadable config args) :
    (argValue (mergeOwnFlags (ownFlags (passthroughConfig config args)) args ++ args)
      "dbpath").getD "/data/db" = (passthroughConfig config args).dataDir := by
  cases set : argsSet args "dbpath" with
  | true =>
      obtain ⟨value, given, trimmed, filled⟩ := readable.dbpath set
      rw [argValue_merged_of_set _ set, given]
      simp [passthroughConfig, passthroughDbpath, given, trimmed, Option.filter, filled]
  | false =>
      have unread : (passthroughConfig config args).dataDir = config.dataDir := by
        simp [passthroughConfig, passthroughDbpath, argValue_eq_none set]
      have plain : optionName config.dataDir = none := by
        apply optionName_eq_none
        have slash := readable.absolute set
        rw [isAbsolute, beq_iff_eq] at slash
        simp [slash]
      rw [mergeOwnFlags_ownFlags, List.append_assoc, List.append_assoc, List.append_assoc,
        OptionGroup.argValue_kept_append, OptionGroup.argValue_kept_append,
        OptionGroup.argValue_kept_append, dbpathFlags, unread]
      · have noEquals : splitOnce "=" "--dbpath" = none := by decide
        by_cases default : config.dataDir = "/data/db"
        · simp [default, mergeOwnFlags, argValue_eq_none set]
        · simp [default, mergeOwnFlags, plain, overridden, set, argValue, noEquals]
      · simp [portGroup]
      · decide
      · decide

/-- The merge keeps the groups the arguments leave alone, and the wrapper supervises the mongod that
    runs: the port and the dbpath on the command line are those of its configuration. -/
theorem merge_keeps_unset_options :
    (∀ (groups : List OptionGroup) (args : List String),
      mergeOwnFlags (groups.flatMap OptionGroup.tokens) args =
        (groups.filter fun group => !overridden args group.name).flatMap OptionGroup.tokens) ∧
    (∀ (config : Config) (args : List String), PassthroughReadable config args →
      let main := passthroughConfig config args
      let tokens := mergeOwnFlags (ownFlags main) args ++ args
      (argValue tokens "port").bind parseU16 = some main.mongoPort ∧
        (argValue tokens "dbpath").getD "/data/db" = main.dataDir) :=
  ⟨mergeOwnFlags_groups, fun _ _ readable => ⟨port_read_back readable, dbpath_read_back readable⟩⟩

/-- The image's default command line with a port given to it. -/
theorem merge_keeps_unset_options_port :
    let main := passthroughConfig (configWithSeeds "mongo-1" none) ["--port=27018"]
    let tokens := mergeOwnFlags (ownFlags main) ["--port=27018"] ++ ["--port=27018"]
    main.mongoPort = 27018 ∧ (argValue tokens "port").bind parseU16 = some main.mongoPort :=
  ⟨by decide, (merge_keeps_unset_options.2 (configWithSeeds "mongo-1" none) ["--port=27018"]
    { absolute := fun _ => by decide
      port := fun _ => ⟨"27018", 27018, by decide, by decide⟩
      dbpath := fun named => absurd named (by decide) }).1⟩

/-! ### What mongod accepts -/

/-- The options mongod wants at most once. -/
def singleValued (names : List String) : List String :=
  names.filter (· != "setParameter")

/-- mongod refuses a repeated single-valued option, and the two bind options together. -/
def AcceptedNames (names : List String) : Prop :=
  (singleValued names).Nodup ∧ ¬ ("bind_ip" ∈ names ∧ "bind_ip_all" ∈ names)

/-- mongod takes the command line, by the names of its options. -/
def Accepted (argv : List String) : Prop :=
  AcceptedNames (optionNames argv)

instance : DecidablePred Accepted := fun _ => inferInstanceAs (Decidable (_ ∧ _))

@[simp] theorem mem_singleValued {names : List String} {name : String} :
    name ∈ singleValued names ↔ name ∈ names ∧ name ≠ "setParameter" := by
  simp [singleValued]

@[simp] theorem singleValued_append (left right : List String) :
    singleValued (left ++ right) = singleValued left ++ singleValued right :=
  List.filter_append ..

theorem acceptedNames_cons {name : String} {names : List String} :
    AcceptedNames (name :: names) ↔ AcceptedNames names ∧
      (name = "setParameter" ∨ name ∉ names) ∧
      ¬ (name = "bind_ip" ∧ "bind_ip_all" ∈ names) ∧
      ¬ (name = "bind_ip_all" ∧ "bind_ip" ∈ names) := by
  unfold AcceptedNames singleValued
  by_cases free : name = "setParameter"
  · simp [free]
  · simp [free, List.nodup_cons]
    grind

theorem AcceptedNames.sublist {some all : List String} (accepted : AcceptedNames all)
    (part : some.Sublist all) : AcceptedNames some :=
  ⟨accepted.1.sublist (part.filter _),
    fun both => accepted.2 ⟨part.subset both.1, part.subset both.2⟩⟩

theorem acceptedNames_perm {left right : List String} (reordered : left.Perm right) :
    AcceptedNames left ↔ AcceptedNames right := by
  rw [AcceptedNames, AcceptedNames, singleValued, singleValued, (reordered.filter _).nodup_iff,
    reordered.mem_iff, reordered.mem_iff]

/-- Further options next to a list that binds all addresses: they are single, new, and no bind list. -/
theorem acceptedNames_strays {strays own : List String} (accepted : AcceptedNames own)
    (bound : "bind_ip_all" ∈ own) :
    AcceptedNames (strays ++ own) ↔ (singleValued strays).Nodup ∧
      ∀ name ∈ singleValued strays, name ∉ own ∧ name ≠ "bind_ip" := by
  have noList : "bind_ip" ∉ own := fun listed => accepted.2 ⟨listed, bound⟩
  constructor
  · rintro ⟨once, onePair⟩
    rw [singleValued_append, List.nodup_append] at once
    refine ⟨once.1, fun name stray => ⟨fun owned => ?_, ?_⟩⟩
    · exact once.2.2 name stray name
        (mem_singleValued.2 ⟨owned, (mem_singleValued.1 stray).2⟩) rfl
    · rintro rfl
      exact onePair ⟨List.mem_append_left _ (mem_singleValued.1 stray).1,
        List.mem_append_right _ bound⟩
  · rintro ⟨once, apart⟩
    have noStrayList : "bind_ip" ∉ strays := fun stray =>
      (apart _ (mem_singleValued.2 ⟨stray, by decide⟩)).2 rfl
    refine ⟨?_, ?_⟩
    · rw [singleValued_append, List.nodup_append]
      refine ⟨once, accepted.1, ?_⟩
      rintro name stray _ owned rfl
      exact (apart name stray).1 (mem_singleValued.1 owned).1
    · rintro ⟨listed, -⟩
      exact (List.mem_append.1 listed).elim noStrayList noList

/-! ### The options each boot names -/

/-- An argument list that is accepted by itself and leaves the replica set options to the wrapper. -/
structure PassthroughAdmitted (args : List String) : Prop where
  accepted : Accepted args
  replSet : argsSet args "replSet" = false
  keyFile : argsSet args "keyFile" = false

/-- The dbpath option, where the wrapper places it. -/
def dbpathPlaced (config : Config) : List String :=
  if config.dataDir != "/data/db" then ["dbpath"] else []

theorem optionNames_dbpathFlags (config : Config) :
    optionNames (dbpathFlags config) = dbpathPlaced config ++ (optionName config.dataDir).toList := by
  rw [dbpathFlags, dbpathPlaced]
  by_cases default : config.dataDir = "/data/db"
  · have plain : optionName "/data/db" = none := by decide
    simp [default, plain]
  · simp [default]

theorem optionName_mongod : optionName "mongod" = none := by decide

theorem optionNames_ownFlags (config : Config) :
    optionNames (ownFlags config) =
      "bind_ip_all" :: "ipv6" :: "port" :: optionNames (dbpathFlags config) := by
  simp [ownFlags, optionName_toString, -Nat.toString_eq_repr]

theorem optionNames_standaloneCommand (config : Config) (args : List String) :
    optionNames (standaloneCommand config args) =
      optionNames (mergeOwnFlags (ownFlags config) args) ++ optionNames args := by
  simp [standaloneCommand, mongodCommand, optionName_mongod]

theorem optionNames_haCommand (config : Config) (args : List String) :
    optionNames (haCommand config args) =
      optionNames (mergeOwnFlags (ownFlags config) args) ++
        "replSet" :: ((optionName config.rsName).toList ++
          "keyFile" :: ((optionName config.keyfilePath).toList ++ optionNames args)) := by
  simp [haCommand, haFlags, mongodCommand, optionName_mongod]

theorem optionNames_recoveryCommand (config : Config) (args : List String) :
    optionNames (recoveryCommand config args) =
      "bind_ip" :: "port" :: (optionNames (dbpathFlags config) ++
        "setParameter" :: "setParameter" :: optionNames args) := by
  have loopback : optionName "127.0.0.1" = none := by decide
  have replay : optionName "recoverFromOplogAsStandalone=true" = none := by decide
  have checkpoint : optionName "takeUnstableCheckpointOnShutdown=true" = none := by decide
  simp [recoveryCommand, mongodCommand, recoveryFlags, optionName_toString, optionName_mongod, loopback,
    replay, checkpoint, -Nat.toString_eq_repr]

/-! ### When every boot is accepted -/

/-- The values the wrapper places after a flag of its own that spell a single-valued option. -/
def strayOptions (config : Config) : List String :=
  singleValued (optionNames [config.dataDir, config.rsName, config.keyfilePath])

/-- The arguments set none of the flags the recovery boot places without a merge. -/
def RecoveryFlagsFree (config : Config) (args : List String) : Prop :=
  ∀ name ∈ ["bind_ip", "bind_ip_all", "port"] ++ dbpathPlaced config, argsSet args name = false

/-- The stray options are distinct, and neither the wrapper nor the arguments set one of them. -/
def StraysApart (config : Config) (args : List String) : Prop :=
  (strayOptions config).Nodup ∧ ∀ name ∈ strayOptions config,
    name ∉ ["bind_ip", "bind_ip_all", "ipv6", "port", "replSet", "keyFile"] ++ dbpathPlaced config ∧
      argsSet args name = false

instance (config : Config) (args : List String) : Decidable (RecoveryFlagsFree config args) :=
  inferInstanceAs (Decidable (∀ name ∈ _, _))

instance (config : Config) (args : List String) : Decidable (StraysApart config args) :=
  inferInstanceAs (Decidable (_ ∧ _))

theorem unset_iff {args : List String} {name : String} :
    argsSet args name = false ↔ name ∉ optionNames args := by
  simp [← argsSet_iff]

/-- The data directory's own share of `StraysApart`, the one the recovery boot depends on. -/
def DataDirApart (config : Config) (args : List String) : Prop :=
  ∀ name ∈ optionName config.dataDir, name ≠ "setParameter" →
    name ∉ ["bind_ip", "bind_ip_all", "port"] ++ dbpathPlaced config ∧ argsSet args name = false

theorem StraysApart.dataDir {config : Config} {args : List String} (apart : StraysApart config args) :
    DataDirApart config args := by
  intro name stray single
  have listed : name ∈ strayOptions config := by
    rw [strayOptions, mem_singleValued]
    exact ⟨by simp [optionNames, Option.mem_def.1 stray], single⟩
  obtain ⟨unplaced, unset⟩ := apart.2 name listed
  refine ⟨fun placed => unplaced ?_, unset⟩
  simp only [List.mem_append, List.mem_cons] at placed ⊢
  tauto

theorem recovery_accepted_iff {config : Config} {args : List String}
    (admitted : PassthroughAdmitted args) :
    Accepted (recoveryCommand config args) ↔
      RecoveryFlagsFree config args ∧ DataDirApart config args := by
  have accepted : AcceptedNames (optionNames args) := admitted.accepted
  rw [Accepted, optionNames_recoveryCommand, optionNames_dbpathFlags, RecoveryFlagsFree, DataDirApart]
  simp only [unset_iff]
  by_cases default : config.dataDir = "/data/db"
  · have plain : optionName "/data/db" = none := by decide
    simp [default, acceptedNames_cons, dbpathPlaced, plain]
    grind
  · cases stray : optionName config.dataDir with
    | none =>
        simp [default, acceptedNames_cons, dbpathPlaced]
        grind
    | some name =>
        simp [default, acceptedNames_cons, dbpathPlaced]
        grind

/-- With the recovery flags free, of the wrapper's own options only `ipv6` can yield. -/
theorem overridden_eq_false {config : Config} {args : List String} {name : String}
    (free : RecoveryFlagsFree config args) (unset : argsSet args name = false) :
    overridden args name = false := by
  have noAll := free "bind_ip_all" (by simp)
  have noList := free "bind_ip" (by simp)
  simp [overridden, unset, noAll, noList]

theorem overridden_ipv6 (args : List String) : overridden args "ipv6" = argsSet args "ipv6" := by
  simp [overridden]

/-- What a replica set boot names besides its stray options. -/
def haOwn (config : Config) (args : List String) : List String :=
  "bind_ip_all" :: ((["ipv6"].filter fun name => !argsSet args name) ++ "port" ::
    (dbpathPlaced config ++ "replSet" :: "keyFile" :: optionNames args))

theorem acceptedNames_haOwn {config : Config} {args : List String}
    (admitted : PassthroughAdmitted args) (free : RecoveryFlagsFree config args) :
    AcceptedNames (haOwn config args) := by
  obtain ⟨accepted, noReplSet, noKeyFile⟩ := admitted
  rw [Accepted] at accepted
  simp only [RecoveryFlagsFree, unset_iff] at free noReplSet noKeyFile
  rw [haOwn]
  by_cases ipv6 : argsSet args "ipv6" = true <;>
    by_cases default : config.dataDir = "/data/db" <;>
      simp [acceptedNames_cons, dbpathPlaced, ipv6, default, accepted] at free ⊢ <;>
      grind [argsSet_iff]

theorem mem_haOwn {config : Config} {args : List String} {name : String} :
    name ∈ haOwn config args ↔
      name ∈ ["bind_ip_all", "ipv6", "port", "replSet", "keyFile"] ++ dbpathPlaced config ∨
        argsSet args name = true := by
  rw [haOwn, argsSet_iff]
  cases ipv6 : argsSet args "ipv6" with
  | false => simp [ipv6]; tauto
  | true =>
      have set := argsSet_iff.1 ipv6
      simp [ipv6]
      constructor
      · tauto
      · rintro ((rfl | rfl | h) | h) <;> tauto

/-- The stray options a replica set boot names, in the order it names them. -/
def haStrays (config : Config) (args : List String) : List String :=
  ((optionName config.dataDir).toList.filter fun name => !overridden args name) ++
    ((optionName config.rsName).toList ++ (optionName config.keyfilePath).toList)

theorem optionNames_haCommand_perm {config : Config} {args : List String}
    (free : RecoveryFlagsFree config args) :
    (optionNames (haCommand config args)).Perm (haStrays config args ++ haOwn config args) := by
  have keptAll := overridden_eq_false free (free "bind_ip_all" (by simp))
  have keptPort := overridden_eq_false free (free "port" (by simp))
  have keptDbpath : (dbpathPlaced config).filter (fun name => !overridden args name) =
      dbpathPlaced config := by
    apply List.filter_eq_self.2
    intro name placed
    simp [overridden_eq_false free (free name (List.mem_append_right _ placed))]
  rw [optionNames_haCommand, optionNames_mergeOwnFlags, optionNames_ownFlags,
    optionNames_dbpathFlags, List.perm_iff_count]
  intro name
  simp only [haStrays, haOwn, List.filter_cons, List.filter_append, keptAll, keptPort, keptDbpath,
    overridden_ipv6]
  cases argsSet args "ipv6" <;> simp [List.count_cons] <;> omega

theorem singleValued_haStrays {config : Config} {args : List String}
    (free : RecoveryFlagsFree config args) (dataDir : DataDirApart config args) :
    singleValued (haStrays config args) = strayOptions config := by
  have keptDataDir : singleValued ((optionName config.dataDir).toList.filter
      fun name => !overridden args name) = singleValued (optionName config.dataDir).toList := by
    rw [singleValued, singleValued, List.filter_filter]
    apply List.filter_congr
    intro name stray
    by_cases single : name = "setParameter"
    · simp [single]
    · have unset := (dataDir name (Option.mem_toList.1 stray) single).2
      simp [overridden_eq_false free unset]
  simp [haStrays, strayOptions, keptDataDir]

theorem ha_accepted_iff {config : Config} {args : List String}
    (admitted : PassthroughAdmitted args) (free : RecoveryFlagsFree config args)
    (dataDir : DataDirApart config args) :
    Accepted (haCommand config args) ↔ StraysApart config args := by
  rw [Accepted, acceptedNames_perm (optionNames_haCommand_perm free),
    acceptedNames_strays (acceptedNames_haOwn admitted free) (by simp [haOwn]),
    singleValued_haStrays free dataDir, StraysApart]
  simp only [mem_haOwn]
  apply and_congr_right'
  apply forall₂_congr
  intro name stray
  rw [not_or, Bool.not_eq_true]
  simp
  tauto

/-- The standalone boot is accepted where the replica set boot is, whose options include its own. -/
theorem standalone_accepted {config : Config} {args : List String}
    (accepted : Accepted (haCommand config args)) : Accepted (standaloneCommand config args) := by
  rw [Accepted, optionNames_haCommand] at accepted
  rw [Accepted, optionNames_standaloneCommand]
  apply accepted.sublist
  apply List.Sublist.append_left
  apply List.Sublist.cons
  apply List.Sublist.trans _ (List.sublist_append_right ..)
  apply List.Sublist.cons
  exact List.sublist_append_right ..

/-- mongod accepts all three command lines exactly when the arguments leave alone the flags the recovery
    boot places, and no value the wrapper places is spelled like an option named elsewhere. -/
theorem argv_accepted_iff (config : Config) (args : List String) (admitted : PassthroughAdmitted args) :
    let main := passthroughConfig config args
    (Accepted (haCommand main args) ∧ Accepted (standaloneCommand main args) ∧
        Accepted (recoveryCommand main args)) ↔
      RecoveryFlagsFree main args ∧ StraysApart main args := by
  intro main
  rw [recovery_accepted_iff admitted]
  constructor
  · rintro ⟨ha, -, free, dataDir⟩
    exact ⟨free, (ha_accepted_iff admitted free dataDir).1 ha⟩
  · rintro ⟨free, apart⟩
    have ha := (ha_accepted_iff admitted free apart.dataDir).2 apart
    exact ⟨ha, standalone_accepted ha, free, apart.dataDir⟩

/-- A node whose arguments only set a server parameter boots in every mode. -/
theorem argv_accepted_parameter :
    let args := ["--setParameter", "diagnosticDataCollectionEnabled=false"]
    let main := passthroughConfig (configWithSeeds "mongo-1" none) args
    Accepted (haCommand main args) ∧ Accepted (standaloneCommand main args) ∧
      Accepted (recoveryCommand main args) :=
  (argv_accepted_iff (configWithSeeds "mongo-1" none)
    ["--setParameter", "diagnosticDataCollectionEnabled=false"]
    ⟨by decide, by decide, by decide⟩).2 ⟨by decide, by decide⟩

/-- The standalone template's start command names its bind list, and the recovery boot names another. -/
theorem recovery_repeats_template_flag :
    let args := ["--ipv6", "--bind_ip", "::,0.0.0.0", "--setParameter",
      "diagnosticDataCollectionEnabled=false"]
    let main := passthroughConfig (configWithSeeds "mongo-1" none) args
    PassthroughAdmitted args ∧ ¬ Accepted (recoveryCommand main args) :=
  ⟨⟨by decide, by decide, by decide⟩, by decide⟩

end MongoHa
