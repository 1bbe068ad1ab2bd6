/-
Module: MongoHa.Proofs.ServerLines
Layer: Proofs
Purpose: What haproxy reads in the backend that the edge renders. Every node renders the same lines after
  its own, so `backendServers_eq` gives the servers of the backend node by node, and `served_iff` says for
  which values of `MONGO_NODES` and of the check settings they are one for each entry, under names of
  their own.
Imports: MongoHa.Edge.Template, MongoHa.Foundations.Collect
Trusted boundary: none (fully proved)
Main exports: NamesNode, firstLabel, parseNodes_ok_iff, addedServers, backendServers_eq, servers_iff,
  Served, served_iff
Open obligations: none
-/
import MongoHa.Edge.Template
import MongoHa.Foundations.Collect

namespace MongoHa

open Foundations.Collect
open Foundations.RustStr

/-! ### Entries and nodes -/

/-- The entry spells this host and this port. -/
def NamesNode (entry : String) (node : MongoNode) : Prop :=
  ∃ port, trim entry = node.host ++ ":" ++ port ∧ ':' ∉ node.host.toList ∧
    parseU16 port = some node.mongoPort

/-- The host that an entry names. -/
def declaredHost (entry : String) : String :=
  String.ofList ((trim entry).toList.takeWhile (· != ':'))

/-- The first label of that host. -/
def firstLabel (entry : String) : String :=
  String.ofList ((declaredHost entry).toList.takeWhile (· != '.'))

/-- The port that an entry names. -/
def declaredPort (entry : String) : Option UInt16 :=
  (splitOnce ":" (trim entry)).bind fun pieces => parseU16 pieces.2

theorem declaredHost_eq {entry host port : String} (whole : trim entry = host ++ ":" ++ port)
    (noColon : ':' ∉ host.toList) : declaredHost entry = host := by
  have passed : ∀ c ∈ host.toList, (c != ':') = true := by
    intro c member
    rw [bne_iff_ne]
    rintro rfl
    exact noColon member
  rw [declaredHost, whole]
  simp [List.takeWhile_append_of_pos passed]

theorem firstLabel_eq {entry host port : String} (whole : trim entry = host ++ ":" ++ port)
    (noColon : ':' ∉ host.toList) : firstLabel entry = (split '.' host).headD "" := by
  rw [firstLabel, declaredHost_eq whole noColon, headD_split]

theorem parseNode_ok_iff {entry : String} {node : MongoNode} :
    parseNode entry = .ok node ↔ NamesNode entry node ∧ node.name = firstLabel entry := by
  constructor
  · intro parsed
    rw [parseNode] at parsed
    cases found : splitOnce ":" (trim entry) with
    | none => simp [found] at parsed
    | some pieces =>
        obtain ⟨host, port⟩ := pieces
        cases value : parseU16 port with
        | none => simp [found, value] at parsed
        | some mongoPort =>
            simp only [found, value, Except.ok.injEq] at parsed
            subst parsed
            obtain ⟨whole, noColon⟩ := splitOnce_colon.1 found
            exact ⟨⟨port, whole, noColon, value⟩, (firstLabel_eq whole noColon).symm⟩
  · rintro ⟨⟨port, whole, noColon, value⟩, label⟩
    rw [parseNode]
    simp only [splitOnce_colon.2 ⟨whole, noColon⟩, value]
    rw [← firstLabel_eq whole noColon, ← label]

/-- An entry is refused exactly when it names no port. -/
theorem parseNode_error_iff {entry : String} :
    (∃ failure, parseNode entry = .error failure) ↔ declaredPort entry = none := by
  rw [parseNode, declaredPort]
  cases splitOnce ":" (trim entry) with
  | none => simp
  | some pieces =>
      dsimp only [Option.bind_some]
      cases parseU16 pieces.2 with
      | none => simp
      | some mongoPort => simp

/-- What is parsed are the entries, in order. -/
theorem parseNodes_ok_iff {mongoNodes : String} {nodes : List MongoNode} :
    parseNodes mongoNodes = .ok nodes ↔
      List.Forall₂ (fun entry node => NamesNode entry node ∧ node.name = firstLabel entry)
        (split ',' mongoNodes) nodes := by
  simp only [parseNodes, mapM_ok_iff, parseNode_ok_iff]

theorem parseNodes_error_iff {mongoNodes : String} :
    (∃ failure, parseNodes mongoNodes = .error failure) ↔
      ∃ entry ∈ split ',' mongoNodes, declaredPort entry = none := by
  simp only [parseNodes, mapM_error_iff, parseNode_error_iff]

/-! ### The lines of the backend -/

/-- No character of the name and of the host is whitespace. -/
structure MongoNode.Solid (node : MongoNode) : Prop where
  name : ∀ c ∈ node.name.toList, isWhitespace c = false
  host : ∀ c ∈ node.host.toList, isWhitespace c = false

/-- The server lines that the check settings add after every node's own. -/
def addedServers (config : EdgeConfig) : List (String × String) :=
  (split '\n' (checkSettings config.healthPort config)).tail.filterMap serverLine

/-- What the line of a node reads as. Without a name every word moves up. -/
def ownServer (node : MongoNode) : String × String :=
  if node.name = "" then (node.address, "check") else (node.name, node.address)

theorem colon_mem_address (node : MongoNode) : ':' ∈ node.address.toList := by
  simp [MongoNode.address]

theorem MongoNode.Solid.address {node : MongoNode} (solid : node.Solid) :
    ∀ c ∈ node.address.toList, isWhitespace c = false := by
  intro c member
  simp only [MongoNode.address, String.toList_append, List.mem_append] at member
  rcases member with (inHost | colon) | inPort
  · exact solid.host c inHost
  · obtain rfl : c = ':' := by simpa using colon
    rfl
  · exact isWhitespace_of_isDigit (isDigit_of_mem_toString inPort)

theorem serverLine_own {node : MongoNode} (solid : node.Solid) (rest : String) :
    serverLine ("    server " ++ node.name ++ " " ++ node.address ++ " check " ++ rest) =
      some (ownServer node) := by
  have space : isWhitespace ' ' = true := rfl
  have server : ∀ c ∈ ("server" : String).toList, isWhitespace c = false := solid_of_all (by decide)
  have check : ∀ c ∈ ("check" : String).toList, isWhitespace c = false := solid_of_all (by decide)
  have addressed : node.address ≠ "" := by
    intro empty
    have colon := colon_mem_address node
    rw [empty] at colon
    cases colon
  have shape : "    server " ++ node.name ++ " " ++ node.address ++ " check " ++ rest =
      String.singleton ' ' ++ (String.singleton ' ' ++ (String.singleton ' ' ++
        (String.singleton ' ' ++ ("server" ++ String.singleton ' ' ++
          (node.name ++ String.singleton ' ' ++
            (node.address ++ String.singleton ' ' ++ ("check" ++ String.singleton ' ' ++ rest))))))) := by
    rw [← String.toList_inj]
    simp
  rw [serverLine, shape]
  simp only [splitWhitespace_of_isWhitespace space, splitWhitespace_word (by decide) server space]
  by_cases named : node.name = ""
  · rw [named, String.empty_append, splitWhitespace_of_isWhitespace space,
      splitWhitespace_word addressed solid.address space, splitWhitespace_word (by decide) check space,
      ownServer, if_pos named]
    rfl
  · rw [splitWhitespace_word named solid.name space,
      splitWhitespace_word addressed solid.address space, ownServer, if_neg named]
    rfl

theorem serversOf_entry {config : EdgeConfig} {node : MongoNode} (solid : node.Solid) :
    serversOf (serverEntry config.healthPort config node) = ownServer node :: addedServers config := by
  have unbroken : '\n' ∉ ("    server " ++ node.name ++ " " ++ node.address ++ " check ").toList := by
    have oneLine {s : String} (solid : ∀ c ∈ s.toList, isWhitespace c = false) : '\n' ∉ s.toList := by
      intro member
      cases solid _ member
    simp [oneLine solid.name, oneLine solid.address]
  unfold serversOf serverEntry
  rw [split_of_not_mem unbroken, List.filterMap_cons_some (serverLine_own solid _)]
  rfl

/-- A line by its characters: it declares no server unless its first word says so. -/
theorem serversOf_eq_nil {line : String} {chars : List Char} (spelled : line = String.ofList chars)
    (oneLine : '\n' ∉ chars)
    (other : ((chars.splitOnP isWhitespace).filter (· ≠ [])).head? ≠
      some ['s', 'e', 'r', 'v', 'e', 'r']) : serversOf line = [] := by
  have single : split '\n' line = [line] := by
    rw [split, spelled, String.toList_ofList, List.splitOn_eq_singleton oneLine]
    rfl
  have silent : serverLine line = none := by
    rw [serverLine, splitWhitespace, spelled, String.toList_ofList]
    cases words : (chars.splitOnP isWhitespace).filter (· ≠ []) with
    | nil => rfl
    | cons word rest =>
        rw [words, List.head?_cons] at other
        have differs : String.ofList word ≠ "server" := by
          intro same
          apply other
          rw [← String.toList_ofList (l := word), same]
          rfl
        rw [List.map_cons]
        split
        · rename_i arguments parsed
          exact absurd (List.cons.inj parsed).1 differs
        · rfl
  rw [serversOf, single, List.filterMap_cons_none silent, List.filterMap_nil]

/-- The lines before the servers declare none. -/
theorem serversOf_backendHead : ∀ line ∈ backendHead, serversOf line = [] := by
  simp only [backendHead, List.forall_mem_cons]
  repeat' apply And.intro
  all_goals first
    | exact serversOf_eq_nil rfl (by decide +kernel) (by decide +kernel)
    | exact List.forall_mem_nil _

/-- Lines joined to a text declare what they declare one by one. -/
theorem serversOf_intercalate {lines : List String} (filled : lines ≠ []) :
    serversOf ("\n".intercalate lines) = lines.flatMap serversOf := by
  have newline : ("\n" : String) = String.singleton '\n' := rfl
  rw [serversOf, newline, split_intercalate '\n' filled, List.filterMap_flatMap]
  rfl

/-- The servers of the backend, node by node. -/
theorem backendServers_eq (config : EdgeConfig) {nodes : List MongoNode}
    (solid : ∀ node ∈ nodes, node.Solid) :
    backendServers config nodes = nodes.flatMap fun node => ownServer node :: addedServers config := by
  have last : serversOf "" = [] := by decide
  have head : backendHead.flatMap serversOf = [] := List.flatMap_eq_nil_iff.2 serversOf_backendHead
  have filled : backendHead ++ [serverEntries nodes config.healthPort config, ""] ≠ [] :=
    List.append_ne_nil_of_right_ne_nil _ (List.cons_ne_nil _ _)
  rw [backendServers, generateBackend, serversOf_intercalate filled, List.flatMap_append, head,
    List.nil_append, List.flatMap_cons, List.flatMap_cons, last, List.flatMap_nil, List.append_nil,
    List.append_nil, serverEntries]
  cases nodes with
  | nil => exact last
  | cons node rest =>
      rw [serversOf_intercalate (by simp), List.flatMap_map]
      apply List.flatMap_congr
      intro node member
      exact serversOf_entry (solid node member)

/-! ### One server for each entry -/

/-- The entries of `MONGO_NODES`. -/
def EdgeConfig.entries (config : EdgeConfig) : List String :=
  split ',' config.mongoNodes

/-- The backend, which ends the configuration, declares one server for each entry, in the order of
    `MONGO_NODES` and with its host and port, under names of their own. -/
structure Served (config : EdgeConfig) (nodes : List MongoNode) : Prop where
  rendered : ∃ before, generateConfig config nodes = before ++ "\n" ++ generateBackend config nodes
  entries : List.Forall₂ NamesNode config.entries nodes
  servers : ∃ names : List String, names.length = nodes.length ∧ "" ∉ names ∧ names.Nodup ∧
    backendServers config nodes = names.zip (nodes.map MongoNode.address)

theorem generateConfig_eq (config : EdgeConfig) (nodes : List MongoNode) :
    generateConfig config nodes =
      "\n".intercalate (configHead config) ++ "\n" ++ generateBackend config nodes := by
  have head : configHead config ≠ [] := List.cons_ne_nil _ _
  rw [generateConfig, String.intercalate_append_of_ne_nil head (List.cons_ne_nil _ _),
    String.intercalate_singleton]

theorem ownServer_of_ne {node : MongoNode} (named : node.name ≠ "") :
    ownServer node = (node.name, node.address) := if_neg named

/-- Only a node with a name is read under its address. -/
theorem name_ne_of_ownServer {node : MongoNode} (read : (ownServer node).2 = node.address) :
    node.name ≠ "" := by
  intro unnamed
  rw [ownServer, if_pos unnamed] at read
  have colon : ':' ∈ ("check" : String).toList := by
    have addressed := colon_mem_address node
    rwa [← read] at addressed
  exact absurd colon (by decide)

/-- A backend of some nodes has a server for each exactly when the settings add none. -/
theorem length_backendServers (config : EdgeConfig) {nodes : List MongoNode}
    (solid : ∀ node ∈ nodes, node.Solid) :
    (backendServers config nodes).length = nodes.length * ((addedServers config).length + 1) := by
  rw [backendServers_eq config solid, List.length_flatMap]
  simp only [List.length_cons, List.map_const', List.sum_replicate_nat]

/-- What the servers of solid nodes come to, in terms of their names. -/
theorem servers_iff (config : EdgeConfig) {nodes : List MongoNode} (filled : nodes ≠ [])
    (solid : ∀ node ∈ nodes, node.Solid) :
    (∃ names : List String, names.length = nodes.length ∧ "" ∉ names ∧ names.Nodup ∧
        backendServers config nodes = names.zip (nodes.map MongoNode.address)) ↔
      (nodes.map MongoNode.name).Nodup ∧ "" ∉ nodes.map MongoNode.name ∧ addedServers config = [] := by
  constructor
  · rintro ⟨names, sameLength, named, distinct, read⟩
    have added : addedServers config = [] := by
      have counted := length_backendServers config solid
      rw [read, List.length_zip, List.length_map, sameLength, Nat.min_self] at counted
      have positive := List.length_pos_iff.2 filled
      have once : nodes.length * 1 = nodes.length * ((addedServers config).length + 1) := by
        rw [Nat.mul_one]
        exact counted
      have length := Nat.eq_of_mul_eq_mul_left positive once
      exact List.eq_nil_of_length_eq_zero (by omega)
    have own : nodes.map ownServer = names.zip (nodes.map MongoNode.address) := by
      rw [← read, backendServers_eq config solid, added, List.map_eq_flatMap]
    have sameZip : names.length = (nodes.map MongoNode.address).length := by
      rw [List.length_map, sameLength]
    have addresses : nodes.map (fun node => (ownServer node).2) = nodes.map MongoNode.address := by
      have second := congrArg (List.map Prod.snd) own
      rwa [List.map_map, List.map_snd_zip (Nat.le_of_eq sameZip.symm)] at second
    have labels : nodes.map (fun node => (ownServer node).1) = names := by
      have first := congrArg (List.map Prod.fst) own
      rwa [List.map_map, List.map_fst_zip (Nat.le_of_eq sameZip)] at first
    have sameNames : nodes.map MongoNode.name = names := by
      rw [← labels]
      apply List.map_congr_left
      intro node member
      have read := List.map_inj_left.1 addresses node member
      rw [ownServer_of_ne (name_ne_of_ownServer read)]
    rw [sameNames]
    exact ⟨distinct, named, added⟩
  · rintro ⟨distinct, named, added⟩
    refine ⟨nodes.map MongoNode.name, List.length_map .., named, distinct, ?_⟩
    rw [backendServers_eq config solid, added, ← List.map_eq_flatMap, List.zip_map']
    apply List.map_congr_left
    intro node member
    apply ownServer_of_ne
    intro unnamed
    exact named (unnamed ▸ List.mem_map_of_mem member)

/-- What the parsed nodes have of their entries. -/
structure Parsed (entries : List String) (nodes : List MongoNode) : Prop where
  paired : List.Forall₂ NamesNode entries nodes
  names : nodes.map MongoNode.name = entries.map firstLabel
  hosts : nodes.map MongoNode.host = entries.map declaredHost

theorem parsed_of_ok {mongoNodes : String} {nodes : List MongoNode}
    (result : parseNodes mongoNodes = .ok nodes) : Parsed (split ',' mongoNodes) nodes := by
  have paired := parseNodes_ok_iff.1 result
  clear result
  generalize split ',' mongoNodes = entries at paired ⊢
  induction paired with
  | nil => exact ⟨.nil, rfl, rfl⟩
  | cons both _ ih =>
      obtain ⟨⟨port, whole, noColon, value⟩, label⟩ := both
      constructor
      · exact .cons ⟨port, whole, noColon, value⟩ ih.paired
      · rw [List.map_cons, List.map_cons, label, ih.names]
      · rw [List.map_cons, List.map_cons, declaredHost_eq whole noColon, ih.hosts]

namespace Parsed

variable {entries : List String} {nodes : List MongoNode}

theorem ne_nil (parsed : Parsed entries nodes) (filled : entries ≠ []) : nodes ≠ [] := by
  rintro rfl
  cases parsed.paired
  exact filled rfl

/-- The nodes of whitespace-free hosts are solid. -/
theorem solid (parsed : Parsed entries nodes)
    (spaceless : ∀ entry ∈ entries, ∀ c ∈ (declaredHost entry).toList, isWhitespace c = false) :
    ∀ node ∈ nodes, node.Solid := by
  intro node member
  constructor
  · have name : node.name ∈ entries.map firstLabel := parsed.names ▸ List.mem_map_of_mem member
    obtain ⟨entry, listed, same⟩ := List.mem_map.1 name
    intro c inName
    rw [← same, firstLabel, String.toList_ofList] at inName
    exact spaceless entry listed c ((List.takeWhile_subset _) inName)
  · have host : node.host ∈ entries.map declaredHost := parsed.hosts ▸ List.mem_map_of_mem member
    obtain ⟨entry, listed, same⟩ := List.mem_map.1 host
    intro c inHost
    exact spaceless entry listed c (same ▸ inHost)

end Parsed

theorem entries_ne_nil (config : EdgeConfig) : config.entries ≠ [] := by
  simp [EdgeConfig.entries, split, List.splitOn_ne_nil]

theorem spaceless_of_hosts {entries hosts : List String} (declared : entries.map declaredHost = hosts)
    (all : hosts.all (fun host => host.toList.all (!isWhitespace ·)) = true) :
    ∀ entry ∈ entries, ∀ c ∈ (declaredHost entry).toList, isWhitespace c = false := by
  intro entry member
  have listed : declaredHost entry ∈ hosts := declared ▸ List.mem_map_of_mem member
  exact solid_of_all (List.all_eq_true.1 all _ listed)

/-- What the backend of parsed nodes comes to, in terms of the entries. -/
theorem served_of_parsed {config : EdgeConfig} {nodes : List MongoNode}
    (spaceless : ∀ entry ∈ config.entries, ∀ c ∈ (declaredHost entry).toList, isWhitespace c = false)
    (parsed : Parsed config.entries nodes) :
    Served config nodes ↔
      (config.entries.map firstLabel).Nodup ∧ "" ∉ config.entries.map firstLabel ∧
        addedServers config = [] := by
  have servers := servers_iff config (parsed.ne_nil (entries_ne_nil config)) (parsed.solid spaceless)
  rw [parsed.names] at servers
  rw [← servers]
  constructor
  · intro served
    exact served.servers
  · intro found
    exact ⟨⟨_, generateConfig_eq config nodes⟩, parsed.paired, found⟩

/-- For every `MONGO_NODES` with whitespace-free hosts: it is refused, or the backend serves it entry by
    entry, exactly when an entry names no port, or the first labels of the hosts are non-empty and
    pairwise distinct and the check settings add no server line. -/
theorem served_iff (config : EdgeConfig)
    (spaceless : ∀ entry ∈ config.entries, ∀ c ∈ (declaredHost entry).toList, isWhitespace c = false) :
    ((∃ failure, parseNodes config.mongoNodes = .error failure) ∨
        ∃ nodes, parseNodes config.mongoNodes = .ok nodes ∧ Served config nodes) ↔
      (∃ entry ∈ config.entries, declaredPort entry = none) ∨
        ((config.entries.map firstLabel).Nodup ∧ "" ∉ config.entries.map firstLabel ∧
          addedServers config = []) := by
  rw [parseNodes_error_iff]
  cases result : parseNodes config.mongoNodes with
  | error failure =>
      have refused := parseNodes_error_iff.1 ⟨failure, result⟩
      exact iff_of_true (Or.inl refused) (Or.inl refused)
  | ok nodes =>
      rw [← served_of_parsed spaceless (parsed_of_ok result)]
      apply or_congr_right
      constructor
      · rintro ⟨_, same, served⟩
        cases same
        exact served
      · intro served
        exact ⟨nodes, rfl, served⟩

/-- The edge of a two-node set. -/
def twoHosts : EdgeConfig :=
  { mongoNodes := "mongo-1.railway.internal:27017, mongo-2.railway.internal:27018" }

/-- Two hosts with first labels of their own. -/
theorem twoHosts_served :
    (∃ failure, parseNodes twoHosts.mongoNodes = .error failure) ∨
      ∃ nodes, parseNodes twoHosts.mongoNodes = .ok nodes ∧ Served twoHosts nodes := by
  have hosts : twoHosts.entries.map declaredHost =
      ["mongo-1.railway.internal", "mongo-2.railway.internal"] := by decide +kernel
  refine (served_iff twoHosts (spaceless_of_hosts hosts ?_)).2 (Or.inr ⟨?_, ?_, ?_⟩)
  · decide
  · decide +kernel
  · decide +kernel
  · decide +kernel

/-- A set whose nodes are named by their addresses. -/
def twoAddresses : EdgeConfig := { mongoNodes := "10.0.0.1:27017,10.0.0.2:27017" }

/-- Both get one server name. -/
theorem addresses_share_name :
    ¬ ∀ config : EdgeConfig,
      (∀ entry ∈ config.entries, ∀ c ∈ (declaredHost entry).toList, isWhitespace c = false) →
      (config.entries.map fun entry => (declaredHost entry, declaredPort entry)).Nodup →
      (∃ failure, parseNodes config.mongoNodes = .error failure) ∨
        ∃ nodes, parseNodes config.mongoNodes = .ok nodes ∧ Served config nodes := by
  intro always
  have hosts : twoAddresses.entries.map declaredHost = ["10.0.0.1", "10.0.0.2"] := by
    decide +kernel
  have spaceless := spaceless_of_hosts hosts (by decide)
  rcases always twoAddresses spaceless (by decide +kernel) with refused | ⟨nodes, result, served⟩
  · rw [parseNodes_error_iff] at refused
    exact absurd refused (by decide +kernel)
  · have named := (served_of_parsed spaceless (parsed_of_ok result)).1 served
    exact absurd named.1 (by decide +kernel)

end MongoHa
