/-
Module: MongoHa.Proofs.MemberAddresses
Layer: Proofs
Purpose: Member addresses as the two splitters read them. A list of addresses is read alike, and every
  literal in it reaches the name probe as a literal, exactly when it names no IPv6 literal in brackets and
  no name that a splitter shortens: `split_host_port` loses the last group of `[v6]`, and `seed_hosts` cuts
  both forms at the first colon. A host that is a literal is never waived, whatever the resolver answers.
Imports: MongoHa.Proofs.PeerRound, MongoHa.Wrapper.DnsProbe
Trusted boundary: none (fully proved)
Main exports: Address, Address.Plain, splits_alike_iff, seedHosts_joined_iff, Probed,
  literal_never_waived, ReadAlike, read_alike_iff, bracketed_seed_waived
Open obligations: none
-/
import MongoHa.Proofs.PeerRound
import MongoHa.Wrapper.DnsProbe

namespace MongoHa

open Foundations
open Foundations.RustStr
open Foundations.NetAddr

/-! ### Addresses -/

/-- What stands for a host outside of brackets. IPv4 literals are among them. -/
structure HostName where
  text : String
  noColon : ':' ∉ text.toList
  noComma : ',' ∉ text.toList

/-- A text that `Ipv6Addr` parses. -/
structure Ipv6Literal where
  text : String
  literal : (parseIpv6 text).isSome = true

/-- The ways a member's address is written: a name or a bracketed literal, with a port or without one. -/
inductive Address where
  | name (bare : HostName)
  | namePort (bare : HostName) (port : UInt16)
  | v6 (bare : Ipv6Literal)
  | v6Port (bare : Ipv6Literal) (port : UInt16)

namespace Address

def text : Address → String
  | name bare => bare.text
  | namePort bare port => bare.text ++ ":" ++ toString port.toNat
  | v6 bare => "[" ++ bare.text ++ "]"
  | v6Port bare port => "[" ++ bare.text ++ "]:" ++ toString port.toNat

def host : Address → String
  | name bare => bare.text
  | namePort bare _ => bare.text
  | v6 bare => bare.text
  | v6Port bare _ => bare.text

def port : Address → UInt16
  | name _ => 27017
  | namePort _ port => port
  | v6 _ => 27017
  | v6Port _ port => port

/-- The comma-separated list of the addresses. -/
def joined (addresses : List Address) : String :=
  ",".intercalate (addresses.map text)

/-- A name that neither splitter shortens: not empty, no white space around it, and no brackets around it
    where a port follows. -/
def Plain : Address → Prop
  | name bare => trim bare.text = bare.text ∧ bare.text ≠ ""
  | namePort bare _ =>
      trimBrackets bare.text = bare.text ∧ trimStart bare.text = bare.text ∧ bare.text ≠ ""
  | v6 _ => False
  | v6Port _ _ => False

end Address

/-! ### `split_host_port` -/

theorem rsplitOnceColon_eq_none {s : String} (noColon : ':' ∉ s.toList) :
    rsplitOnceColon s = none := by
  have whole : s.toList.reverse.dropWhile (· != ':') = [] := by
    rw [List.dropWhile_eq_nil_iff]
    intro c member
    rw [List.mem_reverse] at member
    exact bne_iff_ne.2 fun same => noColon (same ▸ member)
  rw [rsplitOnceColon, List.span_eq_takeWhile_dropWhile, whole]

/-- The last colon splits. -/
theorem rsplitOnceColon_last {s : String} {before after : List Char}
    (spelled : s.toList = before ++ ':' :: after) (last : ':' ∉ after) :
    rsplitOnceColon s = some (String.ofList before, String.ofList after) := by
  have turned : s.toList.reverse = after.reverse ++ ':' :: before.reverse := by simp [spelled]
  have passed : ∀ c ∈ after.reverse, (c != ':') = true := by
    intro c member
    rw [List.mem_reverse] at member
    exact bne_iff_ne.2 fun same => last (same ▸ member)
  rw [rsplitOnceColon, List.span_eq_takeWhile_dropWhile, turned, List.takeWhile_append_of_pos passed,
    List.dropWhile_append_of_pos passed]
  simp

/-- Behind an opening bracket, trimming leaves no more than what follows it. -/
theorem length_trimBrackets (inner : List Char) :
    (trimBrackets (String.ofList ('[' :: inner))).toList.length ≤ inner.length := by
  rw [trimBrackets, String.toList_ofList, String.toList_ofList, List.length_reverse]
  refine le_trans (List.dropWhile_sublist _).length_le ?_
  rw [List.length_reverse, List.dropWhile_cons]
  exact (List.dropWhile_sublist _).length_le

theorem splitHostPort_name (bare : HostName) : splitHostPort bare.text = (bare.text, 27017) := by
  rw [splitHostPort, rsplitOnceColon_eq_none bare.noColon]

theorem colon_notMem_toString (n : Nat) : ':' ∉ (toString n).toList := by
  intro member
  exact absurd (isDigit_of_mem_toString member) (by decide)

theorem splitHostPort_namePort (bare : HostName) (port : UInt16) :
    splitHostPort (Address.namePort bare port).text = (trimBrackets bare.text, port) := by
  have spelled : (Address.namePort bare port).text.toList =
      bare.text.toList ++ ':' :: (toString port.toNat).toList := by simp [Address.text]
  have plain : (!bare.text.toList.contains ':' || bare.text.toList.head? == some '[') = true := by
    simp [bare.noColon]
  rw [splitHostPort, rsplitOnceColon_last spelled (colon_notMem_toString _)]
  simp only [String.ofList_toList, plain, if_true, parseU16_toString, Option.getD_some]

/-- Without a port the last group of an IPv6 literal is taken for one. -/
theorem splitHostPort_v6 (bare : Ipv6Literal) :
    (splitHostPort (Address.v6 bare).text).1 ≠ bare.text := by
  obtain ⟨reversedLast, reversedFirst, turned, last⟩ :=
    List.eq_append_cons_of_mem (List.mem_reverse.2 (colon_mem_of_parseIpv6 bare.literal))
  have literal : bare.text.toList = reversedFirst.reverse ++ ':' :: reversedLast.reverse := by
    rw [← List.reverse_reverse bare.text.toList, turned]
    simp
  have spelled : (Address.v6 bare).text.toList =
      ('[' :: reversedFirst.reverse) ++ ':' :: (reversedLast.reverse ++ [']']) := by
    simp [Address.text, literal]
  have split := rsplitOnceColon_last spelled (by simp [last])
  intro same
  rw [splitHostPort, split] at same
  have opened : (!(String.ofList ('[' :: reversedFirst.reverse)).toList.contains ':' ||
      (String.ofList ('[' :: reversedFirst.reverse)).toList.head? == some '[') = true := by simp
  simp only [opened, if_true] at same
  have shorter := length_trimBrackets reversedFirst.reverse
  rw [same, literal, List.length_append, List.length_cons] at shorter
  omega

/-! ### `seed_hosts` -/

/-- The host that one entry of RS_SEEDS declares. -/
def seedHost (entry : String) : String :=
  (split ':' (trim entry)).headD ""

theorem seedHost_name (bare : HostName) : seedHost bare.text = trim bare.text := by
  have passed : ∀ c ∈ (trim bare.text).toList, (c != ':') = true := by
    intro c member
    rw [trim_toList, List.mem_reverse] at member
    have inner := (List.dropWhile_sublist _).subset member
    rw [List.mem_reverse] at inner
    have outer := (List.dropWhile_sublist _).subset inner
    exact bne_iff_ne.2 fun same => bare.noColon (same ▸ outer)
  rw [seedHost, headD_split, List.takeWhile_eq_self_iff.2 passed, String.ofList_toList]

theorem seedHost_namePort (bare : HostName) (port : UInt16) :
    seedHost (Address.namePort bare port).text = trimStart bare.text := by
  have spelled : (Address.namePort bare port).text.toList =
      bare.text.toList ++ ':' :: (toString port.toNat).toList := by simp [Address.text]
  have digits : (toString port.toNat).toList.reverse.dropWhile isWhitespace =
      (toString port.toNat).toList.reverse := by
    cases turned : (toString port.toNat).toList.reverse with
    | nil => rfl
    | cons c rest =>
        have member : c ∈ (toString port.toNat).toList := by
          rw [← List.mem_reverse, turned]
          exact List.mem_cons_self
        simp [isWhitespace_of_isDigit (isDigit_of_mem_toString member)]
  have trimmed : (trim (Address.namePort bare port).text).toList =
      bare.text.toList.dropWhile isWhitespace ++ ':' :: (toString port.toNat).toList := by
    rw [trim_toList, spelled, dropWhile_append_cons (by decide), List.reverse_append,
      List.reverse_cons, List.append_assoc, List.singleton_append, dropWhile_append_cons (by decide),
      digits]
    simp
  have passed : ∀ c ∈ bare.text.toList.dropWhile isWhitespace, (c != ':') = true := by
    intro c member
    have outer := (List.dropWhile_sublist _).subset member
    exact bne_iff_ne.2 fun same => bare.noColon (same ▸ outer)
  rw [seedHost, headD_split, trimmed, List.takeWhile_append_of_pos passed]
  simp [trimStart]

/-- An entry in brackets declares a host that begins with the bracket. -/
theorem seedHost_bracketed (inner : List Char) :
    (seedHost (String.ofList ('[' :: inner))).toList.head? = some '[' := by
  have solid : isWhitespace '[' = false := by decide
  have trimmed : (trim (String.ofList ('[' :: inner))).toList =
      '[' :: (inner.reverse.dropWhile isWhitespace).reverse := by
    rw [trim_toList, String.toList_ofList, List.dropWhile_cons, solid, if_neg (by decide),
      List.reverse_cons, dropWhile_append_cons solid]
    simp
  rw [seedHost, headD_split, trimmed, String.toList_ofList, List.takeWhile_cons,
    if_pos (by decide), List.head?_cons]

theorem bracket_notMem (bare : Ipv6Literal) : '[' ∉ bare.text.toList := by
  intro member
  rcases mem_of_parseIpv6 bare.literal '[' member with digit | colon | dot
  · exact absurd digit (by decide)
  · cases colon
  · cases dot

theorem seedHost_ne_v6 (bare : Ipv6Literal) (inner : List Char) :
    seedHost (String.ofList ('[' :: inner)) ≠ bare.text := by
  intro same
  have opened := seedHost_bracketed inner
  rw [same] at opened
  exact bracket_notMem bare (List.mem_of_head? opened)

theorem notMem_text {address : Address} : ',' ∉ address.text.toList := by
  have port : ∀ n : Nat, ',' ∉ (toString n).toList := fun n member =>
    absurd (isDigit_of_mem_toString member) (by decide)
  have literal : ∀ bare : Ipv6Literal, ',' ∉ bare.text.toList := by
    intro bare member
    rcases mem_of_parseIpv6 bare.literal ',' member with digit | colon | dot
    · exact absurd digit (by decide)
    · cases colon
    · cases dot
  cases address with
  | name bare => exact bare.noComma
  | namePort bare number =>
      simp only [Address.text, String.toList_append, List.mem_append, not_or]
      exact ⟨⟨bare.noComma, by decide⟩, port _⟩
  | v6 bare => simp [Address.text, literal]
  | v6Port bare number =>
      simp only [Address.text, String.toList_append, List.mem_append, not_or]
      exact ⟨⟨⟨by decide, literal _⟩, by decide⟩, port _⟩

/-- Both splitters return the address's own host, and the second one keeps it, exactly for the plain
    addresses. -/
theorem splits_alike_iff (address : Address) :
    (splitHostPort address.text = (address.host, address.port) ∧
        seedHost address.text = address.host ∧ address.host ≠ "") ↔ address.Plain := by
  cases address with
  | name bare =>
      have split : splitHostPort (Address.name bare).text = (bare.text, 27017) :=
        splitHostPort_name bare
      have seed : seedHost (Address.name bare).text = trim bare.text := seedHost_name bare
      simp [split, seed, Address.host, Address.port, Address.Plain]
  | namePort bare port =>
      rw [splitHostPort_namePort, seedHost_namePort]
      simp [Address.host, Address.port, Address.Plain]
  | v6 bare =>
      simp only [Address.Plain, iff_false, not_and]
      intro split
      exact absurd (congrArg Prod.fst split) (splitHostPort_v6 bare)
  | v6Port bare port =>
      simp only [Address.Plain, iff_false, not_and]
      intro _ seed
      have spelled : (Address.v6Port bare port).text =
          String.ofList ('[' :: (bare.text.toList ++ "]:".toList ++ (toString port.toNat).toList)) := by
        apply String.toList_injective
        simp [Address.text]
      rw [spelled] at seed
      exact absurd seed (seedHost_ne_v6 bare _)

/-- A filtered image that is as long as the list lost nothing. -/
theorem filter_map_eq_map_iff {α β : Type*} {p : β → Bool} {f g : α → β} {xs : List α} :
    (xs.map f).filter p = xs.map g ↔ ∀ x ∈ xs, f x = g x ∧ p (f x) = true := by
  induction xs with
  | nil => simp
  | cons x xs ih =>
      rw [List.map_cons, List.map_cons, List.forall_mem_cons, ← ih]
      by_cases kept : p (f x) = true
      · rw [List.filter_cons_of_pos kept, List.cons.injEq]
        simp [kept]
      · rw [List.filter_cons_of_neg kept]
        constructor
        · intro same
          have shorter := List.length_filter_le p (xs.map f)
          rw [same, List.length_cons, List.length_map, List.length_map] at shorter
          omega
        · intro both
          exact absurd both.1.2 kept

theorem split_joined {addresses : List Address} (filled : addresses ≠ []) :
    split ',' (Address.joined addresses) = addresses.map Address.text := by
  have spelled : (Address.joined addresses).toList =
      [','].intercalate ((addresses.map Address.text).map String.toList) := by
    rw [Address.joined, String.toList_intercalate]
    rfl
  have apart : ∀ piece ∈ (addresses.map Address.text).map String.toList, ',' ∉ piece := by
    intro piece member
    simp only [List.mem_map] at member
    obtain ⟨_, ⟨address, -, rfl⟩, rfl⟩ := member
    exact notMem_text
  rw [split, spelled, List.splitOn_intercalate _ apart (by simpa using filled), List.map_map]
  simp [Function.comp_def]

/-- The seed list is read as written exactly when every seed is. -/
theorem seedHosts_joined_iff {config : Config} {addresses : List Address}
    (declared : config.rsSeeds = some (Address.joined addresses)) :
    config.seedHosts = addresses.map Address.host ↔
      ∀ address ∈ addresses, seedHost address.text = address.host ∧ address.host ≠ "" := by
  have entries : config.seedHosts =
      ((split ',' (Address.joined addresses)).map seedHost).filter (· != "") := by
    rw [Config.seedHosts, declared]
    rfl
  cases addresses with
  | nil =>
      have empty : Address.joined [] = "" := by simp [Address.joined]
      have none : ((split ',' "").map seedHost).filter (· != "") = [] := by decide +kernel
      rw [entries, empty, none]
      simp
  | cons first rest =>
      rw [entries, split_joined (List.cons_ne_nil _ _), List.map_map, filter_map_eq_map_iff]
      refine forall₂_congr fun address _ => ?_
      rw [Function.comp_apply]
      apply and_congr_right
      intro same
      rw [same]
      exact bne_iff_ne

/-! ### The name probe -/

/-- Every name this round probes gets the verdict of the name probe, on whatever that reads. -/
def Probed (config : Config) (poll : Poll) : Prop :=
  ∀ entry ∈ roundAnswers config poll, standingOf entry.2.1 = .unknown →
    ∃ reads, entry.2.2 = (probeNameDetailed entry.1 reads).1

/-- What a round waives, it has just judged gone. -/
theorem gone_of_mem_waived {config : Config} {now : Instant} {gone : GoneTracker}
    {answers : List RoundAnswer} {host : String}
    (waived : host ∈ (surveyPeers config now gone answers).waived) :
    ∃ answer, (host, answer, NameVerdict.gone) ∈ answers ∧ standingOf answer = .unknown := by
  induction answers generalizing gone with
  | nil => simp [surveyPeers] at waived
  | cons entry rest ih =>
      obtain ⟨current, answer, verdict⟩ := entry
      by_cases unknown : standingOf answer = .unknown
      · rw [surveyPeers_unknown unknown] at waived
        dsimp only at waived
        split at waived
        · rename_i dwelt
          rcases List.mem_cons.1 waived with rfl | later
          · cases verdict with
            | gone => exact ⟨answer, List.mem_cons_self, unknown⟩
            | existsOrUnknown =>
                rw [GoneTracker.isWaived_iff] at dwelt
                obtain ⟨since, running, -⟩ := dwelt
                rw [GoneTracker.observe_self] at running
                simp [NameVerdict.event] at running
          · obtain ⟨later, member, silent⟩ := ih later
            exact ⟨later, List.mem_cons_of_mem _ member, silent⟩
        · obtain ⟨later, member, silent⟩ := ih waived
          exact ⟨later, List.mem_cons_of_mem _ member, silent⟩
      · rw [surveyPeers_known unknown] at waived
        obtain ⟨later, member, silent⟩ := ih waived
        exact ⟨later, List.mem_cons_of_mem _ member, silent⟩

/-- No round waives a literal, whatever the tracker holds. -/
theorem literal_never_waived {config : Config} {poll : Poll} {host : String}
    (literal : (parseIpAddr host).isSome = true) (probed : Probed config poll) (gone : GoneTracker) :
    host ∉ (surveyRound config gone poll).waived := by
  intro waived
  obtain ⟨answer, member, unknown⟩ := gone_of_mem_waived waived
  obtain ⟨reads, verdict⟩ := probed _ member unknown
  rw [probeNameDetailed_literal literal] at verdict
  cases verdict

/-! ### Reading alike -/

/-- All readers of a seed list find the hosts and ports that were written, and a literal is never taken
    for a name that may be waived. -/
structure ReadAlike (addresses : List Address) : Prop where
  split : ∀ address ∈ addresses, splitHostPort address.text = (address.host, address.port)
  seeds : ∀ config : Config, config.rsSeeds = some (Address.joined addresses) →
    config.seedHosts = addresses.map Address.host
  /-- The seed that a literal declares parses as an address, and no round waives it. -/
  literals : ∀ config : Config, config.rsSeeds = some (Address.joined addresses) →
    ∀ (i : Nat) (address : Address), addresses[i]? = some address →
    (parseIpAddr address.host).isSome = true →
    ∃ seed, config.seedHosts[i]? = some seed ∧ (parseIpAddr seed).isSome = true ∧
      ∀ poll, Probed config poll → ∀ gone, seed ∉ (surveyRound config gone poll).waived

/-- Over every list of addresses, all readers agree exactly where each is a plain name: the one for a seed
    cuts a bracketed literal at its first colon. -/
theorem read_alike_iff {addresses : List Address} :
    ReadAlike addresses ↔ ∀ address ∈ addresses, address.Plain := by
  constructor
  · intro alike address member
    have declared : (configWithSeeds "localhost" (some (Address.joined addresses))).rsSeeds =
        some (Address.joined addresses) := rfl
    have hosts := (seedHosts_joined_iff declared).1 (alike.seeds _ declared) address member
    exact (splits_alike_iff address).1 ⟨alike.split address member, hosts⟩
  · intro plain
    have each := fun address member => (splits_alike_iff address).2 (plain address member)
    have seeds : ∀ config : Config, config.rsSeeds = some (Address.joined addresses) →
        config.seedHosts = addresses.map Address.host := fun config declared =>
      (seedHosts_joined_iff declared).2 fun address member => (each address member).2
    refine ⟨fun address member => (each address member).1, seeds, ?_⟩
    intro config declared i address atIndex literal
    have seed : config.seedHosts[i]? = some address.host := by
      rw [seeds config declared, List.getElem?_map, atIndex, Option.map_some]
    exact ⟨address.host, seed, literal, fun poll probed => literal_never_waived literal probed⟩

/-- The resolver answers NXDOMAIN. -/
def deniedReads : ProbeReads :=
  { resolvConf := "nameserver 127.0.0.11"
    queryId := 7
    sent := true
    datagrams := [[0, 7, 0x81, 0x83, 0, 1, 0, 0, 0, 0, 0, 0]] }

/-- The peer does not answer, and the probe of its name reads this. -/
def silentPoll (now : Instant) (host : String) (reads : ProbeReads) : Poll :=
  { Poll.quiet now with
    task := fun _ => .answered .unreachable
    probe := fun _ => (probeNameDetailed host reads).1 }

def loopback : Ipv6Literal := { text := "fd12::1", literal := by decide +kernel }

def firstNode : HostName :=
  { text := "mongo-1", noColon := by decide, noComma := by decide }

/-- A peer declared by its bracketed literal is probed by a fragment of it, judged gone and waived after
    the dwell. -/
theorem bracketed_seed_waived :
    let addresses := [Address.namePort firstNode 27017, Address.v6Port loopback 27017]
    let config := configWithSeeds "mongo-1" (some (Address.joined addresses))
    let first := surveyRound config .new (silentPoll 0 "[fd12" deniedReads)
    let later := surveyRound config first.gone (silentPoll config.peerGoneDwell "[fd12" deniedReads)
    config.seedHosts = ["mongo-1", "[fd12"] ∧
      probeNameDetailed "[fd12" deniedReads = (.gone, .rcode 3) ∧
      later.waived = ["[fd12"] ∧
      ¬ ReadAlike addresses := by
  intro addresses config first later
  refine ⟨by decide +kernel, by decide +kernel, by decide +kernel, ?_⟩
  rw [read_alike_iff]
  intro plain
  exact plain (.v6Port loopback 27017) (by simp [addresses])

end MongoHa
