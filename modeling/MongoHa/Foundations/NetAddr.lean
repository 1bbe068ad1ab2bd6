/-
Module: MongoHa.Foundations.NetAddr
Layer: Foundations
Purpose: The textual forms of IP addresses, as the parser of Rust's `core::net` reads them: four decimal
  octets without leading zeros, or up to eight groups of hexadecimal digits with at most one `::` and an
  IPv4 address as the last two groups. A literal spells nothing but hexadecimal digits, colons and dots,
  and an IPv6 literal has a colon.
Imports: Mathlib.Data.List.TakeWhile
Trusted boundary: human-reviewed spec
Main exports: Reader, readIpv4, readIpv6, IpAddr, parseIpv6, parseIpAddr, mem_of_parseIpv6,
  colon_mem_of_parseIpv6
Open obligations: none
-/
import Mathlib.Data.List.TakeWhile

namespace Foundations.NetAddr

/-! ### Reading -/

/-- A reader takes what it reads off the front, and nothing when it fails. -/
abbrev Reader (α : Type) := List Char → Option (α × List Char)

/-- `char::to_digit`. -/
def toDigit (radix : Nat) (c : Char) : Option Nat :=
  let value :=
    if '0' ≤ c ∧ c ≤ '9' then some (c.toNat - 48)
    else if 'a' ≤ c ∧ c ≤ 'z' then some (c.toNat - 87)
    else if 'A' ≤ c ∧ c ≤ 'Z' then some (c.toNat - 55)
    else none
  value.filter (· < radix)

def isDigit (radix : Nat) (c : Char) : Bool :=
  (toDigit radix c).isSome

def digitsValue (radix : Nat) (digits : List Char) : Nat :=
  digits.foldl (fun n c => n * radix + (toDigit radix c).getD 0) 0

/-- All the digits at the front, as a number below the bound. -/
def readNumber (radix maxDigits bound : Nat) (allowZeroPrefix : Bool) : Reader Nat := fun input =>
  let digits := input.takeWhile (isDigit radix)
  if digits = [] ∨ maxDigits < digits.length ∨
      (allowZeroPrefix = false ∧ digits.head? = some '0' ∧ 1 < digits.length) ∨
      bound ≤ digitsValue radix digits then none
  else some (digitsValue radix digits, input.dropWhile (isDigit radix))

def readGivenChar (given : Char) : Reader Unit
  | [] => none
  | c :: rest => if c = given then some ((), rest) else none

/-- Every item but the first stands behind a separator. -/
def readSeparator {α : Type} (separator : Char) (index : Nat) (inner : Reader α) : Reader α :=
  fun input =>
    if index = 0 then inner input
    else (readGivenChar separator input).bind fun (_, rest) => inner rest

/-- This many octets, the first one at this index. -/
def readOctets : Nat → Nat → Reader (List Nat)
  | 0, _ => fun input => some ([], input)
  | left + 1, index => fun input =>
      (readSeparator '.' index (readNumber 10 3 256 false) input).bind fun (octet, rest) =>
        (readOctets left (index + 1) rest).map fun (octets, after) => (octet :: octets, after)

/-- Four octets between dots. -/
def readIpv4 : Reader (List Nat) :=
  readOctets 4 0

def groupsOfIpv4 : List Nat → List Nat
  | [a, b, c, d] => [a * 256 + b, c * 256 + d]
  | _ => []

/-- The groups that a chunk of an IPv6 address reads, up to a limit, and whether it ended in an IPv4
    address. It never fails. -/
def readGroups : Nat → Nat → List Char → List Nat × Bool × List Char
  | 0, _, input => ([], false, input)
  | left + 1, index, input =>
      -- An IPv4 address takes two groups.
      match if 0 < left then readSeparator ':' index readIpv4 input else none with
      | some (octets, rest) => (groupsOfIpv4 octets, true, rest)
      | none =>
          match readSeparator ':' index (readNumber 16 4 65536 true) input with
          | some (group, rest) =>
              let (groups, embedded, after) := readGroups left (index + 1) rest
              (group :: groups, embedded, after)
          | none => ([], false, input)

/-- Eight groups, of which `::` stands for the ones left out. -/
def readIpv6 : Reader (List Nat) := fun input =>
  let (head, embedded, rest) := readGroups 8 0 input
  if head.length = 8 then some (head, rest)
  else if embedded then none
  else
    (readGivenChar ':' rest).bind fun (_, rest) =>
      (readGivenChar ':' rest).map fun (_, rest) =>
        let (tail, _, after) := readGroups (8 - (head.length + 1)) 0 rest
        (head ++ List.replicate (8 - head.length - tail.length) 0 ++ tail, after)

/-- An address literal by its octets or its groups. -/
inductive IpAddr where
  | v4 (octets : List Nat)
  | v6 (groups : List Nat)
deriving Repr, DecidableEq

/-- The value, when the reader takes the whole text. -/
def parseWith {α : Type} (reader : Reader α) (s : String) : Option α :=
  match reader s.toList with
  | some (value, []) => some value
  | _ => none

/-- `str::parse::<Ipv6Addr>`. -/
def parseIpv6 (s : String) : Option (List Nat) :=
  parseWith readIpv6 s

/-- `str::parse::<IpAddr>`. -/
def parseIpAddr (s : String) : Option IpAddr :=
  parseWith (fun input =>
    match readIpv4 input with
    | some (octets, rest) => some (.v4 octets, rest)
    | none => (readIpv6 input).map fun (groups, rest) => (.v6 groups, rest)) s

example : parseIpAddr "192.168.158.6" = some (.v4 [192, 168, 158, 6]) := by decide +kernel
example : parseIpAddr "fd12::10" = some (.v6 [0xfd12, 0, 0, 0, 0, 0, 0, 0x10]) := by decide +kernel
example : parseIpAddr "::ffff:10.0.0.1" = some (.v6 [0, 0, 0, 0, 0, 0xffff, 0xa00, 1]) := by decide +kernel
example : parseIpAddr "[fd12::10" = none := by decide +kernel

/-! ### What a literal spells -/

/-- The characters of a literal. -/
def LiteralChar (c : Char) : Prop :=
  isDigit 16 c = true ∨ c = ':' ∨ c = '.'

/-- What lies between what a reader was given and what it left. -/
def Spells (input rest : List Char) (used : List Char) : Prop :=
  input = used ++ rest ∧ ∀ c ∈ used, LiteralChar c

theorem Spells.append {input rest after used more : List Char} (first : Spells input rest used)
    (second : Spells rest after more) : Spells input after (used ++ more) := by
  obtain ⟨rfl, allowed⟩ := first
  obtain ⟨rfl, others⟩ := second
  refine ⟨(List.append_assoc ..).symm, fun c member => ?_⟩
  rcases List.mem_append.1 member with early | late
  · exact allowed c early
  · exact others c late

theorem Spells.nil (input : List Char) : Spells input input [] :=
  ⟨rfl, by simp⟩

/-- The reader takes nothing but characters of a literal. -/
def Literal {α : Type} (reader : Reader α) : Prop :=
  ∀ {input : List Char} {value : α} {rest : List Char}, reader input = some (value, rest) →
    ∃ used, Spells input rest used

theorem isDigit_sixteen {radix : Nat} {c : Char} (within : radix ≤ 16)
    (digit : isDigit radix c = true) : isDigit 16 c = true := by
  unfold isDigit toDigit at *
  simp only [Option.isSome_iff_exists, Option.filter_eq_some_iff, decide_eq_true_eq] at *
  obtain ⟨value, spelled, small⟩ := digit
  exact ⟨value, spelled, Nat.lt_of_lt_of_le small within⟩

theorem literal_readNumber {radix maxDigits bound : Nat} {allowZeroPrefix : Bool}
    (within : radix ≤ 16) : Literal (readNumber radix maxDigits bound allowZeroPrefix) := by
  intro input value rest read
  simp only [readNumber] at read
  split at read
  · cases read
  · cases read
    refine ⟨_, List.takeWhile_append_dropWhile.symm, fun c member => ?_⟩
    exact Or.inl (isDigit_sixteen within (List.mem_takeWhile_imp member))

theorem readGivenChar_eq_some {given : Char} {input rest : List Char} {value : Unit}
    (read : readGivenChar given input = some (value, rest)) : input = given :: rest := by
  cases input with
  | nil => cases read
  | cons c others =>
      simp only [readGivenChar] at read
      split at read
      · rename_i same
        cases read
        rw [same]
      · cases read

/-- Behind a separator: the separator, and what the item itself spells. -/
theorem spells_readSeparator {α : Type} {separator : Char} {index : Nat} {inner : Reader α}
    (literal : Literal inner) (allowed : LiteralChar separator) {input rest : List Char} {value : α}
    (read : readSeparator separator index inner input = some (value, rest)) :
    ∃ used, Spells input rest used ∧ (0 < index → separator ∈ used) := by
  unfold readSeparator at read
  split at read
  · rename_i first
    obtain ⟨used, spelled⟩ := literal read
    exact ⟨used, spelled, fun later => absurd first (Nat.ne_of_gt later)⟩
  · obtain ⟨⟨_, after⟩, given, inside⟩ := Option.bind_eq_some_iff.1 read
    obtain rfl := readGivenChar_eq_some given
    obtain ⟨used, rfl, others⟩ := literal inside
    refine ⟨separator :: used, ⟨rfl, ?_⟩, fun _ => List.mem_cons_self⟩
    exact List.forall_mem_cons.2 ⟨allowed, others⟩

theorem literal_readOctets {left index : Nat} : Literal (readOctets left index) := by
  induction left generalizing index with
  | zero =>
      intro input value rest read
      cases read
      exact ⟨[], Spells.nil input⟩
  | succ left ih =>
      intro input value rest read
      obtain ⟨⟨octet, after⟩, first, others⟩ := Option.bind_eq_some_iff.1 read
      obtain ⟨⟨octets, last⟩, more, same⟩ := Option.map_eq_some_iff.1 others
      cases same
      obtain ⟨used, spelled, -⟩ :=
        spells_readSeparator (literal_readNumber (by decide)) (Or.inr (Or.inr rfl)) first
      obtain ⟨later, spelledLater⟩ := ih more
      exact ⟨used ++ later, spelled.append spelledLater⟩

theorem length_groupsOfIpv4 (octets : List Nat) : (groupsOfIpv4 octets).length ≤ 2 := by
  unfold groupsOfIpv4
  split
  · exact Nat.le_refl _
  · exact Nat.zero_le _

/-- Groups spell a colon, unless they are the first one or the address at the front. -/
theorem spells_readGroups {left index : Nat} {input rest : List Char} {groups : List Nat}
    {embedded : Bool} (read : readGroups left index input = (groups, embedded, rest)) :
    ∃ used, Spells input rest used ∧ (0 < index → groups ≠ [] → ':' ∈ used) ∧
      (2 < groups.length → ':' ∈ used) := by
  have colon : LiteralChar ':' := Or.inr (Or.inl rfl)
  induction left generalizing index input groups embedded with
  | zero =>
      cases read
      exact ⟨[], Spells.nil _, fun _ filled => absurd rfl filled, by simp⟩
  | succ left ih =>
      rw [readGroups] at read
      split at read
      · rename_i octets after address
        cases read
        split at address
        · obtain ⟨used, spelled, separated⟩ := spells_readSeparator literal_readOctets colon address
          refine ⟨used, spelled, fun later _ => separated later, fun many => ?_⟩
          exact absurd many (Nat.not_lt.2 (length_groupsOfIpv4 octets))
        · cases address
      · split at read
        · rename_i group after number
          obtain ⟨used, spelled, separated⟩ :=
            spells_readSeparator (literal_readNumber (by decide)) colon number
          cases next : readGroups left (index + 1) after with
          | mk others further =>
              obtain ⟨_, last⟩ := further
              rw [next] at read
              cases read
              obtain ⟨more, spelledMore, behind, -⟩ := ih next
              refine ⟨used ++ more, spelled.append spelledMore,
                fun later _ => List.mem_append_left _ (separated later), fun many => ?_⟩
              apply List.mem_append_right used
              apply behind (Nat.succ_pos _)
              rintro rfl
              simp at many
        · cases read
          exact ⟨[], Spells.nil _, fun _ filled => absurd rfl filled, by simp⟩

theorem spells_readIpv6 {input rest : List Char} {groups : List Nat}
    (read : readIpv6 input = some (groups, rest)) : ∃ used, Spells input rest used ∧ ':' ∈ used := by
  unfold readIpv6 at read
  cases first : readGroups 8 0 input with
  | mk head further =>
      obtain ⟨embedded, after⟩ := further
      rw [first] at read
      obtain ⟨used, spelled, -, many⟩ := spells_readGroups first
      simp only at read
      split at read
      · rename_i whole
        cases read
        exact ⟨used, spelled, many (by rw [whole]; decide)⟩
      · split at read
        · cases read
        · obtain ⟨⟨_, second⟩, given, others⟩ := Option.bind_eq_some_iff.1 read
          obtain ⟨⟨_, third⟩, again, back⟩ := Option.map_eq_some_iff.1 others
          obtain rfl := readGivenChar_eq_some given
          obtain rfl := readGivenChar_eq_some again
          cases last : readGroups (8 - (head.length + 1)) 0 third with
          | mk tail further =>
              obtain ⟨_, final⟩ := further
              rw [last] at back
              cases back
              obtain ⟨more, spelledMore, -⟩ := spells_readGroups last
              have colons : Spells (':' :: ':' :: third) third [':', ':'] :=
                ⟨rfl, by simp [LiteralChar]⟩
              refine ⟨used ++ ([':', ':'] ++ more), spelled.append (colons.append spelledMore), ?_⟩
              simp

theorem parseWith_eq_some {α : Type} {reader : Reader α} {s : String} {value : α}
    (parsed : parseWith reader s = some value) : reader s.toList = some (value, []) := by
  unfold parseWith at parsed
  split at parsed
  · rename_i read
    cases parsed
    exact read
  · cases parsed

/-- A literal is spelled in hex digits, colons and dots. -/
theorem mem_of_parseIpv6 {s : String} (parsed : (parseIpv6 s).isSome = true) :
    ∀ c ∈ s.toList, LiteralChar c := by
  obtain ⟨groups, whole⟩ := Option.isSome_iff_exists.1 parsed
  obtain ⟨used, ⟨spelled, allowed⟩, -⟩ := spells_readIpv6 (parseWith_eq_some whole)
  rw [List.append_nil] at spelled
  rw [spelled]
  exact allowed

/-- A literal has a colon. -/
theorem colon_mem_of_parseIpv6 {s : String} (parsed : (parseIpv6 s).isSome = true) :
    ':' ∈ s.toList := by
  obtain ⟨groups, whole⟩ := Option.isSome_iff_exists.1 parsed
  obtain ⟨used, ⟨spelled, -⟩, colon⟩ := spells_readIpv6 (parseWith_eq_some whole)
  rw [List.append_nil] at spelled
  rw [spelled]
  exact colon

end Foundations.NetAddr
