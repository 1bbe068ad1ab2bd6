/-
Module: MongoHa.Foundations.JsonLiterals
Layer: Foundations
Purpose: JSON strings as a body spells them, octet by octet. A reader that skips a string finds its closing
  quote and takes any octets and any escapes in it; only a reader of the string asks for UTF-8 and for
  escapes that stand for characters. A body is a list of octets, each read as the character of its number.
Imports: MongoHa.Foundations.JsonStrings, MongoHa.Foundations.RustStr
Trusted boundary: none (fully proved)
Main exports: octetText, literalBody, Literal, Literal.write, literal, Literal.read, Literal.ofString,
  literal_write, literal_append, Literal.read_ofString, IsText
Open obligations: none
-/
import MongoHa.Foundations.JsonStrings
import MongoHa.Foundations.RustStr

namespace Foundations.JsonLiterals

open Foundations.JsonStrings
open Foundations.RustStr

/-! ### Octets -/

/-- The octets of a body as characters, for the readers of its text. -/
def octetText (raw : List UInt8) : List Char := raw.map Char.ofUInt8

/-- A character that stands for an octet. -/
abbrev IsOctet (c : Char) : Prop := c.toNat < 256

theorem toUInt8_ofUInt8 (octet : UInt8) : (Char.ofUInt8 octet).toUInt8 = octet :=
  UInt8.toUInt8_toUInt32 octet

theorem isOctet_ofUInt8 (octet : UInt8) : IsOctet (Char.ofUInt8 octet) := octet.toNat_lt

theorem ofUInt8_toUInt8 {c : Char} (small : IsOctet c) : Char.ofUInt8 c.toUInt8 = c := by
  apply Char.ext
  apply UInt32.toNat_inj.1
  exact (UInt32.toNat_toUInt8 c.val).trans (Nat.mod_eq_of_lt small)

theorem map_toUInt8_octetText (raw : List UInt8) : (octetText raw).map Char.toUInt8 = raw := by
  rw [octetText, List.map_map]
  exact List.map_id'' toUInt8_ofUInt8 raw

theorem octetText_map_toUInt8 {text : List Char} (small : ∀ c ∈ text, IsOctet c) :
    octetText (text.map Char.toUInt8) = text := by
  rw [octetText, List.map_map]
  exact (List.map_congr_left fun c member => ofUInt8_toUInt8 (small c member)).trans (List.map_id text)

/-! ### Skipping a string -/

/-- What was read, behind these characters. -/
def behind (used : List Char) : Option (List Char × List Char) → Option (List Char × List Char)
  | some (body, rest) => some (used ++ body, rest)
  | none => none

/-- The rest of a string as it is spelled, up to its closing quote. Four hex digits are an escape whatever
    they stand for. -/
def literalBody : List Char → Option (List Char × List Char)
  | [] => none
  | c :: text =>
      if c = '"' then some ([], text)
      else if c = '\\' then
        match text with
        | [] => none
        | letter :: text =>
            if (shortEscape letter).isSome then behind ['\\', letter] (literalBody text)
            else if letter = 'u' then
              match text with
              | a :: b :: c :: d :: text =>
                  if (codeUnit a b c d).isSome then
                    behind ['\\', 'u', a, b, c, d] (literalBody text)
                  else none
              | _ => none
            else none
      else if c.toNat < 32 ∨ 255 < c.toNat then none
      else behind [c] (literalBody text)

theorem behind_eq_some {used body rest : List Char} {read : Option (List Char × List Char)} :
    behind used read = some (body, rest) ↔ ∃ left, read = some (left, rest) ∧ body = used ++ left := by
  cases read with
  | none => simp [behind]
  | some pair =>
      obtain ⟨left, after⟩ := pair
      simp only [behind, Option.some.injEq, Prod.mk.injEq]
      constructor
      · rintro ⟨rfl, rfl⟩
        exact ⟨left, ⟨rfl, rfl⟩, rfl⟩
      · rintro ⟨_, ⟨rfl, rfl⟩, rfl⟩
        exact ⟨rfl, rfl⟩

/-! ### The pieces of a string -/

/-- A piece of a string, plain or an escape: the reader of the string goes on behind it. -/
inductive Piece : List Char → Prop where
  | plain {c : Char} (open_ : c ≠ '"') (unescaped : c ≠ '\\') (printable : 32 ≤ c.toNat)
      (small : IsOctet c) : Piece [c]
  | short {letter : Char} (escapes : (shortEscape letter).isSome = true) : Piece ['\\', letter]
  | unicode {a b c d : Char} (escapes : (codeUnit a b c d).isSome = true) :
      Piece ['\\', 'u', a, b, c, d]

theorem literalBody_piece {used : List Char} (piece : Piece used) (text : List Char) :
    literalBody (used ++ text) = behind used (literalBody text) := by
  cases piece with
  | plain open_ unescaped printable small =>
      have kept : ¬ (_ < 32 ∨ 255 < _) :=
        not_or.2 ⟨Nat.not_lt.2 printable, Nat.not_lt.2 (Nat.le_of_lt_succ small)⟩
      rw [List.singleton_append, literalBody.eq_def]
      simp only [open_, unescaped, kept, ↓reduceIte]
  | short escapes =>
      rw [List.cons_append, List.singleton_append, literalBody.eq_def]
      simp only [Char.reduceEq, ↓reduceIte, escapes]
  | unicode escapes =>
      have letter : (shortEscape 'u').isSome = false := rfl
      simp only [List.cons_append, List.nil_append]
      rw [literalBody.eq_def]
      simp only [Char.reduceEq, ↓reduceIte, letter, Bool.false_eq_true, escapes]

/-- What may stand between the quotes of a string: pieces one after another. -/
inductive Spelled : List Char → Prop where
  | nil : Spelled []
  | cons {used rest : List Char} (piece : Piece used) (spelled : Spelled rest) : Spelled (used ++ rest)

theorem Spelled.append {before after : List Char} (first : Spelled before) (last : Spelled after) :
    Spelled (before ++ after) := by
  induction first with
  | nil => exact last
  | cons piece _ ih =>
      rw [List.append_assoc]
      exact .cons piece ih

theorem literalBody_spelled {body : List Char} (spelled : Spelled body) (rest : List Char) :
    literalBody (body ++ '"' :: rest) = some (body, rest) := by
  induction spelled with
  | nil =>
      rw [List.nil_append, literalBody.eq_def]
      simp only [↓reduceIte]
  | cons piece _ ih =>
      rw [List.append_assoc, literalBody_piece piece, ih]
      rfl

theorem spelled_behind {used text body rest : List Char} (piece : Piece used)
    (later : ∀ left, literalBody text = some (left, rest) → Spelled left ∧ text = left ++ '"' :: rest)
    (read : behind used (literalBody text) = some (body, rest)) :
    Spelled body ∧ used ++ text = body ++ '"' :: rest := by
  obtain ⟨left, inner, rfl⟩ := behind_eq_some.1 read
  obtain ⟨spelled, rfl⟩ := later left inner
  exact ⟨.cons piece spelled, (List.append_assoc ..).symm⟩

/-- What the reader takes is spelled so, and the closing quote follows it. -/
theorem spelled_of_literalBody {text body rest : List Char}
    (read : literalBody text = some (body, rest)) : Spelled body ∧ text = body ++ '"' :: rest := by
  fun_induction literalBody text generalizing body with
  | case2 text =>
      cases read
      exact ⟨.nil, rfl⟩
  | case4 letter text escapes _ ih => exact spelled_behind (.short escapes) (fun _ => ih) read
  | case5 a b c d text escapes _ _ ih => exact spelled_behind (.unicode escapes) (fun _ => ih) read
  | case10 c text open_ unescaped outside ih =>
      obtain ⟨printable, small⟩ := not_or.1 outside
      exact spelled_behind
        (.plain open_ unescaped (Nat.not_lt.1 printable) (Nat.lt_succ_of_le (Nat.not_lt.1 small)))
        (fun _ => ih) read
  | _ => cases read

/-! ### Octets only -/

theorem isOctet_of_shortEscape {c : Char} (escapes : (shortEscape c).isSome = true) : IsOctet c := by
  by_contra large
  have apart : ∀ d : Char, IsOctet d → c ≠ d := by
    rintro d small rfl
    exact large small
  simp [shortEscape, apart '"' (by decide), apart '\\' (by decide), apart '/' (by decide),
    apart 'b' (by decide), apart 'f' (by decide), apart 'n' (by decide), apart 'r' (by decide),
    apart 't' (by decide)] at escapes

theorem isOctet_of_le {c d : Char} (below : c ≤ d) (small : IsOctet d) : IsOctet c :=
  Nat.lt_of_le_of_lt (UInt32.le_iff_toNat_le.1 below) small

theorem isOctet_of_hexValue {c : Char} {value : Nat} (hex : hexValue c = some value) : IsOctet c := by
  unfold hexValue at hex
  split at hex
  · rename_i digit
    exact isOctet_of_le digit.2 (by decide)
  · split at hex
    · rename_i lower
      exact isOctet_of_le lower.2 (by decide)
    · split at hex
      · rename_i upper
        exact isOctet_of_le upper.2 (by decide)
      · cases hex

theorem isOctet_of_codeUnit {a b c d : Char} (escapes : (codeUnit a b c d).isSome = true) :
    IsOctet a ∧ IsOctet b ∧ IsOctet c ∧ IsOctet d := by
  obtain ⟨unit, read⟩ := Option.isSome_iff_exists.1 escapes
  simp only [codeUnit, Option.bind_eq_bind, Option.bind_eq_some_iff] at read
  obtain ⟨_, first, _, second, _, third, _, fourth, -⟩ := read
  exact ⟨isOctet_of_hexValue first, isOctet_of_hexValue second, isOctet_of_hexValue third,
    isOctet_of_hexValue fourth⟩

theorem Piece.isOctet {used : List Char} (piece : Piece used) : ∀ c ∈ used, IsOctet c := by
  cases piece with
  | plain open_ unescaped printable small => simpa using small
  | short escapes =>
      have letter := isOctet_of_shortEscape escapes
      simpa using letter
  | unicode escapes =>
      have digits := isOctet_of_codeUnit escapes
      simpa using digits

theorem Spelled.isOctet {text : List Char} (spelled : Spelled text) : ∀ c ∈ text, IsOctet c := by
  induction spelled with
  | nil => exact fun _ member => (List.not_mem_nil member).elim
  | cons piece _ ih =>
      intro c member
      rcases List.mem_append.1 member with here | later
      · exact piece.isOctet c here
      · exact ih c later

/-! ### Literals -/

/-- A string as its octets are spelled between the quotes. -/
structure Literal where
  octets : List Char
  spelled : Spelled octets

/-- The literal with its quotes. -/
def Literal.write (literal : Literal) : List Char :=
  '"' :: (literal.octets ++ ['"'])

/-- A literal from its opening quote. -/
def literal : List Char → Option (Literal × List Char)
  | [] => none
  | c :: text =>
      if c = '"' then
        match read : literalBody text with
        | some (body, rest) => some (⟨body, (spelled_of_literalBody read).1⟩, rest)
        | none => none
      else none

/-- The reader takes exactly the text of a literal. -/
theorem literal_eq_some {text rest : List Char} {read : Literal} :
    literal text = some (read, rest) ↔ text = read.write ++ rest := by
  constructor
  · intro found
    cases text with
    | nil => cases found
    | cons c text =>
        rw [literal] at found
        split at found
        · rename_i opened
          split at found
          · rename_i body after inner
            cases found
            have split := (spelled_of_literalBody inner).2
            change c :: text = '"' :: (body ++ ['"']) ++ rest
            rw [opened, split]
            simp
          · cases found
        · cases found
  · rintro rfl
    have inner := literalBody_spelled read.spelled rest
    have split : read.write ++ rest = '"' :: (read.octets ++ '"' :: rest) := by
      rw [Literal.write, List.cons_append, List.append_assoc]
      rfl
    rw [split, literal, if_pos rfl]
    split
    · rename_i body after found
      rw [inner] at found
      cases found
      rfl
    · rename_i missing
      rw [inner] at missing
      cases missing

/-- Reading back what was written. -/
theorem literal_write (read : Literal) (rest : List Char) :
    literal (read.write ++ rest) = some (read, rest) :=
  literal_eq_some.2 rfl

/-- A text that goes on is read the same. -/
theorem literal_append {text rest : List Char} {read : Literal} (more : List Char)
    (found : literal text = some (read, rest)) : literal (text ++ more) = some (read, rest ++ more) := by
  obtain rfl := literal_eq_some.1 found
  rw [List.append_assoc]
  exact literal_write read (rest ++ more)

theorem Literal.isOctet_write (literal : Literal) : ∀ c ∈ literal.write, IsOctet c := by
  intro c member
  simp only [Literal.write, List.mem_cons, List.mem_append, List.not_mem_nil, or_false] at member
  rcases member with rfl | inside | rfl
  · decide
  · exact literal.spelled.isOctet c inside
  · decide

/-! ### Strings -/

/-- The string a literal stands for: its octets have to be UTF-8, and its escapes characters. -/
def Literal.read (literal : Literal) : Option String := do
  let text ← fromUtf8 (literal.octets.map Char.toUInt8)
  let (body, _) ← stringBody (text.toList ++ ['"'])
  pure (String.ofList body)

theorem utf8EncodeChar_ascii {c : Char} (ascii : c.toNat < 128) :
    String.utf8EncodeChar c = [c.toUInt8] := by
  apply String.utf8EncodeChar_eq_singleton
  rw [Char.utf8Size, if_pos]
  exact UInt32.le_iff_toNat_le.2 (Nat.le_of_lt_succ ascii)

/-- The octets of an ASCII text are its characters. -/
theorem bytes_ascii {text : List Char} (ascii : ∀ c ∈ text, c.toNat < 128) :
    bytes (String.ofList text) = text.map Char.toUInt8 := by
  rw [bytes, String.toList_ofList]
  induction text with
  | nil => rfl
  | cons c text ih =>
      rw [List.forall_mem_cons] at ascii
      rw [List.flatMap_cons, utf8EncodeChar_ascii ascii.1, ih ascii.2]
      rfl

theorem octetText_ascii {text : List Char} (ascii : ∀ c ∈ text, c.toNat < 128) :
    octetText (bytes (String.ofList text)) = text := by
  rw [bytes_ascii ascii]
  exact octetText_map_toUInt8 fun c member => Nat.lt_trans (ascii c member) (by decide)

theorem large_octet {n m k : Nat} (positive : 0 < m) (high : 128 ≤ k) (bound : m + k ≤ 256) :
    128 ≤ (UInt8.ofNat (n % m + k)).toNat := by
  have small := Nat.mod_lt n positive
  rw [UInt8.toNat_ofNat_of_lt' (by simp only [UInt8.size]; omega)]
  omega

/-- No octet of a character beyond ASCII is ASCII. -/
theorem large_utf8EncodeChar {c : Char} (large : 128 ≤ c.toNat) :
    ∀ octet ∈ String.utf8EncodeChar c, 128 ≤ octet.toNat := by
  have high : ¬ c.val.toNat ≤ 0x7f := Nat.not_le.2 large
  unfold String.utf8EncodeChar
  simp only [high, ↓reduceIte]
  split
  · simp only [List.forall_mem_cons, large_octet, Nat.reduceLeDiff, Nat.reduceAdd, Nat.reduceLT, true_and]
    exact List.forall_mem_nil _
  · split
    · simp only [List.forall_mem_cons, large_octet, Nat.reduceLeDiff, Nat.reduceAdd, Nat.reduceLT, true_and]
      exact List.forall_mem_nil _
    · simp only [List.forall_mem_cons, large_octet, Nat.reduceLeDiff, Nat.reduceAdd, Nat.reduceLT, true_and]
      exact List.forall_mem_nil _

theorem spelled_plain (text : List Char)
    (plain : ∀ c ∈ text, c ≠ '"' ∧ c ≠ '\\' ∧ 32 ≤ c.toNat ∧ IsOctet c) : Spelled text := by
  induction text with
  | nil => exact .nil
  | cons c text ih =>
      rw [List.forall_mem_cons] at plain
      obtain ⟨⟨open_, unescaped, printable, small⟩, plain⟩ := plain
      exact .cons (.plain open_ unescaped printable small) (ih plain)

theorem spelled_octets {c : Char} (open_ : c ≠ '"') (unescaped : c ≠ '\\') (printable : 32 ≤ c.toNat) :
    Spelled (octetText (bytes (String.ofList [c]))) := by
  by_cases ascii : c.toNat < 128
  · rw [octetText_ascii (by simpa using ascii)]
    exact spelled_plain [c] (by simpa using ⟨open_, unescaped, printable, Nat.lt_trans ascii (by decide)⟩)
  · have encoded : bytes (String.ofList [c]) = String.utf8EncodeChar c := by
      simp [bytes]
    rw [encoded]
    refine spelled_plain _ fun d member => ?_
    obtain ⟨octet, inside, rfl⟩ := List.mem_map.1 member
    have high : 128 ≤ (Char.ofUInt8 octet).toNat :=
      large_utf8EncodeChar (Nat.le_of_not_lt ascii) octet inside
    refine ⟨?_, ?_, Nat.le_trans (by decide) high, isOctet_ofUInt8 octet⟩
    · intro quote
      rw [quote] at high
      exact absurd high (by decide)
    · intro backslash
      rw [backslash] at high
      exact absurd high (by decide)

theorem spelled_short {letter : Char} (escapes : (shortEscape letter).isSome = true)
    (ascii : letter.toNat < 128) : Spelled (octetText (bytes (String.ofList ['\\', letter]))) := by
  rw [octetText_ascii (by simpa using ascii)]
  exact .cons (.short escapes) .nil

theorem spelled_control {c : Char} (control : c.toNat < 32) :
    Spelled (octetText (bytes (String.ofList
      ['\\', 'u', '0', '0', hexDigit (c.toNat / 16), hexDigit (c.toNat % 16)]))) := by
  have digit : ∀ value < 16, (hexDigit value).toNat < 128 := by decide
  have high := digit (c.toNat / 16) (by omega)
  have low := digit (c.toNat % 16) (by omega)
  rw [octetText_ascii (by simpa using ⟨high, low⟩)]
  exact .cons (.unicode (Option.isSome_of_eq_some (codeUnit_control control))) .nil

/-- An escaped character is a piece, or the octets of the character are pieces. -/
theorem spelled_escape (c : Char) : Spelled (octetText (bytes (String.ofList (escape c)))) := by
  by_cases short : c ∈ ['"', '\\', '\x08', '\x0c', '\n', '\r', '\t']
  · fin_cases short <;> exact spelled_short rfl (by decide)
  · simp only [List.mem_cons, List.not_mem_nil, or_false, not_or] at short
    unfold escape
    simp only [short, ↓reduceIte]
    by_cases control : c.toNat < 32
    · rw [if_pos control]
      exact spelled_control control
    · rw [if_neg control]
      exact spelled_octets short.1 short.2.1 (Nat.le_of_not_lt control)

theorem spelled_escapes (cs : List Char) :
    Spelled (octetText (bytes (String.ofList (cs.flatMap escape)))) := by
  induction cs with
  | nil => exact .nil
  | cons c cs ih =>
      rw [List.flatMap_cons, String.ofList_append, bytes_append, octetText, List.map_append]
      exact (spelled_escape c).append ih

/-- A string as a serializer spells it. -/
def Literal.ofString (s : String) : Literal where
  octets := octetText (bytes (String.ofList (s.toList.flatMap escape)))
  spelled := spelled_escapes s.toList

/-- A string is read back from its spelling. -/
theorem Literal.read_ofString (s : String) : (Literal.ofString s).read = some s := by
  have body := stringBody_flatMap s.toList []
  have text : fromUtf8 ((Literal.ofString s).octets.map Char.toUInt8) =
      some (String.ofList (s.toList.flatMap escape)) := by
    rw [fromUtf8_eq_some]
    exact map_toUInt8_octetText _
  simp only [Literal.read, text, Option.bind_eq_bind, Option.bind_some, String.toList_ofList, body,
    Option.pure_def, String.ofList_toList]

/-! ### Bodies that are text -/

/-- The octets are those of a string. -/
def IsText (text : List Char) : Prop := ∃ s, text.map Char.toUInt8 = bytes s

theorem IsText.append {before after : List Char} (first : IsText before) (last : IsText after) :
    IsText (before ++ after) := by
  obtain ⟨front, encoded⟩ := first
  obtain ⟨back, encodedBack⟩ := last
  exact ⟨front ++ back, by rw [List.map_append, encoded, encodedBack, bytes_append]⟩

theorem isText_ascii {text : List Char} (ascii : ∀ c ∈ text, c.toNat < 128) : IsText text :=
  ⟨String.ofList text, (bytes_ascii ascii).symm⟩

theorem IsText.cons {c : Char} {text : List Char} (ascii : c.toNat < 128) (rest : IsText text) :
    IsText (c :: text) := by
  have first : IsText [c] := isText_ascii (by simpa using ascii)
  exact first.append rest

theorem isText_write {literal : Literal} (body : IsText literal.octets) : IsText literal.write := by
  have quote : IsText ['"'] := isText_ascii (by simp)
  exact quote.append (body.append quote)

theorem isText_ofString (s : String) : IsText (Literal.ofString s).write :=
  isText_write ⟨String.ofList (s.toList.flatMap escape), map_toUInt8_octetText _⟩

end Foundations.JsonLiterals
