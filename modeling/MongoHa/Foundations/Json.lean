/-
Module: MongoHa.Foundations.Json
Layer: Foundations
Purpose: JSON documents: the compact body a serializer writes, and a reader of the whole grammar. Numbers
  and strings are kept as they are spelled, so a reader that has no use for one takes it as it is. Reading
  back what was written gives the document again, and no proper part of the body of a document, cut at its
  end, is read as a document of its own, numbers apart: a reader that succeeds on a text reads the same
  value from every continuation of it.
Imports: Mathlib.Data.List.TakeWhile, MongoHa.Foundations.JsonLiterals
Trusted boundary: none (fully proved)
Main exports: Number, Json, Json.write, Json.body, value, Json.fromBody, fromBody_body,
  fromBody_of_strict_prefix, Json.ofString, Json.ofFields, lookup, structFields
Open obligations: none
-/
import Mathlib.Data.List.TakeWhile
import MongoHa.Foundations.JsonLiterals

namespace Foundations.JsonDocuments

open Foundations.JsonStrings
open Foundations.JsonLiterals

/-! ### Numbers -/

/-- What follows the digits of a text; at least one has to be there. -/
def digits : List Char → Option (List Char)
  | [] => none
  | c :: rest => if c.isDigit then some (rest.dropWhile Char.isDigit) else none

/-- A leading zero stands alone. -/
def integerPart : List Char → Option (List Char)
  | [] => none
  | c :: rest => if c = '0' then some rest else digits (c :: rest)

def fractionPart : List Char → Option (List Char)
  | [] => some []
  | c :: rest => if c = '.' then digits rest else some (c :: rest)

def dropSign : List Char → List Char
  | [] => []
  | c :: rest => if c = '+' ∨ c = '-' then rest else c :: rest

def exponentPart : List Char → Option (List Char)
  | [] => some []
  | c :: rest => if c = 'e' ∨ c = 'E' then digits (dropSign rest) else some (c :: rest)

def isNumber (text : List Char) : Bool :=
  match text with
  | [] => false
  | c :: rest =>
      let unsigned := if c = '-' then rest else c :: rest
      (((integerPart unsigned).bind fractionPart).bind exponentPart) == some []

/-- A character that may stand in a number. -/
def isNumberChar (c : Char) : Bool :=
  c.isDigit || c = '-' || c = '+' || c = '.' || c = 'e' || c = 'E'

/-- A number as it is spelled. -/
structure Number where
  text : List Char
  spelled : isNumber text = true
deriving DecidableEq

/-! ### Documents -/

/-- A document as a tree. Fields keep the order they are written in. -/
inductive Json where
  | null
  | bool (value : Bool)
  | number (value : Number)
  | string (value : Literal)
  | array (elements : List Json)
  | object (fields : List (Literal × Json))

instance : Inhabited Json := ⟨.null⟩

mutual

/-- The compact text of a document. -/
def Json.write : Json → List Char
  | .null => ['n', 'u', 'l', 'l']
  | .bool true => ['t', 'r', 'u', 'e']
  | .bool false => ['f', 'a', 'l', 's', 'e']
  | .number value => value.text
  | .string value => value.write
  | .array [] => ['[', ']']
  | .array (first :: others) => '[' :: (first.write ++ writeElements others)
  | .object [] => ['{', '}']
  | .object ((key, first) :: others) =>
      '{' :: (key.write ++ ':' :: (first.write ++ writeMembers others))

/-- The elements after the first one, with the closing bracket. -/
def writeElements : List Json → List Char
  | [] => [']']
  | next :: others => ',' :: (next.write ++ writeElements others)

def writeMembers : List (Literal × Json) → List Char
  | [] => ['}']
  | (key, next) :: others => ',' :: (key.write ++ ':' :: (next.write ++ writeMembers others))

end

/-- The compact text as octets. -/
def Json.body (document : Json) : List UInt8 :=
  document.write.map Char.toUInt8

/-! ### Reading -/

def number (text : List Char) : Option (Json × List Char) :=
  if spelled : isNumber (text.takeWhile isNumberChar) = true then
    some (.number { text := text.takeWhile isNumberChar, spelled := spelled },
      text.dropWhile isNumberChar)
  else none

/-- What follows these characters, which have to stand next. -/
def expect : List Char → List Char → Option (List Char)
  | [], text => some text
  | c :: wanted, d :: text => if c = d then expect wanted text else none
  | _ :: _, [] => none

mutual

/-- A value, after white space. -/
def value : Nat → List Char → Option (Json × List Char)
  | 0, _ => none
  | fuel + 1, text =>
      match skipBlanks text with
      | [] => none
      | c :: text =>
          if c = '"' then do
            let (read, rest) ← literal (c :: text)
            pure (.string read, rest)
          else if c = '[' then
            match skipBlanks text with
            | [] => none
            | d :: rest =>
                if d = ']' then some (.array [], rest)
                else do
                  let (first, text) ← value fuel text
                  let (others, rest) ← moreElements fuel text
                  pure (.array (first :: others), rest)
          else if c = '{' then
            match skipBlanks text with
            | [] => none
            | d :: rest =>
                if d = '}' then some (.object [], rest)
                else do
                  let (first, text) ← member fuel text
                  let (others, rest) ← moreMembers fuel text
                  pure (.object (first :: others), rest)
          else if c = 'n' then do
            let rest ← expect ['u', 'l', 'l'] text
            pure (.null, rest)
          else if c = 't' then do
            let rest ← expect ['r', 'u', 'e'] text
            pure (.bool true, rest)
          else if c = 'f' then do
            let rest ← expect ['a', 'l', 's', 'e'] text
            pure (.bool false, rest)
          else number (c :: text)

/-- What follows an element, up to the closing bracket. -/
def moreElements : Nat → List Char → Option (List Json × List Char)
  | 0, _ => none
  | fuel + 1, text =>
      match skipBlanks text with
      | [] => none
      | c :: text =>
          if c = ',' then do
            let (next, text) ← value fuel text
            let (others, rest) ← moreElements fuel text
            pure (next :: others, rest)
          else if c = ']' then some ([], text)
          else none

def member : Nat → List Char → Option ((Literal × Json) × List Char)
  | 0, _ => none
  | fuel + 1, text => do
      let (key, text) ← literal (skipBlanks text)
      match skipBlanks text with
      | [] => none
      | c :: text =>
          if c = ':' then do
            let (read, rest) ← value fuel text
            pure ((key, read), rest)
          else none

/-- What follows a member, up to the closing brace. -/
def moreMembers : Nat → List Char → Option (List (Literal × Json) × List Char)
  | 0, _ => none
  | fuel + 1, text =>
      match skipBlanks text with
      | [] => none
      | c :: text =>
          if c = ',' then do
            let (next, text) ← member fuel text
            let (others, rest) ← moreMembers fuel text
            pure (next :: others, rest)
          else if c = '}' then some ([], text)
          else none

end

/-- The document of a body that is one document and white space. Every call reads a character at least, so
    the length of the body is fuel enough. -/
def Json.fromBody (raw : List UInt8) : Option Json :=
  match value (raw.length + 1) (octetText raw) with
  | none => none
  | some (document, rest) => if skipBlanks rest = [] then some document else none

/-! ### Numbers as they are read -/

theorem isNumberChar_of_isDigit {c : Char} (digit : c.isDigit = true) : isNumberChar c = true := by
  simp [isNumberChar, digit]

/-- What a part of a number leaves is the end of what it was given, and what it takes is of number
    characters. -/
def Takes (part : List Char → Option (List Char)) : Prop :=
  ∀ text rest, part text = some rest →
    ∃ used, text = used ++ rest ∧ ∀ c ∈ used, isNumberChar c = true

theorem takes_digits : Takes digits := by
  intro text rest read
  cases text with
  | nil => cases read
  | cons c text =>
      simp only [digits, Option.ite_none_right_eq_some, Option.some.injEq] at read
      obtain ⟨digit, rfl⟩ := read
      refine ⟨c :: text.takeWhile Char.isDigit, ?_, ?_⟩
      · rw [List.cons_append, List.takeWhile_append_dropWhile]
      · intro d member
        rcases List.mem_cons.1 member with rfl | inside
        · exact isNumberChar_of_isDigit digit
        · exact isNumberChar_of_isDigit (List.mem_takeWhile_imp inside)

theorem Takes.cons {part : List Char → Option (List Char)} (takes : Takes part) {c : Char}
    {text rest : List Char} (numeric : isNumberChar c = true) (read : part text = some rest) :
    ∃ used, c :: text = used ++ rest ∧ ∀ d ∈ used, isNumberChar d = true := by
  obtain ⟨used, rfl, all⟩ := takes text rest read
  exact ⟨c :: used, rfl, List.forall_mem_cons.2 ⟨numeric, all⟩⟩

theorem takes_integerPart : Takes integerPart := by
  intro text rest read
  cases text with
  | nil => cases read
  | cons c text =>
      simp only [integerPart] at read
      split at read
      · rename_i zero
        subst zero
        cases read
        refine ⟨['0'], rfl, fun c member => ?_⟩
        rw [List.mem_singleton.1 member]
        rfl
      · exact takes_digits _ _ read

theorem takes_fractionPart : Takes fractionPart := by
  intro text rest read
  cases text with
  | nil =>
      cases read
      exact ⟨[], rfl, by simp⟩
  | cons c text =>
      simp only [fractionPart] at read
      split at read
      · rename_i point
        subst point
        exact takes_digits.cons (by decide) read
      · cases read
        exact ⟨[], rfl, by simp⟩

theorem takes_exponentPart : Takes exponentPart := by
  intro text rest read
  cases text with
  | nil =>
      cases read
      exact ⟨[], rfl, by simp⟩
  | cons c text =>
      simp only [exponentPart] at read
      split at read
      · rename_i letter
        have numeric : isNumberChar c = true := by
          rcases letter with rfl | rfl <;> decide
        cases text with
        | nil => cases read
        | cons sign text =>
            simp only [dropSign] at read
            split at read
            · rename_i signed
              have numericSign : isNumberChar sign = true := by
                rcases signed with rfl | rfl <;> decide
              obtain ⟨used, split, all⟩ := takes_digits.cons numericSign read
              exact ⟨c :: used, by rw [split]; rfl, List.forall_mem_cons.2 ⟨numeric, all⟩⟩
            · exact takes_digits.cons numeric read
      · cases read
        exact ⟨[], rfl, by simp⟩

/-- A number is spelled in number characters. -/
theorem numeric_of_isNumber {text : List Char} (spelled : isNumber text = true) :
    text ≠ [] ∧ ∀ c ∈ text, isNumberChar c = true := by
  cases text with
  | nil => cases spelled
  | cons c text =>
      refine ⟨List.cons_ne_nil _ _, ?_⟩
      have parts : ∀ unsigned,
          (((integerPart unsigned).bind fractionPart).bind exponentPart) = some [] →
            ∀ d ∈ unsigned, isNumberChar d = true := by
        intro unsigned read
        obtain ⟨afterFraction, first, last⟩ := Option.bind_eq_some_iff.1 read
        obtain ⟨afterInteger, integer, fraction⟩ := Option.bind_eq_some_iff.1 first
        obtain ⟨used, rfl, all⟩ := takes_integerPart _ _ integer
        obtain ⟨usedFraction, rfl, allFraction⟩ := takes_fractionPart _ _ fraction
        obtain ⟨usedExponent, rfl, allExponent⟩ := takes_exponentPart _ _ last
        simp only [List.append_nil, List.mem_append]
        rintro d (inside | inside | inside)
        · exact all d inside
        · exact allFraction d inside
        · exact allExponent d inside
      have read := eq_of_beq spelled
      split at read
      · rename_i minus
        subst minus
        exact List.forall_mem_cons.2 ⟨by decide, parts _ read⟩
      · exact parts _ read

/-- What follows a number does not go on with it. -/
def Ended (rest : List Char) : Prop :=
  rest.takeWhile isNumberChar = []

theorem ended_cons {c : Char} {rest : List Char} (other : isNumberChar c = false) :
    Ended (c :: rest) := by
  simp [Ended, other]

theorem number_text (read : Number) {rest : List Char} (ended : Ended rest) :
    number (read.text ++ rest) = some (.number read, rest) := by
  have numeric := (numeric_of_isNumber read.spelled).2
  have taken : (read.text ++ rest).takeWhile isNumberChar = read.text := by
    rw [List.takeWhile_append_of_pos numeric, ended, List.append_nil]
  have left : (read.text ++ rest).dropWhile isNumberChar = rest := by
    have whole := List.takeWhile_append_dropWhile (p := isNumberChar) (l := read.text ++ rest)
    rw [taken] at whole
    exact List.append_cancel_left whole
  unfold number
  simp only [taken, left, read.spelled, ↓reduceDIte]

/-! ### Reading back what was written -/

theorem skipBlanks_cons {c : Char} (visible : isBlank c = false) (text : List Char) :
    skipBlanks (c :: text) = c :: text := by
  rw [skipBlanks, List.dropWhile_cons, visible]
  rfl

theorem ne_of_isNumberChar {c d : Char} (numeric : isNumberChar c = true)
    (other : isNumberChar d = false) : c ≠ d := by
  rintro rfl
  rw [numeric] at other
  cases other

theorem value_numeric {c : Char} (numeric : isNumberChar c = true) (fuel : Nat) (text : List Char) :
    value (fuel + 1) (c :: text) = number (c :: text) := by
  have apart : ∀ d, isNumberChar d = false → c ≠ d := fun d => ne_of_isNumberChar numeric
  have visible : isBlank c = false := by
    simp [isBlank, apart ' ' (by decide), apart '\t' (by decide), apart '\n' (by decide),
      apart '\r' (by decide)]
  rw [value, skipBlanks_cons visible]
  simp only [apart '"' (by decide), apart '[' (by decide), apart '\x7b' (by decide),
    apart 'n' (by decide), apart 't' (by decide), apart 'f' (by decide), ↓reduceIte]

theorem write_literal (read : Literal) : ∃ text, read.write = '"' :: text := ⟨_, rfl⟩

theorem value_string (read : Literal) (fuel : Nat) (rest : List Char) :
    value (fuel + 1) (read.write ++ rest) = some (.string read, rest) := by
  obtain ⟨text, opened⟩ := write_literal read
  have whole := literal_write read rest
  rw [opened, List.cons_append] at whole
  rw [opened, List.cons_append, value, skipBlanks_cons (by decide)]
  simp only [↓reduceIte, whole, Option.bind_eq_bind, Option.bind_some, Option.pure_def]

theorem skipBlanks_literal (read : Literal) (rest : List Char) :
    skipBlanks (read.write ++ rest) = read.write ++ rest := by
  obtain ⟨text, opened⟩ := write_literal read
  rw [opened, List.cons_append, skipBlanks_cons (by decide)]

theorem ended_writeElements (others : List Json) (rest : List Char) :
    Ended (writeElements others ++ rest) := by
  cases others with
  | nil => exact ended_cons (by decide)
  | cons next others => exact ended_cons (by decide)

theorem ended_writeMembers (others : List (Literal × Json)) (rest : List Char) :
    Ended (writeMembers others ++ rest) := by
  cases others with
  | nil => exact ended_cons (by decide)
  | cons next others => exact ended_cons (by decide)

/-- What a document starts with. -/
theorem write_cons (document : Json) :
    ∃ c text, document.write = c :: text ∧ isBlank c = false ∧ c ≠ ']' ∧ c ≠ '\x7d' := by
  match document with
  | .null | .bool true | .bool false => exact ⟨_, _, rfl, by decide, by decide, by decide⟩
  | .string _ => exact ⟨_, _, rfl, by decide, by decide, by decide⟩
  | .array [] | .array (_ :: _) => exact ⟨_, _, rfl, by decide, by decide, by decide⟩
  | .object [] | .object ((_, _) :: _) => exact ⟨_, _, rfl, by decide, by decide, by decide⟩
  | .number read =>
      obtain ⟨filled, numeric⟩ := numeric_of_isNumber read.spelled
      cases text : read.text with
      | nil => exact absurd text filled
      | cons c rest =>
          have first : isNumberChar c = true := numeric c (by rw [text]; exact List.mem_cons_self)
          have apart : ∀ d, isNumberChar d = false → c ≠ d := fun d => ne_of_isNumberChar first
          refine ⟨c, rest, by rw [Json.write, text], ?_, apart _ (by decide), apart _ (by decide)⟩
          simp [isBlank, apart ' ' (by decide), apart '\t' (by decide), apart '\n' (by decide),
            apart '\r' (by decide)]

/-- A member is read where its value is. -/
theorem member_write (key : Literal) {read : Json} {fuel : Nat} {rest : List Char}
    (body : value fuel (read.write ++ rest) = some (read, rest)) :
    member (fuel + 1) (key.write ++ ':' :: (read.write ++ rest)) = some ((key, read), rest) := by
  rw [member, skipBlanks_literal, literal_write]
  simp only [Option.bind_eq_bind, Option.bind_some, @skipBlanks_cons ':' (by decide), body,
    ↓reduceIte, Option.pure_def]

mutual

theorem value_write (document : Json) {fuel : Nat} {rest : List Char}
    (enough : document.write.length ≤ fuel) (ended : Ended rest) :
    value fuel (document.write ++ rest) = some (document, rest) := by
  cases fuel with
  | zero =>
      obtain ⟨c, text, written, -⟩ := write_cons document
      rw [written] at enough
      cases enough
  | succ fuel =>
      match document with
      | .null => rfl
      | .bool true => rfl
      | .bool false => rfl
      | .string s => exact value_string s fuel rest
      | .number read =>
          obtain ⟨filled, numeric⟩ := numeric_of_isNumber read.spelled
          have whole := number_text read ended
          rw [Json.write]
          cases text : read.text with
          | nil => exact absurd text filled
          | cons c text =>
              rw [text] at numeric whole
              rw [List.cons_append, value_numeric (numeric c List.mem_cons_self)]
              exact whole
      | .array [] => rfl
      | .array (first :: others) =>
          rw [Json.write, List.length_cons, List.length_append] at enough
          have head := @value_write first fuel (writeElements others ++ rest) (by omega)
            (ended_writeElements others rest)
          have tail := @moreElements_write others fuel rest (by omega)
          obtain ⟨c, text, written, visible, open_, -⟩ := write_cons first
          rw [Json.write, List.cons_append, List.append_assoc, value, skipBlanks_cons (by decide)]
          rw [written, List.cons_append] at head
          simp only [Char.reduceEq, ↓reduceIte, written, List.cons_append, skipBlanks_cons visible, open_,
            head, tail, Option.bind_eq_bind, Option.bind_some, Option.pure_def]
      | .object [] => rfl
      | .object ((key, first) :: others) =>
          rw [Json.write, List.length_cons, List.length_append, List.length_cons,
            List.length_append] at enough
          cases fuel with
          | zero => omega
          | succ fuel =>
              have head := member_write key (@value_write first fuel (writeMembers others ++ rest)
                (by omega) (ended_writeMembers others rest))
              have tail := @moreMembers_write others (fuel + 1) rest (by omega)
              obtain ⟨text, opened⟩ := write_literal key
              rw [Json.write, List.cons_append, List.append_assoc, List.cons_append,
                List.append_assoc, value, skipBlanks_cons (by decide)]
              rw [opened, List.cons_append] at head ⊢
              simp only [Char.reduceEq, ↓reduceIte, @skipBlanks_cons '"' (by decide), head, tail,
                Option.bind_eq_bind, Option.bind_some, Option.pure_def]

theorem moreElements_write (others : List Json) {fuel : Nat} {rest : List Char}
    (enough : (writeElements others).length ≤ fuel) :
    moreElements fuel (writeElements others ++ rest) = some (others, rest) := by
  match others with
  | [] =>
      cases fuel with
      | zero => cases enough
      | succ fuel => rfl
  | next :: others =>
      cases fuel with
      | zero => cases enough
      | succ fuel =>
          rw [writeElements, List.length_cons, List.length_append] at enough
          have head := @value_write next fuel (writeElements others ++ rest) (by omega)
            (ended_writeElements others rest)
          have tail := @moreElements_write others fuel rest (by omega)
          rw [writeElements, List.cons_append, List.append_assoc, moreElements,
            skipBlanks_cons (by decide)]
          simp only [↓reduceIte, head, tail, Option.bind_eq_bind, Option.bind_some, Option.pure_def]

theorem moreMembers_write (others : List (Literal × Json)) {fuel : Nat} {rest : List Char}
    (enough : (writeMembers others).length ≤ fuel) :
    moreMembers fuel (writeMembers others ++ rest) = some (others, rest) := by
  match others with
  | [] =>
      cases fuel with
      | zero => cases enough
      | succ fuel => rfl
  | (key, next) :: others =>
      cases fuel with
      | zero => cases enough
      | succ fuel =>
          rw [writeMembers, List.length_cons, List.length_append, List.length_cons,
            List.length_append] at enough
          cases fuel with
          | zero => omega
          | succ fuel =>
              have head := member_write key (@value_write next fuel (writeMembers others ++ rest)
                (by omega) (ended_writeMembers others rest))
              have tail := @moreMembers_write others (fuel + 1) rest (by omega)
              rw [writeMembers, List.cons_append, List.append_assoc, List.cons_append,
                List.append_assoc, moreMembers, skipBlanks_cons (by decide)]
              simp only [↓reduceIte, head, tail, Option.bind_eq_bind, Option.bind_some, Option.pure_def]

end

/-! ### Octets only -/

theorem isOctet_of_isNumberChar {c : Char} (numeric : isNumberChar c = true) : IsOctet c := by
  simp only [isNumberChar, Char.isDigit, Bool.or_eq_true, Bool.and_eq_true, decide_eq_true_eq] at numeric
  rcases numeric with ((((digit | rfl) | rfl) | rfl) | rfl) | rfl
  · exact Nat.lt_of_le_of_lt (UInt32.le_iff_toNat_le.1 digit.2) (by decide)
  all_goals decide

mutual

theorem Json.isOctet_write (document : Json) : ∀ c ∈ document.write, IsOctet c := by
  match document with
  | .null | .bool true | .bool false => simp [Json.write]
  | .number read =>
      exact fun c member => isOctet_of_isNumberChar ((numeric_of_isNumber read.spelled).2 c member)
  | .string read => exact read.isOctet_write
  | .array [] => simp [Json.write]
  | .array (first :: others) =>
      have head := first.isOctet_write
      have tail := isOctet_writeElements others
      simp only [Json.write, List.forall_mem_cons, List.forall_mem_append]
      exact ⟨by decide, head, tail⟩
  | .object [] => simp [Json.write]
  | .object ((key, first) :: others) =>
      have head := first.isOctet_write
      have tail := isOctet_writeMembers others
      simp only [Json.write, List.forall_mem_cons, List.forall_mem_append]
      exact ⟨by decide, key.isOctet_write, by decide, head, tail⟩

theorem isOctet_writeElements (others : List Json) : ∀ c ∈ writeElements others, IsOctet c := by
  match others with
  | [] => simp [writeElements]
  | next :: others =>
      have head := next.isOctet_write
      have tail := isOctet_writeElements others
      simp only [writeElements, List.forall_mem_cons, List.forall_mem_append]
      exact ⟨by decide, head, tail⟩

theorem isOctet_writeMembers (others : List (Literal × Json)) :
    ∀ c ∈ writeMembers others, IsOctet c := by
  match others with
  | [] => simp [writeMembers]
  | (key, next) :: others =>
      have head := next.isOctet_write
      have tail := isOctet_writeMembers others
      simp only [writeMembers, List.forall_mem_cons, List.forall_mem_append]
      exact ⟨by decide, key.isOctet_write, by decide, head, tail⟩

end

theorem Json.octetText_body (document : Json) : octetText document.body = document.write :=
  octetText_map_toUInt8 document.isOctet_write

/-- Reading back what was written gives the document. -/
theorem Json.fromBody_body (document : Json) : Json.fromBody document.body = some document := by
  have enough : document.write.length ≤ document.body.length + 1 := by
    rw [Json.body, List.length_map]
    omega
  have read := @value_write document _ [] enough rfl
  rw [List.append_nil] at read
  unfold Json.fromBody
  rw [document.octetText_body, read]
  rfl

/-! ### A text that goes on -/

theorem skipBlanks_append {text rest : List Char} {c : Char} (more : List Char)
    (read : skipBlanks text = c :: rest) : skipBlanks (text ++ more) = c :: (rest ++ more) := by
  induction text with
  | nil => cases read
  | cons d text ih =>
      rw [skipBlanks, List.dropWhile_cons] at read
      rw [List.cons_append, skipBlanks, List.dropWhile_cons]
      split at read
      · rename_i blank
        rw [if_pos blank]
        exact ih read
      · rename_i visible
        cases read
        rw [if_neg visible]

theorem expect_append {wanted text rest : List Char} (more : List Char)
    (read : expect wanted text = some rest) : expect wanted (text ++ more) = some (rest ++ more) := by
  induction wanted generalizing text with
  | nil =>
      cases read
      rfl
  | cons c wanted ih =>
      cases text with
      | nil => cases read
      | cons d text =>
          simp only [expect, Option.ite_none_right_eq_some] at read
          rw [List.cons_append, expect, if_pos read.1]
          exact ih read.2

/-- A number that something follows is read the same however the text goes on. -/
theorem number_append {text rest : List Char} {read : Json} (more : List Char)
    (whole : number text = some (read, rest)) (followed : rest ≠ []) :
    number (text ++ more) = some (read, rest ++ more) := by
  unfold number at whole
  split at whole
  · rename_i spelled
    cases whole
    have left : text.takeWhile isNumberChar ++ text.dropWhile isNumberChar = text :=
      List.takeWhile_append_dropWhile
    have ended : Ended (text.dropWhile isNumberChar ++ more) := by
      cases rest : text.dropWhile isNumberChar with
      | nil => exact absurd rest followed
      | cons c after =>
          have other := @List.head_dropWhile_not _ isNumberChar text (by rw [rest]; simp)
          simp only [rest, List.head_cons] at other
          exact ended_cons other
    have again := number_text { text := text.takeWhile isNumberChar, spelled := spelled } ended
    rw [← List.append_assoc, left] at again
    exact again
  · cases whole

/-- Its text shows where the document ends. -/
def Json.closed : Json → Bool
  | .number _ => false
  | _ => true

/-- What one reader reads of a text, the other reads of every text that goes on from it. -/
def Continues {α : Type} (ends : α → List Char → Prop)
    (small large : List Char → Option (α × List Char)) : Prop :=
  ∀ {text read rest}, small text = some (read, rest) → ends read rest →
    ∀ more, large (text ++ more) = some (read, rest ++ more)

def anyEnd {α : Type} (_ : α) (_ : List Char) : Prop := True

def valueEnd (read : Json) (rest : List Char) : Prop :=
  rest ≠ [] ∨ read.closed = true

/-- Each of the four readers reads on from a longer text, with this fuel and with that. -/
structure FuelContinues (small large : Nat) : Prop where
  value : Continues valueEnd (value small) (value large)
  moreElements : Continues anyEnd (moreElements small) (moreElements large)
  member : Continues (fun read rest => valueEnd read.2 rest) (member small) (member large)
  moreMembers : Continues anyEnd (moreMembers small) (moreMembers large)

theorem ne_nil_of_moreElements {fuel : Nat} {text rest : List Char} {read : List Json}
    (found : moreElements fuel text = some (read, rest)) : text ≠ [] := by
  rintro rfl
  cases fuel with
  | zero => cases found
  | succ fuel => cases found

theorem ne_nil_of_moreMembers {fuel : Nat} {text rest : List Char} {read : List (Literal × Json)}
    (found : moreMembers fuel text = some (read, rest)) : text ≠ [] := by
  rintro rfl
  cases fuel with
  | zero => cases found
  | succ fuel => cases found

/-- One part of a text after another. -/
theorem Continues.then {α β γ : Type} {endsFirst : α → List Char → Prop}
    {ends : β → List Char → Prop} {first firstLarge : List Char → Option (α × List Char)}
    {second secondLarge : List Char → Option (β × List Char)} {text rest : List Char} {whole : γ}
    (build : α → β → γ) (continuesFirst : Continues endsFirst first firstLarge)
    (continuesSecond : Continues ends second secondLarge)
    (found : (do
      let a ← first text
      let b ← second a.2
      pure (build a.1 b.1, b.2)) = some (whole, rest))
    (firstEnds : ∀ a b text, second text = some (b, rest) → endsFirst a text)
    (ended : ∀ b, ends b rest) (more : List Char) :
    (do
      let a ← firstLarge (text ++ more)
      let b ← secondLarge a.2
      pure (build a.1 b.1, b.2)) = some (whole, rest ++ more) := by
  obtain ⟨⟨a, between⟩, readFirst, foundRest⟩ := Option.bind_eq_some_iff.1 found
  obtain ⟨⟨b, after⟩, readSecond, same⟩ := Option.bind_eq_some_iff.1 foundRest
  cases same
  rw [continuesFirst readFirst (firstEnds a b between readSecond) more]
  simp only [Option.bind_eq_bind, Option.bind_some]
  rw [continuesSecond readSecond (ended b) more]
  rfl

section Continues

variable {small large : Nat} (continues : FuelContinues small large)
include continues

theorem continues_value : Continues valueEnd (value (small + 1)) (value (large + 1)) := by
  intro text read rest found ended more
  rw [value] at found ⊢
  cases start : skipBlanks text with
  | nil =>
      rw [start] at found
      cases found
  | cons c tail =>
      rw [start] at found
      rw [skipBlanks_append more start]
      dsimp only at found ⊢
      by_cases quoted : c = '"'
      · rw [if_pos quoted] at found ⊢
        obtain ⟨⟨key, after⟩, inner, same⟩ := Option.bind_eq_some_iff.1 found
        cases same
        rw [← List.cons_append, literal_append more inner]
        rfl
      rw [if_neg quoted] at found ⊢
      by_cases array : c = '['
      · rw [if_pos array] at found ⊢
        cases inside : skipBlanks tail with
        | nil =>
            rw [inside] at found
            cases found
        | cons d after =>
            rw [inside] at found
            rw [skipBlanks_append more inside]
            dsimp only at found ⊢
            split at found
            · rename_i empty
              cases found
              rw [if_pos empty]
            · rename_i filled
              rw [if_neg filled]
              exact Continues.then (fun first others => Json.array (first :: others))
                continues.value continues.moreElements found
                (fun _ _ _ tailRead => Or.inl (ne_nil_of_moreElements tailRead))
                (fun _ => trivial) more
      rw [if_neg array] at found ⊢
      by_cases object : c = '\x7b'
      · rw [if_pos object] at found ⊢
        cases inside : skipBlanks tail with
        | nil =>
            rw [inside] at found
            cases found
        | cons d after =>
            rw [inside] at found
            rw [skipBlanks_append more inside]
            dsimp only at found ⊢
            split at found
            · rename_i empty
              cases found
              rw [if_pos empty]
            · rename_i filled
              rw [if_neg filled]
              exact Continues.then (fun first others => Json.object (first :: others))
                continues.member continues.moreMembers found
                (fun _ _ _ tailRead => Or.inl (ne_nil_of_moreMembers tailRead))
                (fun _ => trivial) more
      rw [if_neg object] at found ⊢
      by_cases isNull : c = 'n'
      · rw [if_pos isNull] at found ⊢
        obtain ⟨after, inner, same⟩ := Option.bind_eq_some_iff.1 found
        cases same
        rw [expect_append more inner]
        rfl
      rw [if_neg isNull] at found ⊢
      by_cases isTrue : c = 't'
      · rw [if_pos isTrue] at found ⊢
        obtain ⟨after, inner, same⟩ := Option.bind_eq_some_iff.1 found
        cases same
        rw [expect_append more inner]
        rfl
      rw [if_neg isTrue] at found ⊢
      by_cases isFalse : c = 'f'
      · rw [if_pos isFalse] at found ⊢
        obtain ⟨after, inner, same⟩ := Option.bind_eq_some_iff.1 found
        cases same
        rw [expect_append more inner]
        rfl
      rw [if_neg isFalse] at found ⊢
      refine number_append more found ?_
      rcases ended with followed | closed
      · exact followed
      · unfold number at found
        split at found
        · cases found
          cases closed
        · cases found

theorem continues_moreElements :
    Continues anyEnd (moreElements (small + 1)) (moreElements (large + 1)) := by
  intro text read rest found _ more
  rw [moreElements] at found ⊢
  cases start : skipBlanks text with
  | nil =>
      rw [start] at found
      cases found
  | cons c tail =>
      rw [start] at found
      rw [skipBlanks_append more start]
      dsimp only at found ⊢
      split at found
      · rename_i comma
        rw [if_pos comma]
        exact Continues.then List.cons continues.value continues.moreElements found
          (fun _ _ _ tailRead => Or.inl (ne_nil_of_moreElements tailRead)) (fun _ => trivial) more
      · rename_i other
        rw [if_neg other]
        split at found
        · rename_i closes
          cases found
          rw [if_pos closes]
        · cases found

theorem continues_moreMembers :
    Continues anyEnd (moreMembers (small + 1)) (moreMembers (large + 1)) := by
  intro text read rest found _ more
  rw [moreMembers] at found ⊢
  cases start : skipBlanks text with
  | nil =>
      rw [start] at found
      cases found
  | cons c tail =>
      rw [start] at found
      rw [skipBlanks_append more start]
      dsimp only at found ⊢
      split at found
      · rename_i comma
        rw [if_pos comma]
        exact Continues.then List.cons continues.member continues.moreMembers found
          (fun _ _ _ tailRead => Or.inl (ne_nil_of_moreMembers tailRead)) (fun _ => trivial) more
      · rename_i other
        rw [if_neg other]
        split at found
        · rename_i closes
          cases found
          rw [if_pos closes]
        · cases found

theorem continues_member :
    Continues (fun read rest => valueEnd read.2 rest) (member (small + 1)) (member (large + 1)) := by
  intro text read rest found ended more
  rw [member] at found ⊢
  obtain ⟨⟨key, after⟩, keyRead, found⟩ := Option.bind_eq_some_iff.1 found
  dsimp only at found
  have blanks : ∃ c tail, skipBlanks text = c :: tail := by
    cases start : skipBlanks text with
    | nil =>
        rw [start] at keyRead
        cases keyRead
    | cons c tail => exact ⟨c, tail, rfl⟩
  obtain ⟨c, tail, start⟩ := blanks
  rw [start] at keyRead
  rw [skipBlanks_append more start, ← List.cons_append, literal_append more keyRead]
  simp only [Option.bind_eq_bind, Option.bind_some]
  cases colon : skipBlanks after with
  | nil =>
      rw [colon] at found
      cases found
  | cons d tail =>
      rw [colon] at found
      rw [skipBlanks_append more colon]
      dsimp only at found ⊢
      split at found
      · rename_i isColon
        obtain ⟨⟨read, rest⟩, valueRead, same⟩ := Option.bind_eq_some_iff.1 found
        cases same
        rw [if_pos isColon, continues.value valueRead ended more]
        rfl
      · cases found

end Continues

theorem fuelContinues {small large : Nat} (enough : small ≤ large) : FuelContinues small large := by
  induction small generalizing large with
  | zero => exact ⟨nofun, nofun, nofun, nofun⟩
  | succ small ih =>
      cases large with
      | zero => cases enough
      | succ large =>
          have inner := ih (Nat.le_of_succ_le_succ enough)
          exact ⟨continues_value inner, continues_moreElements inner, continues_member inner,
            continues_moreMembers inner⟩

/-- A number starts as one. -/
theorem numeric_of_value {fuel : Nat} {text rest : List Char} {read : Number}
    (found : value fuel text = some (.number read, rest)) :
    ∃ c tail, skipBlanks text = c :: tail ∧ isNumberChar c = true := by
  cases fuel with
  | zero => cases found
  | succ fuel =>
      rw [value] at found
      cases start : skipBlanks text with
      | nil =>
          rw [start] at found
          cases found
      | cons c tail =>
          rw [start] at found
          dsimp only at found
          refine ⟨c, tail, rfl, ?_⟩
          have numeric : number (c :: tail) = some (.number read, rest) → isNumberChar c = true := by
            intro spelled
            by_contra other
            rw [Bool.not_eq_true] at other
            simp [number, other, isNumber] at spelled
          have fixed : ∀ (wanted : List Char) (document : Json), document.closed = true →
              (do
                let rest ← expect wanted tail
                pure (document, rest)) ≠ some (.number read, rest) := by
            intro wanted document closed same
            obtain ⟨_, -, same⟩ := Option.bind_eq_some_iff.1 same
            cases same
            cases closed
          split at found
          · obtain ⟨_, -, same⟩ := Option.bind_eq_some_iff.1 found
            cases same
          split at found
          · split at found
            · cases found
            · split at found
              · cases found
              · obtain ⟨_, -, inner⟩ := Option.bind_eq_some_iff.1 found
                obtain ⟨_, -, same⟩ := Option.bind_eq_some_iff.1 inner
                cases same
          split at found
          · split at found
            · cases found
            · split at found
              · cases found
              · obtain ⟨_, -, inner⟩ := Option.bind_eq_some_iff.1 found
                obtain ⟨_, -, same⟩ := Option.bind_eq_some_iff.1 inner
                cases same
          split at found
          · exact absurd found (fixed _ _ rfl)
          split at found
          · exact absurd found (fixed _ _ rfl)
          split at found
          · exact absurd found (fixed _ _ rfl)
          exact numeric found

/-- What a document other than a number starts with. -/
theorem Json.closed_write {document : Json} (closed : document.closed = true) :
    ∃ c text, document.write = c :: text ∧ isBlank c = false ∧ isNumberChar c = false := by
  match document with
  | .null | .bool true | .bool false => exact ⟨_, _, rfl, by decide, by decide⟩
  | .string _ => exact ⟨_, _, rfl, by decide, by decide⟩
  | .array [] | .array (_ :: _) => exact ⟨_, _, rfl, by decide, by decide⟩
  | .object [] | .object ((_, _) :: _) => exact ⟨_, _, rfl, by decide, by decide⟩

/-- A document that was cut off is not read as another one. -/
theorem Json.fromBody_of_strict_prefix {document : Json} {part : List UInt8}
    (closed : document.closed = true) (inside : part <+: document.body)
    (strict : part ≠ document.body) : Json.fromBody part = none := by
  obtain ⟨missing, whole⟩ := inside
  have split : octetText part ++ octetText missing = document.write := by
    rw [← document.octetText_body, ← whole, octetText, octetText, octetText, List.map_append]
  unfold Json.fromBody
  cases found : value (part.length + 1) (octetText part) with
  | none => rfl
  | some pair =>
      obtain ⟨read, rest⟩ := pair
      -- What was read is no number: the document does not start like one.
      have readClosed : read.closed = true := by
        cases read with
        | number spelled =>
            obtain ⟨c, tail, start, numeric⟩ := numeric_of_value found
            obtain ⟨d, text, written, visible, other⟩ := Json.closed_write closed
            have first := skipBlanks_append (octetText missing) start
            rw [split, written, skipBlanks_cons visible] at first
            obtain ⟨rfl, -⟩ := List.cons.inj first
            rw [numeric] at other
            cases other
        | _ => rfl
      have enough : part.length + 1 ≤ document.write.length + 1 := by
        rw [← split, List.length_append, octetText, List.length_map]
        omega
      have again := (fuelContinues enough).value found (Or.inr readClosed) (octetText missing)
      have written := @value_write document (document.write.length + 1) [] (Nat.le_succ _) rfl
      rw [List.append_nil] at written
      rw [split, written] at again
      have nothing : missing = [] := by
        have ends : rest ++ octetText missing = [] := (Prod.mk.inj (Option.some.inj again)).2.symm
        exact List.map_eq_nil_iff.1 (List.append_eq_nil_iff.1 ends).2
      rw [nothing, List.append_nil] at whole
      exact absurd whole strict

/-! ### Whole numbers -/

/-- The digits of a number do not start with a zero, unless that is all of it. -/
theorem exists_toDigits (n : Nat) :
    ∃ c rest, Nat.toDigits 10 n = c :: rest ∧ (c = '0' → n = 0 ∧ rest = []) := by
  induction n using Nat.strongRecOn with
  | ind n ih =>
      by_cases small : n < 10
      · rw [Nat.toDigits_of_lt_base small]
        exact ⟨n.digitChar, [], rfl, fun zero => ⟨Nat.digitChar_eq_zero.1 zero, rfl⟩⟩
      · obtain ⟨c, rest, shorter, zero⟩ := ih (n / 10) (by omega)
        rw [Nat.toDigits_of_base_le (by decide) (by omega), shorter]
        refine ⟨c, _, rfl, fun isZero => ?_⟩
        have none_left := (zero isZero).1
        omega

theorem digits_toDigits (n : Nat) : digits (Nat.toDigits 10 n) = some [] := by
  have all : ∀ c ∈ Nat.toDigits 10 n, c.isDigit = true :=
    fun c member => Nat.isDigit_of_mem_toDigits (by decide) (by decide) member
  cases spelled : Nat.toDigits 10 n with
  | nil => exact absurd spelled Nat.toDigits_ne_nil
  | cons c rest =>
      rw [spelled, List.forall_mem_cons] at all
      rw [digits, if_pos all.1, Option.some.injEq, List.dropWhile_eq_nil_iff]
      exact all.2

theorem integerPart_toDigits (n : Nat) : integerPart (Nat.toDigits 10 n) = some [] := by
  have plain := digits_toDigits n
  obtain ⟨c, rest, spelled, zero⟩ := exists_toDigits n
  rw [spelled] at plain ⊢
  rw [integerPart]
  split
  · rename_i isZero
    rw [(zero isZero).2]
  · exact plain

theorem isNumber_toDigits (n : Nat) : isNumber (Nat.toDigits 10 n) = true := by
  have whole := integerPart_toDigits n
  obtain ⟨c, rest, spelled, -⟩ := exists_toDigits n
  have digit : c.isDigit = true :=
    Nat.isDigit_of_mem_toDigits (b := 10) (n := n) (by decide) (by decide) (by simp [spelled])
  have unsigned : c ≠ '-' := by
    rintro rfl
    cases digit
  rw [spelled] at whole ⊢
  simp only [isNumber, if_neg unsigned, whole, Option.bind_some, fractionPart, exponentPart,
    beq_self_eq_true]

theorem isNumber_negative (n : Nat) : isNumber ('-' :: Nat.toDigits 10 n) = true := by
  simp only [isNumber, if_pos, integerPart_toDigits n, Option.bind_some, fractionPart, exponentPart,
    beq_self_eq_true]

def Number.ofNat (n : Nat) : Number :=
  { text := Nat.toDigits 10 n, spelled := isNumber_toDigits n }

def Number.ofInt : Int → Number
  | .ofNat n => .ofNat n
  | .negSucc n => { text := '-' :: Nat.toDigits 10 (n + 1), spelled := isNumber_negative (n + 1) }

/-- The value of a number that is digits only. -/
def naturalOf (text : List Char) : Option Nat :=
  if text.all Char.isDigit then some (Nat.ofDigitChars 10 text 0) else none

def Number.toNat? (number : Number) : Option Nat :=
  naturalOf number.text

/-- A negative zero is no whole number. -/
def Number.toInt? (number : Number) : Option Int :=
  match number.text with
  | [] => none
  | c :: rest =>
      if c = '-' then
        match naturalOf rest with
        | some (n + 1) => some (.negSucc n)
        | _ => none
      else (naturalOf (c :: rest)).map Int.ofNat

theorem naturalOf_toDigits (n : Nat) : naturalOf (Nat.toDigits 10 n) = some n := by
  have all : (Nat.toDigits 10 n).all Char.isDigit = true := by
    rw [List.all_eq_true]
    exact fun c member => Nat.isDigit_of_mem_toDigits (by decide) (by decide) member
  rw [naturalOf, if_pos all, Nat.ofDigitChars_ten_toDigits]

@[simp] theorem Number.toNat?_ofNat (n : Nat) : (Number.ofNat n).toNat? = some n :=
  naturalOf_toDigits n

@[simp] theorem Number.toInt?_ofInt (i : Int) : (Number.ofInt i).toInt? = some i := by
  cases i with
  | ofNat n =>
      have whole := naturalOf_toDigits n
      obtain ⟨c, rest, spelled, -⟩ := exists_toDigits n
      have digit : c.isDigit = true :=
        Nat.isDigit_of_mem_toDigits (b := 10) (n := n) (by decide) (by decide) (by simp [spelled])
      have unsigned : c ≠ '-' := by
        rintro rfl
        cases digit
      rw [spelled] at whole
      simp [Number.ofInt, Number.ofNat, Number.toInt?, spelled, unsigned, whole]
  | negSucc n => simp [Number.ofInt, Number.toInt?, naturalOf_toDigits]

/-! ### Structs -/

/-- The value of a field, if it is there. An object that has it twice is refused. -/
def lookup (name : String) (fields : List (String × Json)) : Option (Option Json) :=
  match fields.filter fun field => field.1 == name with
  | [] => some none
  | [field] => some (some field.2)
  | _ => none

/-- The document of a string. -/
def Json.ofString (s : String) : Json := .string (.ofString s)

def named (field : String × Json) : Literal × Json := (.ofString field.1, field.2)

/-- An object with these fields. -/
def Json.ofFields (fields : List (String × Json)) : Json := .object (fields.map named)

/-- A field under its name, which has to be a string. -/
def readName (field : Literal × Json) : Option (String × Json) :=
  field.1.read.map fun name => (name, field.2)

/-- The fields of a struct: those of an object, or the elements of an array under the struct's names in
    their order. Names at the end may be missing there, down to the least number of elements. -/
def structFields (names : List String) (least : Nat) : Json → Option (List (String × Json))
  | .object fields => fields.mapM readName
  | .array elements =>
      if least ≤ elements.length ∧ elements.length ≤ names.length then some (names.zip elements)
      else none
  | _ => none

/-- Values that are each read back, read one after another. -/
theorem mapM_readBack {α β : Type} {read : β → Option α} {write : α → β} (values : List α)
    (readBack : ∀ a ∈ values, read (write a) = some a) : (values.map write).mapM read = some values := by
  induction values with
  | nil => rfl
  | cons a values ih =>
      rw [List.forall_mem_cons] at readBack
      simp [readBack.1, ih readBack.2]

theorem structFields_ofFields (names : List String) (least : Nat) (fields : List (String × Json)) :
    structFields names least (.ofFields fields) = some fields := by
  refine mapM_readBack fields fun field _ => ?_
  rw [readName, named, Literal.read_ofString]
  rfl

section Fields

/-- A field of an object, read as one of its struct's fields. -/
def field {α : Type} (name : String) (read : Option Json → Option α) (fields : List (String × Json)) :
    Option α :=
  (lookup name fields).bind read

variable {α : Type} (read : Json → Option α)

def required : Option Json → Option α
  | some found => read found
  | none => none

/-- A field that may be missing, or null. -/
def optional : Option Json → Option (Option α)
  | none => some none
  | some .null => some none
  | some found => (read found).map some

/-- A field that has a value where it is missing. -/
def defaulting (default : α) : Option Json → Option α
  | none => some default
  | some found => read found

end Fields

def Json.string? : Json → Option String
  | .string literal => literal.read
  | _ => none

@[simp] theorem Json.string?_ofString (s : String) : (Json.ofString s).string? = some s :=
  Literal.read_ofString s

def Json.bool? : Json → Option Bool
  | .bool value => some value
  | _ => none

def Json.array? {α : Type} (read : Json → Option α) : Json → Option (List α)
  | .array elements => elements.mapM read
  | _ => none

/-- An unsigned integer below a bound. -/
def Json.natBelow? (bound : Nat) : Json → Option Nat
  | .number spelled => spelled.toNat?.filter (· < bound)
  | _ => none

/-- A signed integer whose absolute value is within a bound. -/
def Json.intWithin? (bound : Nat) : Json → Option Int
  | .number spelled => spelled.toInt?.filter fun i => -(bound : Int) ≤ i ∧ i < bound
  | _ => none

/-- A value that may be null. -/
def Json.ofOption {α : Type} (write : α → Json) : Option α → Json
  | some a => write a
  | none => .null

theorem optional_ofOption {α : Type} {read : Json → Option α} {write : α → Json} {a : Option α}
    (readBack : ∀ b, a = some b → read (write b) = some b) (filled : ∀ b, write b ≠ .null) :
    optional read (some (.ofOption write a)) = some a := by
  cases a with
  | none => rfl
  | some b =>
      have back := readBack b rfl
      have solid := filled b
      rw [Json.ofOption]
      cases written : write b with
      | null => exact absurd written solid
      | _ =>
          rw [written] at back
          simp [optional, back]

theorem array?_map {α : Type} {read : Json → Option α} {write : α → Json} (values : List α)
    (readBack : ∀ a ∈ values, read (write a) = some a) :
    Json.array? read (.array (values.map write)) = some values :=
  mapM_readBack values readBack

/-- A field of an object whose names differ. -/
theorem lookup_of_mem {name : String} {found : Json} {fields : List (String × Json)}
    (distinct : (fields.map Prod.fst).Nodup) (member : (name, found) ∈ fields) :
    lookup name fields = some (some found) := by
  have kept : (name, found) ∈ fields.filter fun field => field.1 == name := by
    simpa using member
  have once : (fields.filter fun field => field.1 == name).length ≤ 1 := by
    rw [← List.countP_eq_length_filter]
    have counted := List.nodup_iff_count_le_one.1 distinct name
    rw [List.count_eq_countP, List.countP_map] at counted
    exact counted
  unfold lookup
  cases filtered : fields.filter fun field => field.1 == name with
  | nil =>
      rw [filtered] at kept
      cases kept
  | cons field rest =>
      rw [filtered, List.length_cons] at once
      obtain rfl : rest = [] := List.eq_nil_of_length_eq_zero (by omega)
      rw [filtered, List.mem_singleton] at kept
      rw [← kept]

theorem lookup_of_notMem {name : String} {fields : List (String × Json)}
    (missing : name ∉ fields.map Prod.fst) : lookup name fields = some none := by
  have nothing : (fields.filter fun field => field.1 == name) = [] := by
    rw [List.filter_eq_nil_iff]
    intro field member same
    rw [beq_iff_eq] at same
    exact missing (List.mem_map.2 ⟨field, member, same⟩)
  rw [lookup, nothing]

/-- A field of an object from which the fields of some names were left out. -/
theorem lookup_filter {name : String} {found : Json} {fields : List (String × Json)}
    (distinct : (fields.map Prod.fst).Nodup) (member : (name, found) ∈ fields) (dropped : List String) :
    lookup name (fields.filter fun field => !dropped.contains field.1) =
      some (if dropped.contains name then none else some found) := by
  split
  · rename_i isDropped
    apply lookup_of_notMem
    intro listed
    obtain ⟨field, kept, rfl⟩ := List.mem_map.1 listed
    have notDropped := (List.mem_filter.1 kept).2
    rw [isDropped] at notDropped
    cases notDropped
  · rename_i isKept
    apply lookup_of_mem (distinct.sublist (List.filter_sublist.map _))
    exact List.mem_filter.2 ⟨member, by simpa using isKept⟩

/-- The order of the fields does not matter, nor do fields of other names. -/
theorem lookup_of_perm {name : String} {fields others : List (String × Json)} {extra : List (String × Json)}
    (perm : fields.Perm (others ++ extra)) (unknown : ∀ field ∈ extra, field.1 ≠ name)
    (distinct : (others.map Prod.fst).Nodup) : lookup name fields = lookup name others := by
  have none_extra : (extra.filter fun field => field.1 == name) = [] := by
    rw [List.filter_eq_nil_iff]
    intro field member
    simpa using unknown field member
  have same : (fields.filter fun field => field.1 == name).Perm
      (others.filter fun field => field.1 == name) := by
    have filtered := perm.filter fun field => field.1 == name
    rwa [List.filter_append, none_extra, List.append_nil] at filtered
  have once : (others.filter fun field => field.1 == name).length ≤ 1 := by
    rw [← List.countP_eq_length_filter]
    have counted := List.nodup_iff_count_le_one.1 distinct name
    rw [List.count_eq_countP, List.countP_map] at counted
    exact counted
  unfold lookup
  cases kept : others.filter fun field => field.1 == name with
  | nil =>
      rw [kept] at same
      rw [same.eq_nil]
  | cons field rest =>
      rw [kept, List.length_cons] at once
      obtain rfl : rest = [] := List.eq_nil_of_length_eq_zero (by omega)
      rw [kept] at same
      rw [List.perm_singleton.1 same]

end Foundations.JsonDocuments
