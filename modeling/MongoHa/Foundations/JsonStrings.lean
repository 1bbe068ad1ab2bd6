/-
Module: MongoHa.Foundations.JsonStrings
Layer: Foundations
Purpose: JSON arrays of strings: the compact text a serializer writes, with the short escapes and `\u00xx`
  for the other control characters, and a reader of the whole grammar, which takes white space between
  tokens, every escape and surrogate pairs, and refuses anything after the array. Reading back what was
  written gives the strings again.
Imports: Mathlib.Data.List.Basic, Mathlib.Tactic.FinCases
Trusted boundary: none (fully proved)
Main exports: quote, toText, fromText, fromText_toText, toText_injective, fromText_eq_none
Open obligations: none
-/
import Mathlib.Data.List.Basic
import Mathlib.Tactic.FinCases

namespace Foundations.JsonStrings

/-! ### Writing -/

def hexDigit (value : Nat) : Char :=
  if value < 10 then Char.ofNat (48 + value) else Char.ofNat (87 + value)

/-- One character inside a string. -/
def escape (c : Char) : List Char :=
  if c = '"' then ['\\', '"']
  else if c = '\\' then ['\\', '\\']
  else if c = '\x08' then ['\\', 'b']
  else if c = '\x0c' then ['\\', 'f']
  else if c = '\n' then ['\\', 'n']
  else if c = '\r' then ['\\', 'r']
  else if c = '\t' then ['\\', 't']
  else if c.toNat < 32 then
    ['\\', 'u', '0', '0', hexDigit (c.toNat / 16), hexDigit (c.toNat % 16)]
  else [c]

/-- A string between quotes, with its escapes. -/
def quote (s : String) : List Char :=
  '"' :: (s.toList.flatMap escape ++ ['"'])

/-- The strings after the first one, each behind its comma. -/
def commaSeparated (strings : List String) : List Char :=
  strings.flatMap fun s => ',' :: quote s

def elementsText : List String → List Char
  | [] => [']']
  | first :: others => quote first ++ commaSeparated others ++ [']']

/-- The compact text of an array of strings. -/
def toText (strings : List String) : String :=
  String.ofList ('[' :: elementsText strings)

/-! ### Reading -/

def isBlank (c : Char) : Bool :=
  c = ' ' || c = '\t' || c = '\n' || c = '\r'

def skipBlanks (text : List Char) : List Char :=
  text.dropWhile isBlank

def hexValue (c : Char) : Option Nat :=
  if '0' ≤ c ∧ c ≤ '9' then some (c.toNat - 48)
  else if 'a' ≤ c ∧ c ≤ 'f' then some (c.toNat - 87)
  else if 'A' ≤ c ∧ c ≤ 'F' then some (c.toNat - 55)
  else none

def codeUnit (a b c d : Char) : Option Nat := do
  let a ← hexValue a
  let b ← hexValue b
  let c ← hexValue c
  let d ← hexValue d
  pure (((a * 16 + b) * 16 + c) * 16 + d)

/-- The escapes of one letter. -/
def shortEscape (c : Char) : Option Char :=
  if c = '"' then some '"'
  else if c = '\\' then some '\\'
  else if c = '/' then some '/'
  else if c = 'b' then some '\x08'
  else if c = 'f' then some '\x0c'
  else if c = 'n' then some '\n'
  else if c = 'r' then some '\r'
  else if c = 't' then some '\t'
  else none

def prepend (c : Char) : Option (List Char × List Char) → Option (List Char × List Char)
  | some (body, rest) => some (c :: body, rest)
  | none => none

/-- The rest of a string, up to its closing quote. -/
def stringBody : List Char → Option (List Char × List Char)
  | [] => none
  | c :: text =>
      if c = '"' then some ([], text)
      else if c = '\\' then
        match text with
        | [] => none
        | letter :: text =>
            match shortEscape letter with
            | some escaped => prepend escaped (stringBody text)
            | none =>
                if letter = 'u' then
                  match text with
                  | a :: b :: c :: d :: text =>
                      match codeUnit a b c d with
                      | none => none
                      | some unit =>
                          if unit < 0xd800 ∨ 0xdfff < unit then
                            prepend (Char.ofNat unit) (stringBody text)
                          -- A leading surrogate needs its trailing one right behind it.
                          else if 0xdbff < unit then none
                          else
                            match text with
                            | '\\' :: 'u' :: a :: b :: c :: d :: text =>
                                match codeUnit a b c d with
                                | none => none
                                | some trailing =>
                                    if trailing < 0xdc00 ∨ 0xdfff < trailing then none
                                    else
                                      prepend
                                        (Char.ofNat (0x10000 + (unit - 0xd800) * 0x400 +
                                          (trailing - 0xdc00)))
                                        (stringBody text)
                            | _ => none
                  | _ => none
                else none
      else if c.toNat < 32 then none
      else prepend c (stringBody text)

/-- A string from its opening quote. -/
def string : List Char → Option (String × List Char)
  | [] => none
  | c :: text =>
      if c = '"' then (stringBody text).map fun (body, rest) => (String.ofList body, rest) else none

/-- What follows a string of the array, up to the closing bracket. -/
def moreElements : Nat → List Char → Option (List String × List Char)
  | 0, _ => none
  | fuel + 1, text =>
      match skipBlanks text with
      | [] => none
      | c :: text =>
          if c = ']' then some ([], text)
          else if c = ',' then
            match string (skipBlanks text) with
            | none => none
            | some (first, text) =>
                (moreElements fuel text).map fun (others, rest) => (first :: others, rest)
          else none

def elements (fuel : Nat) (text : List Char) : Option (List String × List Char) :=
  match skipBlanks text with
  | ']' :: text => some ([], text)
  | text =>
      match string text with
      | none => none
      | some (first, text) =>
          (moreElements fuel text).map fun (others, rest) => (first :: others, rest)

/-- The strings of a text that is one array of strings and nothing else. -/
def fromText (text : String) : Option (List String) :=
  match skipBlanks text.toList with
  | [] => none
  | c :: rest =>
      if c = '[' then
        match elements text.length rest with
        | some (strings, after) => if skipBlanks after = [] then some strings else none
        | none => none
      else none

/-! ### Round trip -/

theorem hexValue_hexDigit : ∀ value < 16, hexValue (hexDigit value) = some value := by decide

theorem stringBody_closes (text : List Char) : stringBody ('"' :: text) = some ([], text) := by
  rw [stringBody.eq_def]
  simp only [↓reduceIte]

theorem stringBody_plain {c : Char} (text : List Char) (open_ : c ≠ '"') (unescaped : c ≠ '\\')
    (printable : ¬ c.toNat < 32) : stringBody (c :: text) = prepend c (stringBody text) := by
  rw [stringBody.eq_def]
  simp only [open_, unescaped, printable, ↓reduceIte]

/-- An escape of four digits below the surrogates. -/
theorem stringBody_unicode {a b c d : Char} {unit : Nat} (text : List Char)
    (read : codeUnit a b c d = some unit) (below : unit < 0xd800) :
    stringBody ('\\' :: 'u' :: a :: b :: c :: d :: text) =
      prepend (Char.ofNat unit) (stringBody text) := by
  have short : shortEscape 'u' = none := by decide
  rw [stringBody.eq_def]
  simp only [Char.reduceEq, ↓reduceIte, short, read, below, true_or]

/-- A control character is read back from its digits. -/
theorem codeUnit_control {c : Char} (control : c.toNat < 32) :
    codeUnit '0' '0' (hexDigit (c.toNat / 16)) (hexDigit (c.toNat % 16)) = some c.toNat := by
  have zero : hexValue '0' = some 0 := by decide
  have high := hexValue_hexDigit (c.toNat / 16) (by omega)
  have low := hexValue_hexDigit (c.toNat % 16) (by omega)
  simp only [codeUnit, zero, high, low, Option.bind_eq_bind, Option.bind_some, Option.pure_def,
    Option.some.injEq]
  omega

/-- An escaped character is read back as itself. -/
theorem stringBody_escape (c : Char) (text : List Char) :
    stringBody (escape c ++ text) = prepend c (stringBody text) := by
  by_cases open_ : c = '"'
  · subst open_
    rfl
  by_cases backslash : c = '\\'
  · subst backslash
    rfl
  by_cases short : c ∈ ['\x08', '\x0c', '\n', '\r', '\t']
  · fin_cases short <;> rfl
  · simp only [List.mem_cons, List.not_mem_nil, or_false, not_or] at short
    unfold escape
    simp only [open_, backslash, short, ↓reduceIte]
    by_cases control : c.toNat < 32
    · have read := stringBody_unicode text (codeUnit_control control) (by omega)
      rw [Char.ofNat_toNat] at read
      simp only [control, ↓reduceIte]
      exact read
    · simp only [control, ↓reduceIte]
      exact stringBody_plain text open_ backslash control

theorem stringBody_flatMap (cs text : List Char) :
    stringBody (cs.flatMap escape ++ '"' :: text) = some (cs, text) := by
  induction cs with
  | nil => exact stringBody_closes text
  | cons c cs ih =>
      rw [List.flatMap_cons, List.append_assoc, stringBody_escape, ih]
      rfl

theorem string_quote (s : String) (text : List Char) :
    string (quote s ++ text) = some (s, text) := by
  have body := stringBody_flatMap s.toList text
  simp [quote, string, body]

theorem skipBlanks_quote (s : String) (text : List Char) :
    skipBlanks (quote s ++ text) = quote s ++ text := rfl

theorem moreElements_commaSeparated (strings : List String) {fuel : Nat} (text : List Char)
    (enough : strings.length < fuel) :
    moreElements fuel (commaSeparated strings ++ ']' :: text) = some (strings, text) := by
  induction strings generalizing fuel with
  | nil =>
      cases fuel with
      | zero => omega
      | succ fuel => rfl
  | cons first others ih =>
      cases fuel with
      | zero => omega
      | succ fuel =>
          have rest := @ih fuel (by simpa using enough)
          have split : commaSeparated (first :: others) ++ ']' :: text =
              ',' :: (quote first ++ (commaSeparated others ++ ']' :: text)) := by
            simp [commaSeparated]
          rw [split, moreElements]
          have comma : skipBlanks (',' :: (quote first ++ (commaSeparated others ++ ']' :: text))) =
              ',' :: (quote first ++ (commaSeparated others ++ ']' :: text)) := rfl
          simp only [comma, Char.reduceEq, ↓reduceIte, skipBlanks_quote, string_quote, rest,
            Option.map_some]

theorem elements_elementsText (strings : List String) {fuel : Nat}
    (enough : strings.length ≤ fuel) : elements fuel (elementsText strings) = some (strings, []) := by
  cases strings with
  | nil => rfl
  | cons first others =>
      have fewer : others.length < fuel := enough
      have more := @moreElements_commaSeparated others fuel [] fewer
      have read := string_quote first (commaSeparated others ++ [']'])
      have opened : quote first ++ (commaSeparated others ++ [']']) =
          '"' :: (first.toList.flatMap escape ++ ['"'] ++ (commaSeparated others ++ [']'])) := rfl
      rw [elementsText, List.append_assoc]
      unfold elements
      rw [skipBlanks_quote, opened]
      split
      · rename_i closed
        cases closed
      · rw [← opened, read]
        simp only [more, Option.map_some]

theorem length_le_elementsText (strings : List String) :
    strings.length ≤ (elementsText strings).length := by
  cases strings with
  | nil => simp
  | cons first others =>
      have others_le : others.length ≤ (commaSeparated others).length := by
        induction others with
        | nil => simp
        | cons s rest ih =>
            simp only [commaSeparated, List.flatMap_cons, List.length_append,
              List.length_cons] at ih ⊢
            omega
      simp only [elementsText, List.length_append, List.length_cons, List.length_nil]
      omega

/-- Reading back what was written. -/
theorem fromText_toText (strings : List String) : fromText (toText strings) = some strings := by
  have enough : strings.length ≤ (toText strings).length := by
    have few := length_le_elementsText strings
    rw [toText, String.length_ofList, List.length_cons]
    omega
  have read := elements_elementsText strings enough
  have text : (toText strings).toList = '[' :: elementsText strings := String.toList_ofList
  have opened : skipBlanks ('[' :: elementsText strings) = '[' :: elementsText strings := rfl
  unfold fromText
  rw [text, opened]
  simp only [read, ↓reduceIte]
  rfl

/-- No two lists of strings have one text. -/
theorem toText_injective {left right : List String} (same : toText left = toText right) :
    left = right := by
  have read := fromText_toText left
  rw [same, fromText_toText] at read
  exact (Option.some.inj read).symm

/-- A text whose first character is neither blank nor an opening bracket is no array. -/
theorem fromText_eq_none {text : String}
    (plain : ∀ c ∈ text.toList, isBlank c = false ∧ c ≠ '[') : fromText text = none := by
  unfold fromText
  cases read : text.toList with
  | nil => rfl
  | cons c rest =>
      obtain ⟨visible, other⟩ := plain c (by rw [read]; exact List.mem_cons_self)
      have kept : skipBlanks (c :: rest) = c :: rest := by
        rw [skipBlanks, List.dropWhile_cons, visible]
        rfl
      rw [kept]
      simp [other]

end Foundations.JsonStrings
