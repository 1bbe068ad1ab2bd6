/-
Module: MongoHa.Foundations.RustStr
Layer: Foundations
Purpose: The functions of Rust's `str` that the sources modelled above use, on Lean strings read as
  lists of characters: `char::is_whitespace`, `trim`, `strip_prefix`, `strip_suffix`, `split` on one
  character, `split_once` on a pattern or a test, `split_whitespace`, `lines`, `as_bytes`,
  `from_utf8`, and `eq_ignore_ascii_case` with its equivalence laws; and `split` and `join` of slices.
Imports: Mathlib.Algebra.Ring.Nat
Trusted boundary: human-reviewed spec
Main exports: isWhitespace, trim, stripPrefix, stripSuffix, split, splitOnce, splitOnceWhere,
  splitWhitespace, lines, bytes, fromUtf8, asciiLower, eqIgnoreAsciiCase, trim_eq_self, trim_enclosed,
  headD_split, split_append, split_intercalate, split_of_not_mem, splitWhitespace_word,
  dropWhile_append_cons, trim_toList, trim_eq_trimStart, splitOnce_singleton,
  splitOnce_colon, splitOnceWhere_eq_some, fromUtf8_eq_some, stripPrefix_eq_none, bytes_append,
  length_bytes_split, not_mem_of_mem_splitOn, splitOn_intercalate_filter
Open obligations: none
-/
import Mathlib.Algebra.Ring.Nat

namespace Foundations.RustStr

/-- `char::is_whitespace`: the code points with the Unicode property White_Space. -/
def isWhitespace (c : Char) : Bool :=
  (0x9 ≤ c.val && c.val ≤ 0xd) || c.val == 0x20 || c.val == 0x85 || c.val == 0xa0 ||
    c.val == 0x1680 || (0x2000 ≤ c.val && c.val ≤ 0x200a) || c.val == 0x2028 ||
    c.val == 0x2029 || c.val == 0x202f || c.val == 0x205f || c.val == 0x3000

def trimStart (s : String) : String :=
  String.ofList (s.toList.dropWhile isWhitespace)

/-- `str::trim`. -/
def trim (s : String) : String :=
  String.ofList ((s.toList.dropWhile isWhitespace).reverse.dropWhile isWhitespace).reverse

/-- `str::strip_prefix`. -/
def stripPrefix (pattern s : String) : Option String :=
  if pattern.toList.isPrefixOf s.toList then some (String.ofList (s.toList.drop pattern.length))
  else none

/-- `strip_suffix` on a character. -/
def stripSuffix (last : Char) (s : String) : Option String :=
  if s.toList.getLast? = some last then some (String.ofList s.toList.dropLast) else none

/-- `str::split` on a character. The pieces include the empty ones, and there is always at least one. -/
def split (separator : Char) (s : String) : List String :=
  (s.toList.splitOn separator).map String.ofList

/-- `split_once` on the characters of a string: what precedes and what follows the first occurrence. -/
def splitOnceList (pattern : List Char) : List Char → Option (List Char × List Char)
  | [] => if pattern = [] then some ([], []) else none
  | c :: rest =>
      if pattern.isPrefixOf (c :: rest) then some ([], (c :: rest).drop pattern.length)
      else (splitOnceList pattern rest).map fun (before, after) => (c :: before, after)

/-- `str::split_once`. -/
def splitOnce (pattern s : String) : Option (String × String) :=
  (splitOnceList pattern.toList s.toList).map fun (before, after) =>
    (String.ofList before, String.ofList after)

/-- `split_once` on a test of characters. -/
def splitOnceWhere (test : Char → Bool) (s : String) : Option (String × String) :=
  match s.toList.dropWhile (!test ·) with
  | [] => none
  | _ :: after => some (String.ofList (s.toList.takeWhile (!test ·)), String.ofList after)

/-- `str::split_whitespace`. -/
def splitWhitespace (s : String) : List String :=
  ((s.toList.splitOnP isWhitespace).filter (· ≠ [])).map String.ofList

/-- `str::lines`: a final line ending ends the last line, and `\r` before `\n` belongs to the ending. -/
def lines (s : String) : List String :=
  let pieces := split '\n' s
  let pieces := if pieces.getLast? = some "" then pieces.dropLast else pieces
  pieces.map fun line => (stripSuffix '\r' line).getD line

/-- `str::as_bytes`: the UTF-8 encoding. -/
def bytes (s : String) : List UInt8 :=
  s.toList.flatMap String.utf8EncodeChar

/-- `String::from_utf8`. -/
def fromUtf8 (encoded : List UInt8) : Option String :=
  String.fromUTF8? encoded.toByteArray

def contains (s pattern : String) : Bool :=
  (splitOnce pattern s).isSome

/-- The characters with ASCII letters lowered, the form `eq_ignore_ascii_case` compares. -/
def asciiLower (s : String) : List Char :=
  s.toList.map Char.toLower

/-- `str::eq_ignore_ascii_case`. -/
def eqIgnoreAsciiCase (left right : String) : Bool :=
  asciiLower left == asciiLower right

@[simp] theorem eqIgnoreAsciiCase_iff {left right : String} :
    eqIgnoreAsciiCase left right = true ↔ asciiLower left = asciiLower right := by
  simp [eqIgnoreAsciiCase]

/-- No visible ASCII character is white space. -/
theorem isWhitespace_of_visible {c : Char} (low : 33 ≤ c.val.toNat) (high : c.val.toNat ≤ 126) :
    isWhitespace c = false := by
  simp only [isWhitespace, UInt32.le_iff_toNat_le, beq_eq_false_iff_ne, ne_eq, ← UInt32.toNat_inj,
    Bool.or_eq_false_iff, Bool.and_eq_false_iff, decide_eq_false_iff_not]
  simp only [UInt32.reduceToNat]
  omega

/-- For a text that is written out, the test computes. -/
theorem solid_of_all {chars : List Char} (all : chars.all (!isWhitespace ·) = true) :
    ∀ c ∈ chars, isWhitespace c = false := by
  intro c member
  simpa using List.all_eq_true.1 all c member

theorem isWhitespace_of_isDigit {c : Char} (digit : c.isDigit = true) : isWhitespace c = false := by
  simp only [Char.isDigit, Bool.and_eq_true, decide_eq_true_eq] at digit
  have low : 48 ≤ c.val.toNat := UInt32.le_iff_toNat_le.1 digit.1
  have high : c.val.toNat ≤ 57 := UInt32.le_iff_toNat_le.1 digit.2
  exact isWhitespace_of_visible (by omega) (by omega)

/-- A text without white space is not trimmed. -/
theorem trim_eq_self {s : String} (solid : ∀ c ∈ s.toList, isWhitespace c = false) : trim s = s := by
  have kept : ∀ l : List Char, (∀ c ∈ l, isWhitespace c = false) → l.dropWhile isWhitespace = l := by
    intro l solid
    cases l with
    | nil => rfl
    | cons c rest => simp [solid c]
  rw [trim, kept _ solid, kept _ fun c member => solid c (List.mem_reverse.1 member),
    List.reverse_reverse, String.ofList_toList]

/-- What stands between two solid characters is not trimmed. -/
theorem trim_enclosed {first last : Char} (inner : List Char) (opens : isWhitespace first = false)
    (closes : isWhitespace last = false) :
    trim (String.ofList (first :: (inner ++ [last]))) = String.ofList (first :: (inner ++ [last])) := by
  have kept : ∀ c rest, isWhitespace c = false →
      (c :: rest).dropWhile isWhitespace = c :: rest := by
    intro c rest solid
    simp [solid]
  have turned : (first :: (inner ++ [last])).reverse = last :: (inner.reverse ++ [first]) := by simp
  rw [trim, String.toList_ofList, kept _ _ opens, turned, kept _ _ closes, ← turned,
    List.reverse_reverse]

/-- The first piece runs up to the first separator. -/
theorem headD_split (separator : Char) (s : String) :
    (split separator s).headD "" = String.ofList (s.toList.takeWhile (· != separator)) := by
  have first : ∀ l : List Char,
      ((l.splitOn separator).map String.ofList).headD "" =
        String.ofList (l.takeWhile (· != separator)) := by
    intro l
    induction l with
    | nil => rfl
    | cons c rest ih =>
        rw [List.splitOn_cons_eq_if_modifyHead, List.takeWhile_cons]
        by_cases same : c = separator
        · simp [same]
        · cases pieces : rest.splitOn separator with
          | nil => exact absurd pieces (List.splitOn_ne_nil _ _)
          | cons piece others =>
              rw [pieces] at ih
              have cut := congrArg String.toList ih
              simp only [List.map_cons, List.headD_cons, String.toList_ofList] at cut
              simp [same, cut]
  exact first s.toList

/-- A separator in the text is a border between pieces. -/
theorem split_append (separator : Char) (left right : String) :
    split separator (left ++ String.singleton separator ++ right) =
      split separator left ++ split separator right := by
  rw [split, String.toList_append, String.toList_append, String.toList_singleton, List.append_assoc,
    List.singleton_append, List.splitOn_append_cons_self, List.map_append]
  rfl

/-- The pieces of parts joined by the separator are the pieces of the parts. -/
theorem split_intercalate (separator : Char) {parts : List String} (filled : parts ≠ []) :
    split separator ((String.singleton separator).intercalate parts) =
      parts.flatMap (split separator) := by
  induction parts with
  | nil => exact absurd rfl filled
  | cons part rest ih =>
      cases rest with
      | nil => simp
      | cons next rest =>
          rw [String.intercalate_cons_cons, split_append, ih (by simp), ← List.flatMap_cons]

/-- Text without a separator extends the first piece. -/
theorem split_of_not_mem {separator : Char} {left : String} (notMem : separator ∉ left.toList)
    (right : String) :
    split separator (left ++ right) =
      (left ++ (split separator right).headD "") :: (split separator right).tail := by
  have listed : ∀ l : List Char, separator ∉ l →
      (l ++ right.toList).splitOn separator =
        (right.toList.splitOn separator).modifyHead (l ++ ·) := by
    intro l absent
    induction l with
    | nil =>
        rw [List.nil_append]
        cases right.toList.splitOn separator with
        | nil => rfl
        | cons piece rest => rfl
    | cons c rest ih =>
        rw [List.mem_cons, not_or] at absent
        have other : (c == separator) = false := beq_eq_false_iff_ne.2 fun same => absent.1 same.symm
        rw [List.cons_append, List.splitOn_cons_eq_if_modifyHead, other, ih absent.2]
        cases right.toList.splitOn separator with
        | nil => rfl
        | cons piece others => rfl
  rw [split, split, String.toList_append, listed _ notMem]
  cases pieces : right.toList.splitOn separator with
  | nil => exact absurd pieces (List.splitOn_ne_nil _ _)
  | cons piece others => simp [String.ofList_append]

/-- Whitespace before the text changes none of its words. -/
theorem splitWhitespace_of_isWhitespace {c : Char} (space : isWhitespace c = true) (s : String) :
    splitWhitespace (String.singleton c ++ s) = splitWhitespace s := by
  rw [splitWhitespace, String.toList_append, String.toList_singleton, List.singleton_append,
    ← List.nil_append (c :: s.toList), List.splitOnP_append_cons _ _ space]
  simp [splitWhitespace]

/-- The first word of a text that begins with it. -/
theorem splitWhitespace_word {word : String} (filled : word ≠ "")
    (solid : ∀ c ∈ word.toList, isWhitespace c = false) {c : Char} (space : isWhitespace c = true)
    (s : String) :
    splitWhitespace (word ++ String.singleton c ++ s) = word :: splitWhitespace s := by
  have chars : word.toList ≠ [] := by simpa using filled
  rw [splitWhitespace, String.toList_append, String.toList_append, String.toList_singleton,
    List.append_assoc, List.singleton_append, List.splitOnP_append_cons _ _ space,
    List.splitOnP_eq_singleton solid]
  simp [splitWhitespace, chars]

/-- What is dropped from the front lies before any character that is kept. -/
theorem dropWhile_append_cons {p : Char → Bool} {c : Char} (kept : p c = false)
    (before after : List Char) :
    (before ++ c :: after).dropWhile p = before.dropWhile p ++ c :: after := by
  induction before with
  | nil => simp [kept]
  | cons d before ih =>
      rw [List.cons_append, List.dropWhile_cons, List.dropWhile_cons]
      split
      · exact ih
      · rfl

/-- The characters that trimming leaves. -/
theorem trim_toList (s : String) : (trim s).toList =
    ((s.toList.dropWhile isWhitespace).reverse.dropWhile isWhitespace).reverse := by
  rw [trim, String.toList_ofList]

/-- What has been trimmed ends in no white space. -/
theorem solid_of_getLast?_trim {s : String} {c : Char} (last : (trim s).toList.getLast? = some c) :
    isWhitespace c = false := by
  rw [trim_toList, List.getLast?_reverse] at last
  have solid := List.head?_dropWhile_not isWhitespace (s.toList.dropWhile isWhitespace).reverse
  rw [last] at solid
  simpa using solid

/-- Where no white space is at the end, trimming takes it from the front alone. -/
theorem trim_eq_trimStart {s : String}
    (solid : ∀ c, s.toList.getLast? = some c → isWhitespace c = false) : trim s = trimStart s := by
  have kept : (s.toList.dropWhile isWhitespace).reverse.dropWhile isWhitespace =
      (s.toList.dropWhile isWhitespace).reverse := by
    cases spelled : (s.toList.dropWhile isWhitespace).reverse with
    | nil => rfl
    | cons c rest =>
        have last : s.toList.getLast? = some c := by
          obtain ⟨front, whole⟩ := List.dropWhile_suffix isWhitespace (l := s.toList)
          rw [List.reverse_eq_cons_iff] at spelled
          rw [← whole, spelled, ← List.append_assoc, List.getLast?_concat]
        rw [List.dropWhile_cons_of_neg (by simp [solid c last])]
  rw [trim, kept, List.reverse_reverse, trimStart]

/-! ### Splitting once -/

theorem splitOnceList_singleton {separator : Char} {cs before after : List Char} :
    splitOnceList [separator] cs = some (before, after) ↔
      cs = before ++ separator :: after ∧ separator ∉ before := by
  induction cs generalizing before with
  | nil => simp [splitOnceList]
  | cons c rest ih =>
      by_cases same : separator = c
      · subst same
        have first : splitOnceList [separator] (separator :: rest) = some ([], rest) := by
          simp [splitOnceList]
        rw [first]
        cases before with
        | nil => simp
        | cons d before =>
            simp only [Option.some.injEq, Prod.mk.injEq, reduceCtorEq, false_and, List.cons_append,
              List.cons.injEq, List.mem_cons, not_or, false_iff, not_and, and_imp]
            intro head _ other
            exact absurd head other
      · have later : splitOnceList [separator] (c :: rest) =
            (splitOnceList [separator] rest).map fun (before, after) => (c :: before, after) := by
          simp [splitOnceList, same]
        rw [later, Option.map_eq_some_iff]
        constructor
        · rintro ⟨⟨front, back⟩, found, pair⟩
          obtain ⟨rfl, rfl⟩ := Prod.mk.inj pair
          obtain ⟨rfl, notMem⟩ := ih.1 found
          exact ⟨rfl, by simp [same, notMem]⟩
        · rintro ⟨spelled, notMem⟩
          cases before with
          | nil => exact absurd (List.cons.inj spelled).1.symm same
          | cons d before =>
              rw [List.cons_append, List.cons.injEq] at spelled
              obtain ⟨rfl, spelled⟩ := spelled
              rw [List.mem_cons, not_or] at notMem
              exact ⟨(before, after), ih.2 ⟨spelled, notMem.2⟩, rfl⟩

/-- `split_once` on one character: the first occurrence, with nothing lost. -/
theorem splitOnce_singleton {separator : Char} {s before after : String} :
    splitOnce (String.singleton separator) s = some (before, after) ↔
      s = before ++ String.singleton separator ++ after ∧ separator ∉ before.toList := by
  have spelled : (s.toList = before.toList ++ separator :: after.toList) ↔
      s = before ++ String.singleton separator ++ after := by
    rw [← String.toList_inj]
    simp
  rw [splitOnce, Option.map_eq_some_iff, ← spelled, ← splitOnceList_singleton]
  constructor
  · rintro ⟨⟨front, back⟩, found, pair⟩
    obtain ⟨rfl, rfl⟩ := Prod.mk.inj pair
    simpa using found
  · intro found
    exact ⟨(before.toList, after.toList), by simpa using found, by simp⟩

/-- The first colon splits the text. -/
theorem splitOnce_colon {s before after : String} :
    splitOnce ":" s = some (before, after) ↔
      s = before ++ ":" ++ after ∧ ':' ∉ before.toList := by
  have colon : (":" : String) = String.singleton ':' := rfl
  rw [colon, splitOnce_singleton]

/-- The first character that passes the test splits the text. -/
theorem splitOnceWhere_eq_some {test : Char → Bool} {s before after : String} :
    splitOnceWhere test s = some (before, after) ↔
      ∃ c, s.toList = before.toList ++ c :: after.toList ∧ test c = true ∧
        ∀ d ∈ before.toList, test d = false := by
  rw [splitOnceWhere]
  constructor
  · intro found
    split at found
    · cases found
    · rename_i c rest dropped
      obtain ⟨rfl, rfl⟩ := Prod.mk.inj (Option.some.inj found)
      refine ⟨c, ?_, ?_, ?_⟩
      · rw [String.toList_ofList, String.toList_ofList, ← dropped, List.takeWhile_append_dropWhile]
      · have head := List.head?_dropWhile_not (!test ·) s.toList
        rw [dropped] at head
        simpa using head
      · intro d member
        rw [String.toList_ofList] at member
        simpa using List.all_eq_true.1 List.all_takeWhile d member
  · rintro ⟨c, spelled, found, others⟩
    have passed : ∀ d ∈ before.toList, (!test d) = true := by
      intro d member
      simp [others d member]
    rw [spelled, List.dropWhile_append_of_pos passed, List.takeWhile_append_of_pos passed,
      List.dropWhile_cons_of_neg (by simp [found]), List.takeWhile_cons_of_neg (by simp [found])]
    simp

/-! ### UTF-8 -/

theorem toByteArray_bytes (s : String) : (bytes s).toByteArray = s.toByteArray := by
  have encoded : s.toList.utf8Encode = s.toByteArray := String.utf8Encode_toList
  rw [← encoded]
  rfl

theorem toByteArray_injective {left right : List UInt8}
    (same : left.toByteArray = right.toByteArray) : left = right := by
  rw [← List.toList_data_toByteArray (l := left), same, List.toList_data_toByteArray]

theorem bytes_injective {left right : String} (same : bytes left = bytes right) : left = right := by
  rw [← String.toByteArray_inj, ← toByteArray_bytes, ← toByteArray_bytes, same]

/-- Decoding inverts encoding, and nothing else decodes. -/
theorem fromUtf8_eq_some {encoded : List UInt8} {s : String} :
    fromUtf8 encoded = some s ↔ encoded = bytes s := by
  rw [fromUtf8, String.fromUTF8?]
  constructor
  · intro decoded
    split at decoded
    · rename_i valid
      have same := congrArg String.toByteArray (Option.some.inj decoded)
      apply toByteArray_injective
      rw [toByteArray_bytes, ← same]
      rfl
    · cases decoded
  · rintro rfl
    have valid : (bytes s).toByteArray.IsValidUTF8 := by
      rw [toByteArray_bytes]
      exact s.isValidUTF8
    rw [dif_pos valid, Option.some.injEq, ← String.toByteArray_inj]
    exact toByteArray_bytes s

/-- The bytes of a joined text are those of its parts. -/
theorem bytes_append (left right : String) : bytes (left ++ right) = bytes left ++ bytes right := by
  simp [bytes]

/-- The pieces between one-byte separators have the bytes of the whole but for the separators, one less
    than there are pieces. -/
theorem length_bytes_split {separator : Char} (single : separator.utf8Size = 1) (s : String) :
    ((split separator s).map fun piece => (bytes piece).length + 1).sum = (bytes s).length + 1 := by
  have joined : ∀ pieces : List (List Char), pieces ≠ [] →
      (pieces.map fun piece => (piece.flatMap String.utf8EncodeChar).length + 1).sum =
        (([separator].intercalate pieces).flatMap String.utf8EncodeChar).length + 1 := by
    intro pieces filled
    induction pieces with
    | nil => exact absurd rfl filled
    | cons piece rest ih =>
        cases rest with
        | nil => simp
        | cons next rest =>
            rw [List.map_cons, List.sum_cons, ih (by simp), List.intercalate_cons_cons]
            simp only [List.flatMap_append, List.length_append, List.flatMap_cons, List.flatMap_nil,
              List.append_nil, String.length_utf8EncodeChar, single]
            omega
  have whole := joined (s.toList.splitOn separator) (List.splitOn_ne_nil _ _)
  rw [List.intercalate_splitOn] at whole
  rw [bytes, ← whole, split, List.map_map]
  simp [Function.comp_def, bytes]

/-- A string does not begin with a pattern whose first character is another one. -/
theorem stripPrefix_eq_none {pattern s : String} {c : Char}
    (begins : pattern.toList.head? = some c) (other : s.toList.head? ≠ some c) :
    stripPrefix pattern s = none := by
  have differs : pattern.toList.isPrefixOf s.toList = false := by
    cases patternSpelled : pattern.toList with
    | nil => simp [patternSpelled] at begins
    | cons d _ =>
        cases spelled : s.toList with
        | nil => rfl
        | cons e _ =>
            simp only [patternSpelled, spelled, List.head?_cons, Option.some.injEq] at begins other
            simp only [List.isPrefixOf, Bool.and_eq_false_iff, beq_eq_false_iff_ne]
            exact Or.inl fun same => other (by rw [← same, begins])
  simp [stripPrefix, differs]

/-! ### Slices split at a separator -/

section Slices

variable {α : Type*} [BEq α] [LawfulBEq α]

/-- No piece holds the separator. -/
theorem not_mem_of_mem_splitOn {separator : α} {l piece : List α}
    (member : piece ∈ l.splitOn separator) : separator ∉ piece := by
  induction l generalizing piece with
  | nil =>
      rw [List.splitOn_nil, List.mem_singleton] at member
      rw [member]
      exact List.not_mem_nil
  | cons x rest ih =>
      rw [List.splitOn_cons_eq_if_modifyHead] at member
      by_cases border : (x == separator) = true
      · rw [if_pos border, List.mem_cons] at member
        rcases member with rfl | later
        · exact List.not_mem_nil
        · exact ih later
      · rw [if_neg border] at member
        obtain ⟨first, others, pieces⟩ :=
          List.exists_cons_of_ne_nil (List.splitOn_ne_nil separator rest)
        rw [pieces] at ih
        rw [pieces, List.modifyHead_cons, List.mem_cons] at member
        rcases member with rfl | later
        · rw [List.mem_cons, not_or]
          refine ⟨?_, ih (List.mem_cons_self ..)⟩
          intro same
          exact border (beq_iff_eq.2 same.symm)
        · exact ih (List.mem_cons_of_mem _ later)

/-- The pieces that are kept, and one more without a separator, are the pieces of their join. -/
theorem splitOn_intercalate_filter {separator : α} {last : List α} (solid : separator ∉ last)
    (keeps : List α → Bool) (l : List α) :
    ([separator].intercalate ((l.splitOn separator).filter keeps ++ [last])).splitOn separator =
      (l.splitOn separator).filter keeps ++ [last] := by
  apply List.splitOn_intercalate
  · intro piece member
    rw [List.mem_append, List.mem_singleton] at member
    rcases member with kept | rfl
    · exact not_mem_of_mem_splitOn (List.mem_filter.1 kept).1
    · exact solid
  · simp

end Slices

end Foundations.RustStr
