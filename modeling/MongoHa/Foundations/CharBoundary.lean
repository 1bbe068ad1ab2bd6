/-
Module: MongoHa.Foundations.CharBoundary
Layer: Foundations
Purpose: Byte indices into a Rust `str`. First, over any alphabet, lists cut into chunks that begin with a
  lead and go on without one: the element at an index tells whether a chunk begins there, and a border is
  never further back than a chunk is long. UTF-8 is of this kind with the characters as chunks, which
  gives `is_char_boundary` and slicing their meaning.
Imports: MongoHa.Foundations.RustStr
Trusted boundary: human-reviewed spec
Main exports: Led, onBorder, onBorder_flatten_iff, exists_border_within, startsChar, isCharBoundary,
  sliceTo, isCharBoundary_iff, sliceTo_eq_some_iff, exists_boundary_within,
  prefix_of_length_bytes_le
Open obligations: none
-/
import MongoHa.Foundations.RustStr

namespace Foundations.CharBoundary

open Foundations.RustStr

/-! ### Chunks with a lead -/

section Chunks

variable {α : Type*} {lead : α → Bool} {chunks : List (List α)} {i : Nat}

/-- A chunk begins with a lead and goes on without one. -/
def Led (lead : α → Bool) (chunk : List α) : Prop :=
  ∃ first rest, chunk = first :: rest ∧ lead first = true ∧ ∀ x ∈ rest, lead x = false

/-- Whether an index is on a border of chunks, by the element it points at. -/
def onBorder (lead : α → Bool) (l : List α) (i : Nat) : Bool :=
  if i = 0 then true
  else
    match l[i]? with
    | none => i == l.length
    | some x => lead x

theorem onBorder_zero (l : List α) : onBorder lead l 0 = true := rfl

/-- No border lies inside a chunk. -/
theorem onBorder_inside {chunk rest : List α} (led : Led lead chunk) (positive : i ≠ 0)
    (inside : i < chunk.length) : onBorder lead (chunk ++ rest) i = false := by
  obtain ⟨first, tail, rfl, -, plain⟩ := led
  obtain ⟨k, rfl⟩ := Nat.exists_eq_succ_of_ne_zero positive
  have within_ : k < tail.length := by simpa using inside
  have element : (first :: tail ++ rest)[k + 1]? = some tail[k] := by
    rw [List.cons_append, List.getElem?_cons_succ, List.getElem?_append_left within_,
      List.getElem?_eq_getElem within_]
  rw [onBorder, if_neg positive, Nat.succ_eq_add_one, element]
  exact plain _ (List.getElem_mem within_)

/-- Past a chunk, the borders are those of the chunks that follow. -/
theorem onBorder_past {chunk : List α} (led : Led lead chunk)
    (rest : ∀ next ∈ chunks, Led lead next) (past : chunk.length ≤ i) :
    onBorder lead (chunk ++ chunks.flatten) i = onBorder lead chunks.flatten (i - chunk.length) := by
  have positive : i ≠ 0 := by
    obtain ⟨first, tail, rfl, -, -⟩ := led
    rw [List.length_cons] at past
    omega
  rw [onBorder, if_neg positive, List.getElem?_append_right past, List.length_append]
  by_cases atStart : i - chunk.length = 0
  · rw [atStart, onBorder_zero]
    cases chunks with
    | nil =>
        have whole : i = chunk.length := by omega
        simp [whole]
    | cons next others =>
        obtain ⟨first, tail, rfl, leads, -⟩ := rest next (List.mem_cons_self ..)
        simpa using leads
  · rw [onBorder, if_neg atStart]
    cases chunks.flatten[i - chunk.length]? with
    | some x => rfl
    | none =>
        dsimp only
        rw [Bool.eq_iff_iff, beq_iff_eq, beq_iff_eq]
        omega

/-- The test by one element finds exactly the ends of runs of whole chunks. -/
theorem onBorder_flatten_iff (led : ∀ chunk ∈ chunks, Led lead chunk) :
    onBorder lead chunks.flatten i = true ↔
      ∃ before after, chunks = before ++ after ∧ before.flatten.length = i := by
  induction chunks generalizing i with
  | nil =>
      constructor
      · intro border
        by_cases start : i = 0
        · exact ⟨[], [], rfl, start.symm⟩
        · simp [onBorder, start] at border
      · rintro ⟨before, after, split, rfl⟩
        obtain ⟨rfl, -⟩ := List.nil_eq_append_iff.1 split
        rfl
  | cons chunk rest ih =>
      have ledFirst : Led lead chunk := led chunk (List.mem_cons_self ..)
      have ledRest : ∀ next ∈ rest, Led lead next := fun next member =>
        led next (List.mem_cons_of_mem _ member)
      rw [List.flatten_cons]
      by_cases start : i = 0
      · subst start
        rw [onBorder_zero]
        exact ⟨fun _ => ⟨[], chunk :: rest, rfl, rfl⟩, fun _ => rfl⟩
      · by_cases inside : i < chunk.length
        · rw [onBorder_inside ledFirst start inside]
          constructor
          · intro border
            cases border
          · rintro ⟨before, after, split, ends⟩
            cases before with
            | nil => exact absurd ends.symm start
            | cons first others =>
                obtain ⟨rfl, -⟩ := List.cons.inj split
                rw [List.flatten_cons, List.length_append] at ends
                omega
        · rw [onBorder_past ledFirst ledRest (Nat.le_of_not_lt inside), ih ledRest]
          constructor
          · rintro ⟨before, after, rfl, ends⟩
            refine ⟨chunk :: before, after, rfl, ?_⟩
            rw [List.flatten_cons, List.length_append]
            omega
          · rintro ⟨before, after, split, ends⟩
            cases before with
            | nil => exact absurd ends.symm start
            | cons first others =>
                obtain ⟨rfl, rfl⟩ := List.cons.inj split
                rw [List.flatten_cons, List.length_append] at ends
                exact ⟨others, after, rfl, by omega⟩

/-- From every index the next border back is less than a chunk away. -/
theorem exists_border_within {width : Nat} (short : ∀ chunk ∈ chunks, chunk.length ≤ width + 1)
    (bound : i ≤ chunks.flatten.length) :
    ∃ before after, chunks = before ++ after ∧ before.flatten.length ≤ i ∧
      i ≤ before.flatten.length + width := by
  induction chunks generalizing i with
  | nil =>
      rw [List.flatten_nil, List.length_nil] at bound
      exact ⟨[], [], rfl, Nat.zero_le i, by omega⟩
  | cons chunk rest ih =>
      rw [List.flatten_cons, List.length_append] at bound
      by_cases inside : i < chunk.length
      · have narrow := short chunk (List.mem_cons_self ..)
        refine ⟨[], chunk :: rest, rfl, Nat.zero_le i, ?_⟩
        rw [List.flatten_nil, List.length_nil]
        omega
      · obtain ⟨before, after, rfl, low, high⟩ :=
          ih (fun next member => short next (List.mem_cons_of_mem _ member))
            (i := i - chunk.length) (by omega)
        refine ⟨chunk :: before, after, rfl, ?_, ?_⟩
        · rw [List.flatten_cons, List.length_append]
          omega
        · rw [List.flatten_cons, List.length_append]
          omega

end Chunks

/-! ### Characters in UTF-8 -/

/-- Whether a byte begins a character: `b as i8 >= -0x40`, which leaves out `0x80` to `0xbf`. -/
def startsChar (b : UInt8) : Bool :=
  b < 0x80 || 0xc0 ≤ b

theorem startsChar_iff {b : UInt8} : startsChar b = true ↔ b.toNat < 128 ∨ 192 ≤ b.toNat := by
  simp [startsChar, UInt8.lt_iff_toNat_lt, UInt8.le_iff_toNat_le]

theorem startsChar_ofNat_of_lead {n : Nat} (low : 192 ≤ n) (high : n < 256) :
    startsChar (UInt8.ofNat n) = true := by
  rw [startsChar_iff, UInt8.toNat_ofNat_of_lt' high]
  exact Or.inr low

/-- The bytes that go on a character carry six bits of it. -/
theorem startsChar_ofNat_of_continuation (n : Nat) :
    startsChar (UInt8.ofNat (n % 0x40 + 0x80)) = false := by
  have low := Nat.mod_lt n (by decide : 0x40 > 0)
  rw [← Bool.not_eq_true, startsChar_iff, UInt8.toNat_ofNat_of_lt' (by simp only [UInt8.size]; omega)]
  omega

theorem led_utf8EncodeChar (c : Char) : Led startsChar (String.utf8EncodeChar c) := by
  unfold String.utf8EncodeChar
  dsimp only
  split
  · rename_i ascii
    refine ⟨_, [], rfl, ?_, by simp⟩
    rw [startsChar_iff, UInt8.toNat_ofNat_of_lt' (Nat.lt_of_le_of_lt ascii (by decide))]
    exact Or.inl (Nat.lt_of_le_of_lt ascii (by decide))
  · split
    · refine ⟨_, _, rfl, startsChar_ofNat_of_lead (by omega) (by omega), ?_⟩
      simp only [List.forall_mem_cons, startsChar_ofNat_of_continuation, true_and]
      exact List.forall_mem_nil _
    · split
      · refine ⟨_, _, rfl, startsChar_ofNat_of_lead (by omega) (by omega), ?_⟩
        simp only [List.forall_mem_cons, startsChar_ofNat_of_continuation, true_and]
        exact List.forall_mem_nil _
      · refine ⟨_, _, rfl, startsChar_ofNat_of_lead (by omega) (by omega), ?_⟩
        simp only [List.forall_mem_cons, startsChar_ofNat_of_continuation, true_and]
        exact List.forall_mem_nil _

/-- `str::is_char_boundary`. -/
def isCharBoundary (s : String) (i : Nat) : Bool :=
  onBorder startsChar (bytes s) i

/-- `&s[..end]`, `none` for the panic off a boundary. -/
def sliceTo (s : String) (end_ : Nat) : Option String :=
  if isCharBoundary s end_ then fromUtf8 ((bytes s).take end_) else none

/-- The chunks of a string's bytes are its characters. -/
theorem bytes_eq_flatten (s : String) : bytes s = (s.toList.map String.utf8EncodeChar).flatten := by
  rw [bytes, List.flatMap_def]

/-- Cutting the chunks is cutting the string between characters. -/
theorem chunks_split_iff {s : String} {n : Nat → Prop} :
    (∃ before after, s.toList.map String.utf8EncodeChar = before ++ after ∧ n before.flatten.length) ↔
      ∃ front back, s = front ++ back ∧ n (bytes front).length := by
  constructor
  · rintro ⟨before, after, split, holds⟩
    obtain ⟨front, back, chars, rfl, -⟩ := List.map_eq_append_iff.1 split
    refine ⟨String.ofList front, String.ofList back, ?_, ?_⟩
    · rw [← String.toList_inj, chars]
      simp
    · rw [bytes_eq_flatten, String.toList_ofList]
      exact holds
  · rintro ⟨front, back, rfl, holds⟩
    refine ⟨front.toList.map String.utf8EncodeChar, back.toList.map String.utf8EncodeChar, ?_, ?_⟩
    · rw [String.toList_append, List.map_append]
    · rw [← bytes_eq_flatten]
      exact holds

/-- A char boundary is where a prefix of whole characters ends. -/
theorem isCharBoundary_iff {s : String} {i : Nat} :
    isCharBoundary s i = true ↔ ∃ front back, s = front ++ back ∧ (bytes front).length = i := by
  have led : ∀ chunk ∈ s.toList.map String.utf8EncodeChar, Led startsChar chunk := by
    intro chunk member
    obtain ⟨c, -, rfl⟩ := List.mem_map.1 member
    exact led_utf8EncodeChar c
  rw [isCharBoundary, bytes_eq_flatten, onBorder_flatten_iff led]
  exact chunks_split_iff (n := (· = i))

/-- A slice up to a boundary is the prefix that ends there; off a boundary there is none. -/
theorem sliceTo_eq_some_iff {s front : String} {end_ : Nat} :
    sliceTo s end_ = some front ↔ ∃ back, s = front ++ back ∧ (bytes front).length = end_ := by
  rw [sliceTo]
  constructor
  · intro sliced
    split at sliced
    · rename_i boundary
      obtain ⟨found, back, rfl, ends⟩ := isCharBoundary_iff.1 boundary
      rw [← ends, bytes_append, List.take_left, fromUtf8_eq_some] at sliced
      obtain rfl := bytes_injective sliced
      exact ⟨back, rfl, ends⟩
    · cases sliced
  · rintro ⟨back, rfl, ends⟩
    rw [if_pos (isCharBoundary_iff.2 ⟨front, back, rfl, ends⟩), ← ends, bytes_append, List.take_left,
      fromUtf8_eq_some]

/-- The next boundary back is at most three bytes away: a character has at most four. -/
theorem exists_boundary_within {s : String} {i : Nat} (bound : i ≤ (bytes s).length) :
    ∃ j, isCharBoundary s j = true ∧ j ≤ i ∧ i ≤ j + 3 := by
  have short : ∀ chunk ∈ s.toList.map String.utf8EncodeChar, chunk.length ≤ 3 + 1 := by
    intro chunk member
    obtain ⟨c, -, rfl⟩ := List.mem_map.1 member
    rw [String.length_utf8EncodeChar]
    exact c.utf8Size_le_four
  rw [bytes_eq_flatten] at bound
  obtain ⟨front, back, split, low, high⟩ :=
    (chunks_split_iff (n := fun n => n ≤ i ∧ i ≤ n + 3)).1 (exists_border_within short bound)
  exact ⟨(bytes front).length, isCharBoundary_iff.2 ⟨front, back, split, rfl⟩, low, high⟩

/-- Of two prefixes of whole characters, one with no more bytes is a prefix of the other. -/
theorem prefix_of_length_bytes_le {s front other back rest : String} (split : s = front ++ back)
    (otherSplit : s = other ++ rest) (shorter : (bytes other).length ≤ (bytes front).length) :
    other.toList <+: front.toList := by
  have ofFront : front.toList <+: s.toList := ⟨back.toList, by rw [split, String.toList_append]⟩
  have ofOther : other.toList <+: s.toList := ⟨rest.toList, by rw [otherSplit, String.toList_append]⟩
  rcases List.prefix_or_prefix_of_prefix ofOther ofFront with within_ | ⟨more, longer⟩
  · exact within_
  · have spelled : other = front ++ String.ofList more := by
      rw [← String.toList_inj, ← longer]
      simp
    rw [spelled, bytes_append, List.length_append] at shorter
    have noBytes : bytes (String.ofList more) = bytes "" :=
      List.eq_nil_of_length_eq_zero (by omega)
    obtain rfl : other = front := by
      rw [spelled, bytes_injective noBytes, String.append_empty]
    exact List.prefix_refl _

end Foundations.CharBoundary
