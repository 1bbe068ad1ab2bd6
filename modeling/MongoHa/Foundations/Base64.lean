/-
Module: MongoHa.Foundations.Base64
Layer: Foundations
Purpose: The standard base64 encoding with padding, what can stand in its output, and the decoder that
  accepts canonical encodings only, with its round trip.
Imports: Mathlib.Data.List.Basic
Trusted boundary: human-reviewed spec
Main exports: digit, encode, isDigit, isDigit_of_mem_encode, encode_ne_empty, decode, decode_encode
Open obligations: none
-/
import Mathlib.Data.List.Basic

namespace Foundations.Base64

/-- The digit of a group of six bits. -/
def digit (value : Nat) : Char :=
  if value < 26 then Char.ofNat (65 + value)
  else if value < 52 then Char.ofNat (97 + (value - 26))
  else if value < 62 then Char.ofNat (48 + (value - 52))
  else if value < 63 then '+'
  else '/'

/-- Three bytes are four digits; what is missing of the last three is padded. -/
def encodeList : List UInt8 → List Char
  | [] => []
  | [a] => [digit (a.toNat / 4), digit (a.toNat % 4 * 16), '=', '=']
  | [a, b] =>
      [digit (a.toNat / 4), digit (a.toNat % 4 * 16 + b.toNat / 16), digit (b.toNat % 16 * 4), '=']
  | a :: b :: c :: rest =>
      digit (a.toNat / 4) :: digit (a.toNat % 4 * 16 + b.toNat / 16) ::
        digit (b.toNat % 16 * 4 + c.toNat / 64) :: digit (c.toNat % 64) :: encodeList rest

/-- The padded encoding of the standard alphabet. -/
def encode (bytes : List UInt8) : String :=
  String.ofList (encodeList bytes)

example : encode [77, 111, 110, 103, 111] = "TW9uZ28=" := by decide

/-- A digit or the padding. -/
def isDigit (c : Char) : Bool :=
  c.isAlphanum || c = '+' || c = '/' || c = '='

theorem isDigit_digit_all : ∀ value < 63, isDigit (digit value) = true := by decide

theorem isDigit_digit (value : Nat) : isDigit (digit value) = true := by
  by_cases listed : value < 63
  · exact isDigit_digit_all value listed
  · have beyond : digit value = '/' := by
      unfold digit
      simp only [listed, ↓reduceIte]
      split
      · omega
      split
      · omega
      split
      · omega
      rfl
    rw [beyond]
    rfl

theorem isDigit_of_mem_encodeList (bytes : List UInt8) :
    ∀ c ∈ encodeList bytes, isDigit c = true := by
  have padding : isDigit '=' = true := rfl
  induction bytes using encodeList.induct with
  | case1 => simp [encodeList]
  | case2 a => simp [encodeList, isDigit_digit, padding]
  | case3 a b => simp [encodeList, isDigit_digit, padding]
  | case4 a b c rest ih =>
      simp only [encodeList, List.mem_cons, forall_eq_or_imp, isDigit_digit, true_and]
      exact ih

/-- An encoding is of digits and padding only. -/
theorem isDigit_of_mem_encode {bytes : List UInt8} {c : Char} (member : c ∈ (encode bytes).toList) :
    isDigit c = true := by
  rw [encode, String.toList_ofList] at member
  exact isDigit_of_mem_encodeList bytes c member

theorem encodeList_ne_nil : ∀ {bytes : List UInt8}, bytes ≠ [] → encodeList bytes ≠ []
  | [], filled => absurd rfl filled
  | [_], _ => List.cons_ne_nil _ _
  | [_, _], _ => List.cons_ne_nil _ _
  | _ :: _ :: _ :: _, _ => List.cons_ne_nil _ _

/-- Bytes are never encoded as no text. -/
theorem encode_ne_empty {bytes : List UInt8} (filled : bytes ≠ []) : encode bytes ≠ "" := by
  intro empty
  have spelled := congrArg String.toList empty
  rw [encode, String.toList_ofList] at spelled
  exact encodeList_ne_nil filled spelled

/-! ### Decoding -/

/-- The group of six bits that a digit stands for. -/
def digitValue (c : Char) : Option Nat :=
  if 'A' ≤ c ∧ c ≤ 'Z' then some (c.toNat - 65)
  else if 'a' ≤ c ∧ c ≤ 'z' then some (c.toNat - 71)
  else if '0' ≤ c ∧ c ≤ '9' then some (c.toNat + 4)
  else if c = '+' then some 62
  else if c = '/' then some 63
  else none

/-- The last group with its padding. The bits it does not use must be zero. -/
def decodeTail (a b c : Char) : Option (List UInt8) :=
  (digitValue a).bind fun a => (digitValue b).bind fun b =>
    if c = '=' then
      if b % 16 = 0 then some [(a * 4 + b / 16).toUInt8] else none
    else
      (digitValue c).bind fun c =>
        if c % 4 = 0 then some [(a * 4 + b / 16).toUInt8, (b % 16 * 16 + c / 4).toUInt8] else none

def decodeList : List Char → Option (List UInt8)
  | [] => some []
  | a :: b :: c :: d :: rest =>
      if d = '=' then if rest = [] then decodeTail a b c else none
      else
        (digitValue a).bind fun a => (digitValue b).bind fun b =>
          (digitValue c).bind fun c => (digitValue d).bind fun d =>
            (decodeList rest).map fun bytes =>
              (a * 4 + b / 16).toUInt8 :: (b % 16 * 16 + c / 4).toUInt8 ::
                (c % 4 * 64 + d).toUInt8 :: bytes
  | _ => none

/-- The bytes of a padded encoding, and of nothing else. -/
def decode (encoded : String) : Option (List UInt8) :=
  decodeList encoded.toList

theorem digitValue_digit : ∀ value < 64, digitValue (digit value) = some value := by decide

theorem digit_ne_padding : ∀ value < 64, digit value ≠ '=' := by decide

/-- The three bytes of a group, from its four digits. -/
theorem toUInt8_group (a b c : UInt8) :
    (a.toNat / 4 * 4 + (a.toNat % 4 * 16 + b.toNat / 16) / 16).toUInt8 = a ∧
      ((a.toNat % 4 * 16 + b.toNat / 16) % 16 * 16 +
        (b.toNat % 16 * 4 + c.toNat / 64) / 4).toUInt8 = b ∧
      ((b.toNat % 16 * 4 + c.toNat / 64) % 4 * 64 + c.toNat % 64).toUInt8 = c := by
  have small := fun byte : UInt8 => byte.toNat_lt
  have first : a.toNat / 4 * 4 + (a.toNat % 4 * 16 + b.toNat / 16) / 16 = a.toNat := by
    have := small b
    omega
  have second : (a.toNat % 4 * 16 + b.toNat / 16) % 16 * 16 +
      (b.toNat % 16 * 4 + c.toNat / 64) / 4 = b.toNat := by
    have := small b
    have := small c
    omega
  have third : (b.toNat % 16 * 4 + c.toNat / 64) % 4 * 64 + c.toNat % 64 = c.toNat := by
    have := small c
    omega
  rw [first, second, third]
  simp

theorem decodeList_encodeList (bytes : List UInt8) : decodeList (encodeList bytes) = some bytes := by
  have small := fun byte : UInt8 => byte.toNat_lt
  induction bytes using encodeList.induct with
  | case1 => rfl
  | case2 a =>
      obtain ⟨whole, -, -⟩ := toUInt8_group a 0 0
      have bound := small a
      rw [encodeList, decodeList, if_pos rfl, if_pos rfl, decodeTail,
        digitValue_digit _ (by omega), digitValue_digit _ (by omega)]
      simp only [Option.bind_some, if_true]
      rw [if_pos (by omega)]
      simpa using whole
  | case3 a b =>
      obtain ⟨first, second, -⟩ := toUInt8_group a b 0
      have bounds := And.intro (small a) (small b)
      rw [encodeList, decodeList, if_pos rfl, if_pos rfl, decodeTail,
        digitValue_digit _ (by omega), digitValue_digit _ (by omega)]
      simp only [Option.bind_some]
      rw [if_neg (digit_ne_padding _ (by omega)), digitValue_digit _ (by omega)]
      simp only [Option.bind_some]
      rw [if_pos (by omega), first]
      simpa using second
  | case4 a b c rest ih =>
      obtain ⟨first, second, third⟩ := toUInt8_group a b c
      have bounds := And.intro (small a) (And.intro (small b) (small c))
      rw [encodeList, decodeList, if_neg (digit_ne_padding _ (by omega)),
        digitValue_digit _ (by omega), digitValue_digit _ (by omega), digitValue_digit _ (by omega),
        digitValue_digit _ (by omega)]
      simp only [Option.bind_some, ih, Option.map_some, first, second, third]

/-- The strict reader undoes the encoding. -/
theorem decode_encode (bytes : List UInt8) : decode (encode bytes) = some bytes := by
  rw [decode, encode, String.toList_ofList, decodeList_encodeList]

end Foundations.Base64
