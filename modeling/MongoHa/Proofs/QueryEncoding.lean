/-
Module: MongoHa.Proofs.QueryEncoding
Layer: Proofs
Purpose: The question that the name probe sends, read back by RFC 1035: the id, one recursion-desired AAAA
  question, the parts of the name as its labels, and nothing after it. The QNAME stays within 255 octets
  exactly when the name is not of the last two lengths that the encoder lets through: it bounds the text,
  and the QNAME is two octets longer.
Imports: MongoHa.Wrapper.DnsProbe
Trusted boundary: none (fully proved)
Main exports: labelsOf, encodeQuery_eq_some_iff, readMessage_questionPacket, ValidQuestion,
  valid_question_iff, longest_name_overflows
Open obligations: none
-/
import MongoHa.Wrapper.DnsProbe

namespace MongoHa

open Foundations
open Foundations.RustStr
open Foundations.DnsMessage

/-! ### What is encoded -/

/-- The parts of the name between its dots. -/
def labelsOf (name : String) : List Label :=
  (split '.' (bareName name)).map bytes

/-- The packet of an AAAA question for these labels. -/
def questionPacket (id : UInt16) (labels : List Label) : List UInt8 :=
  beBytes id ++ [0x01, 0x00, 0x00, 0x01, 0x00, 0x00, 0x00, 0x00, 0x00, 0x00] ++
    (encodeName labels ++ [0x00, 0x1c, 0x00, 0x01])

/-- The loop takes labels that all fit, and writes each behind its length. -/
theorem encodeLabels_eq_some_iff {pieces : List String} {packet : List UInt8} :
    encodeLabels pieces = some packet ↔
      (∀ label ∈ pieces.map bytes, Fits label) ∧ packet = (pieces.map bytes).flatMap encodeLabel := by
  induction pieces generalizing packet with
  | nil => simp [encodeLabels, eq_comm]
  | cons piece rest ih =>
      rw [encodeLabels, List.map_cons, List.forall_mem_cons, List.flatMap_cons]
      split
      · rename_i refused
        constructor
        · intro encoded
          cases encoded
        · rintro ⟨⟨⟨filled, short⟩, -⟩, -⟩
          omega
      · rename_i taken
        have fits : Fits (bytes piece) := ⟨by omega, by omega⟩
        simp only [Option.map_eq_some_iff, ih]
        constructor
        · rintro ⟨tail, ⟨others, rfl⟩, rfl⟩
          exact ⟨⟨fits, others⟩, rfl⟩
        · rintro ⟨⟨-, others⟩, rfl⟩
          exact ⟨_, ⟨others, rfl⟩, rfl⟩

/-- The labels of a name take one octet more than its text. -/
theorem length_labelsOf (name : String) :
    ((labelsOf name).map fun label => label.length + 1).sum = (bytes (bareName name)).length + 1 := by
  rw [labelsOf, List.map_map]
  exact length_bytes_split rfl _

theorem length_encodeName_labelsOf (name : String) :
    (encodeName (labelsOf name)).length = (bytes (bareName name)).length + 2 := by
  rw [length_encodeName, length_labelsOf]

/-- A packet is made of every name whose labels fit and whose text is not over 255 bytes. -/
theorem encodeQuery_eq_some_iff {id : UInt16} {name : String} {packet : List UInt8} :
    encodeQuery id name = some packet ↔
      (bytes (bareName name)).length ≤ 255 ∧ (∀ label ∈ labelsOf name, Fits label) ∧
        packet = questionPacket id (labelsOf name) := by
  have filled : (∀ label ∈ labelsOf name, Fits label) → 0 < (bytes (bareName name)).length := by
    intro fits
    have total := length_labelsOf name
    cases pieces : labelsOf name with
    | nil =>
        rw [pieces] at total
        cases total
    | cons label rest =>
        rw [pieces] at total fits
        have first := (fits label List.mem_cons_self).1
        rw [List.map_cons, List.sum_cons] at total
        omega
  simp only [encodeQuery]
  split
  · rename_i refused
    constructor
    · intro encoded
      cases encoded
    · rintro ⟨short, fits, -⟩
      have some := filled fits
      omega
  · rename_i taken
    have short : (bytes (bareName name)).length ≤ 255 := by omega
    simp only [Option.map_eq_some_iff, encodeLabels_eq_some_iff]
    constructor
    · rintro ⟨tail, ⟨fits, rfl⟩, rfl⟩
      refine ⟨short, fits, ?_⟩
      simp [questionPacket, encodeName, labelsOf]
    · rintro ⟨-, fits, rfl⟩
      refine ⟨_, ⟨fits, rfl⟩, ?_⟩
      simp [questionPacket, encodeName, labelsOf]

/-! ### What is read back -/

def questionHeader (id : UInt16) : Header :=
  { id := id, flags := 0x0100, questions := 1, answers := 0, authorities := 0, additionals := 0 }

theorem questionHeader_flags (id : UInt16) : (questionHeader id).isQuery ∧
    (questionHeader id).isStandard ∧ (questionHeader id).recursionDesired := by
  refine ⟨?_, ?_, ?_⟩
  · show (0x0100 : UInt16) &&& 0x8000 = 0
    decide
  · show (0x0100 : UInt16) &&& 0x7800 = 0
    decide
  · show (0x0100 : UInt16) &&& 0x0100 ≠ 0
    decide

/-- A packet of labels that fit is read back as its one question. -/
theorem readMessage_questionPacket {labels : List Label} (fits : ∀ label ∈ labels, Fits label)
    (id : UInt16) :
    readMessage (questionPacket id labels) =
      some ({ header := questionHeader id
              questions := [{ name := labels, qtype := Question.aaaa, qclass := Question.internet }] },
        []) := by
  have question : readQuestions 1 (encodeName labels ++ [0x00, 0x1c, 0x00, 0x01]) =
      some ([{ name := labels, qtype := Question.aaaa, qclass := Question.internet }], []) := by
    rw [readQuestions, readQuestion, readName_encodeName fits]
    rfl
  have count : (word 0x00 0x01).toNat = 1 := rfl
  rw [questionPacket, beBytes]
  simp only [List.cons_append, List.nil_append, readMessage, word_beBytes, count, question,
    Option.map_some]
  rfl

/-- By the rules of RFC 1035 the packet is a recursion-desired query with this id, of one question of type
    AAAA and class IN for the parts of the name, and nothing after it. -/
def ValidQuestion (id : UInt16) (name : String) (packet : List UInt8) : Prop :=
  ∃ header question, readMessage packet = some ({ header := header, questions := [question] }, []) ∧
    header.id = id ∧ header.isQuery ∧ header.isStandard ∧ header.recursionDesired ∧
    header.answers = 0 ∧ header.authorities = 0 ∧ header.additionals = 0 ∧
    question.qtype = Question.aaaa ∧ question.qclass = Question.internet ∧
    question.name = labelsOf name ∧ (∀ label ∈ question.name, Fits label) ∧
    (encodeName question.name).length ≤ 255

/-- A name of 254 or 255 bytes is refused, for one of its labels. -/
def ShortOrRefused (name : String) : Prop :=
  (bytes (bareName name)).length = 254 ∨ (bytes (bareName name)).length = 255 →
    ∃ label ∈ labelsOf name, ¬ Fits label

/-- Every packet is a valid question exactly when the name is not of the last two lengths, or has a label
    that is refused. -/
theorem valid_question_iff (id : UInt16) (name : String) :
    (∀ packet, encodeQuery id name = some packet → ValidQuestion id name packet) ↔
      ShortOrRefused name := by
  constructor
  · intro valid long
    by_contra fit
    have fits : ∀ label ∈ labelsOf name, Fits label := by simpa using fit
    obtain ⟨header, question, read, -, -, -, -, -, -, -, -, -, same, -, bounded⟩ :=
      valid _ (encodeQuery_eq_some_iff.2 ⟨by omega, fits, rfl⟩)
    rw [same, length_encodeName_labelsOf] at bounded
    omega
  · intro short packet encoded
    obtain ⟨taken, fits, rfl⟩ := encodeQuery_eq_some_iff.1 encoded
    obtain ⟨query, standard, desired⟩ := questionHeader_flags id
    refine ⟨_, _, readMessage_questionPacket fits id, rfl, query, standard, desired, rfl, rfl, rfl, rfl,
      rfl, rfl, fits, ?_⟩
    rw [length_encodeName_labelsOf]
    by_contra exceeds
    obtain ⟨label, listed, refused⟩ := short (by omega)
    exact refused (fits label listed)

/-- Three labels of 63 bytes and one of 62, dots included 254 bytes. -/
def longestName : String :=
  String.ofList (['.'].intercalate ([63, 63, 63, 62].map fun length => List.replicate length 'a'))

theorem labelsOf_longestName :
    labelsOf longestName = [63, 63, 63, 62].map fun length => List.replicate length 97 := by
  have undotted : ∀ piece ∈ [63, 63, 63, 62].map fun length => List.replicate length 'a',
      '.' ∉ piece := by simp
  have bare : bareName longestName = longestName := by
    rw [bareName, stripSuffix, longestName, String.toList_ofList, if_neg (by decide)]
    rfl
  have letter : String.utf8EncodeChar 'a' = [97] := by decide
  rw [labelsOf, bare, longestName, split, String.toList_ofList,
    List.splitOn_intercalate '.' undotted (by simp)]
  simp [bytes, letter]

/-- The name is encoded, and its QNAME takes 256 octets. -/
theorem longest_name_overflows :
    (encodeQuery 1 longestName).isSome = true ∧
      ¬ ∀ packet, encodeQuery 1 longestName = some packet → ValidQuestion 1 longestName packet := by
  have fits : ∀ label ∈ labelsOf longestName, Fits label := by
    rw [labelsOf_longestName]
    decide
  have length : (bytes (bareName longestName)).length = 254 := by
    have total := length_labelsOf longestName
    rw [labelsOf_longestName] at total
    simpa using total.symm
  have encoded := (@encodeQuery_eq_some_iff 1 longestName _).2 ⟨by omega, fits, rfl⟩
  refine ⟨Option.isSome_iff_exists.2 ⟨_, encoded⟩, fun valid => ?_⟩
  obtain ⟨header, question, -, -, -, -, -, -, -, -, -, -, same, -, bounded⟩ := valid _ encoded
  rw [same, length_encodeName_labelsOf, length] at bounded
  exact absurd bounded (by decide)

end MongoHa
