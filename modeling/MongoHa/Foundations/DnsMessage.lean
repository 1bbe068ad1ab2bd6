/-
Module: MongoHa.Foundations.DnsMessage
Layer: Foundations
Purpose: Domain messages by the rules of RFC 1035, as far as a question section goes: the header, a name as
  its labels, and the questions. `encodeName` writes a name and `readName` reads it back, whatever follows
  it. Names are read uncompressed: an octet over 63 in front of a label is refused.
Imports: Mathlib.Algebra.BigOperators.Group.List.Basic, Mathlib.Algebra.Ring.Nat
Trusted boundary: human-reviewed spec
Main exports: Header, Question, Message, readName, readMessage, encodeName, Fits, readName_encodeName,
  length_encodeName
Open obligations: none
-/
import Mathlib.Algebra.BigOperators.Group.List.Basic
import Mathlib.Algebra.Ring.Nat

namespace Foundations.DnsMessage

/-- A label is the octets between two dots of a name. -/
abbrev Label := List UInt8

/-- The fixed part of a message: its id, its flags and the counts of its sections. -/
structure Header where
  id : UInt16
  flags : UInt16
  questions : UInt16
  answers : UInt16
  authorities : UInt16
  additionals : UInt16
deriving Repr, DecidableEq

namespace Header

/-- QR is clear in a query. -/
def isQuery (header : Header) : Prop :=
  header.flags &&& 0x8000 = 0

/-- OPCODE 0. -/
def isStandard (header : Header) : Prop :=
  header.flags &&& 0x7800 = 0

/-- RD. -/
def recursionDesired (header : Header) : Prop :=
  header.flags &&& 0x0100 ≠ 0

end Header

/-- What a query asks: a name, and the type and class of the records wanted. -/
structure Question where
  name : List Label
  qtype : UInt16
  qclass : UInt16
deriving Repr, DecidableEq

def Question.aaaa : UInt16 := 28

def Question.internet : UInt16 := 1

/-- A message without answers, as a resolver sends it. -/
structure Message where
  header : Header
  questions : List Question
deriving Repr, DecidableEq

/-! ### Reading -/

/-- Two octets in network order. -/
def word (high low : UInt8) : UInt16 :=
  (high.toNat * 256 + low.toNat).toUInt16

/-- The labels of a name up to the root, and what follows it. -/
def readName : List UInt8 → Option (List Label × List UInt8)
  | [] => none
  | octet :: rest =>
      if octet = 0 then some ([], rest)
      else if octet.toNat ≤ 63 ∧ octet.toNat ≤ rest.length then
        (readName (rest.drop octet.toNat)).map fun (labels, after) =>
          (rest.take octet.toNat :: labels, after)
      else none
termination_by octets => octets.length
decreasing_by
  have dropped : (rest.drop octet.toNat).length ≤ rest.length := (rest.drop_sublist _).length_le
  exact Nat.lt_succ_of_le dropped

def readQuestion (octets : List UInt8) : Option (Question × List UInt8) :=
  match readName octets with
  | some (name, t₁ :: t₀ :: c₁ :: c₀ :: rest) =>
      some ({ name := name, qtype := word t₁ t₀, qclass := word c₁ c₀ }, rest)
  | _ => none

def readQuestions : Nat → List UInt8 → Option (List Question × List UInt8)
  | 0, octets => some ([], octets)
  | count + 1, octets =>
      (readQuestion octets).bind fun (question, rest) =>
        (readQuestions count rest).map fun (questions, after) => (question :: questions, after)

/-- The header and the questions of a message, and what follows them. -/
def readMessage : List UInt8 → Option (Message × List UInt8)
  | i₁ :: i₀ :: f₁ :: f₀ :: q₁ :: q₀ :: a₁ :: a₀ :: n₁ :: n₀ :: r₁ :: r₀ :: rest =>
      let header : Header :=
        { id := word i₁ i₀, flags := word f₁ f₀, questions := word q₁ q₀, answers := word a₁ a₀
          authorities := word n₁ n₀, additionals := word r₁ r₀ }
      (readQuestions header.questions.toNat rest).map fun (questions, after) =>
        ({ header := header, questions := questions }, after)
  | _ => none

/-! ### Names -/

/-- The length octet of a label is never 0 and leaves its two high bits clear. -/
def Fits (label : Label) : Prop :=
  1 ≤ label.length ∧ label.length ≤ 63

instance (label : Label) : Decidable (Fits label) :=
  inferInstanceAs (Decidable (_ ∧ _))

def encodeLabel (label : Label) : List UInt8 :=
  label.length.toUInt8 :: label

/-- The QNAME of a name: its labels and the root. -/
def encodeName (labels : List Label) : List UInt8 :=
  labels.flatMap encodeLabel ++ [0]

/-- `u16::to_be_bytes`. -/
def beBytes (n : UInt16) : List UInt8 :=
  [(n >>> 8).toUInt8, n.toUInt8]

theorem word_beBytes (n : UInt16) : word (n >>> 8).toUInt8 n.toUInt8 = n := by
  apply UInt16.toNat_inj.1
  have small : n.toNat < 65536 := n.toNat_lt_size
  simp [word, Nat.shiftRight_eq_div_pow]
  omega

/-- A name whose labels fit reads back, whatever follows it. -/
theorem readName_encodeName {labels : List Label} (fits : ∀ label ∈ labels, Fits label)
    (rest : List UInt8) : readName (encodeName labels ++ rest) = some (labels, rest) := by
  induction labels with
  | nil => simp [encodeName, readName]
  | cons label labels ih =>
      rw [List.forall_mem_cons] at fits
      obtain ⟨⟨filled, short⟩, others⟩ := fits
      have octet : label.length.toUInt8.toNat = label.length := by
        simp only [Nat.toUInt8, UInt8.toNat_ofNat']
        omega
      have spelled : encodeName (label :: labels) ++ rest =
          label.length.toUInt8 :: (label ++ (encodeName labels ++ rest)) := by
        simp [encodeName, encodeLabel]
      have nonzero : label.length.toUInt8 ≠ 0 := by
        intro zero
        rw [zero] at octet
        simp at octet
        omega
      rw [spelled, readName, if_neg nonzero, octet, if_pos ⟨short, by simp⟩, List.drop_left,
        List.take_left, ih others]
      rfl

/-- A name takes one octet a label on top of the labels, and one for the root. -/
theorem length_encodeName (labels : List Label) :
    (encodeName labels).length = (labels.map fun label => label.length + 1).sum + 1 := by
  simp [encodeName, List.length_flatMap, encodeLabel]

end Foundations.DnsMessage
