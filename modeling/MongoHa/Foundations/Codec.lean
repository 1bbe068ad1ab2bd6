/-
Module: MongoHa.Foundations.Codec
Layer: Foundations
Purpose: Bodies as bytes. A codec reads back what it wrote and reads nothing from a body that was cut off,
  so a reader of a file that was written in whole or in part finds the content or nothing. Every encoding
  of values as JSON documents that are no bare numbers is one, read as octets or as a text.
Imports: MongoHa.Foundations.AtomicFile, MongoHa.Foundations.Json
Trusted boundary: none (fully proved)
Main exports: Codec, Codec.Spells, Codec.Spells.read, Codec.json, Codec.asText
Open obligations: none
-/
import MongoHa.Foundations.AtomicFile
import MongoHa.Foundations.Json

namespace Foundations

open AtomicFile JsonDocuments RustStr

/-- An encoding of values as bytes. -/
structure Codec (α : Type*) where
  /-- The values that are ever encoded. -/
  valid : α → Prop
  encode : α → List UInt8
  decode : List UInt8 → Option α
  decode_encode : ∀ a, valid a → decode (encode a) = some a
  decode_cut : ∀ a cut, cut <+: encode a → cut ≠ encode a → decode cut = none

namespace Codec

variable {α β : Type*} (codec : Codec α)

/-- The bytes at a path where the file stands for some content. What is torn was cut off from a body. -/
inductive Spells (content : β → α) : File β → Option (List UInt8) → Prop where
  | absent : Spells content .absent none
  | torn {a : α} {cut : List UInt8} (inside : cut <+: codec.encode a) (strict : cut ≠ codec.encode a) :
      Spells content .torn (some cut)
  | body {b : β} {synced : Bool} (isValid : codec.valid (content b)) :
      Spells content (.body b synced) (some (codec.encode (content b)))

variable {codec}

/-- A reader of the bytes finds what the file stands for. -/
theorem Spells.read {content : β → α} {file : File β} {raw : Option (List UInt8)}
    (spells : codec.Spells content file raw) : raw.bind codec.decode = file.read.map content := by
  cases spells with
  | absent => rfl
  | torn inside strict => exact codec.decode_cut _ _ inside strict
  | body isValid => exact codec.decode_encode _ isValid

end Codec

/-! ### Documents as bytes -/

section Json

variable {α : Type*} (toJson : α → Json) (fromJson : Json → Option α) (valid : α → Prop)

/-- The document of a body, read as a value. -/
def decodeJson (raw : List UInt8) : Option α :=
  (Json.fromBody raw).bind fromJson

theorem decodeJson_body (document : Json) : decodeJson fromJson document.body = fromJson document := by
  rw [decodeJson, Json.fromBody_body, Option.bind_some]

theorem decodeJson_cut {document : Json} (closed : document.closed = true) {cut : List UInt8}
    (inside : cut <+: document.body) (strict : cut ≠ document.body) : decodeJson fromJson cut = none := by
  rw [decodeJson, Json.fromBody_of_strict_prefix closed inside strict, Option.bind_none]

/-- Values that are written as documents of their own. -/
def Codec.json (readBack : ∀ a, valid a → fromJson (toJson a) = some a)
    (closed : ∀ a, (toJson a).closed = true) : Codec α where
  valid := valid
  encode a := (toJson a).body
  decode := decodeJson fromJson
  decode_encode a isValid := (decodeJson_body fromJson (toJson a)).trans (readBack a isValid)
  decode_cut a _ := decodeJson_cut fromJson (closed a)

end Json

section Text

variable {α : Type*} (codec : Codec α)

/-- A reader that takes the bytes as a text first: `read_to_string`. -/
def decodeText (raw : List UInt8) : Option α :=
  (fromUtf8 raw).bind fun _ => codec.decode raw

/-- Values whose bytes are a text, read as one. -/
def Codec.asText (isText : ∀ a, ∃ text, codec.encode a = bytes text) : Codec α where
  valid := codec.valid
  encode := codec.encode
  decode := decodeText codec
  decode_encode a isValid := by
    obtain ⟨text, encoded⟩ := isText a
    have whole : fromUtf8 (codec.encode a) = some text := fromUtf8_eq_some.2 encoded
    rw [decodeText, whole, Option.bind_some, codec.decode_encode a isValid]
  decode_cut a cut inside strict := by
    rw [decodeText, codec.decode_cut a cut inside strict, Option.bind_fun_none]

end Text

end Foundations
