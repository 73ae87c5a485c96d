import ClassFormat.Bytes.Cursor
import ClassFormat.Constant.Document

/-!
# What can be wrong with a class file

Seven causes stop the decoding of a class file or the resolution of a symbol in it.  Each carries
the facts that its two texts need: `message` is a sentence for a reader, `document` the debug text.

* `FormatError` — the causes.  A truncation has the `Shortage` of the read that failed, and so is
  the only error with a place in the buffer; all others are about an index, a tag, a name or a
  number that has been read.
* `Expected` — what was looked for when a constant of another kind was found.
* `wrongKind` keeps the constant that was found, and both texts show it; so an error about a pool
  can be understood without the pool.
* `name` — the word that the debug text starts with.

What the errors say of the bytes in front of the place where decoding stops is shown in
`ClassFormat.Proofs.Blame`, and what those of a resolution say of the pool in
`ClassFormat.Proofs.Resolution`.
-/

set_option autoImplicit false

namespace ClassFormat

/-- What was looked for in the pool: a constant of one kind, or any constant that stands for a
text. -/
inductive Expected
  | kind (kind : Constant.Kind)
  | text
deriving DecidableEq, Repr

/-- The name of what was looked for. -/
def Expected.name : Expected → String
  | kind k => k.name
  | text => "text"

/-- Why decoding or resolving stopped. -/
inductive FormatError
  /-- The buffer ends inside something. -/
  | truncated (shortage : Shortage)
  /-- The first four bytes are not those of a class file. -/
  | badMagic (found : UInt32)
  /-- No kind of constant has this tag. -/
  | unknownTag (tag : UInt8) (index : UInt16)
  /-- The bytes of a text constant spell no text. -/
  | invalidText (index : UInt16)
  /-- No constant has this index. -/
  | invalidIndex (index : UInt16)
  /-- The constant with this index is not what was looked for. -/
  | wrongKind (index : UInt16) (expected : Expected) (found : Constant)
  /-- An attribute is not as long as it says. -/
  | lengthMismatch (name : String) (declared : UInt32) (consumed : Nat)
deriving DecidableEq, Repr

namespace FormatError

/-- The name of a cause, which starts its debug text. -/
def name : FormatError → String
  | truncated _ => "TruncatedInput"
  | badMagic _ => "BadMagic"
  | unknownTag _ _ => "UnknownConstantTag"
  | invalidText _ => "InvalidUtf8"
  | invalidIndex _ => "InvalidPoolIndex"
  | wrongKind _ _ _ => "WrongConstantKind"
  | lengthMismatch _ _ _ => "AttributeLengthMismatch"

/-- A number in hexadecimal digits, with capital letters. -/
def upperHex (n : Nat) : String := String.ofList ((Nat.toDigits 16 n).map Char.toUpper)

/-- The sentence that tells a reader what is wrong. -/
def message : FormatError → String
  | truncated s =>
    "Unexpected end of input at offset " ++ toString s.offset ++ ": needed " ++ toString s.needed
      ++ " bytes, " ++ toString s.remaining ++ " left"
  | badMagic found => "Invalid magic identifier: 0x" ++ upperHex found.toNat
  | unknownTag tag index =>
    "Invalid cp info tag " ++ toString tag.toNat ++ " at index " ++ toString index.toNat
  | invalidText index =>
    "Invalid modified UTF-8 in constant pool entry " ++ toString index.toNat
  | invalidIndex index => "Invalid constant pool index: " ++ toString index.toNat
  | wrongKind index expected found =>
    "Expected " ++ expected.name ++ " at constant pool index " ++ toString index.toNat
      ++ ", found " ++ found.debugText
  | lengthMismatch name declared consumed =>
    "Attribute " ++ name ++ " declares " ++ toString declared.toNat ++ " bytes but "
      ++ toString consumed ++ " were consumed"

open Document

/-- The debug text of an error, as a document. -/
def document (e : FormatError) : Document :=
  match e with
  | truncated s =>
    group (.record e.name)
      [field "offset" (number s.offset), field "needed" (number s.needed),
        field "remaining" (number s.remaining)]
  | badMagic found => group (.tuple e.name) [number found.toNat]
  | unknownTag tag index =>
    group (.record e.name)
      [field "tag" (number tag.toNat), field "index" (number index.toNat)]
  | invalidText index =>
    group (.record e.name)
      [field "index" (number index.toNat), field "source" (leaf "Cesu8DecodingError")]
  | invalidIndex index => group (.tuple e.name) [number index.toNat]
  | wrongKind index expected found =>
    group (.record e.name)
      [field "index" (number index.toNat), field "expected" (leaf (Quoted.quoted expected.name)),
        field "found" found.document]
  | lengthMismatch name declared consumed =>
    group (.record e.name)
      [field "name" (leaf (Quoted.quoted name)), field "declared" (number declared.toNat),
        field "consumed" (number consumed)]

example : (badMagic 0xDEADBEEF).message = "Invalid magic identifier: 0xDEADBEEF" := by
  decide +kernel
example : (badMagic 5).document.compact = "BadMagic(5)" := by decide +kernel

end FormatError
end ClassFormat
