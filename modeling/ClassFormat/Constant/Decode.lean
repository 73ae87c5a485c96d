import ClassFormat.Decoder
import ClassFormat.Text.ModifiedUtf8

/-!
# Reading a constant

A stored constant is a tag byte and then what the kind under that tag holds.  An unknown tag and a
text that cannot be spelled out are reported with the index that the constant would have had; the
bytes of such a text have been read by then.

* `decodeText` reads a text.  Its bytes are taken in one piece, as many as their length says, and
  are handed as a whole to `ModifiedUtf8.decode`, which stands for a reader of texts that comes from
  outside.  A text is the only constant whose bytes can all be there and still be wrong.
* `decodeIndex` and `decodeIndices` read what most references hold, which is one index or two.
* `decodeContent` branches on the kind, with one line for each.
* `decode` reads the tag and finds the kind.  It is given the index for its errors only: what is
  read does not depend on it.
-/

set_option autoImplicit false

namespace ClassFormat
namespace Constant

open Decoder

/-- Reads a text: its length in bytes, and its bytes. -/
def decodeText (index : UInt16) : Decoder Constant := do
  let length ← u16
  let spelling ← bytes length.toNat
  match ModifiedUtf8.decode spelling with
  | some text => pure (utf8 text)
  | none => throw (.invalidText index)

/-- Reads one index. -/
def decodeIndex (make : UInt16 → Constant) : Decoder Constant := do
  let a ← u16
  pure (make a)

/-- Reads two indices. -/
def decodeIndices (make : UInt16 → UInt16 → Constant) : Decoder Constant := do
  let a ← u16
  let b ← u16
  pure (make a b)

/-- Reads what a constant of some kind holds. -/
def decodeContent (index : UInt16) : Kind → Decoder Constant
  | .utf8 => decodeText index
  | .integer => do
    let value ← read .i32
    pure (integer value)
  | .float => do
    let bits ← u32
    pure (float bits)
  | .long => do
    let value ← read .i64
    pure (long value)
  | .double => do
    let bits ← read .u64
    pure (double bits)
  | .classRef => decodeIndex classRef
  | .stringRef => decodeIndex stringRef
  | .fieldRef => decodeIndices fieldRef
  | .methodRef => decodeIndices methodRef
  | .interfaceMethodRef => decodeIndices interfaceMethodRef
  | .nameAndType => decodeIndices nameAndType
  | .methodHandle => do
    let referenceKind ← u8
    let reference ← u16
    pure (methodHandle referenceKind reference)
  | .methodType => decodeIndex methodType
  | .dynamic => decodeIndices dynamic
  | .invokeDynamic => decodeIndices invokeDynamic
  | .moduleRef => decodeIndex moduleRef
  | .packageRef => decodeIndex packageRef

/-- Reads the constant that is to have the given index. -/
def decode (index : UInt16) : Decoder Constant := do
  let tag ← u8
  match Kind.ofTag? tag with
  | some kind => decodeContent index kind
  | none => throw (.unknownTag tag index)

end Constant
end ClassFormat
