import ClassFormat.Bytes.BigEndian
import ClassFormat.Constant.Basic
import ClassFormat.Text.ModifiedUtf8

/-!
# Writing a constant

The stored form of a constant: its tag, and then what it holds.  Texts are written in the modified
spelling, so they can be written if that spelling takes at most 65535 bytes.

* `encodeContent` has one line for each kind of constant, as `Constant.decodeContent` has for the
  reader; signed numbers are written as the words they are stored in.
* `encode` puts the tag in front.
* `Constant.Storable` is the condition on texts.  All other constants can be written, whatever their
  indices lead to.
-/

set_option autoImplicit false

namespace ClassFormat
namespace Constant

open BigEndian

/-- The stored form of what a constant holds. -/
def encodeContent : Constant → List UInt8
  | utf8 text =>
    let spelling := ModifiedUtf8.modified text
    bytes 2 spelling.length ++ spelling
  | integer value => bytes 4 value.toUInt32.toNat
  | float bits => bytes 4 bits.toNat
  | long value => bytes 8 value.toUInt64.toNat
  | double bits => bytes 8 bits.toNat
  | classRef name => bytes 2 name.toNat
  | stringRef text => bytes 2 text.toNat
  | fieldRef owner member => bytes 2 owner.toNat ++ bytes 2 member.toNat
  | methodRef owner member => bytes 2 owner.toNat ++ bytes 2 member.toNat
  | interfaceMethodRef owner member => bytes 2 owner.toNat ++ bytes 2 member.toNat
  | nameAndType name descriptor => bytes 2 name.toNat ++ bytes 2 descriptor.toNat
  | methodHandle referenceKind reference => referenceKind :: bytes 2 reference.toNat
  | methodType descriptor => bytes 2 descriptor.toNat
  | dynamic bootstrapMethod member => bytes 2 bootstrapMethod.toNat ++ bytes 2 member.toNat
  | invokeDynamic bootstrapMethod member => bytes 2 bootstrapMethod.toNat ++ bytes 2 member.toNat
  | moduleRef name => bytes 2 name.toNat
  | packageRef name => bytes 2 name.toNat

/-- The stored form of a constant. -/
def encode (c : Constant) : List UInt8 := c.kind.tag :: c.encodeContent

/-- Whether a constant can be stored: a text must not be too long. -/
def Storable : Constant → Prop
  | utf8 text => (ModifiedUtf8.modified text).length < limit 2
  | _ => True

example : encode (long (-2)) = [5, 255, 255, 255, 255, 255, 255, 255, 254] := by decide
example : encode (utf8 "a\x00") = [1, 0, 3, 0x61, 0xC0, 0x80] := by decide +kernel

end Constant
end ClassFormat
