import ClassFormat.Constant.Basic
import ClassFormat.Decimal.Written
import ClassFormat.Document
import ClassFormat.Text.Quoted

/-!
# The debug text of a constant

Most constants are shown as the name of their kind around what they hold; what a reference holds is
a record of the indices in it.  References to strings, modules and packages hold a single index each
and are records themselves.

* `content` is what a constant holds: a quoted text, a number, or a record of indices, which
  `indices` makes from labels and numbers.
* `document` puts the name of the kind around it, and `debugText` is its rendering on one line, in
  which a log shows a constant and the message of an error shows what was found.

Kinds that hold the same show the same: fields, methods and interface methods have one form of
record, and so have dynamic constants and dynamic calls.  The name of the kind tells them apart.
-/

set_option autoImplicit false

namespace ClassFormat
namespace Constant

open Document

/-- A record of numbers. -/
def indices (name : String) (fields : List (String × Nat)) : Document :=
  group (.record name) (fields.map fun (label, n) => field label (number n))

/-- What a constant holds. -/
def content : Constant → Document
  | utf8 text => leaf (Quoted.quoted text)
  | integer value => leaf (toString value.toInt)
  | float bits => leaf (Decimal.text .binary32 bits.toNat)
  | long value => leaf (toString value.toInt)
  | double bits => leaf (Decimal.text .binary64 bits.toNat)
  | classRef name => indices "ClassInfo" [("name_index", name.toNat)]
  | stringRef text => indices "String" [("string_index", text.toNat)]
  | fieldRef owner member | methodRef owner member
  | interfaceMethodRef owner member =>
    indices "RefInfo"
      [("class_index", owner.toNat), ("name_and_type_index", member.toNat)]
  | nameAndType name descriptor =>
    indices "NameAndTypeInfo"
      [("name_index", name.toNat), ("descriptor_index", descriptor.toNat)]
  | methodHandle referenceKind reference =>
    indices "MethodHandleInfo"
      [("reference_kind", referenceKind.toNat), ("reference_index", reference.toNat)]
  | methodType descriptor =>
    indices "MethodTypeInfo" [("descriptor_index", descriptor.toNat)]
  | dynamic bootstrapMethod member | invokeDynamic bootstrapMethod member =>
    indices "DynamicInfo"
      [("bootstrap_method_attr_index", bootstrapMethod.toNat),
        ("name_and_type_index", member.toNat)]
  | moduleRef name => indices "Module" [("name_index", name.toNat)]
  | packageRef name => indices "Package" [("name_index", name.toNat)]

/-- The debug text of a constant, as a document. -/
def document (c : Constant) : Document :=
  match c.kind with
  | .stringRef | .moduleRef | .packageRef => c.content
  | k => group (.tuple k.name) [c.content]

/-- The debug text of a constant on one line. -/
def debugText (c : Constant) : String := c.document.compact

example : (classRef 1).debugText = "Class(ClassInfo \x7b name_index: 1 \x7d)" := by decide +kernel
example : (stringRef 7).debugText = "String \x7b string_index: 7 \x7d" := by decide +kernel

end Constant
end ClassFormat
