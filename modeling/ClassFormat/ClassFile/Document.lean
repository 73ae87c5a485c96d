import ClassFormat.Attribute.Document
import ClassFormat.ClassFile.Basic
import ClassFormat.ConstantPool.Document

/-!
# The debug text of a class file

A class file is shown with everything in it, and so is the outcome of decoding one, which is either
a class file or an error.

* `Member.document` — a field or a method: its three numbers and its attributes.
* `ClassFile.document` — a class file.  The number it starts with is shown too, although it is
  always the same and is not kept in a `ClassFile`; counts are not shown.
* `outcomeDocument` — the outcome, with a word in front that says which of the two it is.

Numbers are shown as they are stored: access flags as a number and not by name, and names as the
indices that lead to them.
-/

set_option autoImplicit false

namespace ClassFormat

open Document

/-- The debug text of a member, as a document. -/
def Member.document (m : Member) : Document :=
  group (.record "MemberInfo")
    [field "access_flags" (number m.accessFlags.toNat), field "name_index" (number m.name.toNat),
      field "descriptor_index" (number m.descriptor.toNat),
      field "attributes" (Attribute.listDocument m.attributes)]

namespace ClassFile

/-- The debug text of a class file, as a document. -/
def document (c : ClassFile) : Document :=
  group (.record "ClassFile")
    [field "magic" (number magicNumber.toNat),
      field "minor_version" (number c.minorVersion.toNat),
      field "major_version" (number c.majorVersion.toNat),
      field "constant_pool" c.pool.document,
      field "access_flags" (number c.accessFlags.toNat),
      field "this_class" (number c.thisClass.toNat),
      field "super_class" (number c.superClass.toNat),
      field "interfaces" (group .list (c.interfaces.map fun i => number i.toNat)),
      field "fields" (group .list (c.fields.map Member.document)),
      field "methods" (group .list (c.methods.map Member.document)),
      field "attributes" (Attribute.listDocument c.attributes)]

/-- The debug text of the outcome of decoding, as a document. -/
def outcomeDocument : Except FormatError ClassFile → Document
  | .ok c => group (.tuple "Ok") [c.document]
  | .error e => group (.tuple "Err") [e.document]

end ClassFile
end ClassFormat
