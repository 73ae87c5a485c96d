import ClassFormat.Attribute.Encode
import ClassFormat.ClassFile.Basic
import ClassFormat.ConstantPool.Encode

/-!
# Writing a class file

The stored form of a class file: its parts in order, each list behind the number of its members.

* `encodeHeader`, `ConstantPool.encode` and `encodeBody` are the three parts of `encode`, in front
  of the pool, the pool, and behind it, as the reader goes.
* `Attribute.encodeList` and `Member.encodeList` put the number of the members in front.

The writer takes any class file, and not every one can be read back.  `Storable` says which can, and
it has two halves.  `IsWellFormed` is what every class file has that has been read: slots are empty
where they have to be, names select kinds, and all lengths and counts fit.  Behind it there is a
bound on the length of the texts.  A text that has been read may be too long for it, because it may
have been stored in the standard spelling, which takes four bytes for a character above U+FFFF,
where the modified one takes six.

`ClassFormat.Proofs.RoundTrip` shows that the reader undoes the writer on `Storable` class files,
and that it gives well-formed ones only.
-/

set_option autoImplicit false

namespace ClassFormat

open BigEndian

/-- The stored form of a list of attributes, with their number. -/
def Attribute.encodeList (attributes : List Attribute) : List UInt8 :=
  bytes 2 attributes.length ++ Attribute.encodeAll attributes

namespace Member

/-- The stored form of a member. -/
def encode (m : Member) : List UInt8 :=
  bytes 2 m.accessFlags.toNat ++ bytes 2 m.name.toNat ++ bytes 2 m.descriptor.toNat
    ++ Attribute.encodeList m.attributes

/-- The stored form of some members, with their number. -/
def encodeList (members : List Member) : List UInt8 :=
  bytes 2 members.length ++ members.flatMap encode

/-- Whether some members can be stored and come back. -/
def Storable (pool : ConstantPool) (members : List Member) : Prop :=
  members.length < limit 2 ∧ ∀ m ∈ members, Attribute.Storable pool m.attributes

end Member

namespace ClassFile

/-- The stored form of what lies in front of the pool. -/
def encodeHeader (c : ClassFile) : List UInt8 :=
  bytes 4 magicNumber.toNat ++ bytes 2 c.minorVersion.toNat ++ bytes 2 c.majorVersion.toNat

/-- The stored form of what lies behind the pool. -/
def encodeBody (c : ClassFile) : List UInt8 :=
  bytes 2 c.accessFlags.toNat ++ bytes 2 c.thisClass.toNat ++ bytes 2 c.superClass.toNat
    ++ bytes 2 c.interfaces.length ++ c.interfaces.flatMap (fun i => bytes 2 i.toNat)
    ++ Member.encodeList c.fields
    ++ Member.encodeList c.methods
    ++ Attribute.encodeList c.attributes

/-- The stored form of a class file. -/
def encode (c : ClassFile) : List UInt8 := c.encodeHeader ++ c.pool.encode ++ c.encodeBody

/-- Whether the parts of a class file belong together: slots are empty where they have to be, every
attribute is of the kind that its name selects, and all lengths and counts can be stored. -/
structure IsWellFormed (c : ClassFile) : Prop where
  pool : c.pool.IsWellFormed
  interfaces : c.interfaces.length < limit 2
  fields : Member.Storable c.pool c.fields
  methods : Member.Storable c.pool c.methods
  attributes : Attribute.Storable c.pool c.attributes

/-- Whether a class file can be stored and comes back: then its texts must not be too long either.
-/
structure Storable (c : ClassFile) : Prop extends IsWellFormed c where
  constants : c.pool.ConstantsStorable

end ClassFile
end ClassFormat
