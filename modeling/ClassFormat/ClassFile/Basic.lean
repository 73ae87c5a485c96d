import ClassFormat.AccessFlags
import ClassFormat.Attribute.Basic

/-!
# Class files

A class file is a version, a constant pool, the indices of the class and of its superclass, the
interfaces, the fields and methods with their attributes, and attributes of its own.  The questions
asked of it are answered through the pool: names are resolved when they are asked for, and a name
that cannot be resolved is an error of the question and not of the class file.

The entry point is the first method called `main` that takes an array of strings and returns
nothing.  A descriptor is looked at only under that name, and nothing behind the entry point is
looked at.  Neither are its flags: a method is found whether it is public and static or not.

## What is here

* `Member` and `ClassFile` — what has been read.  A field and a method have the same parts, so they
  are one type; names, descriptors and classes are indices.
* `Member.findEntry` — the search for the entry point, which `ClassFile.entryPoint` starts at the
  first method.
* `resolve` — the text that an index stands for.
* `className`, `superClassName`, `interfaceNames`, `sourceFile`, `isDeprecated` — the questions that
  a report asks.  The index zero means that there is no superclass, and no other index does.
-/

set_option autoImplicit false

namespace ClassFormat

/-- A field or a method. -/
structure Member where
  accessFlags : UInt16
  name : UInt16
  descriptor : UInt16
  attributes : List Attribute
deriving Repr

/-- The number that starts every class file. -/
def magicNumber : UInt32 := 0xCAFEBABE

/-- A class file.  Names of classes are indices into the pool; there is no superclass if its index
is zero. -/
structure ClassFile where
  minorVersion : UInt16
  majorVersion : UInt16
  pool : ConstantPool
  accessFlags : UInt16
  thisClass : UInt16
  superClass : UInt16
  interfaces : List UInt16
  fields : List Member
  methods : List Member
  attributes : List Attribute
deriving Repr

namespace Member

/-- The name of a member. -/
def nameText (pool : ConstantPool) (m : Member) : Except FormatError String := pool.utf8 m.name

/-- The descriptor of a member, which is its type. -/
def descriptorText (pool : ConstantPool) (m : Member) : Except FormatError String :=
  pool.utf8 m.descriptor

/-- The name of the method that a program starts from. -/
def entryName : String := "main"

/-- The descriptor of the method that a program starts from. -/
def entryDescriptor : String := "([Ljava/lang/String;)V"

/-- Whether a program can start from a method. -/
def isEntry (pool : ConstantPool) (m : Member) : Except FormatError Bool := do
  let name ← m.nameText pool
  if name = entryName then
    let descriptor ← m.descriptorText pool
    pure (descriptor = entryDescriptor)
  else
    pure false

/-- The first of some methods that a program can start from, with its position when the first of
them stands at `start`. -/
def findEntry (pool : ConstantPool) (start : Nat) :
    List Member → Except FormatError (Option (Nat × Member))
  | [] => .ok none
  | m :: methods => do
    if ← m.isEntry pool then .ok (some (start, m)) else findEntry pool (start + 1) methods

end Member

namespace ClassFile

/-- The text that an index stands for. -/
def resolve (c : ClassFile) (index : UInt16) : Except FormatError String := c.pool.text index

/-- The name of the class. -/
def className (c : ClassFile) : Except FormatError String := c.pool.className c.thisClass

/-- The name of the superclass, if there is one. -/
def superClassName (c : ClassFile) : Except FormatError (Option String) :=
  if c.superClass = 0 then .ok none else (c.pool.className c.superClass).map some

/-- The names of the interfaces. -/
def interfaceNames (c : ClassFile) : Except FormatError (List String) :=
  c.interfaces.mapM c.pool.className

/-- The method that a program starts from, with its position. -/
def entryPoint (c : ClassFile) : Except FormatError (Option (Nat × Member)) :=
  Member.findEntry c.pool 0 c.methods

/-- Whether the class is marked as deprecated. -/
def isDeprecated (c : ClassFile) : Bool := Attribute.hasDeprecated c.attributes

/-- The name of the source file, if there is one. -/
def sourceFile (c : ClassFile) : Except FormatError (Option String) :=
  match Attribute.firstSourceFile? c.attributes with
  | some file => (c.pool.utf8 file).map some
  | none => .ok none

end ClassFile
end ClassFormat
