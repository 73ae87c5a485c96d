import ClassFormat.Decimal.Binary

/-!
# Constants

The constant pool of a class file holds seventeen kinds of constants: texts, numbers, and
references, which name other constants by their pool index.  A `Constant` is one of them with what
it holds; its `Kind` carries the tag byte under which the kind is stored and the name under which it
is shown.

Floating-point constants are kept as words, so nothing of a word is lost and equality of constants
is decidable; `sameValue` is the other equality, which compares them as numbers.

## What is here

* `Constant` — a constant.  References are indices: nothing is said here about what they lead to,
  and a reference to itself is a constant like any other.
* `Kind` — the kinds by themselves, with `Kind.tag` and `Kind.name`.  Readers and resolvers branch
  on a kind before there is a constant of it, and errors name a kind that was looked for in vain.
* `Kind.ofTag?` — the kind under a tag.  It searches the list of all kinds, so that there is one
  table of tags and not two that have to agree; `Kind.ofTag?_eq_some_iff` and
  `Kind.ofTag?_eq_none_iff` are all that is needed of it.
* `isWide` and `slotCount` — long and double constants take two slots of the pool, all others one.
* `sameValue` — equality of values.
-/

set_option autoImplicit false

namespace ClassFormat

/-- A constant of the pool. -/
inductive Constant
  | utf8 (text : String)
  | integer (value : Int32)
  | float (bits : UInt32)
  | long (value : Int64)
  | double (bits : UInt64)
  | classRef (name : UInt16)
  | stringRef (text : UInt16)
  | fieldRef (owner member : UInt16)
  | methodRef (owner member : UInt16)
  | interfaceMethodRef (owner member : UInt16)
  | nameAndType (name descriptor : UInt16)
  | methodHandle (referenceKind : UInt8) (reference : UInt16)
  | methodType (descriptor : UInt16)
  | dynamic (bootstrapMethod member : UInt16)
  | invokeDynamic (bootstrapMethod member : UInt16)
  | moduleRef (name : UInt16)
  | packageRef (name : UInt16)
deriving DecidableEq, Repr

namespace Constant

/-- The kinds of constants. -/
inductive Kind
  | utf8
  | integer
  | float
  | long
  | double
  | classRef
  | stringRef
  | fieldRef
  | methodRef
  | interfaceMethodRef
  | nameAndType
  | methodHandle
  | methodType
  | dynamic
  | invokeDynamic
  | moduleRef
  | packageRef
deriving DecidableEq, Repr

namespace Kind

/-- All kinds, in the order of their tags. -/
def all : List Kind :=
  [utf8, integer, float, long, double, classRef, stringRef, fieldRef, methodRef,
    interfaceMethodRef, nameAndType, methodHandle, methodType, dynamic, invokeDynamic, moduleRef,
    packageRef]

/-- The tag byte in front of a stored constant. -/
def tag : Kind → UInt8
  | utf8 => 1
  | integer => 3
  | float => 4
  | long => 5
  | double => 6
  | classRef => 7
  | stringRef => 8
  | fieldRef => 9
  | methodRef => 10
  | interfaceMethodRef => 11
  | nameAndType => 12
  | methodHandle => 15
  | methodType => 16
  | dynamic => 17
  | invokeDynamic => 18
  | moduleRef => 19
  | packageRef => 20

/-- The kind stored under a tag. -/
def ofTag? (tag : UInt8) : Option Kind := all.find? (·.tag == tag)

/-- The name under which a kind is shown. -/
def name : Kind → String
  | utf8 => "Utf8"
  | integer => "Integer"
  | float => "Float"
  | long => "Long"
  | double => "Double"
  | classRef => "Class"
  | stringRef => "String"
  | fieldRef => "FieldRef"
  | methodRef => "MethodRef"
  | interfaceMethodRef => "InterfaceMethodRef"
  | nameAndType => "NameAndType"
  | methodHandle => "MethodHandle"
  | methodType => "MethodType"
  | dynamic => "Dynamic"
  | invokeDynamic => "InvokeDynamic"
  | moduleRef => "Module"
  | packageRef => "Package"

/-- The kind that is shown under a name. -/
def ofName? (name : String) : Option Kind := all.find? (·.name == name)

theorem mem_all (k : Kind) : k ∈ all := by cases k <;> decide

theorem ofTag?_tag (k : Kind) : ofTag? k.tag = some k := by cases k <;> rfl

/-- A tag stands for a kind exactly if it is the tag of that kind. -/
theorem ofTag?_eq_some_iff {tag : UInt8} {k : Kind} : ofTag? tag = some k ↔ tag = k.tag := by
  constructor
  · intro h
    have htag := List.find?_some h
    exact (by simpa using htag : k.tag = tag).symm
  · rintro rfl
    exact ofTag?_tag k

theorem ofTag?_eq_none_iff {tag : UInt8} : ofTag? tag = none ↔ ∀ k : Kind, k.tag ≠ tag := by
  simp [ofTag?, mem_all]

theorem ofName?_name (k : Kind) : ofName? k.name = some k := by cases k <;> decide +kernel

end Kind

/-- The kind of a constant. -/
def kind : Constant → Kind
  | utf8 _ => .utf8
  | integer _ => .integer
  | float _ => .float
  | long _ => .long
  | double _ => .double
  | classRef _ => .classRef
  | stringRef _ => .stringRef
  | fieldRef _ _ => .fieldRef
  | methodRef _ _ => .methodRef
  | interfaceMethodRef _ _ => .interfaceMethodRef
  | nameAndType _ _ => .nameAndType
  | methodHandle _ _ => .methodHandle
  | methodType _ => .methodType
  | dynamic _ _ => .dynamic
  | invokeDynamic _ _ => .invokeDynamic
  | moduleRef _ => .moduleRef
  | packageRef _ => .packageRef

/-- Whether a constant takes up two slots of the pool. -/
def isWide : Constant → Bool
  | long _ => true
  | double _ => true
  | _ => false

/-- The number of slots that a constant takes up. -/
def slotCount (c : Constant) : Nat := if c.isWide then 2 else 1

theorem slotCount_pos (c : Constant) : 0 < c.slotCount := by
  rw [slotCount]; split <;> decide

/-- Whether two constants are equal as values: floating-point constants are compared as numbers,
all others by what they hold. -/
def sameValue : Constant → Constant → Bool
  | float a, float b => BinaryFormat.binary32.numericEq a.toNat b.toNat
  | double a, double b => BinaryFormat.binary64.numericEq a.toNat b.toNat
  | a, b => a == b

/-- A number that is not a number differs from itself, and the two zeros are equal. -/
example : sameValue (float 0x7FC00000) (float 0x7FC00000) = false
    ∧ sameValue (double 0) (double 0x8000000000000000) = true := by decide

end Constant
end ClassFormat
