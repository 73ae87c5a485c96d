/-!
# Access flags

Classes, fields and methods each have a word of access flags.  The same bit may mean different
things for the three owners: 0x0020 is `ACC_SUPER` for a class and `ACC_SYNCHRONIZED` for a method.
So each `FlagOwner` has a table of its own, `flags`, and everything else is defined once from the
table.

* `mask` has all the bits of the table, and `known` clears the others in a word.
* `names` are the names of the flags that are set, from the lowest bit to the highest, and `text`
  puts them on one line, which is how a report shows them.

Bits without a meaning for their owner are passed over and are no error.  A class file keeps the
word as it has been stored, since a writer has to give it back; clearing it changes no name
(`names_known`), so it does not matter that this is never done before it is shown.
-/

set_option autoImplicit false

namespace ClassFormat

/-- What a word of access flags belongs to. -/
inductive FlagOwner
  | classFile
  | field
  | method
deriving DecidableEq, Repr

namespace FlagOwner

/-- The flags of an owner: the bit and the name of each, from the lowest bit to the highest. -/
def flags : FlagOwner → List (UInt16 × String)
  | classFile =>
    [(0x0001, "ACC_PUBLIC"), (0x0010, "ACC_FINAL"), (0x0020, "ACC_SUPER"),
      (0x0200, "ACC_INTERFACE"), (0x0400, "ACC_ABSTRACT"), (0x1000, "ACC_SYNTHETIC"),
      (0x2000, "ACC_ANNOTATION"), (0x4000, "ACC_ENUM"), (0x8000, "ACC_MODULE")]
  | field =>
    [(0x0001, "ACC_PUBLIC"), (0x0002, "ACC_PRIVATE"), (0x0004, "ACC_PROTECTED"),
      (0x0008, "ACC_STATIC"), (0x0010, "ACC_FINAL"), (0x0040, "ACC_VOLATILE"),
      (0x0080, "ACC_TRANSIENT"), (0x1000, "ACC_SYNTHETIC"), (0x4000, "ACC_ENUM")]
  | method =>
    [(0x0001, "ACC_PUBLIC"), (0x0002, "ACC_PRIVATE"), (0x0004, "ACC_PROTECTED"),
      (0x0008, "ACC_STATIC"), (0x0010, "ACC_FINAL"), (0x0020, "ACC_SYNCHRONIZED"),
      (0x0040, "ACC_BRIDGE"), (0x0080, "ACC_VARARGS"), (0x0100, "ACC_NATIVE"),
      (0x0400, "ACC_ABSTRACT"), (0x0800, "ACC_STRICT"), (0x1000, "ACC_SYNTHETIC")]

/-- All bits that mean something for an owner. -/
def mask (owner : FlagOwner) : UInt16 := owner.flags.foldl (fun m flag => m ||| flag.1) 0

/-- The bits of a word that mean something for an owner. -/
def known (owner : FlagOwner) (word : UInt16) : UInt16 := word &&& owner.mask

/-- The names of the flags that are set in a word. -/
def names (owner : FlagOwner) (word : UInt16) : List String :=
  (owner.flags.filter fun flag => word &&& flag.1 = flag.1).map (·.2)

/-- The flags that are set in a word, as a text. -/
def text (owner : FlagOwner) (word : UInt16) : String := ", ".intercalate (owner.names word)

theorem mask_eq (owner : FlagOwner) : owner.mask =
    match owner with
    | classFile => 0xF631
    | field => 0x50DF
    | method => 0x1DFF := by
  cases owner <;> decide

/-- Clearing the bits without a meaning is done at once. -/
theorem known_known (owner : FlagOwner) (word : UInt16) :
    owner.known (owner.known word) = owner.known word := by
  rw [known, known, UInt16.and_assoc, UInt16.and_self]

/-- Bits without a meaning change no name. -/
theorem names_known (owner : FlagOwner) (word : UInt16) :
    owner.names (owner.known word) = owner.names word := by
  have h : ∀ flag ∈ owner.flags, owner.mask &&& flag.1 = flag.1 := by
    cases owner <;> decide
  rw [names, names]
  congr 1
  apply List.filter_congr
  intro flag hflag
  rw [known, UInt16.and_assoc, h flag hflag]

end FlagOwner
end ClassFormat
