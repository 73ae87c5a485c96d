import ClassFormat.Attribute.Basic
import ClassFormat.Decoder

/-!
# Reading attributes

A stored attribute is the index of its name, the length of its payload, and the payload.  The name
is resolved first; then the payload is read in the layout of its kind, whatever length it declares;
and only then is the declared length compared with the number of bytes that were read.  The record
of an attribute follows those of the attributes inside it.

The attributes inside a method body are read in the same way, so the reader calls itself.  Every
level of nesting reads at least the six bytes in front of a payload, so the depth of nesting is less
than the number of bytes that are left: `decodeList` is given that number plus one as the `room` for
nesting, and never runs out of it.

## What is here

* `Code.decode` and `decodePayload` — the layouts.  Both are given the reader for the attributes
  inside a method body, so that neither refers to itself.
* `decodeWith` — one attribute, given that same reader.
* `decodeList` — the recursion over the room, which ties the knot.
* `decode` — the reader that is called from outside, with the room that `nestingRoom` finds.

That the room makes no difference is shown in `ClassFormat.Proofs.NestingRoom`: in front of any
number of bytes, `decode` does what the reader without a limit would do.
-/

set_option autoImplicit false

namespace ClassFormat

open Decoder

/-- Reads a handler. -/
def Handler.decode : Decoder Handler := do
  let startPc ← u16
  let endPc ← u16
  let handlerPc ← u16
  let catchType ← u16
  pure { startPc, endPc, handlerPc, catchType }

/-- Reads a method body, given the reader for so many attributes. -/
def Code.decode (inner : UInt16 → Decoder (List Attribute)) :
    Decoder (Code × List Attribute) := do
  let maxStack ← u16
  let maxLocals ← u16
  let length ← u32
  let bytecode ← bytes length.toNat
  let handlerCount ← u16
  let handlers ← times handlerCount.toNat Handler.decode
  let attributeCount ← u16
  let attributes ← inner attributeCount
  pure ({ maxStack, maxLocals, bytecode, handlers }, attributes)

namespace Attribute

/-- Reads the payload of an attribute of some kind.  Only an unknown kind looks at the declared
length. -/
def decodePayload (inner : UInt16 → Decoder (List Attribute)) (name : UInt16) (declared : UInt32) :
    Kind → Decoder Attribute
  | .deprecated => pure (deprecated name)
  | .synthetic => pure (synthetic name)
  | .sourceFile => do
    let file ← u16
    pure (sourceFile name file)
  | .constantValue => do
    let value ← u16
    pure (constantValue name value)
  | .signature => do
    let text ← u16
    pure (signature name text)
  | .code => do
    let (body, attributes) ← Code.decode inner
    pure (code name body attributes)
  | .other => do
    let payload ← bytes declared.toNat
    pure (other name payload)

/-- Reads an attribute, given the reader for the attributes inside a method body. -/
def decodeWith (inner : UInt16 → Decoder (List Attribute)) (pool : ConstantPool) :
    Decoder Attribute := do
  let name ← u16
  let declared ← u32
  let text ← lift (pool.utf8 name)
  let (a, consumed) ← measured (decodePayload inner name declared (Kind.ofName text))
  if consumed = declared.toNat then
    record (.attributeEnd text declared)
    pure a
  else
    throw (.lengthMismatch text declared consumed)

/-- Reads `count` attributes, with room for so many levels of nesting. -/
def decodeList (pool : ConstantPool) : (room : Nat) → (count : UInt16) → Decoder (List Attribute)
  | 0, _ => pure []
  | room + 1, count => times count.toNat (decodeWith (decodeList pool room) pool)

/-- The room for nesting that the rest of the buffer can take. -/
def nestingRoom : Decoder Nat := do
  let left ← remaining
  pure (left + 1)

/-- Reads `count` attributes. -/
def decode (pool : ConstantPool) (count : UInt16) : Decoder (List Attribute) := do
  let room ← nestingRoom
  decodeList pool room count

end Attribute
end ClassFormat
