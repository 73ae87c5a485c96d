import ClassFormat.Constant.Decode
import ClassFormat.ConstantPool.Basic

/-!
# Reading a constant pool

A stored pool is a count, one more than the number of slots, and then the constants without gaps.
The counts zero and one both stand for a pool without slots.  A wide constant is followed by an
empty slot unless it has taken the last one; no bytes are stored for the empty slot.

* `decodeSlots` is the loop.  It goes by the number of slots that are still to be filled, so it ends
  whatever the buffer holds; the index of the next constant is one more than the number of slots
  that are filled.
* `decode` reads the count and starts the loop.  Truncated subtraction makes the counts zero and one
  the same.

Behind a wide constant the loop looks at the room once more.  If none is left, then the constant has
taken the last slot, and no empty slot follows.
-/

set_option autoImplicit false

namespace ClassFormat
namespace ConstantPool

open Decoder

/-- Reads constants until `room` more slots are filled, behind those already filled. -/
def decodeSlots : (room : Nat) → (slots : Array (Option Constant)) →
    Decoder (Array (Option Constant))
  | 0, slots => pure slots
  | room + 1, slots => do
    let index := UInt16.ofNat (slots.size + 1)
    let c ← Constant.decode index
    record (.poolEntry index c)
    if c.isWide then
      match room with
      | 0 => pure (slots.push (some c))
      | room + 1 => decodeSlots room ((slots.push (some c)).push none)
    else
      decodeSlots room (slots.push (some c))

/-- Reads a pool. -/
def decode : Decoder ConstantPool := do
  let count ← u16
  record (.poolCount count)
  let slots ← decodeSlots (count.toNat - 1) #[]
  pure ⟨slots⟩

end ConstantPool
end ClassFormat
