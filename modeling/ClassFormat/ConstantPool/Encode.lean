import ClassFormat.Constant.Encode
import ClassFormat.ConstantPool.Basic

/-!
# Writing a constant pool

The stored form of a pool: its count, and then its constants without gaps.  An empty slot has no
bytes, so a pool comes back from its stored form only if its empty slots are where they belong: one
behind each wide constant that has not taken the last slot, and no others.  `IsLaidOut` says so.

* `encodeSlots` — the constants in some slots; its three equations go slot by slot, with nothing for
  an empty one.
* `encode` — the count and the slots.  The count is never zero, so a pool that was stored with a
  zero count is not written in the same way again.
* `IsLaidOut` — a relation with one constructor for each way in which the reader fills slots, so
  that an induction on it follows the reader.
* `IsWellFormed` — a pool that is laid out and whose count fits in two bytes.
* `ConstantsStorable` — that every text in it can be written.
-/

set_option autoImplicit false

namespace ClassFormat
namespace ConstantPool

open BigEndian

/-- The stored form of some slots. -/
def encodeSlots (slots : List (Option Constant)) : List UInt8 :=
  slots.flatMap fun
    | some c => c.encode
    | none => []

/-- The stored form of a pool. -/
def encode (pool : ConstantPool) : List UInt8 :=
  bytes 2 pool.count ++ encodeSlots pool.slots.toList

/-- Slots of which exactly those behind a wide constant are empty. -/
inductive IsLaidOut : List (Option Constant) → Prop
  /-- No slots. -/
  | nil : IsLaidOut []
  /-- A constant that takes one slot. -/
  | narrow {c : Constant} {slots : List (Option Constant)} (hc : c.isWide = false)
      (h : IsLaidOut slots) : IsLaidOut (some c :: slots)
  /-- A wide constant and the empty slot behind it. -/
  | wide {c : Constant} {slots : List (Option Constant)} (hc : c.isWide = true)
      (h : IsLaidOut slots) : IsLaidOut (some c :: none :: slots)
  /-- A wide constant that has taken the last slot. -/
  | wideLast {c : Constant} (hc : c.isWide = true) : IsLaidOut [some c]

/-- Whether the slots of a pool can be counted, and are empty where they have to be. -/
structure IsWellFormed (pool : ConstantPool) : Prop where
  size_lt : pool.size < 65535
  isLaidOut : IsLaidOut pool.slots.toList

/-- Whether every constant of a pool can be stored. -/
def ConstantsStorable (pool : ConstantPool) : Prop :=
  ∀ c, some c ∈ pool.slots.toList → c.Storable

@[simp] theorem encodeSlots_nil : encodeSlots [] = [] := rfl

@[simp] theorem encodeSlots_cons_some (c : Constant) (slots : List (Option Constant)) :
    encodeSlots (some c :: slots) = c.encode ++ encodeSlots slots := rfl

@[simp] theorem encodeSlots_cons_none (slots : List (Option Constant)) :
    encodeSlots (none :: slots) = encodeSlots slots := rfl

end ConstantPool
end ClassFormat
