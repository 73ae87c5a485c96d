import ClassFormat.FormatError

/-!
# The constant pool

A pool is a row of slots, numbered from one.  A slot holds a constant or nothing: the slot behind a
wide constant counts, but no index can name it.  Every look-up goes through `get`, which refuses the
index zero, an index behind the last slot, and an empty slot, all with the same error.

On top of it stand the look-ups by kind and the resolution of a symbol to text.  Resolution follows
at most one reference: what it leads to must be a text itself, so it ends on every pool, also on one
whose references form a circle.  `get_eq_ok_iff` reduces every look-up to the slots.

## What is here

* `ConstantPool` — any slots at all; where slots must be empty is said by `IsLaidOut`, not here, so
  look-ups are defined and lists of entries can be made for pools that nobody could have stored.
* `count` — one more than the number of slots.  It is found from the slots, so a pool that was
  stored with a count of zero has the count one.
* `get`, `expect`, `utf8`, `className` — the constant with an index, and the same under the
  condition that it is of some kind.  What is found instead goes into the error.
* `text` — the text that an index stands for, for a text and for each reference to a single text.
* `entries` — the constants with their indices.
-/

set_option autoImplicit false

namespace ClassFormat

/-- The constants of a class file, in slots numbered from one. -/
structure ConstantPool where
  slots : Array (Option Constant)
deriving DecidableEq, Repr

namespace ConstantPool

/-- A pool without slots. -/
def empty : ConstantPool := ⟨#[]⟩

/-- The number of slots. -/
def size (pool : ConstantPool) : Nat := pool.slots.size

/-- The count that is stored in front of a pool, one more than the number of slots. -/
def count (pool : ConstantPool) : Nat := pool.size + 1

/-- Whether there are no slots. -/
def isEmpty (pool : ConstantPool) : Bool := pool.slots.isEmpty

/-- The constant in a slot, if the slot exists and holds one. -/
def constant? (pool : ConstantPool) (index : UInt16) : Option Constant :=
  if index = 0 then none else (pool.slots[index.toNat - 1]?).join

/-- The constant with an index. -/
def get (pool : ConstantPool) (index : UInt16) : Except FormatError Constant :=
  match pool.constant? index with
  | some c => .ok c
  | none => .error (.invalidIndex index)

theorem get_eq_ok_iff {pool : ConstantPool} {index : UInt16} {c : Constant} :
    pool.get index = .ok c ↔ index ≠ 0 ∧ pool.slots[index.toNat - 1]? = some (some c) := by
  rw [get, constant?]
  by_cases h : index = 0
  · simp [h]
  · cases hs : pool.slots[index.toNat - 1]? with
    | none => simp [h]
    | some slot => cases slot <;> simp [h]

theorem get_eq_error_iff {pool : ConstantPool} {index : UInt16} {e : FormatError} :
    pool.get index = .error e ↔ pool.constant? index = none ∧ e = .invalidIndex index := by
  rw [get]
  cases pool.constant? index <;> simp [eq_comm]

/-! ## Look-ups by kind -/

/-- The constant with an index, provided it is of the kind that is looked for. -/
def expect (pool : ConstantPool) (kind : Constant.Kind) (index : UInt16) :
    Except FormatError Constant := do
  let c ← pool.get index
  if c.kind = kind then .ok c else .error (.wrongKind index (.kind kind) c)

/-- The text constant with an index. -/
def utf8 (pool : ConstantPool) (index : UInt16) : Except FormatError String := do
  match ← pool.get index with
  | .utf8 text => .ok text
  | c => .error (.wrongKind index (.kind .utf8) c)

/-- The name of the class reference with an index. -/
def className (pool : ConstantPool) (index : UInt16) : Except FormatError String := do
  match ← pool.get index with
  | .classRef name => pool.utf8 name
  | c => .error (.wrongKind index (.kind .classRef) c)

/-- The text that an index stands for: a text constant stands for itself, and a reference to a
single text for that text. -/
def text (pool : ConstantPool) (index : UInt16) : Except FormatError String := do
  match ← pool.get index with
  | .utf8 text => .ok text
  | .classRef name => pool.utf8 name
  | .stringRef text => pool.utf8 text
  | .methodType descriptor => pool.utf8 descriptor
  | .moduleRef name => pool.utf8 name
  | .packageRef name => pool.utf8 name
  | c => .error (.wrongKind index .text c)

theorem utf8_of_get {pool : ConstantPool} {index : UInt16} {text : String}
    (h : pool.get index = .ok (.utf8 text)) : pool.utf8 index = .ok text := by
  rw [utf8, h]
  rfl

theorem utf8_eq_ok_iff {pool : ConstantPool} {index : UInt16} {text : String} :
    pool.utf8 index = .ok text ↔ pool.get index = .ok (.utf8 text) := by
  refine ⟨fun h => ?_, utf8_of_get⟩
  rw [utf8] at h
  cases hget : pool.get index with
  | error e => rw [hget] at h; cases h
  | ok c => rw [hget] at h; cases c <;> cases h; rfl

/-- A look-up of a text fails with the look-up of the index, or on a constant of another kind. -/
theorem utf8_eq_error_iff {pool : ConstantPool} {index : UInt16} {e : FormatError} :
    pool.utf8 index = .error e ↔ pool.get index = .error e ∨
      ∃ found, pool.get index = .ok found ∧ found.kind ≠ .utf8 ∧
        e = .wrongKind index (.kind .utf8) found := by
  rw [utf8]
  cases hget : pool.get index with
  | error e' => simp [bind, Except.bind]
  | ok c => cases c <;> simp [bind, Except.bind, Constant.kind, eq_comm]

/-! ## Enumeration -/

/-- The constants with their indices, in ascending order. -/
def entries (pool : ConstantPool) : List (UInt16 × Constant) :=
  pool.slots.toList.zipIdx.filterMap fun (slot, i) => slot.map fun c => (UInt16.ofNat (i + 1), c)

/-- A pool with a wide constant in front of another one. -/
example : entries ⟨#[some (.long 1), none, some (.integer 2)]⟩ = [(1, .long 1), (3, .integer 2)] :=
  by decide

end ConstantPool
end ClassFormat
