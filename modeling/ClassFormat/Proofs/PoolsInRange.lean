import ClassFormat.Proofs.ReadsInRange
import ClassFormat.Proofs.SlotLayout

/-!
# Indices need no more than machine words

A machine counts the constants of a pool in 32 bits while it reads them, and names them with indices
of 16 bits.  A number that is cut down to fewer bits may become another one, and the place of a
constant is one less than its index, so the index zero must not be looked up.

There are three places with such steps, and each has a checked form beside the one that runs: the
loop over the constants, `decodeChecked`; the look-up of an index, `getChecked`; and the enumeration
of a pool, `entriesChecked`.  `none` stands for a step that leaves its range.

* `Checked` is an outcome that may be missing, and `inRange` one that is not.  A statement of the
  form `f? x = inRange (f x)` says both that no step leaves its range and that the result is the
  same.
* `fillChecked` is the loop as it is written with an index that goes up: it ends when the index has
  reached the count, and it looks at the index once more to see whether a wide constant has a slot
  behind it.  `fillChecked_eq` matches it with the loop over the room that is left.
* `decodeChecked_eq` holds for every count, also the greatest, where the index behind a wide
  constant may be 65536, which fits in 32 bits but not in 16.
* `mem_entries_iff` is what enumeration and look-up have to do with each other, for pools of up to
  65535 slots; in a greater one two places would have one index.
-/

set_option autoImplicit false

namespace ClassFormat

open Word Decoder

/-- What is found, if no step on the way leaves its range. -/
abbrev Checked (α : Type) : Type := ExceptT FormatError Option α

/-- What is found without leaving the range. -/
def inRange {α : Type} (r : Except FormatError α) : Checked α := ExceptT.mk (some r)

/-! ## The loop over the constants -/

namespace ConstantPool

/-- Reads constants for the slots from `index` on, up to a count.  The index has to fit in 16 bits
for a constant, and in 32 bits behind it. -/
def fillChecked (count index : Nat) (slots : Array (Option Constant)) :
    Decoder (Option (Array (Option Constant))) :=
  if index < count then
    if index < UInt16.size then do
      let c ← Constant.decode (.ofNat index)
      record (.poolEntry (.ofNat index) c)
      let filled := slots.push (some c)
      if index + c.slotCount < UInt32.size then
        fillChecked count (index + c.slotCount)
          (if c.isWide ∧ index + 1 < count then filled.push none else filled)
      else
        pure none
    else
      pure none
  else
    pure (some slots)
termination_by count - index
decreasing_by
  have := c.slotCount_pos
  omega

/-- Reads a pool. -/
def decodeChecked : Decoder (Option ConstantPool) := do
  let count ← u16
  record (.poolCount count)
  let slots ← fillChecked count.toNat 1 #[]
  pure (slots.map ConstantPool.mk)

theorem fillChecked_of_le {count index : Nat} (h : count ≤ index)
    (slots : Array (Option Constant)) : fillChecked count index slots = pure (some slots) := by
  rw [fillChecked, if_neg (Nat.not_lt_of_le h)]

/-- Behind a constant the loop goes on with the slots that it leaves. -/
theorem fillChecked_of_lt {count index : Nat} (h : index < count) (hlt : count < UInt16.size)
    (slots : Array (Option Constant)) : fillChecked count index slots = (do
      let c ← Constant.decode (.ofNat index)
      record (.poolEntry (.ofNat index) c)
      fillChecked count (index + c.slotCount)
        (if c.isWide ∧ index + 1 < count then (slots.push (some c)).push none
          else slots.push (some c))) := by
  rw [fillChecked, if_pos h, if_pos (Nat.lt_trans h hlt)]
  refine bind_congr fun c => bind_congr fun _ => if_pos ?_
  have hcount : c.slotCount ≤ 2 := by rw [Constant.slotCount]; split <;> omega
  have hshort : UInt16.size = 65536 := rfl
  have hword : UInt32.size = 4294967296 := rfl
  omega

/-- The index is one more than the number of slots that are filled. -/
theorem fillChecked_eq {count : Nat} (hlt : count < UInt16.size) : (room : Nat) →
    (slots : Array (Option Constant)) → count = slots.size + 1 + room →
      fillChecked count (slots.size + 1) slots = some <$> decodeSlots room slots
  | 0, slots, hcount => by
    rw [fillChecked_of_le (by omega), decodeSlots, map_pure]
  | room + 1, slots, hcount => by
    rw [fillChecked_of_lt (by omega) hlt, decodeSlots.eq_def, map_bind]
    refine bind_congr fun c => ?_
    rw [map_bind]
    refine bind_congr fun _ => ?_
    by_cases hwide : c.isWide = true
    · rw [if_pos hwide, Constant.slotCount_of_wide hwide]
      cases room with
      | zero => rw [if_neg (by omega), fillChecked_of_le (by omega), map_pure]
      | succ room =>
        have ih := fillChecked_eq hlt room ((slots.push (some c)).push none)
        rw [Array.size_push, Array.size_push] at ih
        rw [if_pos ⟨hwide, by omega⟩]
        exact ih (by omega)
    · have ih := fillChecked_eq hlt room (slots.push (some c))
      rw [Array.size_push] at ih
      rw [if_neg hwide, if_neg fun h => hwide h.1,
        Constant.slotCount_of_narrow (Bool.eq_false_iff.2 hwide)]
      exact ih (by omega)

/-- **No index of a pool is cut down, and none wraps around,** whatever count is declared. -/
theorem decodeChecked_eq : decodeChecked = some <$> decode := by
  rw [decodeChecked, decode, map_bind]
  refine bind_congr fun count => ?_
  rw [map_bind]
  refine bind_congr fun _ => ?_
  rw [map_bind]
  have hlt := count.toNat_lt
  have hfill : fillChecked count.toNat 1 #[] = some <$> decodeSlots (count.toNat - 1) #[] := by
    rcases Nat.eq_zero_or_pos count.toNat with hzero | hpos
    · rw [hzero, fillChecked_of_le (Nat.zero_le _), decodeSlots, map_pure]
    · exact fillChecked_eq hlt _ #[] (by rw [Array.size_empty]; omega)
  rw [hfill, bind_map_left]
  rfl

/-! ## Look-ups -/

/-- The constant with an index, which is in the place before. -/
def getChecked (pool : ConstantPool) (index : UInt16) : Checked Constant :=
  if index = 0 then
    throw (.invalidIndex index)
  else do
    let place ← ExceptT.lift (sub? index.toNat 1)
    match pool.slots[place]? with
    | some (some c) => pure c
    | _ => throw (.invalidIndex index)

/-- The index of a place: the place has to fit in 16 bits, and so does its index. -/
def indexChecked (place : Nat) : Option UInt16 := do
  let place ← fit? UInt16.size place
  let index ← add? UInt16.size place 1
  some (.ofNat index)

/-- The constants with their indices, in ascending order. -/
def entriesChecked (pool : ConstantPool) : Option (List (UInt16 × Constant)) :=
  (pool.slots.toList.zipIdx.filterMap fun (slot, i) => slot.map fun c => (i, c)).mapM
    fun (i, c) => (indexChecked i).map fun index => (index, c)

variable {pool : ConstantPool}

/-- **An index is looked up in range,** whether it names a constant or not. -/
theorem getChecked_eq (index : UInt16) : pool.getChecked index = inRange (pool.get index) := by
  rw [getChecked, get, constant?]
  by_cases hindex : index = 0
  · rw [if_pos hindex, if_pos hindex]
    rfl
  · have hpos : 1 ≤ index.toNat :=
      Nat.one_le_iff_ne_zero.2 fun h => hindex (UInt16.toNat_inj.1 h)
    rw [if_neg hindex, if_neg hindex, sub?_of_le hpos]
    show (match pool.slots[index.toNat - 1]? with
      | some (some c) => pure c
      | _ => throw (.invalidIndex index) : Checked Constant) = _
    cases hslot : pool.slots[index.toNat - 1]? with
    | none => rfl
    | some slot => cases slot <;> rfl

theorem indexChecked_of_lt {place : Nat} (h : place < 65535) :
    indexChecked place = some (.ofNat (place + 1)) := by
  have hshort : UInt16.size = 65536 := rfl
  rw [indexChecked, fit?_of_lt (by omega), Option.bind_eq_bind, Option.bind_some, add?,
    fit?_of_lt (by omega)]
  rfl

/-- A slot that is enumerated is a slot of the pool. -/
theorem slot_of_mem_zipIdx {slot : Option Constant} {place : Nat}
    (h : (slot, place) ∈ pool.slots.toList.zipIdx) :
    place < pool.size ∧ pool.slots[place]? = some slot := by
  rw [List.mk_mem_zipIdx_iff_getElem?, Array.getElem?_toList] at h
  exact ⟨(Array.getElem?_eq_some_iff.1 h).1, h⟩

/-- What can be found for each member of a list is found for all of them. -/
theorem mapM_eq_some {α β : Type} {f : α → Option β} {g : α → β} {xs : List α}
    (h : ∀ x ∈ xs, f x = some (g x)) : xs.mapM f = some (xs.map g) := by
  induction xs with
  | nil => rfl
  | cons x xs ih =>
    obtain ⟨hx, hxs⟩ := List.forall_mem_cons.1 h
    rw [List.mapM_cons, hx, ih hxs]
    rfl

/-- **Every place of a pool has an index,** up to the greatest number of slots that can be named. -/
theorem entriesChecked_eq (hsize : pool.size ≤ 65535) :
    pool.entriesChecked = some pool.entries := by
  rw [entriesChecked, mapM_eq_some (g := fun (i, c) => (UInt16.ofNat (i + 1), c)), entries,
    List.map_filterMap]
  · congr 2
    funext ⟨slot, i⟩
    cases slot <;> rfl
  · rintro ⟨i, c⟩ hmem
    obtain ⟨⟨slot, j⟩, hslot, hj⟩ := List.mem_filterMap.1 hmem
    obtain ⟨_, -, rfl, rfl⟩ : ∃ c', slot = some c' ∧ j = i ∧ c' = c := by
      simpa [Option.map_eq_some_iff] using hj
    have hlt := Nat.lt_of_lt_of_le (slot_of_mem_zipIdx hslot).1 hsize
    simp only [indexChecked_of_lt hlt, Option.map_some]

/-- **A constant is enumerated under just those indices that it is looked up by.** -/
theorem mem_entries_iff (hsize : pool.size ≤ 65535) {index : UInt16} {c : Constant} :
    (index, c) ∈ pool.entries ↔ pool.get index = .ok c := by
  have hmem : (index, c) ∈ pool.entries ↔
      ∃ place, (some c, place) ∈ pool.slots.toList.zipIdx ∧ .ofNat (place + 1) = index := by
    simp [entries, List.mem_filterMap, Option.map_eq_some_iff, and_left_comm]
  rw [hmem, get_eq_ok_iff]
  refine ⟨fun ⟨place, hplace, hindex⟩ => ?_, fun ⟨hindex, hslot⟩ => ?_⟩
  · obtain ⟨hlt, hslot⟩ := slot_of_mem_zipIdx hplace
    have hword : place + 1 < UInt16.size := Nat.succ_lt_succ (Nat.lt_of_lt_of_le hlt hsize)
    have htoNat : index.toNat = place + 1 := by rw [← hindex, UInt16.toNat_ofNat_of_lt' hword]
    refine ⟨fun hzero => ?_, by rwa [htoNat, Nat.add_sub_cancel]⟩
    rw [hzero] at htoNat
    exact absurd htoNat (Nat.zero_ne_add_one place)
  · have hpos : 1 ≤ index.toNat :=
      Nat.one_le_iff_ne_zero.2 fun h => hindex (UInt16.toNat_inj.1 h)
    refine ⟨index.toNat - 1, ?_, ?_⟩
    · rwa [List.mk_mem_zipIdx_iff_getElem?, Array.getElem?_toList]
    · rw [Nat.sub_add_cancel hpos, UInt16.ofNat_toNat]

end ConstantPool
end ClassFormat
