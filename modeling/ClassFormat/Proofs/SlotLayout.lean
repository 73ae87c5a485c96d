import ClassFormat.Proofs.PoolFormat

/-!
# Where the constants of a pool end up

A pool is read constant by constant, and nothing in its bytes says which slot a constant goes to.
The slot follows from the constants in front of it: each of them takes one slot, or two if it is
wide, and the first slot has the number one.  `slotOf` is this rule, and `slot_layout` says that the
reader keeps to it, whatever mixture of constants it reads: it stops at the first constant that
fills the declared count, every constant is found under its slot, and no other index leads anywhere.

The slot behind a wide constant leads nowhere in either of two ways.  It is an empty slot of the
pool, or the wide constant has taken the last slot and there is none behind it.

## What is here

* `slotsTaken` and `slotOf` — the rule, by the constants alone.  Nothing in it mentions a pool.
* `constantsIn` — the constants in some slots, in order.  For slots that have been read these are
  the constants that were read, since an empty slot has no bytes (`repeated_constantsIn`).
* `IsFilledBy pool count cs` — all that there is to say of a pool that has come from a count and
  some constants: how many slots it has, that the constants are just enough for them, where each is
  found, that every other index is refused, and which slots are empty.
* `isFilledBy_constantsIn` — slots that are laid out are filled by the constants in them.  This does
  not mention the reader; `slot_layout` only adds the format of a pool.
-/

set_option autoImplicit false

namespace ClassFormat

open Decoder

theorem Constant.slotCount_of_narrow {c : Constant} (hc : c.isWide = false) : c.slotCount = 1 := by
  rw [slotCount, hc]
  rfl

theorem Constant.slotCount_of_wide {c : Constant} (hc : c.isWide = true) : c.slotCount = 2 := by
  rw [slotCount, hc]
  rfl

namespace ConstantPool

/-- The number of slots that some constants take up. -/
def slotsTaken : List Constant → Nat
  | [] => 0
  | c :: cs => c.slotCount + slotsTaken cs

/-- The slot of the constant at a place in a list, the first place being zero: the one behind those
that the constants in front of it take up. -/
def slotOf (cs : List Constant) (k : Nat) : Nat := 1 + slotsTaken (cs.take k)

/-- The constants in some slots. -/
def constantsIn (slots : List (Option Constant)) : List Constant := slots.filterMap id

@[simp] theorem slotsTaken_nil : slotsTaken [] = 0 := rfl

@[simp] theorem slotsTaken_cons (c : Constant) (cs : List Constant) :
    slotsTaken (c :: cs) = c.slotCount + slotsTaken cs := rfl

@[simp] theorem constantsIn_cons_some (c : Constant) (slots : List (Option Constant)) :
    constantsIn (some c :: slots) = c :: constantsIn slots := rfl

@[simp] theorem constantsIn_cons_none (slots : List (Option Constant)) :
    constantsIn (none :: slots) = constantsIn slots := rfl

/-- Slots without bytes are passed over: what is stored are the constants. -/
theorem repeated_constantsIn {slots : List (Option Constant)} {run : List UInt8}
    (h : Format.Repeated SlotStoredAs slots run) :
    Format.Repeated Constant.IsStoredAs (constantsIn slots) run := by
  induction h with
  | nil => exact .nil
  | @cons slot slots front back hslot _ ih =>
    cases slot with
    | none =>
      obtain rfl : front = [] := hslot
      exact ih
    | some c => exact .cons hslot ih

/-! ## Slots counted from zero

`StandsBehind cs i c` says that some constants take `i` slots in front of a `c` that is one of them.
It goes along with a list of constants one constant at a time, as `IsLaidOut` goes along with slots,
and `IsLaidOut.getElem?_eq_some_iff` is the induction in which the two meet. -/

/-- Whether `c` is one of some constants, with `i` slots taken up in front of it. -/
def StandsBehind (cs : List Constant) (i : Nat) (c : Constant) : Prop :=
  ∃ k, cs[k]? = some c ∧ slotsTaken (cs.take k) = i

theorem not_standsBehind_nil {i : Nat} {c : Constant} : ¬ StandsBehind [] i c := by
  rintro ⟨k, hc, -⟩
  cases hc

theorem standsBehind_cons {c c' : Constant} {cs : List Constant} {i : Nat} :
    StandsBehind (c :: cs) i c' ↔
      c = c' ∧ i = 0 ∨ ∃ j, i = c.slotCount + j ∧ StandsBehind cs j c' := by
  rw [StandsBehind, ← Nat.or_exists_add_one]
  simp only [List.getElem?_cons_zero, List.getElem?_cons_succ, List.take_zero, slotsTaken_nil,
    List.take_succ_cons, slotsTaken_cons, Option.some.injEq]
  refine or_congr (and_congr_right fun _ => eq_comm) ⟨?_, ?_⟩
  · rintro ⟨k, hc, hi⟩
    exact ⟨_, hi.symm, k, hc, rfl⟩
  · rintro ⟨_, rfl, k, hc, rfl⟩
    exact ⟨k, hc, rfl⟩

/-- In the slots that a constant takes up there is that constant, and only in the first of them. -/
theorem standsBehind_cons_of_lt {c c' : Constant} {cs : List Constant} {i : Nat}
    (hi : i < c.slotCount) : StandsBehind (c :: cs) i c' ↔ c = c' ∧ i = 0 := by
  rw [standsBehind_cons, or_iff_left]
  rintro ⟨j, hj, -⟩
  omega

/-- Behind it the other constants stand as they would without it. -/
theorem standsBehind_cons_add {c c' : Constant} {cs : List Constant} {i : Nat} :
    StandsBehind (c :: cs) (c.slotCount + i) c' ↔ StandsBehind cs i c' := by
  have := c.slotCount_pos
  rw [standsBehind_cons, or_iff_right (by omega)]
  constructor
  · rintro ⟨j, hj, h⟩
    obtain rfl : i = j := by omega
    exact h
  · exact fun h => ⟨i, rfl, h⟩

/-- **A slot holds a constant if and only if the slots in front of it are just those that the
constants in front of it take up.** -/
theorem IsLaidOut.getElem?_eq_some_iff {slots : List (Option Constant)} (h : IsLaidOut slots)
    {i : Nat} {c : Constant} :
    slots[i]? = some (some c) ↔ StandsBehind (constantsIn slots) i c := by
  induction h generalizing i with
  | nil => simp [constantsIn, not_standsBehind_nil]
  | @narrow c₀ slots hc _ ih =>
    have hcount := Constant.slotCount_of_narrow hc
    cases i with
    | zero => simp [standsBehind_cons_of_lt, hcount]
    | succ i =>
      rw [constantsIn_cons_some, ← Nat.add_comm 1, ← hcount, standsBehind_cons_add, ← ih, hcount,
        Nat.add_comm 1, List.getElem?_cons_succ]
  | @wide c₀ slots hc _ ih =>
    have hcount := Constant.slotCount_of_wide hc
    match i with
    | 0 => simp [standsBehind_cons_of_lt, hcount]
    | 1 => simp [standsBehind_cons_of_lt, hcount]
    | i + 2 =>
      rw [constantsIn_cons_some, constantsIn_cons_none, ← Nat.add_comm 2, ← hcount,
        standsBehind_cons_add, ← ih, hcount, Nat.add_comm 2, List.getElem?_cons_succ,
        List.getElem?_cons_succ]
  | @wideLast c₀ hc =>
    have hcount := Constant.slotCount_of_wide hc
    match i with
    | 0 => simp [constantsIn, standsBehind_cons_of_lt, hcount]
    | 1 => simp [constantsIn, standsBehind_cons_of_lt, hcount]
    | i + 2 =>
      rw [← Nat.add_comm 2, ← hcount, constantsIn_cons_some, standsBehind_cons_add]
      simp [constantsIn, not_standsBehind_nil, hcount, Nat.add_comm 2]

/-- The constants in the slots fill them all; the last constant may reach beyond them. -/
theorem IsLaidOut.length_le {slots : List (Option Constant)} (h : IsLaidOut slots) :
    slots.length ≤ slotsTaken (constantsIn slots) := by
  induction h with
  | nil => exact Nat.le_refl 0
  | @narrow c slots hc _ ih =>
    have := c.slotCount_pos
    rw [constantsIn_cons_some, slotsTaken_cons, List.length_cons]
    omega
  | @wide c slots hc _ ih =>
    rw [constantsIn_cons_some, constantsIn_cons_none, slotsTaken_cons,
      Constant.slotCount_of_wide hc, List.length_cons, List.length_cons]
    omega
  | @wideLast c hc => exact c.slotCount_pos

/-- None of the constants in the slots has less than one slot to itself. -/
theorem IsLaidOut.slotsTaken_lt {slots : List (Option Constant)} (h : IsLaidOut slots) {k : Nat}
    (hk : k < (constantsIn slots).length) :
    slotsTaken ((constantsIn slots).take k) < slots.length := by
  have hslot := h.getElem?_eq_some_iff.2 ⟨k, List.getElem?_eq_getElem hk, rfl⟩
  exact (List.getElem?_eq_some_iff.1 hslot).1

/-! ## Indices

An index is one more than the number of slots in front of its constant; with this, what has been
shown of slots is what there is to know of look-ups. -/

variable {pool : ConstantPool}

/-- An index leads to a constant if and only if it is the slot of that constant. -/
theorem get_eq_ok_iff_slotOf (h : IsLaidOut pool.slots.toList) {index : UInt16} {c : Constant} :
    pool.get index = .ok c ↔
      ∃ k, (constantsIn pool.slots.toList)[k]? = some c ∧
        slotOf (constantsIn pool.slots.toList) k = index.toNat := by
  have hzero : index ≠ 0 ↔ 1 ≤ index.toNat := by
    rw [Ne, ← UInt16.toNat_inj, Nat.one_le_iff_ne_zero]
    rfl
  rw [get_eq_ok_iff, ← Array.getElem?_toList, h.getElem?_eq_some_iff, hzero]
  simp only [StandsBehind, slotOf]
  constructor
  · rintro ⟨hpos, k, hc, htaken⟩
    exact ⟨k, hc, by omega⟩
  · rintro ⟨k, hc, hindex⟩
    exact ⟨by omega, k, hc, by omega⟩

theorem get_eq_error_of_not_ok {index : UInt16} (h : ∀ c, pool.get index ≠ .ok c) :
    pool.get index = .error (.invalidIndex index) := by
  cases hget : pool.get index with
  | ok c => exact absurd hget (h c)
  | error e => rw [(get_eq_error_iff.1 hget).2]

/-- The index behind a wide constant leads nowhere, whether or not there is a slot behind it. -/
theorem get_eq_error_behind_wide (h : IsLaidOut pool.slots.toList) {index next : UInt16}
    {c : Constant} (hget : pool.get index = .ok c) (hwide : c.isWide = true)
    (hnext : next.toNat = index.toNat + 1) :
    pool.get next = .error (.invalidIndex next) := by
  obtain ⟨hindex, hslot⟩ := get_eq_ok_iff.1 hget
  have hpos : index.toNat ≠ 0 := fun h0 => hindex (UInt16.toNat_inj.1 h0)
  refine get_eq_error_of_not_ok fun c' hget' => ?_
  obtain ⟨-, hslot'⟩ := get_eq_ok_iff.1 hget'
  have hbehind : next.toNat - 1 = index.toNat - 1 + 1 := by omega
  rw [hbehind, ← Array.getElem?_toList] at hslot'
  rw [← Array.getElem?_toList] at hslot
  have hlt := (List.getElem?_eq_some_iff.1 hslot').1
  have hempty := ((isLaidOut_iff _).1 h _ hlt).2 ⟨c, hslot, hwide⟩
  rw [hempty] at hslot'
  cases hslot'

/-- A slot is empty if and only if the one in front of it holds a wide constant. -/
theorem IsLaidOut.getElem?_eq_none_iff {slots : List (Option Constant)} (h : IsLaidOut slots)
    {i : Nat} (hi : i < slots.length) :
    slots[i]? = some none ↔ ∃ j c, i = j + 1 ∧ slots[j]? = some (some c) ∧ c.isWide = true := by
  rw [(isLaidOut_iff slots).1 h i hi]
  cases i with
  | zero => simp
  | succ i => simp

/-! ## The pool that is read

Two of the fields of `IsFilledBy` tell which constants have been read: those in front of the last
one do not fill the slots, and all of them do.  The others tell what has become of them. -/

/-- Whether a pool is what becomes of some constants, in their order, behind a count. -/
structure IsFilledBy (pool : ConstantPool) (count : UInt16) (cs : List Constant) : Prop where
  /-- There is one slot less than the count says. -/
  size_eq : pool.size = count.toNat - 1
  /-- The counts zero and one are the same. -/
  count_eq : pool.count = max count.toNat 1
  /-- There are enough constants to fill the slots. -/
  enough : count.toNat ≤ slotOf cs cs.length
  /-- There are no more than are needed. -/
  least : ∀ m < cs.length, slotOf cs m < count.toNat
  /-- Every constant is found under its slot. -/
  found : ∀ k (hk : k < cs.length), pool.get (.ofNat (slotOf cs k)) = .ok cs[k]
  /-- Every other index is refused. -/
  refused : ∀ index : UInt16, (∀ k < cs.length, slotOf cs k ≠ index.toNat) →
    pool.get index = .error (.invalidIndex index)
  /-- In particular, so is the index behind a wide constant, -/
  behindWide : ∀ (index next : UInt16) (c : Constant), pool.get index = .ok c → c.isWide = true →
    next.toNat = index.toNat + 1 → pool.get next = .error (.invalidIndex next)
  /-- and slots are empty nowhere else. -/
  empty_iff : ∀ i < pool.size, pool.slots[i]? = some none ↔
    ∃ j c, i = j + 1 ∧ pool.slots[j]? = some (some c) ∧ c.isWide = true

/-- Slots that are laid out are filled by the constants in them. -/
theorem isFilledBy_constantsIn (h : IsLaidOut pool.slots.toList) {count : UInt16}
    (hcount : count.toNat = pool.count ∨ pool.size = 0 ∧ count.toNat = 0) :
    pool.IsFilledBy count (constantsIn pool.slots.toList) := by
  have hlength : pool.slots.toList.length = pool.size := Array.length_toList
  have hsucc : pool.count = pool.size + 1 := rfl
  have hslotOf (k : Nat) (hk : k < (constantsIn pool.slots.toList).length) :
      slotOf (constantsIn pool.slots.toList) k < count.toNat := by
    have := h.slotsTaken_lt hk
    rw [slotOf]
    omega
  constructor
  case size_eq => omega
  case count_eq => omega
  case enough =>
    have := h.length_le
    rw [slotOf, List.take_length]
    omega
  case least => exact hslotOf
  case found =>
    intro k hk
    have hlt := Nat.lt_trans (hslotOf k hk) count.toNat_lt
    exact (get_eq_ok_iff_slotOf h).2
      ⟨k, List.getElem?_eq_getElem hk, (UInt16.toNat_ofNat_of_lt' hlt).symm⟩
  case refused =>
    intro index hindex
    refine get_eq_error_of_not_ok fun c hget => ?_
    obtain ⟨k, hk, hslot⟩ := (get_eq_ok_iff_slotOf h).1 hget
    exact hindex k (List.getElem?_eq_some_iff.1 hk).1 hslot
  case behindWide => exact fun index next c => get_eq_error_behind_wide h
  case empty_iff =>
    intro i hi
    simpa only [Array.getElem?_toList] using h.getElem?_eq_none_iff (hlength ▸ hi)

/-- **Every constant ends up in the slot that the constants in front of it leave to it.**  A pool
that is read has been read from a count and from constants that stand one behind the other, and
these constants fill it. -/
theorem slot_layout {s s' : Progress} (h : decode.run s = (.ok pool, s')) :
    ∃ (count : UInt16) (cs : List Constant) (body : List UInt8),
      s.cursor.Passes (BigEndian.bytes 2 count.toNat ++ body) s'.cursor ∧
      Format.Repeated Constant.IsStoredAs cs body ∧ pool.IsFilledBy count cs := by
  have hread := reads_decode s pool s'.cursor (Nat.lt_succ_self _)
  obtain ⟨_, ⟨⟨hsize, hlaid⟩, count, body, hcount, hbody, rfl⟩, hpasses⟩ := hread.1 ⟨s'.log, h⟩
  have hsucc : pool.count = pool.size + 1 := rfl
  have hlt : count < 65536 := by omega
  have htoNat : (UInt16.ofNat count).toNat = count := UInt16.toNat_ofNat_of_lt' hlt
  exact ⟨.ofNat count, constantsIn pool.slots.toList, body, by rwa [htoNat],
    repeated_constantsIn hbody, isFilledBy_constantsIn hlaid (by rwa [htoNat])⟩

/-- A count of five, with wide constants in the first slot and in the last one. -/
def wideLastBuffer : List UInt8 :=
  [0, 5, 5, 0, 0, 0, 0, 0, 0, 0, 7, 7, 0, 1, 6, 0, 0, 0, 0, 0, 0, 0, 0, 0xFF]

/-- The pool in that buffer. -/
def wideLastPool : ConstantPool := ⟨#[some (.long 7), none, some (.classRef 1), some (.double 0)]⟩

theorem slot_layout_wideLastBuffer :
    decode.run (.start wideLastBuffer) =
      (.ok wideLastPool, (decode.run (.start wideLastBuffer)).2) ∧
    ∃ (count : UInt16) (cs : List Constant) (body : List UInt8),
      (Cursor.ofBytes wideLastBuffer).Passes (BigEndian.bytes 2 count.toNat ++ body)
        (decode.run (.start wideLastBuffer)).2.cursor ∧
      Format.Repeated Constant.IsStoredAs cs body ∧ wideLastPool.IsFilledBy count cs := by
  have h : decode.run (.start wideLastBuffer) =
      (.ok wideLastPool, (decode.run (.start wideLastBuffer)).2) := Prod.ext rfl rfl
  exact ⟨h, slot_layout h⟩

end ConstantPool
end ClassFormat
