import ClassFormat.ConstantPool.Decode
import ClassFormat.ConstantPool.Encode
import ClassFormat.Proofs.ConstantFormat

/-!
# The format of a constant pool

A pool is stored as its count and its constants without gaps; the count in front of a pool without
slots may be zero instead of one.  Empty slots have no bytes, so nothing in a stored pool says where
they are: the reader puts one behind each wide constant that has not taken the last slot, and
`reads_decode` says that it reads just the pools that are laid out in this way, from just their
stored forms.  `isLaidOut_iff` puts the layout slot by slot.

The loop of the reader is followed from the place it has reached: `FilledFrom` says what the slots
that are still to come are read from, and `FilledBehind` the same behind a constant that has just
been read, which takes the slot behind it too if it is wide.

## What is here

* `SlotStoredAs` — the format of a slot.  That of an empty one is the empty run, so a list of slots
  has the format `Repeated SlotStoredAs`, and where a slot is empty cannot be seen from the bytes.
* `EmptyBehindWide` — the layout slot by slot, for slots that may have others in front of them.
* `IsStoredAs` — the format of a pool, with its two freedoms: the spelling of texts, and the count
  in front of no slots.  `IsStoredAs.eq_encode` says that there are no others.
-/

set_option autoImplicit false

namespace ClassFormat

open Decoder

namespace ConstantPool

variable {n : Nat}

/-! ## Slots

A pool is stored slot by slot, although its bytes are those of its constants; an induction over
slots is then an induction over bytes as well. -/

/-- Which runs stand for a slot: those that stand for the constant in it, or no bytes. -/
def SlotStoredAs : Format (Option Constant)
  | some c, run => c.IsStoredAs run
  | none, run => run = []

theorem slotsStoredAs_encodeSlots {slots : List (Option Constant)}
    (h : ∀ c, some c ∈ slots → c.Storable) :
    Format.Repeated SlotStoredAs slots (encodeSlots slots) := by
  induction slots with
  | nil => exact .nil
  | cons slot slots ih =>
    have hslots := ih fun c hc => h c (List.mem_cons_of_mem _ hc)
    cases slot with
    | none => exact @Format.Repeated.cons _ SlotStoredAs none slots [] _ rfl hslots
    | some c =>
      have hc : SlotStoredAs (some c) c.encode := Constant.isStoredAs_encode (h c (by simp))
      exact .cons hc hslots

/-- Slots with plain constants have one stored form. -/
theorem eq_encodeSlots {slots : List (Option Constant)} {run : List UInt8}
    (h : Format.Repeated SlotStoredAs slots run) (hslots : ∀ c, some c ∈ slots → c.IsPlain) :
    run = encodeSlots slots := by
  induction h with
  | nil => rfl
  | @cons slot slots front back hslot _ ih =>
    have hback := ih fun c hc => hslots c (List.mem_cons_of_mem _ hc)
    cases slot with
    | none =>
      have hfront : front = [] := hslot
      rw [hfront, hback]
      rfl
    | some c =>
      have hfront : front = c.encode := Constant.IsStoredAs.eq_encode hslot (hslots c (by simp))
      rw [hfront, hback]
      rfl

/-! ## The layout of slots

`IsLaidOut` goes through the slots as the reader fills them, one or two at a time.  A maintainer of
the format would rather say which slots are empty; `isLaidOut_iff` says that it comes to the
same. -/

theorem isLaidOut_cons_iff_of_narrow {c : Constant} (hc : c.isWide = false)
    {slots : List (Option Constant)} : IsLaidOut (some c :: slots) ↔ IsLaidOut slots := by
  constructor
  · intro h
    cases h with
    | narrow _ h => exact h
    | wide hwide => rw [hwide] at hc; cases hc
    | wideLast hwide => rw [hwide] at hc; cases hc
  · exact .narrow hc

theorem isLaidOut_cons_iff_of_wide {c : Constant} (hc : c.isWide = true) {slot : Option Constant}
    {slots : List (Option Constant)} :
    IsLaidOut (some c :: slot :: slots) ↔ slot = none ∧ IsLaidOut slots := by
  constructor
  · intro h
    cases h with
    | narrow hnarrow => rw [hnarrow] at hc; cases hc
    | wide _ h => exact ⟨rfl, h⟩
  · rintro ⟨rfl, h⟩
    exact .wide hc h

/-- Whether just those slots are empty that stand behind a wide constant, where `before` stands in
front of the first of them. -/
def EmptyBehindWide (before : Option Constant) (slots : List (Option Constant)) : Prop :=
  ∀ i < slots.length,
    slots[i]? = some none ↔ ∃ c, (before :: slots)[i]? = some (some c) ∧ c.isWide = true

theorem emptyBehindWide_cons_iff {before slot : Option Constant}
    {slots : List (Option Constant)} : EmptyBehindWide before (slot :: slots) ↔
      (slot = none ↔ ∃ c, before = some c ∧ c.isWide = true) ∧ EmptyBehindWide slot slots := by
  constructor
  · intro h
    exact ⟨by simpa using h 0 (Nat.succ_pos _), fun i hi => h (i + 1) (Nat.succ_lt_succ hi)⟩
  · rintro ⟨hslot, hslots⟩ i hi
    cases i with
    | zero => simpa using hslot
    | succ i => exact hslots i (Nat.lt_of_succ_lt_succ hi)

theorem emptyBehindWide_narrow {c : Constant} (hc : c.isWide = false)
    {slots : List (Option Constant)} :
    EmptyBehindWide (some c) slots ↔ EmptyBehindWide none slots := by
  cases slots with
  | nil => simp [EmptyBehindWide]
  | cons slot slots => simp [emptyBehindWide_cons_iff, hc]

/-- **Slots are laid out if and only if just those behind a wide constant are empty.** -/
theorem isLaidOut_iff : (slots : List (Option Constant)) →
    (IsLaidOut slots ↔ EmptyBehindWide none slots)
  | [] => ⟨fun _ i hi => absurd hi (Nat.not_lt_zero i), fun _ => .nil⟩
  | none :: slots => by
    rw [emptyBehindWide_cons_iff]
    constructor
    · intro h
      cases h
    · rintro ⟨h, -⟩
      obtain ⟨c, hc, -⟩ := h.1 rfl
      cases hc
  | some c :: slots => by
    have hfirst : some c = none ↔ ∃ c' : Constant, none = some c' ∧ c'.isWide = true := by simp
    rw [emptyBehindWide_cons_iff, and_iff_right hfirst]
    by_cases hc : c.isWide = true
    · match slots with
      | [] => exact ⟨fun _ i hi => absurd hi (Nat.not_lt_zero i), fun _ => .wideLast hc⟩
      | slot :: slots =>
        have hslot : (slot = none ↔ ∃ c', some c = some c' ∧ c'.isWide = true) ↔ slot = none := by
          simp [hc]
        rw [isLaidOut_cons_iff_of_wide hc, emptyBehindWide_cons_iff, hslot]
        refine and_congr_right fun hnone => ?_
        rw [hnone]
        exact isLaidOut_iff slots
    · have hnarrow := Bool.eq_false_iff.2 hc
      rw [isLaidOut_cons_iff_of_narrow hnarrow, emptyBehindWide_narrow hnarrow]
      exact isLaidOut_iff slots

/-- Which runs are read into `room` more slots behind those already filled. -/
def FilledFrom (room : Nat) (slots : Array (Option Constant)) : Format (Array (Option Constant)) :=
  fun out run => ∃ new, out.toList = slots.toList ++ new ∧ new.length = room ∧ IsLaidOut new ∧
    Format.Repeated SlotStoredAs new run

/-- Which runs are read behind a constant, when there is room for that many more slots. -/
def FilledBehind (room : Nat) (slots : Array (Option Constant)) (c : Constant) :
    Format (Array (Option Constant)) :=
  fun out run => ∃ new, out.toList = slots.toList ++ some c :: new ∧ new.length = room ∧
    IsLaidOut (some c :: new) ∧ Format.Repeated SlotStoredAs new run

theorem filledFrom_zero {slots out : Array (Option Constant)} {run : List UInt8} :
    FilledFrom 0 slots out run ↔ out = slots ∧ run = [] := by
  constructor
  · rintro ⟨new, hout, hlength, -, hrun⟩
    obtain rfl := List.length_eq_zero_iff.1 hlength
    cases hrun
    exact ⟨Array.toList_inj.1 (hout.trans (List.append_nil _)), rfl⟩
  · rintro ⟨rfl, rfl⟩
    exact ⟨[], (List.append_nil _).symm, rfl, .nil, .nil⟩

theorem filledFrom_succ {room : Nat} {slots out : Array (Option Constant)} {run : List UInt8} :
    FilledFrom (room + 1) slots out run ↔
      ∃ c front back, run = front ++ back ∧ c.IsStoredAs front ∧
        FilledBehind room slots c out back := by
  constructor
  · rintro ⟨new, hout, hlength, hlaid, hrun⟩
    cases hrun with
    | nil => cases hlength
    | @cons slot new front back hslot hnew =>
      cases slot with
      | none => cases hlaid
      | some c =>
        exact ⟨c, front, back, rfl, hslot, new, hout, Nat.succ.inj hlength, hlaid, hnew⟩
  · rintro ⟨c, front, back, rfl, hc, new, hout, hlength, hlaid, hnew⟩
    have hslot : SlotStoredAs (some c) front := hc
    exact ⟨some c :: new, hout, congrArg (· + 1) hlength, hlaid, .cons hslot hnew⟩

/-- A narrow constant takes one slot. -/
theorem filledBehind_narrow {room : Nat} {slots out : Array (Option Constant)} {c : Constant}
    (hc : c.isWide = false) {run : List UInt8} :
    FilledBehind room slots c out run ↔ FilledFrom room (slots.push (some c)) out run := by
  simp only [FilledBehind, FilledFrom, isLaidOut_cons_iff_of_narrow hc, Array.toList_push,
    List.append_assoc, List.singleton_append]

/-- A wide constant takes two slots, if there are two. -/
theorem filledBehind_wide {room : Nat} {slots out : Array (Option Constant)} {c : Constant}
    (hc : c.isWide = true) {run : List UInt8} :
    FilledBehind (room + 1) slots c out run ↔
      FilledFrom room ((slots.push (some c)).push none) out run := by
  constructor
  · rintro ⟨new, hout, hlength, hlaid, hrun⟩
    cases hrun with
    | nil => cases hlength
    | @cons slot new front back hslot hnew =>
      obtain ⟨rfl, hlaid'⟩ := (isLaidOut_cons_iff_of_wide hc).1 hlaid
      obtain rfl : front = [] := hslot
      exact ⟨new, by simpa using hout, Nat.succ.inj hlength, hlaid', hnew⟩
  · rintro ⟨new, hout, hlength, hlaid, hnew⟩
    refine ⟨none :: new, by simpa using hout, congrArg (· + 1) hlength, .wide hc hlaid, ?_⟩
    exact @Format.Repeated.cons _ SlotStoredAs none new [] run rfl hnew

theorem filledBehind_wide_zero {slots out : Array (Option Constant)} {c : Constant}
    (hc : c.isWide = true) {run : List UInt8} :
    FilledBehind 0 slots c out run ↔ out = slots.push (some c) ∧ run = [] := by
  constructor
  · rintro ⟨new, hout, hlength, -, hrun⟩
    obtain rfl := List.length_eq_zero_iff.1 hlength
    cases hrun
    exact ⟨Array.toList_inj.1 (hout.trans (Array.toList_push ..).symm), rfl⟩
  · rintro ⟨rfl, rfl⟩
    exact ⟨[], Array.toList_push .., rfl, .wideLast hc, .nil⟩

theorem reads_decodeSlots : (room : Nat) → (slots : Array (Option Constant)) →
    Reads n (decodeSlots room slots) (FilledFrom room slots)
  | 0, slots => (Reads.pure slots).congr fun _ _ => filledFrom_zero.symm
  | room + 1, slots => by
    rw [decodeSlots.eq_def]
    refine ((Constant.reads_decode _).bind (G := FilledBehind room slots) fun c _ _ =>
      .record_bind ?_).congr fun _ _ => filledFrom_succ.symm
    by_cases hc : c.isWide = true
    · rw [if_pos hc]
      cases room with
      | zero => exact (Reads.pure _).congr fun _ _ => (filledBehind_wide_zero hc).symm
      | succ room =>
        exact ((reads_decodeSlots room _).congr fun _ _ => (filledBehind_wide hc).symm).mono
          (Nat.sub_le _ _)
    · rw [if_neg hc]
      exact ((reads_decodeSlots room _).congr fun _ _ =>
        (filledBehind_narrow (Bool.eq_false_iff.2 hc)).symm).mono (Nat.sub_le _ _)

/-! ## Pools -/

/-- Which runs stand for a pool: its count, which may be zero if there are no slots, and its slots
one behind the other. -/
def IsStoredAs (pool : ConstantPool) (run : List UInt8) : Prop :=
  ∃ count body, (count = pool.count ∨ pool.size = 0 ∧ count = 0) ∧
    Format.Repeated SlotStoredAs pool.slots.toList body ∧ run = BigEndian.bytes 2 count ++ body

theorem isStoredAs_encode {pool : ConstantPool} (h : pool.ConstantsStorable) :
    pool.IsStoredAs pool.encode :=
  ⟨pool.count, _, .inl rfl, slotsStoredAs_encodeSlots h, rfl⟩

/-- Whether all characters of all texts are spelled in the same way by both spellings. -/
def IsPlain (pool : ConstantPool) : Prop := ∀ c, some c ∈ pool.slots.toList → c.IsPlain

/-- A pool that has slots, and plain constants in them, has one stored form. -/
theorem IsStoredAs.eq_encode {pool : ConstantPool} {run : List UInt8} (h : pool.IsStoredAs run)
    (hsize : 0 < pool.size) (hplain : pool.IsPlain) :
    run = pool.encode := by
  obtain ⟨count, body, hcount, hbody, rfl⟩ := h
  obtain rfl : count = pool.count := hcount.resolve_right fun h => by omega
  rw [eq_encodeSlots hbody hplain, encode]

/-- **Just the stored forms of a pool are read as it,** and only pools that are laid out. -/
theorem reads_decode :
    Reads n decode fun pool run => pool.IsWellFormed ∧ pool.IsStoredAs run := by
  refine (Reads.u16.bind fun count _ _ => .record_bind
    ((reads_decodeSlots (count.toNat - 1) #[]).bind fun slots _ _ =>
      Reads.pure (ConstantPool.mk slots))).congr fun pool run => ?_
  rw [Format.exactly_bind]
  constructor
  · rintro ⟨count, _, rfl, -, slots, body, _, rfl, ⟨new, hnew, hlength, hlaid, hbody⟩, rfl, rfl⟩
    obtain rfl : slots.toList = new := hnew
    have hsize : slots.size = count.toNat - 1 := hlength
    have hcount := count.toNat_lt
    refine ⟨⟨?_, hlaid⟩, count.toNat, body, ?_, hbody, by rw [List.append_nil]⟩
    · show slots.size < 65535
      omega
    · show count.toNat = slots.size + 1 ∨ slots.size = 0 ∧ count.toNat = 0
      omega
  · rintro ⟨⟨hsize, hlaid⟩, count, body, hcount, hbody, rfl⟩
    have hlt : count < 2 ^ 16 := by rw [ConstantPool.count] at hcount; omega
    have htoNat : (UInt16.ofNat count).toNat = count := UInt16.toNat_ofNat_of_lt' hlt
    have hlength : pool.size = count - 1 := by rw [ConstantPool.count] at hcount; omega
    refine ⟨UInt16.ofNat count, body, by rw [htoNat], trivial, pool.slots, body, [],
      (List.append_nil _).symm, ⟨pool.slots.toList, rfl, ?_, hlaid, hbody⟩, rfl, rfl⟩
    rw [htoNat]
    exact hlength

end ConstantPool
end ClassFormat
