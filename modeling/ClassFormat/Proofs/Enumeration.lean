import ClassFormat.ClassFile.Basic
import ClassFormat.Proofs.PoolsInRange

/-!
# A pool is listed as it is looked up

There are two ways from an index to a constant.  A look-up goes to the place before the index and
sees whether there is a constant.  The list of entries walks all places, passes over the empty ones,
and gives a constant the index behind its place.  `entries_are_lookups` says that they are inverse
to each other on every pool whose slots can be named at all, wherever its empty slots are: what is
listed is just what can be looked up, each constant once, and in the order of the indices.

A pool that has been read lists the constants that were read, in the order of their bytes, and the
index of each follows from the widths of those in front of it: `numbered` is that list.

* `entriesFrom` lists slots that have others in front of them, so that inductions go slot by slot;
  `entries_eq_entriesFrom` says that a pool is listed with none in front.
* `pairwise_entriesFrom` and `lt_of_mem_entriesFrom` are where the number of slots matters: the
  index of the last one has to be a word.
* `IsLaidOut.entriesFrom_eq` follows the layout, one constructor at a time, and finds `numbered`.
* `IsListedBy` is what is said of a list of entries, for any pool with slots that can be named.
-/

set_option autoImplicit false

namespace ClassFormat
namespace ConstantPool

open Decoder

/-! ## Slots with others in front of them -/

/-- The constants in some slots with their indices, when so many slots are in front of them. -/
def entriesFrom (taken : Nat) (slots : List (Option Constant)) : List (UInt16 × Constant) :=
  (slots.zipIdx taken).filterMap fun (slot, i) => slot.map fun c => (.ofNat (i + 1), c)

theorem entries_eq_entriesFrom (pool : ConstantPool) :
    pool.entries = entriesFrom 0 pool.slots.toList := rfl

@[simp] theorem entriesFrom_nil (taken : Nat) : entriesFrom taken [] = [] := rfl

@[simp] theorem entriesFrom_cons_some (taken : Nat) (c : Constant)
    (slots : List (Option Constant)) :
    entriesFrom taken (some c :: slots) =
      (.ofNat (taken + 1), c) :: entriesFrom (taken + 1) slots := rfl

@[simp] theorem entriesFrom_cons_none (taken : Nat) (slots : List (Option Constant)) :
    entriesFrom taken (none :: slots) = entriesFrom (taken + 1) slots := rfl

/-- Every constant is listed once, in the order of the slots. -/
theorem map_snd_entriesFrom (taken : Nat) (slots : List (Option Constant)) :
    (entriesFrom taken slots).map Prod.snd = constantsIn slots := by
  induction slots generalizing taken with
  | nil => rfl
  | cons slot slots ih =>
    cases slot with
    | none => exact ih (taken + 1)
    | some c => exact congrArg (c :: ·) (ih (taken + 1))

/-- Indices are behind the slots that are in front. -/
theorem lt_of_mem_entriesFrom {taken : Nat} {slots : List (Option Constant)}
    (hsize : taken + slots.length ≤ 65535) {entry : UInt16 × Constant}
    (h : entry ∈ entriesFrom taken slots) : taken < entry.1.toNat := by
  obtain ⟨⟨slot, i⟩, hslot, hentry⟩ := List.mem_filterMap.1 h
  obtain ⟨c, -, rfl⟩ := Option.map_eq_some_iff.1 hentry
  obtain ⟨hle, hlt, -⟩ := List.mem_zipIdx hslot
  have hword : i + 1 < UInt16.size := by
    have : UInt16.size = 65536 := rfl
    omega
  rw [UInt16.toNat_ofNat_of_lt' hword]
  exact Nat.lt_succ_of_le hle

/-- Indices ascend, up to the last one that can be named. -/
theorem pairwise_entriesFrom {taken : Nat} {slots : List (Option Constant)}
    (hsize : taken + slots.length ≤ 65535) :
    (entriesFrom taken slots).Pairwise fun a b => a.1 < b.1 := by
  induction slots generalizing taken with
  | nil => exact .nil
  | cons slot slots ih =>
    rw [List.length_cons] at hsize
    have hslots := @ih (taken + 1) (by omega)
    cases slot with
    | none => exact hslots
    | some c =>
      refine List.pairwise_cons.2 ⟨fun entry hentry => ?_, hslots⟩
      have hword : taken + 1 < UInt16.size := by
        have : UInt16.size = 65536 := rfl
        omega
      rw [UInt16.lt_iff_toNat_lt, UInt16.toNat_ofNat_of_lt' hword]
      exact lt_of_mem_entriesFrom (by omega) hentry

/-! ## The constants of a pool that is read -/

/-- Some constants with the indices that they get when so many slots are taken: each of them takes
the next slot, and the one behind it too if it is wide. -/
def numbered (taken : Nat) : List Constant → List (UInt16 × Constant)
  | [] => []
  | c :: cs => (.ofNat (taken + 1), c) :: numbered (taken + c.slotCount) cs

/-- Slots that are laid out list the constants in them under the indices that follow from the
widths. -/
theorem IsLaidOut.entriesFrom_eq {slots : List (Option Constant)} (h : IsLaidOut slots)
    (taken : Nat) : entriesFrom taken slots = numbered taken (constantsIn slots) := by
  induction h generalizing taken with
  | nil => rfl
  | @narrow c slots hc _ ih =>
    rw [entriesFrom_cons_some, ih, constantsIn_cons_some, numbered,
      Constant.slotCount_of_narrow hc]
  | @wide c slots hc _ ih =>
    rw [entriesFrom_cons_some, entriesFrom_cons_none, ih, constantsIn_cons_some,
      constantsIn_cons_none, numbered, Constant.slotCount_of_wide hc]
  | @wideLast c hc => rfl

/-! ## Listing and looking up -/

/-- Whether a list of entries is what the look-ups of a pool give. -/
structure IsListedBy (pool : ConstantPool) (listed : List (UInt16 × Constant)) : Prop where
  /-- The indices ascend, so none is listed twice. -/
  ascending : (listed.map Prod.fst).Pairwise (· < ·)
  /-- An index is listed with a constant if and only if it leads to that constant. -/
  mem_iff : ∀ (index : UInt16) (c : Constant), (index, c) ∈ listed ↔ pool.get index = .ok c
  /-- Every slot that is not empty is listed once, in the order of the slots. -/
  constants : listed.map Prod.snd = constantsIn pool.slots.toList
  /-- A text that is listed is found under its index, in the pool and in a class file with it. -/
  text : ∀ (index : UInt16) (text : String), (index, .utf8 text) ∈ listed →
    pool.utf8 index = .ok text ∧ ∀ c : ClassFile, c.pool = pool → c.resolve index = .ok text

theorem isListedBy_entries {pool : ConstantPool} (hsize : pool.size ≤ 65535) :
    pool.IsListedBy pool.entries where
  ascending := by
    have hslots : 0 + pool.slots.toList.length ≤ 65535 := by
      rw [Nat.zero_add]
      exact hsize
    rw [entries_eq_entriesFrom, List.pairwise_map]
    exact pairwise_entriesFrom hslots
  mem_iff index c := mem_entries_iff hsize
  constants := by rw [entries_eq_entriesFrom, map_snd_entriesFrom]
  text index text h := by
    have hget := (mem_entries_iff hsize).1 h
    refine ⟨utf8_of_get hget, ?_⟩
    rintro c rfl
    rw [ClassFile.resolve, ConstantPool.text, hget]
    rfl

/-- **What is listed is what can be looked up.**  In a pool of up to 65535 slots an index is listed
with just the constant that it leads to, in ascending order.  If the pool has been read, then what
is listed are the constants that were read, in the order of their bytes, each under its slot. -/
theorem entries_are_lookups {pool : ConstantPool} (hsize : pool.size ≤ 65535) :
    pool.IsListedBy pool.entries ∧
    ∀ s s' : Progress, decode.run s = (.ok pool, s') →
      ∃ (count : UInt16) (cs : List Constant) (body : List UInt8),
        s.cursor.Passes (BigEndian.bytes 2 count.toNat ++ body) s'.cursor ∧
        Format.Repeated Constant.IsStoredAs cs body ∧
        pool.entries.map Prod.snd = cs ∧ pool.entries = numbered 0 cs := by
  refine ⟨isListedBy_entries hsize, fun s s' h => ?_⟩
  have hread := reads_decode s pool s'.cursor (Nat.lt_succ_self _)
  obtain ⟨_, ⟨⟨hsmall, hlaid⟩, count, body, hcount, hbody, rfl⟩, hpasses⟩ :=
    hread.1 ⟨s'.log, h⟩
  have hsucc : pool.count = pool.size + 1 := rfl
  have hlt : count < 65536 := by omega
  have htoNat : (UInt16.ofNat count).toNat = count := UInt16.toNat_ofNat_of_lt' hlt
  exact ⟨.ofNat count, constantsIn pool.slots.toList, body, by rwa [htoNat],
    repeated_constantsIn hbody, map_snd_entriesFrom 0 _, hlaid.entriesFrom_eq 0⟩

/-- A pool with empty slots in front, behind, and side by side. -/
def scatteredPool : ConstantPool :=
  ⟨#[none, some (.utf8 "x"), none, none, some (.long 1), none]⟩

theorem entries_are_lookups_scatteredPool :
    scatteredPool.size ≤ 65535 ∧ scatteredPool.IsListedBy [(2, .utf8 "x"), (5, .long 1)] ∧
    wideLastPool.size ≤ 65535 ∧
    decode.run (.start wideLastBuffer) =
      (.ok wideLastPool, (decode.run (.start wideLastBuffer)).2) ∧
    ∃ (count : UInt16) (cs : List Constant) (body : List UInt8),
      (Cursor.ofBytes wideLastBuffer).Passes (BigEndian.bytes 2 count.toNat ++ body)
        (decode.run (.start wideLastBuffer)).2.cursor ∧
      Format.Repeated Constant.IsStoredAs cs body ∧
      wideLastPool.entries.map Prod.snd = cs ∧ wideLastPool.entries = numbered 0 cs := by
  have hscattered : scatteredPool.size ≤ 65535 := by decide
  have hread : wideLastPool.size ≤ 65535 := by decide
  have hrun : decode.run (.start wideLastBuffer) =
      (.ok wideLastPool, (decode.run (.start wideLastBuffer)).2) := Prod.ext rfl rfl
  exact ⟨hscattered, (entries_are_lookups hscattered).1, hread, hrun,
    (entries_are_lookups hread).2 _ _ hrun⟩

end ConstantPool
end ClassFormat
