import ClassFormat.Proofs.Account
import ClassFormat.Proofs.Blame
import ClassFormat.Proofs.Enumeration

/-!
# What is told of a pool

The reader of a pool makes a line of the count, and one of each constant as soon as it has been
read.  When it comes to the end, these are the constants that the pool lists, under the indices
under which it lists them: `ConstantPool.leaves_decode` equates the lines that the loop makes, from
the number of slots it has filled by then, with the listing of the finished pool.

When it breaks off, then there is a constant which is not complete, or not in order.  The lines are
those of the constants in front of it, under the indices that their widths give them, and there is
none of that constant: `ConstantPool.BreaksOff`.

* `Constant.silent_decode` — no constant makes a record while it is read, so
  `Constant.leaves_decode` is its format and its faults.
* `countLine` and `entryLine` — the two sorts of lines.  The line of the count is that of the count
  which has been stored; this is the only thing in it that cannot be known from the pool.
* `SlotsTold` and `SlotsBreakOff` — what the loop has told behind the slots that were filled when it
  started.  They are the account of `decodeSlots`, and are followed constant by constant.
* `ConstantPool.lines` — the lines of a pool, from its entries.
-/

set_option autoImplicit false

namespace ClassFormat

open Decoder

variable {n : Nat}

/-! ## Constants -/

namespace Constant

theorem silent_decodeText (index : UInt16) : Silent (decodeText index) := by
  refine .bind (.read .u16) fun length => .bind (.read _) fun spelling => ?_
  split
  · exact .pure _
  · exact .throw _

theorem silent_decodeIndex (make : UInt16 → Constant) : Silent (decodeIndex make) :=
  .bind (.read .u16) fun a => .pure (make a)

theorem silent_decodeIndices (make : UInt16 → UInt16 → Constant) : Silent (decodeIndices make) :=
  .bind (.read .u16) fun a => .bind (.read .u16) fun b => .pure (make a b)

theorem silent_decodeContent (index : UInt16) (kind : Kind) :
    Silent (decodeContent index kind) := by
  cases kind with
  | utf8 => exact silent_decodeText index
  | integer | float | long | double => exact .bind (.read _) fun _ => .pure _
  | methodHandle => exact .bind (.read .u8) fun _ => .bind (.read .u16) fun _ => .pure _
  | classRef | stringRef | methodType | moduleRef | packageRef => exact silent_decodeIndex _
  | fieldRef | methodRef | interfaceMethodRef | nameAndType | dynamic | invokeDynamic =>
    exact silent_decodeIndices _

theorem silent_decode (index : UInt16) : Silent (decode index) := by
  refine .bind (.read .u8) fun tag => ?_
  split
  · exact silent_decodeContent index _
  · exact .throw _

/-- Where the constant that is to have an index breaks off: it is not complete, and the buffer is
too short for it, or it is at fault. -/
def BreaksOff (index : UInt16) (e : FormatError) (own : List UInt8) : Prop :=
  ¬ Format.CompleteIn IsStoredAs own ∧ ((∃ m, e = .truncated m) ∨ IsFault index e own)

theorem leaves_decode (index : UInt16) : Leaves n (decode index)
    (fun c run lines => c.IsStoredAs run ∧ lines = [])
    (fun e own lines => BreaksOff index e own ∧ lines = []) :=
  .of_silent (silent_decode index) (reads_decode index) (stopsBy_decode index)

end Constant

/-! ## Pools -/

namespace ConstantPool

/-- The line of the count in front of a pool. -/
def countLine (count : UInt16) : LogLine :=
  (.debug, "constant pool count " ++ toString count.toNat)

/-- The line of a constant and its index. -/
def entryLine (entry : UInt16 × Constant) : LogLine :=
  (.trace, "#" ++ toString entry.1.toNat ++ " = " ++ entry.2.debugText)

/-- What is told of the slots that are filled behind others. -/
def SlotsTold (slots out : Array (Option Constant)) (lines : List LogLine) : Prop :=
  ∃ new, out.toList = slots.toList ++ new ∧ lines = (entriesFrom slots.size new).map entryLine

/-- Where the constants for `room` more slots break off, when so many slots are filled. -/
def SlotsBreakOff (filled room : Nat) : Account FormatError := fun e run lines =>
  ∃ cs front own, run = front ++ own ∧ Format.Repeated Constant.IsStoredAs cs front ∧
    slotsTaken cs < room ∧ lines = (numbered filled cs).map entryLine ∧
    Constant.BreaksOff (.ofNat (filled + slotsTaken cs + 1)) e own

theorem SlotsBreakOff.cons {filled room : Nat} {c : Constant} {front back : List UInt8}
    {e : FormatError} {lines : List LogLine} (hc : c.IsStoredAs front)
    (h : SlotsBreakOff (filled + c.slotCount) room e back lines) :
    SlotsBreakOff filled (c.slotCount + room) e (front ++ back)
      (entryLine (.ofNat (filled + 1), c) :: lines) := by
  obtain ⟨cs, front', own, rfl, hcs, htaken, rfl, hown⟩ := h
  refine ⟨c :: cs, front ++ front', own, (List.append_assoc ..).symm, .cons hc hcs, ?_, rfl, ?_⟩
  · rw [slotsTaken_cons]
    omega
  · rwa [slotsTaken_cons, ← Nat.add_assoc]

/-- What is told of one slot and then of the others is told of them all. -/
theorem SlotsTold.cons {slots out : Array (Option Constant)} {c : Constant}
    {lines : List LogLine} (h : SlotsTold (slots.push (some c)) out lines) :
    SlotsTold slots out (entryLine (.ofNat (slots.size + 1), c) :: lines) := by
  obtain ⟨new, hout, rfl⟩ := h
  rw [Array.toList_push, List.append_assoc] at hout
  rw [Array.size_push]
  exact ⟨some c :: new, hout, rfl⟩

/-- Nothing is told of an empty slot. -/
theorem SlotsTold.cons_empty {slots out : Array (Option Constant)} {lines : List LogLine}
    (h : SlotsTold (slots.push none) out lines) : SlotsTold slots out lines := by
  obtain ⟨new, hout, rfl⟩ := h
  rw [Array.toList_push, List.append_assoc] at hout
  rw [Array.size_push]
  exact ⟨none :: new, hout, rfl⟩

theorem SlotsTold.nil (slots : Array (Option Constant)) : SlotsTold slots slots [] :=
  ⟨[], (List.append_nil _).symm, rfl⟩

/-- Behind a constant, the others have the slots that it leaves to them. -/
theorem leaves_decodeSlots_behind {room total : Nat} {slots filled : Array (Option Constant)}
    {c : Constant} {front : List UInt8} (hc : c.IsStoredAs front)
    (h : Leaves n (decodeSlots room filled) (fun out _ => SlotsTold filled out)
      (SlotsBreakOff filled.size room))
    (hfilled : filled.size = slots.size + c.slotCount) (htotal : total = c.slotCount + room)
    (htold : ∀ out lines, SlotsTold filled out lines →
      SlotsTold (slots.push (some c)) out lines) :
    Leaves (n - front.length) (decodeSlots room filled)
      (fun out _ lines => SlotsTold slots out (entryLine (.ofNat (slots.size + 1), c) :: lines))
      (fun e back lines => SlotsBreakOff slots.size total e (front ++ back)
        (entryLine (.ofNat (slots.size + 1), c) :: lines)) := by
  rw [hfilled] at h
  rw [htotal]
  exact (h.mono (Nat.sub_le _ _)).weaken (fun out _ lines hout => (htold out lines hout).cons)
    fun e back lines => .cons hc

theorem leaves_decodeSlots : (room : Nat) → (slots : Array (Option Constant)) →
    Leaves n (decodeSlots room slots) (fun out _ => SlotsTold slots out)
      (SlotsBreakOff slots.size room)
  | 0, slots => .pure (.nil slots)
  | room + 1, slots => by
    rw [decodeSlots.eq_def]
    have hfirst : Leaves n (Constant.decode (.ofNat (slots.size + 1)))
        (fun c run lines => c.IsStoredAs run ∧ lines = []) (SlotsBreakOff slots.size (room + 1)) :=
      (Constant.leaves_decode _).weaken_error fun e own lines h =>
        ⟨[], [], own, rfl, .nil, Nat.succ_pos room, h.2, h.1⟩
    refine hfirst.bind ?_
    rintro c front _ ⟨hc, rfl⟩
    refine .record_bind rfl ?_
    by_cases hwide : c.isWide = true
    · have hcount := Constant.slotCount_of_wide hwide
      rw [if_pos hwide]
      cases room with
      | zero => exact .pure (SlotsTold.nil _).cons
      | succ room =>
        refine leaves_decodeSlots_behind hc (leaves_decodeSlots room _) ?_ (by omega)
          fun _ _ => .cons_empty
        rw [Array.size_push, Array.size_push, hcount]
    · have hcount := Constant.slotCount_of_narrow (Bool.eq_false_iff.2 hwide)
      rw [if_neg hwide]
      refine leaves_decodeSlots_behind hc (leaves_decodeSlots room _) ?_ (by omega)
        fun _ _ h => h
      rw [Array.size_push, hcount]

/-- What is told of a pool: the count in front of it, and each of its entries. -/
def lines (pool : ConstantPool) (count : UInt16) : List LogLine :=
  countLine count :: pool.entries.map entryLine

/-- Where a pool breaks off, and what has been told of it by then. -/
inductive BreaksOff : Account FormatError
  /-- There is no count. -/
  | count (m : Shortage) : BreaksOff (.truncated m) [] []
  /-- Some constants are there, but the next one is not.  Its index is the slot that they leave to
  it. -/
  | constant {count : UInt16} {cs : List Constant} {front own : List UInt8} {e : FormatError}
      (hcs : Format.Repeated Constant.IsStoredAs cs front)
      (hslot : slotOf cs cs.length < count.toNat)
      (hown : Constant.BreaksOff (.ofNat (slotOf cs cs.length)) e own) :
      BreaksOff e (BigEndian.bytes 2 count.toNat ++ (front ++ own))
        (countLine count :: (numbered 0 cs).map entryLine)

/-- **The lines of a pool are its entries,** or those of the constants in front of the one where it
breaks off. -/
theorem leaves_decode : Leaves n decode
    (fun pool run lines => (pool.IsWellFormed ∧ pool.IsStoredAs run) ∧
      ∃ count : UInt16, run.take 2 = BigEndian.bytes 2 count.toNat ∧ lines = pool.lines count)
    BreaksOff := by
  refine .reads ?_ reads_decode
  refine .u16_bind .count fun count => .record_bind rfl ?_
  refine .bind (T := fun out _ lines => SlotsTold #[] out lines)
    ((leaves_decodeSlots (count.toNat - 1) #[]).weaken_error ?_) ?_
  · rintro e _ lines ⟨cs, front, own, rfl, hcs, htaken, rfl, hown⟩
    have hslot : 0 + slotsTaken cs + 1 = slotOf cs cs.length := by
      rw [slotOf, List.take_length]
      omega
    exact .constant hcs (by omega) (hslot ▸ hown)
  · rintro slots front lines ⟨new, hslots, rfl⟩
    obtain rfl : slots.toList = new := hslots
    refine .pure ⟨count, List.take_left' (BigEndian.length_bytes 2 _), ?_⟩
    rw [List.append_nil]
    rfl

end ConstantPool
end ClassFormat
