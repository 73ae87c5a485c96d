import ClassFormat.Proofs.Readers

/-!
# Room for nesting

The reader of attributes calls itself for the attributes inside a method body, with one level of
room less each time.  Before it does so it has read the index of a name, so on every level there is
less left of the buffer.  Room for as many levels as there are bytes, and one more, is therefore as
good as any greater room: `agreeBelow_decodeList` says so for attributes, and
`ClassFile.agreeBelow_decode` for the whole class file, whose reader measures the room itself.

What `AgreeBelow` compares is the whole run, with its errors and its log.

## What is here

* `AgreeBelow n d d'` — that two decoders do the same in every place with fewer than `n` bytes
  ahead.  It goes through binds only if the first decoder moves forward, which is why the decoders
  on one side have to be sequential.
* `Attribute.decode_eq_times` — the reader of attributes as it would be written if a function were
  free to call itself: each attribute is read by a reader that is given the whole reader for what is
  inside.  From here on the room has gone, and proofs about single attributes start from this.
* `ClassFile.decodeWithin` — the reader of a class file in a given room, without the record of what
  is left over.  It is sequential, which the reader itself is not.
* `ClassFile.run_eq_decodeWithin` — on any buffer the two have the same outcome and stop at the same
  place.  So what holds of sequential decoders holds of the outcome for a buffer.
-/

set_option autoImplicit false

namespace ClassFormat

namespace Decoder

variable {α β : Type}

/-- Whether two decoders do the same wherever fewer than `n` bytes are left. -/
def AgreeBelow (n : Nat) (d d' : Decoder α) : Prop :=
  ∀ s : Progress, s.cursor.remaining < n → d.run s = d'.run s

namespace AgreeBelow

theorem refl (n : Nat) (d : Decoder α) : AgreeBelow n d d := fun _ _ => rfl

/-- Runs that agree lead to the same place, where no more is left than before. -/
theorem bind {n : Nat} {d d' : Decoder α} {f f' : α → Decoder β} (h : AgreeBelow n d d')
    (hd' : Sequential d') (hf : ∀ x, AgreeBelow n (f x) (f' x)) :
    AgreeBelow n (d >>= f) (d' >>= f') := by
  intro s hs
  have hrun := h s hs
  have hreaches := hd'.reaches s
  rcases hrun' : d'.run s with ⟨e | x, s'⟩
  · rw [run_bind_of_error hrun', run_bind_of_error (hrun.trans hrun')]
  · rw [run_bind_of_ok hrun', run_bind_of_ok (hrun.trans hrun')]
    rw [hrun'] at hreaches
    have hsize := hreaches.size_eq
    have hposition := hreaches.position_le
    exact hf x s' (by simp only at hsize hposition; omega)

/-- Behind a read of at least one byte, one byte less is left. -/
theorem read_bind {n : Nat} {r : Read} (hr : 0 < r.width) {f f' : r.Result → Decoder β}
    (hf : ∀ x, AgreeBelow n (f x) (f' x)) :
    AgreeBelow (n + 1) (read r >>= f) (read r >>= f') := by
  intro s hs
  rcases Nat.lt_or_ge s.cursor.remaining r.width with hlt | hge
  · rw [run_bind_of_error (run_read_of_lt hlt), run_bind_of_error (run_read_of_lt hlt)]
  · rw [run_bind_of_ok (run_read_of_le hge), run_bind_of_ok (run_read_of_le hge)]
    refine hf _ _ ?_
    have hs' : s.cursor.rest.length < n + 1 := hs
    have hge' : r.width ≤ s.cursor.rest.length := hge
    show (s.cursor.rest.drop r.width).length < n
    rw [List.length_drop]
    omega

theorem measured {n : Nat} {d d' : Decoder α} (h : AgreeBelow n d d') :
    AgreeBelow n (measured d) (measured d') := by
  intro s hs
  have hrun := h s hs
  rcases hrun' : d'.run s with ⟨e | x, s'⟩
  · rw [run_measured_of_error hrun', run_measured_of_error (hrun.trans hrun')]
  · rw [run_measured_of_ok hrun', run_measured_of_ok (hrun.trans hrun')]

theorem times {n : Nat} {d d' : Decoder α} (h : AgreeBelow n d d') (hd' : Sequential d')
    (count : Nat) : AgreeBelow n (times count d) (times count d') := by
  induction count with
  | zero => exact refl n _
  | succ count ih =>
    rw [times_succ, times_succ]
    exact h.bind hd' fun x => ih.bind (hd'.times count) fun xs => refl n _

end AgreeBelow
end Decoder

open Decoder

/-! ## Attributes -/

theorem Code.agreeBelow_decode {n : Nat} {inner inner' : UInt16 → Decoder (List Attribute)}
    (h : ∀ count, AgreeBelow n (inner count) (inner' count))
    (hinner' : ∀ count, Sequential (inner' count)) :
    AgreeBelow n (Code.decode inner) (Code.decode inner') := by
  rw [Code.decode_eq, Code.decode_eq]
  exact (AgreeBelow.refl n _).bind Code.sequential_decodeFront fun front =>
    (h front.2).bind (hinner' front.2) fun _ => .refl n _

namespace Attribute

theorem agreeBelow_decodePayload {n : Nat} {inner inner' : UInt16 → Decoder (List Attribute)}
    (h : ∀ count, AgreeBelow n (inner count) (inner' count))
    (hinner' : ∀ count, Sequential (inner' count)) (name : UInt16) (declared : UInt32)
    (kind : Kind) :
    AgreeBelow n (decodePayload inner name declared kind)
      (decodePayload inner' name declared kind) := by
  cases kind with
  | code =>
    exact (Code.agreeBelow_decode h hinner').bind (Code.sequential_decode hinner') fun _ =>
      .refl n _
  | _ => exact .refl n _

/-- In front of a payload there is the index of a name, so the attributes inside it have less of the
buffer left. -/
theorem agreeBelow_decodeWith {n : Nat} {inner inner' : UInt16 → Decoder (List Attribute)}
    (h : ∀ count, AgreeBelow n (inner count) (inner' count))
    (hinner' : ∀ count, Sequential (inner' count)) (pool : ConstantPool) :
    AgreeBelow (n + 1) (decodeWith inner pool) (decodeWith inner' pool) := by
  refine .read_bind (by decide) fun name => ?_
  refine (AgreeBelow.refl n u32).bind (.read .u32) fun declared => ?_
  refine (AgreeBelow.refl n _).bind (.lift ConstantPool.utf8_ne_truncated) fun text => ?_
  exact (agreeBelow_decodePayload h hinner' _ _ _).measured.bind
    (.measured (sequential_decodePayload hinner' _ _ _)) fun _ => .refl n _

/-- **Room for as many levels as there are bytes is enough.** -/
theorem agreeBelow_decodeList (pool : ConstantPool) {room room' : Nat} (h : room ≤ room')
    (count : UInt16) :
    AgreeBelow room (decodeList pool room count) (decodeList pool room' count) := by
  induction room generalizing room' count with
  | zero => exact fun s hs => absurd hs (Nat.not_lt_zero _)
  | succ room ih =>
    obtain ⟨room', rfl⟩ : ∃ k, room' = k + 1 := ⟨room' - 1, by omega⟩
    have hinner (count : UInt16) := ih (Nat.le_of_succ_le_succ h) count
    have hseq (count : UInt16) := sequential_decodeList pool room' count
    exact (agreeBelow_decodeWith hinner hseq pool).times (sequential_decodeWith hseq pool) _

/-- The reader that is given no room takes what it may need. -/
theorem run_decode (pool : ConstantPool) (count : UInt16) (s : Progress) :
    (decode pool count).run s = (decodeList pool (s.cursor.remaining + 1) count).run s := by
  have hroom : nestingRoom.run s = (.ok (s.cursor.remaining + 1), s) := rfl
  rw [decode, run_bind_of_ok hroom]

theorem agreeBelow_decode (pool : ConstantPool) (room : Nat) (count : UInt16) :
    AgreeBelow room (decode pool count) (decodeList pool room count) := by
  intro s hs
  rw [run_decode]
  exact agreeBelow_decodeList pool hs count s (Nat.lt_succ_self _)

/-- **Attributes are read one after another, and those inside a method body in the same way.**
This is the reader without any limit on nesting. -/
theorem decode_eq_times (pool : ConstantPool) (count : UInt16) :
    decode pool count = times count.toNat (decodeWith (decode pool) pool) := by
  refine ext_run fun s => ?_
  rw [run_decode]
  have hinner := agreeBelow_decode pool s.cursor.remaining
  have hseq := sequential_decodeList pool s.cursor.remaining
  exact ((agreeBelow_decodeWith hinner hseq pool).times (sequential_decodeWith hseq pool) _ s
    (Nat.lt_succ_self _)).symm

end Attribute

/-! ## Class files -/

theorem Member.agreeBelow_decode (pool : ConstantPool) {room room' : Nat} (h : room ≤ room') :
    AgreeBelow room (Member.decode pool room) (Member.decode pool room') := by
  have hread := AgreeBelow.refl room u16
  exact hread.bind (.read _) fun _ => hread.bind (.read _) fun _ => hread.bind (.read _) fun _ =>
    hread.bind (.read _) fun count => (Attribute.agreeBelow_decodeList pool h count).bind
      (Attribute.sequential_decodeList pool room' count) fun _ => .refl room _

theorem Member.agreeBelow_decodeCounted (pool : ConstantPool) {room room' : Nat} (h : room ≤ room')
    (message : UInt16 → LogRecord) :
    AgreeBelow room (Member.decodeCounted pool room message)
      (Member.decodeCounted pool room' message) :=
  (AgreeBelow.refl room _).bind (.read .u16) fun _ => (AgreeBelow.refl room _).bind (.record _)
    fun _ => (Member.agreeBelow_decode pool h).times (Member.sequential_decode pool room') _

namespace ClassFile

theorem agreeBelow_decodeBody (minorVersion majorVersion : UInt16) (pool : ConstantPool)
    {room room' : Nat} (h : room ≤ room') :
    AgreeBelow room (decodeBody minorVersion majorVersion pool room)
      (decodeBody minorVersion majorVersion pool room') := by
  have hread (r : Read) := AgreeBelow.refl room (Decoder.read r)
  have hmembers := Member.agreeBelow_decodeCounted pool h
  have hseq := Member.sequential_decodeCounted pool room'
  exact (hread _).bind (.read _) fun _ => (hread _).bind (.read _) fun _ =>
    (hread _).bind (.read _) fun _ => (hread _).bind (.read _) fun _ =>
      (hread _).bind (.read _) fun _ =>
        (hmembers _).bind (hseq _) fun _ => (hmembers _).bind (hseq _) fun _ =>
          (hread _).bind (.read _) fun count =>
            (Attribute.agreeBelow_decodeList pool h count).bind
              (Attribute.sequential_decodeList pool room' count) fun _ => .refl room _

/-- Reads a class file with so much room for nesting, and does not look at what follows it. -/
def decodeWithin (room : Nat) : Decoder ClassFile := do
  decodeMagic
  let minorVersion ← u16
  let majorVersion ← u16
  record (.version majorVersion minorVersion)
  let pool ← ConstantPool.decode
  decodeBody minorVersion majorVersion pool room

theorem sequential_decodeWithin (room : Nat) : Sequential (decodeWithin room) :=
  .bind sequential_decodeMagic fun _ => .bind (.read .u16) fun _ => .bind (.read .u16) fun _ =>
    .bind (.record _) fun _ => .bind ConstantPool.sequential_decode fun _ =>
      sequential_decodeBody _ _ _ _

/-- **Reading a class file is a sequential run in any room that is large enough,** followed by a
record of what is left. -/
theorem agreeBelow_decode (room : Nat) :
    AgreeBelow room decode (do let c ← decodeWithin room; recordTrailing; pure c) := by
  simp only [decodeWithin, bind_assoc]
  refine (AgreeBelow.refl room _).bind sequential_decodeMagic fun _ => ?_
  refine (AgreeBelow.refl room _).bind (.read _) fun minorVersion => ?_
  refine (AgreeBelow.refl room _).bind (.read _) fun majorVersion => ?_
  refine (AgreeBelow.refl room _).bind (.record _) fun _ => ?_
  refine (AgreeBelow.refl room _).bind ConstantPool.sequential_decode fun pool => ?_
  intro s hs
  have hroom : Attribute.nestingRoom.run s = (.ok (s.cursor.remaining + 1), s) := rfl
  rw [run_bind_of_ok hroom]
  have hbody := agreeBelow_decodeBody minorVersion majorVersion pool hs
  exact (hbody.bind (sequential_decodeBody _ _ pool room) fun c => .refl _ _) s (Nat.lt_succ_self _)

theorem run_recordTrailing (s : Progress) :
    recordTrailing.run s = (.ok (), { s with log :=
      if 0 < s.cursor.remaining then s.log.push (.trailing s.cursor.remaining) else s.log }) := by
  have hleft : remaining.run s = (.ok s.cursor.remaining, s) := rfl
  rw [recordTrailing, run_bind_of_ok hleft]
  by_cases h : 0 < s.cursor.remaining
  · rw [if_pos h, if_pos h]
    rfl
  · rw [if_neg h, if_neg h]
    rfl

/-! ## The outcome for a buffer

A buffer is longer or shorter than another, and so two buffers may have different rooms.  A room
that is enough for both makes them comparable; any number greater than both lengths will do. -/

variable {buffer : List UInt8} {room : Nat} {s : Progress}

theorem run_of_error (hroom : buffer.length < room) {e : FormatError}
    (h : (decodeWithin room).run (.start buffer) = (.error e, s)) : run buffer = (.error e, s) := by
  rw [run, agreeBelow_decode room (.start buffer) hroom, run_bind_of_error h]

theorem run_of_ok (hroom : buffer.length < room) {c : ClassFile}
    (h : (decodeWithin room).run (.start buffer) = (.ok c, s)) :
    run buffer = (.ok c, (recordTrailing.run s).2) := by
  rw [run, agreeBelow_decode room (.start buffer) hroom, run_bind_of_ok h,
    run_bind_of_ok (run_recordTrailing s), run_recordTrailing]
  rfl

/-- The outcome and the place where it is reached are those of the sequential run. -/
theorem run_eq_decodeWithin (hroom : buffer.length < room) :
    (run buffer).1 = ((decodeWithin room).run (.start buffer)).1 ∧
      (run buffer).2.cursor = ((decodeWithin room).run (.start buffer)).2.cursor := by
  rcases h : (decodeWithin room).run (.start buffer) with ⟨e | c, s⟩
  · rw [run_of_error hroom h]
    exact ⟨rfl, rfl⟩
  · rw [run_of_ok hroom h, run_recordTrailing]
    exact ⟨rfl, rfl⟩

end ClassFile
end ClassFormat
