import ClassFormat.Proofs.Readers

/-!
# Reads need no more than machine words

The readers count in natural numbers, and their cursor holds the bytes that are ahead.  A machine
counts in words of so many bits, and holds the whole buffer with a position in it.  Then every sum
may be too great, every difference may be negative, and every slice may reach beyond the buffer.

Here the steps of a read are written out on the whole buffer and checked: `none` stands for a step
that leaves its range.  `Cursor.readChecked_eq` says that this never happens where the cursor stands
inside its buffer, and that the read is then the one that runs.  `StaysInRange` says it of every
read, every count and every difference of positions in a run; `Counting.keeps` shows it of whatever
a reader can be asked for.

* `Word.fit?`, `add?`, `mul?`, `sub?` and `slice?` are the operations of a machine.  Each of them
  has a result only if it is in range, so that nothing is known of one that is not.
* `takeChecked` compares with what is left before it adds.  In the other order the sum of a position
  and a width might be too great, since a width may be any word.
* `Cursor.IsIn` is the invariant: a cursor and a position in the whole buffer say the same.  It is
  kept by every step, because a run only moves forward in its buffer (`IsIn.of_passes`).
* `Keeps` is what is shown of decoders, one way of putting them together after another.

The only thing that is assumed of a buffer is that its length is a word.
-/

set_option autoImplicit false

namespace ClassFormat

/-! ## Checked arithmetic -/

namespace Word

/-- A number that has to be a word, of which there are so many. -/
def fit? (size n : Nat) : Option Nat := if n < size then some n else none

/-- A sum that has to be a word. -/
def add? (size a b : Nat) : Option Nat := fit? size (a + b)

/-- A product that has to be a word. -/
def mul? (size a b : Nat) : Option Nat := fit? size (a * b)

/-- A difference that must not be negative. -/
def sub? (a b : Nat) : Option Nat := if b ≤ a then some (a - b) else none

/-- What lies between two positions, which have to be in order and inside the buffer. -/
def slice? (buffer : List UInt8) (start stop : Nat) : Option (List UInt8) :=
  if start ≤ stop ∧ stop ≤ buffer.length then some ((buffer.drop start).take (stop - start))
  else none

theorem fit?_of_lt {size n : Nat} (h : n < size) : fit? size n = some n := if_pos h

theorem sub?_of_le {a b : Nat} (h : b ≤ a) : sub? a b = some (a - b) := if_pos h

end Word

open Word

/-! ## Reads -/

namespace Read

/-- The width of a read.  Only the width of a run of two-byte numbers has to be found out. -/
def width? : Read → Option Nat
  | u16s count => mul? UInt64.size count.toNat 2
  | r => some r.width

/-- What the bytes taken by a read mean, if they are just as many as the read asks for. -/
def interpret? (r : Read) (chunk : List UInt8) : Option r.Result :=
  if chunk.length = r.width then some (r.interpret chunk) else none

theorem width?_eq (r : Read) : r.width? = some r.width := by
  cases r with
  | u16s count =>
    have hword : UInt64.size = 18446744073709551616 := rfl
    have hlt := count.toNat_lt
    rw [width?, mul?, fit?_of_lt (by omega), Nat.mul_comm]
    rfl
  | _ => rfl

end Read

/-- The next `n` bytes behind a position, and the position behind them. -/
def takeChecked (buffer : List UInt8) (position n : Nat) :
    Option (Except Shortage (List UInt8 × Nat)) := do
  let remaining ← sub? buffer.length position
  if remaining < n then
    some (.error ⟨position, n, remaining⟩)
  else
    let stop ← add? UInt64.size position n
    let chunk ← slice? buffer position stop
    some (.ok (chunk, stop))

/-- What is read behind a position, and the position behind it. -/
def readChecked (buffer : List UInt8) (position : Nat) (r : Read) :
    Option (Except Shortage (r.Result × Nat)) := do
  let width ← r.width?
  match ← takeChecked buffer position width with
  | .ok (chunk, stop) =>
    let x ← r.interpret? chunk
    some (.ok (x, stop))
  | .error shortage => some (.error shortage)

namespace Cursor

/-- Whether a cursor stands inside a buffer, with the rest of the buffer ahead. -/
structure IsIn (buffer : List UInt8) (c : Cursor) : Prop where
  position_le : c.position ≤ buffer.length
  rest_eq : c.rest = buffer.drop c.position

theorem isIn_ofBytes (buffer : List UInt8) : (ofBytes buffer).IsIn buffer :=
  ⟨Nat.zero_le _, rfl⟩

variable {buffer : List UInt8} {c c' : Cursor}

theorem IsIn.remaining_eq (h : c.IsIn buffer) : c.remaining = buffer.length - c.position := by
  rw [remaining, h.rest_eq, List.length_drop]

/-- What lies ahead of a cursor stays inside the buffer. -/
theorem IsIn.of_passes (h : c.IsIn buffer) {run : List UInt8} (hpasses : c.Passes run c') :
    c'.IsIn buffer := by
  have hremaining := hpasses.remaining_eq
  rw [h.remaining_eq] at hremaining
  have hle := h.position_le
  refine ⟨by rw [hpasses.2]; omega, ?_⟩
  rw [hpasses.2, ← List.drop_drop, ← h.rest_eq, hpasses.1, List.drop_left]

theorem takeChecked_eq (hbuffer : buffer.length < UInt64.size) (h : c.IsIn buffer) (n : Nat) :
    takeChecked buffer c.position n = some ((c.take n).map fun p => (p.1, p.2.position)) := by
  have hle := h.position_le
  have hremaining := h.remaining_eq
  rw [takeChecked, sub?_of_le hle, ← hremaining, Option.bind_eq_bind, Option.bind_some]
  rcases Nat.lt_or_ge c.remaining n with hlt | hge
  · rw [if_pos hlt, take_of_lt hlt]
    rfl
  · have hstop : c.position + n ≤ buffer.length := by omega
    have hslice : slice? buffer c.position (c.position + n) = some (c.rest.take n) := by
      rw [slice?, if_pos ⟨Nat.le_add_right _ _, hstop⟩, Nat.add_sub_cancel_left, ← h.rest_eq]
    rw [if_neg (Nat.not_lt_of_le hge), take_of_le hge, add?,
      fit?_of_lt (Nat.lt_of_le_of_lt hstop hbuffer)]
    simp only [Option.bind_eq_bind, Option.bind_some, hslice]
    rfl

/-- **A read inside a buffer is in range,** whatever width it asks for. -/
theorem readChecked_eq (hbuffer : buffer.length < UInt64.size) (h : c.IsIn buffer) (r : Read) :
    readChecked buffer c.position r = some ((c.read r).map fun p => (p.1, p.2.position)) := by
  rw [readChecked, r.width?_eq, Option.bind_eq_bind, Option.bind_some,
    takeChecked_eq hbuffer h, Cursor.read]
  cases htake : c.take r.width with
  | error shortage => rfl
  | ok p =>
    obtain ⟨chunk, c'⟩ := p
    have hlength := (take_eq_ok_iff.1 htake).2.1
    have hinterpret : r.interpret? chunk = some (r.interpret chunk) := if_pos hlength
    show (do let x ← r.interpret? chunk; some (Except.ok (x, c'.position))) = _
    rw [hinterpret]
    rfl

end Cursor

/-! ## Runs

`StaysInRange` is about one run from one place, so that a step has to stay in range only if the run
comes to it.  `Keeps` says in addition that the run ends inside the buffer, which is what the next
decoder starts from. -/

namespace Decoder

variable {α β : Type}

/-- Whether a run stays in range, step by step: the reads and counts that it comes to, and the
differences of positions that it takes. -/
inductive StaysInRange (buffer : List UInt8) : {α : Type} → Decoder α → Progress → Prop
  | pure {α : Type} (x : α) (s : Progress) : StaysInRange buffer (Pure.pure x : Decoder α) s
  | throw {α : Type} (e : FormatError) (s : Progress) :
      StaysInRange buffer (MonadExcept.throw e : Decoder α) s
  | record (r : LogRecord) (s : Progress) : StaysInRange buffer (Decoder.record r) s
  | remaining {s : Progress}
      (h : sub? buffer.length s.cursor.position = some s.cursor.remaining) :
      StaysInRange buffer Decoder.remaining s
  | read {r : Read} {s : Progress} (h : readChecked buffer s.cursor.position r =
        some ((s.cursor.read r).map fun p => (p.1, p.2.position))) :
      StaysInRange buffer (Decoder.read r) s
  | measured {α : Type} {d : Decoder α} {s : Progress} (hd : StaysInRange buffer d s)
      (h : ∀ x s', d.run s = (.ok x, s') → ∃ consumed,
        sub? s'.cursor.position s.cursor.position = some consumed ∧
          (Decoder.measured d).run s = (.ok (x, consumed), s')) :
      StaysInRange buffer (Decoder.measured d) s
  | bind {α β : Type} {d : Decoder α} {f : α → Decoder β} {s : Progress}
      (hd : StaysInRange buffer d s)
      (hf : ∀ x s', d.run s = (.ok x, s') → StaysInRange buffer (f x) s') :
      StaysInRange buffer (d >>= f) s

/-- Whether a decoder, wherever it starts inside a buffer, stays in range and inside it. -/
def Keeps (buffer : List UInt8) (d : Decoder α) : Prop :=
  ∀ s : Progress, s.cursor.IsIn buffer →
    StaysInRange buffer d s ∧ (d.run s).2.cursor.IsIn buffer

namespace Keeps

variable {buffer : List UInt8}

theorem pure (x : α) : Keeps buffer (Pure.pure x) := fun s hs => ⟨.pure x s, hs⟩

theorem remaining : Keeps buffer Decoder.remaining := by
  intro s hs
  refine ⟨.remaining ?_, hs⟩
  rw [sub?_of_le hs.position_le, hs.remaining_eq]

theorem record (r : LogRecord) : Keeps buffer (Decoder.record r) := fun s hs => ⟨.record r s, hs⟩

theorem bind {d : Decoder α} {f : α → Decoder β} (hd : Keeps buffer d)
    (hf : ∀ x, Keeps buffer (f x)) : Keeps buffer (d >>= f) := by
  intro s hs
  obtain ⟨hrange, hs'⟩ := hd s hs
  have hnext (x : α) (s' : Progress) (h : d.run s = (.ok x, s')) :
      StaysInRange buffer (f x) s' ∧ ((f x).run s').2.cursor.IsIn buffer :=
    hf x s' (by rwa [h] at hs')
  refine ⟨.bind hrange fun x s' h => (hnext x s' h).1, ?_⟩
  rcases hrun : d.run s with ⟨e | x, s'⟩
  · rw [hrun] at hs'
    rwa [run_bind_of_error hrun]
  · rw [run_bind_of_ok hrun]
    exact (hnext x s' hrun).2

/-- Of a run that only moves forward the two positions can be compared. -/
theorem measured {d : Decoder α} (hd : Keeps buffer d)
    (hreaches : ∀ s : Progress, s.Reaches (d.run s).2) : Keeps buffer (Decoder.measured d) := by
  intro s hs
  obtain ⟨hrange, hs'⟩ := hd s hs
  have hforward := hreaches s
  refine ⟨.measured hrange fun x s' h => ?_, ?_⟩
  · rw [h] at hforward
    exact ⟨_, sub?_of_le hforward.position_le, run_measured_of_ok h⟩
  · rcases hrun : d.run s with ⟨e | x, s'⟩
    · rw [hrun] at hs'
      rwa [run_measured_of_error hrun]
    · rw [hrun] at hs'
      rwa [run_measured_of_ok hrun]

end Keeps

/-- **A sequential decoder stays in range,** and inside its buffer. -/
theorem Sequential.keeps {d : Decoder α} (hd : Sequential d) {buffer : List UInt8}
    (hbuffer : buffer.length < UInt64.size) : Keeps buffer d := by
  induction hd with
  | pure x => exact .pure x
  | throw he => exact fun s hs => ⟨.throw _ s, hs⟩
  | read r =>
    intro s hs
    obtain ⟨run, hrun⟩ := ((Sequential.read r).reaches s).passes
    exact ⟨.read (Cursor.readChecked_eq hbuffer hs r), hs.of_passes hrun⟩
  | record r => exact .record r
  | measured hd ih => exact ih.measured hd.reaches
  | bind hd hf ihd ihf => exact ihd.bind ihf

/-- **So does every decoder that also counts the bytes ahead.** -/
theorem Counting.keeps {d : Decoder α} (hd : Counting d) {buffer : List UInt8}
    (hbuffer : buffer.length < UInt64.size) : Keeps buffer d := by
  induction hd with
  | sequential hd => exact hd.keeps hbuffer
  | remaining => exact .remaining
  | bind hd hf ihd ihf => exact ihd.bind ihf

end Decoder
end ClassFormat
