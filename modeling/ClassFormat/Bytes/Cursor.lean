import ClassFormat.Bytes.BigEndian

/-!
# Reading a buffer from front to back

A `Cursor` stands somewhere in a buffer: it knows how many bytes lie behind it and holds those that
are still ahead.  There is one way to move it, `Cursor.take`, which either hands out the next `n`
bytes or fails and reports the `Shortage`; every typed `Read` takes its whole width in one piece and
gives the bytes a meaning afterwards.

So a read never takes a part of what it asked for.  `take_eq_ok_iff` and `take_eq_error_iff` say
when it succeeds and when it fails, and `position_add_remaining` that the size of the buffer is
kept.

## What is here

* `Cursor.take` — the next bytes.  It walks only as much of the buffer as is asked for, so that
  reading a buffer piece by piece does not walk it again for each piece.
* `Shortage` — a failed read: where it was made, how many bytes it needed, how many were left.
* `Read` — everything that is read in one piece, with its `width`, the type of its `Result`, and
  `interpret`, which says what the bytes mean.  A run of two-byte numbers is one read of its whole
  width and not a loop of reads, and so is refused as a whole.
* `Cursor.read` — takes the width of a read and interprets it.
* `Cursor.step` — the same for a reader that is not ended by a failure: the cursor then stays where
  it was, and the next read is made from there.
-/

set_option autoImplicit false

namespace ClassFormat

/-- A place in a buffer: the number of bytes behind it, and the bytes ahead of it. -/
structure Cursor where
  position : Nat
  rest : List UInt8
deriving DecidableEq, Repr

/-- A read that asked for more than there was: where it stood, how many bytes it needed and how
many were left. -/
structure Shortage where
  offset : Nat
  needed : Nat
  remaining : Nat
deriving DecidableEq, Repr

namespace Cursor

/-- The cursor at the start of a buffer. -/
def ofBytes (buffer : List UInt8) : Cursor := ⟨0, buffer⟩

/-- The number of bytes ahead. -/
def remaining (c : Cursor) : Nat := c.rest.length

/-- The next `n` bytes and the cursor behind them.  Only as much of the buffer is walked as is
asked for. -/
def take (n : Nat) (c : Cursor) : Except Shortage (List UInt8 × Cursor) :=
  let chunk := c.rest.take n
  if chunk.length < n then
    .error ⟨c.position, n, c.remaining⟩
  else
    .ok (chunk, ⟨c.position + n, c.rest.drop n⟩)

theorem take_of_le {n : Nat} {c : Cursor} (h : n ≤ c.remaining) :
    c.take n = .ok (c.rest.take n, ⟨c.position + n, c.rest.drop n⟩) := by
  rw [remaining] at h
  rw [take, if_neg (by rw [List.length_take]; omega)]

theorem take_of_lt {n : Nat} {c : Cursor} (h : c.remaining < n) :
    c.take n = .error ⟨c.position, n, c.remaining⟩ := by
  have h' : c.rest.length < n := h
  rw [take, if_pos (by rw [List.length_take]; omega)]

/-- **A read succeeds exactly when enough bytes are left,** and then it moves by its width. -/
theorem take_eq_ok_iff {n : Nat} {c c' : Cursor} {chunk : List UInt8} :
    c.take n = .ok (chunk, c') ↔
      c.rest = chunk ++ c'.rest ∧ chunk.length = n ∧ c'.position = c.position + n := by
  obtain ⟨position', rest'⟩ := c'
  constructor
  · intro h
    rcases Nat.lt_or_ge c.remaining n with hn | hn
    · rw [take_of_lt hn] at h; cases h
    · have hn' : n ≤ c.rest.length := hn
      rw [take_of_le hn] at h
      cases h
      exact ⟨(List.take_append_drop n c.rest).symm, by rw [List.length_take]; omega, rfl⟩
  · rintro ⟨hrest, rfl, rfl⟩
    have hn : chunk.length ≤ c.remaining := by simp [remaining, hrest]
    rw [take_of_le hn]
    simp [hrest]

/-- **A read fails exactly when too few bytes are left,** and it reports how many. -/
theorem take_eq_error_iff {n : Nat} {c : Cursor} {s : Shortage} :
    c.take n = .error s ↔ c.remaining < n ∧ s = ⟨c.position, n, c.remaining⟩ := by
  constructor
  · intro h
    rcases Nat.lt_or_ge c.remaining n with hn | hn
    · rw [take_of_lt hn] at h; cases h; exact ⟨hn, rfl⟩
    · rw [take_of_le hn] at h; cases h
  · rintro ⟨hn, rfl⟩
    exact take_of_lt hn

/-- The size of the buffer is kept by every read. -/
theorem position_add_remaining {n : Nat} {c c' : Cursor} {chunk : List UInt8}
    (h : c.take n = .ok (chunk, c')) :
    c'.position + c'.remaining = c.position + c.remaining := by
  obtain ⟨hrest, hlength, hposition⟩ := take_eq_ok_iff.1 h
  rw [remaining, remaining, hrest, hposition, List.length_append]
  omega

end Cursor

/-! ## Typed reads -/

/-- What can be read in one piece: a number of some width, a run of bytes, or a run of two-byte
numbers. -/
inductive Read
  | u8
  | u16
  | u32
  | u64
  | i32
  | i64
  | bytes (count : Nat)
  | u16s (count : UInt16)
deriving DecidableEq, Repr

namespace Read

/-- The number of bytes that a read takes. -/
def width : Read → Nat
  | u8 => 1
  | u16 => 2
  | u32 => 4
  | u64 => 8
  | i32 => 4
  | i64 => 8
  | bytes count => count
  | u16s count => 2 * count.toNat

/-- The type of what a read gives. -/
abbrev Result : Read → Type
  | u8 => UInt8
  | u16 => UInt16
  | u32 => UInt32
  | u64 => UInt64
  | i32 => Int32
  | i64 => Int64
  | bytes _ => List UInt8
  | u16s _ => List UInt16

/-- The two-byte numbers that a run is made of, put behind those already found. -/
def pairsOnto (found : List UInt16) : List UInt8 → List UInt16
  | a :: b :: run => pairsOnto (UInt16.ofNat (BigEndian.value [a, b]) :: found) run
  | _ => found.reverse

/-- The two-byte numbers that a run is made of. -/
def pairs (run : List UInt8) : List UInt16 := pairsOnto [] run

/-- What the bytes taken by a read mean. -/
def interpret : (r : Read) → List UInt8 → r.Result
  | u8, chunk => UInt8.ofNat (BigEndian.value chunk)
  | u16, chunk => UInt16.ofNat (BigEndian.value chunk)
  | u32, chunk => UInt32.ofNat (BigEndian.value chunk)
  | u64, chunk => UInt64.ofNat (BigEndian.value chunk)
  | i32, chunk => (UInt32.ofNat (BigEndian.value chunk)).toInt32
  | i64, chunk => (UInt64.ofNat (BigEndian.value chunk)).toInt64
  | bytes _, chunk => chunk
  | u16s _, chunk => pairs chunk

theorem pairsOnto_eq (found : List UInt16) : (run : List UInt8) →
    pairsOnto found run = found.reverse ++ pairs run
  | [] => by simp [pairs, pairsOnto]
  | [_] => by simp [pairs, pairsOnto]
  | a :: b :: run => by
    rw [pairs, pairsOnto, pairsOnto, pairsOnto_eq _ run, pairsOnto_eq [_] run]
    simp

theorem pairs_cons_cons (a b : UInt8) (run : List UInt8) :
    pairs (a :: b :: run) = UInt16.ofNat (BigEndian.value [a, b]) :: pairs run := by
  rw [pairs, pairsOnto, pairsOnto_eq]
  simp

end Read

namespace Cursor

/-- Takes the whole width of a read, and gives the bytes their meaning. -/
def read (r : Read) (c : Cursor) : Except Shortage (r.Result × Cursor) :=
  (c.take r.width).map fun (chunk, c') => (r.interpret chunk, c')

/-- A read as one step of a run: the cursor stays where it is when the read fails. -/
def step (r : Read) (c : Cursor) : Except Shortage r.Result × Cursor :=
  match c.read r with
  | .ok (x, c') => (.ok x, c')
  | .error s => (.error s, c)

end Cursor
end ClassFormat
