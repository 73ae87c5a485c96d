import ClassFormat.FormatError
import ClassFormat.LogRecord

/-!
# Decoders

A `Decoder` reads from a cursor, adds records to the log, and either gives a value or stops with an
error.  A decoder that stops keeps the place it had reached and the records it had made, so both can
be inspected after a failure, and decoding can go on from there.

`read` is the only decoder that moves, `record` the only one that writes to the log, `measured` the
only one that asks how far another has moved, and `times` the only loop.  All others are put
together from these, so what holds of every decoder can be shown once for each of them.

## What is here

* `Progress` — what a decoder works on, and what is left of it when it stops.
* `Decoder.run` — the outcome as a pair, with the progress in both cases.  All that is shown of a
  decoder is stated with `run`, since what a failed decoder leaves behind is part of what it does.
* `u8`, `u16`, `u32`, `bytes`, `u16s` — the reads that the format is made of.
* `remaining` — the number of bytes ahead.  Whoever asks for it can see the end of the buffer, so it
  is kept to the two places that need it: the room for nesting, and the record of what is left over.
* `times` — a loop of so many steps, with the values found so far in an accumulator.  `times_succ`
  is the equation without the accumulator, and the only one by which the loop is opened in a proof.
-/

set_option autoImplicit false

namespace ClassFormat

/-- What a decoder works on: a place in the buffer, and the records made so far. -/
structure Progress where
  cursor : Cursor
  log : Array LogRecord
deriving DecidableEq, Repr

/-- The start of a buffer, and an empty log. -/
def Progress.start (buffer : List UInt8) : Progress := ⟨.ofBytes buffer, #[]⟩

/-- A reader of some part of a class file. -/
abbrev Decoder (α : Type) : Type := EStateM FormatError Progress α

namespace Decoder

/-- The outcome of a decoder, and how far it got. -/
def run {α : Type} (d : Decoder α) (s : Progress) : Except FormatError α × Progress :=
  match d s with
  | .ok x s => (.ok x, s)
  | .error e s => (.error e, s)

/-- Takes the next bytes and gives them the meaning that the read asks for. -/
def read (r : Read) : Decoder r.Result := fun s =>
  match s.cursor.read r with
  | .ok (x, cursor) => .ok x { s with cursor }
  | .error shortage => .error (.truncated shortage) s

/-- A number of one byte. -/
def u8 : Decoder UInt8 := read .u8

/-- A number of two bytes. -/
def u16 : Decoder UInt16 := read .u16

/-- A number of four bytes. -/
def u32 : Decoder UInt32 := read .u32

/-- A run of bytes. -/
def bytes (count : Nat) : Decoder (List UInt8) := read (.bytes count)

/-- A run of two-byte numbers, read in one piece. -/
def u16s (count : UInt16) : Decoder (List UInt16) := read (.u16s count)

/-- The number of bytes behind. -/
def position : Decoder Nat := fun s => .ok s.cursor.position s

/-- The number of bytes ahead. -/
def remaining : Decoder Nat := fun s => .ok s.cursor.remaining s

/-- What a decoder gives, with the number of bytes that it has read. -/
def measured {α : Type} (d : Decoder α) : Decoder (α × Nat) := do
  let start ← position
  let x ← d
  let stop ← position
  pure (x, stop - start)

/-- Adds a record to the log. -/
def record (r : LogRecord) : Decoder Unit := fun s => .ok () { s with log := s.log.push r }

/-- Stops with an error, unless there is a value. -/
def lift {α : Type} : Except FormatError α → Decoder α
  | .ok x => pure x
  | .error e => throw e

/-- What `count` runs of a decoder give, in order, behind what is already found. -/
def timesOnto {α : Type} (step : Decoder α) : (count : Nat) → (found : List α) → Decoder (List α)
  | 0, found => pure found.reverse
  | count + 1, found => do
    let x ← step
    timesOnto step count (x :: found)

/-- What `count` runs of a decoder give, in order. -/
def times {α : Type} (count : Nat) (step : Decoder α) : Decoder (List α) := timesOnto step count []

theorem timesOnto_eq {α : Type} (step : Decoder α) (count : Nat) (found : List α) :
    timesOnto step count found = (found.reverse ++ ·) <$> times count step := by
  induction count generalizing found with
  | zero => simp [times, timesOnto]
  | succ count ih =>
    simp only [times, timesOnto, map_bind]
    congr 1
    funext x
    rw [ih, ih [x]]
    simp

@[simp] theorem times_zero {α : Type} (step : Decoder α) : times 0 step = pure [] := rfl

/-- **A loop runs its first step and then the rest of itself.** -/
theorem times_succ {α : Type} (count : Nat) (step : Decoder α) :
    times (count + 1) step = (do
      let x ← step
      let xs ← times count step
      pure (x :: xs)) := by
  rw [times, timesOnto]
  congr 1
  funext x
  rw [timesOnto_eq]
  simp

end Decoder
end ClassFormat
