import ClassFormat.Proofs.Format
import ClassFormat.Proofs.ReadsInRange
import Mathlib.Data.List.Chain

/-!
# Runs of reads

A cursor is asked for numbers and runs of bytes of any width, one after another, and some of these
reads find too little.  What comes of such a run can be told without running it.  Each attempt is
looked at by itself: whether it succeeds depends on the bytes that are left where it is made, and
then it takes the next bytes, as many as its width, and gives what they mean.  `Read.Means` says
what that is, without the code that reads them.  An attempt that fails takes nothing and moves
nothing.

From this follows what holds of the whole run, `attempts_divide_buffer`.  The successful attempts
divide the part of the buffer that is behind the cursor, and the failed ones can be left out: no
other outcome and no place would be different without them.  A run of two-byte numbers is the one
read that could have been made in parts.  When there are enough bytes it is the same as reading the
numbers one by one, and when there are not it does not take the numbers that are there.

## What is here

* `Attempt` — a read that has been tried, with both places.  `Attempt.chunk` is found from the
  places alone, so that what an attempt has taken is not a matter of how it says it went.
* `Attempt.IsSound` — what an attempt has to do, and `isSound_attempt`, that every one does.
* `attempts` and `after` — a run of reads, and the place behind it.
* `passes_successes` — the chunks of the successful attempts are the bytes between the two ends.
* `attempts_successes` — a run without its failures is the same run.
* `step_u16s` — a run of two-byte numbers, at any place.
* `Divide` — what is said of a whole run from the start of a buffer.
-/

set_option autoImplicit false

namespace ClassFormat

open BigEndian

/-! ## What bytes mean

Unsigned numbers are known by their values, and signed ones by two conditions: they leave the value
as a remainder, and they are nearest to zero among those that do.  Bits are not mentioned;
`isSigned_toInt` has the argument about the highest one. -/

/-- Whether a number is the signed one for a remainder: of all numbers that leave it, one that is
nearest to zero, and the lower of two such. -/
def IsSigned (limit : Nat) (x : Int) (remainder : Nat) : Prop :=
  x % limit = remainder ∧ -(limit : Int) ≤ 2 * x ∧ 2 * x < limit

namespace Read

/-- Whether a value is what the bytes of a read stand for. -/
def Means : (r : Read) → (chunk : List UInt8) → r.Result → Prop
  | u8, chunk, x => x.toNat = value chunk
  | u16, chunk, x => x.toNat = value chunk
  | u32, chunk, x => x.toNat = value chunk
  | u64, chunk, x => x.toNat = value chunk
  | i32, chunk, x => IsSigned (limit 4) x.toInt (value chunk)
  | i64, chunk, x => IsSigned (limit 8) x.toInt (value chunk)
  | bytes _, chunk, xs => xs = chunk
  | u16s count, chunk, xs =>
    xs.length = count.toNat ∧ (xs.flatMap fun x => BigEndian.bytes 2 x.toNat) = chunk

/-- The bits of so many bytes, read as a signed number. -/
theorem isSigned_toInt {n : Nat} (b : BitVec (8 * n)) : IsSigned (limit n) b.toInt b.toNat := by
  have hlimit : 2 ^ (8 * n) = limit n := by
    clear b
    induction n with
    | zero => rfl
    | succ n ih => rw [Nat.mul_succ, Nat.pow_add, ih, limit_succ]
  have hlt := b.isLt
  rw [IsSigned, BitVec.toInt_eq_toNat_cond]
  rw [hlimit] at hlt ⊢
  generalize limit n = limit at hlt ⊢
  split_ifs with h
  · exact ⟨Int.emod_eq_of_lt (by omega) (by omega), by omega, by omega⟩
  · have hdown : ((b.toNat : Int) - limit) % limit = b.toNat := by
      rw [Int.sub_emod_right, Int.emod_eq_of_lt (by omega) (by omega)]
    exact ⟨hdown, by omega, by omega⟩

/-- **Bytes are given their meaning.** -/
theorem means_interpret {r : Read} {chunk : List UInt8} (h : chunk.length = r.width) :
    r.Means chunk (r.interpret chunk) := by
  have hlt : value chunk < limit r.width := h ▸ value_lt chunk
  cases r with
  | u8 => exact UInt8.toNat_ofNat_of_lt' hlt
  | u16 => exact UInt16.toNat_ofNat_of_lt' hlt
  | u32 => exact UInt32.toNat_ofNat_of_lt' hlt
  | u64 => exact UInt64.toNat_ofNat_of_lt' hlt
  | i32 =>
    have hsigned := isSigned_toInt (n := 4) (UInt32.ofNat (value chunk)).toBitVec
    rwa [UInt32.toNat_toBitVec, UInt32.toNat_ofNat_of_lt' hlt] at hsigned
  | i64 =>
    have hsigned := isSigned_toInt (n := 8) (UInt64.ofNat (value chunk)).toBitVec
    rwa [UInt64.toNat_toBitVec, UInt64.toNat_ofNat_of_lt' hlt] at hsigned
  | bytes count => rfl
  | u16s count => exact (flatMap_pairs h).symm

end Read

namespace Cursor

/-! ## One attempt

There are two cases for every lemma, by whether there are enough bytes, and `step_of_le` and
`step_of_lt` are the equations for them.  Everything below is found from these two. -/

/-- A read that has been tried: where, with what outcome, and where the cursor stood afterwards. -/
structure Attempt where
  start : Cursor
  read : Read
  outcome : Except Shortage read.Result
  stop : Cursor

/-- What comes of a read. -/
def attempt (r : Read) (c : Cursor) : Attempt := ⟨c, r, (c.step r).1, (c.step r).2⟩

namespace Attempt

/-- Whether the read has given a value. -/
def succeeded (a : Attempt) : Bool := a.outcome.isOk

/-- The read with what it has given. -/
def answer (a : Attempt) : Σ r : Read, Except Shortage r.Result := ⟨a.read, a.outcome⟩

/-- The bytes between the places in front of the read and behind it. -/
def chunk (a : Attempt) : List UInt8 := a.start.rest.take (a.stop.position - a.start.position)

/-- Whether an attempt has done in a buffer what it has to do. -/
structure IsSound (buffer : List UInt8) (a : Attempt) : Prop where
  /-- Both places divide the buffer. -/
  start_size : a.start.position + a.start.remaining = buffer.length
  stop_size : a.stop.position + a.stop.remaining = buffer.length
  /-- The cursor does not go back. -/
  position_le : a.start.position ≤ a.stop.position
  /-- The read succeeds if and only if there are enough bytes. -/
  succeeded_iff : a.succeeded = true ↔ a.read.width ≤ a.start.remaining
  /-- Then the next bytes are taken, as many as its width, and it gives what they mean. -/
  ok : ∀ x, a.outcome = .ok x →
    a.stop.position = a.start.position + a.read.width ∧
      a.chunk = (buffer.drop a.start.position).take a.read.width ∧ a.read.Means a.chunk x
  /-- Otherwise nothing changes, and it tells what it has found. -/
  error : ∀ m, a.outcome = .error m →
    a.stop = a.start ∧ m = ⟨a.start.position, a.read.width, a.start.remaining⟩
  /-- It needs no numbers but machine words, however much is asked for. -/
  inRange : buffer.length < UInt64.size → readChecked buffer a.start.position a.read =
    some (a.outcome.map fun x => (x, a.stop.position))

end Attempt

variable {buffer : List UInt8} {r : Read} {c c' : Cursor} {reads : List Read}

theorem step_of_passes {run : List UInt8} (h : c.Passes run c') (hlength : run.length = r.width) :
    c.step r = (.ok (r.interpret run), c') := by
  have htake : c.take r.width = .ok (run, c') :=
    take_eq_ok_iff.2 ⟨h.1, hlength, hlength ▸ h.2⟩
  rw [step, Cursor.read, htake]
  rfl

theorem step_of_lt (h : c.remaining < r.width) :
    c.step r = (.error ⟨c.position, r.width, c.remaining⟩, c) := by
  rw [step, Cursor.read, take_of_lt h]
  rfl

/-- The bytes that a read finds, if there are enough. -/
theorem passes_take {n : Nat} (h : n ≤ c.remaining) :
    c.Passes (c.rest.take n) ⟨c.position + n, c.rest.drop n⟩ := by
  refine ⟨(List.take_append_drop n c.rest).symm, ?_⟩
  rw [List.length_take_of_le h]

theorem step_of_le (h : r.width ≤ c.remaining) :
    c.step r = (.ok (r.interpret (c.rest.take r.width)),
      ⟨c.position + r.width, c.rest.drop r.width⟩) :=
  step_of_passes (passes_take h) (List.length_take_of_le h)

@[simp] theorem attempt_read (r : Read) (c : Cursor) : (attempt r c).read = r := rfl

theorem stop_attempt_of_lt (h : c.remaining < r.width) : (attempt r c).stop = c :=
  congrArg Prod.snd (step_of_lt h)

theorem succeeded_attempt (r : Read) (c : Cursor) :
    (attempt r c).succeeded = decide (r.width ≤ c.remaining) := by
  rcases Nat.lt_or_ge c.remaining r.width with h | h
  · rw [decide_eq_false (Nat.not_le_of_lt h), Attempt.succeeded, attempt, step_of_lt h]
    rfl
  · rw [decide_eq_true h, Attempt.succeeded, attempt, step_of_le h]
    rfl

theorem chunk_attempt_of_le (h : r.width ≤ c.remaining) :
    (attempt r c).chunk = c.rest.take r.width := by
  rw [Attempt.chunk, attempt, step_of_le h, Nat.add_sub_cancel_left]

theorem chunk_attempt_of_lt (h : c.remaining < r.width) : (attempt r c).chunk = [] := by
  rw [Attempt.chunk, stop_attempt_of_lt h]
  show c.rest.take (c.position - c.position) = []
  rw [Nat.sub_self, List.take_zero]

/-- An attempt passes its chunk, which is empty if it fails. -/
theorem passes_chunk_attempt (r : Read) (c : Cursor) :
    c.Passes (attempt r c).chunk (attempt r c).stop := by
  rcases Nat.lt_or_ge c.remaining r.width with h | h
  · rw [chunk_attempt_of_lt h, stop_attempt_of_lt h]
    exact .refl c
  · rw [chunk_attempt_of_le h, attempt, step_of_le h]
    exact passes_take h

/-- **Inside a buffer every attempt does what it has to do.** -/
theorem isSound_attempt (h : c.IsIn buffer) (r : Read) : (attempt r c).IsSound buffer where
  start_size := by
    have hle := h.position_le
    have hremaining := h.remaining_eq
    show c.position + c.remaining = buffer.length
    omega
  stop_size := by
    have hstop := h.of_passes (passes_chunk_attempt r c)
    have hle := hstop.position_le
    have hremaining := hstop.remaining_eq
    omega
  position_le := by
    rw [(passes_chunk_attempt r c).2]
    exact Nat.le_add_right _ _
  succeeded_iff := by
    rw [succeeded_attempt, decide_eq_true_iff]
    rfl
  ok x hx := by
    rcases Nat.lt_or_ge c.remaining r.width with hlt | hge
    · cases (congrArg Prod.fst (step_of_lt hlt)).symm.trans hx
    · obtain rfl := Except.ok.inj ((congrArg Prod.fst (step_of_le hge)).symm.trans hx)
      rw [chunk_attempt_of_le hge]
      refine ⟨congrArg (position ∘ Prod.snd) (step_of_le hge), ?_, ?_⟩
      · exact congrArg (List.take r.width) h.rest_eq
      · exact Read.means_interpret (List.length_take_of_le hge)
  error m hm := by
    rcases Nat.lt_or_ge c.remaining r.width with hlt | hge
    · obtain rfl := Except.error.inj ((congrArg Prod.fst (step_of_lt hlt)).symm.trans hm)
      exact ⟨stop_attempt_of_lt hlt, rfl⟩
    · cases (congrArg Prod.fst (step_of_le hge)).symm.trans hm
  inRange hbuffer := by
    show readChecked buffer c.position r =
      some ((c.step r).1.map fun x => (x, (c.step r).2.position))
    rw [readChecked_eq hbuffer h, step]
    cases c.read r <;> rfl

/-! ## Runs of attempts

These are inductions on the list of reads.  The first read either takes its bytes, and then the
others are made behind them, or takes none, and then they are made where it was. -/

/-- What comes of some reads, one after another. -/
def attempts : List Read → Cursor → List Attempt
  | [], _ => []
  | r :: reads, c => attempt r c :: attempts reads (attempt r c).stop

/-- The place behind some reads. -/
def after (reads : List Read) (c : Cursor) : Cursor :=
  reads.foldl (fun c r => (c.step r).2) c

theorem after_cons (r : Read) (reads : List Read) (c : Cursor) :
    after (r :: reads) c = after reads (attempt r c).stop := rfl

/-- Every attempt of a run does what it has to do. -/
theorem isSound_of_mem_attempts (h : c.IsIn buffer) {a : Attempt} (ha : a ∈ attempts reads c) :
    a.IsSound buffer := by
  induction reads generalizing c with
  | nil => cases ha
  | cons r reads ih =>
    rcases List.mem_cons.1 ha with rfl | ha
    · exact isSound_attempt h r
    · exact ih (h.of_passes (passes_chunk_attempt r c)) ha

/-- Each attempt is made where the one in front of it has stopped. -/
theorem isChain_attempts (reads : List Read) (c : Cursor) :
    (attempts reads c).IsChain fun a b => a.stop = b.start := by
  induction reads generalizing c with
  | nil => exact .nil
  | cons r reads ih =>
    cases reads with
    | nil => exact .singleton _
    | cons r' reads => exact .cons_cons rfl (ih _)

theorem map_read_attempts (reads : List Read) (c : Cursor) :
    (attempts reads c).map Attempt.read = reads := by
  induction reads generalizing c with
  | nil => rfl
  | cons r reads ih => exact congrArg (r :: ·) (ih _)

/-- The attempts of a run that have succeeded. -/
def successes (reads : List Read) (c : Cursor) : List Attempt :=
  (attempts reads c).filter Attempt.succeeded

theorem successes_cons_of_le (h : r.width ≤ c.remaining) :
    successes (r :: reads) c = attempt r c :: successes reads (attempt r c).stop := by
  refine List.filter_cons_of_pos ?_
  rw [succeeded_attempt, decide_eq_true h]

/-- A failed attempt leaves everything else as it is. -/
theorem successes_cons_of_lt (h : c.remaining < r.width) :
    successes (r :: reads) c = successes reads c := by
  have hfailed : ¬ (attempt r c).succeeded = true := by
    rw [succeeded_attempt, decide_eq_true_iff]
    exact Nat.not_le_of_lt h
  rw [successes, attempts, List.filter_cons_of_neg hfailed, stop_attempt_of_lt h, successes]

/-- **The successful reads take the bytes of a run,** without a gap and in order. -/
theorem passes_successes (reads : List Read) (c : Cursor) :
    c.Passes ((successes reads c).flatMap Attempt.chunk) (after reads c) := by
  induction reads generalizing c with
  | nil => exact .refl c
  | cons r reads ih =>
    rw [after_cons]
    rcases Nat.lt_or_ge c.remaining r.width with h | h
    · rw [successes_cons_of_lt h, stop_attempt_of_lt h]
      exact ih c
    · rw [successes_cons_of_le h, List.flatMap_cons]
      exact (passes_chunk_attempt r c).append (ih _)

/-- **Without the reads that fail, the others are the same attempts,** and lead to the same
place. -/
theorem attempts_successes (reads : List Read) (c : Cursor) :
    attempts ((successes reads c).map Attempt.read) c = successes reads c ∧
      after ((successes reads c).map Attempt.read) c = after reads c := by
  induction reads generalizing c with
  | nil => exact ⟨rfl, rfl⟩
  | cons r reads ih =>
    rcases Nat.lt_or_ge c.remaining r.width with h | h
    · rw [successes_cons_of_lt h, after_cons r, stop_attempt_of_lt h]
      exact ih c
    · obtain ⟨hsame, hplace⟩ := ih (attempt r c).stop
      rw [successes_cons_of_le h, List.map_cons, attempt_read, attempts, hsame, after_cons,
        after_cons, hplace]
      exact ⟨rfl, rfl⟩

/-! ## Numbers one by one

The comparison is with a run of as many single reads.  It has to say what each of them gives, and
that they end at the same place. -/

/-- Two-byte numbers that are all there are read one by one from the bytes that they are made of. -/
theorem attempts_replicate_u16 {count : Nat} {run : List UInt8} (h : c.Passes run c')
    (hlength : run.length = 2 * count) :
    (attempts (.replicate count .u16) c).map Attempt.answer =
        (Read.pairs run).map (fun x => ⟨.u16, .ok x⟩) ∧
      after (.replicate count .u16) c = c' := by
  induction count generalizing c run with
  | zero =>
    obtain rfl : run = [] := List.length_eq_zero_iff.1 hlength
    exact ⟨rfl, (h.unique (.refl c)).symm⟩
  | succ count ih =>
    obtain ⟨a, b, run, rfl⟩ : ∃ a b rest, run = a :: b :: rest := by
      match run with
      | a :: b :: rest => exact ⟨a, b, rest, rfl⟩
      | [_] => simp only [List.length_singleton] at hlength; omega
      | [] => simp only [List.length_nil] at hlength; omega
    obtain ⟨m, hfirst, hrest⟩ : ∃ m, c.Passes [a, b] m ∧ m.Passes run c' := Passes.split h
    have hstep := step_of_passes (r := .u16) hfirst rfl
    have hstop : (attempt .u16 c).stop = m := congrArg Prod.snd hstep
    have hanswer : (attempt .u16 c).answer =
        ⟨.u16, .ok (.ofNat (value [a, b]))⟩ := by
      rw [Attempt.answer, attempt, hstep]
      rfl
    obtain ⟨hanswers, hplace⟩ := ih hrest (by simp only [List.length_cons] at hlength; omega)
    rw [List.replicate_succ, attempts, after_cons, List.map_cons, hstop, hanswers, hanswer,
      Read.pairs_cons_cons, List.map_cons]
    exact ⟨rfl, hplace⟩

/-- **A run of two-byte numbers is read whole or not at all.** -/
theorem step_u16s (count : UInt16) (c : Cursor) :
    (2 * count.toNat ≤ c.remaining → ∃ xs,
      c.step (.u16s count) = (.ok xs, after (.replicate count.toNat .u16) c) ∧
      (attempts (.replicate count.toNat .u16) c).map Attempt.answer =
        xs.map fun x => ⟨.u16, .ok x⟩) ∧
    (c.remaining < 2 * count.toNat →
      c.step (.u16s count) = (.error ⟨c.position, 2 * count.toNat, c.remaining⟩, c)) := by
  refine ⟨fun h => ?_, fun h => step_of_lt (r := .u16s count) h⟩
  obtain ⟨hanswers, hplace⟩ := attempts_replicate_u16 (passes_take h) (List.length_take_of_le h)
  rw [hplace]
  exact ⟨_, step_of_le (r := .u16s count) h, hanswers⟩

/-! ## Whole runs -/

/-- What there is to say of some attempts that have been made one after another, from the start of a
buffer to the place `last`. -/
structure Divide (buffer : List UInt8) (reads : List Read) (tried : List Attempt) (last : Cursor) :
    Prop where
  /-- They are the attempts at these reads. -/
  map_read : tried.map Attempt.read = reads
  /-- Every one does what it has to do. -/
  isSound : ∀ a ∈ tried, a.IsSound buffer
  /-- Each is made where the one in front of it has stopped. -/
  isChain : tried.IsChain fun a b => a.stop = b.start
  /-- The last place divides the buffer. -/
  size : last.position + last.remaining = buffer.length
  /-- What is behind that place has been taken by those that have succeeded. -/
  chunks : (tried.filter Attempt.succeeded).flatMap Attempt.chunk = buffer.take last.position
  /-- Without those that have failed, all others come out the same. -/
  successes : attempts ((tried.filter Attempt.succeeded).map Attempt.read) (ofBytes buffer) =
    tried.filter Attempt.succeeded
  /-- So does the last place. -/
  after_successes :
    after ((tried.filter Attempt.succeeded).map Attempt.read) (ofBytes buffer) = last

/-- **A run of reads divides what is behind the cursor into what its reads have taken.**  And at any
place a run of two-byte numbers is read as they are one by one, if there are enough bytes, and
otherwise not at all. -/
theorem attempts_divide_buffer (buffer : List UInt8) (reads : List Read) :
    Divide buffer reads (attempts reads (ofBytes buffer)) (after reads (ofBytes buffer)) ∧
    ∀ (count : UInt16) (c : Cursor),
      (2 * count.toNat ≤ c.remaining → ∃ xs,
        c.step (.u16s count) = (.ok xs, after (.replicate count.toNat .u16) c) ∧
        (attempts (.replicate count.toNat .u16) c).map Attempt.answer =
          xs.map fun x => ⟨.u16, .ok x⟩) ∧
      (c.remaining < 2 * count.toNat →
        c.step (.u16s count) = (.error ⟨c.position, 2 * count.toNat, c.remaining⟩, c)) := by
  have hpasses := passes_successes reads (ofBytes buffer)
  have hlast := (isIn_ofBytes buffer).of_passes hpasses
  refine ⟨?_, step_u16s⟩
  exact {
    map_read := map_read_attempts reads _
    isSound := fun a => isSound_of_mem_attempts (isIn_ofBytes buffer)
    isChain := isChain_attempts reads _
    size := by
      have hle := hlast.position_le
      have hremaining := hlast.remaining_eq
      omega
    chunks := hpasses.take_position.symm
    successes := (attempts_successes reads _).1
    after_successes := (attempts_successes reads _).2 }

/-- Reads of which every second one asks for more than there is. -/
def greedyReads : List Read :=
  [.i32, .u64, .u16s 1, .u16s 1, .u8, .bytes 18446744073709551615, .bytes 0]

/-- Four bytes for the first of them, and three more. -/
def sevenBytes : List UInt8 := [255, 255, 255, 254, 1, 2, 3]

theorem attempts_divide_buffer_greedyReads :
    (attempts greedyReads (ofBytes sevenBytes)).map Attempt.succeeded =
      [true, false, true, false, true, false, true] ∧
    after greedyReads (ofBytes sevenBytes) = ⟨7, []⟩ ∧
    Divide sevenBytes greedyReads (attempts greedyReads (ofBytes sevenBytes)) ⟨7, []⟩ ∧
    (ofBytes sevenBytes).step (.u16s 4) = (.error ⟨0, 8, 7⟩, ofBytes sevenBytes) :=
  ⟨by decide, by decide, (attempts_divide_buffer sevenBytes greedyReads).1,
    ((attempts_divide_buffer sevenBytes greedyReads).2 4 (ofBytes sevenBytes)).2 (by decide)⟩

end Cursor
end ClassFormat
