import ClassFormat.Decoder

/-!
# Decoders that read from front to back

`Sequential` describes the decoders that are put together from reads, records, counts of bytes and
errors of their own.  None of them can look ahead, go back, or ask how much is left; the only thing
that a buffer's end can do to them is to make a read fail.

Whatever holds of all of them is shown here by one induction:

* `Sequential.reaches`: a run only moves forward in its buffer, and only adds to the log;
* `Sequential.shortage`: a run that ends in a truncation has stopped right where bytes are missing,
  and there really are too few of them;
* `Sequential.resumes`: the simulation of a run by one on a longer buffer.  Unless the first is cut
  short the two are the same; if it is, the second is cut short at the same place as long as the
  missing bytes are not all there, and gets past that place as soon as they are.

Two relations between places carry all of it.  `Cursor.Passes` says that a run of bytes lies between
two places, and `Progress.Reaches` that one place lies behind another, with some run of bytes in
between and nothing lost from the log.  The first is the one that formats and faults are stated
with.

That the readers of a class file are sequential is shown in `ClassFormat.Proofs.Readers`.
-/

set_option autoImplicit false

namespace ClassFormat

/-! ## Places in a buffer

Places are compared by the bytes between them and not by their numbers: two places with the same
number may stand in different buffers, and then nothing that is read behind them need be the
same. -/

namespace Cursor

/-- Whether a run of bytes lies between two places in a buffer. -/
def Passes (c : Cursor) (run : List UInt8) (c' : Cursor) : Prop :=
  c.rest = run ++ c'.rest ∧ c'.position = c.position + run.length

theorem Passes.refl (c : Cursor) : c.Passes [] c := ⟨rfl, rfl⟩

theorem Passes.append {c₁ c₂ c₃ : Cursor} {front back : List UInt8} (h : c₁.Passes front c₂)
    (h' : c₂.Passes back c₃) : c₁.Passes (front ++ back) c₃ := by
  constructor
  · rw [h.1, h'.1, List.append_assoc]
  · rw [h'.2, h.2, List.length_append, Nat.add_assoc]

theorem Passes.split {c c' : Cursor} {front back : List UInt8} (h : c.Passes (front ++ back) c') :
    ∃ m, c.Passes front m ∧ m.Passes back c' := by
  refine ⟨⟨c.position + front.length, back ++ c'.rest⟩, ⟨?_, rfl⟩, rfl, ?_⟩
  · rw [h.1, List.append_assoc]
  · rw [h.2, List.length_append, Nat.add_assoc]

/-- The bytes in between determine the later place. -/
theorem Passes.unique {c c₁ c₂ : Cursor} {run : List UInt8} (h₁ : c.Passes run c₁)
    (h₂ : c.Passes run c₂) : c₁ = c₂ := by
  have hrest : c₁.rest = c₂.rest := List.append_cancel_left (h₁.1.symm.trans h₂.1)
  have hposition : c₁.position = c₂.position := h₁.2.trans h₂.2.symm
  cases c₁
  cases c₂
  simp_all

theorem Passes.remaining_eq {c c' : Cursor} {run : List UInt8} (h : c.Passes run c') :
    c.remaining = run.length + c'.remaining := by
  rw [Cursor.remaining, h.1, List.length_append, Cursor.remaining]

/-- The bytes behind a place are those that have been passed from the start. -/
theorem Passes.take_position {buffer run : List UInt8} {c : Cursor}
    (h : (ofBytes buffer).Passes run c) : buffer.take c.position = run := by
  have hposition : c.position = run.length := h.2.trans (Nat.zero_add _)
  rw [hposition, show buffer = run ++ c.rest from h.1, List.take_left]

end Cursor

namespace Progress

/-- The same place in a buffer with more bytes at its end. -/
def extend (s : Progress) (more : List UInt8) : Progress :=
  { s with cursor := ⟨s.cursor.position, s.cursor.rest ++ more⟩ }

@[simp] theorem extend_remaining (s : Progress) (more : List UInt8) :
    (s.extend more).cursor.remaining = s.cursor.remaining + more.length := List.length_append

/-- Whether one place lies at or behind another in the same buffer, with nothing lost from the log
on the way. -/
structure Reaches (s s' : Progress) : Prop where
  /-- Some bytes lie between the two. -/
  passes : ∃ run, s.cursor.Passes run s'.cursor
  /-- The later log continues the earlier one. -/
  log : s.log.toList <+: s'.log.toList

theorem Reaches.refl (s : Progress) : s.Reaches s := ⟨⟨[], .refl _⟩, List.prefix_rfl⟩

theorem Reaches.trans {s₁ s₂ s₃ : Progress} (h : s₁.Reaches s₂) (h' : s₂.Reaches s₃) :
    s₁.Reaches s₃ := by
  obtain ⟨front, hfront⟩ := h.passes
  obtain ⟨back, hback⟩ := h'.passes
  exact ⟨⟨front ++ back, hfront.append hback⟩, h.log.trans h'.log⟩

theorem Reaches.position_le {s s' : Progress} (h : s.Reaches s') :
    s.cursor.position ≤ s'.cursor.position := by
  obtain ⟨run, -, hposition⟩ := h.passes
  omega

/-- Both places divide a buffer of the same size. -/
theorem Reaches.size_eq {s s' : Progress} (h : s.Reaches s') :
    s'.cursor.position + s'.cursor.remaining = s.cursor.position + s.cursor.remaining := by
  obtain ⟨run, hrun⟩ := h.passes
  rw [hrun.2, hrun.remaining_eq]
  omega

end Progress

namespace Decoder

variable {α β : Type}

/-! ## Single runs

A decoder is opened here and nowhere else.  Behind this section there are only equations between
runs: a run of two decoders in a row is found from the run of the first one, by whether it
succeeds. -/

theorem run_pure (x : α) (s : Progress) : run (pure x) s = (.ok x, s) := rfl

theorem run_throw (e : FormatError) (s : Progress) :
    run (throw e : Decoder α) s = (.error e, s) := rfl

theorem run_eq_ok_iff {d : Decoder α} {s s' : Progress} {x : α} :
    d.run s = (.ok x, s') ↔ d s = .ok x s' := by
  rw [run]
  cases d s <;> simp

theorem run_eq_error_iff {d : Decoder α} {s s' : Progress} {e : FormatError} :
    d.run s = (.error e, s') ↔ d s = .error e s' := by
  rw [run]
  cases d s <;> simp

/-- Nothing but its runs makes a decoder. -/
theorem ext_run {d d' : Decoder α} (h : ∀ s, d.run s = d'.run s) : d = d' := by
  funext s
  rcases hs : d' s with ⟨x, s'⟩ | ⟨e, s'⟩
  · exact run_eq_ok_iff.1 ((h s).trans (run_eq_ok_iff.2 hs))
  · exact run_eq_error_iff.1 ((h s).trans (run_eq_error_iff.2 hs))

theorem run_bind_of_ok {d : Decoder α} {f : α → Decoder β} {s s' : Progress} {x : α}
    (h : d.run s = (.ok x, s')) : (d >>= f).run s = (f x).run s' := by
  rw [run_eq_ok_iff] at h
  show run (EStateM.bind d f) s = _
  rw [run, EStateM.bind, h, run]

theorem run_bind_of_error {d : Decoder α} {f : α → Decoder β} {s s' : Progress} {e : FormatError}
    (h : d.run s = (.error e, s')) : (d >>= f).run s = (.error e, s') := by
  rw [run_eq_error_iff] at h
  show run (EStateM.bind d f) s = _
  rw [run, EStateM.bind, h]

/-- A measured run looks at its start once, and then runs on and compares. -/
theorem run_measured (d : Decoder α) (s : Progress) :
    (measured d).run s =
      (do let x ← d; let stop ← position; pure (x, stop - s.cursor.position) : Decoder _).run s :=
  rfl

theorem run_measured_of_ok {d : Decoder α} {s s' : Progress} {x : α} (h : d.run s = (.ok x, s')) :
    (measured d).run s = (.ok (x, s'.cursor.position - s.cursor.position), s') := by
  rw [run_measured, run_bind_of_ok h]
  rfl

theorem run_measured_of_error {d : Decoder α} {s s' : Progress} {e : FormatError}
    (h : d.run s = (.error e, s')) : (measured d).run s = (.error e, s') := by
  rw [run_measured, run_bind_of_error h]

/-- A read takes its whole width if there is so much, and gives it its meaning. -/
theorem run_read_of_le {r : Read} {s : Progress} (h : r.width ≤ s.cursor.remaining) :
    (read r).run s = (.ok (r.interpret (s.cursor.rest.take r.width)),
      { s with cursor := ⟨s.cursor.position + r.width, s.cursor.rest.drop r.width⟩ }) := by
  rw [run_eq_ok_iff, read, Cursor.read, Cursor.take_of_le h]
  rfl

/-- A read that finds too little reports it and stays where it is. -/
theorem run_read_of_lt {r : Read} {s : Progress} (h : s.cursor.remaining < r.width) :
    (read r).run s =
      (.error (.truncated ⟨s.cursor.position, r.width, s.cursor.remaining⟩), s) := by
  rw [run_eq_error_iff, read, Cursor.read, Cursor.take_of_lt h]
  rfl

/-- A read that finds its width passes it. -/
theorem run_read_of_passes {r : Read} {s : Progress} {c : Cursor} {chunk : List UInt8}
    (h : s.cursor.Passes chunk c) (hlength : chunk.length = r.width) :
    (read r).run s = (.ok (r.interpret chunk), { s with cursor := c }) := by
  have hle : r.width ≤ s.cursor.remaining := by
    have := h.remaining_eq
    omega
  have htake : s.cursor.rest.take r.width = chunk := by rw [h.1, ← hlength, List.take_left]
  have hdrop : s.cursor.rest.drop r.width = c.rest := by rw [h.1, ← hlength, List.drop_left]
  rw [run_read_of_le hle, htake, hdrop, ← hlength, ← h.2]

theorem run_u16_of_passes {x : UInt16} {s : Progress} {c : Cursor}
    (h : s.cursor.Passes (BigEndian.bytes 2 x.toNat) c) :
    u16.run s = (.ok x, { s with cursor := c }) := by
  have hvalue : BigEndian.value (BigEndian.bytes 2 x.toNat) = x.toNat :=
    BigEndian.value_bytes x.toNat_lt
  rw [u16, run_read_of_passes h (BigEndian.length_bytes _ _), Read.interpret, hvalue,
    UInt16.ofNat_toNat]

theorem run_u32_of_passes {x : UInt32} {s : Progress} {c : Cursor}
    (h : s.cursor.Passes (BigEndian.bytes 4 x.toNat) c) :
    u32.run s = (.ok x, { s with cursor := c }) := by
  have hvalue : BigEndian.value (BigEndian.bytes 4 x.toNat) = x.toNat :=
    BigEndian.value_bytes x.toNat_lt
  rw [u32, run_read_of_passes h (BigEndian.length_bytes _ _), Read.interpret, hvalue,
    UInt32.ofNat_toNat]

/-! ## Sequential decoders

The constructors are the ways in which a reader may be written down.  A truncation is not among the
errors that a decoder may raise by itself, so that every truncation comes from a read; without this
there could be no connection between the error and the bytes that are left. -/

/-- Whether an outcome is the error that the buffer ends too early. -/
def IsTruncation (r : Except FormatError α) : Prop := ∃ m, r = .error (.truncated m)

instance (r : Except FormatError α) : Decidable (IsTruncation r) :=
  match r with
  | .ok _ => .isFalse fun ⟨_, h⟩ => by cases h
  | .error e =>
    match e with
    | .truncated m => .isTrue ⟨m, rfl⟩
    | .badMagic _ | .unknownTag _ _ | .invalidText _ | .invalidIndex _ | .wrongKind _ _ _
    | .lengthMismatch _ _ _ => .isFalse fun ⟨_, h⟩ => by cases h

instance (r : Except FormatError α) (e : FormatError) : Decidable (r = .error e) :=
  match r with
  | .ok _ => .isFalse fun h => by cases h
  | .error e' => decidable_of_iff (e' = e) ⟨congrArg _, Except.error.inj⟩

/-- The decoders that are put together from reads, records, counts of the bytes read, and errors
other than truncation. -/
inductive Sequential : {α : Type} → Decoder α → Prop
  | pure {α : Type} (x : α) : Sequential (Pure.pure x : Decoder α)
  | throw {α : Type} {e : FormatError} (he : ∀ m, e ≠ .truncated m) :
      Sequential (MonadExcept.throw e : Decoder α)
  | read (r : Read) : Sequential (Decoder.read r)
  | record (r : LogRecord) : Sequential (Decoder.record r)
  | measured {α : Type} {d : Decoder α} (hd : Sequential d) : Sequential (Decoder.measured d)
  | bind {α β : Type} {d : Decoder α} {f : α → Decoder β} (hd : Sequential d)
      (hf : ∀ x, Sequential (f x)) : Sequential (d >>= f)

theorem Sequential.lift {r : Except FormatError α} (hr : ¬ IsTruncation r) :
    Sequential (Decoder.lift r) := by
  cases r with
  | ok x => exact .pure x
  | error e => exact .throw fun m he => hr ⟨m, by rw [he]⟩

theorem Sequential.times {d : Decoder α} (hd : Sequential d) (count : Nat) :
    Sequential (Decoder.times count d) := by
  induction count with
  | zero => exact .pure []
  | succ count ih =>
    rw [times_succ]
    exact .bind hd fun x => .bind ih fun xs => .pure (x :: xs)

/-- **A run only moves forward,** and only adds to the log. -/
theorem Sequential.reaches {d : Decoder α} (hd : Sequential d) (s : Progress) :
    s.Reaches (d.run s).2 := by
  induction hd generalizing s with
  | pure x => exact .refl s
  | throw he => exact .refl s
  | read r =>
    rcases Nat.lt_or_ge s.cursor.remaining r.width with h | h
    · rw [run_read_of_lt h]
      exact .refl s
    · rw [run_read_of_le h]
      have hlength : (s.cursor.rest.take r.width).length = r.width :=
        List.length_take_of_le h
      exact ⟨⟨_, (List.take_append_drop r.width _).symm, by rw [hlength]⟩, List.prefix_rfl⟩
  | record r =>
    refine ⟨⟨[], .refl _⟩, ?_⟩
    show s.log.toList <+: (s.log.push r).toList
    rw [Array.toList_push]
    exact List.prefix_append _ _
  | @measured α d hd ih =>
    have hs := ih s
    rcases hrun : d.run s with ⟨e | x, s'⟩
    · rw [hrun] at hs
      rw [run_measured_of_error hrun]
      exact hs
    · rw [hrun] at hs
      rw [run_measured_of_ok hrun]
      exact hs
  | @bind α β d f hd hf ihd ihf =>
    have hs := ihd s
    rcases hrun : d.run s with ⟨e | x, s'⟩
    · rw [hrun] at hs
      rw [run_bind_of_error hrun]
      exact hs
    · rw [hrun] at hs
      rw [run_bind_of_ok hrun]
      exact hs.trans (ihf x s')

/-! ## Runs that are cut short

There are three things that can become of an outcome when the buffer grows: it stays as it is
(`same`), it stays a truncation (`short`), or reading gets past the place where it stopped
(`beyond`).  `Resumes` names them together with what decides between them, which is the number of
bytes that have been added. -/

/-- **A truncation is reported where it happens:** it names the place where the run stopped and the
number of bytes that were left there, which is too small. -/
theorem Sequential.shortage {d : Decoder α} (hd : Sequential d) {s s' : Progress} {m : Shortage}
    (h : d.run s = (.error (.truncated m), s')) :
    m.offset = s'.cursor.position ∧ m.remaining = s'.cursor.remaining ∧ m.remaining < m.needed := by
  induction hd generalizing s with
  | pure x => cases h
  | throw he =>
    rw [run_throw] at h
    cases h
    exact absurd rfl (he m)
  | read r =>
    rcases Nat.lt_or_ge s.cursor.remaining r.width with hlt | hge
    · rw [run_read_of_lt hlt] at h
      cases h
      exact ⟨rfl, rfl, hlt⟩
    · rw [run_read_of_le hge] at h
      cases h
  | record r => cases h
  | @measured α d hd ih =>
    rcases hrun : d.run s with ⟨e | x, s''⟩
    · rw [run_measured_of_error hrun] at h
      cases h
      exact ih hrun
    · rw [run_measured_of_ok hrun] at h
      cases h
  | @bind α β d f hd hf ihd ihf =>
    rcases hrun : d.run s with ⟨e | x, s''⟩
    · rw [run_bind_of_error hrun] at h
      cases h
      exact ihd hrun
    · rw [run_bind_of_ok hrun] at h
      exact ihf x h

/-- What becomes of an outcome when there are more bytes at the end of the buffer. -/
inductive Resumes (more : List UInt8) :
    Except FormatError α × Progress → Except FormatError α × Progress → Prop
  /-- An outcome that is no truncation stays as it is. -/
  | same {r : Except FormatError α} {s : Progress} (hr : ¬ IsTruncation r) :
      Resumes more (r, s) (r, s.extend more)
  /-- A truncation stays one while there are still too few bytes. -/
  | short {m : Shortage} {s : Progress} (hm : m.remaining + more.length < m.needed) :
      Resumes more (.error (.truncated m), s)
        (.error (.truncated { m with remaining := m.remaining + more.length }), s.extend more)
  /-- A truncation is overcome when there are enough. -/
  | beyond {m : Shortage} {s : Progress} {out : Except FormatError α × Progress}
      (hm : m.needed ≤ m.remaining + more.length)
      (hposition : m.offset + m.needed ≤ out.2.cursor.position)
      (hlog : s.log.toList <+: out.2.log.toList) :
      Resumes more (.error (.truncated m), s) out

theorem resumes_read (r : Read) (more : List UInt8) (s : Progress) :
    Resumes more ((read r).run s) ((read r).run (s.extend more)) := by
  rcases Nat.lt_or_ge s.cursor.remaining r.width with hlt | hge
  · rw [run_read_of_lt hlt]
    rcases Nat.lt_or_ge (s.extend more).cursor.remaining r.width with hlt' | hge'
    · rw [run_read_of_lt hlt']
      rw [Progress.extend_remaining] at hlt' ⊢
      exact .short hlt'
    · rw [run_read_of_le hge']
      rw [Progress.extend_remaining] at hge'
      exact .beyond hge' (Nat.le_refl _) List.prefix_rfl
  · have hge' : r.width ≤ (s.extend more).cursor.remaining := by
      rw [Progress.extend_remaining]; omega
    have htake : (s.extend more).cursor.rest.take r.width = s.cursor.rest.take r.width :=
      List.take_append_of_le_length hge
    have hdrop : (s.extend more).cursor.rest.drop r.width = s.cursor.rest.drop r.width ++ more :=
      List.drop_append_of_le_length hge
    rw [run_read_of_le hge, run_read_of_le hge', htake, hdrop]
    exact .same fun ⟨m, hm⟩ => by cases hm

/-- If a run follows another, then so does what is done next with what they give. -/
theorem Resumes.bind {d : Decoder α} {f : α → Decoder β} {more : List UInt8} {s : Progress}
    (h : Resumes more (d.run s) (d.run (s.extend more)))
    (hreaches : ∀ x (s' : Progress), s'.Reaches ((f x).run s').2)
    (hf : ∀ x s', Resumes more ((f x).run s') ((f x).run (s'.extend more))) :
    Resumes more ((d >>= f).run s) ((d >>= f).run (s.extend more)) := by
  rcases hshort : d.run s with ⟨e | x, s₁⟩ <;> rcases hlong : d.run (s.extend more) with ⟨r, s₂⟩ <;>
    rw [hshort, hlong] at h
  · rw [run_bind_of_error hshort]
    cases h with
    | same hr =>
      rw [run_bind_of_error hlong]
      exact .same fun ⟨m, hm⟩ => hr ⟨m, by cases hm; rfl⟩
    | short hm =>
      rw [run_bind_of_error hlong]
      exact .short hm
    | beyond hm hposition hlog =>
      -- the longer run has passed the place, and whatever it does next stays behind it
      have hnext : s₂.Reaches ((d >>= f).run (s.extend more)).2 := by
        cases r with
        | error e => rw [run_bind_of_error hlong]; exact .refl s₂
        | ok x => rw [run_bind_of_ok hlong]; exact hreaches x s₂
      exact .beyond hm (Nat.le_trans hposition hnext.position_le) (hlog.trans hnext.log)
  · cases h
    rw [run_bind_of_ok hshort, run_bind_of_ok hlong]
    exact hf x s₁

/-- **A run on a longer buffer follows the run on the shorter one,** up to the end of the shorter
buffer. -/
theorem Sequential.resumes {d : Decoder α} (hd : Sequential d) (more : List UInt8) (s : Progress) :
    Resumes more (d.run s) (d.run (s.extend more)) := by
  induction hd generalizing s with
  | pure x => exact .same fun ⟨m, hm⟩ => by cases hm
  | throw he => exact .same fun ⟨m, hm⟩ => he m (by cases hm; rfl)
  | read r => exact resumes_read r more s
  | record r => exact .same fun ⟨m, hm⟩ => by cases hm
  | @measured α d hd ih =>
    rw [run_measured, run_measured]
    refine (ih s).bind (fun x s' => .refl s') fun x s' => ?_
    exact .same fun ⟨m, hm⟩ => by cases hm
  | bind hd hf ihd ihf => exact (ihd s).bind (fun x s' => (hf x).reaches s') fun x s' => ihf x s'

end Decoder
end ClassFormat
