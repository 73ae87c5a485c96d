import ClassFormat.Proofs.Format

/-!
# Faults

A `Format` says which runs of bytes are read as a value; a `Fault` says behind which runs an error
arises.  `StopsBy n d E` says that whenever the decoder `d` stops with an error, then either the
buffer is really too short where it stopped, or the error and the bytes up to that place are among
those that the fault `E` allows.  So an error can be judged by the bytes in front of it.

As for formats, there is one lemma for each way to put decoders together.  The fault is that of the
whole decoder from the start: behind a run that has been read, what is left to show is the fault
with that run in front.

* `Fault.Explains` is what is said of one error at one place, and `StopsBy` says it of all of them.
* A truncation is explained in the same way for every decoder, by `Shortage.IsAt`, and so it never
  has to be part of a fault.  `Fault.never` is the fault of a decoder that can only be cut short.
* `StopsBy.bind` needs the format of the first decoder, since the bytes that it has read stand in
  front of the error of the second.  Errors are judged by what has been read, and what has been read
  is known by its format.
* `StopsBy.times` says the same of a loop: one of its steps stops, and the earlier ones have read
  what stands in front.

Only one direction is stated.  A fault says that an error is justified, and not that every buffer
with those bytes has it: an earlier error may come first.
-/

set_option autoImplicit false

namespace ClassFormat

/-- Behind which runs of bytes an error arises. -/
abbrev Fault : Type := FormatError → List UInt8 → Prop

/-- No error, behind no bytes. -/
def Fault.never : Fault := fun _ _ => False

/-- Whether a shortage is that at a place: it names the place and what is left there, which is too
little. -/
def Shortage.IsAt (m : Shortage) (place : Cursor) : Prop :=
  m.offset = place.position ∧ m.remaining = place.remaining ∧ m.remaining < m.needed

/-- Whether an error tells the truth about the bytes between two places: it is a shortage at the
later one, or a fault of those bytes. -/
def Fault.Explains (E : Fault) (e : FormatError) (start stop : Cursor) : Prop :=
  ∃ run, start.Passes run stop ∧ ((∃ m, e = .truncated m ∧ m.IsAt stop) ∨ E e run)

theorem Fault.Explains.mono {E E' : Fault} {e : FormatError} {start stop : Cursor}
    (h : E.Explains e start stop) (hE : ∀ run, E e run → E' e run) : E'.Explains e start stop := by
  obtain ⟨run, hpasses, hrun⟩ := h
  exact ⟨run, hpasses, hrun.imp_right (hE run)⟩

/-- What explains an error behind some bytes explains it with them. -/
theorem Fault.Explains.append {E : Fault} {e : FormatError} {start m stop : Cursor}
    {front : List UInt8} (hfront : start.Passes front m)
    (h : Fault.Explains (fun e back => E e (front ++ back)) e m stop) :
    E.Explains e start stop := by
  obtain ⟨back, hback, hrun⟩ := h
  exact ⟨front ++ back, hfront.append hback, hrun⟩

namespace Decoder

variable {α β : Type} {n : Nat} {E : Fault}

/-- Whether every error of a decoder is explained by a fault, wherever fewer than `n` bytes are
left. -/
def StopsBy (n : Nat) (d : Decoder α) (E : Fault) : Prop :=
  ∀ (s s' : Progress) (e : FormatError), s.cursor.remaining < n → d.run s = (.error e, s') →
    E.Explains e s.cursor s'.cursor

namespace StopsBy

theorem weaken {d : Decoder α} {F : Fault} (h : StopsBy n d F) (hF : ∀ e run, F e run → E e run) :
    StopsBy n d E :=
  fun s s' e hs hrun => (h s s' e hs hrun).mono (hF e)

theorem mono {m : Nat} {d : Decoder α} (h : StopsBy n d E) (hmn : m ≤ n) : StopsBy m d E :=
  fun s s' e hs => h s s' e (Nat.lt_of_lt_of_le hs hmn)

theorem pure (x : α) : StopsBy n (Pure.pure x) E := by
  intro s s' e _ hrun
  cases hrun

theorem record (r : LogRecord) : StopsBy n (Decoder.record r) E := by
  intro s s' e _ hrun
  cases hrun

theorem throw {e : FormatError} (h : E e []) : StopsBy n (MonadExcept.throw e : Decoder α) E := by
  intro s s' e' _ hrun
  cases hrun
  exact ⟨[], .refl _, .inr h⟩

theorem lift {r : Except FormatError α} (h : ∀ e, r = .error e → E e []) :
    StopsBy n (Decoder.lift r) E := by
  cases r with
  | ok x => exact pure x
  | error e => exact throw (h e rfl)

/-- A read can only find too little. -/
theorem read (r : Read) : StopsBy n (Decoder.read r) E := by
  intro s s' e _ hrun
  by_cases h : r.width ≤ s.cursor.remaining
  · rw [run_read_of_le h] at hrun
    cases hrun
  · have hlt := Nat.lt_of_not_le h
    rw [run_read_of_lt hlt] at hrun
    cases hrun
    exact ⟨[], .refl _, .inl ⟨_, rfl, rfl, rfl, hlt⟩⟩

/-- **What stops the second of two decoders is explained with the bytes of the first in front.** -/
theorem bind {d : Decoder α} {f : α → Decoder β} {F : Format α} (hd : StopsBy n d E)
    (hF : Reads n d F) (hf : ∀ x front, F x front →
      StopsBy (n - front.length) (f x) (fun e back => E e (front ++ back))) :
    StopsBy n (d >>= f) E := by
  intro s s' e hs hrun
  rcases hd' : d.run s with ⟨e' | x, m⟩
  · rw [run_bind_of_error hd'] at hrun
    cases hrun
    exact hd s s' e hs hd'
  · rw [run_bind_of_ok hd'] at hrun
    obtain ⟨front, hx, hfront⟩ := (hF s x m.cursor hs).1 ⟨m.log, hd'⟩
    have hless := hfront.remaining_eq
    exact .append hfront (hf x front hx m s' e (by omega) hrun)

/-- When the first of them reads each value from one run, that run is in front. -/
theorem bind_exactly {d : Decoder α} {f : α → Decoder β} {P : α → Prop} {encode : α → List UInt8}
    (hd : StopsBy n d E) (hF : Reads n d (.exactly P encode)) (hf : ∀ x, P x →
      StopsBy (n - (encode x).length) (f x) (fun e back => E e (encode x ++ back))) :
    StopsBy n (d >>= f) E := by
  refine hd.bind hF fun x front hx => ?_
  obtain ⟨rfl, hP⟩ := hx
  exact hf x hP

theorem u16_bind {f : UInt16 → Decoder β} (hf : ∀ x : UInt16,
      StopsBy (n - 2) (f x) (fun e back => E e (BigEndian.bytes 2 x.toNat ++ back))) :
    StopsBy n (Decoder.u16 >>= f) E :=
  bind_exactly (read _) .u16 fun x _ => hf x

theorem u32_bind {f : UInt32 → Decoder β} (hf : ∀ x : UInt32,
      StopsBy (n - 4) (f x) (fun e back => E e (BigEndian.bytes 4 x.toNat ++ back))) :
    StopsBy n (Decoder.u32 >>= f) E :=
  bind_exactly (read _) .u32 fun x _ => hf x

theorem record_bind {r : LogRecord} {f : Unit → Decoder β} (hf : StopsBy n (f ()) E) :
    StopsBy n (Decoder.record r >>= f) E := by
  refine .bind (.record r) (.record r) fun _ front hfront => ?_
  obtain rfl := hfront.2
  exact hf

theorem measured {d : Decoder α} (hd : StopsBy n d E) : StopsBy n (Decoder.measured d) E := by
  intro s s' e hs hrun
  rcases hd' : d.run s with ⟨e' | x, m⟩
  · rw [run_measured_of_error hd'] at hrun
    cases hrun
    exact hd s s' e hs hd'
  · rw [run_measured_of_ok hd'] at hrun
    cases hrun

/-- A loop is stopped in one of its steps, behind what the earlier ones have read. -/
theorem times {d : Decoder α} {F : Format α} {E' : Fault} {count : Nat} (hd : StopsBy n d E')
    (hF : Reads n d F) (hE : ∀ xs front e back, xs.length < count → F.Repeated xs front →
      E' e back → E e (front ++ back)) :
    StopsBy n (Decoder.times count d) E := by
  induction count generalizing n E with
  | zero => exact pure []
  | succ count ih =>
    rw [times_succ]
    have hfirst : StopsBy n d E :=
      hd.weaken fun e run h => hE [] [] e run (Nat.succ_pos count) .nil h
    refine hfirst.bind hF fun x front hx => ?_
    have hle := Nat.sub_le n front.length
    have hothers := ih (hd.mono hle) (hF.mono hle) (E := fun e back => E e (front ++ back))
      fun xs front' e back hxs hfront' h => by
        rw [← List.append_assoc]
        exact hE (x :: xs) (front ++ front') e back (Nat.succ_lt_succ hxs) (.cons hx hfront') h
    exact hothers.bind ((hF.mono hle).times count) fun xs _ _ => pure (x :: xs)

/-- A loop whose step has no fault of its own has none either. -/
theorem times_never {d : Decoder α} {F : Format α} (hd : StopsBy n d .never) (hF : Reads n d F)
    (count : Nat) : StopsBy n (Decoder.times count d) E :=
  hd.times hF fun _ _ _ _ _ _ h => h.elim

end StopsBy
end Decoder
end ClassFormat
