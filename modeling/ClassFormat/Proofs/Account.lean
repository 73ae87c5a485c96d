import ClassFormat.Proofs.Fault

/-!
# What a decoder leaves in the log

A `Format` relates a value to the bytes that it is read from, and a `Fault` an error to the bytes in
front of it.  An `Account` relates either of them to the lines of the log as well.  `Leaves n d T B`
says that whenever the decoder `d` gives a value, the bytes read and the lines made are those that
`T` has for the value, and whenever it stops with an error, they are those that `B` has for the
error.  So `T` is what is told of something that is read, and `B` what has been told by the time
when reading breaks off.

As for formats and faults, there is one lemma for each way to put decoders together.  A decoder that
makes no record, such as the reader of a constant, needs none of them: `Leaves.of_silent` puts its
account together from its format and its faults.

A line of the log is a level and the words of a record.  The record of what is left behind a class
file is not made by any decoder of its parts, and `Progress.Adds` says so of every line.

## What is here

* `LogRecord.line` — the line that a record makes.  Accounts are about lines and not about records,
  so that what is told is told in words.
* `Progress.Adds` — the bytes and the lines between two places.  It is composed like `Passes`.
* `Format.CompleteIn` — that a run has all the bytes of some value at its start.  What is cut short
  has no such start, which is how it is told apart from what has come to its end.
* `Silent` — the decoders without records, and how they are put together.
* `Leaves.bind` — behind a value of the first decoder, what the second one leaves is appended, be it
  a value or an error; an error of the first ends it all.
* `Leaves.record_bind` — the one place where a line comes from.
* `Leaves.times` — a loop tells of the values that it has got, and of nothing else.
-/

set_option autoImplicit false

namespace ClassFormat

/-- A line of the log: how important it is, and its words. -/
abbrev LogLine : Type := LogLevel × String

/-- Which bytes and which lines go with a value, or with an error. -/
abbrev Account (α : Type) : Type := α → List UInt8 → List LogLine → Prop

/-- The line that a record makes. -/
def LogRecord.line (r : LogRecord) : LogLine := (r.level, r.message)

/-- Whether a record counts what is left behind a class file. -/
def LogRecord.isTrailing : LogRecord → Bool
  | trailing _ => true
  | _ => false

namespace Progress

/-- Whether one place is reached from another by reading some bytes and making some lines. -/
def Adds (s : Progress) (run : List UInt8) (lines : List LogLine) (s' : Progress) : Prop :=
  s.cursor.Passes run s'.cursor ∧ ∃ made : List LogRecord, s'.log.toList = s.log.toList ++ made ∧
    made.map LogRecord.line = lines ∧ ∀ r ∈ made, r.isTrailing = false

theorem Adds.silent {s s' : Progress} {run : List UInt8} (h : s.cursor.Passes run s'.cursor)
    (hlog : s'.log = s.log) : s.Adds run [] s' :=
  ⟨h, [], by rw [hlog, List.append_nil], rfl, List.forall_mem_nil _⟩

theorem Adds.refl (s : Progress) : s.Adds [] [] s := .silent (.refl _) rfl

theorem Adds.append {s₁ s₂ s₃ : Progress} {front back : List UInt8} {lines lines' : List LogLine}
    (h : s₁.Adds front lines s₂) (h' : s₂.Adds back lines' s₃) :
    s₁.Adds (front ++ back) (lines ++ lines') s₃ := by
  obtain ⟨hfront, made, hlog, rfl, hmade⟩ := h
  obtain ⟨hback, made', hlog', rfl, hmade'⟩ := h'
  refine ⟨hfront.append hback, made ++ made', ?_, List.map_append, ?_⟩
  · rw [hlog', hlog, List.append_assoc]
  · exact List.forall_mem_append.2 ⟨hmade, hmade'⟩

end Progress

/-- Whether a run starts with one that stands for a value. -/
def Format.CompleteIn {α : Type} (F : Format α) (run : List UInt8) : Prop :=
  ∃ x front back, run = front ++ back ∧ F x front

namespace Decoder

variable {α β : Type} {n : Nat}

/-! ## Decoders that make no record -/

/-- Whether a decoder leaves the log as it is. -/
def Silent (d : Decoder α) : Prop := ∀ s, (d.run s).2.log = s.log

namespace Silent

theorem pure (x : α) : Silent (Pure.pure x) := fun _ => rfl

theorem throw (e : FormatError) : Silent (MonadExcept.throw e : Decoder α) := fun _ => rfl

theorem read (r : Read) : Silent (Decoder.read r) := by
  intro s
  rcases Nat.lt_or_ge s.cursor.remaining r.width with h | h
  · rw [run_read_of_lt h]
  · rw [run_read_of_le h]

theorem bind {d : Decoder α} {f : α → Decoder β} (hd : Silent d) (hf : ∀ x, Silent (f x)) :
    Silent (d >>= f) := by
  intro s
  have hs := hd s
  rcases hrun : d.run s with ⟨e | x, s'⟩ <;> rw [hrun] at hs
  · rw [run_bind_of_error hrun]
    exact hs
  · rw [run_bind_of_ok hrun]
    exact (hf x s').trans hs

theorem times {d : Decoder α} (hd : Silent d) (count : Nat) : Silent (Decoder.times count d) := by
  induction count with
  | zero => exact pure []
  | succ count ih =>
    rw [times_succ]
    exact hd.bind fun x => ih.bind fun xs => pure (x :: xs)

end Silent

/-! ## Accounts

Unlike `Reads`, `Leaves` says something about every run: each one has a value or an error, and
either has an account.  That the value is the right one is not said here, and is added from the
format where it is needed (`Leaves.reads`). -/

/-- Whether a decoder leaves the lines of an account, wherever fewer than `n` bytes are left. -/
def Leaves (n : Nat) (d : Decoder α) (T : Account α) (B : Account FormatError) : Prop :=
  ∀ s : Progress, s.cursor.remaining < n → ∃ run lines, s.Adds run lines (d.run s).2 ∧
    match (d.run s).1 with
    | .ok x => T x run lines
    | .error e => B e run lines

namespace Leaves

variable {T : Account α} {T' : Account β} {B : Account FormatError}

theorem weaken {d : Decoder α} {S : Account α} {D : Account FormatError} (h : Leaves n d S D)
    (hT : ∀ x run lines, S x run lines → T x run lines)
    (hB : ∀ e run lines, D e run lines → B e run lines) : Leaves n d T B := by
  intro s hs
  obtain ⟨run, lines, hadds, hleft⟩ := h s hs
  refine ⟨run, lines, hadds, ?_⟩
  cases hr : (d.run s).1 with
  | ok x => rw [hr] at hleft; exact hT x run lines hleft
  | error e => rw [hr] at hleft; exact hB e run lines hleft

/-- Only what is left by an error is put in other words. -/
theorem weaken_error {d : Decoder α} {D : Account FormatError} (h : Leaves n d T D)
    (hB : ∀ e run lines, D e run lines → B e run lines) : Leaves n d T B :=
  h.weaken (fun _ _ _ hx => hx) hB

theorem mono {m : Nat} {d : Decoder α} (h : Leaves n d T B) (hmn : m ≤ n) : Leaves m d T B :=
  fun s hs => h s (Nat.lt_of_lt_of_le hs hmn)

theorem pure {x : α} (h : T x [] []) : Leaves n (Pure.pure x) T B :=
  fun s _ => ⟨[], [], .refl s, h⟩

theorem throw {e : FormatError} (h : B e [] []) :
    Leaves n (MonadExcept.throw e : Decoder α) T B :=
  fun s _ => ⟨[], [], .refl s, h⟩

/-- What a decoder without records leaves follows from its format and its faults. -/
theorem of_silent {d : Decoder α} {F : Format α} {E : Fault} (hd : Silent d) (hF : Reads n d F)
    (hE : StopsBy n d E) : Leaves n d (fun x run lines => F x run ∧ lines = [])
      (fun e run lines => (¬ F.CompleteIn run ∧ ((∃ m, e = .truncated m) ∨ E e run)) ∧
        lines = []) := by
  intro s hs
  have hlog := hd s
  rcases hrun : d.run s with ⟨e | x, s'⟩ <;> rw [hrun] at hlog
  · obtain ⟨run, hpasses, hfault⟩ := hE s s' e hs hrun
    refine ⟨run, [], .silent hpasses hlog, ⟨?_, hfault.imp_left fun ⟨m, h, _⟩ => ⟨m, h⟩⟩, rfl⟩
    -- a value that is complete would have been given
    rintro ⟨x, front, back, rfl, hx⟩
    obtain ⟨c, hfront, -⟩ := hpasses.split
    obtain ⟨log, hok⟩ := (hF s x c hs).2 ⟨front, hx, hfront⟩
    rw [hok] at hrun
    cases hrun
  · obtain ⟨run, hx, hpasses⟩ := (hF s x s'.cursor hs).1 ⟨s'.log, hrun⟩
    exact ⟨run, [], .silent hpasses hlog, hx, rfl⟩

/-- If it has no fault of its own either, then it can only be cut short. -/
theorem of_silent_never {d : Decoder α} {F : Format α} (hd : Silent d) (hF : Reads n d F)
    (hE : StopsBy n d .never) (hB : ∀ m own, ¬ F.CompleteIn own → B (.truncated m) own []) :
    Leaves n d (fun x run lines => F x run ∧ lines = []) B := by
  refine (of_silent hd hF hE).weaken_error ?_
  rintro e own _ ⟨⟨hown, ⟨m, rfl⟩ | hnever⟩, rfl⟩
  · exact hB m own hown
  · exact hnever.elim

/-- The bytes that a value is read from are those of its format. -/
theorem reads {d : Decoder α} {F : Format α} (h : Leaves n d T B) (hF : Reads n d F) :
    Leaves n d (fun x run lines => F x run ∧ T x run lines) B := by
  intro s hs
  obtain ⟨run, lines, hadds, hleft⟩ := h s hs
  refine ⟨run, lines, hadds, ?_⟩
  rcases hrun : d.run s with ⟨e | x, s'⟩ <;> rw [hrun] at hadds hleft
  · exact hleft
  · obtain ⟨run', hx, hpasses⟩ := (hF s x s'.cursor hs).1 ⟨s'.log, hrun⟩
    obtain rfl : run' = run := List.append_cancel_right (hpasses.1.symm.trans hadds.1.1)
    exact ⟨hx, hleft⟩

/-- **What two decoders leave, one after the other,** is what the first one leaves, and behind a
value that it gives what the second one leaves. -/
theorem bind {d : Decoder α} {f : α → Decoder β} (hd : Leaves n d T B)
    (hf : ∀ x front lines, T x front lines → Leaves (n - front.length) (f x)
      (fun y back lines' => T' y (front ++ back) (lines ++ lines'))
      (fun e back lines' => B e (front ++ back) (lines ++ lines'))) :
    Leaves n (d >>= f) T' B := by
  intro s hs
  obtain ⟨front, lines, hfront, hleft⟩ := hd s hs
  rcases hrun : d.run s with ⟨e | x, m⟩ <;> rw [hrun] at hfront hleft
  · rw [run_bind_of_error hrun]
    exact ⟨front, lines, hfront, hleft⟩
  · have hless := hfront.1.remaining_eq
    simp only at hless
    obtain ⟨back, lines', hback, hleft'⟩ := hf x front lines hleft m (by omega)
    rw [run_bind_of_ok hrun]
    exact ⟨front ++ back, lines ++ lines', hfront.append hback, hleft'⟩

/-- A read either gives all that it is to give or breaks off where it is. -/
theorem read_bind {r : Read} {P : r.Result → Prop} {encode : r.Result → List UInt8}
    {f : r.Result → Decoder β} (hr : Reads n (Decoder.read r) (.exactly P encode))
    (hB : ∀ m, B (.truncated m) [] []) (hf : ∀ x, P x → Leaves (n - (encode x).length) (f x)
      (fun y back => T' y (encode x ++ back)) (fun e back => B e (encode x ++ back))) :
    Leaves n (Decoder.read r >>= f) T' B := by
  intro s hs
  rcases Nat.lt_or_ge s.cursor.remaining r.width with hlt | hge
  · rw [run_bind_of_error (run_read_of_lt hlt)]
    exact ⟨[], [], .refl s, hB _⟩
  · obtain ⟨x, c, hrun⟩ : ∃ x c, (Decoder.read r).run s = (.ok x, ⟨c, s.log⟩) :=
      ⟨_, _, run_read_of_le hge⟩
    obtain ⟨_, ⟨rfl, hx⟩, hpasses⟩ := (hr s x c hs).1 ⟨s.log, hrun⟩
    have hfront : s.Adds (encode x) [] ⟨c, s.log⟩ := .silent hpasses rfl
    have hless := hpasses.remaining_eq
    obtain ⟨back, lines, hback, hleft⟩ := hf x hx ⟨c, s.log⟩ (by simp only; omega)
    rw [run_bind_of_ok hrun]
    exact ⟨_, lines, hfront.append hback, hleft⟩

theorem u16_bind {f : UInt16 → Decoder β} (hB : ∀ m, B (.truncated m) [] [])
    (hf : ∀ x : UInt16, Leaves (n - 2) (f x)
      (fun y back => T' y (BigEndian.bytes 2 x.toNat ++ back))
      (fun e back => B e (BigEndian.bytes 2 x.toNat ++ back))) :
    Leaves n (Decoder.u16 >>= f) T' B :=
  read_bind .u16 hB fun x _ => hf x

theorem u32_bind {f : UInt32 → Decoder β} (hB : ∀ m, B (.truncated m) [] [])
    (hf : ∀ x : UInt32, Leaves (n - 4) (f x)
      (fun y back => T' y (BigEndian.bytes 4 x.toNat ++ back))
      (fun e back => B e (BigEndian.bytes 4 x.toNat ++ back))) :
    Leaves n (Decoder.u32 >>= f) T' B :=
  read_bind .u32 hB fun x _ => hf x

/-- A record makes its line. -/
theorem record_bind {r : LogRecord} {f : Unit → Decoder β} (hr : r.isTrailing = false)
    (hf : Leaves n (f ()) (fun y run lines => T' y run (r.line :: lines))
      (fun e run lines => B e run (r.line :: lines))) :
    Leaves n (Decoder.record r >>= f) T' B := by
  intro s hs
  have hrun : (Decoder.record r).run s = (.ok (), ⟨s.cursor, s.log.push r⟩) := rfl
  have hline : s.Adds [] [r.line] ⟨s.cursor, s.log.push r⟩ :=
    ⟨.refl _, [r], Array.toList_push .., rfl, List.forall_mem_singleton.2 hr⟩
  obtain ⟨run, lines, hadds, hleft⟩ := hf ⟨s.cursor, s.log.push r⟩ hs
  rw [run_bind_of_ok hrun]
  exact ⟨run, r.line :: lines, hline.append hadds, hleft⟩

theorem lift_bind {r : Except FormatError α} {f : α → Decoder β}
    (hB : ∀ e, r = .error e → B e [] []) (hf : ∀ x, r = .ok x → Leaves n (f x) T' B) :
    Leaves n (Decoder.lift r >>= f) T' B := by
  intro s hs
  cases r with
  | error e =>
    have hrun : (Decoder.lift (.error e : Except FormatError α)).run s = (.error e, s) := rfl
    rw [run_bind_of_error hrun]
    exact ⟨[], [], .refl s, hB e rfl⟩
  | ok x =>
    have hrun : (Decoder.lift (.ok x)).run s = (.ok x, s) := rfl
    rw [run_bind_of_ok hrun]
    exact hf x rfl s hs

theorem measured {d : Decoder α} (hd : Leaves n d T B) : Leaves n (Decoder.measured d)
    (fun p run lines => T p.1 run lines ∧ p.2 = run.length) B := by
  intro s hs
  obtain ⟨run, lines, hadds, hleft⟩ := hd s hs
  rcases hrun : d.run s with ⟨e | x, s'⟩ <;> rw [hrun] at hadds hleft
  · rw [run_measured_of_error hrun]
    exact ⟨run, lines, hadds, hleft⟩
  · rw [run_measured_of_ok hrun]
    refine ⟨run, lines, hadds, hleft, ?_⟩
    have hposition := hadds.1.2
    simp only at hposition ⊢
    omega

/-- What a loop leaves are the lines of its values; when it breaks off, they are those of the values
that it has got, and then what its last step leaves. -/
theorem times {d : Decoder α} {F : Format α} {tell : α → List LogLine} {count : Nat}
    {D : Account FormatError}
    (hd : Leaves n d (fun x run lines => F x run ∧ lines = tell x) D)
    (hB : ∀ xs front e own lines, xs.length < count → F.Repeated xs front → D e own lines →
      B e (front ++ own) (xs.flatMap tell ++ lines)) :
    Leaves n (Decoder.times count d)
      (fun xs run lines => (xs.length = count ∧ F.Repeated xs run) ∧ lines = xs.flatMap tell)
      B := by
  induction count generalizing n B with
  | zero => exact pure ⟨⟨rfl, .nil⟩, rfl⟩
  | succ count ih =>
    rw [times_succ]
    have hfirst : Leaves n d (fun x run lines => F x run ∧ lines = tell x) B :=
      hd.weaken_error fun e own lines h => hB [] [] e own lines (Nat.succ_pos count) .nil h
    refine hfirst.bind fun x front lines hx => ?_
    obtain ⟨hx, rfl⟩ := hx
    refine (ih (hd.mono (Nat.sub_le _ _)) fun xs front' e own lines hxs hfront' h => ?_).bind
      fun xs back lines hxs => pure ?_
    · have hnext := hB (x :: xs) (front ++ front') e own lines (Nat.succ_lt_succ hxs)
        (.cons hx hfront') h
      simpa only [List.flatMap_cons, List.append_assoc] using hnext
    · obtain ⟨⟨hlength, hxs⟩, rfl⟩ := hxs
      rw [List.append_nil, List.append_nil]
      exact ⟨⟨congrArg (· + 1) hlength, .cons hx hxs⟩, rfl⟩

end Leaves
end Decoder
end ClassFormat
