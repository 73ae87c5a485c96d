import ClassFormat.Proofs.Sequential

/-!
# Formats

A `Format` says which runs of bytes stand for a value.  `Reads n d F` says that the decoder `d`
reads the format `F`: in every place with fewer than `n` bytes ahead, it gives `x` and stops at `c`
exactly if the bytes up to `c` stand for `x`.  So it accepts nothing else, misses nothing, and
neither skips a byte nor reads one twice.  The log is left out of it, and so are the errors.

The bound `n` is there for decoders that call themselves with a limit on nesting; all others read
their format in front of any number of bytes.

Formats are put together in the same way as decoders, with one lemma for each way.  The format of a
reader is found by following its text, and then brought into a readable form by `Reads.congr`.

## What is here

* `Format.only`, `never`, `bind` and `Repeated` — what formats are put together from.  A format may
  have several runs for one value, or one run for several values; that a reader reads a format rules
  out only the latter.
* `Format.exactly P encode` — the format of a value that has one stored form.  Nearly all formats of
  this library are of this kind, and the lemmas for records and lists keep to it, so that nothing
  has to be said about them anew.
* `Reads.bind` — the lemma that everything rests on.  Behind a run of so many bytes there are so
  many fewer left, so the second reader needs a smaller bound; this is how a reader of inner things
  may be known below a bound that is less than that of the outer one.
* `Reads.times` and `Reads.times_exactly` — loops.
* `Reads.number` — the six numbers, as one statement about a pair of conversions.
* `Reads.counted`, `Reads.field` and `Reads.fieldsEnd` — lists behind their length, and records.

What is known in this way of the readers of a class file stands in the modules on the formats of
constants, pools and attributes, and in `ClassFormat.Proofs.RoundTrip` for the whole.  What is said
of their errors is the subject of `ClassFormat.Proofs.Fault`, and what is said of the log that of
`ClassFormat.Proofs.Account`; both use the formats of what has been read before.
-/

set_option autoImplicit false

namespace ClassFormat

/-- Which runs of bytes stand for a value. -/
abbrev Format (α : Type) : Type := α → List UInt8 → Prop

namespace Format

variable {α β : Type}

/-- No bytes, for one value. -/
def only (x : α) : Format α := fun y chunk => y = x ∧ chunk = []

/-- Nothing at all. -/
def never : Format α := fun _ _ => False

/-- One run of bytes for each value that meets a condition. -/
def exactly (P : α → Prop) (encode : α → List UInt8) : Format α := fun x chunk =>
  chunk = encode x ∧ P x

/-- A run that stands for `x`, and then one that stands for a value in a way that may depend on
`x`. -/
def bind (F : Format α) (G : α → Format β) : Format β := fun y chunk =>
  ∃ x front back, chunk = front ++ back ∧ F x front ∧ G x y back

/-- The runs of some values, one behind the other. -/
inductive Repeated (F : Format α) : Format (List α)
  | nil : Repeated F [] []
  | cons {x : α} {xs : List α} {front back : List UInt8} (hx : F x front)
      (hxs : Repeated F xs back) : Repeated F (x :: xs) (front ++ back)

theorem repeated_exactly {P : α → Prop} {encode : α → List UInt8} {xs : List α}
    {chunk : List UInt8} :
    Repeated (exactly P encode) xs chunk ↔ chunk = xs.flatMap encode ∧ ∀ x ∈ xs, P x := by
  constructor
  · intro h
    induction h with
    | nil => exact ⟨rfl, by simp⟩
    | cons hx hxs ih =>
      obtain ⟨rfl, hP⟩ := hx
      obtain ⟨rfl, hPs⟩ := ih
      exact ⟨rfl, List.forall_mem_cons.2 ⟨hP, hPs⟩⟩
  · rintro ⟨rfl, h⟩
    induction xs with
    | nil => exact .nil
    | cons x xs ih =>
      obtain ⟨hx, hxs⟩ := List.forall_mem_cons.1 h
      exact .cons ⟨rfl, hx⟩ (ih hxs)

theorem only_bind {x : α} {G : α → Format β} {y : β} {chunk : List UInt8} :
    (only x).bind G y chunk ↔ G x y chunk := by
  constructor
  · rintro ⟨_, _, back, rfl, ⟨rfl, rfl⟩, hG⟩
    exact hG
  · intro hG
    exact ⟨x, [], chunk, rfl, ⟨rfl, rfl⟩, hG⟩

/-- A fixed run in front leaves the rest to what follows. -/
theorem exactly_bind {P : α → Prop} {encode : α → List UInt8} {G : α → Format β} {y : β}
    {chunk : List UInt8} :
    (exactly P encode).bind G y chunk ↔ ∃ x back, chunk = encode x ++ back ∧ P x ∧ G x y back := by
  constructor
  · rintro ⟨x, _, back, rfl, ⟨rfl, hP⟩, hG⟩
    exact ⟨x, back, rfl, hP, hG⟩
  · rintro ⟨x, back, rfl, hP, hG⟩
    exact ⟨x, _, back, rfl, ⟨rfl, hP⟩, hG⟩

end Format

/-! ## Runs of two-byte numbers

A run of two-byte numbers is read in one piece, but it is written number by number.  That this is
the same is a fact about pairs of bytes, and is all that the reads below need of it. -/

namespace Read

theorem length_flatMap_bytes (xs : List UInt16) :
    (xs.flatMap fun x => BigEndian.bytes 2 x.toNat).length = 2 * xs.length := by
  induction xs with
  | nil => rfl
  | cons x xs ih =>
    rw [List.flatMap_cons, List.length_append, ih, BigEndian.length_bytes, List.length_cons]
    omega

theorem pairs_flatMap (xs : List UInt16) :
    pairs (xs.flatMap fun x => BigEndian.bytes 2 x.toNat) = xs := by
  induction xs with
  | nil => rfl
  | cons x xs ih =>
    obtain ⟨a, b, hab⟩ : ∃ a b, BigEndian.bytes 2 x.toNat = [a, b] := ⟨_, _, rfl⟩
    have hvalue : BigEndian.value [a, b] = x.toNat :=
      hab ▸ @BigEndian.value_bytes 2 x.toNat x.toNat_lt
    rw [List.flatMap_cons, hab, List.cons_append, List.singleton_append, pairs_cons_cons, hvalue,
      ih, UInt16.ofNat_toNat]

theorem flatMap_pairs {chunk : List UInt8} {count : Nat} (h : chunk.length = 2 * count) :
    ((pairs chunk).flatMap fun x => BigEndian.bytes 2 x.toNat) = chunk ∧
      (pairs chunk).length = count := by
  induction count generalizing chunk with
  | zero =>
    obtain rfl : chunk = [] := List.length_eq_zero_iff.1 h
    exact ⟨rfl, rfl⟩
  | succ count ih =>
    obtain ⟨a, b, chunk, rfl⟩ : ∃ a b rest, chunk = a :: b :: rest := by
      rcases chunk with _ | ⟨a, _ | ⟨b, rest⟩⟩
      · simp at h
      · simp at h
        omega
      · exact ⟨a, b, rest, rfl⟩
    have hrest : chunk.length = 2 * count := by simp only [List.length_cons] at h; omega
    obtain ⟨hpairs, hlength⟩ := ih hrest
    have hlt : BigEndian.value [a, b] < BigEndian.limit 2 := BigEndian.value_lt [a, b]
    have hbytes : BigEndian.bytes 2 (BigEndian.value [a, b]) = [a, b] :=
      BigEndian.bytes_value [a, b]
    rw [pairs_cons_cons, List.flatMap_cons, UInt16.toNat_ofNat_of_lt' hlt, hbytes, hpairs,
      List.length_cons, hlength]
    exact ⟨rfl, rfl⟩

end Read

namespace Decoder

variable {α β : Type} {n : Nat}

/-- Whether a decoder reads a format, wherever fewer than `n` bytes are left. -/
def Reads (n : Nat) (d : Decoder α) (F : Format α) : Prop :=
  ∀ (s : Progress) (x : α) (c : Cursor), s.cursor.remaining < n →
    ((∃ log, d.run s = (.ok x, ⟨c, log⟩)) ↔ ∃ chunk, F x chunk ∧ s.cursor.Passes chunk c)

namespace Reads

theorem congr {d : Decoder α} {F G : Format α} (h : Reads n d F)
    (hFG : ∀ x chunk, F x chunk ↔ G x chunk) : Reads n d G := by
  intro s x c hs
  rw [h s x c hs]
  simp only [hFG]

theorem mono {m : Nat} {d : Decoder α} {F : Format α} (h : Reads n d F) (hmn : m ≤ n) :
    Reads m d F := fun s x c hs => h s x c (Nat.lt_of_lt_of_le hs hmn)

theorem pure (x : α) : Reads n (Pure.pure x) (.only x) := by
  intro s y c _
  rw [run_pure]
  constructor
  · rintro ⟨log, h⟩
    cases h
    exact ⟨[], ⟨rfl, rfl⟩, .refl _⟩
  · rintro ⟨_, ⟨rfl, rfl⟩, hpasses⟩
    rw [hpasses.unique (.refl _)]
    exact ⟨s.log, rfl⟩

theorem record (r : LogRecord) : Reads n (Decoder.record r) (.only ()) := by
  intro s x c _
  constructor
  · rintro ⟨log, h⟩
    cases h
    exact ⟨[], ⟨rfl, rfl⟩, .refl _⟩
  · rintro ⟨_, ⟨rfl, rfl⟩, hpasses⟩
    rw [hpasses.unique (.refl _)]
    exact ⟨s.log.push r, rfl⟩

theorem throw (e : FormatError) : Reads n (MonadExcept.throw e : Decoder α) .never := by
  intro s x c _
  constructor
  · rintro ⟨log, h⟩
    cases h
  · rintro ⟨_, h, -⟩
    exact h.elim

/-- A check that fails with an error becomes a condition of the format. -/
theorem ite_throw {p : Prop} [Decidable p] {d : Decoder α} {F : Format α} (hd : Reads n d F)
    (e : FormatError) :
    Reads n (if p then d else MonadExcept.throw e) (fun x chunk => p ∧ F x chunk) := by
  by_cases hp : p
  · rw [if_pos hp]
    exact hd.congr fun x chunk => (and_iff_right hp).symm
  · rw [if_neg hp]
    exact (throw e).congr fun x chunk => ⟨False.elim, fun h => hp h.1⟩

theorem lift (r : Except FormatError α) :
    Reads n (Decoder.lift r) (fun x chunk => r = .ok x ∧ chunk = []) := by
  cases r with
  | ok x => exact (pure x).congr fun y chunk => by simp [Format.only, eq_comm]
  | error e => exact (throw e).congr fun y chunk => by simp [Format.never]

/-- **A decoder reads one format after another** by running one reader after another. -/
theorem bind {d : Decoder α} {f : α → Decoder β} {F : Format α} {G : α → Format β}
    (hd : Reads n d F) (hf : ∀ x front, F x front → Reads (n - front.length) (f x) (G x)) :
    Reads n (d >>= f) (F.bind G) := by
  intro s y c hs
  -- behind the first run there is less left by just that run
  have hless {front : List UInt8} {m : Cursor} (h : s.cursor.Passes front m) :
      m.remaining < n - front.length := by
    have := h.remaining_eq
    omega
  constructor
  · rintro ⟨log, h⟩
    rcases hrun : d.run s with ⟨e | x, s₁⟩
    · rw [run_bind_of_error hrun] at h
      cases h
    · rw [run_bind_of_ok hrun] at h
      obtain ⟨front, hF, hfront⟩ := (hd s x s₁.cursor hs).1 ⟨s₁.log, hrun⟩
      obtain ⟨back, hG, hback⟩ := (hf x front hF s₁ y c (hless hfront)).1 ⟨log, h⟩
      exact ⟨front ++ back, ⟨x, front, back, rfl, hF, hG⟩, hfront.append hback⟩
  · rintro ⟨_, ⟨x, front, back, rfl, hF, hG⟩, hpasses⟩
    obtain ⟨m, hfront, hback⟩ := hpasses.split
    obtain ⟨log, hrun⟩ := (hd s x m hs).2 ⟨front, hF, hfront⟩
    rw [run_bind_of_ok hrun]
    exact (hf x front hF ⟨m, log⟩ y c (hless hfront)).2 ⟨back, hG, hback⟩

/-- A value that is made of one other. -/
theorem single {d : Decoder α} {P : α → Prop} {encode : α → List UInt8}
    (hd : Reads n d (.exactly P encode)) (make : α → β) :
    Reads n (d >>= fun x => Pure.pure (make x))
      (fun y chunk => ∃ x, chunk = encode x ∧ P x ∧ y = make x) := by
  refine (hd.bind fun x _ _ => pure (make x)).congr fun y chunk => ?_
  rw [Format.exactly_bind]
  constructor
  · rintro ⟨x, _, rfl, hP, rfl, rfl⟩
    exact ⟨x, List.append_nil _, hP, rfl⟩
  · rintro ⟨x, rfl, hP, rfl⟩
    exact ⟨x, [], (List.append_nil _).symm, hP, rfl, rfl⟩

/-- Records are not part of a format. -/
theorem record_bind {r : LogRecord} {f : Unit → Decoder β} {G : Format β} (hf : Reads n (f ()) G) :
    Reads n (Decoder.record r >>= f) G :=
  ((record r).bind fun _ _ _ => hf.mono (Nat.sub_le _ _)).congr fun _ _ => Format.only_bind

theorem measured {d : Decoder α} {F : Format α} (hd : Reads n d F) :
    Reads n (Decoder.measured d) (fun p chunk => F p.1 chunk ∧ p.2 = chunk.length) := by
  rintro s ⟨x, count⟩ c hs
  constructor
  · rintro ⟨log, h⟩
    rcases hrun : d.run s with ⟨e | y, s₁⟩
    · rw [run_measured_of_error hrun] at h
      cases h
    · rw [run_measured_of_ok hrun] at h
      cases h
      obtain ⟨chunk, hF, hpasses⟩ := (hd s x c hs).1 ⟨log, hrun⟩
      refine ⟨chunk, ⟨hF, ?_⟩, hpasses⟩
      simp only [hpasses.2]
      omega
  · rintro ⟨chunk, ⟨hF, hcount⟩, hpasses⟩
    obtain ⟨log, hrun⟩ := (hd s x c hs).2 ⟨chunk, hF, hpasses⟩
    have hlength : count = chunk.length := hcount
    have hdiff : c.position - s.cursor.position = count := by
      rw [hpasses.2]
      omega
    rw [run_measured_of_ok hrun, hdiff]
    exact ⟨log, rfl⟩

theorem times {d : Decoder α} {F : Format α} (hd : Reads n d F) (count : Nat) :
    Reads n (Decoder.times count d) (fun xs chunk => xs.length = count ∧ F.Repeated xs chunk) := by
  induction count generalizing n with
  | zero =>
    refine (pure []).congr fun xs chunk => ⟨?_, ?_⟩
    · rintro ⟨rfl, rfl⟩
      exact ⟨rfl, .nil⟩
    · rintro ⟨hlength, hrepeated⟩
      cases hrepeated with
      | nil => exact ⟨rfl, rfl⟩
      | cons hx hxs => cases hlength
  | succ count ih =>
    rw [times_succ]
    refine (hd.bind fun x front hx => (ih (hd.mono (Nat.sub_le _ _))).bind fun xs back hxs =>
      pure (x :: xs)).congr fun xs chunk => ⟨?_, ?_⟩
    · rintro ⟨x, front, _, rfl, hx, xs, back, _, rfl, ⟨hlength, hxs⟩, rfl, rfl⟩
      rw [List.append_nil]
      exact ⟨by rw [List.length_cons, hlength], .cons hx hxs⟩
    · rintro ⟨hlength, hrepeated⟩
      cases hrepeated with
      | nil => cases hlength
      | @cons x xs front back hx hxs =>
        exact ⟨x, front, back, rfl, hx, xs, back, [], (List.append_nil back).symm,
          ⟨Nat.succ.inj hlength, hxs⟩, rfl, rfl⟩

/-- A counted list whose members have one stored form each has one itself. -/
theorem times_exactly {d : Decoder α} {P : α → Prop} {encode : α → List UInt8}
    (hd : Reads n d (.exactly P encode)) (count : Nat) :
    Reads n (Decoder.times count d)
      (.exactly (fun xs => xs.length = count ∧ ∀ x ∈ xs, P x) (·.flatMap encode)) := by
  refine (hd.times count).congr fun xs chunk => ?_
  rw [Format.repeated_exactly, Format.exactly]
  exact ⟨fun ⟨hlength, hchunk, hP⟩ => ⟨hchunk, hlength, hP⟩,
    fun ⟨hchunk, hlength, hP⟩ => ⟨hlength, hchunk, hP⟩⟩

/-! ## Reads

A read is the format of its own meaning: any run of its width stands for what it is interpreted as.
For numbers this is turned around, so that the format says how a number is written. -/

theorem read (r : Read) :
    Reads n (Decoder.read r) (fun x chunk => x = r.interpret chunk ∧ chunk.length = r.width) := by
  intro s x c _
  constructor
  · rintro ⟨log, h⟩
    rcases Nat.lt_or_ge s.cursor.remaining r.width with hlt | hge
    · rw [run_read_of_lt hlt] at h
      cases h
    · rw [run_read_of_le hge] at h
      cases h
      have hlength : (s.cursor.rest.take r.width).length = r.width := List.length_take_of_le hge
      exact ⟨_, ⟨rfl, hlength⟩, (List.take_append_drop r.width _).symm, by rw [hlength]⟩
  · rintro ⟨chunk, ⟨rfl, hlength⟩, hpasses⟩
    rw [run_read_of_passes hpasses hlength]
    exact ⟨s.log, rfl⟩

/-- A number is read from just the bytes that it is written in, if the two conversions agree up to
the width of the read. -/
theorem number (r : Read) (toNat : r.Result → Nat) (ofNat : Nat → r.Result)
    (hinterpret : ∀ chunk, r.interpret chunk = ofNat (BigEndian.value chunk))
    (hlt : ∀ x, toNat x < BigEndian.limit r.width) (hofNat : ∀ x, ofNat (toNat x) = x)
    (htoNat : ∀ v < BigEndian.limit r.width, toNat (ofNat v) = v) :
    Reads n (Decoder.read r)
      (.exactly (fun _ => True) fun x => BigEndian.bytes r.width (toNat x)) := by
  refine (read r).congr fun x chunk => ⟨?_, ?_⟩
  · rintro ⟨rfl, hlength⟩
    have hvalue : BigEndian.value chunk < BigEndian.limit r.width :=
      hlength ▸ BigEndian.value_lt chunk
    refine ⟨?_, trivial⟩
    show chunk = BigEndian.bytes r.width (toNat (r.interpret chunk))
    rw [hinterpret, htoNat _ hvalue, ← hlength, BigEndian.bytes_value]
  · rintro ⟨rfl, -⟩
    refine ⟨?_, BigEndian.length_bytes _ _⟩
    rw [hinterpret, BigEndian.value_bytes (hlt x), hofNat]

theorem u8 : Reads n Decoder.u8 (.exactly (fun _ => True) fun b => [b]) := by
  have hbytes (b : UInt8) : BigEndian.bytes 1 b.toNat = [b] := by
    simp [BigEndian.bytes, BigEndian.limit]
  simp only [← hbytes]
  exact number .u8 UInt8.toNat UInt8.ofNat (fun _ => rfl) (fun x => x.toNat_lt)
    (fun x => x.ofNat_toNat) (fun _ h => UInt8.toNat_ofNat_of_lt' h)

theorem u16 : Reads n Decoder.u16 (.exactly (fun _ => True) fun x => BigEndian.bytes 2 x.toNat) :=
  number .u16 UInt16.toNat UInt16.ofNat (fun _ => rfl) (fun x => x.toNat_lt)
    (fun x => x.ofNat_toNat) (fun _ h => UInt16.toNat_ofNat_of_lt' h)

theorem u32 : Reads n Decoder.u32 (.exactly (fun _ => True) fun x => BigEndian.bytes 4 x.toNat) :=
  number .u32 UInt32.toNat UInt32.ofNat (fun _ => rfl) (fun x => x.toNat_lt)
    (fun x => x.ofNat_toNat) (fun _ h => UInt32.toNat_ofNat_of_lt' h)

theorem u64 :
    Reads n (Decoder.read .u64) (.exactly (fun _ => True) fun x => BigEndian.bytes 8 x.toNat) :=
  number .u64 UInt64.toNat UInt64.ofNat (fun _ => rfl) (fun x => x.toNat_lt)
    (fun x => x.ofNat_toNat) (fun _ h => UInt64.toNat_ofNat_of_lt' h)

theorem i32 : Reads n (Decoder.read .i32)
    (.exactly (fun _ => True) fun x => BigEndian.bytes 4 x.toUInt32.toNat) :=
  number .i32 (fun x => x.toUInt32.toNat) (fun v => (UInt32.ofNat v).toInt32) (fun _ => rfl)
    (fun x => x.toUInt32.toNat_lt) (fun x => by rw [UInt32.ofNat_toNat, Int32.toInt32_toUInt32])
    (fun _ h => by rw [UInt32.toUInt32_toInt32, UInt32.toNat_ofNat_of_lt' h])

theorem i64 : Reads n (Decoder.read .i64)
    (.exactly (fun _ => True) fun x => BigEndian.bytes 8 x.toUInt64.toNat) :=
  number .i64 (fun x => x.toUInt64.toNat) (fun v => (UInt64.ofNat v).toInt64) (fun _ => rfl)
    (fun x => x.toUInt64.toNat_lt) (fun x => by rw [UInt64.ofNat_toNat, Int64.toInt64_toUInt64])
    (fun _ h => by rw [UInt64.toUInt64_toInt64, UInt64.toNat_ofNat_of_lt' h])

theorem bytes (count : Nat) : Reads n (Decoder.bytes count)
    (.exactly (fun xs => xs.length = count ∧ True) fun xs => xs) := by
  refine (read (.bytes count)).congr fun xs chunk => ⟨?_, ?_⟩
  · rintro ⟨rfl, hlength⟩
    exact ⟨rfl, hlength, trivial⟩
  · rintro ⟨rfl, hlength, -⟩
    exact ⟨rfl, hlength⟩

theorem u16s (count : UInt16) : Reads n (Decoder.u16s count)
    (.exactly (fun xs => xs.length = count.toNat ∧ True)
      (·.flatMap fun x => BigEndian.bytes 2 x.toNat)) := by
  refine (read (.u16s count)).congr fun xs chunk => ⟨?_, ?_⟩
  · rintro ⟨rfl, hlength⟩
    obtain ⟨hpairs, hcount⟩ := Read.flatMap_pairs hlength
    exact ⟨hpairs.symm, hcount, trivial⟩
  · rintro ⟨rfl, hcount, -⟩
    refine ⟨(Read.pairs_flatMap xs).symm, ?_⟩
    rw [Read.length_flatMap_bytes, hcount]
    rfl

/-! ## Lists behind their length

The number in front of a list is read first, and then a reader that is told this number.  The list
that comes out is one of that length; so the number does not appear in the format as something that
has to be found, and the only trace that is left of it is that the length fits. -/

/-- **A list is read behind its length,** if the reader that is told the length reads lists of just
that length. -/
theorem counted {κ : Type} {d : Decoder κ} {toNat : κ → Nat} {ofNat : Nat → κ} {w : Nat}
    (hd : Reads n d (.exactly (fun _ => True) fun k => BigEndian.bytes w (toNat k)))
    (hlt : ∀ k, toNat k < BigEndian.limit w) (htoNat : ∀ v < BigEndian.limit w, toNat (ofNat v) = v)
    {f : κ → Decoder (List α)} {P : List α → Prop} {encode : List α → List UInt8}
    (hf : ∀ k, Reads n (f k) (.exactly (fun xs => xs.length = toNat k ∧ P xs) encode)) :
    Reads n (d >>= f) (.exactly (fun xs => xs.length < BigEndian.limit w ∧ P xs)
      fun xs => BigEndian.bytes w xs.length ++ encode xs) := by
  refine (hd.bind fun k front _ => (hf k).mono (Nat.sub_le _ _)).congr fun xs chunk => ?_
  rw [Format.exactly_bind]
  constructor
  · rintro ⟨k, _, rfl, -, rfl, hlength, hP⟩
    rw [← hlength]
    exact ⟨rfl, hlength ▸ hlt k, hP⟩
  · rintro ⟨rfl, hsmall, hP⟩
    exact ⟨ofNat xs.length, encode xs, by rw [htoNat _ hsmall], trivial, rfl,
      (htoNat _ hsmall).symm, hP⟩

section Lists

variable {P : List α → Prop} {encode : List α → List UInt8}

theorem counted16 {d : UInt16 → Decoder (List α)}
    (hd : ∀ k : UInt16, Reads n (d k) (.exactly (fun xs => xs.length = k.toNat ∧ P xs) encode)) :
    Reads n (Decoder.u16 >>= d) (.exactly (fun xs => xs.length < BigEndian.limit 2 ∧ P xs)
      fun xs => BigEndian.bytes 2 xs.length ++ encode xs) :=
  @counted α n UInt16 _ UInt16.toNat UInt16.ofNat 2 u16 (fun k => k.toNat_lt)
    (fun _ h => UInt16.toNat_ofNat_of_lt' h) d P encode hd

theorem counted32 {d : UInt32 → Decoder (List α)}
    (hd : ∀ k : UInt32, Reads n (d k) (.exactly (fun xs => xs.length = k.toNat ∧ P xs) encode)) :
    Reads n (Decoder.u32 >>= d) (.exactly (fun xs => xs.length < BigEndian.limit 4 ∧ P xs)
      fun xs => BigEndian.bytes 4 xs.length ++ encode xs) :=
  @counted α n UInt32 _ UInt32.toNat UInt32.ofNat 4 u32 (fun k => k.toNat_lt)
    (fun _ h => UInt32.toNat_ofNat_of_lt' h) d P encode hd

end Lists

/-! ## Records -/

/- A record is read field by field.  On the way down the reader, `known` gathers what the fields
that are already read say about the record; on the way back, the conditions on the fields and their
stored forms are gathered.  A record has one stored form if each of its fields has one. -/

section Records

variable {known Q : β → Prop} {rest : β → List UInt8}

theorem field (get : β → α) {d : Decoder α} {f : α → Decoder β} {P : α → Prop}
    {encode : α → List UInt8} (hd : Reads n d (.exactly P encode))
    (hf : ∀ x, Reads n (f x) (.exactly (fun y => (known y ∧ get y = x) ∧ Q y) rest)) :
    Reads n (d >>= f)
      (.exactly (fun y => known y ∧ P (get y) ∧ Q y) fun y => encode (get y) ++ rest y) := by
  refine (hd.bind fun x _ _ => (hf x).mono (Nat.sub_le _ _)).congr fun y chunk => ?_
  rw [Format.exactly_bind]
  constructor
  · rintro ⟨_, _, rfl, hP, rfl, ⟨hknown, rfl⟩, hQ⟩
    exact ⟨rfl, hknown, hP, hQ⟩
  · rintro ⟨rfl, hknown, hP, hQ⟩
    exact ⟨get y, rest y, rfl, hP, rfl, ⟨hknown, rfl⟩, hQ⟩

/-- A field that is a list, behind its length in two bytes. -/
theorem listField16 (get : β → List α) {d : UInt16 → Decoder (List α)} {f : List α → Decoder β}
    {P : List α → Prop} {encode : List α → List UInt8}
    (hd : ∀ k : UInt16, Reads n (d k) (.exactly (fun xs => xs.length = k.toNat ∧ P xs) encode))
    (hf : ∀ xs, Reads n (f xs) (.exactly (fun y => (known y ∧ get y = xs) ∧ Q y) rest)) :
    Reads n (Decoder.u16 >>= fun k => d k >>= f)
      (.exactly (fun y => known y ∧ ((get y).length < BigEndian.limit 2 ∧ P (get y)) ∧ Q y)
        fun y => (BigEndian.bytes 2 (get y).length ++ encode (get y)) ++ rest y) := by
  rw [← bind_assoc]
  exact field get (counted16 hd) hf

/-- A field that is a list, behind its length in four bytes. -/
theorem listField32 (get : β → List α) {d : UInt32 → Decoder (List α)} {f : List α → Decoder β}
    {P : List α → Prop} {encode : List α → List UInt8}
    (hd : ∀ k : UInt32, Reads n (d k) (.exactly (fun xs => xs.length = k.toNat ∧ P xs) encode))
    (hf : ∀ xs, Reads n (f xs) (.exactly (fun y => (known y ∧ get y = xs) ∧ Q y) rest)) :
    Reads n (Decoder.u32 >>= fun k => d k >>= f)
      (.exactly (fun y => known y ∧ ((get y).length < BigEndian.limit 4 ∧ P (get y)) ∧ Q y)
        fun y => (BigEndian.bytes 4 (get y).length ++ encode (get y)) ++ rest y) := by
  rw [← bind_assoc]
  exact field get (counted32 hd) hf

/-- The end of a record: what is known by then must determine it. -/
theorem fieldsEnd {y : β} (h : ∀ z, known z ↔ z = y) :
    Reads n (Pure.pure y) (.exactly (fun z => known z ∧ True) fun _ => []) := by
  refine (pure y).congr fun z chunk => ?_
  rw [Format.only, Format.exactly, h, and_true, and_comm]

end Records

end Reads
end Decoder
end ClassFormat
