import ClassFormat.Proofs.KindAndName

/-!
# The declared length of an attribute

In front of the payload of an attribute stands its length.  If the name of the attribute is unknown,
the length says how many bytes to take.  If it is known, the payload is read in the layout of its
kind, without regard to the length and without an end, and only then is the length compared with
what has been read.

So a payload of a known kind may well run past its declared end, and past that of the method body
that it is in, before anything is compared.  `length_decides` says what comes of it.  A length that
is wrong is always found out, and nothing but the length: an error inside the payload comes first.
In what is accepted, the attributes of a list stand side by side, and those inside a method body
fill the end of its payload, at every depth.

## What is here

* `decodeOne` and `decodeKnown` — the reader of one attribute, and that of a payload of a known
  kind.  The latter is written down without a length, which is how it is seen that it does not use
  one.
* `header` and `decodeFramed` — the bytes in front of a payload, and what is done behind them.
  Other modules start from here when an attribute is known up to its payload.
* `StandsBetween` and `StandSideBySide` — where attributes lie in a buffer.  They are mutually
  inductive, as attributes are nested; places are cursors, so nothing can be left out in between.
* `standSideBySide_of_passes` — stored forms of attributes stand side by side.  Since the reader
  accepts nothing but stored forms, this is where the geometry comes from.
* `TakesDeclared` and `ComparesDeclared` — the two uses of a length.
-/

set_option autoImplicit false

namespace ClassFormat
namespace Attribute

open Decoder

/-! ## One attribute

The three lemmas are about a header that has been read, and say what becomes of the attribute by
what becomes of its payload.  Everything else in this module that runs a reader goes through
them. -/

/-- Reads one attribute. -/
def decodeOne (pool : ConstantPool) : Decoder Attribute := decodeWith (decode pool) pool

/-- Reads what an attribute of a known kind holds.  No length is needed for that. -/
def decodeKnown (pool : ConstantPool) (name : UInt16) (kind : Kind) : Decoder Attribute :=
  decodePayload (decode pool) name 0 kind

theorem decodePayload_eq_decodeKnown {kind : Kind} (h : kind ≠ .other) (pool : ConstantPool)
    (name : UInt16) (declared : UInt32) :
    decodePayload (decode pool) name declared kind = decodeKnown pool name kind := by
  cases kind <;> first | rfl | exact absurd rfl h

/-- The bytes in front of a payload. -/
def header (name : UInt16) (declared : UInt32) : List UInt8 :=
  BigEndian.bytes 2 name.toNat ++ BigEndian.bytes 4 declared.toNat

/-- What is left to do behind a header: the payload is read, and its length is compared with the
declared one. -/
def decodeFramed (inner : UInt16 → Decoder (List Attribute)) (name : UInt16) (declared : UInt32)
    (text : String) : Decoder Attribute := do
  let (a, consumed) ← measured (decodePayload inner name declared (Kind.ofName text))
  if consumed = declared.toNat then
    record (.attributeEnd text declared)
    pure a
  else
    throw (.lengthMismatch text declared consumed)

section Header

variable {inner : UInt16 → Decoder (List Attribute)} {pool : ConstantPool} {start : Cursor}
  {s s' : Progress} {name : UInt16} {declared : UInt32} {text : String}

theorem run_decodeWith_of_header (hheader : start.Passes (header name declared) s.cursor)
    (htext : pool.utf8 name = .ok text) :
    (decodeWith inner pool).run ⟨start, s.log⟩ = (decodeFramed inner name declared text).run s := by
  obtain ⟨m, hname, hdeclared⟩ := hheader.split
  rw [decodeWith, run_bind_of_ok (run_u16_of_passes hname),
    run_bind_of_ok (run_u32_of_passes hdeclared), htext]
  exact run_bind_of_ok (run_pure text s)

theorem run_decodeWith_of_error (hheader : start.Passes (header name declared) s.cursor)
    (htext : pool.utf8 name = .ok text) {e : FormatError}
    (h : (decodePayload inner name declared (Kind.ofName text)).run s = (.error e, s')) :
    (decodeWith inner pool).run ⟨start, s.log⟩ = (.error e, s') := by
  rw [run_decodeWith_of_header hheader htext, decodeFramed,
    run_bind_of_error (run_measured_of_error h)]

theorem run_decodeWith_of_ok (hheader : start.Passes (header name declared) s.cursor)
    (htext : pool.utf8 name = .ok text) {a : Attribute} {consumed : Nat}
    (h : (decodePayload inner name declared (Kind.ofName text)).run s = (.ok a, s'))
    (hconsumed : s'.cursor.position = s.cursor.position + consumed) :
    (decodeWith inner pool).run ⟨start, s.log⟩ =
      if consumed = declared.toNat then
        (.ok a, { s' with log := s'.log.push (.attributeEnd text declared) })
      else (.error (.lengthMismatch text declared consumed), s') := by
  have hdiff : s'.cursor.position - s.cursor.position = consumed := by omega
  rw [run_decodeWith_of_header hheader htext, decodeFramed, run_bind_of_ok (run_measured_of_ok h),
    hdiff]
  show run (if consumed = declared.toNat then _ else _) s' = _
  split <;> rfl

end Header

/-! ## Attributes side by side -/

mutual

/-- Whether an attribute stands between two places in a buffer.  Its payload is as long as is
declared, and the attributes inside it, if there are any, stand side by side up to the very end of
the payload. -/
inductive StandsBetween : Attribute → Cursor → Cursor → Prop
  | framed {a : Attribute} {start payload front stop : Cursor} {declared : UInt32}
      {run own : List UInt8} (hheader : start.Passes (header a.name declared) payload)
      (hpayload : payload.Passes run stop) (hlength : run.length = declared.toNat)
      (hown : payload.Passes own front) (hinside : StandSideBySide a.inside front stop) :
      StandsBetween a start stop

/-- Whether some attributes stand side by side between two places, without a gap and without an
overlap: each starts where the one in front of it stops. -/
inductive StandSideBySide : List Attribute → Cursor → Cursor → Prop
  | nil (place : Cursor) : StandSideBySide [] place place
  | cons {a : Attribute} {attributes : List Attribute} {start m stop : Cursor}
      (ha : StandsBetween a start m) (hattributes : StandSideBySide attributes m stop) :
      StandSideBySide (a :: attributes) start stop

end

/-- The attributes inside an attribute are stored at the end of its payload. -/
theorem exists_payload_eq_append (a : Attribute) :
    ∃ own, a.payload = own ++ encodeAll a.inside := by
  cases a with
  | code name body attributes => exact ⟨_, rfl⟩
  | _ => exact ⟨_, (List.append_nil _).symm⟩

theorem standsBetween_of_inside {a : Attribute} {start stop : Cursor}
    (hsmall : a.payload.length < BigEndian.limit 4) (h : start.Passes a.encode stop)
    (hinside : ∀ front : Cursor, front.Passes (encodeAll a.inside) stop →
      StandSideBySide a.inside front stop) : StandsBetween a start stop := by
  have hlength : (UInt32.ofNat a.payload.length).toNat = a.payload.length :=
    UInt32.toNat_ofNat_of_lt' hsmall
  have hencode : a.encode = header a.name (.ofNat a.payload.length) ++ a.payload := by
    rw [encode, stored, header, hlength]
  rw [hencode] at h
  obtain ⟨payload, hheader, hpayload⟩ := h.split
  obtain ⟨own, hown⟩ := exists_payload_eq_append a
  obtain ⟨front, hfront, hrest⟩ := (hown ▸ hpayload).split
  exact .framed hheader hpayload hlength.symm hfront (hinside front hrest)

theorem standSideBySide_nil {start stop : Cursor} (h : start.Passes [] stop) :
    StandSideBySide [] start stop := by
  obtain rfl := h.unique (.refl start)
  exact .nil stop

mutual

theorem standsBetween_of_passes {pool : ConstantPool} {start stop : Cursor} : (a : Attribute) →
    Everywhere (Fits pool) a → start.Passes a.encode stop → StandsBetween a start stop
  | code _ _ attributes, hfits, h => standsBetween_of_inside hfits.self.2.1 h fun _ =>
      standSideBySide_of_passes attributes hfits.2
  | deprecated _, hfits, h | synthetic _, hfits, h | sourceFile _ _, hfits, h
  | constantValue _ _, hfits, h | signature _ _, hfits, h | other _ _, hfits, h =>
    standsBetween_of_inside hfits.self.2.1 h fun _ => standSideBySide_nil

/-- **Attributes stand where their stored forms are,** at every depth. -/
theorem standSideBySide_of_passes {pool : ConstantPool} {start stop : Cursor} :
    (attributes : List Attribute) → EverywhereIn (Fits pool) attributes →
      start.Passes (encodeAll attributes) stop → StandSideBySide attributes start stop
  | [], _, h => standSideBySide_nil h
  | a :: attributes, hfits, h => by
    obtain ⟨m, ha, hattributes⟩ := h.split
    exact .cons (standsBetween_of_passes a hfits.1 ha)
      (standSideBySide_of_passes attributes hfits.2 hattributes)

end

/-! ## What the declared length decides -/

section Outcome

variable {pool : ConstantPool} {start : Cursor} {s : Progress} {name : UInt16} {declared : UInt32}
  {text : String} {kind : Kind}

/-- Whether an attribute whose header ends at `s` is read by taking as many bytes as it declares. -/
structure TakesDeclared (pool : ConstantPool) (start : Cursor) (s : Progress) (name : UInt16)
    (declared : UInt32) (text : String) : Prop where
  /-- They are the payload, if there are so many. -/
  enough : declared.toNat ≤ s.cursor.remaining → (decodeOne pool).run ⟨start, s.log⟩ =
    (.ok (other name (s.cursor.rest.take declared.toNat)),
      ⟨⟨s.cursor.position + declared.toNat, s.cursor.rest.drop declared.toNat⟩,
        s.log.push (.attributeEnd text declared)⟩)
  /-- Otherwise the attribute is truncated where its payload starts. -/
  short : s.cursor.remaining < declared.toNat → (decodeOne pool).run ⟨start, s.log⟩ =
    (.error (.truncated ⟨s.cursor.position, declared.toNat, s.cursor.remaining⟩), s)

/-- Whether an attribute whose header ends at `s` is read by a reader of its payload, and then by
comparing what was read with the declared length. -/
structure ComparesDeclared (pool : ConstantPool) (start : Cursor) (s : Progress)
    (declared : UInt32) (text : String) (reader : Decoder Attribute) : Prop where
  /-- An error of that reader is the error of the attribute. -/
  failed : ∀ e s', reader.run s = (.error e, s') →
    (decodeOne pool).run ⟨start, s.log⟩ = (.error e, s')
  /-- If the reader comes to an end, then the attribute is read if just as many bytes were read as
  are declared, and otherwise its length is wrong. -/
  completed : ∀ a s', reader.run s = (.ok a, s') →
    ∃ consumed, s'.cursor.position = s.cursor.position + consumed ∧
      (consumed = declared.toNat → (decodeOne pool).run ⟨start, s.log⟩ =
        (.ok a, { s' with log := s'.log.push (.attributeEnd text declared) })) ∧
      (consumed ≠ declared.toNat → (decodeOne pool).run ⟨start, s.log⟩ =
        (.error (.lengthMismatch text declared consumed), s'))

theorem takesDeclared_of_ofName (hheader : start.Passes (header name declared) s.cursor)
    (htext : pool.utf8 name = .ok text) (hkind : Kind.ofName text = .other) :
    TakesDeclared pool start s name declared text where
  enough hle := by
    have hbytes := run_read_of_le (r := .bytes declared.toNat) hle
    have hpayload : (decodePayload (decode pool) name declared (Kind.ofName text)).run s =
        (.ok (other name (s.cursor.rest.take declared.toNat)),
          { s with cursor :=
            ⟨s.cursor.position + declared.toNat, s.cursor.rest.drop declared.toNat⟩ }) := by
      rw [hkind]
      exact run_bind_of_ok hbytes
    rw [decodeOne, run_decodeWith_of_ok hheader htext hpayload rfl, if_pos rfl]
  short hlt := by
    have hbytes := run_read_of_lt (r := .bytes declared.toNat) hlt
    have hpayload : (decodePayload (decode pool) name declared (Kind.ofName text)).run s =
        (.error (.truncated ⟨s.cursor.position, declared.toNat, s.cursor.remaining⟩), s) := by
      rw [hkind]
      exact run_bind_of_error hbytes
    exact run_decodeWith_of_error hheader htext hpayload

theorem position_le_of_decodeKnown {a : Attribute} {s' : Progress}
    (h : (decodeKnown pool name kind).run s = (.ok a, s')) :
    s.cursor.position ≤ s'.cursor.position := by
  -- in front of so many bytes the reader is a sequential one
  have hseq (count : UInt16) := sequential_decodeList pool (s.cursor.remaining + 1) count
  have hrun := agreeBelow_decodePayload (agreeBelow_decode pool (s.cursor.remaining + 1)) hseq
    name 0 kind s (Nat.lt_succ_self _)
  have hreaches := (sequential_decodePayload hseq name 0 kind).reaches s
  rw [← hrun] at hreaches
  rw [decodeKnown] at h
  rw [h] at hreaches
  exact hreaches.position_le

theorem comparesDeclared_of_ofName (hheader : start.Passes (header name declared) s.cursor)
    (htext : pool.utf8 name = .ok text) (hkind : Kind.ofName text = kind) (hknown : kind ≠ .other) :
    ComparesDeclared pool start s declared text (decodeKnown pool name kind) where
  failed e s' h := by
    rw [← decodePayload_eq_decodeKnown hknown pool name declared, ← hkind] at h
    exact run_decodeWith_of_error hheader htext h
  completed a s' h := by
    have hle := position_le_of_decodeKnown h
    have hconsumed : s'.cursor.position = s.cursor.position +
        (s'.cursor.position - s.cursor.position) := by omega
    rw [← decodePayload_eq_decodeKnown hknown pool name declared, ← hkind] at h
    have hrun := run_decodeWith_of_ok hheader htext h hconsumed
    refine ⟨_, hconsumed, fun heq => ?_, fun hne => ?_⟩
    · rw [decodeOne, hrun, if_pos heq]
    · rw [decodeOne, hrun, if_neg hne]

end Outcome

/-- **A declared length is exact.**  Attributes are read one by one.  Behind the header of one with
an unknown name, just as many bytes are taken as are declared.  Behind that of one with a known name
the payload is read by a reader that is not told the length, and then the length is compared.  So
attributes that are accepted stand side by side, and those inside a method body fill the end of its
payload. -/
theorem length_decides (pool : ConstantPool) :
    (∀ count, decode pool count = times count.toNat (decodeOne pool)) ∧
    (∀ (start : Cursor) (s : Progress) (name : UInt16) (declared : UInt32) (text : String),
      start.Passes (header name declared) s.cursor → pool.utf8 name = .ok text →
        ((∀ kind : Kind, kind.word? ≠ some text) →
          TakesDeclared pool start s name declared text) ∧
        ∀ kind : Kind, kind.word? = some text →
          ComparesDeclared pool start s declared text (decodeKnown pool name kind)) ∧
    ∀ (count : UInt16) (s s' : Progress) (attributes : List Attribute),
      (decode pool count).run s = (.ok attributes, s') →
        StandSideBySide attributes s.cursor s'.cursor := by
  refine ⟨decode_eq_times pool, fun start s name declared text hheader htext => ⟨?_, ?_⟩, ?_⟩
  · intro hunknown
    exact takesDeclared_of_ofName hheader htext (Kind.ofName_eq_other_iff.2 hunknown)
  · intro kind hword
    have hknown : kind ≠ .other := fun hother => by rw [hother] at hword; cases hword
    exact comparesDeclared_of_ofName hheader htext (Kind.ofName_word hword) hknown
  · intro count s s' attributes h
    have hread := reads_decode pool count s attributes s'.cursor (Nat.lt_succ_self _)
    obtain ⟨_, ⟨rfl, -, hfits⟩, hpasses⟩ := hread.1 ⟨s'.log, h⟩
    exact standSideBySide_of_passes attributes hfits hpasses

/-- A mark of deprecation that declares more bytes than there are in the buffer. -/
def overlongMark : List UInt8 := [0, 2, 0, 0, 0, 5]

/-- Its length is wrong, and the buffer is not said to be truncated. -/
theorem length_decides_overlongMark :
    (decodeOne twoNames).run (.start overlongMark) =
      (.error (.lengthMismatch "Deprecated" 5 0), ⟨⟨6, []⟩, #[]⟩) := by
  have hheader : (Cursor.ofBytes overlongMark).Passes (header 2 5) ⟨6, []⟩ := ⟨by decide, by decide⟩
  obtain ⟨consumed, hconsumed, -, hwrong⟩ := ((length_decides twoNames).2.1 _ ⟨⟨6, []⟩, #[]⟩ 2 5
    "Deprecated" hheader rfl).2 .deprecated rfl |>.completed (.deprecated 2) _ rfl
  obtain rfl : consumed = 0 := Nat.add_left_cancel hconsumed.symm
  exact hwrong (by decide)

end Attribute
end ClassFormat
