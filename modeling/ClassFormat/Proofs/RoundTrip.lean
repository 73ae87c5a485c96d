import ClassFormat.ClassFile.Encode
import ClassFormat.Proofs.AttributeFormat
import ClassFormat.Proofs.NestingRoom
import ClassFormat.Proofs.PoolFormat

/-!
# Reading and writing agree

Reading a class file and writing it are inverse to each other.  `ofBytes_encode` says that a class
file which can be stored at all comes back from its stored form, whatever follows it in the buffer.
`accepted_is_stored` is the other direction: whatever is accepted is well formed, and the bytes that
were read are a stored form of it, so nothing malformed is accepted and nothing of the buffer is
lost in front of the place where reading stops.

A class file has one stored form but for the two freedoms of its pool, the spelling of texts and the
count of a pool without slots.  Both directions come from one equivalence, `accepts_iff`: a class
file is read from just those buffers that start with a stored form of it.

## What is here

* `Member.reads_decode` and `reads_decodeBody` — what lies behind the pool has one stored form.
* `IsStoredAs` — the stored forms of a class file: the header, any stored form of the pool, the
  body.
* `accepts_iff` — the equivalence.  It follows from the format of the reader in a room that is large
  enough, and from `run_eq_decodeWithin` for the room that the reader finds.
* `ofBytes_encode` — the direction that starts from a class file.
* `accepted_is_stored` — the direction that starts from a buffer.  The bytes in front of the place
  where reading stops are a stored form of what is read; if its pool has slots and its texts are
  plain, then they are what the writer makes, in every buffer that is read as this class file.

`wideClass` and `nestedBuffer` are a class file and a buffer with as much in them as the format has
to offer: wide constants, attributes of several kinds, and a method body inside another.
-/

set_option autoImplicit false

namespace ClassFormat

open Decoder

variable {n : Nat}

/-! ## Members -/

theorem Member.reads_decode (pool : ConstantPool) (room : Nat) :
    Reads room (Member.decode pool room)
      (.exactly (fun m => Attribute.Storable pool m.attributes) Member.encode) := by
  refine Reads.congr (F := .exactly (fun _ => True ∧ _) _) (.field Member.accessFlags .u16 fun _ =>
    .field Member.name .u16 fun _ => .field Member.descriptor .u16 fun _ =>
      .listField16 Member.attributes (Attribute.reads_decodeList pool room) fun _ =>
        .fieldsEnd fun m => ?_) fun m run => ?_
  · cases m
    simp [and_assoc]
  · simp [Format.exactly, Member.encode, Attribute.encodeList, Attribute.Storable]

theorem Member.reads_decodeCounted (pool : ConstantPool) (room : Nat)
    (message : UInt16 → LogRecord) :
    Reads room (Member.decodeCounted pool room message)
      (.exactly (Member.Storable pool) Member.encodeList) :=
  .counted16 fun count => .record_bind ((Member.reads_decode pool room).times_exactly count.toNat)

namespace ClassFile

variable {c : ClassFile} {run : List UInt8}

theorem reads_decodeMagic : Reads n decodeMagic
    (.exactly (fun _ => True) fun _ => BigEndian.bytes 4 magicNumber.toNat) := by
  refine (Reads.u32.bind fun found _ _ => .ite_throw (.pure ()) _).congr fun _ run => ?_
  simp [Format.exactly_bind, Format.exactly, Format.only]

/-- Whether what lies behind the pool can be stored. -/
def BodyFits (c : ClassFile) : Prop :=
  c.interfaces.length < BigEndian.limit 2 ∧ Member.Storable c.pool c.fields ∧
    Member.Storable c.pool c.methods ∧ Attribute.Storable c.pool c.attributes

theorem reads_decodeBody (minorVersion majorVersion : UInt16) (pool : ConstantPool) (room : Nat) :
    Reads room (decodeBody minorVersion majorVersion pool room) (.exactly
      (fun c => (c.minorVersion = minorVersion ∧ c.majorVersion = majorVersion ∧ c.pool = pool) ∧
        c.BodyFits) encodeBody) := by
  have hmembers := Member.reads_decodeCounted pool room
  refine Reads.congr (F := .exactly (fun c => (c.minorVersion = minorVersion ∧
      c.majorVersion = majorVersion ∧ c.pool = pool) ∧ _) _)
    (.field ClassFile.accessFlags .u16 fun _ => .field ClassFile.thisClass .u16 fun _ =>
      .field ClassFile.superClass .u16 fun _ => .listField16 ClassFile.interfaces .u16s fun _ =>
        .field ClassFile.fields (hmembers _) fun _ => .field ClassFile.methods (hmembers _) fun _ =>
          .listField16 ClassFile.attributes (Attribute.reads_decodeList pool room) fun _ =>
            .fieldsEnd fun c => ?_) fun c run => ?_
  · cases c
    simp [and_assoc]
  · simp only [Format.exactly, BodyFits, encodeBody, Attribute.encodeList, Attribute.Storable,
      List.append_assoc, List.append_nil, true_and, and_true]
    refine and_congr_right fun _ => and_congr_right fun h => ?_
    rw [h.2.2]

/-! ## Class files -/

/-- Which runs stand for a class file: those that the writer makes, but for the pool, which may be
stored in any of its forms. -/
def IsStoredAs (c : ClassFile) (run : List UInt8) : Prop :=
  ∃ stored, c.pool.IsStoredAs stored ∧ run = c.encodeHeader ++ stored ++ c.encodeBody

theorem isStoredAs_encode (h : c.pool.ConstantsStorable) : c.IsStoredAs c.encode :=
  ⟨c.pool.encode, ConstantPool.isStoredAs_encode h, rfl⟩

theorem IsStoredAs.eq_encode (h : c.IsStoredAs run) (hsize : 0 < c.pool.size)
    (hplain : c.pool.IsPlain) : run = c.encode := by
  obtain ⟨stored, hstored, rfl⟩ := h
  rw [hstored.eq_encode hsize hplain, encode]

theorem reads_decodeWithin (room : Nat) :
    Reads room (decodeWithin room) fun c run => c.IsWellFormed ∧ c.IsStoredAs run := by
  have hbody (minorVersion majorVersion : UInt16) (pool : ConstantPool) :=
    reads_decodeBody minorVersion majorVersion pool room
  refine (reads_decodeMagic.bind fun _ _ _ => Reads.u16.bind fun minorVersion _ _ =>
    Reads.u16.bind fun majorVersion _ _ => .record_bind
      (ConstantPool.reads_decode.bind fun pool _ _ => (hbody _ _ pool).mono (by omega))).congr
        fun c run => ?_
  simp only [Format.exactly_bind, IsStoredAs, encodeHeader, List.append_assoc]
  constructor
  · rintro ⟨-, _, rfl, -, minorVersion, _, rfl, -, majorVersion, _, rfl, -, pool, stored, _, rfl,
      ⟨hpool, hstored⟩, rfl, ⟨rfl, rfl, rfl⟩, hinterfaces, hfields, hmethods, hattributes⟩
    exact ⟨⟨hpool, hinterfaces, hfields, hmethods, hattributes⟩, stored, hstored, rfl⟩
  · rintro ⟨⟨hpool, hinterfaces, hfields, hmethods, hattributes⟩, stored, hstored, rfl⟩
    exact ⟨(), _, rfl, trivial, c.minorVersion, _, rfl, trivial, c.majorVersion, _, rfl, trivial,
      c.pool, stored, _, rfl, ⟨hpool, hstored⟩, rfl, ⟨rfl, rfl, rfl⟩, hinterfaces, hfields,
      hmethods, hattributes⟩

/-- **A class file is read from just those buffers that start with a stored form of it,** and
reading stops where that form ends. -/
theorem accepts_iff {buffer : List UInt8} {position : Nat} :
    ofBytes buffer = .ok c ∧ stop buffer = position ↔
      c.IsWellFormed ∧ ∃ run rest, buffer = run ++ rest ∧ run.length = position ∧
        c.IsStoredAs run := by
  have hroom := Nat.lt_succ_self buffer.length
  obtain ⟨houtcome, hcursor⟩ := run_eq_decodeWithin hroom
  have hreads (cursor : Cursor) :=
    reads_decodeWithin (buffer.length + 1) (.start buffer) c cursor hroom
  constructor
  · rintro ⟨hc, rfl⟩
    rcases hrun : (decodeWithin (buffer.length + 1)).run (.start buffer) with ⟨r, cursor, log⟩
    rw [hrun] at houtcome hcursor
    have hr : r = .ok c := houtcome.symm.trans hc
    subst hr
    obtain ⟨run, ⟨hwell, hstored⟩, hrest, hposition⟩ := (hreads cursor).1 ⟨log, hrun⟩
    have hstop : stop buffer = 0 + run.length := by rw [stop, hcursor, hposition]; rfl
    exact ⟨hwell, run, cursor.rest, hrest, by rw [hstop, Nat.zero_add], hstored⟩
  · rintro ⟨hwell, run, rest, rfl, rfl, hstored⟩
    obtain ⟨log, hrun⟩ := (hreads ⟨run.length, rest⟩).2
      ⟨run, ⟨hwell, hstored⟩, rfl, (Nat.zero_add _).symm⟩
    rw [hrun] at houtcome hcursor
    exact ⟨houtcome, congrArg Cursor.position hcursor⟩

/-- **Reading undoes writing,** whatever follows in the buffer. -/
theorem ofBytes_encode (h : c.Storable) (rest : List UInt8) :
    ofBytes (c.encode ++ rest) = .ok c ∧ stop (c.encode ++ rest) = c.encode.length :=
  accepts_iff.2 ⟨h.toIsWellFormed, c.encode, rest, rfl, rfl, isStoredAs_encode h.constants⟩

/-- A class file with wide constants, the last of them in the last slot, and with a text and
attributes of several kinds. -/
def wideClass : ClassFile where
  minorVersion := 0
  majorVersion := 0x34
  pool := ⟨#[some (.utf8 "Code"), some (.long 7), none, some (.utf8 "\x00"), some (.double 0)]⟩
  accessFlags := 0x21
  thisClass := 0
  superClass := 0
  interfaces := [4]
  fields := [⟨0x19, 4, 4, [.other 4 [1, 2, 3]]⟩]
  methods := [⟨9, 1, 4, [.code 1 ⟨2, 1, [0xB1], [⟨0, 1, 1, 0⟩]⟩ [.other 4 []]]⟩]
  attributes := []

theorem storable_wideClass : wideClass.Storable where
  pool := ⟨by decide, .narrow rfl (.wide rfl (.narrow rfl (.wideLast rfl)))⟩
  interfaces := by decide
  fields := by
    have hother : Attribute.Fits wideClass.pool (.other 4 [1, 2, 3]) :=
      ⟨⟨"\x00", rfl, rfl⟩, by decide, trivial⟩
    refine ⟨by decide, List.forall_mem_singleton.2 ⟨by decide, hother, trivial⟩⟩
  methods := by
    have hother : Attribute.Fits wideClass.pool (.other 4 []) :=
      ⟨⟨"\x00", rfl, rfl⟩, by decide, trivial⟩
    have hcode : Attribute.Fits wideClass.pool
        (.code 1 ⟨2, 1, [0xB1], [⟨0, 1, 1, 0⟩]⟩ [.other 4 []]) :=
      ⟨⟨"Code", rfl, rfl⟩, by decide, by decide, by decide⟩
    exact ⟨by decide, List.forall_mem_singleton.2 ⟨by decide, ⟨hcode, hother, trivial⟩, trivial⟩⟩
  attributes := ⟨by decide, trivial⟩
  constants := by
    intro k hk
    have hk' : k = .utf8 "Code" ∨ k = .long 7 ∨ k = .utf8 "\x00" ∨ k = .double 0 := by
      simpa [wideClass] using hk
    rcases hk' with rfl | rfl | rfl | rfl
    · show (ModifiedUtf8.modified "Code").length < BigEndian.limit 2
      decide +kernel
    · trivial
    · show (ModifiedUtf8.modified "\x00").length < BigEndian.limit 2
      decide +kernel
    · trivial

theorem ofBytes_encode_wideClass :
    wideClass.Storable ∧ ofBytes (wideClass.encode ++ [0xFF]) = .ok wideClass ∧
      stop (wideClass.encode ++ [0xFF]) = wideClass.encode.length :=
  ⟨storable_wideClass, ofBytes_encode storable_wideClass [0xFF]⟩

/-- **Nothing malformed is accepted, and nothing is lost.**  What is read is well formed, and what
was read is a stored form of it.  If the pool has slots and its texts have one spelling each, then
this is the form that the writer makes, the same for every buffer from which the class file is
read. -/
theorem accepted_is_stored {buffer : List UInt8} (h : ofBytes buffer = .ok c) :
    c.IsWellFormed ∧ c.IsStoredAs (buffer.take (stop buffer)) ∧
    (0 < c.pool.size → c.pool.IsPlain → buffer.take (stop buffer) = c.encode ∧
      ∀ other : List UInt8, ofBytes other = .ok c →
        other.take (stop other) = buffer.take (stop buffer)) := by
  have hstored {buffer : List UInt8} (h : ofBytes buffer = .ok c) :
      c.IsWellFormed ∧ c.IsStoredAs (buffer.take (stop buffer)) := by
    obtain ⟨hwell, run, rest, hbuffer, hlength, hrun⟩ := accepts_iff.1 ⟨h, rfl⟩
    have htake : buffer.take (stop buffer) = run := by rw [← hlength, hbuffer, List.take_left]
    exact ⟨hwell, htake ▸ hrun⟩
  obtain ⟨hwell, hbuffer⟩ := hstored h
  refine ⟨hwell, hbuffer, fun hsize hplain => ?_⟩
  have hencode := hbuffer.eq_encode hsize hplain
  refine ⟨hencode, fun other hother => ?_⟩
  rw [(hstored hother).2.eq_encode hsize hplain, hencode]

/-- A class file with a method body inside a method body, and a byte behind it. -/
def nestedBuffer : List UInt8 :=
  [0xCA, 0xFE, 0xBA, 0xBE, 0, 0, 0, 0x34, 0, 2, 1, 0, 4, 0x43, 0x6F, 0x64, 0x65,
    0, 0x21, 0, 0, 0, 0, 0, 0, 0, 0, 0, 0, 0, 1,
    0, 1, 0, 0, 0, 31, 0, 2, 0, 1, 0, 0, 0, 1, 0xB1, 0, 0, 0, 1,
    0, 1, 0, 0, 0, 12, 0, 0, 0, 0, 0, 0, 0, 0, 0, 0, 0, 0, 0xFF]

/-- The class file in that buffer. -/
def nestedClass : ClassFile where
  minorVersion := 0
  majorVersion := 0x34
  pool := ⟨#[some (.utf8 "Code")]⟩
  accessFlags := 0x21
  thisClass := 0
  superClass := 0
  interfaces := []
  fields := []
  methods := []
  attributes := [.code 1 ⟨2, 1, [0xB1], []⟩ [.code 1 ⟨0, 0, [], []⟩ []]]

theorem storable_nestedClass : nestedClass.Storable where
  pool := ⟨by decide, .narrow rfl .nil⟩
  interfaces := by decide
  fields := ⟨by decide, List.forall_mem_nil _⟩
  methods := ⟨by decide, List.forall_mem_nil _⟩
  attributes := by
    have houter : Attribute.Fits nestedClass.pool
        (.code 1 ⟨2, 1, [0xB1], []⟩ [.code 1 ⟨0, 0, [], []⟩ []]) :=
      ⟨⟨"Code", rfl, rfl⟩, by decide, by decide, by decide⟩
    have hinner : Attribute.Fits nestedClass.pool (.code 1 ⟨0, 0, [], []⟩ []) :=
      ⟨⟨"Code", rfl, rfl⟩, by decide, by decide, by decide⟩
    exact ⟨by decide, ⟨houter, ⟨hinner, trivial⟩, trivial⟩, trivial⟩
  constants := by
    intro k hk
    obtain rfl : k = .utf8 "Code" := by simpa [nestedClass] using hk
    show (ModifiedUtf8.modified "Code").length < BigEndian.limit 2
    decide +kernel

theorem accepted_is_stored_nestedBuffer :
    ofBytes nestedBuffer = .ok nestedClass ∧ nestedClass.IsWellFormed ∧
    nestedClass.IsStoredAs (nestedBuffer.take (stop nestedBuffer)) ∧
    0 < nestedClass.pool.size ∧ nestedClass.pool.IsPlain ∧
    nestedBuffer.take (stop nestedBuffer) = nestedClass.encode ∧
    ∀ other : List UInt8, ofBytes other = .ok nestedClass →
      other.take (stop other) = nestedBuffer.take (stop nestedBuffer) := by
  have h : ofBytes nestedBuffer = .ok nestedClass := (accepts_iff.2
    ⟨storable_nestedClass.toIsWellFormed, nestedClass.encode, [0xFF], by decide +kernel, rfl,
      isStoredAs_encode storable_nestedClass.constants⟩).1
  have hplain : nestedClass.pool.IsPlain := by
    intro k hk
    obtain rfl : k = .utf8 "Code" := by simpa [nestedClass] using hk
    intro ch hch
    obtain rfl | rfl | rfl | rfl : ch = 'C' ∨ ch = 'o' ∨ ch = 'd' ∨ ch = 'e' := by simpa using hch
    all_goals decide
  obtain ⟨hwell, hstored, hunique⟩ := accepted_is_stored h
  exact ⟨h, hwell, hstored, by decide, hplain, hunique (by decide) hplain⟩

end ClassFile
end ClassFormat
