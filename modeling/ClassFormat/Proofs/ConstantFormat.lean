import ClassFormat.Constant.Decode
import ClassFormat.Constant.Encode
import ClassFormat.Proofs.Format
import ClassFormat.Proofs.Spelling

/-!
# The format of a constant

A constant is stored as the writer stores it, up to one freedom: a text may be spelled in the
standard or in the modified way, and the length in front of it is that of the spelling.
`IsStoredAs` is the format with this freedom, and `reads_decode` says that just this is read,
whatever index the constant is to have.  A constant whose text is spelled in the same way by both
spellings has one stored form.

* `ContentStoredAs` — the format of what a constant holds.  For all but texts it is what the writer
  makes; for a text it has one case for each spelling.
* `isStoredAs_encode` — what the writer makes is a stored form, and `IsStoredAs.eq_encode` says that
  it is the only one if the constant `IsPlain`.
* `reads_spelled` — the reader of texts as a format.  This is where `ModifiedUtf8.decode` comes in,
  and it comes in only through `decode_eq_some_iff`.
* `reads_decodeContent` — one line for each kind, by the lemmas on numbers in
  `ClassFormat.Proofs.Format`.
-/

set_option autoImplicit false

namespace ClassFormat

open Decoder

namespace Constant

variable {n : Nat} {c : Constant} {run : List UInt8}

/-- Which runs stand for what a constant holds: those that the writer makes, and for a text also its
standard spelling. -/
def ContentStoredAs : Constant → List UInt8 → Prop
  | utf8 text, run => ∃ spelling : List UInt8,
      (spelling = ModifiedUtf8.standard text ∨ spelling = ModifiedUtf8.modified text) ∧
      spelling.length < BigEndian.limit 2 ∧ run = BigEndian.bytes 2 spelling.length ++ spelling
  | c, run => run = c.encodeContent

/-- Which runs stand for a constant: its tag, and then what it holds. -/
def IsStoredAs (c : Constant) (run : List UInt8) : Prop :=
  ∃ content, c.ContentStoredAs content ∧ run = c.kind.tag :: content

theorem isStoredAs_encode (h : c.Storable) : c.IsStoredAs c.encode := by
  refine ⟨c.encodeContent, ?_, rfl⟩
  cases c with
  | utf8 text => exact ⟨_, .inr rfl, h, rfl⟩
  | _ => rfl

/-- Whether all characters of a text are spelled in the same way by both spellings. -/
def IsPlain : Constant → Prop
  | utf8 text => ∀ ch ∈ text.toList, ModifiedUtf8.IsPlain ch
  | _ => True

/-- A plain constant has one stored form. -/
theorem IsStoredAs.eq_encode (h : c.IsStoredAs run) (hc : c.IsPlain) : run = c.encode := by
  obtain ⟨content, hcontent, rfl⟩ := h
  rw [encode]
  congr 1
  cases c with
  | utf8 text =>
    obtain ⟨spelling, hspelling, -, rfl⟩ := hcontent
    rw [ModifiedUtf8.standard_eq_modified hc, or_self] at hspelling
    rw [hspelling, encodeContent]
  | _ => exact hcontent

/-- A run that has a spelling stands for its text, and any other run for nothing. -/
theorem reads_spelled (index : UInt16) (spelling : List UInt8) :
    Reads n
      (match ModifiedUtf8.decode spelling with
      | some text => pure (utf8 text)
      | none => throw (.invalidText index))
      fun c run => ∃ text, ModifiedUtf8.decode spelling = some text ∧ c = utf8 text ∧ run = [] := by
  cases hspelling : ModifiedUtf8.decode spelling with
  | some text => exact (Reads.pure _).congr fun c run => by simp [Format.only]
  | none => exact (Reads.throw _).congr fun c run => by simp [Format.never]

theorem reads_decodeText (index : UInt16) :
    Reads n (decodeText index) fun c run => c.kind = .utf8 ∧ c.ContentStoredAs run := by
  rw [decodeText, ← bind_assoc]
  refine ((Reads.counted16 fun length => .bytes length.toNat).bind fun spelling _ _ =>
    reads_spelled index spelling).congr fun c run => ?_
  rw [Format.exactly_bind]
  constructor
  · rintro ⟨spelling, _, rfl, ⟨hlength, -⟩, text, htext, rfl, rfl⟩
    rw [List.append_nil]
    exact ⟨rfl, spelling, ModifiedUtf8.decode_eq_some_iff.1 htext, hlength, rfl⟩
  · rintro ⟨hkind, hcontent⟩
    cases c with
    | utf8 text =>
      obtain ⟨spelling, hspelling, hlength, rfl⟩ := hcontent
      exact ⟨spelling, [], (List.append_nil _).symm, ⟨hlength, trivial⟩, text,
        ModifiedUtf8.decode_eq_some_iff.2 hspelling, rfl, rfl⟩
    | _ => cases hkind

theorem reads_decodeIndex (make : UInt16 → Constant) :
    Reads n (decodeIndex make) fun c run => ∃ a, run = BigEndian.bytes 2 a.toNat ∧ c = make a := by
  rw [decodeIndex]
  simpa only [true_and] using Reads.u16.single make

theorem reads_decodeIndices (make : UInt16 → UInt16 → Constant) :
    Reads n (decodeIndices make) fun c run =>
      ∃ a b, run = BigEndian.bytes 2 a.toNat ++ BigEndian.bytes 2 b.toNat ∧ c = make a b := by
  refine (Reads.u16.bind fun a _ _ => reads_decodeIndex (make a)).congr fun c run => ?_
  rw [Format.exactly_bind]
  constructor
  · rintro ⟨a, _, rfl, -, b, rfl, rfl⟩
    exact ⟨a, b, rfl, rfl⟩
  · rintro ⟨a, b, rfl, rfl⟩
    exact ⟨a, _, rfl, trivial, b, rfl, rfl⟩

theorem reads_decodeContent (index : UInt16) (kind : Kind) :
    Reads n (decodeContent index kind) fun c run => c.kind = kind ∧ c.ContentStoredAs run := by
  cases kind with
  | utf8 => exact reads_decodeText index
  | integer =>
    refine (Reads.i32.single integer).congr fun c run => ?_
    cases c <;> simp [Constant.kind, ContentStoredAs, encodeContent, eq_comm]
  | float =>
    refine (Reads.u32.single float).congr fun c run => ?_
    cases c <;> simp [Constant.kind, ContentStoredAs, encodeContent, eq_comm]
  | long =>
    refine (Reads.i64.single long).congr fun c run => ?_
    cases c <;> simp [Constant.kind, ContentStoredAs, encodeContent, eq_comm]
  | double =>
    refine (Reads.u64.single double).congr fun c run => ?_
    cases c <;> simp [Constant.kind, ContentStoredAs, encodeContent, eq_comm]
  | methodHandle =>
    refine (Reads.u8.bind fun referenceKind _ _ =>
      reads_decodeIndex (methodHandle referenceKind)).congr fun c run => ?_
    rw [Format.exactly_bind]
    constructor
    · rintro ⟨referenceKind, _, rfl, -, reference, rfl, rfl⟩
      exact ⟨rfl, rfl⟩
    · rintro ⟨hkind, hcontent⟩
      cases c with
      | methodHandle referenceKind reference =>
        exact ⟨referenceKind, _, hcontent, trivial, reference, rfl, rfl⟩
      | _ => cases hkind
  | classRef | stringRef | methodType | moduleRef | packageRef =>
    refine (reads_decodeIndex _).congr fun c run => ?_
    cases c <;> simp [Constant.kind, ContentStoredAs, encodeContent, eq_comm]
  | fieldRef | methodRef | interfaceMethodRef | nameAndType | dynamic | invokeDynamic =>
    refine (reads_decodeIndices _).congr fun c run => ?_
    cases c <;> simp [Constant.kind, ContentStoredAs, encodeContent, eq_comm]

/-- **Just the stored forms of a constant are read as it.** -/
theorem reads_decode (index : UInt16) : Reads n (decode index) IsStoredAs := by
  let G (tag : UInt8) : Format Constant := fun c run => c.kind.tag = tag ∧ c.ContentStoredAs run
  refine (Reads.u8.bind (G := G) fun tag _ _ => ?_).congr fun c run => ?_
  · cases htag : Kind.ofTag? tag with
    | some kind =>
      refine (reads_decodeContent index kind).congr fun c run => ?_
      show _ ↔ c.kind.tag = tag ∧ c.ContentStoredAs run
      rw [← Option.some_inj, ← htag, eq_comm, Kind.ofTag?_eq_some_iff, eq_comm]
    | none =>
      refine (Reads.throw _).congr fun c run => ?_
      simp [G, Format.never, Kind.ofTag?_eq_none_iff.1 htag c.kind]
  · rw [Format.exactly_bind]
    constructor
    · rintro ⟨_, content, rfl, -, rfl, hstored⟩
      exact ⟨content, hstored, rfl⟩
    · rintro ⟨content, hstored, rfl⟩
      exact ⟨_, content, rfl, trivial, rfl, hstored⟩

end Constant

end ClassFormat
