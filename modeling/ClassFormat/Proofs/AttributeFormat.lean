import ClassFormat.Attribute.Decode
import ClassFormat.Attribute.Encode
import ClassFormat.Proofs.Format
import ClassFormat.Proofs.NestingRoom

/-!
# The format of attributes

An attribute has one stored form.  The reader accepts it for just those attributes whose name
selects their kind and whose lengths and counts fit, at every depth: `Attribute.reads_decodeList`.
Nothing is left open by the declared length: it is compared with the bytes that were read, so behind
every name that is read stands the length of the very payload that follows.

The proof follows the nesting.  What is known of the reader of inner attributes, below a bound on
the bytes that are left, gives the same for the reader of outer attributes below a bound that is
greater by one, since the index of a name stands in between.

## What is here

* `Code.FrontStoredAs` and `Code.reads_decode` — a method body, up to its attributes and with them.
* `inside` — the attributes inside an attribute: those of a method body, and none for other kinds.
  With it, a condition at every depth is one on the attribute and on those inside
  (`everywhere_iff`).
* `PayloadStoredAs` — which runs are read as a payload behind a given header.  The declared length
  appears in it for an unknown kind alone.
* `reads_decodeWith` — one attribute.  Here the payload and the length that is declared for it meet.
* `reads_decodeList` — the induction on the room, and `reads_decode` for the reader that finds the
  room itself.
-/

set_option autoImplicit false

namespace ClassFormat

open Decoder

variable {n : Nat}

theorem Handler.reads_decode :
    Reads n Handler.decode (.exactly (fun _ => True) Handler.encode) := by
  refine Reads.congr (F := .exactly (fun _ => True ∧ _) _) (.field Handler.startPc .u16 fun _ =>
    .field Handler.endPc .u16 fun _ => .field Handler.handlerPc .u16 fun _ =>
      .field Handler.catchType .u16 fun _ => .fieldsEnd fun h => ?_) fun h run => ?_
  · cases h
    simp [and_assoc]
  · simp [Format.exactly, Handler.encode]

/-- Whether the counts in a method body can be stored. -/
def Code.CountsFit (body : Code) : Prop :=
  body.bytecode.length < BigEndian.limit 4 ∧ body.handlers.length < BigEndian.limit 2

/-- Which runs stand for a method body up to its attributes, and for their number. -/
def Code.FrontStoredAs : Format (Code × UInt16) :=
  .exactly (fun p => p.1.CountsFit) fun p => p.1.encode ++ BigEndian.bytes 2 p.2.toNat

theorem Code.reads_decodeFront : Reads n decodeFront FrontStoredAs := by
  refine Reads.congr (F := .exactly (fun _ => True ∧ _) _)
    (.field (Code.maxStack ∘ Prod.fst) .u16 fun _ =>
      .field (Code.maxLocals ∘ Prod.fst) .u16 fun _ =>
        .listField32 (Code.bytecode ∘ Prod.fst) (fun length => .bytes length.toNat) fun _ =>
          .listField16 (Code.handlers ∘ Prod.fst)
            (fun count => Handler.reads_decode.times_exactly count.toNat) fun _ =>
            .field Prod.snd .u16 fun _ => .fieldsEnd fun p => ?_) fun p run => ?_
  · obtain ⟨⟨_, _, _, _⟩, _⟩ := p
    simp [and_assoc]
  · simp [FrontStoredAs, Format.exactly, Code.encode, Code.CountsFit]

/-- The number of attributes inside is stored in front of them. -/
theorem Code.reads_decode {inner : UInt16 → Decoder (List Attribute)} {P : List Attribute → Prop}
    (hinner : ∀ count : UInt16, Reads n (inner count)
      (.exactly (fun as => as.length = count.toNat ∧ P as) Attribute.encodeAll)) :
    Reads n (Code.decode inner) (.exactly
      (fun p => p.1.CountsFit ∧ p.2.length < BigEndian.limit 2 ∧ P p.2)
      fun p => p.1.encode ++ (BigEndian.bytes 2 p.2.length ++ Attribute.encodeAll p.2)) := by
  rw [decode_eq]
  refine (reads_decodeFront.bind fun front _ _ =>
    ((hinner front.2).mono (Nat.sub_le _ _)).single fun as => (front.1, as)).congr fun p run => ?_
  rw [FrontStoredAs, Format.exactly_bind]
  constructor
  · rintro ⟨⟨body, count⟩, _, rfl, hbody, as, rfl, ⟨hlength, hP⟩, rfl⟩
    refine ⟨?_, hbody, hlength ▸ count.toNat_lt, hP⟩
    rw [List.append_assoc, ← hlength]
  · rintro ⟨rfl, hbody, hlength, hP⟩
    have htoNat : (UInt16.ofNat p.2.length).toNat = p.2.length := UInt16.toNat_ofNat_of_lt' hlength
    refine ⟨(p.1, .ofNat p.2.length), _, ?_, hbody, p.2, rfl, ⟨htoNat.symm, hP⟩, rfl⟩
    rw [List.append_assoc, htoNat]

namespace Attribute

/-! ## Payloads -/

/-- The attributes inside an attribute. -/
def inside : Attribute → List Attribute
  | code _ _ attributes => attributes
  | _ => []

/-- Whether the counts in an attribute can be stored. -/
def CountsFit : Attribute → Prop
  | code _ body attributes => body.CountsFit ∧ attributes.length < BigEndian.limit 2
  | _ => True

theorem everywhere_iff {p : Attribute → Prop} {a : Attribute} :
    Everywhere p a ↔ p a ∧ EverywhereIn p a.inside := by
  cases a with
  | code => rfl
  | _ => exact (and_iff_left trivial).symm

/-- A payload counts the instructions in it. -/
theorem isSmall_iff {a : Attribute} :
    a.IsSmall ↔ a.payload.length < BigEndian.limit 4 ∧ a.CountsFit := by
  cases a with
  | code name body attributes =>
    have hle : body.bytecode.length ≤ (code name body attributes).payload.length := by
      simp only [payload, Code.encode, List.length_append]
      omega
    simp only [IsSmall, CountsFit, Code.CountsFit]
    constructor
    · rintro ⟨hpayload, hcounts⟩
      exact ⟨hpayload, ⟨Nat.lt_of_le_of_lt hle hpayload, hcounts.1⟩, hcounts.2⟩
    · rintro ⟨hpayload, ⟨-, hhandlers⟩, hattributes⟩
      exact ⟨hpayload, hhandlers, hattributes⟩
  | _ => rfl

/-- Which runs are read as a payload, when the name and the declared length of the attribute are
known.  Only an unknown kind looks at the length. -/
def PayloadStoredAs (p : Attribute → Prop) (name : UInt16) (declared : UInt32) (kind : Kind) :
    Format Attribute :=
  fun a run => run = a.payload ∧ (a.name = name ∧ a.kind = kind) ∧
    (a.CountsFit ∧ EverywhereIn p a.inside) ∧ (kind = .other → run.length = declared.toNat)

variable {inner : UInt16 → Decoder (List Attribute)} {p : Attribute → Prop}

theorem reads_decodePayload (hinner : ∀ count : UInt16, Reads n (inner count)
      (.exactly (fun as => as.length = count.toNat ∧ EverywhereIn p as) encodeAll))
    (name : UInt16) (declared : UInt32) (kind : Kind) :
    Reads n (decodePayload inner name declared kind) (PayloadStoredAs p name declared kind) := by
  cases kind with
  | deprecated | synthetic =>
    refine (Reads.pure _).congr fun a run => ?_
    cases a <;> simp [PayloadStoredAs, Format.only, payload, Attribute.name, Attribute.kind,
      CountsFit, inside, EverywhereIn, and_comm]
  | sourceFile | constantValue | signature =>
    refine (Reads.u16.single _).congr fun a run => ?_
    cases a <;> simp [PayloadStoredAs, payload, Attribute.name, Attribute.kind, CountsFit, inside,
      EverywhereIn]
  | code =>
    refine ((Code.reads_decode hinner).single fun p => code name p.1 p.2).congr fun a run => ?_
    constructor
    · rintro ⟨⟨body, attributes⟩, rfl, ⟨hbody, hlength, hinside⟩, rfl⟩
      exact ⟨by rw [payload, List.append_assoc], ⟨rfl, rfl⟩, ⟨⟨hbody, hlength⟩, hinside⟩,
        Kind.noConfusion⟩
    · rintro ⟨rfl, ⟨rfl, hkind⟩, ⟨hcounts, hinside⟩, -⟩
      cases a with
      | code name body attributes =>
        exact ⟨(body, attributes), by rw [payload, List.append_assoc],
          ⟨hcounts.1, hcounts.2, hinside⟩, rfl⟩
      | _ => cases hkind
  | other =>
    refine ((Reads.bytes _).single (other name)).congr fun a run => ?_
    constructor
    · rintro ⟨payload, rfl, ⟨hlength, -⟩, rfl⟩
      exact ⟨rfl, ⟨rfl, rfl⟩, ⟨trivial, trivial⟩, fun _ => hlength⟩
    · rintro ⟨rfl, ⟨rfl, hkind⟩, -, hlength⟩
      cases a with
      | other name payload => exact ⟨payload, rfl, ⟨hlength rfl, trivial⟩, rfl⟩
      | _ => cases hkind

/-! ## Attributes -/

variable {pool : ConstantPool}

/-- The declared length must be that of the payload. -/
theorem reads_decodeWith (hinner : ∀ count : UInt16, Reads n (inner count)
      (.exactly (fun as => as.length = count.toNat ∧ EverywhereIn (Fits pool) as) encodeAll)) :
    Reads (n + 1) (decodeWith inner pool) (.exactly (Everywhere (Fits pool)) encode) := by
  have hlength {name : UInt16} {front : List UInt8}
      (h : Format.exactly (fun _ => True) (fun x => BigEndian.bytes 2 x.toNat) name front) :
      front.length = 2 := by
    rw [h.1, BigEndian.length_bytes]
  refine (Reads.u16.bind fun name _ hname => Reads.u32.bind fun declared _ _ =>
    (Reads.lift _).bind fun text _ _ =>
      ((reads_decodePayload hinner name declared (.ofName text)).measured.mono
        (by have := hlength hname; omega)).bind fun p _ _ =>
          Reads.ite_throw (.record_bind (.pure p.1)) _).congr fun a run => ?_
  simp only [Format.exactly_bind]
  constructor
  · rintro ⟨name, _, rfl, -, declared, _, rfl, -, text, _, _, rfl, ⟨htext, rfl⟩, ⟨b, consumed⟩, run,
      _, rfl, ⟨⟨rfl, ⟨rfl, hkind⟩, ⟨hcounts, hinside⟩, -⟩, hconsumed⟩, hdeclared, rfl, rfl⟩
    have hlength : declared.toNat = a.payload.length := hdeclared.symm.trans hconsumed
    have hsmall : a.IsSmall := isSmall_iff.2 ⟨hlength ▸ declared.toNat_lt, hcounts⟩
    refine ⟨?_, everywhere_iff.2 ⟨⟨⟨text, htext, hkind.symm⟩, hsmall⟩, hinside⟩⟩
    rw [encode, stored, hlength, List.nil_append, List.append_nil, List.append_assoc]
  · rintro ⟨rfl, h⟩
    obtain ⟨⟨⟨text, htext, hkind⟩, hsmall⟩, hinside⟩ := everywhere_iff.1 h
    obtain ⟨hpayload, hcounts⟩ := isSmall_iff.1 hsmall
    have hlength : (UInt32.ofNat a.payload.length).toNat = a.payload.length :=
      UInt32.toNat_ofNat_of_lt' hpayload
    refine ⟨a.name, _, ?_, trivial, .ofNat a.payload.length, _, rfl, trivial, text, [], _, rfl,
      ⟨htext, rfl⟩, (a, a.payload.length), a.payload, [], rfl,
      ⟨⟨rfl, ⟨rfl, hkind.symm⟩, ⟨hcounts, hinside⟩, fun _ => hlength.symm⟩, rfl⟩, hlength.symm,
      rfl, rfl⟩
    rw [encode, stored, hlength, List.nil_append, List.append_nil, List.append_assoc]

/-- **Just the stored forms of attributes are read as them,** at every depth. -/
theorem reads_decodeList (pool : ConstantPool) (room : Nat) (count : UInt16) :
    Reads room (decodeList pool room count) (.exactly
      (fun as => as.length = count.toNat ∧ EverywhereIn (Fits pool) as) encodeAll) := by
  induction room generalizing count with
  | zero => exact fun s x c hs => absurd hs (Nat.not_lt_zero _)
  | succ room ih =>
    refine ((reads_decodeWith ih).times_exactly count.toNat).congr fun as run => ?_
    rw [Format.exactly, Format.exactly, encodeAll_eq_flatMap, everywhereIn_iff]

/-- The room that the reader gives itself is enough in front of any number of bytes. -/
theorem reads_decode (pool : ConstantPool) (count : UInt16) :
    Reads n (decode pool count) (.exactly
      (fun as => as.length = count.toNat ∧ EverywhereIn (Fits pool) as) encodeAll) := by
  intro s as c _
  rw [run_decode]
  exact reads_decodeList pool _ count s as c (Nat.lt_succ_self _)

end Attribute
end ClassFormat
