import ClassFormat.Proofs.Fault
import ClassFormat.Proofs.PayloadLength
import ClassFormat.Proofs.RoundTrip
import ClassFormat.Proofs.SlotLayout

/-!
# Errors blame the right bytes

Reading stops at the first error, and the place where it stops is known.  Each error can be checked
against the bytes in front of that place.

* If the buffer is too short, the error names the place itself and what is left there.
* A number that no class file starts with is in the four bytes in front of the place.
* An unknown tag is the byte in front of it, and a text that is spelled wrongly ends there.  The
  index is the slot which the constants read before leave to this one.
* An index that leads nowhere, or to a constant other than a text, is in a header of an attribute
  that ends there.
* A wrong length is in the header of an attribute whose payload ends there, and the payload is as
  long as the error says.

The faults below say so, and they also say what stands between the start of the reader and the bytes
at fault: constants, attributes and members that are in order, and the starts of the things that the
fault is inside of.  An error inside a method body is handed out by all the readers around it as it
is, so for attributes these starts may be nested, which is what `Attribute.LeadsInto` is for.
`errors_explained` is the result for the three readers that a program calls.

## What is here

* `Constant.IsFault`, `ConstantPool.IsFault`, `Attribute.IsFault` and `ClassFile.IsFault` — what can
  be wrong, with one constructor for each cause.  Where something is inside of something else, the
  constructor has the bytes around it and the fault inside.
* `Attribute.ListFault` — what can go wrong in a list of attributes: there is a way that leads into
  it, and at the end of the way stands an attribute with a fault of its own.
* `Constant.stopsBy_decode`, `ConstantPool.stopsBy_decode`, `Attribute.stopsBy_decodeList` and
  `ClassFile.stopsBy_decodeWithin` — the readers, from the inside out.
* `errors_explained` — the three of them, from any place in any buffer.
-/

set_option autoImplicit false

namespace ClassFormat

open Decoder

variable {n : Nat} {E : Fault}

/-! ## Constants

A text is the only constant that can be at fault behind its tag.  That its bytes are those of no
text is said by the two spellings and not by the reader, so that the error is judged by the
bytes. -/

namespace Constant

/-- What can be wrong with the constant that is to have an index: no kind has its tag, or it is a
text whose bytes, all of them, are in neither spelling those of any text. -/
inductive IsFault (index : UInt16) : Fault
  | unknownTag {tag : UInt8} (htag : ∀ kind : Kind, kind.tag ≠ tag) :
      IsFault index (.unknownTag tag index) [tag]
  | invalidText {spelling : List UInt8} (hlength : spelling.length < BigEndian.limit 2)
      (hspelling : ∀ text, spelling ≠ ModifiedUtf8.standard text ∧
        spelling ≠ ModifiedUtf8.modified text) :
      IsFault index (.invalidText index)
        (Kind.utf8.tag :: (BigEndian.bytes 2 spelling.length ++ spelling))

theorem stopsBy_decodeText {index : UInt16} (hE : ∀ run,
    IsFault index (.invalidText index) (Kind.utf8.tag :: run) → E (.invalidText index) run) :
    StopsBy n (decodeText index) E := by
  rw [decodeText, ← bind_assoc]
  have hspelled : StopsBy n (u16 >>= fun length => bytes length.toNat) E :=
    .bind (.read _) .u16 fun length _ _ => .read _
  refine hspelled.bind (Reads.counted16 fun length => .bytes length.toNat) fun spelling _ h => ?_
  obtain ⟨rfl, hlength, -⟩ := h
  cases hdecode : ModifiedUtf8.decode spelling with
  | some text => exact .pure _
  | none =>
    refine .throw ?_
    rw [List.append_nil]
    refine hE _ (.invalidText hlength fun text => not_or.1 fun htext => ?_)
    rw [ModifiedUtf8.decode_eq_some_iff.2 htext] at hdecode
    cases hdecode

theorem stopsBy_decodeIndex (make : UInt16 → Constant) : StopsBy n (decodeIndex make) E :=
  .bind (.read _) .u16 fun _ _ _ => .pure _

theorem stopsBy_decodeIndices (make : UInt16 → UInt16 → Constant) :
    StopsBy n (decodeIndices make) E :=
  .bind (.read _) .u16 fun a _ _ => stopsBy_decodeIndex (make a)

/-- Only a text can be read and still be wrong. -/
theorem stopsBy_decodeContent {index : UInt16} {kind : Kind} (hE : ∀ e run,
    IsFault index e (kind.tag :: run) → E e run) : StopsBy n (decodeContent index kind) E := by
  cases kind with
  | utf8 => exact stopsBy_decodeText (hE _)
  | integer | float | long | double => exact .bind (.read _) (.read _) fun _ _ _ => .pure _
  | methodHandle => exact .bind (.read _) .u8 fun kind _ _ => stopsBy_decodeIndex _
  | classRef | stringRef | methodType | moduleRef | packageRef => exact stopsBy_decodeIndex _
  | fieldRef | methodRef | interfaceMethodRef | nameAndType | dynamic | invokeDynamic =>
    exact stopsBy_decodeIndices _

theorem stopsBy_decode (index : UInt16) : StopsBy n (decode index) (IsFault index) := by
  refine .bind_exactly (.read _) .u8 fun tag _ => ?_
  cases hkind : Kind.ofTag? tag with
  | some kind =>
    obtain rfl := Kind.ofTag?_eq_some_iff.1 hkind
    exact stopsBy_decodeContent fun e run h => h
  | none => exact .throw (.unknownTag (Kind.ofTag?_eq_none_iff.1 hkind))

end Constant

/-! ## Pools

The index in an error is found by the reader by counting the slots that it has filled.  Here it is
found from the constants that stand in front, by `slotOf`; the loop is followed with both in
view. -/

namespace ConstantPool

/-- What can be wrong with a pool: one of its constants.  The index of that constant is the slot
which the constants in front of it leave to it. -/
inductive IsFault : Fault
  | constant {count : UInt16} {cs : List Constant} {front fault : List UInt8} {e : FormatError}
      (hcs : Format.Repeated Constant.IsStoredAs cs front)
      (hslot : slotOf cs cs.length < count.toNat)
      (hfault : Constant.IsFault (.ofNat (slotOf cs cs.length)) e fault) :
      IsFault e (BigEndian.bytes 2 count.toNat ++ front ++ fault)

/-- What can go wrong in the constants for `room` more slots, when so many slots are filled. -/
def SlotsFault (filled room : Nat) : Fault := fun e run =>
  ∃ cs front fault, run = front ++ fault ∧ Format.Repeated Constant.IsStoredAs cs front ∧
    slotsTaken cs < room ∧ Constant.IsFault (.ofNat (filled + slotsTaken cs + 1)) e fault

theorem SlotsFault.cons {filled room : Nat} {c : Constant} {front back : List UInt8}
    {e : FormatError} (hc : c.IsStoredAs front)
    (h : SlotsFault (filled + c.slotCount) room e back) :
    SlotsFault filled (c.slotCount + room) e (front ++ back) := by
  obtain ⟨cs, front', fault, rfl, hcs, htaken, hfault⟩ := h
  refine ⟨c :: cs, front ++ front', fault, (List.append_assoc ..).symm, .cons hc hcs, ?_, ?_⟩
  · rw [slotsTaken_cons]
    omega
  · rwa [slotsTaken_cons, ← Nat.add_assoc]

/-- Behind a constant, the others have the slots that it leaves to them. -/
theorem stopsBy_decodeSlots_behind {room total filled : Nat} {slots : Array (Option Constant)}
    {c : Constant} {front : List UInt8} (hc : c.IsStoredAs front)
    (h : StopsBy n (decodeSlots room slots) (SlotsFault slots.size room))
    (hfilled : slots.size = filled + c.slotCount) (htotal : total = c.slotCount + room) :
    StopsBy (n - front.length) (decodeSlots room slots)
      fun e back => SlotsFault filled total e (front ++ back) := by
  rw [hfilled] at h
  rw [htotal]
  exact (h.mono (Nat.sub_le _ _)).weaken fun e back => .cons hc

theorem stopsBy_decodeSlots : (room : Nat) → (slots : Array (Option Constant)) →
    StopsBy n (decodeSlots room slots) (SlotsFault slots.size room)
  | 0, slots => .pure slots
  | room + 1, slots => by
    rw [decodeSlots.eq_def]
    have hfirst := (Constant.stopsBy_decode (n := n) (.ofNat (slots.size + 1))).weaken
      (E := SlotsFault slots.size (room + 1)) fun e run h =>
        ⟨[], [], run, rfl, .nil, Nat.succ_pos room, h⟩
    refine hfirst.bind (Constant.reads_decode _) fun c front hc => .record_bind ?_
    by_cases hwide : c.isWide = true
    · have hcount := Constant.slotCount_of_wide hwide
      rw [if_pos hwide]
      cases room with
      | zero => exact .pure _
      | succ room =>
        refine stopsBy_decodeSlots_behind hc (stopsBy_decodeSlots room _) ?_ (by omega)
        rw [Array.size_push, Array.size_push, hcount]
    · have hcount := Constant.slotCount_of_narrow (Bool.eq_false_iff.2 hwide)
      rw [if_neg hwide]
      refine stopsBy_decodeSlots_behind hc (stopsBy_decodeSlots room _) ?_ (by omega)
      rw [Array.size_push, hcount]

theorem stopsBy_decode : StopsBy n decode IsFault := by
  refine .u16_bind fun count => .record_bind ?_
  refine .bind ((stopsBy_decodeSlots (count.toNat - 1) #[]).weaken ?_) (reads_decodeSlots _ _)
    fun _ _ _ => .pure _
  intro e run h
  obtain ⟨cs, front, fault, rfl, hcs, htaken, hfault⟩ := h
  have hslot : 0 + slotsTaken cs + 1 = slotOf cs cs.length := by
    rw [slotOf, List.take_length]
    omega
  rw [← List.append_assoc]
  exact .constant hcs (by omega) (hslot ▸ hfault)

end ConstantPool

/-! ## Attributes

The fault of a list is not that of its attributes one by one: a fault may be in a list inside a
method body inside the list, and then the headers of the bodies around it have been read, and their
declared lengths have not been compared with anything.  `LeadsInto` says just this much about
them. -/

namespace Attribute

variable {pool : ConstantPool}

/-- What can be wrong with an attribute, from its header on: its name leads nowhere, or to another
kind of constant, or it is known and its payload is not as long as is declared. -/
inductive IsFault (pool : ConstantPool) : Fault
  | invalidIndex {name : UInt16} {declared : UInt32}
      (hname : pool.get name = .error (.invalidIndex name)) :
      IsFault pool (.invalidIndex name) (header name declared)
  | wrongKind {name : UInt16} {declared : UInt32} {found : Constant}
      (hname : pool.get name = .ok found) (hfound : found.kind ≠ .utf8) :
      IsFault pool (.wrongKind name (.kind .utf8) found) (header name declared)
  | lengthMismatch {a : Attribute} {text : String} {declared : UInt32}
      (htext : pool.utf8 a.name = .ok text) (hkind : Kind.ofName text = a.kind)
      (hknown : a.kind ≠ .other) (hcounts : a.CountsFit)
      (hinside : EverywhereIn (Fits pool) a.inside) (hlength : a.payload.length ≠ declared.toNat) :
      IsFault pool (.lengthMismatch text declared a.payload.length)
        (header a.name declared ++ a.payload)

/-- What lies between the start of a list of attributes and the header of one of them, or of one
inside a method body among them, at any depth: attributes that are in order, and the starts of the
method bodies that are not yet at their end. -/
inductive LeadsInto (pool : ConstantPool) : (count : UInt16) → List UInt8 → Prop
  | beside {count : UInt16} {before : List Attribute} (hcount : before.length < count.toNat)
      (hbefore : EverywhereIn (Fits pool) before) : LeadsInto pool count (encodeAll before)
  | inside {count inner : UInt16} {before : List Attribute} {name : UInt16} {declared : UInt32}
      {body : Code} {way : List UInt8} (hcount : before.length < count.toNat)
      (hbefore : EverywhereIn (Fits pool) before) (hname : pool.utf8 name = .ok "Code")
      (hbody : body.CountsFit) (hway : LeadsInto pool inner way) :
      LeadsInto pool count (encodeAll before ++
        (header name declared ++ (body.encode ++ (BigEndian.bytes 2 inner.toNat ++ way))))

/-- What can go wrong in a list of attributes. -/
def ListFault (pool : ConstantPool) (count : UInt16) : Fault := fun e run =>
  ∃ way fault, run = way ++ fault ∧ LeadsInto pool count way ∧ IsFault pool e fault

/-- A name that is no text leads nowhere or to another kind of constant. -/
theorem isFault_of_utf8 {name : UInt16} {declared : UInt32} {e : FormatError}
    (h : pool.utf8 name = .error e) : IsFault pool e (header name declared) := by
  obtain hget | ⟨found, hget, hfound, rfl⟩ := ConstantPool.utf8_eq_error_iff.1 h
  · obtain rfl := (ConstantPool.get_eq_error_iff.1 hget).2
    exact .invalidIndex hget
  · exact .wrongKind hget hfound

end Attribute

theorem Handler.stopsBy_decode : StopsBy n Handler.decode E :=
  .bind (.read _) .u16 fun _ _ _ => .bind (.read _) .u16 fun _ _ _ =>
    .bind (.read _) .u16 fun _ _ _ => .bind (.read _) .u16 fun _ _ _ => .pure _

/-- In front of the attributes in a method body nothing can be at fault. -/
theorem Code.stopsBy_decodeFront : StopsBy n decodeFront E :=
  .bind (.read _) .u16 fun _ _ _ => .bind (.read _) .u16 fun _ _ _ =>
    .bind (.read _) .u32 fun _ _ _ => .bind (.read _) (.bytes _) fun _ _ _ =>
      .bind (.read _) .u16 fun _ _ _ =>
        .bind (.times_never Handler.stopsBy_decode Handler.reads_decode _)
          (Handler.reads_decode.times _) fun _ _ _ => .bind (.read _) .u16 fun _ _ _ => .pure _

/-- Nor can anything be in a payload that is no method body. -/
theorem Attribute.stopsBy_decodePayload_of_ne_code {inner : UInt16 → Decoder (List Attribute)}
    {name : UInt16} {declared : UInt32} {kind : Kind} (hkind : kind ≠ .code) :
    StopsBy n (decodePayload inner name declared kind) E := by
  cases kind with
  | deprecated | synthetic => exact .pure _
  | sourceFile | constantValue | signature => exact .bind (.read _) .u16 fun _ _ _ => .pure _
  | code => exact absurd rfl hkind
  | other => exact .bind (.read _) (.bytes _) fun _ _ _ => .pure _

section Inner

/-! What is known of the reader of the attributes inside a method body gives the same for the reader
of those around it. -/

variable {pool : ConstantPool} {inner : UInt16 → Decoder (List Attribute)}
  (hstops : ∀ count, StopsBy n (inner count) (Attribute.ListFault pool count))
  (hreads : ∀ count : UInt16, Reads n (inner count) (.exactly (fun as =>
    as.length = count.toNat ∧ Attribute.EverywhereIn (Attribute.Fits pool) as)
      Attribute.encodeAll))

include hstops hreads

/-- In a method body only its attributes can be at fault. -/
theorem Code.stopsBy_decode
    (hE : ∀ (body : Code) (count : UInt16) e run, body.CountsFit →
      Attribute.ListFault pool count e run →
      E e (body.encode ++ (BigEndian.bytes 2 count.toNat ++ run))) :
    StopsBy n (Code.decode inner) E := by
  rw [Code.decode_eq]
  refine .bind_exactly Code.stopsBy_decodeFront Code.reads_decodeFront fun front hbody => ?_
  refine .bind (((hstops front.2).mono (Nat.sub_le _ _)).weaken fun e run h => ?_)
    ((hreads front.2).mono (Nat.sub_le _ _)) fun attributes _ _ => .pure _
  rw [List.append_assoc]
  exact hE front.1 front.2 e run hbody h

namespace Attribute

/-- The payload of a known kind has no fault of its own, but there may be one inside it. -/
theorem stopsBy_decodePayload {name : UInt16} {declared : UInt32} {kind : Kind}
    (hE : kind = .code → ∀ (body : Code) (count : UInt16) e run, body.CountsFit →
      ListFault pool count e run → E e (body.encode ++ (BigEndian.bytes 2 count.toNat ++ run))) :
    StopsBy n (decodePayload inner name declared kind) E := by
  by_cases hkind : kind = .code
  · subst hkind
    exact .bind (Code.stopsBy_decode hstops hreads (hE rfl)) (Code.reads_decode hreads)
      fun _ _ _ => .pure _
  · exact stopsBy_decodePayload_of_ne_code hkind

/-- Behind a header that is in order, the length may be wrong, or a fault is in the payload. -/
theorem stopsBy_decodeFramed {name : UInt16} {declared : UInt32} {text : String}
    (htext : pool.utf8 name = .ok text)
    (hlength : ∀ e run, IsFault pool e (header name declared ++ run) → E e run)
    (hinside : text = "Code" → ∀ (body : Code) (count : UInt16) e run, body.CountsFit →
      ListFault pool count e run → E e (body.encode ++ (BigEndian.bytes 2 count.toNat ++ run))) :
    StopsBy n (decodeFramed inner name declared text) E := by
  have hpayload : StopsBy n (decodePayload inner name declared (.ofName text)) E :=
    stopsBy_decodePayload hstops hreads fun hkind =>
      hinside ((Kind.ofName_eq_iff (k := .code) rfl).1 hkind)
  refine hpayload.measured.bind (reads_decodePayload hreads name declared _).measured ?_
  rintro ⟨a, consumed⟩ run ⟨⟨rfl, ⟨rfl, hkind⟩, ⟨hcounts, hfits⟩, hother⟩, hconsumed⟩
  obtain rfl : consumed = a.payload.length := hconsumed
  show StopsBy _ (if a.payload.length = declared.toNat then _ else _) _
  by_cases heq : a.payload.length = declared.toNat
  · rw [if_pos heq]
    exact .record_bind (.pure _)
  · rw [if_neg heq]
    refine .throw ?_
    rw [List.append_nil]
    -- a payload of an unknown kind is as long as was asked for
    have hknown : a.kind ≠ .other := fun h => heq (hother (hkind.symm.trans h))
    exact hlength _ _ (.lengthMismatch htext hkind.symm hknown hcounts hfits heq)

/-- An attribute is at fault itself, or something inside it is. -/
theorem stopsBy_decodeWith
    (hE : ∀ e run, IsFault pool e run → E e run)
    (hinside : ∀ (name : UInt16) (declared : UInt32) (body : Code) (count : UInt16) e run,
      pool.utf8 name = .ok "Code" → body.CountsFit → ListFault pool count e run →
      E e (header name declared ++ (body.encode ++ (BigEndian.bytes 2 count.toNat ++ run)))) :
    StopsBy (n + 1) (decodeWith inner pool) E := by
  refine .u16_bind fun name => .u32_bind fun declared => ?_
  refine .bind (.lift fun e he => ?_) (.lift _) fun text front htext => ?_
  · simpa only [header, List.append_assoc, List.append_nil] using hE e _ (isFault_of_utf8 he)
  obtain ⟨htext, rfl⟩ := htext
  have hframed : StopsBy n (decodeFramed inner name declared text)
      fun e back => E e (header name declared ++ back) :=
    stopsBy_decodeFramed hstops hreads htext (fun e run => hE e _) fun hcode body count e run =>
      hinside name declared body count e run (hcode ▸ htext)
  refine (hframed.mono (by omega)).weaken fun e run h => ?_
  simpa only [header, List.append_assoc, List.nil_append] using h

end Attribute

end Inner

namespace Attribute

variable {pool : ConstantPool}

/-- Attributes that are in order may stand in front. -/
theorem LeadsInto.behind {count : UInt16} {before : List Attribute} {way : List UInt8}
    (hcount : before.length < count.toNat) (hbefore : EverywhereIn (Fits pool) before)
    (h : LeadsInto pool 1 way) : LeadsInto pool count (encodeAll before ++ way) := by
  have hnil {others : List Attribute} (h : others.length < (1 : UInt16).toNat) : others = [] :=
    List.eq_nil_of_length_eq_zero (Nat.lt_one_iff.1 h)
  cases h with
  | beside hothers =>
    obtain rfl := hnil hothers
    rw [encodeAll, List.append_nil]
    exact .beside hcount hbefore
  | inside hothers _ hname hbody hway =>
    obtain rfl := hnil hothers
    rw [encodeAll, List.nil_append]
    exact .inside hcount hbefore hname hbody hway

/-- **In a list of attributes the first one that is at fault is blamed,** at every depth. -/
theorem stopsBy_decodeList (pool : ConstantPool) (room : Nat) (count : UInt16) :
    StopsBy room (decodeList pool room count) (ListFault pool count) := by
  induction room generalizing count with
  | zero => exact fun s s' e hs => absurd hs (Nat.not_lt_zero _)
  | succ room ih =>
    have hreads (count : UInt16) := reads_decodeList pool room count
    have hnil : ([] : List Attribute).length < (1 : UInt16).toNat := by decide
    -- what can go wrong in one attribute can go wrong in a list of one
    have hone : StopsBy (room + 1) (decodeWith (decodeList pool room) pool) (ListFault pool 1) := by
      refine stopsBy_decodeWith ih hreads ?_ ?_
      · intro e run h
        exact ⟨[], run, rfl, .beside hnil trivial, h⟩
      · intro name declared body count e run hname hbody h
        obtain ⟨way, fault, rfl, hway, hfault⟩ := h
        have hinside : LeadsInto pool 1 (encodeAll [] ++
            (header name declared ++ (body.encode ++ (BigEndian.bytes 2 count.toNat ++ way)))) :=
          .inside hnil trivial hname hbody hway
        refine ⟨_, fault, ?_, hinside, hfault⟩
        simp only [encodeAll, List.nil_append, List.append_assoc]
    refine hone.times (reads_decodeWith hreads) fun before front e back hcount hfront h => ?_
    obtain ⟨rfl, hbefore⟩ := Format.repeated_exactly.1 hfront
    obtain ⟨way, fault, rfl, hway, hfault⟩ := h
    rw [← encodeAll_eq_flatMap, ← List.append_assoc]
    exact ⟨_, fault, rfl, hway.behind hcount (everywhereIn_iff.2 hbefore), hfault⟩

theorem stopsBy_decode (pool : ConstantPool) (count : UInt16) :
    StopsBy n (decode pool count) (ListFault pool count) := by
  intro s s' e _ h
  rw [run_decode] at h
  exact stopsBy_decodeList pool _ count s s' e (Nat.lt_succ_self _) h

end Attribute

/-! ## Class files

What stands in front of the fault is in order, part by part.  For the pool this means that it is
well-formed and that its bytes are a stored form of it, and for members and attributes that they can
be stored; so an error about the attributes of the class says that all fields and methods are
fine. -/

namespace Member

variable {pool : ConstantPool}

/-- What can be wrong with a member: one of its attributes. -/
inductive IsFault (pool : ConstantPool) : Fault
  | attribute {accessFlags name descriptor count : UInt16} {e : FormatError} {run : List UInt8}
      (hrun : Attribute.ListFault pool count e run) :
      IsFault pool e (BigEndian.bytes 2 accessFlags.toNat ++ (BigEndian.bytes 2 name.toNat ++
        (BigEndian.bytes 2 descriptor.toNat ++ (BigEndian.bytes 2 count.toNat ++ run))))

/-- What can go wrong in a list of members, from their number on. -/
inductive ListFault (pool : ConstantPool) : Fault
  | member {count : UInt16} {before : List Member} {e : FormatError} {run : List UInt8}
      (hcount : before.length < count.toNat)
      (hbefore : ∀ m ∈ before, Attribute.Storable pool m.attributes) (hrun : IsFault pool e run) :
      ListFault pool e (BigEndian.bytes 2 count.toNat ++ (before.flatMap encode ++ run))

theorem stopsBy_decode (pool : ConstantPool) (room : Nat) :
    StopsBy room (decode pool room) (IsFault pool) := by
  refine .u16_bind fun accessFlags => .u16_bind fun name => .u16_bind fun descriptor =>
    .u16_bind fun count => ?_
  have hattributes := (Attribute.stopsBy_decodeList pool room count).weaken fun e run h =>
    @IsFault.attribute pool accessFlags name descriptor count e run h
  exact (hattributes.mono (by omega)).bind
    ((Attribute.reads_decodeList pool room count).mono (by omega)) fun _ _ _ => .pure _

theorem stopsBy_decodeCounted (pool : ConstantPool) (room : Nat) (message : UInt16 → LogRecord) :
    StopsBy room (decodeCounted pool room message) (ListFault pool) := by
  refine .u16_bind fun count => .record_bind ?_
  have hless := Nat.sub_le room 2
  refine ((stopsBy_decode pool room).mono hless).times ((reads_decode pool room).mono hless) ?_
  intro before front e run hcount hfront hrun
  obtain ⟨rfl, hbefore⟩ := Format.repeated_exactly.1 hfront
  exact .member hcount hbefore hrun

end Member

namespace ClassFile

/-- The bytes in front of the pool. -/
def encodeVersion (minorVersion majorVersion : UInt16) : List UInt8 :=
  BigEndian.bytes 4 magicNumber.toNat ++ (BigEndian.bytes 2 minorVersion.toNat ++
    BigEndian.bytes 2 majorVersion.toNat)

/-- What stands between the pool and the fields of a class file. -/
structure Headings where
  accessFlags : UInt16
  thisClass : UInt16
  superClass : UInt16
  interfaces : List UInt16
  length_lt : interfaces.length < BigEndian.limit 2

/-- The stored form of the headings. -/
def Headings.encode (h : Headings) : List UInt8 :=
  BigEndian.bytes 2 h.accessFlags.toNat ++ (BigEndian.bytes 2 h.thisClass.toNat ++
    (BigEndian.bytes 2 h.superClass.toNat ++ (BigEndian.bytes 2 h.interfaces.length ++
      h.interfaces.flatMap fun i => BigEndian.bytes 2 i.toNat)))

/-- What can go wrong behind the pool, from there on: a field, a method or an attribute of the
class is at fault, and all that lies in front of it is in order. -/
inductive BodyFault (pool : ConstantPool) : Fault
  | field {headings : Headings} {e : FormatError} {run : List UInt8}
      (hrun : Member.ListFault pool e run) : BodyFault pool e (headings.encode ++ run)
  | method {headings : Headings} {fields : List Member} {e : FormatError} {run : List UInt8}
      (hfields : Member.Storable pool fields) (hrun : Member.ListFault pool e run) :
      BodyFault pool e (headings.encode ++ (Member.encodeList fields ++ run))
  | attribute {headings : Headings} {fields methods : List Member} {count : UInt16}
      {e : FormatError} {run : List UInt8} (hfields : Member.Storable pool fields)
      (hmethods : Member.Storable pool methods) (hrun : Attribute.ListFault pool count e run) :
      BodyFault pool e (headings.encode ++ (Member.encodeList fields ++
        (Member.encodeList methods ++ (BigEndian.bytes 2 count.toNat ++ run))))

theorem stopsBy_decodeBody (minorVersion majorVersion : UInt16) (pool : ConstantPool) (room : Nat) :
    StopsBy room (decodeBody minorVersion majorVersion pool room) (BodyFault pool) := by
  refine .u16_bind fun accessFlags => .u16_bind fun thisClass => .u16_bind fun superClass =>
    .u16_bind fun interfaceCount => ?_
  refine .bind_exactly (.read _) (.u16s _) fun interfaces hinterfaces => ?_
  let headings : Headings := ⟨accessFlags, thisClass, superClass, interfaces,
    hinterfaces.1 ▸ interfaceCount.toNat_lt⟩
  refine .mono (n := room) (.weaken (F := fun e back => BodyFault pool e
    (headings.encode ++ back)) ?_ ?_) (by omega)
  · refine .bind_exactly ((Member.stopsBy_decodeCounted pool room _).weaken fun e run => .field)
      (Member.reads_decodeCounted pool room _) fun fields hfields => ?_
    have hless := Nat.sub_le room (Member.encodeList fields).length
    refine .bind_exactly (((Member.stopsBy_decodeCounted pool room _).mono hless).weaken
      fun e run => .method hfields) ((Member.reads_decodeCounted pool room _).mono hless)
        fun methods hmethods => .u16_bind fun count => ?_
    refine .bind (((Attribute.stopsBy_decodeList pool room count).mono (by omega)).weaken
      fun e run => .attribute hfields hmethods)
        ((Attribute.reads_decodeList pool room count).mono (by omega)) fun _ _ _ => .pure _
  · intro e run h
    simpa only [headings, Headings.encode, hinterfaces.1, List.append_assoc] using h

/-- What can be wrong with a class file, from its start on: it starts with another number, or its
pool is at fault, or there is a fault behind a pool that is in order. -/
inductive IsFault : Fault
  | magic {found : UInt32} (hfound : found ≠ magicNumber) :
      IsFault (.badMagic found) (BigEndian.bytes 4 found.toNat)
  | pool {minorVersion majorVersion : UInt16} {e : FormatError} {run : List UInt8}
      (hrun : ConstantPool.IsFault e run) :
      IsFault e (encodeVersion minorVersion majorVersion ++ run)
  | body {minorVersion majorVersion : UInt16} {pool : ConstantPool} {stored run : List UInt8}
      {e : FormatError} (hpool : pool.IsWellFormed) (hstored : pool.IsStoredAs stored)
      (hrun : BodyFault pool e run) :
      IsFault e (encodeVersion minorVersion majorVersion ++ (stored ++ run))

theorem stopsBy_decodeMagic (hE : ∀ found, found ≠ magicNumber →
    E (.badMagic found) (BigEndian.bytes 4 found.toNat)) : StopsBy n decodeMagic E := by
  refine .u32_bind fun found => ?_
  by_cases hfound : found = magicNumber
  · rw [if_pos hfound]
    exact .pure ()
  · rw [if_neg hfound]
    refine .throw ?_
    rw [List.append_nil]
    exact hE found hfound

theorem stopsBy_decodeWithin (room : Nat) : StopsBy room (decodeWithin room) IsFault := by
  refine .bind_exactly (stopsBy_decodeMagic fun found => .magic) reads_decodeMagic fun _ _ =>
    .u16_bind fun minorVersion => .u16_bind fun majorVersion => .record_bind ?_
  refine .mono (n := room) (.weaken (F := fun e back => IsFault e
    (encodeVersion minorVersion majorVersion ++ back)) ?_ ?_) (by omega)
  · refine .bind (ConstantPool.stopsBy_decode.weaken fun e run => .pool)
      ConstantPool.reads_decode fun pool stored hpool => ?_
    exact ((stopsBy_decodeBody _ _ pool room).mono (by omega)).weaken fun e run =>
      .body hpool.1 hpool.2
  · intro e run h
    simpa only [encodeVersion, List.append_assoc] using h

/-- What is read of a class file explains every error. -/
theorem stopsBy_decode : StopsBy n decode IsFault := by
  intro s s' e _ h
  have hroom := Nat.lt_succ_self s.cursor.remaining
  rw [agreeBelow_decode _ s hroom] at h
  refine stopsBy_decodeWithin _ s s' e hroom ?_
  rcases hrun : (decodeWithin (s.cursor.remaining + 1)).run s with ⟨e' | c, m⟩
  · rw [run_bind_of_error hrun] at h
    exact h
  · rw [run_bind_of_ok hrun, run_bind_of_ok (run_recordTrailing m)] at h
    cases h

end ClassFile

/-! ## The three readers -/

/-- **Errors blame the right bytes.**  Wherever the reader of a pool, of a list of attributes or of
a class file stops with an error, the buffer is too short just there, or the bytes that were read up
to there end in those that the error is about. -/
theorem errors_explained {s s' : Progress} {e : FormatError} :
    (ConstantPool.decode.run s = (.error e, s') →
      ConstantPool.IsFault.Explains e s.cursor s'.cursor) ∧
    (∀ (pool : ConstantPool) (count : UInt16),
      (Attribute.decode pool count).run s = (.error e, s') →
        (Attribute.ListFault pool count).Explains e s.cursor s'.cursor) ∧
    (ClassFile.decode.run s = (.error e, s') →
      ClassFile.IsFault.Explains e s.cursor s'.cursor) := by
  have hs := Nat.lt_succ_self s.cursor.remaining
  refine ⟨fun h => ?_, fun pool count h => ?_, fun h => ?_⟩
  · exact ConstantPool.stopsBy_decode s s' e hs h
  · exact Attribute.stopsBy_decode pool count s s' e hs h
  · exact ClassFile.stopsBy_decode s s' e hs h

/-- A pool with a wide constant, and behind it a constant whose tag is that of no kind. -/
def strayTag : List UInt8 := [0, 4, 5, 0, 0, 0, 0, 0, 0, 0, 7, 2, 0xFF]

/-- The tag is blamed on the slot behind the two that the wide constant takes up, in the pool alone
as in a class file. -/
theorem errors_explained_strayTag :
    (∃ s', ConstantPool.decode.run (.start strayTag) = (.error (.unknownTag 2 3), s') ∧
      ConstantPool.IsFault.Explains (.unknownTag 2 3) (.ofBytes strayTag) s'.cursor) ∧
    (∃ s', (Attribute.decode Attribute.twoNames 1).run (.start Attribute.overlongMark) =
        (.error (.lengthMismatch "Deprecated" 5 0), s') ∧
      (Attribute.ListFault Attribute.twoNames 1).Explains (.lengthMismatch "Deprecated" 5 0)
        (.ofBytes Attribute.overlongMark) s'.cursor) ∧
    ∃ s', ClassFile.decode.run (.start (ClassFile.encodeVersion 0 0x34 ++ strayTag)) =
        (.error (.unknownTag 2 3), s') ∧
      ClassFile.IsFault.Explains (.unknownTag 2 3)
        (.ofBytes (ClassFile.encodeVersion 0 0x34 ++ strayTag)) s'.cursor := by
  have run_eq {α : Type} {d : Decoder α} {s : Progress} {e : FormatError}
      (h : (d.run s).1 = .error e) : d.run s = (.error e, (d.run s).2) := Prod.ext h rfl
  have hpool := @run_eq _ ConstantPool.decode (.start strayTag) (.unknownTag 2 3)
    (by decide +kernel)
  have hattributes := @run_eq _ (Attribute.decode Attribute.twoNames 1)
    (.start Attribute.overlongMark) (.lengthMismatch "Deprecated" 5 0) (by decide +kernel)
  have hclass := @run_eq _ ClassFile.decode (.start (ClassFile.encodeVersion 0 0x34 ++ strayTag))
    (.unknownTag 2 3) (by decide +kernel)
  exact ⟨⟨_, hpool, errors_explained.1 hpool⟩,
    ⟨_, hattributes, errors_explained.2.1 _ _ hattributes⟩,
    ⟨_, hclass, errors_explained.2.2 hclass⟩⟩

end ClassFormat
