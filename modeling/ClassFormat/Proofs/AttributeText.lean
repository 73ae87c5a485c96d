import ClassFormat.Attribute.Document
import ClassFormat.Proofs.UniqueReading

/-!
# What the debug text of attributes tells

The bytes of an unknown payload and the instructions of a method body are not in the debug text of
attributes, and everything else is.  What is left of an attribute without these bytes is its
`Outline`, in which a number stands in place of every run of bytes, at every depth.  Two lists of
attributes have the same debug text exactly if they have the same outlines (`text_tells_outlines`).

That the bytes do not matter is seen from how the documents are made.  That everything else does
takes two steps: a document says what the outline is (`document_eq_iff`), and a text says what the
document is, because the documents of attributes are readable (`readable_document`).

## What is here

* `Attribute.Outline` and `Code.Outline` — what is told.  An outline is a tree of its own, with the
  constructors of an attribute, and not a class of attributes that look the same.
* `number_inj` and `byteCount_inj` — a number is known from its digits, and a number of bytes from
  what stands between the quotes.
* `Kind.shown` — the word that tells the kind of an attribute.  An unknown payload has a quote in
  its place, so the kinds are told apart by how the documents start (`kind_eq_of_document_eq`).
* `document_eq_iff` — documents are equal exactly if outlines are, by recursion on both attributes.
* `readable_document` — every document of an attribute is readable.
-/

set_option autoImplicit false

namespace ClassFormat

open Document

/-! ## Numbers and numbers of bytes

The digits of a number are a word, and from the digits the number is found again.  What stands
between the quotes of a number of bytes has no quote in it and nothing that is written with a
backslash. -/

theorem toList_toString (n : Nat) : (toString n).toList = Nat.toDigits 10 n := Nat.toList_repr

theorem toString_inj {m n : Nat} : toString m = toString n ↔ m = n := by
  refine ⟨fun h => ?_, congrArg toString⟩
  have hdigits : Nat.toDigits 10 m = Nat.toDigits 10 n := by
    rw [← toList_toString, h, toList_toString]
  rw [← Nat.ofDigitChars_toDigits (b := 10) (n := m) (by decide) (by decide), hdigits,
    Nat.ofDigitChars_toDigits (by decide) (by decide)]

theorem isDigit_of_mem_toString {c : Char} {n : Nat} (h : c ∈ (toString n).toList) :
    c.isDigit = true :=
  Nat.isDigit_of_mem_toDigits (by decide) (by decide) (toList_toString n ▸ h)

theorem isWord_toString (n : Nat) : IsWord (toString n) := by
  refine ⟨by rw [toList_toString]; exact Nat.toDigits_ne_nil, List.all_eq_true.2 fun c hc => ?_⟩
  simp [isWordChar, Char.isAlphanum, isDigit_of_mem_toString hc]

theorem readable_number (n : Nat) : Readable (number n) := .word (isWord_toString n)

theorem number_inj {m n : Nat} : number m = number n ↔ m = n := by
  rw [number, number, leaf.injEq, toString_inj]

/-- A number of bytes as it stands between the quotes. -/
def byteCountText (run : List UInt8) : List Char :=
  '(' :: ((toString run.length).toList ++ [' ', 'b', 'y', 't', 'e', 's', ')'])

/-- Nothing in a number of bytes needs a backslash. -/
theorem escape_of_mem_byteCountText {c : Char} {run : List UInt8} (h : c ∈ byteCountText run) :
    Quoted.escape c = [c] := by
  rw [byteCountText, List.mem_cons, List.mem_append] at h
  rcases h with rfl | h | h
  · rfl
  · have hdigit : 48 ≤ c.toNat ∧ c.toNat ≤ 57 :=
      Char.isDigit_iff_toNat.1 (isDigit_of_mem_toString h)
    refine Quoted.escape_of_ascii (by omega) (by omega) ?_ ?_ <;> rintro rfl
    · exact absurd hdigit (by decide)
    · exact absurd hdigit (by decide)
  · simp only [List.mem_cons, List.not_mem_nil, or_false] at h
    rcases h with rfl | rfl | rfl | rfl | rfl | rfl | rfl <;> rfl

theorem byteCount_eq (run : List UInt8) :
    byteCount run = leaf (String.ofList ('"' :: (byteCountText run ++ ['"']))) := by
  have htext : ("(" ++ toString run.length ++ " bytes)").toList = byteCountText run := by
    simp [byteCountText]
  have hescape : (byteCountText run).flatMap Quoted.escape = byteCountText run := by
    rw [List.flatMap_congr fun c hc => escape_of_mem_byteCountText hc, List.flatMap_singleton']
  rw [byteCount, Quoted.quoted, htext, hescape, List.cons_append]

theorem quote_notMem_byteCountText (run : List UInt8) : '"' ∉ byteCountText run := fun h =>
  absurd (escape_of_mem_byteCountText h) (by decide)

theorem readable_byteCount (run : List UInt8) : Readable (byteCount run) := by
  rw [byteCount_eq]
  exact .quoted (quote_notMem_byteCountText run)

theorem byteCount_inj {run run' : List UInt8} :
    byteCount run = byteCount run' ↔ run.length = run'.length := by
  rw [byteCount_eq, byteCount_eq, leaf.injEq, String.ofList_inj]
  simp only [byteCountText, List.cons_append, List.cons.injEq, true_and,
    List.append_cancel_right_eq, String.toList_inj, toString_inj]

/-! ## Records

A document of a record is known from its fields and the fields from the document, since the labels
are fixed; all that has to be looked at are the numbers. -/

theorem Document.readable_record {name : String} {items : List Document} (hname : IsWord name)
    (hne : items ≠ []) (hitems : ∀ item ∈ items, Readable item) :
    Readable (group (.record name) items) :=
  .bracketed hname.forall_mem (absurd · hne) hitems

/-- A record of one labelled number. -/
theorem readable_numbered {name label : String} (hname : IsWord name) (hlabel : IsWord label)
    (n : Nat) : Readable (group (.record name) [field label (number n)]) :=
  readable_record hname (List.cons_ne_nil _ _) fun item hitem => by
    rw [List.mem_singleton.1 hitem]
    exact .labelled hlabel (readable_number n)

theorem readable_list {items : List Document} (h : ∀ item ∈ items, Readable item) :
    Readable (group .list items) :=
  .bracketed (by simp [Shape.word]) (fun _ => rfl) h

theorem Handler.readable_document (h : Handler) : Readable h.document := by
  refine readable_record (by decide) (List.cons_ne_nil _ _) ?_
  simp only [List.forall_mem_cons]
  exact ⟨.labelled (by decide) (readable_number _), .labelled (by decide) (readable_number _),
    .labelled (by decide) (readable_number _), .labelled (by decide) (readable_number _), by simp⟩

theorem Handler.document_inj {h h' : Handler} : h.document = h'.document ↔ h = h' := by
  cases h
  cases h'
  simp [document, number_inj, UInt16.toNat_inj]

/-! ## Method bodies -/

namespace Code

theorem readable_document {body : Code} {attributes : Document} (h : Readable attributes) :
    Readable (body.document attributes) := by
  refine readable_record (by decide) (List.cons_ne_nil _ _) ?_
  have hhandlers : Readable (group .list (body.handlers.map Handler.document)) :=
    readable_list (List.forall_mem_map.2 fun h _ => h.readable_document)
  simp only [List.forall_mem_cons]
  exact ⟨.labelled (by decide) (readable_number _), .labelled (by decide) (readable_number _),
    .labelled (by decide) (readable_byteCount _), .labelled (by decide) hhandlers,
    .labelled (by decide) h, by simp⟩

/-- What the debug text tells of a method body: of its instructions, only the number of bytes. -/
structure Outline where
  maxStack : UInt16
  maxLocals : UInt16
  bytecode : Nat
  handlers : List Handler
deriving DecidableEq, Repr

/-- A method body with the number of its instruction bytes in their place. -/
def outline (body : Code) : Outline :=
  ⟨body.maxStack, body.maxLocals, body.bytecode.length, body.handlers⟩

theorem document_eq_iff {body body' : Code} {attributes attributes' : Document} :
    body.document attributes = body'.document attributes' ↔
      body.outline = body'.outline ∧ attributes = attributes' := by
  have hhandlers : body.handlers.map Handler.document = body'.handlers.map Handler.document ↔
      body.handlers = body'.handlers :=
    List.map_inj_right fun _ _ => Handler.document_inj.1
  simp [document, outline, number_inj, UInt16.toNat_inj, byteCount_inj, hhandlers, and_assoc]

end Code

/-! ## Attributes

Kinds come first: two attributes with equal documents have the same kind, and then the documents are
compared field by field.  Both recursions go through the attributes of a method body. -/

namespace Attribute

/-- What the debug text tells of an attribute: of an unknown payload, only the number of bytes. -/
inductive Outline
  | deprecated (name : UInt16)
  | synthetic (name : UInt16)
  | sourceFile (name : UInt16) (file : UInt16)
  | constantValue (name : UInt16) (value : UInt16)
  | signature (name : UInt16) (text : UInt16)
  | code (name : UInt16) (body : Code.Outline) (attributes : List Outline)
  | other (name : UInt16) (payload : Nat)
deriving Repr

mutual

/-- An attribute with the number of bytes in place of an unknown payload, and in place of the
instructions of every method body inside it. -/
def outline : Attribute → Outline
  | deprecated name => .deprecated name
  | synthetic name => .synthetic name
  | sourceFile name file => .sourceFile name file
  | constantValue name value => .constantValue name value
  | signature name text => .signature name text
  | code name body attributes => .code name body.outline (outlines attributes)
  | other name payload => .other name payload.length

/-- The outlines of some attributes. -/
def outlines : List Attribute → List Outline
  | [] => []
  | a :: attributes => outline a :: outlines attributes

end

theorem outlines_eq_map (attributes : List Attribute) :
    outlines attributes = attributes.map outline := by
  induction attributes with
  | nil => rfl
  | cons a attributes ih => rw [outlines, ih, List.map_cons]

theorem framed_inj {name name' : UInt16} {content content' : Document} :
    framed name content = framed name' content' ↔ name = name' ∧ content = content' := by
  simp [framed, number_inj, UInt16.toNat_inj]

theorem listed_inj {members members' : List Document} :
    listed members = listed members' ↔ members = members' := by
  simp [listed]

theorem document_code (name : UInt16) (body : Code) (attributes : List Attribute) :
    (code name body attributes).document =
      framed name (group (.tuple "Code") [body.document (listed (attributes.map document))]) := by
  rw [document, documentsOnto_eq, List.reverse_nil, List.nil_append]

/-! ### Kinds -/

/-- The word that the document of what an attribute holds starts with.  There is none if it holds
only bytes. -/
def Kind.shown : Kind → String
  | .deprecated => "Deprecated"
  | .synthetic => "Synthetic"
  | .sourceFile => "SourceFile"
  | .constantValue => "ConstantValue"
  | .signature => "Signature"
  | .code => "Code"
  | .other => ""

/-- The word tells the kind. -/
theorem Kind.ofName_shown (k : Kind) : ofName k.shown = k := by cases k <;> rfl

theorem document_eq_framed (a : Attribute) :
    ∃ content, a.document = framed a.name content ∧ content.head.1 = a.kind.shown.toList := by
  cases a with
  | deprecated => exact ⟨_, rfl, congrArg Prod.fst (head_word (by decide))⟩
  | synthetic => exact ⟨_, rfl, congrArg Prod.fst (head_word (by decide))⟩
  | other name payload =>
    refine ⟨byteCount payload, rfl, ?_⟩
    rw [byteCount_eq, head_quoted]
    rfl
  | _ => exact ⟨_, rfl, rfl⟩

theorem kind_eq_of_document_eq {a b : Attribute} (h : a.document = b.document) :
    a.kind = b.kind := by
  obtain ⟨content, ha, hshown⟩ := a.document_eq_framed
  obtain ⟨content', hb, hshown'⟩ := b.document_eq_framed
  rw [ha, hb, framed_inj] at h
  rw [h.2, hshown', String.toList_inj] at hshown
  rw [← a.kind.ofName_shown, ← hshown, Kind.ofName_shown]

/-- The kind of an attribute is seen from its outline. -/
def Outline.kind : Outline → Kind
  | deprecated _ => .deprecated
  | synthetic _ => .synthetic
  | sourceFile _ _ => .sourceFile
  | constantValue _ _ => .constantValue
  | signature _ _ => .signature
  | code _ _ _ => .code
  | other _ _ => .other

theorem kind_outline (a : Attribute) : a.outline.kind = a.kind := by cases a <;> rfl

mutual

/-- **A document tells the outline,** and nothing more. -/
theorem document_eq_iff (a b : Attribute) :
    a.document = b.document ↔ a.outline = b.outline := by
  by_cases hkind : a.kind = b.kind
  · cases a <;> cases b <;> cases hkind
    case code.code.refl name body attributes name' body' attributes' =>
      rw [document_code, document_code, framed_inj, outline, outline, Outline.code.injEq,
        ← documents_eq_iff attributes attributes']
      simp [Code.document_eq_iff, listed_inj]
    all_goals simp [document, framed_inj, outline, number_inj, byteCount_inj, UInt16.toNat_inj]
  · refine iff_of_false (fun h => hkind (kind_eq_of_document_eq h)) fun h => hkind ?_
    rw [← kind_outline, h, kind_outline]

theorem documents_eq_iff (as bs : List Attribute) :
    as.map document = bs.map document ↔ outlines as = outlines bs := by
  cases as with
  | nil => cases bs <;> simp [outlines]
  | cons a as =>
    cases bs with
    | nil => simp [outlines]
    | cons b bs =>
      rw [List.map_cons, List.map_cons, List.cons.injEq, outlines, outlines, List.cons.injEq,
        document_eq_iff a b, documents_eq_iff as bs]

end

/-! ### Texts -/

theorem readable_framed {name : UInt16} {content : Document} (h : Readable content) :
    Readable (framed name content) := by
  refine readable_record (by decide) (List.cons_ne_nil _ _) ?_
  simp only [List.forall_mem_cons]
  exact ⟨.labelled (by decide) (readable_number _), .labelled (by decide) h, by simp⟩

theorem readable_tuple {name : String} {item : Document} (hname : IsWord name)
    (h : Readable item) : Readable (group (.tuple name) [item]) :=
  .bracketed hname.forall_mem (absurd · (List.cons_ne_nil _ _)) (by simpa using h)

theorem readable_listed {members : List Document} (h : ∀ d ∈ members, Readable d) :
    Readable (listed members) :=
  readable_tuple (by decide) (readable_list h)

mutual

theorem readable_document : (a : Attribute) → Readable a.document
  | deprecated _ | synthetic _ => readable_framed (.word (by decide))
  | sourceFile _ _ | constantValue _ _ | signature _ _ =>
    readable_framed (readable_numbered (by decide) (by decide) _)
  | code name body attributes => by
    rw [document_code]
    have hlisted := readable_listed (List.forall_mem_map.2 (readable_documents attributes))
    exact readable_framed (readable_tuple (by decide) (Code.readable_document hlisted))
  | other _ payload => readable_framed (readable_byteCount payload)

theorem readable_documents : (attributes : List Attribute) →
    ∀ a ∈ attributes, Readable a.document
  | [] => by simp
  | a :: attributes =>
    List.forall_mem_cons.2 ⟨readable_document a, readable_documents attributes⟩

end

theorem readable_listDocument (attributes : List Attribute) :
    Readable (listDocument attributes) := by
  rw [listDocument_eq]
  exact readable_listed (List.forall_mem_map.2 (readable_documents attributes))

theorem listDocument_eq_iff (as bs : List Attribute) :
    listDocument as = listDocument bs ↔ as.map outline = bs.map outline := by
  rw [listDocument_eq, listDocument_eq, listed_inj, documents_eq_iff, outlines_eq_map,
    outlines_eq_map]

/-- **The debug text of attributes tells their outlines,** and nothing more, on one line and with
one item per line. -/
theorem text_tells_outlines (as bs : List Attribute) :
    ((listDocument as).compact = (listDocument bs).compact ↔ as.map outline = bs.map outline) ∧
    ((listDocument as).indented = (listDocument bs).indented ↔
      as.map outline = bs.map outline) := by
  have has := readable_listDocument as
  have hbs := readable_listDocument bs
  rw [has.compact_inj hbs, has.indented_inj hbs, listDocument_eq_iff]
  exact ⟨.rfl, .rfl⟩

end Attribute
end ClassFormat
