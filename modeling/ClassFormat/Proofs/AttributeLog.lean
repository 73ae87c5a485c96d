import ClassFormat.Proofs.PoolLog

/-!
# What is told of attributes

A line is made of an attribute when it has been read to its end, with its name and its length.  So
the lines of the attributes inside a method body come first, and then the line of the attribute that
the body is in: `Attribute.lines` goes through an attribute in this order, at every depth.

When reading breaks off inside an attribute, none of the attributes that it is inside of has come to
its end, so there is no line of any of them.  What has come to its end has its line: the attributes
in front of the one where it breaks off, and those in front of the method bodies that it is inside
of, at every depth.  `Attribute.BreaksOff` says for each place in an attribute what has been read
and what has been told by then, and `Attribute.leaves_decodeList` that there is nothing else.

## What is here

* `endLine` — the line of an attribute.  It has the text of its name and the number of bytes of its
  payload, which is the length that was declared (`line_attributeEnd`).
* `lines` and `linesOfAll` — the lines of an attribute and of a list.
* `BreaksOff` — the six places where an attribute can break off, one constructor for each: in its
  header, at its name, in a payload that is no code, in a method body in front of its attributes, in
  one of those, and behind everything, at its length.
* `ListBreaksOff` — some attributes that have come to their end, and then one that breaks off.
* `leaves_decodePayload`, `leaves_decodeFramed`, `leaves_decodeWith` and `leaves_decodeList` — the
  readers, from the inside out.
-/

set_option autoImplicit false

namespace ClassFormat

open Decoder

variable {n : Nat}

/-! ## Method bodies up to their attributes -/

theorem Handler.silent_decode : Silent Handler.decode :=
  .bind (.read .u16) fun _ => .bind (.read .u16) fun _ => .bind (.read .u16) fun _ =>
    .bind (.read .u16) fun _ => .pure _

theorem Code.silent_decodeFront : Silent decodeFront :=
  .bind (.read .u16) fun _ => .bind (.read .u16) fun _ => .bind (.read .u32) fun _ =>
    .bind (.read _) fun _ => .bind (.read .u16) fun _ =>
      .bind (Handler.silent_decode.times _) fun _ => .bind (.read .u16) fun _ => .pure _

namespace Attribute

/-! ## Lines -/

variable {pool : ConstantPool}

/-- The text of the name of an attribute, which is empty if there is none. -/
def nameIn (pool : ConstantPool) (a : Attribute) : String :=
  match pool.utf8 a.name with
  | .ok text => text
  | .error _ => ""

/-- The line of an attribute that has come to its end. -/
def endLine (pool : ConstantPool) (a : Attribute) : LogLine :=
  (.trace, "attribute " ++ nameIn pool a ++ " (" ++ toString a.payload.length ++ " bytes)")

mutual

/-- What is told of an attribute: those inside it, and then itself. -/
def lines (pool : ConstantPool) : Attribute → List LogLine
  | code name body attributes =>
    linesOfAll pool attributes ++ [endLine pool (code name body attributes)]
  | a => [endLine pool a]

/-- What is told of some attributes. -/
def linesOfAll (pool : ConstantPool) : List Attribute → List LogLine
  | [] => []
  | a :: attributes => lines pool a ++ linesOfAll pool attributes

end

theorem lines_eq (a : Attribute) : lines pool a = linesOfAll pool a.inside ++ [endLine pool a] := by
  cases a <;> rfl

theorem linesOfAll_eq_flatMap (attributes : List Attribute) :
    linesOfAll pool attributes = attributes.flatMap (lines pool) := by
  induction attributes with
  | nil => rfl
  | cons a attributes ih => rw [linesOfAll, ih, List.flatMap_cons]

/-! ## Places where an attribute breaks off

Each constructor has the bytes of what has broken off and the lines of what is inside it.  Of a
payload that has broken off only that it is not complete is said, and not where; the error, which is
a truncation, says that. -/

/-- Where an attribute breaks off, and what has been told by then of what is inside it.  Of itself
nothing has been told. -/
inductive BreaksOff (pool : ConstantPool) : Account FormatError
  /-- The index of its name or its length is cut short. -/
  | header {m : Shortage} {own : List UInt8} (hlength : own.length < 6) :
      BreaksOff pool (.truncated m) own []
  /-- Its name is no text. -/
  | name {name : UInt16} {declared : UInt32} {e : FormatError} (hname : pool.utf8 name = .error e) :
      BreaksOff pool e (header name declared) []
  /-- Its payload is cut short, and it is no code. -/
  | payload {m : Shortage} {name : UInt16} {declared : UInt32} {text : String} {own : List UInt8}
      (htext : pool.utf8 name = .ok text) (hkind : Kind.ofName text ≠ .code)
      (hown : ¬ (PayloadStoredAs (Fits pool) name declared (.ofName text)).CompleteIn own) :
      BreaksOff pool (.truncated m) (header name declared ++ own) []
  /-- It is code, and its method body is cut short in front of the attributes inside. -/
  | body {m : Shortage} {name : UInt16} {declared : UInt32} {own : List UInt8}
      (htext : pool.utf8 name = .ok "Code") (hown : ¬ Code.FrontStoredAs.CompleteIn own) :
      BreaksOff pool (.truncated m) (header name declared ++ own) []
  /-- It is code, and one of the attributes inside breaks off.  Those in front of that one have come
  to their end. -/
  | inside {name : UInt16} {declared : UInt32} {body : Code} {count : UInt16}
      {before : List Attribute} {own : List UInt8} {e : FormatError} {lines : List LogLine}
      (htext : pool.utf8 name = .ok "Code") (hbody : body.CountsFit)
      (hcount : before.length < count.toNat) (hbefore : EverywhereIn (Fits pool) before)
      (hown : BreaksOff pool e own lines) :
      BreaksOff pool e (header name declared ++ (body.encode ++ BigEndian.bytes 2 count.toNat ++
        (encodeAll before ++ own))) (linesOfAll pool before ++ lines)
  /-- It is complete, but not as long as it says.  Those inside it have come to their end. -/
  | length {a : Attribute} {declared : UInt32} {text : String}
      (htext : pool.utf8 a.name = .ok text) (hkind : Kind.ofName text = a.kind)
      (hcounts : a.CountsFit) (hinside : EverywhereIn (Fits pool) a.inside)
      (hlength : a.payload.length ≠ declared.toNat) :
      BreaksOff pool (.lengthMismatch text declared a.payload.length)
        (Attribute.header a.name declared ++ a.payload) (linesOfAll pool a.inside)

/-- Where a list of attributes breaks off: there are some that have come to their end, and then one
that breaks off. -/
inductive ListBreaksOff (pool : ConstantPool) (count : UInt16) : Account FormatError
  | behind {before : List Attribute} {own : List UInt8} {e : FormatError} {lines : List LogLine}
      (hcount : before.length < count.toNat) (hbefore : EverywhereIn (Fits pool) before)
      (hown : BreaksOff pool e own lines) :
      ListBreaksOff pool count e (encodeAll before ++ own) (linesOfAll pool before ++ lines)

end Attribute

section Inner

/-! What is told by the reader of the attributes inside a method body gives the same for the reader
of those around it. -/

variable {pool : ConstantPool} {inner : UInt16 → Decoder (List Attribute)}
  (hreads : ∀ count : UInt16, Reads n (inner count) (.exactly (fun as =>
    as.length = count.toNat ∧ Attribute.EverywhereIn (Attribute.Fits pool) as)
      Attribute.encodeAll))
  (hleaves : ∀ count : UInt16, Leaves n (inner count)
    (fun as _ lines => lines = Attribute.linesOfAll pool as) (Attribute.ListBreaksOff pool count))

namespace Attribute

variable {name : UInt16} {declared : UInt32} {text : String}

include hleaves in
theorem leaves_decodeCode (htext : pool.utf8 name = .ok "Code") : Leaves n (Code.decode inner)
    (fun p _ lines => lines = linesOfAll pool p.2)
    (fun e own => BreaksOff pool e (header name declared ++ own)) := by
  rw [Code.decode_eq]
  have hfront : Leaves n Code.decodeFront
      (fun p run lines => Code.FrontStoredAs p run ∧ lines = [])
      (fun e own => BreaksOff pool e (header name declared ++ own)) :=
    .of_silent_never Code.silent_decodeFront Code.reads_decodeFront Code.stopsBy_decodeFront
      fun m own => .body htext
  refine hfront.bind ?_
  rintro ⟨body, count⟩ _ _ ⟨⟨rfl, hbody⟩, rfl⟩
  refine .bind (((hleaves count).mono (Nat.sub_le _ _)).weaken_error ?_)
    fun attributes run lines hlines => .pure (by rw [List.append_nil]; exact hlines)
  rintro e _ _ ⟨hcount, hbefore, hown⟩
  exact .inside htext hbody hcount hbefore hown

theorem silent_decodePayload {kind : Kind} (hkind : kind ≠ .code) :
    Silent (decodePayload inner name declared kind) := by
  cases kind with
  | deprecated | synthetic => exact .pure _
  | sourceFile | constantValue | signature => exact .bind (.read .u16) fun _ => .pure _
  | code => exact absurd rfl hkind
  | other => exact .bind (.read _) fun _ => .pure _

/-- Only code has attributes inside. -/
theorem inside_of_kind_ne_code {a : Attribute} (h : a.kind ≠ .code) : a.inside = [] := by
  cases a <;> first | rfl | exact absurd rfl h

include hreads hleaves in
theorem leaves_decodePayload (htext : pool.utf8 name = .ok text) :
    Leaves n (decodePayload inner name declared (.ofName text))
      (fun a run lines => PayloadStoredAs (Fits pool) name declared (.ofName text) a run ∧
        lines = linesOfAll pool a.inside)
      (fun e own => BreaksOff pool e (header name declared ++ own)) := by
  have hpayload := reads_decodePayload hreads name declared (.ofName text)
  by_cases hkind : Kind.ofName text = .code
  · refine .reads ?_ hpayload
    obtain rfl : text = "Code" := (Kind.ofName_eq_iff (k := .code) rfl).1 hkind
    rw [hkind]
    refine (leaves_decodeCode hleaves htext).bind fun p run lines hlines => .pure ?_
    rw [List.append_nil]
    exact hlines
  · refine (Leaves.of_silent_never (silent_decodePayload hkind) hpayload
      (stopsBy_decodePayload_of_ne_code hkind) fun m own => .payload htext hkind).weaken ?_
        fun _ _ _ h => h
    rintro a run _ ⟨ha, rfl⟩
    have hother : a.kind ≠ .code := by rwa [ha.2.1.2]
    exact ⟨ha, by rw [inside_of_kind_ne_code hother]; rfl⟩

/-- The record of an attribute is its line. -/
theorem line_attributeEnd {a : Attribute} (htext : pool.utf8 a.name = .ok text)
    (hlength : a.payload.length = declared.toNat) :
    (LogRecord.attributeEnd text declared).line = endLine pool a := by
  have hname : nameIn pool a = text := by rw [nameIn, htext]
  rw [endLine, hname, hlength]
  rfl

include hreads hleaves in
/-- Behind a header that is in order, the payload may break off, or the length may be wrong. -/
theorem leaves_decodeFramed (htext : pool.utf8 name = .ok text) :
    Leaves n (decodeFramed inner name declared text)
      (fun a _ lines => lines = Attribute.lines pool a)
      (fun e own => BreaksOff pool e (header name declared ++ own)) := by
  refine (leaves_decodePayload hreads hleaves htext).measured.bind ?_
  rintro ⟨a, consumed⟩ run _ ⟨⟨⟨rfl, ⟨rfl, hkind⟩, ⟨hcounts, hinside⟩, -⟩, rfl⟩, hconsumed⟩
  obtain rfl : consumed = a.payload.length := hconsumed
  show Leaves _ (if a.payload.length = declared.toNat then _ else _) _ _
  by_cases heq : a.payload.length = declared.toNat
  · rw [if_pos heq]
    refine .record_bind rfl (.pure ?_)
    rw [lines_eq, line_attributeEnd htext heq]
  · rw [if_neg heq]
    refine .throw ?_
    rw [List.append_nil, List.append_nil]
    exact .length htext hkind.symm hcounts hinside heq

include hreads hleaves in
/-- An attribute that is read has its lines, and one that breaks off has none of its own. -/
theorem leaves_decodeWith : Leaves (n + 1) (decodeWith inner pool)
    (fun a run lines => Format.exactly (Everywhere (Fits pool)) encode a run ∧
      lines = Attribute.lines pool a) (BreaksOff pool) := by
  refine .reads ?_ (reads_decodeWith hreads)
  refine .u16_bind (fun m => .header (by decide)) fun name => ?_
  refine .u32_bind (fun m => .header (by simp [BigEndian.length_bytes])) fun declared => ?_
  refine .lift_bind (fun e hname => ?_) fun text htext => ?_
  · simpa only [header, List.append_nil] using BreaksOff.name hname
  refine ((leaves_decodeFramed hreads hleaves htext).mono (by omega)).weaken_error
    fun e own lines h => ?_
  simpa only [header, List.append_assoc] using h

end Attribute
end Inner

namespace Attribute

variable {pool : ConstantPool}

/-- **What is told of some attributes are their lines, inner ones first.**  Where they break off, it
is what belongs to those that have come to their end, at every depth. -/
theorem leaves_decodeList (pool : ConstantPool) (room : Nat) (count : UInt16) :
    Leaves room (decodeList pool room count) (fun as _ lines => lines = linesOfAll pool as)
      (ListBreaksOff pool count) := by
  induction room generalizing count with
  | zero => exact fun s hs => absurd hs (Nat.not_lt_zero _)
  | succ room ih =>
    have hreads (count : UInt16) := reads_decodeList pool room count
    refine ((leaves_decodeWith hreads ih).times ?_).weaken ?_ fun _ _ _ h => h
    · intro before front e own lines hcount hfront hown
      obtain ⟨rfl, hbefore⟩ := Format.repeated_exactly.1 hfront
      rw [← encodeAll_eq_flatMap, ← linesOfAll_eq_flatMap]
      exact .behind hcount (everywhereIn_iff.2 hbefore) hown
    · rintro as run _ ⟨-, rfl⟩
      rw [linesOfAll_eq_flatMap]

end Attribute
end ClassFormat
