import ClassFormat.Proofs.Sequential
import ClassFormat.Session

/-!
# The readers of a class file are sequential

Every reader, from a constant to the body of a class file, is put together from sequential steps.
The errors that a reader makes itself are never truncations: an unknown tag, bytes that spell no
text, an index that leads nowhere or to the wrong kind, a wrong length, a wrong magic number.

The readers of attributes and of whole class files do one thing more: they ask how many bytes are
ahead, for the room that nesting may take and for the record of what is left over.  `Counting`
describes them too, and `Request.counting_decoder` says that nothing else can be asked for.

* `Code.decodeFront` is the part of a method body in front of its attributes.  It is brought out
  here because what holds of a method body often holds of this part for a simpler reason than of the
  rest.
* `Attribute.sequential_decodeList` is an induction on the room for nesting: readers of attributes
  are sequential whatever they are given for the attributes inside, provided that this is.
* `Counting` is a relation of its own and not a constructor of `Sequential`, since a reader that
  counts what is ahead is not simulated by its run on a longer buffer.
-/

set_option autoImplicit false

namespace ClassFormat

open Decoder

/-! ## Constants and the pool -/

namespace Constant

theorem sequential_decodeText (index : UInt16) : Sequential (decodeText index) := by
  refine .bind (.read .u16) fun length => .bind (.read _) fun spelling => ?_
  split
  · exact .pure _
  · exact .throw fun m h => by cases h

theorem sequential_decodeIndex (make : UInt16 → Constant) : Sequential (decodeIndex make) :=
  .bind (.read .u16) fun a => .pure (make a)

theorem sequential_decodeIndices (make : UInt16 → UInt16 → Constant) :
    Sequential (decodeIndices make) :=
  .bind (.read .u16) fun a => .bind (.read .u16) fun b => .pure (make a b)

theorem sequential_decodeContent (index : UInt16) (kind : Kind) :
    Sequential (decodeContent index kind) := by
  cases kind with
  | utf8 => exact sequential_decodeText index
  | integer => exact .bind (.read .i32) fun value => .pure _
  | float => exact .bind (.read .u32) fun bits => .pure _
  | long => exact .bind (.read .i64) fun value => .pure _
  | double => exact .bind (.read .u64) fun bits => .pure _
  | methodHandle => exact .bind (.read .u8) fun kind => .bind (.read .u16) fun index => .pure _
  | classRef | stringRef | methodType | moduleRef | packageRef => exact sequential_decodeIndex _
  | fieldRef | methodRef | interfaceMethodRef | nameAndType | dynamic | invokeDynamic =>
    exact sequential_decodeIndices _

theorem sequential_decode (index : UInt16) : Sequential (decode index) := by
  refine .bind (.read .u8) fun tag => ?_
  split
  · exact sequential_decodeContent index _
  · exact .throw fun m h => by cases h

end Constant

namespace ConstantPool

theorem sequential_decodeSlots : (room : Nat) → (slots : Array (Option Constant)) →
    Sequential (decodeSlots room slots)
  | 0, slots => .pure slots
  | room + 1, slots => by
    rw [decodeSlots]
    refine .bind (Constant.sequential_decode _) fun c => .bind (.record _) fun _ => ?_
    split
    · cases room with
      | zero => exact .pure _
      | succ room => exact sequential_decodeSlots room _
    · exact sequential_decodeSlots room _

theorem sequential_decode : Sequential decode :=
  .bind (.read .u16) fun _ => .bind (.record _) fun _ =>
    .bind (sequential_decodeSlots _ _) fun _ => .pure _

/-- A failing look-up of a text is no truncation. -/
theorem utf8_ne_truncated {pool : ConstantPool} {index : UInt16} :
    ¬ IsTruncation (pool.utf8 index) := by
  rintro ⟨m, h⟩
  obtain hget | ⟨found, -, -, h⟩ := utf8_eq_error_iff.1 h
  · cases (get_eq_error_iff.1 hget).2
  · cases h

end ConstantPool

/-! ## Attributes -/

theorem Handler.sequential_decode : Sequential Handler.decode :=
  .bind (.read .u16) fun _ => .bind (.read .u16) fun _ => .bind (.read .u16) fun _ =>
    .bind (.read .u16) fun _ => .pure _

namespace Code

/-- Reads a method body up to its attributes, and their number. -/
def decodeFront : Decoder (Code × UInt16) := do
  let maxStack ← u16
  let maxLocals ← u16
  let length ← u32
  let bytecode ← bytes length.toNat
  let handlerCount ← u16
  let handlers ← times handlerCount.toNat Handler.decode
  let attributeCount ← u16
  pure ({ maxStack, maxLocals, bytecode, handlers }, attributeCount)

/-- The attributes inside a method body are all that is read with the reader that is given. -/
theorem decode_eq (inner : UInt16 → Decoder (List Attribute)) : Code.decode inner = (do
    let front ← decodeFront
    let attributes ← inner front.2
    pure (front.1, attributes)) := by
  simp only [Code.decode, decodeFront, bind_assoc, pure_bind]

theorem sequential_decodeFront : Sequential decodeFront :=
  .bind (.read .u16) fun _ => .bind (.read .u16) fun _ => .bind (.read .u32) fun _ =>
    .bind (.read _) fun _ => .bind (.read .u16) fun _ =>
      .bind (Handler.sequential_decode.times _) fun _ => .bind (.read .u16) fun _ => .pure _

theorem sequential_decode {inner : UInt16 → Decoder (List Attribute)}
    (hinner : ∀ count, Sequential (inner count)) : Sequential (Code.decode inner) := by
  rw [decode_eq]
  exact .bind sequential_decodeFront fun _ => .bind (hinner _) fun _ => .pure _

end Code

namespace Attribute

theorem sequential_decodePayload {inner : UInt16 → Decoder (List Attribute)}
    (hinner : ∀ count, Sequential (inner count)) (name : UInt16) (declared : UInt32)
    (kind : Kind) : Sequential (decodePayload inner name declared kind) := by
  cases kind with
  | deprecated => exact .pure _
  | synthetic => exact .pure _
  | sourceFile | constantValue | signature => exact .bind (.read .u16) fun _ => .pure _
  | code => exact .bind (Code.sequential_decode hinner) fun _ => .pure _
  | other => exact .bind (.read _) fun _ => .pure _

theorem sequential_decodeWith {inner : UInt16 → Decoder (List Attribute)}
    (hinner : ∀ count, Sequential (inner count)) (pool : ConstantPool) :
    Sequential (decodeWith inner pool) := by
  refine .bind (.read .u16) fun name => .bind (.read .u32) fun declared =>
    .bind (.lift ConstantPool.utf8_ne_truncated) fun text =>
      .bind (.measured (sequential_decodePayload hinner _ _ _)) fun ⟨a, consumed⟩ => ?_
  show Sequential (if consumed = declared.toNat then _ else _)
  split
  · exact .bind (.record _) fun _ => .pure _
  · exact .throw fun m h => by cases h

theorem sequential_decodeList (pool : ConstantPool) (room : Nat) (count : UInt16) :
    Sequential (decodeList pool room count) := by
  induction room generalizing count with
  | zero => exact .pure []
  | succ room ih => exact (sequential_decodeWith ih pool).times _

end Attribute

/-! ## Class files -/

theorem Member.sequential_decode (pool : ConstantPool) (room : Nat) :
    Sequential (Member.decode pool room) :=
  .bind (.read .u16) fun _ => .bind (.read .u16) fun _ => .bind (.read .u16) fun _ =>
    .bind (.read .u16) fun _ => .bind (Attribute.sequential_decodeList _ _ _) fun _ => .pure _

theorem Member.sequential_decodeCounted (pool : ConstantPool) (room : Nat)
    (message : UInt16 → LogRecord) : Sequential (Member.decodeCounted pool room message) :=
  .bind (.read .u16) fun _ => .bind (.record _) fun _ =>
    (Member.sequential_decode pool room).times _

namespace ClassFile

theorem sequential_decodeMagic : Sequential decodeMagic := by
  refine .bind (.read .u32) fun found => ?_
  split
  · exact .pure ()
  · exact .throw fun m h => by cases h

theorem sequential_decodeBody (minorVersion majorVersion : UInt16) (pool : ConstantPool)
    (room : Nat) : Sequential (decodeBody minorVersion majorVersion pool room) :=
  .bind (.read .u16) fun _ => .bind (.read .u16) fun _ => .bind (.read .u16) fun _ =>
    .bind (.read .u16) fun _ => .bind (.read _) fun _ =>
      .bind (Member.sequential_decodeCounted _ _ _) fun _ =>
        .bind (Member.sequential_decodeCounted _ _ _) fun _ =>
          .bind (.read .u16) fun _ => .bind (Attribute.sequential_decodeList _ _ _) fun _ => .pure _

end ClassFile

/-! ## Readers that ask how much is ahead

A property of all sequential decoders carries over to these if it holds of the count itself and of
two decoders in a row.  That is so for staying in range and for being independent of the start, and
it is not so for the simulation. -/

/-- The decoders that are put together from sequential ones and from counts of the bytes ahead. -/
inductive Decoder.Counting : {α : Type} → Decoder α → Prop
  | sequential {α : Type} {d : Decoder α} (hd : Sequential d) : Counting d
  | remaining : Counting Decoder.remaining
  | bind {α β : Type} {d : Decoder α} {f : α → Decoder β} (hd : Counting d)
      (hf : ∀ x, Counting (f x)) : Counting (d >>= f)

theorem Attribute.counting_nestingRoom : Counting nestingRoom :=
  .bind .remaining fun left => .sequential (.pure (left + 1))

theorem Attribute.counting_decode (pool : ConstantPool) (count : UInt16) :
    Counting (decode pool count) :=
  .bind counting_nestingRoom fun room => .sequential (sequential_decodeList pool room count)

theorem ClassFile.counting_recordTrailing : Counting recordTrailing := by
  refine .bind .remaining fun left => .sequential ?_
  split
  · exact .record _
  · exact .pure ()

theorem ClassFile.counting_decode : Counting decode :=
  .bind (.sequential sequential_decodeMagic) fun _ => .bind (.sequential (.read .u16)) fun _ =>
    .bind (.sequential (.read .u16)) fun _ => .bind (.sequential (.record _)) fun _ =>
      .bind (.sequential ConstantPool.sequential_decode) fun pool =>
        .bind Attribute.counting_nestingRoom fun room =>
          .bind (.sequential (sequential_decodeBody _ _ pool room)) fun c =>
            .bind counting_recordTrailing fun _ => .sequential (.pure c)

/-- **Whatever can be asked for is read from front to back,** up to counts of the bytes ahead. -/
theorem Request.counting_decoder (request : Request) : Counting request.decoder := by
  cases request with
  | read r => exact .sequential (.bind (.read r) fun x => .pure _)
  | pool => exact .sequential (.bind ConstantPool.sequential_decode fun pool => .pure _)
  | attributes names count =>
    exact .bind (Attribute.counting_decode names count) fun found => .sequential (.pure _)
  | classFile => exact .bind ClassFile.counting_decode fun c => .sequential (.pure _)

end ClassFormat
