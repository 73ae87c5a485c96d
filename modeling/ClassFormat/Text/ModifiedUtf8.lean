import ClassFormat.Text.CodeUnit

/-!
# The two spellings of a text

A class file stores text as *modified* UTF-8: each UTF-16 code unit is written on its own, in one to
three bytes, and the unit zero takes two bytes so that no byte of a text is ever zero.  So a
character above U+FFFF becomes two runs of three bytes, one for each half of its surrogate pair.

Plain UTF-8 is accepted too.  `decode` first tries a run of bytes as *standard* UTF-8, the whole of
it, and only if that fails as modified UTF-8, again the whole of it; a run that mixes what only the
one has with what only the other has is no text at all.  `standard` and `modified` write the two
spellings.

## Whose reader this is

The reader of constants does not spell out texts by itself.  It hands their bytes to a reader of the
two spellings that comes from outside, and `decode` stands for that reader.  What is known of it is
how it behaves: a run that is the standard spelling of a text is read as that text, and a run that
is no standard spelling is read as a text exactly if it is the modified spelling of it.  There is
only one function that behaves so, and it is `decode`: these two properties are
`ModifiedUtf8.ReadsBoth` in `ClassFormat.Proofs.TextSpellings`, `readsBoth_decode` says that
`decode` has them, and `ModifiedUtf8.eq_decode` that whatever has them is `decode`.  So every
statement about the readers of this library holds of them with any such reader in its place.

## What is here

* `unitBytes` — a code unit in one to three bytes, by its size.
* `modified` and `standard` — a text in the one spelling and in the other.
* `units?` — the code units of a run.  At each byte it tries one byte, then two, then three; a form
  that is longer than its unit needs is refused (`two?`, `three?`), but for that of zero.
* `decodeModified` — the units of a run, put together to characters by `CodeUnit.chars?`.
* `decodeStandard` — the reading as UTF-8, and `decodeStandard_eq_some_iff`, which says that it
  undoes `standard` and nothing else.
* `decode` — the one and then the other.
-/

set_option autoImplicit false

namespace ClassFormat
namespace ModifiedUtf8

/-! ## Writing -/

/-- A code unit in one to three bytes; zero takes two. -/
def unitBytes (u : Nat) : List UInt8 :=
  if 0 < u ∧ u < 0x80 then
    [UInt8.ofNat u]
  else if u < 0x800 then
    [UInt8.ofNat (0xC0 + u / 0x40), UInt8.ofNat (0x80 + u % 0x40)]
  else
    [UInt8.ofNat (0xE0 + u / 0x1000), UInt8.ofNat (0x80 + u / 0x40 % 0x40),
      UInt8.ofNat (0x80 + u % 0x40)]

/-- The modified spelling of a text. -/
def modified (text : String) : List UInt8 :=
  text.toList.flatMap fun c => (CodeUnit.ofChar c).flatMap unitBytes

/-- The standard spelling of a text. -/
def standard (text : String) : List UInt8 :=
  text.toList.flatMap String.utf8EncodeChar

/-! ## Reading -/

/-- A byte that continues a code unit. -/
def isTail (b : UInt8) : Bool := 0x80 ≤ b && b ≤ 0xBF

/-- The unit written in two bytes: zero, or what does not fit in one byte. -/
def two? (a b : UInt8) : Option Nat :=
  let u := (a.toNat - 0xC0) * 0x40 + (b.toNat - 0x80)
  if 0xC0 ≤ a ∧ a ≤ 0xDF ∧ isTail b ∧ (u = 0 ∨ 0x80 ≤ u) then some u else none

/-- The unit written in three bytes: what does not fit in two. -/
def three? (a b c : UInt8) : Option Nat :=
  let u := (a.toNat - 0xE0) * 0x1000 + (b.toNat - 0x80) * 0x40 + (c.toNat - 0x80)
  if 0xE0 ≤ a ∧ a ≤ 0xEF ∧ isTail b ∧ isTail c ∧ 0x800 ≤ u then some u else none

/-- The code units that a run of bytes is made of, behind those already found. -/
def unitsOnto (found : List Nat) : List UInt8 → Option (List Nat)
  | [] => some found.reverse
  | a :: rest =>
    if 0 < a ∧ a < 0x80 then
      unitsOnto (a.toNat :: found) rest
    else
      match rest with
      | [] => none
      | b :: rest =>
        match two? a b with
        | some u => unitsOnto (u :: found) rest
        | none =>
          match rest with
          | [] => none
          | c :: rest =>
            match three? a b c with
            | some u => unitsOnto (u :: found) rest
            | none => none

/-- The code units that a run of bytes is made of; none if some of them belong to no unit. -/
def units? (bytes : List UInt8) : Option (List Nat) := unitsOnto [] bytes

/-- The text whose modified spelling a run of bytes is. -/
def decodeModified (bytes : List UInt8) : Option String :=
  (units? bytes).bind fun units => (CodeUnit.chars? units).map String.ofList

/-- The text whose standard spelling a run of bytes is. -/
def decodeStandard (bytes : List UInt8) : Option String :=
  String.fromUTF8? bytes.toByteArray

/-- The text that a run of bytes spells, in the standard way or else in the modified one. -/
def decode (bytes : List UInt8) : Option String :=
  match decodeStandard bytes with
  | some text => some text
  | none => decodeModified bytes

/-! ## The standard spelling -/

theorem toByteArray_standard (text : String) : (standard text).toByteArray = text.toByteArray := by
  have h : text.toList.utf8Encode = text.toByteArray := by
    rw [← String.toByteArray_ofList, String.ofList_toList]
  exact h

/-- **A run of bytes has a standard reading exactly when it is the standard spelling of it.** -/
theorem decodeStandard_eq_some_iff {bytes : List UInt8} {text : String} :
    decodeStandard bytes = some text ↔ bytes = standard text := by
  rw [decodeStandard, String.fromUTF8?]
  constructor
  · intro h
    split at h
    · rename_i hvalid
      have htext : bytes.toByteArray = text.toByteArray :=
        congrArg String.toByteArray (Option.some.inj h)
      rw [← toByteArray_standard] at htext
      simpa using congrArg (fun b => b.data.toList) htext
    · cases h
  · rintro rfl
    rw [toByteArray_standard, dif_pos text.isValidUTF8]
    rfl

theorem decode_standard (text : String) : decode (standard text) = some text := by
  rw [decode, decodeStandard_eq_some_iff.2 rfl]

end ModifiedUtf8
end ClassFormat
