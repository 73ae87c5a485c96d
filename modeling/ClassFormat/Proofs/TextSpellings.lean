import ClassFormat.Proofs.ConstantFormat
import Mathlib.Data.List.Chain

/-!
# The spellings of a text constant

A text constant holds a run of bytes that spells a text, in the standard way or in the modified one.
`text_spellings` says what is read for every run that can be stored: the text that the run spells,
in either way, and an error with the index of the constant if it spells none.

A character that is not plain has a form of its own in each spelling.  The forms can be told apart
by few bytes: in a modified spelling no byte is zero, and none is so great that it starts four bytes
(`of_mem_modified`); in a standard spelling no byte is 0xC0, and a byte 0xED is followed by one
below 0xA0, so that it starts no surrogate (`isChain_standard`).  So a run in which forms of both
kinds occur, anywhere and for any characters, spells nothing.

## What is here

* `ModifiedUtf8.Spells` — that a run spells a text, without regard to how it is read.
* `ModifiedUtf8.ReadsBoth` — what is known of a reader of texts that takes both spellings: it tries
  the standard one on the whole of a run, and only if that fails the modified one, on the whole of
  it again.  `ModifiedUtf8.decode` is such a reader (`readsBoth_decode`), and there is no other one
  (`eq_decode`).
* `Constant.textFound` — what becomes of a run in the hands of a reader of texts.
* `Constant.IsTextOutcome` — what `text_spellings` says of an outcome.  Its first field says that
  any reader of both spellings comes to it, so the statement is not about the one that is written
  here; the others are stated by the spellings alone.
* `Constant.text_spellings` — wherever the constant stands and whatever index it is to have.
-/

set_option autoImplicit false

namespace ClassFormat
namespace ModifiedUtf8

/-! ## Spellings -/

/-- Whether a run of bytes spells a text, in the standard way or in the modified one. -/
def Spells (w : List UInt8) (text : String) : Prop := w = standard text ∨ w = modified text

variable {w : List UInt8} {text : String} {read : List UInt8 → Option String}

/-- **No run of bytes spells two texts.** -/
theorem Spells.unique {text' : String} (h : Spells w text) (h' : Spells w text') :
    text = text' := by
  have htext := decode_eq_some_iff.2 h
  rw [decode_eq_some_iff.2 h'] at htext
  exact (Option.some.inj htext).symm

/-- Whether a reader of texts tries both spellings, each on the whole of a run. -/
structure ReadsBoth (read : List UInt8 → Option String) : Prop where
  /-- A standard spelling is read as what it spells, -/
  of_standard : ∀ text, read (standard text) = some text
  /-- and what is no standard spelling is read as a modified one. -/
  of_modified : ∀ w, (∀ text, w ≠ standard text) → ∀ text, read w = some text ↔ w = modified text

theorem readsBoth_decode : ReadsBoth decode where
  of_standard := decode_standard
  of_modified _ hnot text := by rw [decode_eq_some_iff, or_iff_right (hnot text)]

/-- **There is only one reader of both spellings.** -/
theorem eq_decode (h : ReadsBoth read) : read = decode := by
  funext w
  refine Option.ext fun text => ?_
  by_cases hw : ∃ other, w = standard other
  · obtain ⟨other, rfl⟩ := hw
    rw [h.of_standard, decode_standard]
  · have hnot : ∀ text, w ≠ standard text := fun text htext => hw ⟨text, htext⟩
    rw [h.of_modified w hnot, readsBoth_decode.of_modified w hnot]

theorem ReadsBoth.eq_some_iff (h : ReadsBoth read) : read w = some text ↔ Spells w text := by
  rw [eq_decode h, decode_eq_some_iff, Spells]

/-! ## Forms that only one spelling has

Each of the two forms starts with a byte, or with two of them, that stand nowhere in a spelling of
the other sort: `not_within_modified` and `not_within_standard`.  So nothing has to be known of what
is around a form, and none has to be found at the place where a character starts. -/

theorem of_mem_unitBytes {u : Nat} (hu : u < 0x10000) {b : UInt8} (h : b ∈ unitBytes u) :
    0 < b.toNat ∧ b.toNat < 0xF0 := by
  rw [unitBytes] at h
  split at h
  · obtain rfl := List.mem_singleton.1 h
    rw [toNat_ofNat (by omega)]
    omega
  · split at h
    all_goals
      simp only [List.mem_cons, List.not_mem_nil, or_false] at h
      rcases h with rfl | rfl | rfl
      all_goals
        rw [toNat_ofNat (by omega)]
        omega

/-- A modified spelling has no byte zero and no byte that starts four bytes. -/
theorem of_mem_modified {b : UInt8} (h : b ∈ modified text) : 0 < b.toNat ∧ b.toNat < 0xF0 := by
  obtain ⟨c, -, hc⟩ := List.mem_flatMap.1 h
  obtain ⟨u, hu, hb⟩ := List.mem_flatMap.1 hc
  exact of_mem_unitBytes (CodeUnit.lt_of_mem_ofChar hu) hb

theorem utf8EncodeChar_of_not_isPlain {c : Char} (hc : ¬ IsPlain c) :
    ∃ b rest, String.utf8EncodeChar c = b :: rest ∧ (b.toNat = 0 ∨ 0xF0 ≤ b.toNat) := by
  have hvalid : c.toNat < 0xD800 ∨ 0xDFFF < c.toNat ∧ c.toNat < 0x110000 := c.valid
  have hval : c.val.toNat = c.toNat := rfl
  rw [IsPlain] at hc
  simp only [String.utf8EncodeChar, hval]
  by_cases hzero : c.toNat = 0
  · exact ⟨0, [], by simp [hzero], .inl rfl⟩
  · rw [if_neg (by omega), if_neg (by omega), if_neg (by omega)]
    refine ⟨_, _, rfl, .inr ?_⟩
    rw [toNat_ofNat (by omega)]
    omega

/-- The standard form of a character that is not plain is nowhere in a modified spelling. -/
theorem not_within_modified {c : Char} (hc : ¬ IsPlain c) :
    ¬ String.utf8EncodeChar c <:+: modified text := by
  intro h
  obtain ⟨b, rest, hform, hb⟩ := utf8EncodeChar_of_not_isPlain hc
  have hmem : b ∈ modified text := h.subset (by simp [hform])
  have := of_mem_modified hmem
  omega

/-- Whether two bytes can stand one behind the other in a standard spelling; this is only as much as
it takes to tell the modified forms. -/
def MayFollow (a b : UInt8) : Prop := a.toNat ≠ 0xC0 ∧ (a.toNat = 0xED → b.toNat < 0xA0)

theorem mayFollow_of_lt {a b : UInt8} (ha : a.toNat < 0xC0) : MayFollow a b :=
  ⟨by omega, fun h => by omega⟩

theorem isChain_utf8EncodeChar (c : Char) : (String.utf8EncodeChar c).IsChain MayFollow := by
  have hvalid : c.toNat < 0xD800 ∨ 0xDFFF < c.toNat ∧ c.toNat < 0x110000 := c.valid
  have hval : c.val.toNat = c.toNat := rfl
  simp only [String.utf8EncodeChar, hval]
  repeat' split
  · exact .singleton _
  all_goals
    simp (disch := omega) only [List.isChain_cons_cons, List.isChain_singleton, and_true,
      MayFollow, toNat_ofNat]
    omega

theorem lt_of_mem_getLast?_utf8EncodeChar {c : Char} {b : UInt8}
    (h : b ∈ (String.utf8EncodeChar c).getLast?) : b.toNat < 0xC0 := by
  simp only [String.utf8EncodeChar] at h
  repeat' split at h
  all_goals
    simp only [List.getLast?_cons_cons, List.getLast?_singleton, Option.mem_some_iff] at h
    rw [← h, toNat_ofNat (by omega)]
    omega

/-- **In a standard spelling there is no byte 0xC0,** and a byte 0xED starts no surrogate. -/
theorem isChain_standard (chars : List Char) :
    (chars.flatMap String.utf8EncodeChar).IsChain MayFollow := by
  induction chars with
  | nil => exact .nil
  | cons c chars ih =>
    rw [List.flatMap_cons, List.isChain_append]
    exact ⟨isChain_utf8EncodeChar c, ih, fun a ha b _ =>
      mayFollow_of_lt (lt_of_mem_getLast?_utf8EncodeChar ha)⟩

/-- The modified form of a character that is not plain starts with the byte 0xC0 or with a
surrogate. -/
theorem flatMap_unitBytes_of_not_isPlain {c : Char} (hc : ¬ IsPlain c) :
    ∃ a b rest, (CodeUnit.ofChar c).flatMap unitBytes = a :: b :: rest ∧ ¬ MayFollow a b := by
  have hvalid : c.toNat < 0xD800 ∨ 0xDFFF < c.toNat ∧ c.toNat < 0x110000 := c.valid
  rw [IsPlain] at hc
  rw [CodeUnit.ofChar]
  by_cases hzero : c.toNat = 0
  · rw [hzero]
    exact ⟨0xC0, 0x80, [], rfl, fun h => h.1 rfl⟩
  · obtain ⟨high, hhigh⟩ : ∃ high, 0xD800 + (c.toNat - 0x10000) / 0x400 = high := ⟨_, rfl⟩
    rw [if_neg (by omega), hhigh, List.flatMap_cons, unitBytes, if_neg (by omega),
      if_neg (by omega)]
    refine ⟨_, _, _, rfl, fun h => ?_⟩
    have hsecond := h.2
    rw [toNat_ofNat (by omega), toNat_ofNat (by omega)] at hsecond
    omega

/-- The modified form of a character that is not plain is nowhere in a standard spelling. -/
theorem not_within_standard {c : Char} (hc : ¬ IsPlain c) :
    ¬ (CodeUnit.ofChar c).flatMap unitBytes <:+: standard text := by
  rintro ⟨front, back, h⟩
  obtain ⟨a, b, rest, hform, hab⟩ := flatMap_unitBytes_of_not_isPlain hc
  have hchain : (front ++ (CodeUnit.ofChar c).flatMap unitBytes ++ back).IsChain MayFollow :=
    h ▸ isChain_standard text.toList
  have hpart := hchain.left_of_append.right_of_append
  rw [hform, List.isChain_cons_cons] at hpart
  exact hab hpart.1

/-- **A run that mixes forms of both kinds spells nothing.** -/
theorem not_spells_of_mixed {c d : Char} (hc : ¬ IsPlain c) (hd : ¬ IsPlain d)
    (hstandard : String.utf8EncodeChar c <:+: w)
    (hmodified : (CodeUnit.ofChar d).flatMap unitBytes <:+: w) : ¬ Spells w text := by
  rintro (rfl | rfl)
  · exact not_within_standard hd hmodified
  · exact not_within_modified hc hstandard

end ModifiedUtf8

/-! ## The stored form of a text -/

namespace Constant

open ModifiedUtf8 Decoder

/-- The stored form of a text constant with a spelling: its tag, and the spelling behind its
length. -/
def textEntry (w : List UInt8) : List UInt8 := 0x01 :: (BigEndian.bytes 2 w.length ++ w)

/-- What becomes of a spelling in the constant with an index, by a reader of texts. -/
def textFound (read : List UInt8 → Option String) (index : UInt16) (w : List UInt8) :
    Except FormatError Constant :=
  match read w with
  | some text => .ok (utf8 text)
  | none => .error (.invalidText index)

variable {read : List UInt8 → Option String} {index : UInt16} {w : List UInt8} {text : String}

/-- A text is read whole, whether it can be spelled out or not. -/
theorem run_decode_textEntry (hread : ReadsBoth read) (hw : w.length ≤ 65535) {s : Progress}
    {c : Cursor} (h : s.cursor.Passes (textEntry w) c) :
    (decode index).run s = (textFound read index w, { s with cursor := c }) := by
  rw [textEntry, ← List.singleton_append] at h
  obtain ⟨c₁, htag, hcontent⟩ := h.split
  obtain ⟨c₂, hlength, hspelling⟩ := hcontent.split
  have htoNat : (UInt16.ofNat w.length).toNat = w.length :=
    UInt16.toNat_ofNat_of_lt' (Nat.lt_succ_of_le hw)
  rw [← htoNat] at hlength
  have htagRun : u8.run s = (.ok 0x01, { s with cursor := c₁ }) := run_read_of_passes htag rfl
  have hlengthRun : u16.run { s with cursor := c₁ } =
      (.ok (.ofNat w.length), { s with cursor := c₂ }) := run_u16_of_passes hlength
  have hspellingRun : (bytes (UInt16.ofNat w.length).toNat).run { s with cursor := c₂ } =
      (.ok w, { s with cursor := c }) := run_read_of_passes hspelling htoNat.symm
  rw [decode, run_bind_of_ok htagRun]
  show (decodeText index).run _ = _
  rw [decodeText, run_bind_of_ok hlengthRun, run_bind_of_ok hspellingRun, eq_decode hread,
    textFound]
  cases ModifiedUtf8.decode w <;> rfl

theorem textFound_eq_ok_iff (hread : ReadsBoth read) :
    textFound read index w = .ok (utf8 text) ↔ Spells w text := by
  rw [← hread.eq_some_iff, textFound]
  cases read w <;> simp

theorem textFound_eq_error_iff (hread : ReadsBoth read) :
    textFound read index w = .error (.invalidText index) ↔ ∀ text, ¬ Spells w text := by
  simp only [← hread.eq_some_iff, ← Option.eq_none_iff_forall_ne_some, textFound]
  cases read w <;> simp

/-- What holds of the outcome of reading a text constant with a spelling. -/
structure IsTextOutcome (index : UInt16) (w : List UInt8) (r : Except FormatError Constant) :
    Prop where
  /-- Every reader of both spellings comes to it. -/
  agreed : ∀ read, ReadsBoth read → r = textFound read index w
  /-- The text that is found is the one that is spelled, in either way, -/
  found : ∀ text, r = .ok (utf8 text) ↔ Spells w text
  /-- and what spells no text is refused, under the index of the constant. -/
  refused : r = .error (.invalidText index) ↔ ∀ text, ¬ Spells w text
  /-- Nothing spells two texts. -/
  unique : ∀ text text', Spells w text → Spells w text' → text = text'
  /-- What the writer makes of a text is read as that text. -/
  written : ∀ text, w = modified text →
    (utf8 text).encode = textEntry w ∧ r = .ok (utf8 text)
  /-- A text of plain characters has no second spelling. -/
  plain : ∀ text w', (∀ c ∈ text.toList, ModifiedUtf8.IsPlain c) → Spells w text →
    Spells w' text → w' = w
  /-- What mixes forms that only the standard spelling has with forms that only the modified one
  has is refused. -/
  mixed : ∀ c d : Char, ¬ ModifiedUtf8.IsPlain c → ¬ ModifiedUtf8.IsPlain d →
    String.utf8EncodeChar c <:+: w →
    (CodeUnit.ofChar d).flatMap unitBytes <:+: w → r = .error (.invalidText index)

/-- The order in which the two readings are tried makes no difference to any of this. -/
theorem isTextOutcome_textFound (hread : ReadsBoth read) :
    IsTextOutcome index w (textFound read index w) where
  agreed other hother := by rw [eq_decode hread, eq_decode hother]
  found _ := textFound_eq_ok_iff hread
  refused := textFound_eq_error_iff hread
  unique _ _ := Spells.unique
  written text hw := ⟨by rw [hw]; rfl, (textFound_eq_ok_iff hread).2 (.inr hw)⟩
  plain text w' hplain h h' := by
    rw [Spells, standard_eq_modified hplain, or_self] at h h'
    rw [h, h']
  mixed _ _ hc hd hstandard hmodified :=
    (textFound_eq_error_iff hread).2 fun _ => not_spells_of_mixed hc hd hstandard hmodified

/-- **A text constant has just the two spellings of its text.**  Wherever it stands, under whatever
index and in front of whatever bytes, a text constant of at most 65535 bytes is read to its end, and
the outcome is the text that its bytes spell or the error that they spell none. -/
theorem text_spellings (hw : w.length ≤ 65535) (index : UInt16) (position : Nat)
    (rest : List UInt8) (log : Array LogRecord) :
    ∃ r, (decode index).run ⟨⟨position, textEntry w ++ rest⟩, log⟩ =
        (r, ⟨⟨position + (textEntry w).length, rest⟩, log⟩) ∧
      IsTextOutcome index w r :=
  ⟨textFound ModifiedUtf8.decode index w, run_decode_textEntry readsBoth_decode hw ⟨rfl, rfl⟩,
    isTextOutcome_textFound readsBoth_decode⟩

/-- The standard form of a zero, and the modified one behind it. -/
def mixedZeros : List UInt8 := [0x00, 0xC0, 0x80]

theorem text_spellings_mixedZeros :
    mixedZeros.length ≤ 65535 ∧
    (decode 7).run ⟨⟨4, textEntry mixedZeros ++ [0xFF]⟩, #[]⟩ =
      (.error (.invalidText 7), ⟨⟨10, [0xFF]⟩, #[]⟩) := by
  have hw : mixedZeros.length ≤ 65535 := by decide
  obtain ⟨r, hrun, hr⟩ := text_spellings hw 7 4 [0xFF] #[]
  have hzero : ¬ ModifiedUtf8.IsPlain '\x00' := by decide
  have hrefused : r = .error (.invalidText 7) :=
    hr.mixed _ _ hzero hzero ⟨[], [0xC0, 0x80], rfl⟩ ⟨[0x00], [], rfl⟩
  rw [hrefused] at hrun
  exact ⟨hw, hrun⟩

end Constant
end ClassFormat
