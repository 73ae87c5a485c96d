import ClassFormat.Text.ModifiedUtf8

/-!
# What a spelling stands for

The reader of texts tries the standard spelling and then the modified one.  Here each of the two
readings is shown to be the inverse of its spelling: first from bytes to code units
(`units?_eq_some_iff`), then from code units to characters (`CodeUnit.chars?_eq_some_iff`).

A run of bytes can be both the standard spelling of a text and the modified spelling of a text.
Then the two texts are the same (`decodeModified_standard`), because the modified reading refuses
every character that the two spellings write differently.  So the order in which the readings are
tried makes no difference to what is read, and `decode_eq_some_iff` says what that is.

## What is here

* `CodeUnit.chars?_eq_some_iff` — a run of units is read as a text exactly if it consists of the
  units of its characters.  Each surrogate needs its partner, so there is no second way to divide a
  run.
* `ModifiedUtf8.units?_eq_some_iff` — a run of bytes is read as units exactly if it is what they are
  written as.  A form that is longer than need be is refused, so there is no second way to write
  one.
* `ModifiedUtf8.IsPlain` — the characters that both spellings write in the same way, and
  `standard_eq_modified` for texts of them.
* `ModifiedUtf8.decode_eq_some_iff` — what is read, without any mention of an order.  This is the
  only fact about `decode` that the rest of the library rests on.

Readings go through a loop that gathers what has been found.  Each is followed twice: once on a run
that has been written, which shows that it is read back, and once by the cases of the loop, on a run
that is only known to be read.
-/

set_option autoImplicit false

namespace ClassFormat

/-! ## Code units as characters

Between D800 and DFFF there are no characters, so a unit in that range is never a character by
itself (`not_surrogate`).  Every other unit is one (`ofChar_ofNat`), and so is every pair of a high
and a low surrogate (`ofChar_joined`). -/

namespace CodeUnit

theorem toNat_ofNat {n : Nat} (h : n.isValidChar) : (Char.ofNat n).toNat = n := by
  rw [Char.ofNat, dif_pos h]
  rfl

/-- A character is no surrogate. -/
theorem not_surrogate (c : Char) : isHigh c.toNat = false ∧ isLow c.toNat = false := by
  have hc : c.toNat < 0xD800 ∨ 0xDFFF < c.toNat ∧ c.toNat < 0x110000 := c.valid
  simp only [isHigh, isLow, Bool.and_eq_false_iff, decide_eq_false_iff_not]
  omega

theorem charsOnto_ofChar (found : List Char) (c : Char) (units : List Nat) :
    charsOnto found (ofChar c ++ units) = charsOnto (c :: found) units := by
  have hc : c.toNat < 0xD800 ∨ 0xDFFF < c.toNat ∧ c.toNat < 0x110000 := c.valid
  rw [ofChar]
  by_cases hsmall : c.toNat < 0x10000
  · obtain ⟨hhigh, hlow⟩ := not_surrogate c
    rw [if_pos hsmall, List.singleton_append]
    cases units with
    | nil => simp [charsOnto, hhigh, hlow, Char.ofNat_toNat]
    | cons v rest => simp [charsOnto, hhigh, hlow, Char.ofNat_toNat]
  · have hhigh : isHigh (0xD800 + (c.toNat - 0x10000) / 0x400) = true := by
      simp only [isHigh, Bool.and_eq_true, decide_eq_true_eq]; omega
    have hlow : isLow (0xDC00 + (c.toNat - 0x10000) % 0x400) = true := by
      simp only [isLow, Bool.and_eq_true, decide_eq_true_eq]; omega
    have hsum : 0x10000 + (0xD800 + (c.toNat - 0x10000) / 0x400 - 0xD800) * 0x400 +
        (0xDC00 + (c.toNat - 0x10000) % 0x400 - 0xDC00) = c.toNat := by omega
    have hjoined : joined (0xD800 + (c.toNat - 0x10000) / 0x400)
        (0xDC00 + (c.toNat - 0x10000) % 0x400) = c := by
      rw [joined, hsum, Char.ofNat_toNat]
    rw [if_neg hsmall, List.cons_append, List.cons_append, List.nil_append, charsOnto, if_pos hhigh,
      if_pos hlow, hjoined]

theorem charsOnto_flatMap (found chars : List Char) :
    charsOnto found (chars.flatMap ofChar) = some (found.reverse ++ chars) := by
  induction chars generalizing found with
  | nil => simp [charsOnto]
  | cons c chars ih => rw [List.flatMap_cons, charsOnto_ofChar, ih]; simp

/-- A unit that is no surrogate is a character. -/
theorem ofChar_ofNat {u : Nat} (hu : u < 0x10000) (hhigh : ¬ isHigh u = true)
    (hlow : ¬ isLow u = true) : ofChar (Char.ofNat u) = [u] := by
  simp only [isHigh, isLow, Bool.and_eq_true, decide_eq_true_eq] at hhigh hlow
  have hvalid : u.isValidChar := by rw [Nat.isValidChar]; omega
  rw [ofChar, toNat_ofNat hvalid, if_pos hu]

/-- A pair of surrogates is a character. -/
theorem ofChar_joined {u v : Nat} (hu : isHigh u = true) (hv : isLow v = true) :
    ofChar (joined u v) = [u, v] := by
  simp only [isHigh, isLow, Bool.and_eq_true, decide_eq_true_eq] at hu hv
  have hvalid : (0x10000 + (u - 0xD800) * 0x400 + (v - 0xDC00)).isValidChar := by
    rw [Nat.isValidChar]; omega
  have hfirst : 0xD800 + (0x10000 + (u - 0xD800) * 0x400 + (v - 0xDC00) - 0x10000) / 0x400 = u := by
    omega
  have hsecond :
      0xDC00 + (0x10000 + (u - 0xD800) * 0x400 + (v - 0xDC00) - 0x10000) % 0x400 = v := by
    omega
  rw [ofChar, joined, toNat_ofNat hvalid, if_neg (by omega), hfirst, hsecond]

theorem eq_flatMap_of_charsOnto {found : List Char} {units : List Nat} {chars : List Char}
    (hunits : ∀ u ∈ units, u < 0x10000) (h : charsOnto found units = some chars) :
    ∃ new, chars = found.reverse ++ new ∧ units = new.flatMap ofChar := by
  fun_induction charsOnto found units with
  | case1 found => exact ⟨[], by simpa using h.symm, rfl⟩
  | case2 found u hu => cases h
  | case3 found u hu =>
    obtain ⟨hhigh, hlow⟩ : ¬ isHigh u = true ∧ ¬ isLow u = true := by simpa using hu
    refine ⟨[Char.ofNat u], by simpa using h.symm, ?_⟩
    rw [List.flatMap_singleton, ofChar_ofNat (hunits u (by simp)) hhigh hlow]
  | case4 found u v rest hu hv ih =>
    obtain ⟨new, hchars, hrest⟩ := ih (fun w hw => hunits w (by simp [hw])) h
    refine ⟨joined u v :: new, by simpa using hchars, ?_⟩
    rw [List.flatMap_cons, ofChar_joined hu hv, ← hrest]
    rfl
  | case5 found u v rest hu hv => cases h
  | case6 found u v rest hu hlow => cases h
  | case7 found u v rest hhigh hlow ih =>
    obtain ⟨new, hchars, hrest⟩ := ih (fun w hw => hunits w (by simp [hw])) h
    refine ⟨Char.ofNat u :: new, by simpa using hchars, ?_⟩
    rw [List.flatMap_cons, ofChar_ofNat (hunits u (by simp)) hhigh hlow, ← hrest]
    rfl

/-- **A run of code units stands for a text exactly if it is made of the units of its
characters.** -/
theorem chars?_eq_some_iff {units : List Nat} (hunits : ∀ u ∈ units, u < 0x10000)
    {chars : List Char} : chars? units = some chars ↔ units = chars.flatMap ofChar := by
  constructor
  · intro h
    obtain ⟨new, hchars, hnew⟩ := eq_flatMap_of_charsOnto hunits h
    rw [hchars]
    exact hnew
  · rintro rfl
    exact charsOnto_flatMap [] chars

theorem lt_of_mem_ofChar {c : Char} {u : Nat} (h : u ∈ ofChar c) : u < 0x10000 := by
  have hc : c.toNat < 0xD800 ∨ 0xDFFF < c.toNat ∧ c.toNat < 0x110000 := c.valid
  rw [ofChar] at h
  split at h
  · rw [List.mem_singleton] at h
    omega
  · simp only [List.mem_cons, List.not_mem_nil, or_false] at h
    omega

end CodeUnit

/-! ## Bytes as code units

The forms of one, two and three bytes are told apart by their first byte, and within a form the
bytes are the digits of the unit.  `two?_eq_some_iff` and `three?_eq_some_iff` are the two
equivalences that need arithmetic; the loop sees only which form it has in front of it. -/

namespace ModifiedUtf8

theorem eq_ofNat {b : UInt8} {n : Nat} (h : b.toNat = n) : UInt8.ofNat n = b := by
  rw [← h, UInt8.ofNat_toNat]

theorem toNat_ofNat {n : Nat} (h : n < 256) : (UInt8.ofNat n).toNat = n :=
  UInt8.toNat_ofNat_of_lt' h

theorem isTail_iff {b : UInt8} : isTail b = true ↔ 0x80 ≤ b.toNat ∧ b.toNat ≤ 0xBF := by
  simp [isTail, UInt8.le_iff_toNat_le]

/-- The units written in two bytes, in the way they are written. -/
theorem two?_eq_some_iff {a b : UInt8} {u : Nat} :
    two? a b = some u ↔ u < 0x800 ∧ unitBytes u = [a, b] := by
  simp only [two?, isTail_iff, UInt8.le_iff_toNat_le, Option.ite_none_right_eq_some,
    Option.some.injEq, UInt8.reduceToNat]
  constructor
  · rintro ⟨⟨ha, ha', ⟨hb, hb'⟩, hu⟩, rfl⟩
    refine ⟨by omega, ?_⟩
    rw [unitBytes, if_neg (by omega), if_pos (by omega), eq_ofNat (b := a) (by omega),
      eq_ofNat (b := b) (by omega)]
  · rintro ⟨hu, h⟩
    rw [unitBytes, if_pos hu] at h
    split at h
    · cases h
    · cases h
      rw [toNat_ofNat (by omega), toNat_ofNat (by omega)]
      omega

/-- The units written in three bytes, in the way they are written. -/
theorem three?_eq_some_iff {a b c : UInt8} {u : Nat} :
    three? a b c = some u ↔ u < 0x10000 ∧ unitBytes u = [a, b, c] := by
  simp only [three?, isTail_iff, UInt8.le_iff_toNat_le, Option.ite_none_right_eq_some,
    Option.some.injEq, UInt8.reduceToNat]
  constructor
  · rintro ⟨⟨ha, ha', ⟨hb, hb'⟩, ⟨hc, hc'⟩, hu⟩, rfl⟩
    refine ⟨by omega, ?_⟩
    rw [unitBytes, if_neg (by omega), if_neg (by omega), eq_ofNat (b := a) (by omega),
      eq_ofNat (b := b) (by omega), eq_ofNat (b := c) (by omega)]
  · rintro ⟨hu, h⟩
    rw [unitBytes] at h
    split at h
    · cases h
    · split at h
      · cases h
      · cases h
        rw [toNat_ofNat (by omega), toNat_ofNat (by omega), toNat_ofNat (by omega)]
        omega

theorem two?_lead {a b : UInt8} {u : Nat} (h : two? a b = some u) :
    0xC0 ≤ a.toNat ∧ a.toNat ≤ 0xDF := by
  simp only [two?, UInt8.le_iff_toNat_le, Option.ite_none_right_eq_some, UInt8.reduceToNat] at h
  exact ⟨h.1.1, h.1.2.1⟩

theorem three?_lead {a b c : UInt8} {u : Nat} (h : three? a b c = some u) :
    0xE0 ≤ a.toNat ∧ a.toNat ≤ 0xEF := by
  simp only [three?, UInt8.le_iff_toNat_le, Option.ite_none_right_eq_some,
    UInt8.reduceToNat] at h
  exact ⟨h.1.1, h.1.2.1⟩

theorem single_iff {b : UInt8} : 0 < b ∧ b < 0x80 ↔ 0 < b.toNat ∧ b.toNat < 0x80 := by
  simp [UInt8.lt_iff_toNat_lt]

/-- The units written in one byte. -/
theorem unitBytes_toNat {b : UInt8} (h : 0 < b ∧ b < 0x80) : unitBytes b.toNat = [b] := by
  rw [unitBytes, if_pos (single_iff.1 h), UInt8.ofNat_toNat]

theorem unitsOnto_one {a : UInt8} (h : 0 < a ∧ a < 0x80) (found : List Nat)
    (rest : List UInt8) : unitsOnto found (a :: rest) = unitsOnto (a.toNat :: found) rest := by
  rw [unitsOnto.eq_def]
  exact if_pos h

theorem unitsOnto_two {a b : UInt8} {u : Nat} (h : two? a b = some u) (found : List Nat)
    (rest : List UInt8) : unitsOnto found (a :: b :: rest) = unitsOnto (u :: found) rest := by
  have hlead := two?_lead h
  have hmulti : ¬ (0 < a ∧ a < 0x80) := by rw [single_iff]; omega
  rw [unitsOnto.eq_def]
  simp only [if_neg hmulti, h]

theorem unitsOnto_three {a b c : UInt8} {u : Nat} (h : three? a b c = some u) (found : List Nat)
    (rest : List UInt8) : unitsOnto found (a :: b :: c :: rest) = unitsOnto (u :: found) rest := by
  have hlead := three?_lead h
  have hmulti : ¬ (0 < a ∧ a < 0x80) := by rw [single_iff]; omega
  have hnone : two? a b = none :=
    Option.eq_none_iff_forall_ne_some.2 fun v hv => by have := two?_lead hv; omega
  rw [unitsOnto.eq_def]
  simp only [if_neg hmulti, hnone, h]

/-- A byte that starts no unit. -/
theorem unitsOnto_none {a : UInt8} (h : a.toNat = 0 ∨ 0xEF < a.toNat) (found : List Nat)
    (rest : List UInt8) : unitsOnto found (a :: rest) = none := by
  have hmulti : ¬ (0 < a ∧ a < 0x80) := by rw [single_iff]; omega
  have htwo (b : UInt8) : two? a b = none :=
    Option.eq_none_iff_forall_ne_some.2 fun v hv => by have := two?_lead hv; omega
  have hthree (b c : UInt8) : three? a b c = none :=
    Option.eq_none_iff_forall_ne_some.2 fun v hv => by have := three?_lead hv; omega
  rw [unitsOnto.eq_def]
  rcases rest with _ | ⟨b, _ | ⟨c, rest⟩⟩
  · simp only [if_neg hmulti]
  · simp only [if_neg hmulti, htwo]
  · simp only [if_neg hmulti, htwo, hthree]

theorem unitsOnto_unitBytes (found : List Nat) {u : Nat} (hu : u < 0x10000) (rest : List UInt8) :
    unitsOnto found (unitBytes u ++ rest) = unitsOnto (u :: found) rest := by
  by_cases hone : 0 < u ∧ u < 0x80
  · have hnat : (UInt8.ofNat u).toNat = u := toNat_ofNat (by omega)
    have hsingle : 0 < UInt8.ofNat u ∧ UInt8.ofNat u < 0x80 := by
      rw [single_iff, hnat]; exact hone
    rw [unitBytes, if_pos hone, List.singleton_append, unitsOnto_one hsingle, hnat]
  · by_cases htwo : u < 0x800
    · obtain ⟨a, b, hab⟩ : ∃ a b, unitBytes u = [a, b] :=
        ⟨_, _, by rw [unitBytes, if_neg hone, if_pos htwo]⟩
      rw [hab]
      exact unitsOnto_two (two?_eq_some_iff.2 ⟨htwo, hab⟩) found rest
    · obtain ⟨a, b, c, habc⟩ : ∃ a b c, unitBytes u = [a, b, c] :=
        ⟨_, _, _, by rw [unitBytes, if_neg hone, if_neg htwo]⟩
      rw [habc]
      exact unitsOnto_three (three?_eq_some_iff.2 ⟨hu, habc⟩) found rest

theorem unitsOnto_flatMap (found : List Nat) {units : List Nat} (h : ∀ u ∈ units, u < 0x10000) :
    unitsOnto found (units.flatMap unitBytes) = some (found.reverse ++ units) := by
  induction units generalizing found with
  | nil => simp [unitsOnto]
  | cons u units ih =>
    rw [List.flatMap_cons, unitsOnto_unitBytes found (h u (by simp)),
      ih _ fun v hv => h v (by simp [hv])]
    simp

theorem eq_flatMap_of_unitsOnto {found units : List Nat} {bytes : List UInt8}
    (h : unitsOnto found bytes = some units) :
    ∃ new, units = found.reverse ++ new ∧ bytes = new.flatMap unitBytes ∧
      ∀ u ∈ new, u < 0x10000 := by
  fun_induction unitsOnto found bytes with
  | case1 found => exact ⟨[], by simpa using h.symm, rfl, by simp⟩
  | case2 found a rest ha ih =>
    obtain ⟨new, hunits, hrest, hsmall⟩ := ih h
    have hlt := a.toNat_lt
    refine ⟨a.toNat :: new, by simpa using hunits, ?_, List.forall_mem_cons.2 ⟨by omega, hsmall⟩⟩
    rw [List.flatMap_cons, unitBytes_toNat ha, ← hrest, List.singleton_append]
  | case3 found a ha => cases h
  | case4 found a ha b rest u hu ih =>
    obtain ⟨new, hunits, hrest, hsmall⟩ := ih h
    obtain ⟨hlt, hbytes⟩ := two?_eq_some_iff.1 hu
    refine ⟨u :: new, by simpa using hunits, ?_, List.forall_mem_cons.2 ⟨by omega, hsmall⟩⟩
    rw [List.flatMap_cons, hbytes, ← hrest]
    rfl
  | case5 found a ha b hb => cases h
  | case6 found a ha b hb c rest u hu ih =>
    obtain ⟨new, hunits, hrest, hsmall⟩ := ih h
    obtain ⟨hlt, hbytes⟩ := three?_eq_some_iff.1 hu
    refine ⟨u :: new, by simpa using hunits, ?_, List.forall_mem_cons.2 ⟨hlt, hsmall⟩⟩
    rw [List.flatMap_cons, hbytes, ← hrest]
    rfl
  | case7 found a ha b hb c rest hc => cases h

/-- **A run of bytes is made of code units exactly if it is what they are written as.** -/
theorem units?_eq_some_iff {bytes : List UInt8} {units : List Nat} :
    units? bytes = some units ↔
      bytes = units.flatMap unitBytes ∧ ∀ u ∈ units, u < 0x10000 := by
  constructor
  · intro h
    obtain ⟨new, hunits, hnew, hsmall⟩ := eq_flatMap_of_unitsOnto h
    rw [hunits]
    exact ⟨hnew, hsmall⟩
  · rintro ⟨rfl, h⟩
    exact unitsOnto_flatMap [] h

/-- **A run of bytes has a modified reading exactly if it is the modified spelling of it.** -/
theorem decodeModified_eq_some_iff {bytes : List UInt8} {text : String} :
    decodeModified bytes = some text ↔ bytes = modified text := by
  simp only [decodeModified, Option.bind_eq_some_iff, Option.map_eq_some_iff, units?_eq_some_iff]
  constructor
  · rintro ⟨units, ⟨rfl, hunits⟩, chars, hchars, rfl⟩
    rw [CodeUnit.chars?_eq_some_iff hunits] at hchars
    rw [hchars, modified, String.toList_ofList, List.flatMap_assoc]
  · rintro rfl
    have hunits : ∀ u ∈ text.toList.flatMap CodeUnit.ofChar, u < 0x10000 := by
      intro u hu
      obtain ⟨c, -, hc⟩ := List.mem_flatMap.1 hu
      exact CodeUnit.lt_of_mem_ofChar hc
    refine ⟨text.toList.flatMap CodeUnit.ofChar, ⟨?_, hunits⟩, text.toList, ?_, ?_⟩
    · rw [modified, List.flatMap_assoc]
    · rw [CodeUnit.chars?_eq_some_iff hunits]
    · exact String.ofList_toList

/-! ## The two spellings of one text

A standard spelling of a character that is not plain starts with a byte that starts no unit: it is
zero, or so great that four bytes follow. -/

/-- A character that both spellings write in the same way: neither zero nor above U+FFFF. -/
def IsPlain (c : Char) : Prop := 0 < c.toNat ∧ c.toNat < 0x10000

instance (c : Char) : Decidable (IsPlain c) := inferInstanceAs (Decidable (_ ∧ _))

theorem ofChar_of_isPlain {c : Char} (h : IsPlain c) : CodeUnit.ofChar c = [c.toNat] := by
  rw [CodeUnit.ofChar, if_pos h.2]

theorem utf8EncodeChar_of_isPlain {c : Char} (h : IsPlain c) :
    String.utf8EncodeChar c = unitBytes c.toNat := by
  obtain ⟨hpos, hlt⟩ := h
  have hval : c.val.toNat = c.toNat := rfl
  simp only [String.utf8EncodeChar, hval, unitBytes]
  by_cases hone : c.toNat ≤ 0x7F
  · rw [if_pos hone, if_pos (by omega)]
  · have hone' : ¬ (0 < c.toNat ∧ c.toNat < 0x80) := by omega
    rw [if_neg hone, if_neg hone']
    by_cases htwo : c.toNat ≤ 0x7FF
    · have hlead : c.toNat / 64 % 0x20 + 0xC0 = 0xC0 + c.toNat / 0x40 := by omega
      rw [if_pos htwo, if_pos (by omega), hlead, Nat.add_comm (c.toNat % 0x40)]
    · have htwo' : ¬ c.toNat < 0x800 := by omega
      have hlead : c.toNat / 4096 % 0x10 + 0xE0 = 0xE0 + c.toNat / 0x1000 := by omega
      rw [if_neg htwo, if_neg htwo', if_pos (by omega), hlead,
        Nat.add_comm (c.toNat / 64 % 0x40), Nat.add_comm (c.toNat % 0x40)]

/-- **A text of plain characters has one spelling.** -/
theorem standard_eq_modified {text : String} (h : ∀ c ∈ text.toList, IsPlain c) :
    standard text = modified text := by
  rw [standard, modified, List.flatMap_def, List.flatMap_def]
  congr 1
  refine List.map_congr_left fun c hc => ?_
  rw [utf8EncodeChar_of_isPlain (h c hc), ofChar_of_isPlain (h c hc), List.flatMap_singleton]

/-- The modified reading refuses every other character in its standard spelling. -/
theorem unitsOnto_utf8EncodeChar {c : Char} (h : ¬ IsPlain c) (found : List Nat)
    (rest : List UInt8) : unitsOnto found (String.utf8EncodeChar c ++ rest) = none := by
  have hc : c.toNat < 0xD800 ∨ 0xDFFF < c.toNat ∧ c.toNat < 0x110000 := c.valid
  have hval : c.val.toNat = c.toNat := rfl
  rw [IsPlain] at h
  simp only [String.utf8EncodeChar, hval]
  by_cases hzero : c.toNat = 0
  · rw [hzero]
    exact unitsOnto_none (.inl rfl) found rest
  · rw [if_neg (by omega), if_neg (by omega), if_neg (by omega)]
    refine unitsOnto_none (.inr ?_) found _
    rw [toNat_ofNat (by omega)]
    omega

theorem unitsOnto_standard {chars : List Char} (h : ∃ c ∈ chars, ¬ IsPlain c)
    (found : List Nat) : unitsOnto found (chars.flatMap String.utf8EncodeChar) = none := by
  induction chars generalizing found with
  | nil => simp at h
  | cons c chars ih =>
    rw [List.flatMap_cons]
    by_cases hc : IsPlain c
    · have hchars : ∃ d ∈ chars, ¬ IsPlain d := by simpa [hc] using h
      rw [utf8EncodeChar_of_isPlain hc, unitsOnto_unitBytes found hc.2]
      exact ih hchars _
    · exact unitsOnto_utf8EncodeChar hc found _

/-- **No run of bytes spells two texts,** one in each way. -/
theorem decodeModified_standard {text text' : String}
    (h : decodeModified (standard text) = some text') : text' = text := by
  by_cases hplain : ∀ c ∈ text.toList, IsPlain c
  · rw [standard_eq_modified hplain, decodeModified_eq_some_iff.2 rfl] at h
    exact (Option.some.inj h).symm
  · have hnone : units? (standard text) = none :=
      unitsOnto_standard (by simpa using hplain) []
    rw [decodeModified, hnone] at h
    cases h

/-- **What is read is what is spelled,** in either way. -/
theorem decode_eq_some_iff {bytes : List UInt8} {text : String} :
    decode bytes = some text ↔ bytes = standard text ∨ bytes = modified text := by
  rw [decode]
  cases hstandard : decodeStandard bytes with
  | none =>
    have hnot : bytes ≠ standard text := by
      rw [Ne, ← decodeStandard_eq_some_iff, hstandard]
      exact (Option.some_ne_none text).symm
    simp only [decodeModified_eq_some_iff, hnot, false_or]
  | some other =>
    have hbytes := decodeStandard_eq_some_iff.1 hstandard
    simp only [Option.some.injEq]
    constructor
    · rintro rfl
      exact .inl hbytes
    · rintro (h | h)
      · rw [decodeStandard_eq_some_iff.2 h] at hstandard
        exact (Option.some.inj hstandard).symm
      · rw [← decodeModified_eq_some_iff, hbytes] at h
        exact (decodeModified_standard h).symm

end ModifiedUtf8
end ClassFormat
