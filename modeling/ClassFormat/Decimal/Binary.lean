/-!
# Binary floating-point numbers

A number in a binary interchange format is a sign, a biased exponent and a fraction.  `decode` reads
these out of the bits of a word and says which real number they stand for: not a number, an
infinity, or `± significand * 2 ^ exponent` with a natural significand.

Next to the number stands whether its gap to the number below is narrower than the gap to the number
above.  That is so for the powers of two above the least normal one, and it is the only thing
besides significand and exponent on which the reals that round to the number depend.

* `BinaryFormat` is a pair of widths, and `binary32` and `binary64` are the two that constants are
  stored in; every definition below is for both.
* `numericEq` compares two words as numbers.  It differs from the equality of words in two ways
  only: what is not a number equals nothing, and the two zeros are equal.

Words are natural numbers here, so that one definition serves four bytes and eight.
-/

set_option autoImplicit false

namespace ClassFormat

/-- A binary format, given by the widths of the fields below the sign. -/
structure BinaryFormat where
  fractionBits : Nat
  exponentBits : Nat
deriving DecidableEq, Repr

namespace BinaryFormat

/-- Four bytes: 23 bits of fraction under 8 bits of exponent. -/
def binary32 : BinaryFormat := ⟨23, 8⟩

/-- Eight bytes: 52 bits of fraction under 11 bits of exponent. -/
def binary64 : BinaryFormat := ⟨52, 11⟩

/-- What a word of a binary format stands for. -/
inductive Number
  | notANumber
  | infinite (negative : Bool)
  | finite (negative : Bool) (significand : Nat) (exponent : Int) (narrowBelow : Bool)
deriving DecidableEq, Repr

/-- The lowest field of a word. -/
def fraction (f : BinaryFormat) (bits : Nat) : Nat := bits % Nat.pow 2 f.fractionBits

/-- The field above the fraction. -/
def biased (f : BinaryFormat) (bits : Nat) : Nat :=
  bits / Nat.pow 2 f.fractionBits % Nat.pow 2 f.exponentBits

/-- The sign, which is the highest bit. -/
def isNegative (f : BinaryFormat) (bits : Nat) : Bool :=
  bits / Nat.pow 2 (f.fractionBits + f.exponentBits) % 2 = 1

/-- The exponent of the last place of the numbers nearest to zero. -/
def leastExponent (f : BinaryFormat) : Int :=
  2 - Nat.pow 2 (f.exponentBits - 1) - f.fractionBits

/-- What a word stands for.  The greatest exponent field is kept for the infinities and for what
is not a number; the least one is that of the numbers without a leading one. -/
def decode (f : BinaryFormat) (bits : Nat) : Number :=
  let e := f.biased bits
  let m := f.fraction bits
  if e = Nat.pow 2 f.exponentBits - 1 then
    if m = 0 then .infinite (f.isNegative bits) else .notANumber
  else if e = 0 then
    .finite (f.isNegative bits) m f.leastExponent false
  else
    .finite (f.isNegative bits) (Nat.pow 2 f.fractionBits + m) (f.leastExponent + (e - 1))
      (m = 0 && 1 < e)

/-- One is the power of two with exponent zero. -/
example : binary64.decode 0x3FF0000000000000 = .finite false (2 ^ 52) (-52) true := by decide

/-- The least positive number of four bytes. -/
example : binary32.decode 1 = .finite false 1 (-149) false := by decide

/-! ## Equality of numbers -/

/-- Whether two words are equal as numbers: what is not a number equals nothing, not even itself,
the two zeros are equal, and all other words are equal only to themselves. -/
def numericEq (f : BinaryFormat) (a b : Nat) : Bool :=
  match f.decode a, f.decode b with
  | .notANumber, _ => false
  | _, .notANumber => false
  | .finite _ 0 _ _, .finite _ 0 _ _ => true
  | _, _ => a == b

end BinaryFormat
end ClassFormat
