import ClassFormat.Decimal.Shortest

/-!
# How a binary floating-point number is written

A number is written with its shortest digits.  From one ten-thousandth up to, but not including, ten
to the sixteenth they stand in place, with at least one digit on each side of the point; outside
these bounds the point stands behind the first digit, if more digits follow, and the exponent
follows an `e`.  The bounds are bounds on the exponent of the leading digit, so the same `Style`
serves both widths.

* `leading` finds the digits to be written and the exponent of the first one.
* `inPlace` and `scientific` are the two ways to write them, and `written` chooses.
* `text` is what a word is written as, with the sign in front.  A zero keeps its sign; what is not a
  number has none.
-/

set_option autoImplicit false

namespace ClassFormat
namespace Decimal

/-- For which exponents of the leading digit all digits stand in place. -/
structure Style where
  leastInPlace : Int
  greatestInPlace : Int
deriving DecidableEq, Repr

/-- Digits stand in place from `0.0001` to below `10000000000000000.0`. -/
def style : Style := ⟨-4, 15⟩

/-- The digits of a decimal without the zeros at its end, and the exponent of the first one. -/
def leading (d : Decimal) : List Char × Int :=
  let ds := Nat.toDigits 10 d.digits
  ((ds.reverse.dropWhile (· = '0')).reverse, d.exponent + ds.length - 1)

/-- Digits in place, for a leading digit with the given exponent. -/
def inPlace (ds : List Char) (exponent : Int) : List Char :=
  if exponent < 0 then
    '0' :: '.' :: List.replicate (-exponent - 1).toNat '0' ++ ds
  else
    let n := exponent.toNat + 1
    let whole := ds.take n ++ List.replicate (n - ds.length) '0'
    let part := ds.drop n
    whole ++ '.' :: if part.isEmpty then ['0'] else part

/-- Digits with the point behind the first one, and the exponent. -/
def scientific (ds : List Char) (exponent : Int) : List Char :=
  let part := ds.drop 1
  ds.take 1 ++ (if part.isEmpty then [] else '.' :: part) ++ 'e' :: (toString exponent).toList

/-- A positive decimal. -/
def written (s : Style) (d : Decimal) : List Char :=
  let (ds, exponent) := leading d
  if s.leastInPlace ≤ exponent ∧ exponent ≤ s.greatestInPlace then
    inPlace ds exponent
  else
    scientific ds exponent

/-- What a word of a binary format is written as.  Only numbers have a sign. -/
def text (f : BinaryFormat) (bits : Nat) : String :=
  match f.decode bits with
  | .notANumber => "NaN"
  | .infinite negative => if negative then "-inf" else "inf"
  | .finite negative m q narrowBelow =>
    let magnitude := if m = 0 then "0.0".toList else written style (shortest m q narrowBelow)
    String.ofList (if negative then '-' :: magnitude else magnitude)

example : text .binary32 0x3F800000 = "1.0" := by decide +kernel
example : text .binary32 0x7F7FFFFF = "3.4028235e38" := by decide +kernel
example : text .binary64 0x8000000000000000 = "-0.0" := by decide +kernel
example : text .binary64 0x4341C37937E08000 = "1e16" := by decide +kernel
example : text .binary64 0x3F1A36E2EB1C432D = "0.0001" := by decide +kernel
example : text .binary64 0x3EEF75104D551D69 = "1.5e-5" := by decide +kernel

end Decimal
end ClassFormat
