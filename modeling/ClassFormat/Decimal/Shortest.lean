import ClassFormat.Decimal.Binary

/-!
# The shortest decimal that reads back

A binary number `m * 2 ^ q` is read back from every decimal that lies closer to it than to its
neighbours, that is from a whole interval of reals.  The ends of the interval are the midpoints to
the neighbours; a midpoint reads back as the neighbour with the even significand, so the ends belong
to the interval exactly if `m` is even.

On a grid of decimals with `n` digits the interval holds a point exactly if it holds one of the two
points next to the number.  So `shortest` looks at these two for `n = 1, 2, …`, and stops at the
first grid with a hit.  Of two hits it takes the nearer one, and the upper one if both are equally
near.  Everything is compared in natural numbers over a common denominator, without rounding.

* `Interval.around` is the interval of a number, with its ends as fractions.
* `Interval.scale` is where its digits start, and `Interval.unscaled` moves the grid to the natural
  numbers.
* `Interval.hit?` is the search on one grid.

The search is over at most seventeen grids, which is enough for both widths; it is given by the list
of their numbers and not by a loop that has to be shown to end.
-/

set_option autoImplicit false

namespace ClassFormat

/-- A decimal `digits * 10 ^ exponent`. -/
structure Decimal where
  digits : Nat
  exponent : Int
deriving DecidableEq, Repr

namespace Decimal

/-- The reals that read back as one number: the number itself and the two ends as fractions over
one denominator, and whether the ends belong to it. -/
structure Interval where
  value : Nat
  lower : Nat
  upper : Nat
  denominator : Nat
  closed : Bool
deriving DecidableEq, Repr

/-- The interval around `m * 2 ^ q`.  The step is a quarter of the last place: up it is half a
place to the end, down half a place or, if the number below is nearer, a quarter. -/
def Interval.around (m : Nat) (q : Int) (narrowBelow : Bool) : Interval :=
  let scale := Nat.pow 2 (q - 2).toNat
  { value := 4 * m * scale
    lower := (4 * m - if narrowBelow then 1 else 2) * scale
    upper := (4 * m + 2) * scale
    denominator := Nat.pow 2 (2 - q).toNat
    closed := m % 2 = 0 }

/-- Whether a natural number lies in the interval. -/
def Interval.contains (i : Interval) (d : Nat) : Bool :=
  if i.closed then
    i.lower ≤ d * i.denominator && d * i.denominator ≤ i.upper
  else
    i.lower < d * i.denominator && d * i.denominator < i.upper

/-- The interval divided by `10 ^ p`. -/
def Interval.unscaled (i : Interval) (p : Int) : Interval :=
  let up := Nat.pow 10 (-p).toNat
  { i with
    value := i.value * up
    lower := i.lower * up
    upper := i.upper * up
    denominator := i.denominator * Nat.pow 10 p.toNat }

/-- The number of digits in front of the decimal point; zero or less for a number below one tenth
of a unit, by the zeros behind the point. -/
def Interval.scale (i : Interval) : Int :=
  if i.denominator ≤ i.value then
    (Nat.toDigits 10 (i.value / i.denominator)).length
  else
    1 - (Nat.toDigits 10 ((i.denominator - 1) / i.value)).length

/-- Of the two natural numbers next to the value the nearer one, the upper one if both are equally
near. -/
def Interval.nearest (i : Interval) : Nat :=
  let d := i.value / i.denominator
  if 2 * (i.value - d * i.denominator) < i.denominator then d else d + 1

/-- The natural number next to the value that the interval holds, the nearer one if it holds
both. -/
def Interval.hit? (i : Interval) : Option Nat :=
  let d := i.value / i.denominator
  if i.contains d then
    if i.contains (d + 1) then some i.nearest else some d
  else
    if i.contains (d + 1) then some (d + 1) else none

/-- The shortest decimal that reads back as `m * 2 ^ q`, for a positive `m`.  Seventeen digits are
always enough for numbers of eight bytes. -/
def shortest (m : Nat) (q : Int) (narrowBelow : Bool) : Decimal :=
  let i := Interval.around m q narrowBelow
  let onGrid (n : Nat) : Option Decimal :=
    let p := i.scale - n
    (i.unscaled p).hit?.map fun d => ⟨d, p⟩
  match (List.range 17).findSome? fun n => onGrid (n + 1) with
  | some d => d
  | none => ⟨(i.unscaled (i.scale - 17)).nearest, i.scale - 17⟩

/-- One tenth, of four bytes. -/
example : shortest 13421773 (-27) false = ⟨1, -1⟩ := by decide +kernel

/-- The least positive number of eight bytes has one digit. -/
example : shortest 1 (-1074) false = ⟨5, -324⟩ := by decide +kernel

end Decimal
end ClassFormat
