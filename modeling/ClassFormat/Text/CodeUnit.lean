/-!
# UTF-16 code units

A character up to U+FFFF is one unit; a character above it is a pair, a high surrogate (D800 to
DBFF) followed by a low one (DC00 to DFFF), each carrying ten bits of what is left after subtracting
0x10000.  `ofChar` writes a character as units and `chars?` reads a run of units back; it refuses a
surrogate without its partner, so a run stands for at most one text.

* `ofChar` — the units of a character.  It gives natural numbers, which all fit in sixteen bits.
* `isHigh` and `isLow` — the two halves of a pair, and `joined`, the character that a pair stands
  for.
* `chars?` — the reading of a run.  It looks at two units at a time, because a high surrogate has to
  be seen together with the unit behind it.

That the two are inverse to each other is `CodeUnit.chars?_eq_some_iff` in
`ClassFormat.Proofs.Spelling`.
-/

set_option autoImplicit false

namespace ClassFormat
namespace CodeUnit

/-- The units of a character. -/
def ofChar (c : Char) : List Nat :=
  if c.toNat < 0x10000 then
    [c.toNat]
  else
    [0xD800 + (c.toNat - 0x10000) / 0x400, 0xDC00 + (c.toNat - 0x10000) % 0x400]

/-- The first half of a pair. -/
def isHigh (u : Nat) : Bool := 0xD800 ≤ u && u ≤ 0xDBFF

/-- The second half of a pair. -/
def isLow (u : Nat) : Bool := 0xDC00 ≤ u && u ≤ 0xDFFF

/-- The character that a pair stands for. -/
def joined (high low : Nat) : Char :=
  Char.ofNat (0x10000 + (high - 0xD800) * 0x400 + (low - 0xDC00))

/-- The characters that a run of units stands for, behind those already found. -/
def charsOnto (found : List Char) : List Nat → Option (List Char)
  | [] => some found.reverse
  | [u] => if isHigh u || isLow u then none else some (Char.ofNat u :: found).reverse
  | u :: v :: rest =>
    if isHigh u then
      if isLow v then charsOnto (joined u v :: found) rest else none
    else if isLow u then
      none
    else
      charsOnto (Char.ofNat u :: found) (v :: rest)

/-- The characters that a run of units stands for; none if a surrogate has no partner. -/
def chars? (units : List Nat) : Option (List Char) := charsOnto [] units

end CodeUnit
end ClassFormat
