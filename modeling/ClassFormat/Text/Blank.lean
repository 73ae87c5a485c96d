/-!
# Blanks

The white space of Unicode, and the removal of it at both ends of a text.  What is left has no blank
in front, which `isBlank_head_trimmedLeft` says of the one end; the other is its image.

* `isBlank` looks a character up in the `ranges` of the property White_Space, which are more than
  the four characters that `Char.isWhitespace` has: `isBlank_of_isWhitespace`.
* `trimmed` takes the blanks away at one end, turns the text around, and does it again.

Only the written form of a log filter needs any of this.
-/

set_option autoImplicit false

namespace ClassFormat
namespace Blank

/-- The code points with the property White_Space, as ranges with both ends included. -/
def ranges : List (Nat × Nat) :=
  [(0x09, 0x0D), (0x20, 0x20), (0x85, 0x85), (0xA0, 0xA0), (0x1680, 0x1680), (0x2000, 0x200A),
    (0x2028, 0x2029), (0x202F, 0x202F), (0x205F, 0x205F), (0x3000, 0x3000)]

/-- Whether a character is white space. -/
def isBlank (c : Char) : Bool := ranges.any fun (low, high) => low ≤ c.toNat && c.toNat ≤ high

/-- The space, the tab, the line feed and the carriage return are white space. -/
theorem isBlank_of_isWhitespace {c : Char} (h : c.isWhitespace = true) : isBlank c = true := by
  simp only [Char.isWhitespace, Bool.or_eq_true, decide_eq_true_eq] at h
  rcases h with ((rfl | rfl) | rfl) | rfl <;> decide

/-- A text without the blanks in front. -/
def trimmedLeft (text : List Char) : List Char := text.dropWhile isBlank

/-- A text without the blanks at its ends. -/
def trimmed (text : List Char) : List Char := (trimmedLeft (trimmedLeft text).reverse).reverse

/-- No blank is left in front. -/
theorem isBlank_head_trimmedLeft {text rest : List Char} {c : Char}
    (h : trimmedLeft text = c :: rest) : isBlank c = false := by
  have hne : trimmedLeft text ≠ [] := by rw [h]; exact List.cons_ne_nil _ _
  have hc : (trimmedLeft text).head hne = c := by simp [h]
  rw [← hc]
  exact List.head_dropWhile_not isBlank hne

example : trimmed "\u00a0 a b\t".toList = "a b".toList := by decide +kernel

end Blank
end ClassFormat
