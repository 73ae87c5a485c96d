import ClassFormat.Text.Unprintable

/-!
# Quoted text

A text inside a larger one is shown between double quotes.  The quote and the backslash get a
backslash in front, four control characters have a letter of their own, and every other character
without a picture is written as its code point in lower-case hexadecimal digits between braces.  The
apostrophe stands as it is.

* `escape` is what becomes of one character, whatever stands beside it, and `quoted` is the text
  with all of them between the quotes.
* `codePoint` writes a code point; `Unprintable.isUnprintable` decides who needs one.
* `escape_of_ascii` says which characters are safe: those from the space to the tilde, but for the
  quote and the backslash.

A text of safe characters is quoted as it is.  This is how the quotes around a number of bytes are
dealt with where debug texts are compared.
-/

set_option autoImplicit false

namespace ClassFormat
namespace Quoted

/-- The code point of a character, between braces behind the letter `u`. -/
def codePoint (c : Char) : List Char :=
  '\\' :: 'u' :: '\x7b' :: Nat.toDigits 16 c.toNat ++ ['\x7d']

/-- A character as it stands between the quotes. -/
def escape (c : Char) : List Char :=
  if c = '"' then ['\\', '"']
  else if c = '\\' then ['\\', '\\']
  else if c = '\x00' then ['\\', '0']
  else if c = '\t' then ['\\', 't']
  else if c = '\n' then ['\\', 'n']
  else if c = '\r' then ['\\', 'r']
  else if Unprintable.isUnprintable c then codePoint c
  else [c]

/-- A text between double quotes. -/
def quoted (text : String) : String :=
  String.ofList ('"' :: text.toList.flatMap escape ++ ['"'])

/-- Letters, digits and ASCII punctuation stand as they are, the quote and the backslash apart. -/
theorem escape_of_ascii {c : Char} (h : 0x20 ≤ c.toNat) (h' : c.toNat < 0x7F) (hq : c ≠ '"')
    (hb : c ≠ '\\') : escape c = [c] := by
  have h0 : c ≠ '\x00' := by rintro rfl; exact absurd h (by decide)
  have ht : c ≠ '\t' := by rintro rfl; exact absurd h (by decide)
  have hn : c ≠ '\n' := by rintro rfl; exact absurd h (by decide)
  have hr : c ≠ '\r' := by rintro rfl; exact absurd h (by decide)
  simp [escape, hq, hb, h0, ht, hn, hr, Unprintable.isUnprintable_of_ascii h h']

example : quoted "a\"b\\'\n\u00e9\u0301" = "\"a\\\"b\\\\'\\n\u00e9\\u\x7b301\x7d\"" := by
  decide +kernel

end Quoted
end ClassFormat
