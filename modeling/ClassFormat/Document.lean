/-!
# Documents

The debug text of a value is a tree before it is a text: leaves, labelled values, and groups of
items between an opening and a closing bracket.  A `Document` is that tree, and it has two
renderings.  `compact` puts all of it on one line with commas between the items; `indented` gives
every item a line of its own, four spaces deeper than the group around it and with a comma behind
it.  A group without items is the same in both.

Both renderings append to a text that is handed through, so an item list is walked by a loop and
only the depth of the tree costs stack.

## What is here

* `Shape` — how a group is bracketed.  The brackets of a record stand apart from its items on one
  line, and those of the other shapes do not, so there are two openings and two closings.
* `Document` — the tree.  A leaf is any text, and nothing is escaped when it is rendered: a text
  that is to be quoted is quoted before it becomes a leaf.
* `compact` and `indented` — the renderings.
* `compactOnto_eq`, `compactItems_eq`, `indentedOnto_eq` and `indentedItems_eq` — what is already
  written stays in front.  They turn the loops into equations without an accumulator.

`ClassFormat.Proofs.UniqueReading` has conditions under which a document is known from either of its
renderings.
-/

set_option autoImplicit false

namespace ClassFormat

/-- How a group of items is bracketed: as a record with its name and braces, as a named value in
parentheses, or as a list. -/
inductive Shape
  | record (name : String)
  | tuple (name : String)
  | list
deriving DecidableEq, Repr

/-- A debug text as a tree. -/
inductive Document
  | leaf (text : String)
  | field (label : String) (value : Document)
  | group (shape : Shape) (items : List Document)

namespace Shape

/-- What stands in front of the items on one line. -/
def compactOpening : Shape → String
  | record name => name ++ " \x7b "
  | tuple name => name ++ "("
  | list => "["

/-- What stands behind the items on one line. -/
def compactClosing : Shape → String
  | record _ => " \x7d"
  | tuple _ => ")"
  | list => "]"

/-- What stands on the line in front of the items. -/
def opening : Shape → String
  | record name => name ++ " \x7b"
  | tuple name => name ++ "("
  | list => "["

/-- What stands on the line behind the items. -/
def closing : Shape → String
  | record _ => "\x7d"
  | tuple _ => ")"
  | list => "]"

/-- A group without items. -/
def empty : Shape → String
  | record name => name
  | tuple name => name
  | list => "[]"

end Shape

namespace Document

/-- A natural number as a leaf. -/
def number (n : Nat) : Document := leaf (toString n)

/-! ## On one line -/

mutual

/-- The rendering on one line, behind what is already written. -/
def compactOnto (out : String) : Document → String
  | leaf text => out ++ text
  | field label value => compactOnto (out ++ label ++ ": ") value
  | group shape [] => out ++ shape.empty
  | group shape (item :: items) =>
    compactItems (compactOnto (out ++ shape.compactOpening) item) items ++ shape.compactClosing

/-- The items behind the first one, each behind a comma. -/
def compactItems (out : String) : List Document → String
  | [] => out
  | item :: items => compactItems (compactOnto (out ++ ", ") item) items

end

/-- The rendering on one line. -/
def compact (d : Document) : String := compactOnto "" d

/-! ## One item per line -/

/-- The start of a line. -/
def margin (depth : Nat) : String := String.ofList (List.replicate (4 * depth) ' ')

mutual

/-- The rendering with one item per line, behind what is already written. -/
def indentedOnto (depth : Nat) (out : String) : Document → String
  | leaf text => out ++ text
  | field label value => indentedOnto depth (out ++ label ++ ": ") value
  | group shape [] => out ++ shape.empty
  | group shape (item :: items) =>
    indentedItems (depth + 1) (out ++ shape.opening ++ "\n") (item :: items)
      ++ margin depth ++ shape.closing

/-- The items of a group, each on lines of its own. -/
def indentedItems (depth : Nat) (out : String) : List Document → String
  | [] => out
  | item :: items =>
    indentedItems depth (indentedOnto depth (out ++ margin depth) item ++ ",\n") items

end

/-- The rendering with one item per line. -/
def indented (d : Document) : String := indentedOnto 0 "" d

/-! ## The text already written stays in front -/

mutual

theorem compactOnto_eq (out : String) : (d : Document) →
    compactOnto out d = out ++ compactOnto "" d
  | leaf text => by simp [compactOnto]
  | field label value => by
    simp only [compactOnto]
    rw [compactOnto_eq (out ++ label ++ ": "), compactOnto_eq ("" ++ label ++ ": ")]
    simp [String.append_assoc]
  | group shape [] => by simp [compactOnto]
  | group shape (item :: items) => by
    simp only [compactOnto]
    rw [compactItems_eq, compactOnto_eq (out ++ _), compactItems_eq (compactOnto ("" ++ _) item),
      compactOnto_eq ("" ++ _)]
    simp [String.append_assoc]

theorem compactItems_eq (out : String) : (items : List Document) →
    compactItems out items = out ++ compactItems "" items
  | [] => by simp [compactItems]
  | item :: items => by
    simp only [compactItems]
    rw [compactItems_eq (compactOnto (out ++ ", ") item),
      compactItems_eq (compactOnto ("" ++ ", ") item), compactOnto_eq (out ++ ", "),
      compactOnto_eq ("" ++ ", ")]
    simp [String.append_assoc]

end

mutual

theorem indentedOnto_eq (depth : Nat) (out : String) : (d : Document) →
    indentedOnto depth out d = out ++ indentedOnto depth "" d
  | leaf text => by simp [indentedOnto]
  | field label value => by
    simp only [indentedOnto]
    rw [indentedOnto_eq depth (out ++ label ++ ": "), indentedOnto_eq depth ("" ++ label ++ ": ")]
    simp [String.append_assoc]
  | group shape [] => by simp [indentedOnto]
  | group shape (item :: items) => by
    simp only [indentedOnto]
    rw [indentedItems_eq (depth + 1) (out ++ _ ++ _),
      indentedItems_eq (depth + 1) ("" ++ _ ++ _)]
    simp [String.append_assoc]

theorem indentedItems_eq (depth : Nat) (out : String) : (items : List Document) →
    indentedItems depth out items = out ++ indentedItems depth "" items
  | [] => by simp [indentedItems]
  | item :: items => by
    simp only [indentedItems]
    rw [indentedItems_eq depth (_ ++ ",\n"), indentedItems_eq depth (_ ++ ",\n"),
      indentedOnto_eq depth (out ++ _), indentedOnto_eq depth ("" ++ _)]
    simp [String.append_assoc]

end

/-- A labelled value, on one line and on several. -/
example :
    (group (.record "Point") [field "x" (number 1), field "rest" (group .list [])]).compact
      = "Point \x7b x: 1, rest: [] \x7d" := by decide +kernel

end Document
end ClassFormat
