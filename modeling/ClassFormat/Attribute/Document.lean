import ClassFormat.Attribute.Basic

/-!
# The debug text of attributes

Attributes are shown with everything but the bytes in them: of instructions and of unknown payloads
only the number of bytes is told, between quotes (`byteCount`).

* `Attribute.document` — one attribute: the index of its name, and behind it a word for its kind
  around what it holds.  An unknown payload has no word.
* `Attribute.listDocument` — a list of attributes, which is itself the value of a field.

The documents of a list are collected by a loop, `documentsOnto`, so that only the depth of nesting
costs stack and not the length of a list; `listDocument_eq` is the form without it.  Which
attributes have the same debug text is answered in `ClassFormat.Proofs.AttributeText`.
-/

set_option autoImplicit false

namespace ClassFormat

open Document

/-- A number of bytes, between quotes. -/
def byteCount (run : List UInt8) : Document :=
  leaf (Quoted.quoted ("(" ++ toString run.length ++ " bytes)"))

/-- The debug text of a handler, as a document. -/
def Handler.document (h : Handler) : Document :=
  group (.record "ExceptionTableEntry")
    [field "start_pc" (number h.startPc.toNat), field "end_pc" (number h.endPc.toNat),
      field "handler_pc" (number h.handlerPc.toNat), field "catch_type" (number h.catchType.toNat)]

/-- The debug text of a method body, as a document, given that of its attributes. -/
def Code.document (body : Code) (attributes : Document) : Document :=
  group (.record "CodeAttribute")
    [field "max_stack" (number body.maxStack.toNat),
      field "max_locals" (number body.maxLocals.toNat),
      field "code" (byteCount body.bytecode),
      field "exception_table" (group .list (body.handlers.map Handler.document)),
      field "attributes" attributes]

namespace Attribute

/-- An attribute around what it holds. -/
def framed (name : UInt16) (content : Document) : Document :=
  group (.record "Attribute")
    [field "attribute_name_index" (number name.toNat), field "info" content]

/-- The debug text of a list of attributes, as a document, given those of its members. -/
def listed (members : List Document) : Document :=
  group (.tuple "Attributes") [group .list members]

mutual

/-- The debug text of an attribute, as a document. -/
def document : Attribute → Document
  | deprecated name => framed name (leaf "Deprecated")
  | synthetic name => framed name (leaf "Synthetic")
  | sourceFile name file =>
    framed name (group (.record "SourceFile") [field "sourcefile_index" (number file.toNat)])
  | constantValue name value =>
    framed name (group (.record "ConstantValue") [field "constantvalue_index" (number value.toNat)])
  | signature name text =>
    framed name (group (.record "Signature") [field "signature_index" (number text.toNat)])
  | code name body attributes =>
    framed name (group (.tuple "Code") [body.document (listed (documentsOnto [] attributes))])
  | other name payload => framed name (byteCount payload)

/-- The debug texts of some attributes, behind those already found. -/
def documentsOnto (found : List Document) : List Attribute → List Document
  | [] => found.reverse
  | a :: attributes => documentsOnto (a.document :: found) attributes

end

/-- The debug text of a list of attributes, as a document. -/
def listDocument (attributes : List Attribute) : Document :=
  listed (documentsOnto [] attributes)

theorem documentsOnto_eq (found : List Document) (attributes : List Attribute) :
    documentsOnto found attributes = found.reverse ++ attributes.map document := by
  induction attributes generalizing found with
  | nil => simp [documentsOnto]
  | cons a attributes ih => simp [documentsOnto, ih]

theorem listDocument_eq (attributes : List Attribute) :
    listDocument attributes = listed (attributes.map document) := by
  simp [listDocument, documentsOnto_eq]

end Attribute
end ClassFormat
