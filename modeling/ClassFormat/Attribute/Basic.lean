import ClassFormat.ConstantPool.Basic

/-!
# Attributes

Class files, fields, methods and method bodies carry attributes.  The name of an attribute is an
index into the constant pool, and the text there selects the `Kind` of the attribute and with it the
layout of what it holds.  Six names are known; an attribute with any other name keeps its bytes as
they are.  Code is the only kind that has attributes of its own.

## What is here

* `Attribute` — an attribute with the index of its name and what it holds.  The text of the name is
  not part of it, since it is in the pool.  A method body is a `Code`, with a `Handler` for each
  range whose exceptions it handles; the attributes inside it stand beside it and not in it, so that
  `Attribute` is the only type here that refers to itself.
* `Kind.ofName` — the kind that a name selects.
* `firstCode?`, `firstSourceFile?`, `hasDeprecated` — look-ups by kind, which need no pool.
* `findNamed?` — the look-up by name.  It goes through the pool, and passes over attributes whose
  name is not a text.

Nothing in the type keeps an attribute from having a name that selects another kind.  The reader
gives no such attribute, and on what it gives the two ways to look for one agree; this is shown in
`ClassFormat.Proofs.KindAndName`.
-/

set_option autoImplicit false

namespace ClassFormat

/-- A range of instructions with the place where its exceptions are handled. -/
structure Handler where
  startPc : UInt16
  endPc : UInt16
  handlerPc : UInt16
  catchType : UInt16
deriving DecidableEq, Repr

/-- The body of a method, without its attributes. -/
structure Code where
  maxStack : UInt16
  maxLocals : UInt16
  bytecode : List UInt8
  handlers : List Handler
deriving DecidableEq, Repr

/-- An attribute; the first index is that of its name. -/
inductive Attribute
  | deprecated (name : UInt16)
  | synthetic (name : UInt16)
  | sourceFile (name : UInt16) (file : UInt16)
  | constantValue (name : UInt16) (value : UInt16)
  | signature (name : UInt16) (text : UInt16)
  | code (name : UInt16) (body : Code) (attributes : List Attribute)
  | other (name : UInt16) (payload : List UInt8)
deriving Repr

namespace Attribute

/-- The kinds of attributes. -/
inductive Kind
  | deprecated
  | synthetic
  | sourceFile
  | constantValue
  | signature
  | code
  | other
deriving DecidableEq, Repr

/-- The kind that a name selects. -/
def Kind.ofName (name : String) : Kind :=
  if name = "Deprecated" then .deprecated
  else if name = "Synthetic" then .synthetic
  else if name = "SourceFile" then .sourceFile
  else if name = "ConstantValue" then .constantValue
  else if name = "Signature" then .signature
  else if name = "Code" then .code
  else .other

/-- The kind of an attribute. -/
def kind : Attribute → Kind
  | deprecated _ => .deprecated
  | synthetic _ => .synthetic
  | sourceFile _ _ => .sourceFile
  | constantValue _ _ => .constantValue
  | signature _ _ => .signature
  | code _ _ _ => .code
  | other _ _ => .other

/-- The index of the name of an attribute. -/
def name : Attribute → UInt16
  | deprecated name => name
  | synthetic name => name
  | sourceFile name _ => name
  | constantValue name _ => name
  | signature name _ => name
  | code name _ _ => name
  | other name _ => name

/-! ## Look-ups -/

/-- Whether the name of an attribute is a given text. -/
def isNamed (pool : ConstantPool) (text : String) (a : Attribute) : Bool :=
  match pool.utf8 a.name with
  | .ok name => name == text
  | .error _ => false

/-- The first attribute with a name. -/
def findNamed? (pool : ConstantPool) (text : String) (attributes : List Attribute) :
    Option Attribute :=
  attributes.find? (isNamed pool text)

/-- Whether an attribute holds code. -/
def isCode (a : Attribute) : Bool := a.kind = .code

/-- The code in an attribute, with the attributes of the code. -/
def code? : Attribute → Option (Code × List Attribute)
  | code _ body attributes => some (body, attributes)
  | _ => none

/-- The index of the file name in an attribute. -/
def sourceFile? : Attribute → Option UInt16
  | sourceFile _ file => some file
  | _ => none

/-- Whether there is a mark of deprecation. -/
def hasDeprecated (attributes : List Attribute) : Bool :=
  attributes.any (·.kind = .deprecated)

/-- The first code, with its attributes. -/
def firstCode? (attributes : List Attribute) : Option (Code × List Attribute) :=
  attributes.findSome? code?

/-- The index of the first name of a source file. -/
def firstSourceFile? (attributes : List Attribute) : Option UInt16 :=
  attributes.findSome? sourceFile?

theorem isNamed_iff {pool : ConstantPool} {text : String} {a : Attribute} :
    isNamed pool text a = true ↔ pool.utf8 a.name = .ok text := by
  rw [isNamed]
  cases pool.utf8 a.name <;> simp

theorem code?_isSome (a : Attribute) : a.code?.isSome = a.isCode := by
  cases a <;> rfl

end Attribute
end ClassFormat
