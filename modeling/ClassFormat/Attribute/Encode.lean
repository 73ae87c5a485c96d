import ClassFormat.Attribute.Basic

/-!
# Writing attributes

The stored form of an attribute: the index of its name, the length of its payload, and the payload.
The payload of code holds the stored forms of the attributes inside it, so a length counts
everything below it.

An attribute comes back from its stored form only if its name selects its kind, at every depth;
`Everywhere` carries a condition through all depths.

## What is here

* `stored` — a payload behind its header, which takes six bytes (`length_stored`).
* `payload` and `encodeAll` — the recursion through the attributes of method bodies;
  `encodeAll_eq_flatMap` says that a list is stored member by member.
* `Everywhere p` and `EverywhereIn p` — that `p` holds of an attribute, or of all attributes of a
  list, and of all attributes inside.
* `IsSelected` — that the name is a text which selects the kind.  This is the only condition here
  that depends on a pool.
* `IsSmall` — that the length of the payload fits in four bytes and the counts in it in two.  The
  writer itself does not look: it cuts a number down to the width in which it is written.
* `Storable` — both of them at every depth, and a length of the list that fits in two bytes.
-/

set_option autoImplicit false

namespace ClassFormat

open BigEndian

/-- The stored form of a handler. -/
def Handler.encode (h : Handler) : List UInt8 :=
  bytes 2 h.startPc.toNat ++ bytes 2 h.endPc.toNat ++ bytes 2 h.handlerPc.toNat
    ++ bytes 2 h.catchType.toNat

/-- The stored form of a method body, up to its attributes. -/
def Code.encode (body : Code) : List UInt8 :=
  bytes 2 body.maxStack.toNat ++ bytes 2 body.maxLocals.toNat
    ++ bytes 4 body.bytecode.length ++ body.bytecode
    ++ bytes 2 body.handlers.length ++ body.handlers.flatMap Handler.encode

namespace Attribute

/-- A payload behind the index of a name and the length. -/
def stored (name : UInt16) (payload : List UInt8) : List UInt8 :=
  bytes 2 name.toNat ++ bytes 4 payload.length ++ payload

mutual

/-- The stored form of what an attribute holds. -/
def payload : Attribute → List UInt8
  | deprecated _ => []
  | synthetic _ => []
  | sourceFile _ file => bytes 2 file.toNat
  | constantValue _ value => bytes 2 value.toNat
  | signature _ text => bytes 2 text.toNat
  | code _ body attributes => body.encode ++ bytes 2 attributes.length ++ encodeAll attributes
  | other _ payload => payload

/-- The stored forms of some attributes, one behind the other. -/
def encodeAll : List Attribute → List UInt8
  | [] => []
  | a :: attributes => stored a.name a.payload ++ encodeAll attributes

end

/-- The stored form of an attribute. -/
def encode (a : Attribute) : List UInt8 := stored a.name a.payload

theorem encodeAll_eq_flatMap (attributes : List Attribute) :
    encodeAll attributes = attributes.flatMap encode := by
  induction attributes with
  | nil => rfl
  | cons a attributes ih => rw [encodeAll, ih, List.flatMap_cons, encode]

theorem length_stored (name : UInt16) (payload : List UInt8) :
    (stored name payload).length = 6 + payload.length := by
  simp [stored]; omega

/-! ## Conditions at every depth -/

mutual

/-- Whether a condition holds of an attribute and of all attributes inside it. -/
def Everywhere (p : Attribute → Prop) : Attribute → Prop
  | code name body attributes => p (code name body attributes) ∧ EverywhereIn p attributes
  | a => p a

/-- Whether a condition holds of some attributes and of all attributes inside them. -/
def EverywhereIn (p : Attribute → Prop) : List Attribute → Prop
  | [] => True
  | a :: attributes => Everywhere p a ∧ EverywhereIn p attributes

end

theorem everywhereIn_iff {p : Attribute → Prop} {attributes : List Attribute} :
    EverywhereIn p attributes ↔ ∀ a ∈ attributes, Everywhere p a := by
  induction attributes with
  | nil => simp [EverywhereIn]
  | cons a attributes ih => simp [EverywhereIn, ih]

/-- What holds everywhere in an attribute holds of it. -/
theorem Everywhere.self {p : Attribute → Prop} {a : Attribute} (h : Everywhere p a) : p a := by
  cases a with
  | code => exact h.1
  | _ => exact h

/-- Whether the name of an attribute is a text that selects its kind. -/
def IsSelected (pool : ConstantPool) (a : Attribute) : Prop :=
  ∃ text, pool.utf8 a.name = .ok text ∧ Kind.ofName text = a.kind

/-- Whether the lengths and counts in an attribute can be stored. -/
def IsSmall (a : Attribute) : Prop :=
  a.payload.length < limit 4 ∧
    match a with
    | code _ body attributes => body.handlers.length < limit 2 ∧ attributes.length < limit 2
    | _ => True

/-- Whether an attribute can be stored and comes back, if those inside it do. -/
def Fits (pool : ConstantPool) (a : Attribute) : Prop := a.IsSelected pool ∧ a.IsSmall

/-- Whether some attributes can be stored and come back. -/
def Storable (pool : ConstantPool) (attributes : List Attribute) : Prop :=
  attributes.length < limit 2 ∧ EverywhereIn (Fits pool) attributes

end Attribute
end ClassFormat
