import ClassFormat.ClassFile.Basic

/-!
# The report on a class file

The report is a list of lines, and most lines need something to be looked up in the pool.  It is
built as a list of `Step`s, each of which either gives its lines or has failed; what is printed is
what stands in front of the first failure.  So the order of the steps is the order in which failures
count.

## What is here

* `line`, `labelled` and `attributeLines` — the steps.  One that lists the names of some attributes
  fails if one of them has no text, and gives no line if there are none.
* `classSteps`, `fieldSteps`, `methodSteps` and `entrySteps` — the four parts, and `steps`, which
  puts them in order: the class itself, the fields, the methods, and where a program starts.
* `printed` — the lines up to the first failure, and that failure.  It goes through the steps in a
  loop; `printed_ok_cons` and `printed_error_cons` are its equations, and `printed_append` says how
  a report that is made of two parts fails.

The lines of a step are all printed or none of them is: a step that fails has no lines.
-/

set_option autoImplicit false

namespace ClassFormat
namespace Report

/-- A part of the report: its lines, or the error of the look-up that they need. -/
abbrev Step : Type := Except FormatError (List String)

/-- A line that needs nothing. -/
def line (text : String) : Step := .ok [text]

/-- A line with a label. -/
def labelled (label : String) (value : Except FormatError String) : Step :=
  value.map fun text => [label ++ ": " ++ text]

/-- The names of some attributes, on one line; no line if there are none. -/
def attributeLines (pool : ConstantPool) (attributes : List Attribute) : Step :=
  if attributes.isEmpty then
    .ok []
  else
    labelled "attributes"
      ((attributes.mapM fun a => pool.utf8 a.name).map fun names => ", ".intercalate names)

/-- What the report says of the class itself. -/
def classSteps (c : ClassFile) : List Step :=
  [line ("magic: " ++ String.ofList (Nat.toDigits 16 magicNumber.toNat)),
    line ("minor version: " ++ toString c.minorVersion.toNat),
    line ("major version: " ++ toString c.majorVersion.toNat),
    line ("constant pool count: " ++ toString c.pool.count),
    line ("access flags: " ++ FlagOwner.classFile.text c.accessFlags),
    labelled "this class" c.className,
    labelled "super class" (c.superClassName.map fun name => name.getD ""),
    labelled "interfaces" (c.interfaceNames.map fun names => ", ".intercalate names),
    c.sourceFile.map fun file => (file.map fun name => "source file: " ++ name).toList,
    attributeLines c.pool c.attributes]

/-- What the report says of a field. -/
def fieldSteps (pool : ConstantPool) (m : Member) : List Step :=
  [line "",
    labelled "field name" (m.nameText pool),
    line ("access flags: " ++ FlagOwner.field.text m.accessFlags),
    labelled "descriptor" (m.descriptorText pool),
    attributeLines pool m.attributes]

/-- The size of a method body; no line if there is no body. -/
def codeLines (attributes : List Attribute) : List String :=
  match Attribute.firstCode? attributes with
  | some (body, _) =>
    ["code: stack=" ++ toString body.maxStack.toNat ++ ", locals="
      ++ toString body.maxLocals.toNat ++ ", " ++ toString body.bytecode.length ++ " bytes"]
  | none => []

/-- What the report says of a method. -/
def methodSteps (pool : ConstantPool) (m : Member) : List Step :=
  [line "",
    labelled "method name" (m.nameText pool),
    line ("access flags: " ++ FlagOwner.method.text m.accessFlags),
    labelled "descriptor" (m.descriptorText pool),
    .ok (codeLines m.attributes),
    attributeLines pool m.attributes]

/-- What the report says of the method that a program starts from. -/
def entrySteps (c : ClassFile) : List Step :=
  match c.entryPoint with
  | .error e => [.error e]
  | .ok none => []
  | .ok (some (_, m)) =>
    [line "",
      labelled "entry point" (do
        let name ← m.nameText c.pool
        let descriptor ← m.descriptorText c.pool
        pure (name ++ descriptor))]

/-- The whole report. -/
def steps (c : ClassFile) : List Step :=
  classSteps c
    ++ line ("fields count: " ++ toString c.fields.length) :: c.fields.flatMap (fieldSteps c.pool)
    ++ line "" :: line ("methods count: " ++ toString c.methods.length)
      :: c.methods.flatMap (methodSteps c.pool)
    ++ entrySteps c

/-- The lines in front of the first failure, behind those already found, and that failure. -/
def printedOnto (found : List String) : List Step → List String × Option FormatError
  | [] => (found.reverse, none)
  | .ok lines :: steps => printedOnto (lines.reverse ++ found) steps
  | .error e :: _ => (found.reverse, some e)

/-- The lines in front of the first failure, and that failure. -/
def printed (steps : List Step) : List String × Option FormatError := printedOnto [] steps

theorem printedOnto_eq (found : List String) (steps : List Step) :
    printedOnto found steps = (found.reverse ++ (printed steps).1, (printed steps).2) := by
  induction steps generalizing found with
  | nil => simp [printed, printedOnto]
  | cons step steps ih =>
    cases step with
    | error e => simp [printed, printedOnto]
    | ok lines =>
      rw [printed, printedOnto, printedOnto, ih, ih (lines.reverse ++ [])]
      simp

theorem printed_ok_cons (lines : List String) (steps : List Step) :
    printed (.ok lines :: steps) = (lines ++ (printed steps).1, (printed steps).2) := by
  rw [printed, printedOnto, printedOnto_eq]
  simp

theorem printed_error_cons (e : FormatError) (steps : List Step) :
    printed (.error e :: steps) = ([], some e) := rfl

/-- **What fails first ends the report,** and what comes before is printed. -/
theorem printed_append (front back : List Step) :
    printed (front ++ back) =
      match printed front with
      | (lines, none) => (lines ++ (printed back).1, (printed back).2)
      | failed => failed := by
  induction front with
  | nil => simp [printed, printedOnto]
  | cons step front ih =>
    cases step with
    | error e => rw [List.cons_append, printed_error_cons, printed_error_cons]
    | ok lines =>
      rw [List.cons_append, printed_ok_cons, printed_ok_cons, ih]
      rcases printed front with ⟨lines', _ | e⟩ <;> simp

end Report
end ClassFormat
