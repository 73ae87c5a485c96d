import ClassFormat.Report.Lines

/-!
# Lines and the look-ups that they need

The report is printed by steps of which each may fail.  Here it is described without failures: a
`Line` has the text that it shows if all goes well, and the look-ups that it needs.  `told` are the
lines in front of the first look-up that fails, and `Tells` says that steps print just that.

Steps that tell lines are put together as the report is, one behind the other.  What comes behind
need not tell its lines unless all look-ups in front of it have succeeded, so that it may rely on
what they have found.

## What is here

* `shown` and `fault?` — the two halves of a look-up, and `firstFault?`, the first error among
  several.
* `Line.plain`, `Line.needing` and `Line.listing` — the lines of the report, by what they need.
* `told_of_none` and `told_of_some` — which lines are told, by whether a look-up fails.
* `Tells.append` — steps in a row.  The second half may assume that nothing in the first has failed;
  this is what the search for the entry point needs.
* `Tells.labelled`, `Tells.listing` and the others — one lemma for each sort of step.
-/

set_option autoImplicit false

namespace ClassFormat
namespace Report

/-! ## Look-ups

A list of look-ups that is made by `mapM` stops at the first one that fails.  The last two lemmas
say so; with them, nothing below has to be said about `mapM`. -/

/-- A text that is looked up. -/
abbrev LookUp : Type := Except FormatError String

/-- The error of a look-up, if it fails. -/
def fault? : LookUp → Option FormatError
  | .ok _ => none
  | .error e => some e

/-- The text that is found by a look-up; nothing if it fails. -/
def shown : LookUp → String
  | .ok text => text
  | .error _ => ""

/-- The error of the first look-up that fails. -/
def firstFault? (needs : List LookUp) : Option FormatError := needs.findSome? fault?

variable {r : LookUp} {needs front back : List LookUp} {e : FormatError}

theorem fault?_eq_none_iff : fault? r = none ↔ ∃ text, r = .ok text := by
  cases r <;> simp [fault?]

/-- Only what is found shows a text. -/
theorem eq_ok_of_shown {text : String} (h : shown r = text) (htext : text ≠ "") :
    r = .ok text := by
  cases r with
  | ok found => exact congrArg _ h
  | error e => exact absurd h.symm htext

theorem firstFault?_eq_none_iff : firstFault? needs = none ↔ ∀ r ∈ needs, ∃ text, r = .ok text := by
  simp [firstFault?, List.findSome?_eq_none_iff, fault?_eq_none_iff]

theorem firstFault?_append :
    firstFault? (front ++ back) = (firstFault? front).or (firstFault? back) :=
  List.findSome?_append

theorem firstFault?_append_eq_none_iff :
    firstFault? (front ++ back) = none ↔ firstFault? front = none ∧ firstFault? back = none := by
  rw [firstFault?_append, Option.or_eq_none_iff]

section Lists

variable {α : Type} {f : α → LookUp} {xs : List α}

theorem mapM_of_firstFault?_eq_none (h : firstFault? (xs.map f) = none) :
    xs.mapM f = .ok ((xs.map f).map shown) := by
  induction xs with
  | nil => rfl
  | cons x xs ih =>
    rw [List.map_cons, firstFault?, List.findSome?_cons] at h
    cases hx : f x with
    | error e => simp [hx, fault?] at h
    | ok text =>
      rw [hx] at h
      rw [List.mapM_cons, ih h, hx, List.map_cons, hx]
      rfl

theorem mapM_of_firstFault?_eq_some (h : firstFault? (xs.map f) = some e) :
    xs.mapM f = .error e := by
  induction xs with
  | nil => cases h
  | cons x xs ih =>
    rw [List.map_cons, firstFault?, List.findSome?_cons] at h
    cases hx : f x with
    | error e' =>
      obtain rfl : e' = e := by simpa [hx, fault?] using h
      rw [List.mapM_cons, hx]
      rfl
    | ok text =>
      rw [hx] at h
      rw [List.mapM_cons, ih h, hx]
      rfl

end Lists

/-! ## Lines -/

/-- A line of the report, as it is if its look-ups succeed, and these look-ups in their order. -/
structure Line where
  text : String
  needs : List LookUp

namespace Line

/-- A line that needs nothing. -/
def plain (text : String) : Line := ⟨text, []⟩

/-- A line with a label and one text that is looked up. -/
def needing (label : String) (r : LookUp) : Line := ⟨label ++ ": " ++ shown r, [r]⟩

/-- A line with a label and several texts that are looked up. -/
def listing (label : String) (needs : List LookUp) : Line :=
  ⟨label ++ ": " ++ ", ".intercalate (needs.map shown), needs⟩

end Line

/-- The lines in front of the first one whose look-ups fail, and that failure. -/
def told : List Line → List String × Option FormatError
  | [] => ([], none)
  | l :: lines =>
    match firstFault? l.needs with
    | some e => ([], some e)
    | none => (l.text :: (told lines).1, (told lines).2)

/-- The look-ups of some lines. -/
def needsOf (lines : List Line) : List LookUp := lines.flatMap Line.needs

theorem needsOf_cons (l : Line) (lines : List Line) :
    needsOf (l :: lines) = l.needs ++ needsOf lines := List.flatMap_cons

theorem needsOf_append (lines lines' : List Line) :
    needsOf (lines ++ lines') = needsOf lines ++ needsOf lines' := List.flatMap_append

theorem needsOf_map_plain (texts : List String) : needsOf (texts.map .plain) = [] := by
  simp [needsOf, Line.plain]

section Told

variable {l : Line} {lines lines' : List Line}

theorem told_cons_of_none (h : firstFault? l.needs = none) :
    told (l :: lines) = (l.text :: (told lines).1, (told lines).2) := by
  simp only [told, h]

theorem told_cons_of_some (h : firstFault? l.needs = some e) :
    told (l :: lines) = ([], some e) := by
  simp only [told, h]

/-- **If no look-up fails then all lines are told.** -/
theorem told_of_none (h : firstFault? (needsOf lines) = none) :
    told lines = (lines.map Line.text, none) := by
  induction lines with
  | nil => rfl
  | cons l lines ih =>
    rw [needsOf_cons, firstFault?_append_eq_none_iff] at h
    rw [told_cons_of_none h.1, ih h.2, List.map_cons]

/-- **If a look-up fails then the lines in front of it are told.** -/
theorem told_of_some (h : firstFault? (needsOf lines) = some e) :
    ∃ front l back, lines = front ++ l :: back ∧ firstFault? (needsOf front) = none ∧
      firstFault? l.needs = some e ∧ told lines = (front.map Line.text, some e) := by
  induction lines with
  | nil => cases h
  | cons l lines ih =>
    rw [needsOf_cons, firstFault?_append] at h
    cases hl : firstFault? l.needs with
    | some e' =>
      obtain rfl : e' = e := by simpa [hl] using h
      exact ⟨[], l, lines, rfl, rfl, hl, told_cons_of_some hl⟩
    | none =>
      rw [hl, Option.none_or] at h
      obtain ⟨front, l', back, rfl, hfront, hl', htold⟩ := ih h
      refine ⟨l :: front, l', back, rfl, ?_, hl', ?_⟩
      · rw [needsOf_cons, firstFault?_append_eq_none_iff]
        exact ⟨hl, hfront⟩
      · rw [told_cons_of_none hl, htold, List.map_cons]

theorem told_append : told (lines ++ lines') =
    match told lines with
    | (texts, none) => (texts ++ (told lines').1, (told lines').2)
    | failed => failed := by
  induction lines with
  | nil => rfl
  | cons l lines ih =>
    cases hl : firstFault? l.needs with
    | some e => rw [List.cons_append, told_cons_of_some hl, told_cons_of_some hl]
    | none =>
      rw [List.cons_append, told_cons_of_none hl, told_cons_of_none hl, ih]
      rcases told lines with ⟨texts, _ | e⟩ <;> rfl

end Told

/-! ## Steps that tell lines -/

/-- Whether some steps print just what is told of some lines. -/
def Tells (steps : List Step) (lines : List Line) : Prop := printed steps = told lines

namespace Tells

variable {steps steps' : List Step} {lines lines' : List Line}

theorem nil : Tells [] [] := rfl

/-- Steps behind others matter only if those have not failed. -/
theorem append (h : Tells steps lines)
    (h' : firstFault? (needsOf lines) = none → Tells steps' lines') :
    Tells (steps ++ steps') (lines ++ lines') := by
  rw [Tells, printed_append, told_append, h]
  cases hfault : firstFault? (needsOf lines) with
  | none => rw [told_of_none hfault, h' hfault]
  | some e =>
    obtain ⟨front, l, back, -, -, -, htold⟩ := told_of_some hfault
    rw [htold]

theorem line (text : String) : Tells [Report.line text] [.plain text] := rfl

theorem labelled (label : String) (r : LookUp) :
    Tells [Report.labelled label r] [.needing label r] := by
  cases r <;> rfl

theorem cons {step : Step} (h : Tells [step] lines) (h' : Tells steps lines') :
    Tells (step :: steps) (lines ++ lines') :=
  h.append fun _ => h'

theorem flatMap {α : Type} {f : α → List Step} {g : α → List Line} {xs : List α}
    (h : ∀ x ∈ xs, Tells (f x) (g x)) : Tells (xs.flatMap f) (xs.flatMap g) := by
  induction xs with
  | nil => exact nil
  | cons x xs ih =>
    obtain ⟨hx, hxs⟩ := List.forall_mem_cons.1 h
    rw [List.flatMap_cons, List.flatMap_cons]
    exact hx.append fun _ => ih hxs

theorem texts (texts : List String) : Tells [.ok texts] (texts.map .plain) := by
  have htold : told (texts.map .plain) = (texts, none) := by
    rw [told_of_none (by rw [needsOf_map_plain]; rfl), List.map_map]
    simp [Function.comp_def, Line.plain]
  rw [Tells, htold, printed_ok_cons]
  exact congrArg (·, none) (List.append_nil texts)

theorem listing {α : Type} (label : String) (f : α → LookUp) (xs : List α) :
    Tells [Report.labelled label ((xs.mapM f).map fun names => ", ".intercalate names)]
      [.listing label (xs.map f)] := by
  cases hfault : firstFault? (xs.map f) with
  | none =>
    rw [mapM_of_firstFault?_eq_none hfault, Tells, told_cons_of_none hfault]
    rfl
  | some e =>
    rw [mapM_of_firstFault?_eq_some hfault, Tells, told_cons_of_some hfault]
    rfl

end Tells

end Report
end ClassFormat
