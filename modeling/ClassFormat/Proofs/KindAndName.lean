import ClassFormat.Proofs.AttributeFormat
import Mathlib.Data.List.Find

/-!
# The kind and the name of an attribute

The name of an attribute selects its kind when it is read, and both are kept.  Afterwards there are
two ways to look for an attribute: by its kind, and by resolving its name once more.
`lookups_agree` says that they lead to the same attribute in everything that is read, in the list
itself and in the lists inside its method bodies at every depth, also where a name occurs twice.

What is needed of a list is only that each name in it is a text that selects the kind of its
attribute, `IsSelected`; the reader accepts nothing else.

## What is here

* `Kind.word?` — the name by which a kind goes.  It is an inverse of `Kind.ofName` on the six known
  kinds (`Kind.ofName_eq_iff`), and `Kind.ofName_eq_other_iff` says what is left for the seventh.
* `IsLevelOf` — the lists that are found in a list, at any depth.  A condition on all attributes at
  every depth holds in each of them (`EverywhereIn.of_isLevelOf`), so that a statement about one
  list is one about all of them.
* `findNamed?_eq_find?` — a look-up by name is a search for a kind.
* `findSome?_eq_findNamed?_bind` — what a look-up by kind finds in an attribute is found in the one
  that has the name.  `firstCode?` and `firstSourceFile?` are both of this form.
* `NamesAgree` — what is said of each list.
-/

set_option autoImplicit false

namespace ClassFormat
namespace Attribute

open Decoder

/-! ## Kinds and words -/

/-- The name by which an attribute of a kind goes; all kinds but `other` have one. -/
def Kind.word? : Kind → Option String
  | deprecated => some "Deprecated"
  | synthetic => some "Synthetic"
  | sourceFile => some "SourceFile"
  | constantValue => some "ConstantValue"
  | signature => some "Signature"
  | code => some "Code"
  | other => none

theorem Kind.ofName_word {k : Kind} {word : String} (h : k.word? = some word) :
    ofName word = k := by
  cases k <;> cases h <;> rfl

theorem Kind.word?_ofName {text : String} (h : ofName text ≠ other) :
    (ofName text).word? = some text := by
  revert h
  rw [ofName]
  split_ifs with h₁ h₂ h₃ h₄ h₅ h₆ <;> simp [word?, *]

/-- **A name selects a kind that has a word if and only if it is that word.** -/
theorem Kind.ofName_eq_iff {k : Kind} {word text : String} (h : k.word? = some word) :
    ofName text = k ↔ text = word := by
  constructor
  · rintro rfl
    have hother : ofName text ≠ other := fun hother => by rw [hother] at h; cases h
    exact Option.some.inj ((word?_ofName hother).symm.trans h)
  · rintro rfl
    exact ofName_word h

/-- **A name selects no known kind if and only if it is no word of any kind.** -/
theorem Kind.ofName_eq_other_iff {text : String} :
    ofName text = other ↔ ∀ k : Kind, k.word? ≠ some text := by
  constructor
  · rintro hother k hk
    rw [ofName_word hk] at hother
    rw [hother] at hk
    cases hk
  · intro h
    by_contra hother
    exact h _ (word?_ofName hother)

/-! ## Lists at every depth -/

/-- The lists of attributes found in a list: it is found itself, and so is the list inside each
method body in a list that is found. -/
inductive IsLevelOf (top : List Attribute) : List Attribute → Prop
  | self : IsLevelOf top top
  | inside {level : List Attribute} {name : UInt16} {body : Code} {attributes : List Attribute}
      (h : IsLevelOf top level) (ha : code name body attributes ∈ level) :
      IsLevelOf top attributes

theorem EverywhereIn.of_isLevelOf {p : Attribute → Prop} {top level : List Attribute}
    (htop : EverywhereIn p top) (h : IsLevelOf top level) : EverywhereIn p level := by
  induction h with
  | self => exact htop
  | inside _ ha ih => exact (everywhere_iff.1 (everywhereIn_iff.1 ih _ ha)).2

/-! ## Look-ups -/

variable {pool : ConstantPool} {attributes : List Attribute}

theorem isNamed_eq_of_isSelected {a : Attribute} (h : a.IsSelected pool) {k : Kind} {word : String}
    (hk : k.word? = some word) : isNamed pool word a = decide (a.kind = k) := by
  obtain ⟨text, htext, hkind⟩ := h
  rw [Bool.eq_iff_iff, isNamed_iff, htext, Except.ok.injEq, ← Kind.ofName_eq_iff hk, hkind,
    decide_eq_true_iff]

/-- **The first attribute of a kind is the first with the word of that kind.** -/
theorem findNamed?_eq_find? (h : ∀ a ∈ attributes, a.IsSelected pool) {k : Kind} {word : String}
    (hk : k.word? = some word) :
    findNamed? pool word attributes = attributes.find? (·.kind = k) :=
  List.find?_congr fun a ha => isNamed_eq_of_isSelected (h a ha) hk

/-- The first thing found in a list is found in the first member in which there is one. -/
theorem findSome?_eq_bind {α β : Type} (f : α → Option β) (xs : List α) :
    xs.findSome? f = (xs.find? fun x => (f x).isSome).bind f := by
  induction xs with
  | nil => rfl
  | cons x xs ih => cases hx : f x <;> simp [hx, ih]

/-- What is found in the first attribute of a kind, when it is found in just those of that kind, is
found in the first attribute with the word of that kind. -/
theorem findSome?_eq_findNamed?_bind {β : Type} {f : Attribute → Option β} {k : Kind}
    {word : String} (hf : ∀ a, (f a).isSome = decide (a.kind = k)) (hk : k.word? = some word)
    (h : ∀ a ∈ attributes, a.IsSelected pool) :
    attributes.findSome? f = (findNamed? pool word attributes).bind f ∧
      (attributes.findSome? f = none ↔ findNamed? pool word attributes = none) := by
  rw [findSome?_eq_bind, findNamed?_eq_find? h hk]
  simp only [hf, true_and]
  cases hfind : attributes.find? (·.kind = k) with
  | none => simp
  | some a =>
    have ha : a.kind = k := by simpa using List.find?_some hfind
    have hsome : (f a).isSome = true := by rw [hf, decide_eq_true ha]
    simpa [Option.isSome_iff_ne_none] using hsome

/-- Whether kinds and names say the same of the attributes in a list. -/
structure NamesAgree (pool : ConstantPool) (level : List Attribute) : Prop where
  /-- Every name is a text; it is the word of the kind, if that kind has one, and else no word. -/
  named : ∀ a ∈ level, ∃ text, pool.utf8 a.name = .ok text ∧
    (∀ (k : Kind) (word : String), k.word? = some word → (a.kind = k ↔ text = word)) ∧
    (a.kind = .other ↔ ∀ k : Kind, k.word? ≠ some text)
  /-- A mark of deprecation is found if there is one by name. -/
  deprecated : hasDeprecated level = true ↔ ∃ a, findNamed? pool "Deprecated" level = some a
  /-- Code is found in the attribute that is found by name, and only there. -/
  code : firstCode? level = (findNamed? pool "Code" level).bind code? ∧
    (firstCode? level = none ↔ findNamed? pool "Code" level = none)
  /-- So is the name of a source file. -/
  sourceFile : firstSourceFile? level = (findNamed? pool "SourceFile" level).bind sourceFile? ∧
    (firstSourceFile? level = none ↔ findNamed? pool "SourceFile" level = none)

theorem namesAgree_of_isSelected (h : ∀ a ∈ attributes, a.IsSelected pool) :
    NamesAgree pool attributes where
  named a ha := by
    obtain ⟨text, htext, hkind⟩ := h a ha
    refine ⟨text, htext, fun k word hk => ?_, ?_⟩
    · rw [← hkind, Kind.ofName_eq_iff hk]
    · rw [← hkind, Kind.ofName_eq_other_iff]
  deprecated := by
    rw [findNamed?_eq_find? h (k := .deprecated) rfl, hasDeprecated, ← Option.isSome_iff_exists,
      List.find?_isSome, List.any_eq_true]
  code := findSome?_eq_findNamed?_bind (k := .code) code?_isSome rfl h
  sourceFile :=
    findSome?_eq_findNamed?_bind (k := .sourceFile) (fun a => by cases a <;> rfl) rfl h

/-- **Looking for an attribute by its kind is looking for it by its name.**  As many attributes are
read as are asked for, and in each list at each depth the two ways lead to the same attribute. -/
theorem lookups_agree {count : UInt16} {s s' : Progress}
    (h : (decode pool count).run s = (.ok attributes, s')) :
    attributes.length = count.toNat ∧
      ∀ level, IsLevelOf attributes level → NamesAgree pool level := by
  have hread := reads_decode pool count s attributes s'.cursor (Nat.lt_succ_self _)
  obtain ⟨_, ⟨-, hlength, hfits⟩, -⟩ := hread.1 ⟨s'.log, h⟩
  refine ⟨hlength, fun level hlevel => namesAgree_of_isSelected fun a ha => ?_⟩
  exact (everywhereIn_iff.1 (hfits.of_isLevelOf hlevel) a ha).self.1

/-- Two names, the second of them that of a kind without attributes of its own. -/
def twoNames : ConstantPool := ⟨#[some (.utf8 "Code"), some (.utf8 "Deprecated")]⟩

/-- A method body with two attributes of the same name inside. -/
def markedBody : List UInt8 :=
  [0, 1, 0, 0, 0, 24, 0, 1, 0, 1, 0, 0, 0, 0, 0, 0, 0, 2,
    0, 2, 0, 0, 0, 0, 0, 2, 0, 0, 0, 0]

/-- The attributes read from it. -/
def markedAttributes : List Attribute := [.code 1 ⟨1, 1, [], []⟩ [.deprecated 2, .deprecated 2]]

theorem fits_markedAttributes : EverywhereIn (Fits twoNames) markedAttributes := by
  have hmark : Fits twoNames (.deprecated 2) := ⟨⟨"Deprecated", rfl, rfl⟩, by decide, trivial⟩
  have hbody : Fits twoNames (.code 1 ⟨1, 1, [], []⟩ [.deprecated 2, .deprecated 2]) :=
    ⟨⟨"Code", rfl, rfl⟩, by decide, by decide, by decide⟩
  exact ⟨⟨hbody, hmark, hmark, trivial⟩, trivial⟩

theorem lookups_agree_markedBody :
    ∃ s', (decode twoNames 1).run (.start markedBody) = (.ok markedAttributes, s') ∧
      markedAttributes.length = (1 : UInt16).toNat ∧
      ∀ level, IsLevelOf markedAttributes level → NamesAgree twoNames level := by
  have hread := reads_decode twoNames 1 (.start markedBody) markedAttributes ⟨30, []⟩
    (Nat.lt_succ_self _)
  obtain ⟨log, h⟩ := hread.2
    ⟨markedBody, ⟨by decide +kernel, rfl, fits_markedAttributes⟩, by decide, by decide⟩
  exact ⟨_, h, lookups_agree h⟩

end Attribute
end ClassFormat
