import ClassFormat.ConstantPool.Basic

/-!
# A symbol is one step away from its text

What an index stands for is found in at most two look-ups: the constant under the index, and the
text that this constant refers to.  `resolution_single_hop` says which texts are found, for every
pool and every index, and that an error puts the blame where it belongs: on the first index of the
two that is bad, and there on the look-up, if no constant has that index, or else on the constant,
which is shown together with what was looked for.

Nothing is assumed about a pool.  Its references may lead nowhere, to themselves, or in a circle.

* `Constant.textIndex?` is the index that a reference to a single text holds, whatever its kind;
  with it, five cases of resolution are one.
* `LeadsNowhere` says in terms of the slots when an index has no constant.
* `Blames` is what may be said against an index under which something was looked for.  It is one
  relation for all look-ups, by what they expect, and `blames_iff` ties it to the look-up itself.
* Each resolver has one equivalence for what it finds and one for its errors: `className_eq_ok_iff`,
  `className_eq_error_iff`, `text_eq_ok_iff`, `text_eq_error_iff`.
* `utf8_eq_ok_iff_text` and `className_eq_ok_iff_text` compare them: who looks for a text constant
  or for a class finds the text that the general resolver finds, and only there.
-/

set_option autoImplicit false

namespace ClassFormat

/-- A group with items starts with its opening. -/
theorem Document.compact_group (shape : Shape) (item : Document) (items : List Document) :
    (group shape (item :: items)).compact =
      shape.compactOpening ++ (item.compact ++ compactItems "" items ++ shape.compactClosing) := by
  rw [compact, compactOnto, compactItems_eq, compactOnto_eq, String.empty_append, compact]
  simp only [String.append_assoc]

namespace Constant

/-- The index of the text that a constant refers to, if it refers to a single one. -/
def textIndex? : Constant → Option UInt16
  | classRef name => some name
  | stringRef text => some text
  | methodType descriptor => some descriptor
  | moduleRef name => some name
  | packageRef name => some name
  | _ => none

/-- The debug text of a constant starts with the name of its kind. -/
theorem debugText_eq (c : Constant) : ∃ rest, c.debugText = c.kind.name ++ rest := by
  cases c <;> exact ⟨_, (Document.compact_group _ _ _).trans (String.append_assoc ..)⟩

end Constant

/-- Whether a constant is what was looked for. -/
def Expected.Admits : Expected → Constant → Prop
  | kind k, c => c.kind = k
  | text, c => c.kind = .utf8 ∨ c.textIndex? ≠ none

namespace ConstantPool

/-- Whether no constant has an index: it is zero, or behind the last slot, or its slot is empty. -/
def LeadsNowhere (pool : ConstantPool) (index : UInt16) : Prop :=
  index = 0 ∨ pool.size < index.toNat ∨ pool.slots[index.toNat - 1]? = some none

/-- What may be said against an index under which something was looked for. -/
inductive Blames (pool : ConstantPool) (expected : Expected) (index : UInt16) : FormatError → Prop
  /-- No constant has the index. -/
  | nowhere : pool.LeadsNowhere index → Blames pool expected index (.invalidIndex index)
  /-- The constant with the index is not what was looked for. -/
  | other (found : Constant) : ¬ pool.LeadsNowhere index → pool.get index = .ok found →
      ¬ expected.Admits found → Blames pool expected index (.wrongKind index expected found)

variable {pool : ConstantPool} {index : UInt16}

/-! ## One look-up -/

theorem constant?_eq_none_iff : pool.constant? index = none ↔ pool.LeadsNowhere index := by
  rw [constant?, LeadsNowhere]
  by_cases hindex : index = 0
  · simp [hindex]
  · have hpos : 0 < index.toNat := Nat.pos_of_ne_zero fun h => hindex (UInt16.toNat_inj.1 h)
    rw [if_neg hindex]
    cases hslot : pool.slots[index.toNat - 1]? with
    | none =>
      have hle := Array.getElem?_eq_none_iff.1 hslot
      have hsize : pool.size < index.toNat := Nat.lt_of_le_of_lt hle (Nat.sub_lt hpos Nat.one_pos)
      simp [hsize]
    | some slot =>
      obtain ⟨hlt, -⟩ := Array.getElem?_eq_some_iff.1 hslot
      have hsize : ¬ pool.size < index.toNat := Nat.not_lt.2 (Nat.le_of_pred_lt hlt)
      cases slot <;> simp [hindex, hsize]

theorem get_of_leadsNowhere (h : pool.LeadsNowhere index) :
    pool.get index = .error (.invalidIndex index) :=
  get_eq_error_iff.2 ⟨constant?_eq_none_iff.2 h, rfl⟩

theorem not_leadsNowhere_of_get {c : Constant} (h : pool.get index = .ok c) :
    ¬ pool.LeadsNowhere index := by
  intro hnowhere
  rw [get_of_leadsNowhere hnowhere] at h
  cases h

/-- What is said against an index follows from its look-up. -/
theorem blames_iff {expected : Expected} {e : FormatError} :
    pool.Blames expected index e ↔ pool.get index = .error e ∨
      ∃ c, pool.get index = .ok c ∧ ¬ expected.Admits c ∧ e = .wrongKind index expected c := by
  constructor
  · rintro (hnowhere | ⟨c, hplace, hget, hadmits⟩)
    · exact .inl (get_of_leadsNowhere hnowhere)
    · exact .inr ⟨c, hget, hadmits, rfl⟩
  · rintro (hget | ⟨c, hget, hadmits, rfl⟩)
    · obtain ⟨hnone, rfl⟩ := get_eq_error_iff.1 hget
      exact .nowhere (constant?_eq_none_iff.1 hnone)
    · exact .other c (not_leadsNowhere_of_get hget) hget hadmits

/-! ## The resolvers

A resolver looks at the constant under the index and, if that is a reference, at the constant under
the index that it holds.  So the equivalences for its errors have one case for each of the two, and
never more than one of them applies. -/

theorem expect_eq_error_iff {kind : Constant.Kind} {e : FormatError} :
    pool.expect kind index = .error e ↔ pool.Blames (.kind kind) index e := by
  rw [blames_iff, expect]
  cases hget : pool.get index with
  | error e' => simp [bind, Except.bind]
  | ok c =>
    by_cases hkind : c.kind = kind
    · simp [bind, Except.bind, hkind, Expected.Admits]
    · simp [bind, Except.bind, hkind, Expected.Admits, eq_comm (a := e)]

theorem utf8_eq_error_iff_blames {e : FormatError} :
    pool.utf8 index = .error e ↔ pool.Blames (.kind .utf8) index e := by
  rw [blames_iff, utf8_eq_error_iff]
  rfl

theorem className_eq_ok_iff {s : String} :
    pool.className index = .ok s ↔
      ∃ name, pool.get index = .ok (.classRef name) ∧ pool.get name = .ok (.utf8 s) := by
  rw [className]
  cases hget : pool.get index with
  | error e => simp [bind, Except.bind]
  | ok c => cases c <;> simp [bind, Except.bind, utf8_eq_ok_iff]

theorem className_eq_error_iff {e : FormatError} :
    pool.className index = .error e ↔ pool.Blames (.kind .classRef) index e ∨
      ∃ name, pool.get index = .ok (.classRef name) ∧ pool.Blames (.kind .utf8) name e := by
  rw [className, @blames_iff _ index]
  cases hget : pool.get index with
  | error e' => simp [bind, Except.bind]
  | ok c =>
    cases c <;> simp [bind, Except.bind, utf8_eq_error_iff_blames, Expected.Admits, Constant.kind,
      eq_comm (a := e)]

theorem text_eq_ok_iff {s : String} :
    pool.text index = .ok s ↔ pool.get index = .ok (.utf8 s) ∨
      ∃ c held, pool.get index = .ok c ∧ c.textIndex? = some held ∧
        pool.get held = .ok (.utf8 s) := by
  rw [text]
  cases hget : pool.get index with
  | error e => simp [bind, Except.bind]
  | ok c => cases c <;> simp [bind, Except.bind, Constant.textIndex?, utf8_eq_ok_iff]

theorem text_eq_error_iff {e : FormatError} :
    pool.text index = .error e ↔ pool.Blames .text index e ∨
      ∃ c held, pool.get index = .ok c ∧ c.textIndex? = some held ∧
        pool.Blames (.kind .utf8) held e := by
  rw [text, @blames_iff _ index]
  cases hget : pool.get index with
  | error e' => simp [bind, Except.bind]
  | ok c =>
    cases c <;> simp [bind, Except.bind, Constant.textIndex?, utf8_eq_error_iff_blames,
      Expected.Admits, Constant.kind, eq_comm (a := e)]

theorem utf8_eq_ok_iff_text {s : String} :
    pool.utf8 index = .ok s ↔
      pool.text index = .ok s ∧ ∃ held, pool.get index = .ok (.utf8 held) := by
  rw [utf8_eq_ok_iff, text_eq_ok_iff]
  constructor
  · exact fun hget => ⟨.inl hget, s, hget⟩
  · rintro ⟨hget | ⟨c, _, hget, hindex, -⟩, held, hutf8⟩
    · exact hget
    · cases hget.symm.trans hutf8
      cases hindex

theorem className_eq_ok_iff_text {s : String} :
    pool.className index = .ok s ↔
      pool.text index = .ok s ∧ ∃ name, pool.get index = .ok (.classRef name) := by
  rw [className_eq_ok_iff, text_eq_ok_iff]
  constructor
  · exact fun ⟨name, hclass, hname⟩ => ⟨.inr ⟨_, name, hclass, rfl, hname⟩, name, hclass⟩
  · rintro ⟨hget | ⟨c, held, hget, hindex, hheld⟩, name, hclass⟩
    · cases hget.symm.trans hclass
    · cases hget.symm.trans hclass
      cases hindex
      exact ⟨_, hclass, hheld⟩

/-- **Resolution takes at most one step behind the index, and its errors tell the truth.**  In
every pool, and for every index: the text of an index is the text constant under it, or under the
index held by a reference to a single text; it is the same text that is found by one who looks for
a text constant or for a class, and these two find it only there; and each of the look-ups that
fails puts the blame on the index, or else on the index that is held. -/
theorem resolution_single_hop (pool : ConstantPool) (index : UInt16) :
    (∀ s, pool.text index = .ok s ↔ pool.get index = .ok (.utf8 s) ∨
      ∃ c held, pool.get index = .ok c ∧ c.textIndex? = some held ∧
        pool.get held = .ok (.utf8 s)) ∧
    (∀ s, pool.className index = .ok s ↔
      ∃ name, pool.get index = .ok (.classRef name) ∧ pool.get name = .ok (.utf8 s)) ∧
    (∀ s, pool.utf8 index = .ok s ↔
      pool.text index = .ok s ∧ ∃ held, pool.get index = .ok (.utf8 held)) ∧
    (∀ s, pool.className index = .ok s ↔
      pool.text index = .ok s ∧ ∃ name, pool.get index = .ok (.classRef name)) ∧
    (∀ kind e, pool.expect kind index = .error e ↔ pool.Blames (.kind kind) index e) ∧
    (∀ e, pool.utf8 index = .error e ↔ pool.Blames (.kind .utf8) index e) ∧
    (∀ e, pool.className index = .error e ↔ pool.Blames (.kind .classRef) index e ∨
      ∃ name, pool.get index = .ok (.classRef name) ∧ pool.Blames (.kind .utf8) name e) ∧
    (∀ e, pool.text index = .error e ↔ pool.Blames .text index e ∨
      ∃ c held, pool.get index = .ok c ∧ c.textIndex? = some held ∧
        pool.Blames (.kind .utf8) held e) ∧
    Expected.text.name = "text" ∧
    ∀ c : Constant, ∃ rest, c.debugText = (Expected.kind c.kind).name ++ rest :=
  ⟨fun _ => text_eq_ok_iff, fun _ => className_eq_ok_iff, fun _ => utf8_eq_ok_iff_text,
    fun _ => className_eq_ok_iff_text, fun _ _ => expect_eq_error_iff,
    fun _ => utf8_eq_error_iff_blames, fun _ => className_eq_error_iff,
    fun _ => text_eq_error_iff, rfl, Constant.debugText_eq⟩

/-- A class whose name is the class itself. -/
example : text ⟨#[some (.classRef 1)]⟩ 1 =
    .error (.wrongKind 1 (.kind .utf8) (.classRef 1)) := rfl

end ConstantPool
end ClassFormat
