import ClassFormat.Document
import Mathlib.Data.List.Basic

/-!
# Reading a document back from its text

Two documents can have the same text: a leaf may say anything.  If the names, the labels and the
unquoted leaves are words, and the quoted leaves have no quote inside, then different documents have
different texts (`Readable.compact_inj`, `Readable.indented_inj`).

The two renderings differ only in where they put blanks and commas, which is a `Layout`.  For both
the reason is the same.  A reader takes the word at the start of a text and the mark behind it, and
these two tell what sort of document stands there and how it is called.  What comes behind a
document starts with neither a word nor one of those marks, so the end of a document is seen from
the text, too.

## What is here

* `start` — the word at the start of a text and the `Mark` behind it; `Ends` says that there is
  neither.
* `Layout` — what stands between the items of a group, with the four facts about it that are needed.
  `Layout.oneLine` and `Layout.itemPerLine` are the two.
* `chars` — the characters of a document in a layout, as a list, and `toList_compact` and
  `toList_indented`, which say that the renderings are these.
* `Readable` — the condition on documents.  A group without items has to be a list: the other two
  shapes would be words and could be taken for leaves.
* `head` — how a document starts, found from the document, and `Readable.start_chars`, found from
  its text.
* `IsOnly` — that a document is the only one that its text starts with, whatever stands behind.

No reader of texts is written down.  It would have to be written twice, once for each rendering, and
shown to undo it; comparing two documents with one text needs neither.
-/

set_option autoImplicit false

namespace ClassFormat

/-! ## Words and marks

The word that a text starts with may be empty, as it is in front of a quote or of a list.  The word
and the mark together are enough to tell a leaf, a labelled value and the three shapes of a group
from each other. -/

/-- Whether a character can stand in a word. -/
def isWordChar (c : Char) : Bool := c.isAlphanum || c = '_'

/-- The names, labels and numbers: texts of letters, digits and underscores. -/
def IsWord (text : String) : Prop := text.toList ≠ [] ∧ text.toList.all isWordChar = true

instance (text : String) : Decidable (IsWord text) := inferInstanceAs (Decidable (_ ∧ _))

theorem IsWord.forall_mem {text : String} (h : IsWord text) :
    ∀ c ∈ text.toList, isWordChar c = true :=
  List.all_eq_true.1 h.2

/-- What is seen behind a word. -/
inductive Mark
  | none
  | quote
  | colon
  | brace
  | paren
  | bracket
deriving DecidableEq, Repr

/-- The mark that a text starts with.  A blank belongs to the mark if a brace opens behind it. -/
def Mark.of : List Char → Mark
  | '"' :: _ => quote
  | ':' :: _ => colon
  | ' ' :: '\x7b' :: _ => brace
  | '(' :: _ => paren
  | '[' :: _ => bracket
  | _ => none

/-- The word that a text starts with, and the mark behind it. -/
def start (text : List Char) : List Char × Mark :=
  (text.takeWhile isWordChar, Mark.of (text.dropWhile isWordChar))

/-- Whether a text can stand behind a document: there is no word and no mark. -/
def Ends (text : List Char) : Prop := start text = ([], .none)

theorem start_append {word : List Char} (h : ∀ c ∈ word, isWordChar c = true)
    (text : List Char) : start (word ++ text) = (word ++ (start text).1, (start text).2) := by
  rw [start, List.takeWhile_append_of_pos h, List.dropWhile_append_of_pos h, start]

/-! ## Layouts

The facts are about what an arbitrary text starts with if it starts with a part of a layout.  They
are computed for each layout; in `itemPerLine` a separator and an ending are the same up to the
margin, which is deeper by one level in front of another item. -/

namespace Shape

/-- The name in front of the bracket. -/
def word : Shape → List Char
  | record name => name.toList
  | tuple name => name.toList
  | list => []

/-- The opening bracket, with the blank in front of a brace. -/
def bracket : Shape → List Char
  | record _ => [' ', '\x7b']
  | tuple _ => ['(']
  | list => ['[']

/-- The closing bracket. -/
def closer : Shape → Char
  | record _ => '\x7d'
  | tuple _ => ')'
  | list => ']'

/-- The blank inside the braces of a record that stands on one line. -/
def blank : Shape → List Char
  | record _ => [' ']
  | _ => []

/-- The mark of the opening bracket. -/
def mark : Shape → Mark
  | record _ => .brace
  | tuple _ => .paren
  | list => .bracket

theorem start_bracket (shape : Shape) (text : List Char) :
    start (shape.bracket ++ text) = ([], shape.mark) := by
  cases shape <;> rfl

/-- A shape is known from its name and its bracket. -/
theorem eq_of_word_of_mark {shape shape' : Shape} (hword : shape.word = shape'.word)
    (hmark : shape.mark = shape'.mark) : shape = shape' := by
  cases shape <;> cases shape' <;> simp_all [word, mark, String.toList_inj]

end Shape

/-- How the items of a group are set apart.  What stands behind an item shows that the item has
ended, and whether another one follows. -/
structure Layout where
  /-- What stands between the opening bracket and the first item. -/
  padding : Shape → Nat → List Char
  /-- What stands between two items. -/
  separator : Nat → List Char
  /-- What stands behind the last item, with the closing bracket. -/
  ending : Shape → Nat → List Char
  notMem_padding (shape : Shape) (depth : Nat) : ']' ∉ padding shape depth
  ends_separator (depth : Nat) (text : List Char) : Ends (separator depth ++ text)
  ends_ending (shape : Shape) (depth : Nat) (text : List Char) : Ends (ending shape depth ++ text)
  separator_ne_ending (shape : Shape) (depth : Nat) (text text' : List Char) :
    separator depth ++ text ≠ ending shape depth ++ text'

namespace Layout

/-- All on one line. -/
def oneLine : Layout where
  padding shape _ := shape.blank
  separator _ := [',', ' ']
  ending shape _ := shape.blank ++ [shape.closer]
  notMem_padding shape _ := by cases shape <;> simp [Shape.blank]
  ends_separator _ _ := rfl
  ends_ending shape _ _ := by cases shape <;> exact Eq.refl (([] : List Char), Mark.none)
  separator_ne_ending shape _ _ _ h := by
    cases shape <;> simp [Shape.blank, Shape.closer] at h

theorem toList_margin (depth : Nat) :
    (Document.margin depth).toList = List.replicate (4 * depth) ' ' :=
  String.toList_ofList

/-- Each item on a line of its own. -/
def itemPerLine : Layout where
  padding _ depth := '\n' :: (Document.margin (depth + 1)).toList
  separator depth := ',' :: '\n' :: (Document.margin (depth + 1)).toList
  ending shape depth := ',' :: '\n' :: ((Document.margin depth).toList ++ [shape.closer])
  notMem_padding _ depth := by simp [toList_margin, List.mem_replicate]
  ends_separator _ _ := rfl
  ends_ending _ _ _ := rfl
  separator_ne_ending shape depth text text' h := by
    -- Behind the margin of the group there is one more blank or the closing bracket.
    have hmargin : List.replicate (4 * (depth + 1)) ' ' =
        List.replicate (4 * depth) ' ' ++ List.replicate 4 ' ' := by
      rw [List.replicate_append_replicate, Nat.mul_add]
    simp only [toList_margin, hmargin, List.cons_append, List.append_assoc, List.cons.injEq,
      true_and, List.append_cancel_left_eq] at h
    cases shape <;> simp [Shape.closer, List.replicate] at h

end Layout

namespace Document

/-! ## The characters of a document -/

mutual

/-- The characters of a document in a layout. -/
def chars (L : Layout) (depth : Nat) : Document → List Char
  | leaf text => text.toList
  | field label value => label.toList ++ ':' :: ' ' :: chars L depth value
  | group shape [] => shape.empty.toList
  | group shape (item :: items) =>
    shape.word ++ (shape.bracket ++ (L.padding shape depth ++
      (chars L (depth + 1) item ++ charsBehind L shape depth items)))

/-- The characters behind an item of a group, given the items that follow. -/
def charsBehind (L : Layout) (shape : Shape) (depth : Nat) : List Document → List Char
  | [] => L.ending shape depth
  | item :: items =>
    L.separator depth ++ (chars L (depth + 1) item ++ charsBehind L shape depth items)

end

mutual

/-- On one line the depth makes no difference. -/
theorem toList_compactOnto (depth : Nat) : (d : Document) →
    (compactOnto "" d).toList = chars .oneLine depth d
  | leaf text => by simp [compactOnto, chars]
  | field label value => by
    rw [compactOnto, compactOnto_eq, String.toList_append, toList_compactOnto depth value]
    simp [chars]
  | group shape [] => by simp [compactOnto, chars]
  | group shape (item :: items) => by
    rw [compactOnto, compactItems_eq, compactOnto_eq, String.append_assoc, String.toList_append,
      String.toList_append, toList_compactOnto (depth + 1) item,
      toList_compactItems depth shape items, chars]
    cases shape <;>
      simp [Shape.compactOpening, Shape.word, Shape.bracket, Layout.oneLine, Shape.blank]

theorem toList_compactItems (depth : Nat) (shape : Shape) : (items : List Document) →
    (compactItems "" items ++ shape.compactClosing).toList =
      charsBehind .oneLine shape depth items
  | [] => by
    cases shape <;>
      simp [compactItems, charsBehind, Layout.oneLine, Shape.compactClosing, Shape.blank,
        Shape.closer]
  | item :: items => by
    rw [compactItems, compactItems_eq, compactOnto_eq, String.append_assoc, String.toList_append,
      String.toList_append, toList_compactOnto (depth + 1) item,
      toList_compactItems depth shape items, charsBehind]
    simp [Layout.oneLine]

end

mutual

theorem toList_indentedOnto (depth : Nat) : (d : Document) →
    (indentedOnto depth "" d).toList = chars .itemPerLine depth d
  | leaf text => by simp [indentedOnto, chars]
  | field label value => by
    rw [indentedOnto, indentedOnto_eq, String.toList_append, toList_indentedOnto depth value]
    simp [chars]
  | group shape [] => by simp [indentedOnto, chars]
  | group shape (item :: items) => by
    rw [indentedOnto, indentedItems, indentedItems_eq, indentedOnto_eq, chars,
      ← toList_indentedOnto (depth + 1) item, ← toList_indentedItems depth shape items]
    cases shape <;> simp [Shape.opening, Shape.word, Shape.bracket, Layout.itemPerLine]

theorem toList_indentedItems (depth : Nat) (shape : Shape) : (items : List Document) →
    (",\n" ++ (indentedItems (depth + 1) "" items ++ margin depth ++ shape.closing)).toList =
      charsBehind .itemPerLine shape depth items
  | [] => by
    cases shape <;>
      simp [indentedItems, charsBehind, Layout.itemPerLine, Shape.closing, Shape.closer]
  | item :: items => by
    rw [indentedItems, indentedItems_eq, indentedOnto_eq, charsBehind,
      ← toList_indentedOnto (depth + 1) item, ← toList_indentedItems depth shape items]
    simp [Layout.itemPerLine]

end

theorem toList_compact (d : Document) : d.compact.toList = chars .oneLine 0 d :=
  toList_compactOnto 0 d

theorem toList_indented (d : Document) : d.indented.toList = chars .itemPerLine 0 d :=
  toList_indentedOnto 0 d

/-! ## Readable documents

The condition is met by whatever is built from words, numbers and quoted texts without quotes.  A
text with a quote inside would need a look at backslashes, and no document that is compared here has
one. -/

/-- Whether a document can be told from its text. -/
inductive Readable : Document → Prop
  | word {text : String} (h : IsWord text) : Readable (leaf text)
  | quoted {inner : List Char} (h : '"' ∉ inner) :
    Readable (leaf (String.ofList ('"' :: (inner ++ ['"']))))
  | labelled {label : String} {value : Document} (hlabel : IsWord label)
    (hvalue : Readable value) : Readable (field label value)
  | bracketed {shape : Shape} {items : List Document}
    (hword : ∀ c ∈ shape.word, isWordChar c = true) (hempty : items = [] → shape = .list)
    (hitems : ∀ item ∈ items, Readable item) : Readable (group shape items)

/-- The word and the mark that the text of a document starts with. -/
def head : Document → List Char × Mark
  | leaf text => start text.toList
  | field label _ => (label.toList, .colon)
  | group shape _ => (shape.word, shape.mark)

theorem head_word {text : String} (h : IsWord text) : (leaf text).head = (text.toList, .none) := by
  have hstart := start_append h.forall_mem []
  rwa [List.append_nil, show start [] = ([], .none) from rfl, List.append_nil] at hstart

theorem head_quoted (inner : List Char) :
    (leaf (String.ofList ('"' :: (inner ++ ['"'])))).head = ([], .quote) := by
  rw [head, String.toList_ofList]
  rfl

variable {L : Layout} {d : Document} {depth : Nat} {rest : List Char}

theorem chars_group_append (shape : Shape) (item : Document) (items : List Document) :
    chars L depth (group shape (item :: items)) ++ rest =
      shape.word ++ (shape.bracket ++ (L.padding shape depth ++
        (chars L (depth + 1) item ++ (charsBehind L shape depth items ++ rest)))) := by
  simp only [chars, List.append_assoc]

/-- The start of a document is the same whatever stands behind it. -/
theorem Readable.start_chars (h : Readable d) (L : Layout) (depth : Nat) (hrest : Ends rest) :
    start (chars L depth d ++ rest) = d.head := by
  cases h with
  | word htext => rw [chars, start_append htext.forall_mem, hrest, List.append_nil, head_word htext]
  | quoted hinner =>
    rw [chars, String.toList_ofList, head_quoted]
    rfl
  | labelled hlabel hvalue =>
    rw [chars, List.append_assoc, start_append hlabel.forall_mem]
    exact congrArg (·, Mark.colon) (List.append_nil _)
  | @bracketed shape items hword hempty hitems =>
    cases items with
    | nil =>
      cases hempty rfl
      rfl
    | cons item items =>
      rw [chars_group_append, start_append hword, shape.start_bracket, List.append_nil]
      rfl

/-- A document is no ending. -/
theorem Readable.head_ne (h : Readable d) : d.head ≠ ([], .none) := by
  cases h with
  | word htext =>
    rw [head_word htext]
    exact fun heq => htext.1 (congrArg Prod.fst heq)
  | quoted hinner =>
    rw [head_quoted]
    exact fun heq => by cases congrArg Prod.snd heq
  | labelled hlabel hvalue => exact fun heq => by cases congrArg Prod.snd heq
  | @bracketed shape items hword hempty hitems =>
    intro heq
    have hmark : shape.mark = .none := congrArg Prod.snd heq
    cases shape <;> cases hmark

theorem ends_charsBehind (shape : Shape) (items : List Document) :
    Ends (charsBehind L shape depth items ++ rest) := by
  cases items with
  | nil => exact L.ends_ending shape depth rest
  | cons item items =>
    rw [charsBehind, List.append_assoc]
    exact L.ends_separator depth _

/-! ## One document for a text

The induction is on the document, with the other one and both rests arbitrary.  Their starts are the
same, so the other document is of the same sort; then the parts are compared one after another, and
each part ends at the same place in both. -/

/-- Whether a document is the only one that its text starts with. -/
def IsOnly (L : Layout) (d : Document) : Prop :=
  ∀ {d' : Document} {depth : Nat} {rest rest' : List Char}, Readable d' → Ends rest → Ends rest' →
    chars L depth d ++ rest = chars L depth d' ++ rest' → d = d' ∧ rest = rest'

/-- What is quoted ends at the first quote. -/
theorem append_quote_inj {inner inner' rest rest' : List Char} (h : '"' ∉ inner)
    (h' : '"' ∉ inner') (heq : inner ++ '"' :: rest = inner' ++ '"' :: rest') :
    inner = inner' ∧ rest = rest' := by
  have hinner : inner = inner' := by
    have htake := congrArg (List.takeWhile (· ≠ '"')) heq
    rw [List.takeWhile_append_of_pos, List.takeWhile_append_of_pos] at htake
    · simpa using htake
    · exact fun c hc => decide_eq_true fun hquote => h' (hquote ▸ hc)
    · exact fun c hc => decide_eq_true fun hquote => h (hquote ▸ hc)
  rw [hinner] at heq
  exact ⟨hinner, (List.cons.inj (List.append_cancel_left heq)).2⟩

/-- An empty list does not start like one with items. -/
theorem Readable.empty_ne {item : Document} (h : Readable item) (items : List Document)
    (rest rest' : List Char) :
    chars L depth (group .list []) ++ rest ≠
      chars L depth (group .list (item :: items)) ++ rest' := by
  intro heq
  rw [chars_group_append] at heq
  have hbehind : ']' :: rest = L.padding .list depth ++ (chars L (depth + 1) item ++
      (charsBehind L .list depth items ++ rest')) := (List.cons.inj heq).2
  have hpadding := L.notMem_padding .list depth
  cases hp : L.padding .list depth with
  | nil =>
    -- The bracket would have to be the start of the first item.
    rw [hp, List.nil_append] at hbehind
    refine h.head_ne ?_
    rw [← h.start_chars L (depth + 1) (ends_charsBehind .list items), ← hbehind]
    rfl
  | cons c padding =>
    rw [hp] at hbehind hpadding
    exact hpadding ((List.cons.inj hbehind).1 ▸ List.mem_cons_self)

/-- The items behind an item are the only ones, if each of them is. -/
theorem charsBehind_inj {shape : Shape} {items items' : List Document} {rest' : List Char}
    (h : ∀ item ∈ items, IsOnly L item) (h' : ∀ item ∈ items', Readable item)
    (heq : charsBehind L shape depth items ++ rest = charsBehind L shape depth items' ++ rest') :
    items = items' ∧ rest = rest' := by
  induction items generalizing items' with
  | nil =>
    cases items' with
    | nil => exact ⟨rfl, List.append_cancel_left heq⟩
    | cons item' items' =>
      rw [charsBehind, charsBehind, List.append_assoc] at heq
      exact absurd heq.symm (L.separator_ne_ending shape depth _ _)
  | cons item items ih =>
    cases items' with
    | nil =>
      rw [charsBehind, charsBehind, List.append_assoc] at heq
      exact absurd heq (L.separator_ne_ending shape depth _ _)
    | cons item' items' =>
      obtain ⟨hitem, hitems⟩ := List.forall_mem_cons.1 h
      obtain ⟨hitem', hitems'⟩ := List.forall_mem_cons.1 h'
      simp only [charsBehind, List.append_assoc, List.append_cancel_left_eq] at heq
      obtain ⟨rfl, hbehind⟩ := hitem hitem' (ends_charsBehind ..) (ends_charsBehind ..) heq
      obtain ⟨rfl, hrest⟩ := ih hitems hitems' hbehind
      exact ⟨rfl, hrest⟩

/-! What the start of a document says about it. -/

theorem Readable.head_eq {d' : Document} {rest' : List Char} (h : Readable d) (h' : Readable d')
    (hrest : Ends rest) (hrest' : Ends rest')
    (heq : chars L depth d ++ rest = chars L depth d' ++ rest') : d'.head = d.head := by
  rw [← h.start_chars L depth hrest, heq, h'.start_chars L depth hrest']

theorem Readable.of_none (h : Readable d) {word : List Char} (hhead : d.head = (word, .none)) :
    d = leaf (String.ofList word) := by
  have hmark := congrArg Prod.snd hhead
  cases h with
  | @word text htext =>
    have hword : text.toList = word := congrArg Prod.fst ((head_word htext).symm.trans hhead)
    rw [← hword, String.ofList_toList]
  | quoted => rw [head_quoted] at hmark; cases hmark
  | labelled => cases hmark
  | @bracketed shape => cases shape <;> cases hmark

theorem Readable.of_quote (h : Readable d) {word : List Char} (hhead : d.head = (word, .quote)) :
    ∃ inner, '"' ∉ inner ∧ d = leaf (String.ofList ('"' :: (inner ++ ['"']))) := by
  have hmark := congrArg Prod.snd hhead
  cases h with
  | word htext => rw [head_word htext] at hmark; cases hmark
  | quoted hinner => exact ⟨_, hinner, rfl⟩
  | labelled => cases hmark
  | @bracketed shape => cases shape <;> cases hmark

theorem Readable.of_colon (h : Readable d) {label : String}
    (hhead : d.head = (label.toList, .colon)) :
    ∃ value, Readable value ∧ d = field label value := by
  have hmark := congrArg Prod.snd hhead
  cases h with
  | word htext => rw [head_word htext] at hmark; cases hmark
  | quoted => rw [head_quoted] at hmark; cases hmark
  | labelled hlabel hvalue =>
    exact ⟨_, hvalue, by rw [String.toList_inj.1 (congrArg Prod.fst hhead)]⟩
  | @bracketed shape => cases shape <;> cases hmark

theorem Readable.of_mark (h : Readable d) {shape : Shape}
    (hhead : d.head = (shape.word, shape.mark)) :
    ∃ items, (items = [] → shape = .list) ∧ (∀ item ∈ items, Readable item) ∧
      d = group shape items := by
  have hmark := congrArg Prod.snd hhead
  cases h with
  | word htext => rw [head_word htext] at hmark; cases shape <;> cases hmark
  | quoted => rw [head_quoted] at hmark; cases shape <;> cases hmark
  | labelled => cases shape <;> cases hmark
  | bracketed hword hempty hitems =>
    cases Shape.eq_of_word_of_mark (congrArg Prod.fst hhead) hmark
    exact ⟨_, hempty, hitems, rfl⟩

/-- Where a document stands, no other one does. -/
theorem Readable.isOnly (h : Readable d) : IsOnly L d := by
  induction h with
  | @word text htext =>
    intro d' depth rest rest' h' hrest hrest' heq
    have hleaf := h'.of_none (((word htext).head_eq h' hrest hrest' heq).trans (head_word htext))
    rw [String.ofList_toList] at hleaf
    rw [hleaf] at heq
    exact ⟨hleaf.symm, List.append_cancel_left heq⟩
  | @quoted inner hinner =>
    intro d' depth rest rest' h' hrest hrest' heq
    obtain ⟨inner', hinner', rfl⟩ :=
      h'.of_quote (((quoted hinner).head_eq h' hrest hrest' heq).trans (head_quoted inner))
    simp only [chars, String.toList_ofList, List.cons_append, List.append_assoc, List.cons.injEq,
      true_and, List.nil_append] at heq
    obtain ⟨rfl, hrest⟩ := append_quote_inj hinner hinner' heq
    exact ⟨rfl, hrest⟩
  | @labelled label value hlabel hvalue ih =>
    intro d' depth rest rest' h' hrest hrest' heq
    obtain ⟨value', hvalue', rfl⟩ :=
      h'.of_colon ((labelled hlabel hvalue).head_eq h' hrest hrest' heq)
    simp only [chars, List.append_assoc, List.cons_append, List.append_cancel_left_eq,
      List.cons.injEq, true_and] at heq
    obtain ⟨rfl, hrest⟩ := ih hvalue' hrest hrest' heq
    exact ⟨rfl, hrest⟩
  | @bracketed shape items hword hempty hitems ih =>
    intro d' depth rest rest' h' hrest hrest' heq
    obtain ⟨items', hempty', hitems', rfl⟩ :=
      h'.of_mark ((bracketed hword hempty hitems).head_eq h' hrest hrest' heq)
    rcases items with _ | ⟨item, items⟩ <;> rcases items' with _ | ⟨item', items'⟩
    · exact ⟨rfl, List.append_cancel_left heq⟩
    · cases hempty rfl
      exact absurd heq ((hitems' item' List.mem_cons_self).empty_ne items' rest rest')
    · cases hempty' rfl
      exact absurd heq.symm ((hitems item List.mem_cons_self).empty_ne items rest' rest)
    · simp only [chars_group_append, List.append_cancel_left_eq] at heq
      obtain ⟨ihitem, ihitems⟩ := List.forall_mem_cons.1 ih
      obtain ⟨hitem', hothers'⟩ := List.forall_mem_cons.1 hitems'
      obtain ⟨rfl, hbehind⟩ := ihitem hitem' (ends_charsBehind ..) (ends_charsBehind ..) heq
      obtain ⟨rfl, hrest⟩ := charsBehind_inj ihitems hothers' hbehind
      exact ⟨rfl, hrest⟩

/-! ## Both renderings -/

theorem Readable.eq_of_chars (L : Layout) {d' : Document} (h : Readable d) (h' : Readable d')
    (heq : chars L 0 d = chars L 0 d') : d = d' := by
  have hends : Ends [] := rfl
  exact (h.isOnly h' hends hends (congrArg (· ++ []) heq)).1

/-- **On one line, different readable documents have different texts.** -/
theorem Readable.compact_inj {d' : Document} (h : Readable d) (h' : Readable d') :
    d.compact = d'.compact ↔ d = d' := by
  refine ⟨fun heq => Readable.eq_of_chars .oneLine h h' ?_, congrArg compact⟩
  rw [← toList_compact, heq, toList_compact]

/-- **With one item per line, different readable documents have different texts.** -/
theorem Readable.indented_inj {d' : Document} (h : Readable d) (h' : Readable d') :
    d.indented = d'.indented ↔ d = d' := by
  refine ⟨fun heq => Readable.eq_of_chars .itemPerLine h h' ?_, congrArg indented⟩
  rw [← toList_indented, heq, toList_indented]

end Document
end ClassFormat
