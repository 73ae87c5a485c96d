import ClassFormat.LogRecord
import ClassFormat.Text.Blank

/-!
# Which log records are shown

Records come from two places: the program itself and the decoder it calls.  A filter is a list of
`Directive`s, each of which lets pass all records up to a level from the places whose name starts
with a given text.  Among the directives that concern a place, the one with the longest start
decides alone, and of several such the last one; where no directive concerns a place, nothing of it
is shown.

A filter is written as its directives with commas between them.  A directive is a level alone, or a
start alone, or a start, an equality sign and a level.  A start without a level lets everything
pass.  Levels may be written in capital or small letters, and `off` lets nothing pass.  Behind a
slash may follow a text that every record shown must contain.

What is not written that way is passed over, and the filter keeps a `Refusal` of it.

* `Directive.read` and `LogFilter.ofText` — a directive and a filter as they are written.
* `Directive.stronger` and `LogFilter.deciding?` — which directive decides.  Lengths are compared in
  bytes.
* `LogFilter.admits` — whether a record may pass by its place and its level, and `matchesWording`
  whether it may pass by its words.  They are apart so that a record which the level holds back need
  not be put into words.
* `silent` — the filter for no directives at all, which shows nothing.
-/

set_option autoImplicit false

namespace ClassFormat

/-- Which records of some places are shown: those up to the level, if there is one, from the places
whose name starts as given. -/
structure Directive where
  start : String
  limit : Option LogLevel
deriving DecidableEq, Repr

/-- What was passed over in a written filter. -/
inductive Refusal
  /-- A word that should have been a level, or a directive with two equality signs. -/
  | directive (text : String)
  /-- A filter with two slashes. -/
  | slashes (text : String)
deriving DecidableEq, Repr

/-- The line that tells of a refusal. -/
def Refusal.message : Refusal → String
  | directive text => "warning: invalid logging spec '" ++ text ++ "', ignoring it"
  | slashes text => "warning: invalid logging spec '" ++ text ++ "', ignoring it (too many '/'s)"

/-- Which records are shown: what the directives let pass, as far as it contains the wording. -/
structure LogFilter where
  directives : List Directive
  wording : String
  refusals : List Refusal
deriving DecidableEq, Repr

namespace Directive

/-- Whether a directive concerns a place. -/
def concerns (d : Directive) (place : String) : Bool :=
  d.start.toList.isPrefixOf place.toList

/-- Whether a directive lets records of some level pass. -/
def admits (d : Directive) (level : LogLevel) : Bool :=
  match d.limit with
  | some limit => level.isWithin limit
  | none => false

/-- Of two directives, in this order, the one that decides. -/
def stronger (d e : Directive) : Directive :=
  if d.start.utf8ByteSize ≤ e.start.utf8ByteSize then e else d

/-- A level as it is written, in capital or small letters; `off` is no level. -/
def level? (text : String) : Option (Option LogLevel) :=
  if text.toUpper = "OFF" then
    some none
  else
    (LogLevel.all.find? fun level => level.name = text.toUpper).map some

/-- The limit that lets everything pass. -/
def everything : Option LogLevel := some .trace

/-- A directive as it is written.  Blanks around a level behind an equality sign do not count; a
level that stands alone has to stand without blanks, or it is the start of a place. -/
def read (text : List Char) : Except Refusal Directive :=
  match text.splitOn '=' with
  | [start] =>
    match level? (String.ofList start) with
    | some limit => .ok ⟨"", limit⟩
    | none => .ok ⟨String.ofList start, everything⟩
  | [start, level] =>
    let level := String.ofList (Blank.trimmed level)
    if level.isEmpty then
      .ok ⟨String.ofList start, everything⟩
    else
      match level? level with
      | some limit => .ok ⟨String.ofList start, limit⟩
      | none => .error (.directive level)
  | _ => .error (.directive (String.ofList text))

end Directive

namespace LogFilter

/-- Nothing is shown. -/
def silent : LogFilter := ⟨[], "", []⟩

/-- The directives written with commas between them, and what was passed over. -/
def readDirectives (text : List Char) : List Directive × List Refusal :=
  let read := ((text.splitOn ',').filter fun piece => !piece.isEmpty).map Directive.read
  (read.filterMap fun r => r.toOption,
    read.filterMap fun
      | .ok _ => none
      | .error refusal => some refusal)

/-- A filter as it is written. -/
def ofText (text : String) : LogFilter :=
  match text.toList.splitOn '/' with
  | [front] =>
    let (directives, refusals) := readDirectives front
    ⟨directives, "", refusals⟩
  | [front, wording] =>
    let (directives, refusals) := readDirectives front
    ⟨directives, String.ofList wording, refusals⟩
  | _ => ⟨[], "", [.slashes text]⟩

/-- The directive that decides on a place. -/
def deciding? (f : LogFilter) (place : String) : Option Directive :=
  match f.directives.filter (·.concerns place) with
  | [] => none
  | d :: others => some (others.foldl Directive.stronger d)

/-- Whether records of some level from some place are let pass. -/
def admits (f : LogFilter) (place : String) (level : LogLevel) : Bool :=
  match f.deciding? place with
  | some d => d.admits level
  | none => false

/-- Whether a text stands somewhere in another one. -/
def isWithin (text : List Char) : List Char → Bool
  | [] => text.isEmpty
  | c :: rest => text.isPrefixOf (c :: rest) || isWithin text rest

/-- Whether the words of a record contain the wording. -/
def matchesWording (f : LogFilter) (message : String) : Bool :=
  isWithin f.wording.toList message.toList

/-- A filter without directives shows nothing. -/
theorem admits_silent (place : String) (level : LogLevel) : silent.admits place level = false := rfl

/-- The empty text stands in every text. -/
theorem isWithin_nil (text : List Char) : isWithin [] text = true := by
  cases text with
  | nil => rfl
  | cons c text => simp [isWithin]

example : ofText "trace" = ⟨[⟨"", some .trace⟩], "", []⟩ := by decide +kernel
example : ofText "off,shop.till= Debug " = ⟨[⟨"", none⟩, ⟨"shop.till", some .debug⟩], "", []⟩ := by
  decide +kernel
example : ofText "shop=loud" = ⟨[], "", [.directive "loud"]⟩ := by decide +kernel
example : ofText " trace" = ⟨[⟨" trace", some .trace⟩], "", []⟩ := by decide +kernel

end LogFilter
end ClassFormat
