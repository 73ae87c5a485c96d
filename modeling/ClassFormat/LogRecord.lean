import ClassFormat.Constant.Document

/-!
# The log of a decoding

While a class file is decoded, a record is made of everything that has been understood.  Records are
data: they hold what was decoded and are put into words only when somebody reads them.

Each record has a level.  The few that give an outline are at level `debug`; the many that name
single constants and attributes are at level `trace`.

* `LogLevel` — the levels.  They are ordered by `rank`, and `isWithin` says which records are kept
  below a limit; the decoder makes no records at the three levels above.
* `LogRecord` — the records.  Those of lists are made in front of the list, when its number has been
  read, and that of an attribute is made behind it, when its length has been compared.
* `message` — the words.  Constants are shown in them as they are in a debug text.

Which records are made, and in what order, is the subject of `ClassFormat.Proofs.ClassLog`.
-/

set_option autoImplicit false

namespace ClassFormat

/-- How important a record is, the most important level first. -/
inductive LogLevel
  | error
  | warn
  | info
  | debug
  | trace
deriving DecidableEq, Repr

namespace LogLevel

/-- All levels, the most important one first. -/
def all : List LogLevel := [error, warn, info, debug, trace]

/-- The rank of a level; more important levels have lower ranks. -/
def rank : LogLevel → Nat
  | error => 1
  | warn => 2
  | info => 3
  | debug => 4
  | trace => 5

/-- Whether a record at this level is kept when everything up to `limit` is. -/
def isWithin (level limit : LogLevel) : Bool := level.rank ≤ limit.rank

/-- The name of a level, in front of a record. -/
def name : LogLevel → String
  | error => "ERROR"
  | warn => "WARN"
  | info => "INFO"
  | debug => "DEBUG"
  | trace => "TRACE"

end LogLevel

/-- What has been decoded. -/
inductive LogRecord
  /-- The version of the format. -/
  | version (major minor : UInt16)
  /-- The count in front of the constant pool. -/
  | poolCount (count : UInt16)
  /-- A constant, with its index. -/
  | poolEntry (index : UInt16) (constant : Constant)
  /-- The number of fields, in front of them. -/
  | fieldCount (count : UInt16)
  /-- The number of methods, in front of them. -/
  | methodCount (count : UInt16)
  /-- An attribute, after all that lies inside it. -/
  | attributeEnd (name : String) (length : UInt32)
  /-- The number of bytes behind the class file, if there are any. -/
  | trailing (count : Nat)
deriving DecidableEq, Repr

namespace LogRecord

/-- The level of a record. -/
def level : LogRecord → LogLevel
  | poolEntry _ _ | attributeEnd _ _ => .trace
  | _ => .debug

/-- The words of a record. -/
def message : LogRecord → String
  | version major minor =>
    "class file version " ++ toString major.toNat ++ "." ++ toString minor.toNat
  | poolCount count => "constant pool count " ++ toString count.toNat
  | poolEntry index c => "#" ++ toString index.toNat ++ " = " ++ c.debugText
  | fieldCount count => "parsing " ++ toString count.toNat ++ " fields"
  | methodCount count => "parsing " ++ toString count.toNat ++ " methods"
  | attributeEnd name length => "attribute " ++ name ++ " (" ++ toString length.toNat ++ " bytes)"
  | trailing count => toString count ++ " trailing bytes after class file"

end LogRecord
end ClassFormat
