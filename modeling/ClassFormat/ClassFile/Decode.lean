import ClassFormat.Attribute.Decode
import ClassFormat.ClassFile.Basic
import ClassFormat.ConstantPool.Decode

/-!
# Reading a class file

The parts of a class file are read in the order in which they are stored.  The pool comes early, so
that the names of attributes can be resolved in it.  What follows the class file in the buffer is
not looked at, except that its length is recorded.

## What is here

* `Member.decode` and `Member.decodeCounted` — a field or a method, and a list of them behind its
  number.  The number is recorded before the members are read.
* `decodeMagic` — the number that starts a class file, compared before anything else is read.
* `decodeBody` — what lies behind the pool.
* `recordTrailing` — the record of what follows, if anything does.
* `decode` — the whole reader.  It measures the room for nesting once, behind the pool, and hands it
  to all attributes.
* `run` — the reader on a whole buffer.  `ofBytes`, `stop` and `log` are the three things that can
  be seen of a run: its outcome, the place where it stopped, and the records made on the way.  The
  last two have a meaning also when the outcome is an error.
-/

set_option autoImplicit false

namespace ClassFormat

open Decoder

/-- Reads a field or a method, with so much room for nesting in its attributes. -/
def Member.decode (pool : ConstantPool) (room : Nat) : Decoder Member := do
  let accessFlags ← u16
  let name ← u16
  let descriptor ← u16
  let count ← u16
  let attributes ← Attribute.decodeList pool room count
  pure { accessFlags, name, descriptor, attributes }

/-- Reads fields or methods behind their number, which is recorded. -/
def Member.decodeCounted (pool : ConstantPool) (room : Nat) (message : UInt16 → LogRecord) :
    Decoder (List Member) := do
  let count ← u16
  record (message count)
  times count.toNat (Member.decode pool room)

namespace ClassFile

/-- Reads the number that starts a class file. -/
def decodeMagic : Decoder Unit := do
  let found ← u32
  if found = magicNumber then pure () else throw (.badMagic found)

/-- Reads what lies behind the pool, with so much room for nesting in the attributes. -/
def decodeBody (minorVersion majorVersion : UInt16) (pool : ConstantPool) (room : Nat) :
    Decoder ClassFile := do
  let accessFlags ← u16
  let thisClass ← u16
  let superClass ← u16
  let interfaceCount ← u16
  let interfaces ← u16s interfaceCount
  let fields ← Member.decodeCounted pool room .fieldCount
  let methods ← Member.decodeCounted pool room .methodCount
  let attributeCount ← u16
  let attributes ← Attribute.decodeList pool room attributeCount
  pure { minorVersion, majorVersion, pool, accessFlags, thisClass, superClass, interfaces, fields,
         methods, attributes }

/-- Records the number of bytes that are left, if there are any. -/
def recordTrailing : Decoder Unit := do
  let left ← remaining
  if 0 < left then
    record (.trailing left)

/-- Reads a class file. -/
def decode : Decoder ClassFile := do
  decodeMagic
  let minorVersion ← u16
  let majorVersion ← u16
  record (.version majorVersion minorVersion)
  let pool ← ConstantPool.decode
  let room ← Attribute.nestingRoom
  let c ← decodeBody minorVersion majorVersion pool room
  recordTrailing
  pure c

/-- The outcome of reading a class file from the start of a buffer, and how far it got. -/
def run (buffer : List UInt8) : Except FormatError ClassFile × Progress :=
  Decoder.run decode (.start buffer)

/-- The class file at the start of a buffer. -/
def ofBytes (buffer : List UInt8) : Except FormatError ClassFile := (run buffer).1

/-- The place where reading a buffer stops, whatever the outcome is. -/
def stop (buffer : List UInt8) : Nat := (run buffer).2.cursor.position

/-- The records made while a class file is read. -/
def log (buffer : List UInt8) : List LogRecord := (run buffer).2.log.toList

end ClassFile
end ClassFormat
