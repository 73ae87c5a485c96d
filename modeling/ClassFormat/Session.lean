import ClassFormat.ClassFile.Decode

/-!
# Sessions

A reader keeps its place in the buffer, so it can be asked for one thing after another: for a number
or a run of bytes, for a pool, for attributes whose names are in a given pool, for a class file.
What a request finds depends on the place that those before it have reached, and on nothing else.

A request that fails does not end a session.  It leaves the place where it stopped, and the records
made until then, to the next one.

* `Request` — what can be asked for.  The pool in which the names of attributes are resolved is part
  of the request: it need not be one that has been read from this buffer, and nothing has to be
  known of it.
* `Answer` — what is found, by the sort of request.
* `Request.decoder` — the decoder of a request, one of those that the format is made of.
* `Session.run` — the outcomes of a list of requests, one for each, and the progress behind the
  last.

Statements about all uses of the readers are made about sessions: that only the bytes ahead matter
(`ClassFormat.Proofs.StartPlace`), and that no step leaves the range of a machine word
(`ClassFormat.Proofs.QuestionsInRange`).
-/

set_option autoImplicit false

namespace ClassFormat

open Decoder

/-- What a reader can be asked for. -/
inductive Request
  | read (r : Read)
  | pool
  | attributes (names : ConstantPool) (count : UInt16)
  | classFile

/-- What is found for a request. -/
inductive Answer
  | read (r : Read) (x : r.Result)
  | pool (pool : ConstantPool)
  | attributes (attributes : List Attribute)
  | classFile (c : ClassFile)

/-- The reader of what is asked for. -/
def Request.decoder : Request → Decoder Answer
  | read r => do
    let x ← Decoder.read r
    pure (.read r x)
  | pool => do
    let constants ← ConstantPool.decode
    pure (.pool constants)
  | attributes names count => do
    let found ← Attribute.decode names count
    pure (.attributes found)
  | classFile => do
    let c ← ClassFile.decode
    pure (.classFile c)

namespace Session

/-- The outcomes of some requests, one after another, and the place that is reached with them. -/
def run : List Request → Progress → List (Except FormatError Answer) × Progress
  | [], s => ([], s)
  | request :: requests, s =>
    let (outcome, s) := request.decoder.run s
    let (outcomes, s) := run requests s
    (outcome :: outcomes, s)

end Session
end ClassFormat
