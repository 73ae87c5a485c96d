import ClassFormat.Proofs.PoolsInRange
import ClassFormat.Proofs.RoundTrip

/-!
# Questions need no more than machine words

What is asked of a pool or of a class file is answered by looking up indices, one after another.
Here every question is written out over the checked look-up, so that it could leave its range
wherever it looks something up; each `..._eq` says that it does not, and that the answer is that of
the question that runs.  `bind_inRange` carries this over what is done with an answer.

`Session.stays_in_range` puts reads, indices and questions together: nothing that a reader can be
asked for, in any order, on any buffer and with any pools, and nothing that can be asked of what it
finds, leads to a step out of range.

## What is here

* `ConstantPool.utf8Checked`, `classNameChecked` and `textChecked` — the look-ups of texts.
* `Attribute.findNamedChecked`, `Member.findEntryChecked` and the questions of a class file — what
  goes through a list and looks something up for each member.
* `ClassFile.AnswersInRange` and `ConstantPool.AnswersInRange` — all questions, as one statement for
  each of the two.  Only the enumeration of a pool needs that its slots can be named.
* `Request.isWellFormed_of_run` — a pool that is found is well-formed, so its slots can be named
  whatever the buffer was.  For a pool that is given with a request this has to be assumed.
* `Session.HasPool` — the pools at hand in a session, given or found.
* `Session.stays_in_range` — the result.
-/

set_option autoImplicit false

namespace ClassFormat

open Decoder

/-! ## Questions over the checked look-up

These are the definitions of the library with `getChecked` in the place of `get`.  They are written
out in full, so that wherever a question looks something up, it could leave its range. -/

/-- Steps in range, one behind the other, are in range. -/
theorem bind_inRange {α β : Type} {x : Checked α} {r : Except FormatError α} {f : α → Checked β}
    {g : α → Except FormatError β} (hx : x = inRange r) (hf : ∀ a, f a = inRange (g a)) :
    x >>= f = inRange (r >>= g) := by
  rw [hx]
  cases r with
  | error e => rfl
  | ok a => exact hf a

namespace ConstantPool

variable (pool : ConstantPool) (index : UInt16)

/-- The text constant with an index. -/
def utf8Checked : Checked String := do
  match ← pool.getChecked index with
  | .utf8 text => pure text
  | c => throw (.wrongKind index (.kind .utf8) c)

/-- The name of the class reference with an index. -/
def classNameChecked : Checked String := do
  match ← pool.getChecked index with
  | .classRef name => pool.utf8Checked name
  | c => throw (.wrongKind index (.kind .classRef) c)

/-- The text that an index stands for. -/
def textChecked : Checked String := do
  match ← pool.getChecked index with
  | .utf8 text => pure text
  | .classRef name => pool.utf8Checked name
  | .stringRef text => pool.utf8Checked text
  | .methodType descriptor => pool.utf8Checked descriptor
  | .moduleRef name => pool.utf8Checked name
  | .packageRef name => pool.utf8Checked name
  | c => throw (.wrongKind index .text c)

theorem utf8Checked_eq : pool.utf8Checked index = inRange (pool.utf8 index) :=
  bind_inRange (pool.getChecked_eq index) fun c => by cases c <;> rfl

theorem classNameChecked_eq : pool.classNameChecked index = inRange (pool.className index) := by
  refine bind_inRange (pool.getChecked_eq index) fun c => ?_
  cases c with
  | classRef name => exact pool.utf8Checked_eq name
  | _ => rfl

theorem textChecked_eq : pool.textChecked index = inRange (pool.text index) := by
  refine bind_inRange (pool.getChecked_eq index) fun c => ?_
  cases c with
  | classRef a | stringRef a | methodType a | moduleRef a | packageRef a =>
    exact pool.utf8Checked_eq a
  | _ => rfl

end ConstantPool

namespace Attribute

/-- The first attribute with a name. -/
def findNamedChecked (pool : ConstantPool) (text : String) :
    List Attribute → Option (Option Attribute)
  | [] => some none
  | a :: attributes => do
    match ← (pool.utf8Checked a.name).run with
    | .ok name => if name == text then some (some a) else findNamedChecked pool text attributes
    | .error _ => findNamedChecked pool text attributes

theorem findNamedChecked_eq (pool : ConstantPool) (text : String) (attributes : List Attribute) :
    findNamedChecked pool text attributes = some (findNamed? pool text attributes) := by
  induction attributes with
  | nil => rfl
  | cons a attributes ih =>
    rw [findNamedChecked, pool.utf8Checked_eq, findNamed?]
    by_cases h : isNamed pool text a = true
    · rw [List.find?_cons_of_pos h, isNamed_iff.1 h]
      exact if_pos (beq_self_eq_true text)
    · rw [List.find?_cons_of_neg h]
      cases hname : pool.utf8 a.name with
      | error e => exact ih
      | ok name =>
        have hother : ¬ (name == text) = true := by rwa [isNamed, hname] at h
        exact (if_neg hother).trans ih

end Attribute

namespace Member

/-- Whether a program can start from a method. -/
def isEntryChecked (pool : ConstantPool) (m : Member) : Checked Bool := do
  let name ← pool.utf8Checked m.name
  if name = entryName then
    let descriptor ← pool.utf8Checked m.descriptor
    pure (descriptor = entryDescriptor)
  else
    pure false

/-- The first of some methods that a program can start from. -/
def findEntryChecked (pool : ConstantPool) (start : Nat) :
    List Member → Checked (Option (Nat × Member))
  | [] => pure none
  | m :: methods => do
    if ← isEntryChecked pool m then pure (some (start, m))
    else findEntryChecked pool (start + 1) methods

theorem isEntryChecked_eq (pool : ConstantPool) (m : Member) :
    isEntryChecked pool m = inRange (m.isEntry pool) := by
  refine bind_inRange (pool.utf8Checked_eq m.name) fun name => ?_
  by_cases h : name = entryName
  · rw [if_pos h, if_pos h]
    exact bind_inRange (pool.utf8Checked_eq m.descriptor) fun descriptor => rfl
  · rw [if_neg h, if_neg h]
    rfl

theorem findEntryChecked_eq (pool : ConstantPool) (start : Nat) (methods : List Member) :
    findEntryChecked pool start methods = inRange (findEntry pool start methods) := by
  induction methods generalizing start with
  | nil => rfl
  | cons m methods ih =>
    refine bind_inRange (isEntryChecked_eq pool m) fun found => ?_
    cases found with
    | true => rfl
    | false => exact ih (start + 1)

end Member

namespace ClassFile

variable (c : ClassFile)

/-- The name of the superclass, if there is one. -/
def superClassNameChecked : Checked (Option String) :=
  if c.superClass = 0 then pure none else some <$> c.pool.classNameChecked c.superClass

/-- The names of some classes. -/
def namesChecked (pool : ConstantPool) : List UInt16 → Checked (List String)
  | [] => pure []
  | index :: indices => do
    let name ← pool.classNameChecked index
    let names ← namesChecked pool indices
    pure (name :: names)

/-- The name of the source file, if there is one. -/
def sourceFileChecked : Checked (Option String) :=
  match Attribute.firstSourceFile? c.attributes with
  | some file => some <$> c.pool.utf8Checked file
  | none => pure none

theorem superClassNameChecked_eq : c.superClassNameChecked = inRange c.superClassName := by
  rw [superClassNameChecked, superClassName, c.pool.classNameChecked_eq]
  by_cases h : c.superClass = 0
  · rw [if_pos h, if_pos h]
    rfl
  · rw [if_neg h, if_neg h]
    cases c.pool.className c.superClass <;> rfl

theorem namesChecked_eq (pool : ConstantPool) (indices : List UInt16) :
    namesChecked pool indices = inRange (indices.mapM pool.className) := by
  induction indices with
  | nil => rfl
  | cons index indices ih =>
    rw [List.mapM_cons]
    exact bind_inRange (pool.classNameChecked_eq index) fun name =>
      bind_inRange ih fun names => rfl

theorem sourceFileChecked_eq : c.sourceFileChecked = inRange c.sourceFile := by
  rw [sourceFileChecked, sourceFile]
  cases Attribute.firstSourceFile? c.attributes with
  | none => rfl
  | some file =>
    show some <$> c.pool.utf8Checked file = inRange ((c.pool.utf8 file).map some)
    rw [c.pool.utf8Checked_eq]
    cases c.pool.utf8 file <;> rfl

/-- Whether everything that a class file is asked is answered in range. -/
structure AnswersInRange : Prop where
  className : c.pool.classNameChecked c.thisClass = inRange c.className
  superClassName : c.superClassNameChecked = inRange c.superClassName
  interfaceNames : namesChecked c.pool c.interfaces = inRange c.interfaceNames
  entryPoint : Member.findEntryChecked c.pool 0 c.methods = inRange c.entryPoint
  sourceFile : c.sourceFileChecked = inRange c.sourceFile

theorem answersInRange : c.AnswersInRange where
  className := c.pool.classNameChecked_eq c.thisClass
  superClassName := c.superClassNameChecked_eq
  interfaceNames := namesChecked_eq c.pool c.interfaces
  entryPoint := Member.findEntryChecked_eq c.pool 0 c.methods
  sourceFile := c.sourceFileChecked_eq

end ClassFile

/-- Whether everything that a pool is asked, also through a class file with it, is answered in
range. -/
structure ConstantPool.AnswersInRange (pool : ConstantPool) : Prop where
  /-- An index is looked up one place before, and only if it is not zero. -/
  get : ∀ index, pool.getChecked index = inRange (pool.get index)
  /-- The look-ups of texts follow one index, or two. -/
  utf8 : ∀ index, pool.utf8Checked index = inRange (pool.utf8 index)
  className : ∀ index, pool.classNameChecked index = inRange (pool.className index)
  text : ∀ index, pool.textChecked index = inRange (pool.text index)
  /-- An attribute is found by its name. -/
  findNamed : ∀ text attributes, Attribute.findNamedChecked pool text attributes =
    some (Attribute.findNamed? pool text attributes)
  /-- The enumeration finds an index for each place, -/
  entries : pool.entriesChecked = some pool.entries
  /-- and it is the index that the constant is looked up by. -/
  mem_entries_iff : ∀ index c, (index, c) ∈ pool.entries ↔ pool.get index = .ok c
  /-- Class files ask for what their indices lead to. -/
  ofClassFile : ∀ c : ClassFile, c.pool = pool → c.AnswersInRange

/-- **Everything is answered in range,** if the slots can be named. -/
theorem ConstantPool.answersInRange {pool : ConstantPool} (hsize : pool.size ≤ 65535) :
    pool.AnswersInRange where
  get := getChecked_eq
  utf8 := pool.utf8Checked_eq
  className := pool.classNameChecked_eq
  text := pool.textChecked_eq
  findNamed := Attribute.findNamedChecked_eq pool
  entries := entriesChecked_eq hsize
  mem_entries_iff _ _ := ConstantPool.mem_entries_iff hsize
  ofClassFile c _ := c.answersInRange

/-! ## Sessions

A session goes on behind a request that has failed, so the reader has to be inside its buffer there
too.  `isIn_run` says that it is, and with it each request can be looked at by itself. -/

theorem ConstantPool.isWellFormed_of_run {pool : ConstantPool} {s : Progress}
    (h : (decode.run s).1 = .ok pool) : pool.IsWellFormed := by
  have hread := reads_decode s pool (decode.run s).2.cursor (Nat.lt_succ_self _)
  obtain ⟨run, ⟨hwell, -⟩, -⟩ := hread.1 ⟨_, Prod.ext h rfl⟩
  exact hwell

theorem ClassFile.isWellFormed_of_run {c : ClassFile} {s : Progress}
    (h : (decode.run s).1 = .ok c) : c.IsWellFormed := by
  have hroom := Nat.lt_succ_self s.cursor.remaining
  rw [agreeBelow_decode _ s hroom] at h
  rcases hrun : (decodeWithin (s.cursor.remaining + 1)).run s with ⟨e | c', s'⟩
  · rw [run_bind_of_error hrun] at h
    cases h
  · rw [run_bind_of_ok hrun, run_bind_of_ok (run_recordTrailing s')] at h
    obtain rfl : c' = c := Except.ok.inj h
    have hread := reads_decodeWithin (s.cursor.remaining + 1) s c' s'.cursor hroom
    obtain ⟨run, ⟨hwell, -⟩, -⟩ := hread.1 ⟨_, hrun⟩
    exact hwell

/-- The pool in an answer, by itself or as that of a class file. -/
def Answer.pool? : Answer → Option ConstantPool
  | pool found => some found
  | classFile c => some c.pool
  | read _ _ | attributes _ => none

/-- A request ends with what its reader finds. -/
theorem Decoder.exists_of_run_bind_pure {α β : Type} {d : Decoder α} {g : α → β} {s : Progress}
    {y : β} (h : ((do let x ← d; pure (g x) : Decoder β).run s).1 = .ok y) :
    ∃ x, (d.run s).1 = .ok x ∧ g x = y := by
  rcases hrun : d.run s with ⟨e | x, s'⟩
  · rw [run_bind_of_error hrun] at h
    cases h
  · rw [run_bind_of_ok hrun] at h
    exact ⟨x, rfl, Except.ok.inj h⟩

/-- **A pool that is found is well-formed,** so its slots can be counted. -/
theorem Request.isWellFormed_of_run {request : Request} {s : Progress} {answer : Answer}
    {pool : ConstantPool} (h : (request.decoder.run s).1 = .ok answer)
    (hpool : answer.pool? = some pool) : pool.IsWellFormed := by
  cases request with
  | read r =>
    obtain ⟨x, -, rfl⟩ := exists_of_run_bind_pure h
    cases hpool
  | pool =>
    obtain ⟨found, hfound, rfl⟩ := exists_of_run_bind_pure h
    obtain rfl : found = pool := Option.some.inj hpool
    exact ConstantPool.isWellFormed_of_run hfound
  | attributes names count =>
    obtain ⟨found, -, rfl⟩ := exists_of_run_bind_pure h
    cases hpool
  | classFile =>
    obtain ⟨c, hc, rfl⟩ := exists_of_run_bind_pure h
    obtain rfl : c.pool = pool := Option.some.inj hpool
    exact (ClassFile.isWellFormed_of_run hc).pool

namespace Session

variable {buffer : List UInt8} {requests : List Request} {s : Progress} {pool : ConstantPool}

/-- Whether a pool is at hand in a session: a request gives it, or it is found. -/
inductive HasPool (requests : List Request) (s : Progress) (pool : ConstantPool) : Prop
  | given (count : UInt16) (h : .attributes pool count ∈ requests)
  | found (answer : Answer) (h : .ok answer ∈ (run requests s).1)
      (hpool : answer.pool? = some pool)

/-- Every outcome is that of one of the requests. -/
theorem exists_of_mem_run {outcome : Except FormatError Answer} (h : outcome ∈ (run requests s).1) :
    ∃ (request : Request) (s' : Progress), (request.decoder.run s').1 = outcome := by
  induction requests generalizing s with
  | nil => cases h
  | cons request requests ih =>
    rcases List.mem_cons.1 h with rfl | h
    · exact ⟨request, s, rfl⟩
    · exact ih h

/-- Requests leave the reader inside its buffer, also those that fail. -/
theorem isIn_run (hbuffer : buffer.length < UInt64.size) (hs : s.cursor.IsIn buffer) :
    (run requests s).2.cursor.IsIn buffer := by
  induction requests generalizing s with
  | nil => exact hs
  | cons request requests ih => exact ih (request.counting_decoder.keeps hbuffer s hs).2

theorem size_le_of_hasPool
    (hpools : ∀ pool count, .attributes pool count ∈ requests → pool.size ≤ 65535)
    (h : HasPool requests s pool) : pool.size ≤ 65535 := by
  cases h with
  | given count h => exact hpools pool count h
  | found answer h hpool =>
    obtain ⟨request, s', hrun⟩ := exists_of_mem_run h
    exact Nat.le_of_lt (request.isWellFormed_of_run hrun hpool).size_lt

/-- **Nothing leads out of range.**  Whatever a reader is asked for, one thing after another and
also behind requests that have failed, on any buffer whose length is a machine word and with any
pools whose slots can be named: every read and every count is in range; the loop over the constants
of a pool neither wraps around nor cuts an index down; so is every look-up of a name while
attributes are read; and every question to a pool at hand, or to a class file with it, is answered
in range. -/
theorem stays_in_range (hbuffer : buffer.length < UInt64.size)
    (hpools : ∀ pool count, .attributes pool count ∈ requests → pool.size ≤ 65535) :
    (∀ front request back, requests = front ++ request :: back →
      StaysInRange buffer request.decoder (run front (.start buffer)).2) ∧
    ConstantPool.decodeChecked = some <$> ConstantPool.decode ∧
    (∀ (pool : ConstantPool) (name : UInt16), pool.utf8Checked name = inRange (pool.utf8 name)) ∧
    ∀ pool, HasPool requests (.start buffer) pool → pool.AnswersInRange := by
  have hstart : (Progress.start buffer).cursor.IsIn buffer := Cursor.isIn_ofBytes buffer
  refine ⟨fun front request back _ => ?_, ConstantPool.decodeChecked_eq,
    ConstantPool.utf8Checked_eq, fun pool hpool => ?_⟩
  · exact (request.counting_decoder.keeps hbuffer _ (isIn_run hbuffer hstart)).1
  · exact ConstantPool.answersInRange (size_le_of_hasPool hpools hpool)

/-- A pool, an attribute whose name no pool has, and more bytes than there can be. -/
def greedyRequests : List Request :=
  [.pool, .attributes .empty 1, .read (.bytes (UInt64.size - 1))]

theorem stays_in_range_greedyRequests :
    ConstantPool.wideLastBuffer.length < UInt64.size ∧
    (∀ pool count, .attributes pool count ∈ greedyRequests → pool.size ≤ 65535) ∧
    StaysInRange ConstantPool.wideLastBuffer (Request.read (.bytes (UInt64.size - 1))).decoder
      (run (greedyRequests.take 2) (.start ConstantPool.wideLastBuffer)).2 ∧
    ConstantPool.wideLastPool.AnswersInRange := by
  have hbuffer : ConstantPool.wideLastBuffer.length < UInt64.size := by decide
  have hpools (pool : ConstantPool) (count : UInt16)
      (h : .attributes pool count ∈ greedyRequests) : pool.size ≤ 65535 := by
    obtain ⟨rfl, -⟩ : pool = .empty ∧ count = 1 := by simpa [greedyRequests] using h
    decide
  obtain ⟨hreads, -, -, hanswers⟩ := stays_in_range hbuffer hpools
  have hfound : .ok (.pool ConstantPool.wideLastPool) ∈
      (run greedyRequests (.start ConstantPool.wideLastBuffer)).1 := .head _
  exact ⟨hbuffer, hpools, hreads (greedyRequests.take 2) _ [] rfl,
    hanswers _ (.found _ hfound rfl)⟩

end Session
end ClassFormat
