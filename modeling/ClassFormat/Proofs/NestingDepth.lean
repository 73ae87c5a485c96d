import ClassFormat.Proofs.PayloadLength

/-!
# How deep attributes can be nested

The reader of attributes calls itself for the attributes inside a method body.  Here it is run
without calling itself, with a stack of the method bodies that are open: `advance` is one step, in
which no method body is opened or closed in between.  Whatever state such a run is in, what is left
to do is what the reader does behind that place (`resume_eq_advance`), so the two have the same
outcome, with the same log and at the same place.

Neither the counts nor the declared lengths keep this run from going on for ever or from going ever
deeper; it is the number of bytes in the buffer that does.  Every step but the last takes six bytes,
or else closes a method body that has taken them in advance (`Moves.bytes`).  In front of a method
body there is a header of six bytes, and in front of the attributes inside it there are twelve bytes
more, so that each level takes eighteen.  `nesting_is_bounded` says what follows, for runs that fail
as well, and for the lists that come out.

## What is here

* `Opened` and `State` — a run is in a list, or in front of a method body that has been opened.  The
  stack has everything that is needed to close a body: its header, what has been read of it, and its
  place in the list that it is in.
* `advance` — one step, and `Next`, what comes behind it.
* `resume` — what is left to do in a state, written with the reader that calls itself.
* `Moves` — where a step can lead and the bytes that it takes at least, one constructor for each
  sort of step.
* `RunsTo` and `Stops` — the runs of so many steps, and the last step.
* `RunsTo.bytes` — the invariant of runs: the bytes that have been taken are enough for the steps
  that have been made, and for what is open.
* `IsOpenAt` — the moments of a run, those inside of a step included.
* `total`, `NestsTo` — the number of attributes at all depths, and the depth of nesting.
* `IsBounded` — what `nesting_is_bounded` says.
-/

set_option autoImplicit false

namespace ClassFormat

open Decoder

namespace Attribute

/-! ## The run with a stack

A step reads one attribute, unless it holds code: then it reads the header, and the front of the
body is a step of its own.  When the list of a body has been read the body is closed, which reads
nothing. -/

/-- An attribute that holds code and whose header has been read, with its place in the list that it
is in: the attributes in front of it, the last one first, and the number of those behind it. -/
structure Opened where
  name : UInt16
  declared : UInt32
  text : String
  start : Nat
  before : List Attribute
  behind : Nat

/-- What a run is about to do.  On the stack are the attributes whose method bodies are open, the
innermost first, with what has been read of these bodies. -/
inductive State
  /-- Reads so many attributes behind those found, the last of which comes first. -/
  | list (found : List Attribute) (missing : Nat) (stack : List (Opened × Code))
  /-- Reads a method body up to its attributes. -/
  | body (opened : Opened) (stack : List (Opened × Code))

/-- What comes behind a step. -/
inductive Next
  | ended (attributes : List Attribute)
  | goesOn (state : State)

/-- The end of an attribute that holds code: its length is compared with the declared one. -/
def Opened.close (opened : Opened) (body : Code) (attributes : List Attribute) :
    Decoder Attribute := do
  let stop ← position
  if stop - opened.start = opened.declared.toNat then
    record (.attributeEnd opened.text opened.declared)
    pure (code opened.name body attributes)
  else
    throw (.lengthMismatch opened.text opened.declared (stop - opened.start))

/-- One step of a run. -/
def advance (pool : ConstantPool) : State → Decoder Next
  | .list found 0 [] => pure (.ended found.reverse)
  | .list found 0 ((opened, body) :: stack) => do
    let a ← opened.close body found.reverse
    pure (.goesOn (.list (a :: opened.before) opened.behind stack))
  | .list found (missing + 1) stack => do
    let name ← u16
    let declared ← u32
    let text ← lift (pool.utf8 name)
    if Kind.ofName text = .code then
      let start ← position
      pure (.goesOn (.body ⟨name, declared, text, start, found, missing⟩ stack))
    else
      -- no other attribute has attributes inside, so it does not matter how they would be read
      let a ← decodeFramed (fun _ => pure []) name declared text
      pure (.goesOn (.list (a :: found) missing stack))
  | .body opened stack => do
    let (body, count) ← Code.decodeFront
    pure (.goesOn (.list [] count.toNat ((opened, body) :: stack)))

/-- The number of method bodies that are open. -/
def State.depth : State → Nat
  | .list _ _ stack => stack.length
  | .body _ stack => stack.length + 1

/-! ## What is left to do

`resume` is the specification of the run.  `resume_eq_advance` is an equation between decoders, so
it holds of errors and of the log as well, and the whole comparison of the two readers is in it;
along a run it is only used again and again. -/

/-- Closes the open method bodies one after another, each behind the attributes that are left in it
and in front of those behind it. -/
def closeAll (pool : ConstantPool) : List (Opened × Code) → List Attribute →
    Decoder (List Attribute)
  | [], attributes => pure attributes
  | (opened, body) :: stack, attributes => do
    let a ← opened.close body attributes
    let attributes ← timesOnto (decodeOne pool) opened.behind (a :: opened.before)
    closeAll pool stack attributes

/-- Does all that is left to do, by means of the reader that calls itself. -/
def resume (pool : ConstantPool) : State → Decoder (List Attribute)
  | .list found missing stack => do
    let attributes ← timesOnto (decodeOne pool) missing found
    closeAll pool stack attributes
  | .body opened stack => do
    let (body, attributes) ← Code.decode (decode pool)
    closeAll pool ((opened, body) :: stack) attributes

/-- Does what is left to do behind a step. -/
def Next.resume (pool : ConstantPool) : Next → Decoder (List Attribute)
  | ended attributes => pure attributes
  | goesOn state => Attribute.resume pool state

/-- The attribute of a method body is closed behind the body. -/
theorem decodeFramed_code {pool : ConstantPool} {name : UInt16} {declared : UInt32}
    {text : String} (h : Kind.ofName text = .code) (before : List Attribute) (behind : Nat) :
    decodeFramed (decode pool) name declared text = (do
      let start ← position
      let (body, attributes) ← Code.decode (decode pool)
      Opened.close ⟨name, declared, text, start, before, behind⟩ body attributes) := by
  simp only [decodeFramed, h, decodePayload, measured, bind_assoc, pure_bind, Opened.close]

/-- Any other attribute has no attributes inside. -/
theorem decodeFramed_congr {text : String} (h : Kind.ofName text ≠ .code)
    (inner inner' : UInt16 → Decoder (List Attribute)) (name : UInt16) (declared : UInt32) :
    decodeFramed inner name declared text = decodeFramed inner' name declared text := by
  cases hkind : Kind.ofName text with
  | code => exact absurd hkind h
  | _ => simp only [decodeFramed, hkind, decodePayload]

theorem decodeOne_eq (pool : ConstantPool) : decodeOne pool = (do
    let name ← u16
    let declared ← u32
    let text ← lift (pool.utf8 name)
    decodeFramed (decode pool) name declared text) := rfl

theorem timesOnto_succ {α : Type} (d : Decoder α) (count : Nat) (found : List α) :
    timesOnto d (count + 1) found = d >>= fun x => timesOnto d count (x :: found) := rfl

/-- **What is left to do is a step, and what is left behind it.**  The reader that calls itself
reads an attribute in one go; here a step ends behind the header if the attribute holds code. -/
theorem resume_eq_advance (pool : ConstantPool) (state : State) :
    resume pool state = advance pool state >>= Next.resume pool := by
  cases state with
  | list found missing stack =>
    cases missing with
    | zero =>
      cases stack with
      | nil => simp [resume, advance, timesOnto, closeAll, Next.resume]
      | cons frame stack => simp [resume, advance, timesOnto, closeAll, Next.resume]
    | succ missing =>
      simp only [resume, advance, timesOnto_succ, decodeOne_eq, bind_assoc]
      refine bind_congr fun name => bind_congr fun declared => bind_congr fun text => ?_
      by_cases hkind : Kind.ofName text = .code
      · rw [if_pos hkind, decodeFramed_code hkind found missing]
        simp only [bind_assoc, pure_bind, Next.resume, resume, closeAll, decodeOne_eq]
      · rw [if_neg hkind, decodeFramed_congr hkind (decode pool) fun _ => pure []]
        simp only [bind_assoc, pure_bind, Next.resume, resume, decodeOne_eq]
  | body opened stack =>
    have hinner (count : UInt16) : decode pool count = timesOnto (decodeOne pool) count.toNat [] :=
      decode_eq_times pool count
    simp only [resume, advance, Code.decode_eq, bind_assoc, pure_bind, Next.resume, hinner]

end Attribute

/-! ## Bytes taken by a step

`Takes` bounds from below what a decoder reads if it succeeds, and says of every run that it moves
forward only.  With it, the bytes that a step takes are found by following the step. -/

namespace Decoder

variable {α β : Type}

/-- Whether a run only moves forward, and takes at least so many bytes for a value, which is one of
some kind. -/
def Takes (least : Nat) (d : Decoder α) (P : α → Prop) : Prop :=
  ∀ s : Progress, s.Reaches (d.run s).2 ∧ ∀ x, (d.run s).1 = .ok x →
    s.cursor.position + least ≤ (d.run s).2.cursor.position ∧ P x

namespace Takes

variable {P : α → Prop} {Q : β → Prop}

theorem pure {x : α} (h : P x) : Takes 0 (Pure.pure x) P := fun s =>
  ⟨.refl s, fun y hy => ⟨Nat.le_refl _, by cases hy; exact h⟩⟩

theorem position : Takes 0 Decoder.position fun _ => True := fun s =>
  ⟨.refl s, fun _ _ => ⟨Nat.le_refl _, trivial⟩⟩

theorem of_sequential {d : Decoder α} (h : Sequential d) : Takes 0 d fun _ => True := fun s =>
  ⟨h.reaches s, fun _ _ => ⟨(h.reaches s).position_le, trivial⟩⟩

theorem read (r : Read) : Takes r.width (Decoder.read r) fun _ => True := by
  refine fun s => ⟨(Sequential.read r).reaches s, fun x hx => ⟨?_, trivial⟩⟩
  rcases Nat.lt_or_ge s.cursor.remaining r.width with h | h
  · rw [run_read_of_lt h] at hx
    cases hx
  · rw [run_read_of_le h]

theorem bind {least least' : Nat} {d : Decoder α} {f : α → Decoder β} (hd : Takes least d P)
    (hf : ∀ x, P x → Takes least' (f x) Q) : Takes (least + least') (d >>= f) Q := by
  intro s
  obtain ⟨hreaches, htakes⟩ := hd s
  rcases hrun : d.run s with ⟨e | x, s'⟩
  · rw [run_bind_of_error hrun]
    rw [hrun] at hreaches
    exact ⟨hreaches, fun y hy => by cases hy⟩
  · rw [run_bind_of_ok hrun]
    rw [hrun] at hreaches htakes
    obtain ⟨hleast, hx⟩ := htakes x rfl
    obtain ⟨hreaches', htakes'⟩ := hf x hx s'
    refine ⟨hreaches.trans hreaches', fun y hy => ?_⟩
    obtain ⟨hleast', hy⟩ := htakes' y hy
    exact ⟨by simp only at hleast; omega, hy⟩

end Takes
end Decoder

/-- Two numbers, the number of instruction bytes, and the numbers of handlers and of attributes. -/
theorem Code.takes_decodeFront : Takes 12 decodeFront fun _ => True := by
  have hhandlers (count : Nat) := Takes.of_sequential (Handler.sequential_decode.times count)
  exact (Takes.read .u16).bind fun _ _ => (Takes.read .u16).bind fun _ _ =>
    (Takes.read .u32).bind fun _ _ => (Takes.of_sequential (.read _)).bind fun _ _ =>
      (Takes.read .u16).bind fun _ _ => (hhandlers _).bind fun _ _ =>
        (Takes.read .u16).bind fun _ _ => .pure trivial

namespace Attribute

/-- Where a step leads, and the number of bytes that it takes at least. -/
inductive Moves : State → State → Nat → Prop
  /-- An attribute is read that holds no code. -/
  | passes (found : List Attribute) (missing : Nat) (stack : List (Opened × Code))
    (a : Attribute) : Moves (.list found (missing + 1) stack) (.list (a :: found) missing stack) 6
  /-- The header of an attribute is read that holds code. -/
  | opens (found : List Attribute) (missing : Nat) (stack : List (Opened × Code))
    (opened : Opened) : Moves (.list found (missing + 1) stack) (.body opened stack) 6
  /-- A method body is read up to its attributes. -/
  | enters (opened : Opened) (stack : List (Opened × Code)) (body : Code) (count : Nat) :
    Moves (.body opened stack) (.list [] count ((opened, body) :: stack)) 12
  /-- The attributes of a method body have all been read. -/
  | closes (found : List Attribute) (opened : Opened) (body : Code)
    (stack : List (Opened × Code)) (a : Attribute) :
    Moves (.list found 0 ((opened, body) :: stack)) (.list (a :: opened.before) opened.behind stack)
      0

theorem sequential_decodeFramed {inner : UInt16 → Decoder (List Attribute)}
    (hinner : ∀ count, Sequential (inner count)) (name : UInt16) (declared : UInt32)
    (text : String) : Sequential (decodeFramed inner name declared text) := by
  refine .bind (.measured (sequential_decodePayload hinner name declared _)) fun ⟨a, consumed⟩ => ?_
  show Sequential (if consumed = declared.toNat then _ else _)
  split
  · exact .bind (.record _) fun _ => .pure _
  · exact .throw fun m h => by cases h

theorem Opened.takes_close (opened : Opened) (body : Code) (attributes : List Attribute) :
    Takes 0 (opened.close body attributes) fun _ => True := by
  show Takes (0 + 0) (opened.close body attributes) fun _ => True
  refine Takes.position.bind fun stop _ => ?_
  split
  · exact (Takes.of_sequential (.record _)).bind fun _ _ => .pure trivial
  · exact .of_sequential (.throw fun m h => by cases h)

/-- **A step that goes on takes its bytes,** and one that does not go on moves only forward, too. -/
theorem takes_advance (pool : ConstantPool) (state : State) :
    ∃ least, Takes least (advance pool state) fun next =>
      ∀ state', next = .goesOn state' → Moves state state' least := by
  cases state with
  | list found missing stack =>
    cases missing with
    | zero =>
      cases stack with
      | nil => exact ⟨0, .pure fun state' h => by cases h⟩
      | cons frame stack =>
        refine ⟨0, (frame.1.takes_close frame.2 _).bind fun a _ => .pure fun state' h => ?_⟩
        cases h
        exact .closes found frame.1 frame.2 stack a
    | succ missing =>
      refine ⟨6, ?_⟩
      show Takes (2 + (4 + (0 + (0 + 0)))) (advance pool (.list found (missing + 1) stack)) _
      refine (Takes.read .u16).bind fun name _ => (Takes.read .u32).bind fun declared _ =>
        (Takes.of_sequential (.lift ConstantPool.utf8_ne_truncated)).bind fun text _ => ?_
      split
      · refine Takes.position.bind fun start _ => .pure fun state' h => ?_
        cases h
        exact .opens found missing stack _
      · have hframed := sequential_decodeFramed (fun _ => .pure []) name declared text
        refine (Takes.of_sequential hframed).bind fun a _ => .pure fun state' h => ?_
        cases h
        exact .passes found missing stack a
  | body opened stack =>
    refine ⟨12, Code.takes_decodeFront.bind fun front _ => .pure fun state' h => ?_⟩
    cases h
    exact .enters opened stack _ _

/-! ## Runs

A run is described from its start, one step behind the other.  Since each step takes six bytes or
closes a body, and no more bodies are closed than have been opened, there can be no more steps than
a sixth of the bytes.  The number of steps that are left is therefore what the proof that a run
stops goes by. -/

/-- Whether the run that reads so many attributes from a place gets to a state at another place, in
so many steps. -/
inductive RunsTo (pool : ConstantPool) (count : UInt16) (s : Progress) :
    Nat → State → Progress → Prop
  | start : RunsTo pool count s 0 (.list [] count.toNat []) s
  | step {steps : Nat} {state state' : State} {place place' : Progress}
    (h : RunsTo pool count s steps state place)
    (hnext : (advance pool state).run place = (.ok (.goesOn state'), place')) :
    RunsTo pool count s (steps + 1) state' place'

/-- Whether a step is the last one, and what comes of the run. -/
inductive Stops (pool : ConstantPool) (state : State) (place : Progress) :
    Except FormatError (List Attribute) × Progress → Prop
  | failed {e : FormatError} {s' : Progress}
    (h : (advance pool state).run place = (.error e, s')) : Stops pool state place (.error e, s')
  | ended {attributes : List Attribute} {s' : Progress}
    (h : (advance pool state).run place = (.ok (.ended attributes), s')) :
    Stops pool state place (.ok attributes, s')

section Runs

variable {pool : ConstantPool} {count : UInt16} {s : Progress} {steps : Nat} {state : State}
  {place : Progress}

/-- **What is left to do is always what the reader that calls itself has left.** -/
theorem RunsTo.run_resume (h : RunsTo pool count s steps state place) :
    (resume pool state).run place = (decode pool count).run s := by
  induction h with
  | start =>
    have hdecode : decode pool count = timesOnto (decodeOne pool) count.toNat [] :=
      decode_eq_times pool count
    simp only [resume, closeAll, bind_pure, hdecode]
  | @step steps state state' place place' h hnext ih =>
    rw [← ih, resume_eq_advance pool state, run_bind_of_ok hnext, Next.resume]

/-- A run goes on, or it stops with what the reader that calls itself gives. -/
theorem RunsTo.goesOn_or_stops (h : RunsTo pool count s steps state place) :
    (∃ state' place', RunsTo pool count s (steps + 1) state' place') ∨
      Stops pool state place ((decode pool count).run s) := by
  have hleft := h.run_resume
  rw [resume_eq_advance] at hleft
  rcases hnext : (advance pool state).run place with ⟨e | next, place'⟩
  · rw [run_bind_of_error hnext] at hleft
    rw [← hleft]
    exact .inr (.failed hnext)
  · rw [run_bind_of_ok hnext] at hleft
    cases next with
    | ended attributes =>
      rw [← hleft]
      exact .inr (.ended hnext)
    | goesOn state' => exact .inl ⟨state', place', h.step hnext⟩

/-! ### What a run has taken -/

/-- The open method bodies whose attributes are being read. -/
def State.stack : State → List (Opened × Code)
  | .list _ _ stack => stack
  | .body _ stack => stack

/-- The bytes in front of what is about to be read, in the method bodies that are open: a header and
the front of the body for each of them, as far as they have been read. -/
def State.fronts : State → Nat
  | .list _ _ stack => 18 * stack.length
  | .body _ stack => 18 * stack.length + 6

theorem State.depth_le (state : State) : 18 * state.depth ≤ state.fronts + 12 := by
  cases state <;> simp only [depth, fronts] <;> omega

/-- What one step does to the fronts of the open bodies, and to their number. -/
theorem Moves.bytes {state state' : State} {least : Nat} (h : Moves state state' least) :
    state'.fronts ≤ state.fronts + least ∧
      6 * (state'.stack.length + 1) ≤ 6 * state.stack.length + least := by
  cases h <;> simp only [State.fronts, State.stack, List.length_cons] <;> omega

/-- **Every step takes its bytes from the buffer.**  As many have been taken as stand in front of
what is about to be read; and there are six for each step that has been made, and six more for each
method body that is still to be closed. -/
theorem RunsTo.bytes (h : RunsTo pool count s steps state place) :
    s.Reaches place ∧ s.cursor.position + state.fronts ≤ place.cursor.position ∧
      s.cursor.position + 6 * (steps + state.stack.length) ≤ place.cursor.position := by
  induction h with
  | start => exact ⟨.refl s, Nat.le_refl _, Nat.le_refl _⟩
  | @step steps state state' place place' h hnext ih =>
    obtain ⟨hreaches, hfronts, hsteps⟩ := ih
    obtain ⟨least, htakes⟩ := takes_advance pool state
    have hplace := htakes place
    rw [hnext] at hplace
    obtain ⟨hforward, hvalue⟩ := hplace
    obtain ⟨hleast, hmoves⟩ := hvalue _ rfl
    obtain ⟨hfronts', hstack'⟩ := (hmoves state' rfl).bytes
    simp only at hleast
    exact ⟨hreaches.trans hforward, by omega, by omega⟩

/-- **A run is short:** it has six bytes for each of its steps. -/
theorem RunsTo.steps_le (h : RunsTo pool count s steps state place) :
    6 * steps ≤ s.cursor.remaining := by
  obtain ⟨hreaches, -, hsteps⟩ := h.bytes
  have hsize := hreaches.size_eq
  omega

/-- A run cannot go on for ever. -/
theorem exists_stops (pool : ConstantPool) (count : UInt16) (s : Progress) :
    ∃ steps state place, RunsTo pool count s steps state place ∧
      Stops pool state place ((decode pool count).run s) := by
  by_contra hnone
  have hgoes (steps : Nat) : ∃ state place, RunsTo pool count s steps state place := by
    induction steps with
    | zero => exact ⟨_, _, .start⟩
    | succ steps ih =>
      obtain ⟨state, place, h⟩ := ih
      exact h.goesOn_or_stops.resolve_right fun hstops => hnone ⟨steps, state, place, h, hstops⟩
  obtain ⟨state, place, h⟩ := hgoes (s.cursor.remaining + 1)
  have hle := h.steps_le
  omega

/-! ### Moments of a run -/

/-- Whether a run is at a place at some moment, with so many method bodies open. -/
inductive IsOpenAt (pool : ConstantPool) (count : UInt16) (s : Progress) : Nat → Progress → Prop
  /-- In the middle of a step, it is anywhere between the place where the step starts and the place
  where it ends or fails. -/
  | within {steps : Nat} {state : State} {start place : Progress}
    (h : RunsTo pool count s steps state start) (hstart : start.Reaches place)
    (hstop : place.Reaches ((advance pool state).run start).2) :
    IsOpenAt pool count s state.depth place

/-- A step is made from its start to its end. -/
theorem RunsTo.isOpenAt (h : RunsTo pool count s steps state place) :
    IsOpenAt pool count s state.depth place ∧
      IsOpenAt pool count s state.depth ((advance pool state).run place).2 := by
  obtain ⟨least, htakes⟩ := takes_advance pool state
  have hreaches := (htakes place).1
  exact ⟨.within h (.refl place) hreaches, .within h hreaches (.refl _)⟩

theorem IsOpenAt.bytes {depth : Nat} (h : IsOpenAt pool count s depth place) :
    s.cursor.position + 18 * depth ≤ place.cursor.position + 12 := by
  cases h with
  | @within steps state start place h hstart hstop =>
    obtain ⟨-, hfronts, -⟩ := h.bytes
    have hdepth := state.depth_le
    have hle := hstart.position_le
    omega

end Runs

/-! ## Lists that are read

What has been said of a run says nothing yet of the list that it gives.  This is found from the
stored form of the list, which is what has been read: each level of nesting shows up in it with its
eighteen bytes, and each attribute with its header. -/

/-- Whether an attribute is the outermost of so many method bodies, each inside the one before. -/
inductive NestsTo : Nat → Attribute → Prop
  | code (name : UInt16) (body : Code) (attributes : List Attribute) :
    NestsTo 1 (code name body attributes)
  | inside (name : UInt16) (body : Code) {attributes : List Attribute} {a : Attribute} {depth : Nat}
    (ha : a ∈ attributes) (h : NestsTo depth a) : NestsTo (depth + 1) (code name body attributes)

mutual

/-- The number of attributes in an attribute at all depths, itself included. -/
def total : Attribute → Nat
  | code _ _ attributes => 1 + totalOfAll attributes
  | _ => 1

/-- The number of attributes in a list at all depths. -/
def totalOfAll : List Attribute → Nat
  | [] => 0
  | a :: attributes => total a + totalOfAll attributes

end

theorem encode_infix_encodeAll {a : Attribute} {attributes : List Attribute} (h : a ∈ attributes) :
    a.encode <:+: encodeAll attributes := by
  obtain ⟨front, back, rfl⟩ := List.append_of_mem h
  rw [encodeAll_eq_flatMap, List.flatMap_append, List.flatMap_cons]
  exact ⟨_, _, List.append_assoc ..⟩

/-- In front of the attributes in a method body there are eighteen bytes. -/
theorem exists_encode_code (name : UInt16) (body : Code) (attributes : List Attribute) :
    ∃ front, (code name body attributes).encode = front ++ encodeAll attributes ∧
      18 ≤ front.length := by
  refine ⟨BigEndian.bytes 2 name.toNat ++
    BigEndian.bytes 4 (code name body attributes).payload.length ++
    (body.encode ++ BigEndian.bytes 2 attributes.length), (List.append_assoc ..).symm, ?_⟩
  simp only [Code.encode, List.length_append, BigEndian.length_bytes]
  omega

theorem NestsTo.length_encode {depth : Nat} {a : Attribute} (h : NestsTo depth a) :
    18 * depth ≤ a.encode.length := by
  induction h with
  | code name body attributes =>
    obtain ⟨front, hencode, hfront⟩ := exists_encode_code name body attributes
    rw [hencode, List.length_append]
    omega
  | @inside name body attributes a depth ha h ih =>
    obtain ⟨front, hencode, hfront⟩ := exists_encode_code name body attributes
    have hle := (encode_infix_encodeAll ha).length_le
    rw [hencode, List.length_append]
    omega

/-- What is stored in a list is stored in the outermost list. -/
theorem IsLevelOf.encodeAll_infix {top level : List Attribute} (h : IsLevelOf top level) :
    encodeAll level <:+: encodeAll top := by
  induction h with
  | self => exact List.infix_rfl
  | @inside level name body attributes h ha ih =>
    obtain ⟨front, hencode, -⟩ := exists_encode_code name body attributes
    have hsuffix : encodeAll attributes <:+ (code name body attributes).encode :=
      ⟨front, hencode.symm⟩
    exact hsuffix.isInfix.trans ((encode_infix_encodeAll ha).trans ih)

mutual

theorem total_le : (a : Attribute) → 6 * total a ≤ a.encode.length
  | code name body attributes => by
    obtain ⟨front, hencode, hfront⟩ := exists_encode_code name body attributes
    have hinside := totalOfAll_le attributes
    rw [hencode, List.length_append, total]
    omega
  | deprecated _ | synthetic _ | sourceFile _ _ | constantValue _ _ | signature _ _
  | other _ _ => by
    rw [encode, length_stored, total]
    · omega
    · exact fun _ _ _ h => by cases h

theorem totalOfAll_le : (attributes : List Attribute) →
    6 * totalOfAll attributes ≤ (encodeAll attributes).length
  | [] => Nat.le_refl _
  | a :: attributes => by
    have ha := total_le a
    have hattributes := totalOfAll_le attributes
    rw [encode] at ha
    rw [encodeAll, List.length_append, totalOfAll]
    omega

end

/-! ## The bounds -/

/-- Whether the bytes of the buffer bound the reading of so many attributes from a place. -/
structure IsBounded (pool : ConstantPool) (count : UInt16) (s : Progress) : Prop where
  /-- There are six bytes for each step of a run, so it cannot go on for ever. -/
  steps : ∀ steps state place, RunsTo pool count s steps state place →
    6 * steps ≤ s.cursor.remaining
  /-- It stops, and with what the reader that calls itself gives. -/
  stops : ∃ steps state place, RunsTo pool count s steps state place ∧
    Stops pool state place ((decode pool count).run s)
  /-- Up to there it is always about to do what is left of that. -/
  left : ∀ steps state place, RunsTo pool count s steps state place →
    (resume pool state).run place = (decode pool count).run s
  /-- At its moments belong the start and the end of every step, also of a step that fails. -/
  moments : ∀ steps state place, RunsTo pool count s steps state place →
    IsOpenAt pool count s state.depth place ∧
      IsOpenAt pool count s state.depth ((advance pool state).run place).2
  /-- At any moment there are eighteen bytes for each open method body but the innermost, and six
  for that one, between the start of the run and its place. -/
  depth : ∀ depth place, IsOpenAt pool count s depth place →
    s.cursor.position + 18 * depth ≤ place.cursor.position + 12
  /-- A list that comes out is stored in the bytes that have been taken.  Method bodies in it that
  are nested so deep take eighteen bytes for each level, and there are six bytes for each attribute
  in it, at all depths. -/
  lists : ∀ attributes s', (decode pool count).run s = (.ok attributes, s') →
    ∃ run, s.cursor.Passes run s'.cursor ∧
      (∀ level, IsLevelOf attributes level → ∀ a ∈ level, a.encode <:+: run ∧
        ∀ depth, NestsTo depth a → 18 * depth ≤ a.encode.length) ∧
      6 * totalOfAll attributes ≤ run.length

/-- **The depth of nesting is bounded by the bytes of the buffer,** whatever the pool, the counts
and the declared lengths are: every run comes to a stop, and it never has more method bodies open
than there are bytes for. -/
theorem nesting_is_bounded (pool : ConstantPool) (count : UInt16) (s : Progress) :
    IsBounded pool count s where
  steps _ _ _ h := h.steps_le
  stops := exists_stops pool count s
  left _ _ _ h := h.run_resume
  moments _ _ _ h := h.isOpenAt
  depth _ _ h := h.bytes
  lists attributes s' h := by
    have hread := reads_decode pool count s attributes s'.cursor (Nat.lt_succ_self _)
    obtain ⟨run, ⟨hrun, -⟩, hpasses⟩ := hread.1 ⟨s'.log, h⟩
    refine ⟨run, hpasses, fun level hlevel a ha => ⟨?_, fun _ => NestsTo.length_encode⟩, ?_⟩
    · rw [hrun]
      exact (encode_infix_encodeAll ha).trans hlevel.encodeAll_infix
    · rw [hrun]
      exact totalOfAll_le attributes

/-- A pool in which every name is that of code. -/
def codeOnly : ConstantPool := ⟨#[some (.utf8 "Code")]⟩

/-- A method body inside a method body, with nothing else in them. -/
def bodyInBody : Attribute := .code 1 ⟨0, 0, [], []⟩ [.code 1 ⟨0, 0, [], []⟩ []]

theorem fits_bodyInBody : EverywhereIn (Fits codeOnly) [bodyInBody] := by
  have hinner : Fits codeOnly (.code 1 ⟨0, 0, [], []⟩ []) :=
    ⟨⟨"Code", rfl, rfl⟩, by decide, by decide, by decide⟩
  have houter : Fits codeOnly bodyInBody := ⟨⟨"Code", rfl, rfl⟩, by decide, by decide, by decide⟩
  exact ⟨⟨houter, ⟨hinner, trivial⟩, trivial⟩, trivial⟩

/-- Behind the second header both bodies are open. -/
theorem isOpenAt_bodyInBody : IsOpenAt codeOnly 1 (.start bodyInBody.encode) 2
    ⟨⟨24, bodyInBody.encode.drop 24⟩, #[]⟩ := by
  have hopens : RunsTo codeOnly 1 (.start bodyInBody.encode) 1
      (.body ⟨1, 30, "Code", 6, [], 0⟩ []) ⟨⟨6, bodyInBody.encode.drop 6⟩, #[]⟩ := .step .start rfl
  have henters : RunsTo codeOnly 1 (.start bodyInBody.encode) 2
      (.list [] 1 [(⟨1, 30, "Code", 6, [], 0⟩, ⟨0, 0, [], []⟩)])
      ⟨⟨18, bodyInBody.encode.drop 18⟩, #[]⟩ := .step hopens rfl
  have hopens' : RunsTo codeOnly 1 (.start bodyInBody.encode) 3
      (.body ⟨1, 12, "Code", 24, [], 0⟩ [(⟨1, 30, "Code", 6, [], 0⟩, ⟨0, 0, [], []⟩)])
      ⟨⟨24, bodyInBody.encode.drop 24⟩, #[]⟩ := .step henters rfl
  exact hopens'.isOpenAt.1

/-- At that place and by the list that is read, the bounds for two levels are reached. -/
theorem nesting_is_bounded_bodyInBody :
    IsOpenAt codeOnly 1 (.start bodyInBody.encode) 2 ⟨⟨24, bodyInBody.encode.drop 24⟩, #[]⟩ ∧
    18 * 2 ≤ 24 + 12 ∧
    ∃ s', (decode codeOnly 1).run (.start bodyInBody.encode) = (.ok [bodyInBody], s') ∧
      NestsTo 2 bodyInBody ∧ 18 * 2 ≤ bodyInBody.encode.length ∧ bodyInBody.encode.length = 36 ∧
      6 * totalOfAll [bodyInBody] ≤ s'.cursor.position := by
  have hbounded := nesting_is_bounded codeOnly 1 (.start bodyInBody.encode)
  have hread := reads_decode codeOnly 1 (.start bodyInBody.encode) [bodyInBody] ⟨36, []⟩
    (Nat.lt_succ_self _)
  obtain ⟨log, h⟩ := hread.2
    ⟨bodyInBody.encode, ⟨by decide +kernel, rfl, fits_bodyInBody⟩, by decide, by decide⟩
  have hnests : NestsTo 2 bodyInBody := .inside 1 _ (List.mem_singleton_self _) (.code 1 _ [])
  obtain ⟨run, hpasses, hlevels, htotal⟩ := hbounded.lists _ _ h
  obtain ⟨-, hlength⟩ := hlevels _ .self bodyInBody (List.mem_singleton_self _)
  have hposition : 36 = 0 + run.length := hpasses.2
  refine ⟨isOpenAt_bodyInBody, hbounded.depth 2 _ isOpenAt_bodyInBody, _, h, hnests,
    hlength 2 hnests, rfl, ?_⟩
  show 6 * totalOfAll [bodyInBody] ≤ 36
  omega

end Attribute
end ClassFormat
