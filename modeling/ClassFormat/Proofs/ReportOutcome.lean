import ClassFormat.Proofs.ReportLines
import ClassFormat.Proofs.RoundTrip
import ClassFormat.Report.Run

/-!
# The outcome of a run

A run prints its report line by line and stops at the first line that it cannot complete.  `lines`
is the whole report as it is if nothing fails, and `lookUps` are the look-ups that it needs, in the
order in which they are made.

`run_file` says that these two tell the outcome of every run on a file that is not empty.  What
stops a run is the first look-up that fails, and what is printed are the lines in front of the one
that needs it.  The names of attributes and the search for the entry point are not among the
look-ups: the former have been resolved when the file was decoded, and the latter looks only at
names and descriptors that have been printed before.

## What is here

* `classLines`, `fieldLines`, `methodLines` and `entryLines` — the four parts of `lines`, beside the
  four parts of the report that is printed.
* `needsOf_lines` — the look-ups of the lines are `lookUps`, in this order.  It ties the description
  of the report to the list that a reader of it would write down.
* `AllNamed` — that the names of all attributes can be resolved, and `allNamed_of_ofBytes`, that in
  a file that has been decoded they can.
* `findEntry_of_resolved` — among methods whose names and descriptors can be resolved the search for
  the entry point finds the first that has the right ones, and does not fail.
* `tells_steps` — the steps of the report print what is told of its lines.
* `IsOutcomeOn` — what is said of a run on a file with a class file in it.
-/

set_option autoImplicit false

namespace ClassFormat
namespace Report

/-! ## The report without failures

These definitions follow the report line by line, with the same labels.  Where the report would look
something up, they have the look-up and what it shows; and there are lines that need nothing because
what they show is already known. -/

/-- Whether the names of some attributes can be resolved. -/
def AreNamed (pool : ConstantPool) (attributes : List Attribute) : Prop :=
  ∀ a ∈ attributes, ∃ text, pool.utf8 a.name = .ok text

/-- The names of some attributes, on one line; no line if there are none. -/
def attributesLine (pool : ConstantPool) (attributes : List Attribute) : List Line :=
  if attributes.isEmpty then
    []
  else
    [.plain ("attributes: " ++ ", ".intercalate (attributes.map fun a => shown (pool.utf8 a.name)))]

/-- The look-up of the source file, if one is named. -/
def sourceFileLookUps (c : ClassFile) : List LookUp :=
  ((Attribute.firstSourceFile? c.attributes).map c.pool.utf8).toList

/-- The superclass, or nothing if there is none. -/
def superClassLookUp (c : ClassFile) : LookUp := c.superClassName.map fun name => name.getD ""

/-- What the report says of the class itself. -/
def classLines (c : ClassFile) : List Line :=
  [.plain ("magic: " ++ String.ofList (Nat.toDigits 16 magicNumber.toNat)),
    .plain ("minor version: " ++ toString c.minorVersion.toNat),
    .plain ("major version: " ++ toString c.majorVersion.toNat),
    .plain ("constant pool count: " ++ toString c.pool.count),
    .plain ("access flags: " ++ FlagOwner.classFile.text c.accessFlags),
    .needing "this class" c.className,
    .needing "super class" (superClassLookUp c),
    .listing "interfaces" (c.interfaces.map c.pool.className)]
    ++ (sourceFileLookUps c).map (.needing "source file") ++ attributesLine c.pool c.attributes

/-- What the report says of a field. -/
def fieldLines (pool : ConstantPool) (m : Member) : List Line :=
  [.plain "",
    .needing "field name" (m.nameText pool),
    .plain ("access flags: " ++ FlagOwner.field.text m.accessFlags),
    .needing "descriptor" (m.descriptorText pool)]
    ++ attributesLine pool m.attributes

/-- What the report says of a method. -/
def methodLines (pool : ConstantPool) (m : Member) : List Line :=
  [.plain "",
    .needing "method name" (m.nameText pool),
    .plain ("access flags: " ++ FlagOwner.method.text m.accessFlags),
    .needing "descriptor" (m.descriptorText pool)]
    ++ (codeLines m.attributes).map .plain ++ attributesLine pool m.attributes

/-- Whether a method has the name and the descriptor of an entry point. -/
def isEntryPoint (pool : ConstantPool) (m : Member) : Bool :=
  shown (m.nameText pool) = Member.entryName ∧
    shown (m.descriptorText pool) = Member.entryDescriptor

/-- What the report says of the method that a program starts from. -/
def entryLines (c : ClassFile) : List Line :=
  if c.methods.any (isEntryPoint c.pool) then
    [.plain "", .plain "entry point: main([Ljava/lang/String;)V"]
  else
    []

/-- The whole report. -/
def lines (c : ClassFile) : List Line :=
  classLines c
    ++ .plain ("fields count: " ++ toString c.fields.length) :: c.fields.flatMap (fieldLines c.pool)
    ++ .plain "" :: .plain ("methods count: " ++ toString c.methods.length)
      :: c.methods.flatMap (methodLines c.pool)
    ++ entryLines c

/-- The name and the descriptor of a member. -/
def memberLookUps (pool : ConstantPool) (m : Member) : List LookUp :=
  [m.nameText pool, m.descriptorText pool]

/-- All look-ups that can fail: those of the class itself, then the name and the descriptor of each
field, and then those of each method. -/
def lookUps (c : ClassFile) : List LookUp :=
  c.className :: superClassLookUp c :: c.interfaces.map c.pool.className ++ sourceFileLookUps c
    ++ c.fields.flatMap (memberLookUps c.pool) ++ c.methods.flatMap (memberLookUps c.pool)

variable {pool : ConstantPool} {c : ClassFile} {m : Member} {attributes : List Attribute}
  {e : FormatError}

theorem needsOf_attributesLine : needsOf (attributesLine pool attributes) = [] := by
  rw [attributesLine]
  split <;> rfl

theorem needsOf_fieldLines : needsOf (fieldLines pool m) = memberLookUps pool m := by
  rw [fieldLines, needsOf_append, needsOf_attributesLine]
  rfl

theorem needsOf_methodLines : needsOf (methodLines pool m) = memberLookUps pool m := by
  rw [methodLines, needsOf_append, needsOf_append, needsOf_attributesLine, needsOf_map_plain]
  rfl

theorem needsOf_flatMap {f : Member → List Line} {g : Member → List LookUp}
    (h : ∀ m, needsOf (f m) = g m) (members : List Member) :
    needsOf (members.flatMap f) = members.flatMap g := by
  rw [needsOf, List.flatMap_assoc]
  exact congrArg members.flatMap (funext h)

theorem needsOf_classLines : needsOf (classLines c) = c.className :: superClassLookUp c ::
    c.interfaces.map c.pool.className ++ sourceFileLookUps c := by
  have hsource : needsOf ((sourceFileLookUps c).map (.needing "source file")) =
      sourceFileLookUps c := by
    simp [needsOf, Line.needing, List.flatMap_map]
  rw [classLines, needsOf_append, needsOf_append, needsOf_attributesLine, hsource]
  simp [needsOf, Line.plain, Line.needing, Line.listing]

theorem needsOf_entryLines : needsOf (entryLines c) = [] := by
  rw [entryLines]
  split <;> rfl

theorem needsOf_fields (fields : List Member) :
    needsOf (fields.flatMap (fieldLines pool)) = fields.flatMap (memberLookUps pool) :=
  needsOf_flatMap (fun _ => needsOf_fieldLines) fields

theorem needsOf_methods (methods : List Member) :
    needsOf (methods.flatMap (methodLines pool)) = methods.flatMap (memberLookUps pool) :=
  needsOf_flatMap (fun _ => needsOf_methodLines) methods

/-- **The lines need the look-ups in their order.** -/
theorem needsOf_lines : needsOf (lines c) = lookUps c := by
  simp only [lines, needsOf_append, needsOf_cons, needsOf_classLines, needsOf_entryLines,
    needsOf_fields, needsOf_methods, Line.plain, List.nil_append, List.append_nil, lookUps]

/-! ## The steps of the report

Each part of the report tells its lines, given that the names of attributes can be resolved.
Without that a line with such names could fail, and would need more look-ups than it has. -/

theorem tells_attributeLines (h : AreNamed pool attributes) :
    Tells [attributeLines pool attributes] (attributesLine pool attributes) := by
  rw [attributeLines, attributesLine]
  by_cases hempty : attributes.isEmpty
  · rw [if_pos hempty, if_pos hempty]
    exact .texts []
  · have hfault : firstFault? (attributes.map fun a => pool.utf8 a.name) = none := by
      rw [firstFault?_eq_none_iff]
      intro r hr
      obtain ⟨a, ha, rfl⟩ := List.mem_map.1 hr
      exact h a ha
    rw [if_neg hempty, if_neg hempty, mapM_of_firstFault?_eq_none hfault, List.map_map]
    exact .line _

theorem tells_sourceFile : Tells
    [c.sourceFile.map fun file => (file.map fun name => "source file: " ++ name).toList]
    ((sourceFileLookUps c).map (.needing "source file")) := by
  rw [ClassFile.sourceFile, sourceFileLookUps]
  cases Attribute.firstSourceFile? c.attributes with
  | none => exact .texts []
  | some file =>
    show Tells [((c.pool.utf8 file).map some).map _] [.needing "source file" (c.pool.utf8 file)]
    cases hfile : c.pool.utf8 file <;> rfl

theorem tells_classSteps (h : AreNamed c.pool c.attributes) :
    Tells (classSteps c) (classLines c) :=
  (Tells.line _).cons <| (Tells.line _).cons <| (Tells.line _).cons <| (Tells.line _).cons <|
    (Tells.line _).cons <| (Tells.labelled _ _).cons <| (Tells.labelled _ _).cons <|
      (Tells.listing _ _ _).cons <| tells_sourceFile.cons <| tells_attributeLines h

theorem tells_fieldSteps (h : AreNamed pool m.attributes) :
    Tells (fieldSteps pool m) (fieldLines pool m) :=
  (Tells.line _).cons <| (Tells.labelled _ _).cons <| (Tells.line _).cons <|
    (Tells.labelled _ _).cons <| tells_attributeLines h

theorem tells_methodSteps (h : AreNamed pool m.attributes) :
    Tells (methodSteps pool m) (methodLines pool m) := by
  rw [methodLines, List.append_assoc]
  exact (Tells.line _).cons <| (Tells.labelled _ _).cons <| (Tells.line _).cons <|
    (Tells.labelled _ _).cons <| (Tells.texts _).cons <| tells_attributeLines h

/-! ## The entry point

Behind the methods all their names and descriptors have been printed, so they are there.  The line
that names the entry point shows two texts that are known by then, and so needs nothing. -/

theorem isEntry_of_ok {name descriptor : String} (hname : m.nameText pool = .ok name)
    (hdescriptor : m.descriptorText pool = .ok descriptor) :
    m.isEntry pool = .ok (isEntryPoint pool m) := by
  rw [Member.isEntry, isEntryPoint, hname, hdescriptor]
  by_cases h : name = Member.entryName
  · simp [shown, h, bind, Except.bind, pure, Except.pure]
  · simp [shown, h, bind, Except.bind, pure, Except.pure]

/-- What has the name and the descriptor of an entry point has them resolved. -/
theorem ok_of_isEntryPoint (h : isEntryPoint pool m = true) :
    m.nameText pool = .ok Member.entryName ∧
      m.descriptorText pool = .ok Member.entryDescriptor := by
  obtain ⟨hname, hdescriptor⟩ : shown (m.nameText pool) = Member.entryName ∧
    shown (m.descriptorText pool) = Member.entryDescriptor := by simpa [isEntryPoint] using h
  exact ⟨eq_ok_of_shown hname (by decide), eq_ok_of_shown hdescriptor (by decide)⟩

/-- **The search for the entry point does not fail among methods that are resolved,** and finds the
first one that can be it. -/
theorem findEntry_of_resolved {methods : List Member}
    (h : firstFault? (methods.flatMap (memberLookUps pool)) = none) (start : Nat) :
    ∃ found, Member.findEntry pool start methods = .ok found ∧
      found.map Prod.snd = methods.find? (isEntryPoint pool) := by
  induction methods generalizing start with
  | nil => exact ⟨none, rfl, rfl⟩
  | cons m methods ih =>
    rw [List.flatMap_cons, firstFault?_append_eq_none_iff, firstFault?_eq_none_iff] at h
    obtain ⟨hm, hmethods⟩ := h
    obtain ⟨name, hname⟩ := hm (m.nameText pool) (.head _)
    obtain ⟨descriptor, hdescriptor⟩ := hm (m.descriptorText pool) (.tail _ (.head _))
    rw [Member.findEntry, isEntry_of_ok hname hdescriptor, List.find?_cons]
    cases isEntryPoint pool m with
    | true => exact ⟨some (start, m), rfl, rfl⟩
    | false => exact ih hmethods (start + 1)

theorem tells_entrySteps
    (h : firstFault? (c.methods.flatMap (memberLookUps c.pool)) = none) :
    Tells (entrySteps c) (entryLines c) := by
  obtain ⟨found, hfound, hfirst⟩ := findEntry_of_resolved h 0
  have hentry : c.entryPoint = .ok found := hfound
  rw [entrySteps, entryLines, hentry]
  rcases found with _ | ⟨i, m⟩
  · have hnone : ¬ c.methods.any (isEntryPoint c.pool) = true := by
      simpa using List.find?_eq_none.1 hfirst.symm
    rw [if_neg hnone]
    exact .nil
  · have hm := List.find?_some hfirst.symm
    have hany : c.methods.any (isEntryPoint c.pool) = true :=
      List.any_eq_true.2 ⟨m, List.mem_of_find?_eq_some hfirst.symm, hm⟩
    obtain ⟨hname, hdescriptor⟩ := ok_of_isEntryPoint hm
    rw [if_pos hany]
    simp only [hname, hdescriptor]
    rfl

/-! ## The outcome

The exit code, the output and the error output are found from what is told: nothing has failed, or
there is a first failure and the lines in front of it. -/

/-- Whether the names of all attributes of a class file, and of its members, can be resolved. -/
structure AllNamed (c : ClassFile) : Prop where
  ofClass : AreNamed c.pool c.attributes
  ofFields : ∀ m ∈ c.fields, AreNamed c.pool m.attributes
  ofMethods : ∀ m ∈ c.methods, AreNamed c.pool m.attributes

theorem areNamed_of_storable (h : Attribute.Storable pool attributes) :
    AreNamed pool attributes := by
  intro a ha
  obtain ⟨⟨text, htext, -⟩, -⟩ := (Attribute.everywhereIn_iff.1 h.2 a ha).self
  exact ⟨text, htext⟩

/-- The names of attributes have been resolved when a file is decoded. -/
theorem allNamed_of_ofBytes {bytes : List UInt8} (h : ClassFile.ofBytes bytes = .ok c) :
    AllNamed c := by
  obtain ⟨hwell, -⟩ := ClassFile.accepts_iff.1 ⟨h, rfl⟩
  exact {
    ofClass := areNamed_of_storable hwell.attributes
    ofFields := fun m hm => areNamed_of_storable (hwell.fields.2 m hm)
    ofMethods := fun m hm => areNamed_of_storable (hwell.methods.2 m hm) }

/-- **The steps of the report print what is told of its lines.** -/
theorem tells_steps (h : AllNamed c) : Tells (steps c) (lines c) := by
  have hclass : Tells (classSteps c) (classLines c) := tells_classSteps h.ofClass
  have hfields : Tells (c.fields.flatMap (fieldSteps c.pool))
      (c.fields.flatMap (fieldLines c.pool)) :=
    .flatMap fun m hm => tells_fieldSteps (h.ofFields m hm)
  have hmethods : Tells (c.methods.flatMap (methodSteps c.pool))
      (c.methods.flatMap (methodLines c.pool)) :=
    .flatMap fun m hm => tells_methodSteps (h.ofMethods m hm)
  refine ((hclass.append fun _ => (Tells.line _).cons hfields).append fun _ =>
    (Tells.line _).cons <| (Tells.line _).cons hmethods).append fun hfault => ?_
  -- By then every method has been printed, so its name and its descriptor are resolved.
  rw [needsOf_append, firstFault?_append_eq_none_iff] at hfault
  have hresolved := hfault.2
  rw [List.singleton_append, List.singleton_append, needsOf_cons, needsOf_cons,
    needsOf_methods] at hresolved
  exact tells_entrySteps hresolved

/-- Without a filter for them, no records are shown. -/
theorem log_silent (path : String) (bytes : List UInt8) (log : Array LogRecord) :
    refusalLines .silent ++ openingLines .silent path bytes ++ decodingLines .silent log = [] := by
  have hnone : (log.toList.filter fun r => LogFilter.silent.admits decoderPlace r.level) = [] := by
    simp [LogFilter.admits_silent]
  rw [decodingLines, hnone]
  rfl

theorem withLineEnds_errorLine :
    withLineEnds [errorLine e.document.compact] = "Error: " ++ e.document.compact ++ "\n" := by
  rw [withLineEnds, List.foldl_cons, List.foldl_nil, String.empty_append, errorLine]

section Runs

variable {bytes : List UInt8}

/-- A run on a file that is no class file. -/
theorem runOn_of_error (path : String) (h : ClassFile.ofBytes bytes = .error e) :
    runOn .silent path bytes = ⟨1, "", "Error: " ++ e.document.compact ++ "\n"⟩ := by
  have hrun : ClassFile.run bytes = (.error e, (ClassFile.run bytes).2) := Prod.ext h rfl
  rw [runOn, hrun, ← withLineEnds_errorLine]
  simp only [log_silent]
  rfl

/-- A run on a file whose report does not fail. -/
theorem runOn_of_none (path : String) (h : ClassFile.ofBytes bytes = .ok c)
    (hfault : firstFault? (lookUps c) = none) :
    runOn .silent path bytes = ⟨0, withLineEnds ((lines c).map Line.text), ""⟩ := by
  have hrun : ClassFile.run bytes = (.ok c, (ClassFile.run bytes).2) := Prod.ext h rfl
  have hprinted : printed (steps c) = ((lines c).map Line.text, none) :=
    (tells_steps (allNamed_of_ofBytes h)).trans (told_of_none (by rwa [needsOf_lines]))
  rw [runOn, hrun]
  simp only [log_silent, hprinted]
  rfl

/-- A run on a file whose report fails. -/
theorem runOn_of_some (path : String) (h : ClassFile.ofBytes bytes = .ok c)
    (hfault : firstFault? (lookUps c) = some e) :
    ∃ front l back, lines c = front ++ l :: back ∧ firstFault? (needsOf front) = none ∧
      firstFault? l.needs = some e ∧ runOn .silent path bytes =
        ⟨1, withLineEnds (front.map Line.text), "Error: " ++ e.document.compact ++ "\n"⟩ := by
  have hrun : ClassFile.run bytes = (.ok c, (ClassFile.run bytes).2) := Prod.ext h rfl
  rw [← needsOf_lines] at hfault
  obtain ⟨front, l, back, hlines, hfront, hl, htold⟩ := told_of_some hfault
  have hprinted : printed (steps c) = (front.map Line.text, some e) :=
    (tells_steps (allNamed_of_ofBytes h)).trans htold
  refine ⟨front, l, back, hlines, hfront, hl, ?_⟩
  rw [runOn, hrun, ← withLineEnds_errorLine]
  simp only [log_silent, hprinted]
  rfl

end Runs

/-- What holds of the outcome of a run on a file in which there is the class file `c`. -/
structure IsOutcomeOn (c : ClassFile) (outcome : Outcome) : Prop where
  /-- The run succeeds exactly if all look-ups do. -/
  succeeds_iff : outcome.exitCode = 0 ↔ ∀ r ∈ lookUps c, ∃ text, r = .ok text
  /-- Then it prints the whole report, and nothing else. -/
  complete : firstFault? (lookUps c) = none →
    outcome = ⟨0, withLineEnds ((lines c).map Line.text), ""⟩
  /-- The look-ups are those that the lines need, in the order of the lines. -/
  needsOf_lines : needsOf (lines c) = lookUps c
  /-- The first look-up that fails ends the run: what is printed are the lines in front of the one
  that needs it, and the error that is told is that of the look-up. -/
  cut : ∀ e, firstFault? (lookUps c) = some e →
    ∃ front l back, lines c = front ++ l :: back ∧ firstFault? (needsOf front) = none ∧
      firstFault? l.needs = some e ∧
      outcome = ⟨1, withLineEnds (front.map Line.text), "Error: " ++ e.document.compact ++ "\n"⟩
  /-- The names of attributes can always be resolved. -/
  allNamed : AllNamed c
  /-- Behind the methods the search for the entry point cannot fail, and what it finds has its name
  and its descriptor resolved. -/
  entryPoint : firstFault? (c.methods.flatMap (memberLookUps c.pool)) = none →
    ∃ found, c.entryPoint = .ok found ∧ ∀ i m, found = some (i, m) →
      m.nameText c.pool = .ok Member.entryName ∧
        m.descriptorText c.pool = .ok Member.entryDescriptor

theorem isOutcomeOn_runOn {bytes : List UInt8} (path : String)
    (h : ClassFile.ofBytes bytes = .ok c) : IsOutcomeOn c (runOn .silent path bytes) where
  succeeds_iff := by
    rw [← firstFault?_eq_none_iff]
    cases hfault : firstFault? (lookUps c) with
    | none => simp [runOn_of_none path h hfault]
    | some e =>
      obtain ⟨front, l, back, -, -, -, hrun⟩ := runOn_of_some path h hfault
      simp [hrun]
  complete := runOn_of_none path h
  needsOf_lines := needsOf_lines
  cut e := runOn_of_some path h
  allNamed := allNamed_of_ofBytes h
  entryPoint hresolved := by
    obtain ⟨found, hfound, hfirst⟩ := findEntry_of_resolved hresolved 0
    refine ⟨found, hfound, fun i m hm => ok_of_isEntryPoint ?_⟩
    rw [hm] at hfirst
    exact List.find?_some hfirst.symm

/-- **The outcome of a run.**  On a file that is not empty, and if no log records are asked for, a
run either finds no class file, prints nothing and tells the error; or it finds one, and prints the
lines of the report up to the first one that needs a look-up that fails. -/
theorem run_file {bytes : List UInt8} (hbytes : bytes ≠ []) (path : String) :
    (∀ e, ClassFile.ofBytes bytes = .error e →
      run .silent (.file path bytes) = ⟨1, "", "Error: " ++ e.document.compact ++ "\n"⟩) ∧
    ∀ c, ClassFile.ofBytes bytes = .ok c → IsOutcomeOn c (run .silent (.file path bytes)) := by
  have hrun : run .silent (.file path bytes) = runOn .silent path bytes := by
    cases bytes with
    | nil => exact absurd rfl hbytes
    | cons b bytes => rfl
  rw [hrun]
  exact ⟨fun e => runOn_of_error path, fun c => isOutcomeOn_runOn path⟩

/-- A class file with a field whose descriptor is a class. -/
def oddField : ClassFile where
  minorVersion := 0
  majorVersion := 0x34
  pool := ⟨#[some (.utf8 "A"), some (.classRef 1)]⟩
  accessFlags := 0x21
  thisClass := 2
  superClass := 0
  interfaces := [2]
  fields := [⟨9, 1, 2, []⟩]
  methods := []
  attributes := []

theorem ofBytes_oddField : ClassFile.ofBytes oddField.encode = .ok oddField := by
  have hstorable : oddField.Storable := {
    pool := ⟨by decide, .narrow rfl (.narrow rfl .nil)⟩
    interfaces := by decide
    fields := ⟨by decide, List.forall_mem_singleton.2 ⟨by decide, trivial⟩⟩
    methods := ⟨by decide, List.forall_mem_nil _⟩
    attributes := ⟨by decide, trivial⟩
    constants := by
      intro k hk
      obtain rfl | rfl : k = .utf8 "A" ∨ k = .classRef 1 := by simpa [oddField] using hk
      · show (ModifiedUtf8.modified "A").length < BigEndian.limit 2
        decide +kernel
      · trivial }
  exact (ClassFile.accepts_iff.2 ⟨hstorable.toIsWellFormed, oddField.encode, [],
    (List.append_nil _).symm, rfl, ClassFile.isStoredAs_encode hstorable.constants⟩).1

theorem run_file_oddField :
    oddField.encode ≠ [] ∧ ClassFile.ofBytes oddField.encode = .ok oddField ∧
    IsOutcomeOn oddField (run .silent (.file "A.class" oddField.encode)) ∧
    firstFault? (lookUps oddField) = some (.wrongKind 2 (.kind .utf8) (.classRef 1)) ∧
    (run .silent (.file "A.class" oddField.encode)).exitCode = 1 := by
  have hbytes : oddField.encode ≠ [] := List.ne_nil_of_length_pos (by decide +kernel)
  have hfault : firstFault? (lookUps oddField) =
      some (.wrongKind 2 (.kind .utf8) (.classRef 1)) := rfl
  have h := (run_file hbytes "A.class").2 _ ofBytes_oddField
  obtain ⟨front, l, back, -, -, -, hrun⟩ := h.cut _ hfault
  exact ⟨hbytes, ofBytes_oddField, h, hfault, by rw [hrun]⟩

end Report
end ClassFormat
