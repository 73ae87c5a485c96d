import ClassFormat.Proofs.AttributeLog
import ClassFormat.Proofs.Truncation

/-!
# The log of a class file

The records that are made while a class file is read are told from the outside in, and the lines of
its parts stand in the order of the parts.  `log_tells_all` is the log of a class file that has been
read: it can be written down from the class file alone, but for the count in front of its pool,
which may be zero or one for a pool without slots, and for the number of bytes behind it.

`log_breaks_off` is the log of one that has not.  What has been read up to the place where reading
stops is divided into the parts that have come to their end, and one that has not, which may be
inside of others; and the lines are those of the parts that have come to their end.  More bytes at
the end of the buffer only add to the log, and unless the buffer was too short they do not even do
that, but for the record of what is left behind the class file.

## What is here

* `ClassFile.partLines` — the lines of a class file, from its parts and the count of its pool, and
  `trailingLines`, the line of what is left behind it.
* `Member.BreaksOff`, `Member.ListBreaksOff`, `BodyBreaksOff` and `ClassFile.BreaksOff` — the places
  where reading can break off, from the inside out.  Each constructor has in it the parts in front
  of the place, whose lines are made, and then what has broken off.
* `ClassFile.leaves_decodeWithin` — the account of the reader in any room.
* `ClassFile.exists_made` — the same for a buffer: the bytes in front of the place where reading
  stops and the records made by then are those of the account.
* `log_tells_all` and `log_breaks_off` — the results.
-/

set_option autoImplicit false

namespace ClassFormat

open Decoder

/-! ## Members

The number of members is told before any of them is read, so it is the number that is declared; a
list that breaks off has told it as well, unless it breaks off in front of it. -/

namespace Member

variable {pool : ConstantPool}

/-- What is told of some members: what is told of their attributes. -/
def linesOfAll (pool : ConstantPool) (members : List Member) : List LogLine :=
  members.flatMap fun m => Attribute.linesOfAll pool m.attributes

/-- Where a member breaks off: in front of its attributes, or in them. -/
inductive BreaksOff (pool : ConstantPool) : Account FormatError
  | head {m : Shortage} {own : List UInt8} (hlength : own.length < 8) :
      BreaksOff pool (.truncated m) own []
  | attributes {accessFlags name descriptor count : UInt16} {e : FormatError} {own : List UInt8}
      {lines : List LogLine} (hown : Attribute.ListBreaksOff pool count e own lines) :
      BreaksOff pool e (BigEndian.bytes 2 accessFlags.toNat ++ (BigEndian.bytes 2 name.toNat ++
        (BigEndian.bytes 2 descriptor.toNat ++ (BigEndian.bytes 2 count.toNat ++ own)))) lines

/-- Where a list of members breaks off, when `tell` is the line of their number: in front of that
number, or in one of them. -/
inductive ListBreaksOff (pool : ConstantPool) (tell : Nat → LogLine) : Account FormatError
  | count (m : Shortage) : ListBreaksOff pool tell (.truncated m) [] []
  | member {count : UInt16} {before : List Member} {e : FormatError} {own : List UInt8}
      {lines : List LogLine} (hcount : before.length < count.toNat)
      (hbefore : ∀ m ∈ before, Attribute.Storable pool m.attributes)
      (hown : BreaksOff pool e own lines) :
      ListBreaksOff pool tell e (BigEndian.bytes 2 count.toNat ++ (before.flatMap encode ++ own))
        (tell count.toNat :: (linesOfAll pool before ++ lines))

theorem leaves_decode (pool : ConstantPool) (room : Nat) : Leaves room (decode pool room)
    (fun m run lines =>
      Format.exactly (fun m => Attribute.Storable pool m.attributes) encode m run ∧
        lines = Attribute.linesOfAll pool m.attributes) (BreaksOff pool) := by
  refine .reads ?_ (reads_decode pool room)
  refine .u16_bind (fun m => .head (by decide)) fun accessFlags => ?_
  refine .u16_bind (fun m => .head (by simp [BigEndian.length_bytes])) fun name => ?_
  refine .u16_bind (fun m => .head (by simp [BigEndian.length_bytes])) fun descriptor => ?_
  refine .u16_bind (fun m => .head (by simp [BigEndian.length_bytes])) fun count => ?_
  refine .bind (((Attribute.leaves_decodeList pool room count).mono (by omega)).weaken_error
    fun e own lines => .attributes) fun attributes run lines hlines => .pure ?_
  rw [List.append_nil]
  exact hlines

theorem leaves_decodeCounted (pool : ConstantPool) (room : Nat) {message : UInt16 → LogRecord}
    {tell : Nat → LogLine} (htell : ∀ count, (message count).line = tell count.toNat)
    (hmessage : ∀ count, (message count).isTrailing = false) :
    Leaves room (decodeCounted pool room message)
      (fun ms run lines => Format.exactly (Storable pool) encodeList ms run ∧
        lines = tell ms.length :: linesOfAll pool ms) (ListBreaksOff pool tell) := by
  refine .reads ?_ (reads_decodeCounted pool room message)
  refine .u16_bind .count fun count => .record_bind (hmessage count) ?_
  rw [htell]
  refine (((leaves_decode pool room).mono (Nat.sub_le _ _)).times ?_).weaken ?_ fun _ _ _ h => h
  · intro before front e own lines hcount hfront hown
    obtain ⟨rfl, hbefore⟩ := Format.repeated_exactly.1 hfront
    exact .member hcount hbefore hown
  · rintro ms run _ ⟨⟨hlength, -⟩, rfl⟩
    rw [hlength]
    rfl

end Member

/-! ## Class files

`partLines` is defined by the class file and not by the run, so that there is something to compare
the log with.  Only the count of the pool is handed in: it is the word behind the version, which the
theorems find in the buffer. -/

namespace ClassFile

/-- The line of the version of the format. -/
def versionLine (minorVersion majorVersion : UInt16) : LogLine :=
  (.debug, "class file version " ++ toString majorVersion.toNat ++ "." ++
    toString minorVersion.toNat)

/-- The line of the number of fields. -/
def fieldsLine (count : Nat) : LogLine := (.debug, "parsing " ++ toString count ++ " fields")

/-- The line of the number of methods. -/
def methodsLine (count : Nat) : LogLine := (.debug, "parsing " ++ toString count ++ " methods")

/-- What is told of the fields and the methods, and of the attributes of the class. -/
def bodyLines (c : ClassFile) : List LogLine :=
  fieldsLine c.fields.length :: (Member.linesOfAll c.pool c.fields ++
    methodsLine c.methods.length :: (Member.linesOfAll c.pool c.methods ++
      Attribute.linesOfAll c.pool c.attributes))

/-- What is told of a class file whose pool has been stored with a count. -/
def partLines (c : ClassFile) (count : UInt16) : List LogLine :=
  versionLine c.minorVersion c.majorVersion :: (c.pool.lines count ++ c.bodyLines)

/-- What is told of the bytes behind a class file: their number, if there are any. -/
def trailingLines (left : Nat) : List LogLine :=
  if 0 < left then [(.debug, toString left ++ " trailing bytes after class file")] else []

/-- Where a class file breaks off behind its pool, and what has been told from there on.  The fields
that have come to their end are told of, and so are the methods. -/
inductive BodyBreaksOff (pool : ConstantPool) : Account FormatError
  | headings {m : Shortage} {own : List UInt8} (hlength : own.length ≤ 8) :
      BodyBreaksOff pool (.truncated m) own []
  | field {headings : Headings} {e : FormatError} {own : List UInt8} {lines : List LogLine}
      (hown : Member.ListBreaksOff pool fieldsLine e own lines) :
      BodyBreaksOff pool e (headings.encode ++ own) lines
  | method {headings : Headings} {fields : List Member} {e : FormatError} {own : List UInt8}
      {lines : List LogLine} (hfields : Member.Storable pool fields)
      (hown : Member.ListBreaksOff pool methodsLine e own lines) :
      BodyBreaksOff pool e (headings.encode ++ (Member.encodeList fields ++ own))
        (fieldsLine fields.length :: (Member.linesOfAll pool fields ++ lines))
  | attributeCount {headings : Headings} {fields methods : List Member} {m : Shortage}
      (hfields : Member.Storable pool fields) (hmethods : Member.Storable pool methods) :
      BodyBreaksOff pool (.truncated m)
        (headings.encode ++ (Member.encodeList fields ++ Member.encodeList methods))
        (fieldsLine fields.length :: (Member.linesOfAll pool fields ++
          methodsLine methods.length :: Member.linesOfAll pool methods))
  | classAttribute {headings : Headings} {fields methods : List Member} {count : UInt16}
      {e : FormatError} {own : List UInt8} {lines : List LogLine}
      (hfields : Member.Storable pool fields) (hmethods : Member.Storable pool methods)
      (hown : Attribute.ListBreaksOff pool count e own lines) :
      BodyBreaksOff pool e (headings.encode ++ (Member.encodeList fields ++
        (Member.encodeList methods ++ (BigEndian.bytes 2 count.toNat ++ own))))
        (fieldsLine fields.length :: (Member.linesOfAll pool fields ++
          methodsLine methods.length :: (Member.linesOfAll pool methods ++ lines)))

theorem leaves_decodeBody (minorVersion majorVersion : UInt16) (pool : ConstantPool) (room : Nat) :
    Leaves room (decodeBody minorVersion majorVersion pool room)
      (fun c run lines => Format.exactly (fun c => (c.minorVersion = minorVersion ∧
        c.majorVersion = majorVersion ∧ c.pool = pool) ∧ c.BodyFits) encodeBody c run ∧
          lines = c.bodyLines) (BodyBreaksOff pool) := by
  refine .reads ?_ (reads_decodeBody minorVersion majorVersion pool room)
  refine .u16_bind (fun m => .headings (by decide)) fun accessFlags => ?_
  refine .u16_bind (fun m => .headings (by simp [BigEndian.length_bytes])) fun thisClass => ?_
  refine .u16_bind (fun m => .headings (by simp [BigEndian.length_bytes])) fun superClass => ?_
  refine .u16_bind (fun m => .headings (by simp [BigEndian.length_bytes])) fun interfaceCount => ?_
  refine .read_bind (.u16s _) (fun m => .headings (by simp [BigEndian.length_bytes]))
    fun interfaces hinterfaces => ?_
  let headings : Headings := ⟨accessFlags, thisClass, superClass, interfaces,
    hinterfaces.1 ▸ interfaceCount.toNat_lt⟩
  refine .mono (n := room) (.weaken_error (D := fun e back =>
    BodyBreaksOff pool e (headings.encode ++ back)) ?_ ?_) (by omega)
  · refine .bind ((Member.leaves_decodeCounted pool room (fun _ => rfl) fun _ => rfl).weaken_error
      fun e own lines => .field) ?_
    rintro fields _ _ ⟨⟨rfl, hfields⟩, rfl⟩
    have hless := Nat.sub_le room (Member.encodeList fields).length
    refine .bind (((Member.leaves_decodeCounted pool room (fun _ => rfl) fun _ => rfl).mono
      hless).weaken_error fun e own lines => .method hfields) ?_
    rintro methods _ _ ⟨⟨rfl, hmethods⟩, rfl⟩
    refine .u16_bind (fun m => ?_) fun count => ?_
    · rw [List.append_nil, List.append_nil]
      exact .attributeCount hfields hmethods
    · refine .bind (((Attribute.leaves_decodeList pool room count).mono (by omega)).weaken_error
        fun e own lines => .classAttribute hfields hmethods) fun attributes _ lines hlines => ?_
      refine .pure ?_
      rw [hlines, List.append_nil]
      rfl
  · intro e run lines h
    simpa only [headings, Headings.encode, hinterfaces.1, List.append_assoc] using h

/-- Where a class file breaks off, and what has been told by then. -/
inductive BreaksOff : Account FormatError
  | front {m : Shortage} {own : List UInt8} (hlength : own.length < 8) :
      BreaksOff (.truncated m) own []
  | magic {found : UInt32} (hfound : found ≠ magicNumber) :
      BreaksOff (.badMagic found) (BigEndian.bytes 4 found.toNat) []
  | pool {minorVersion majorVersion : UInt16} {e : FormatError} {own : List UInt8}
      {lines : List LogLine} (hown : ConstantPool.BreaksOff e own lines) :
      BreaksOff e (encodeVersion minorVersion majorVersion ++ own)
        (versionLine minorVersion majorVersion :: lines)
  | body {minorVersion majorVersion count : UInt16} {pool : ConstantPool} {e : FormatError}
      {stored own : List UInt8} {lines : List LogLine} (hpool : pool.IsWellFormed)
      (hstored : pool.IsStoredAs stored) (hcount : stored.take 2 = BigEndian.bytes 2 count.toNat)
      (hown : BodyBreaksOff pool e own lines) :
      BreaksOff e (encodeVersion minorVersion majorVersion ++ (stored ++ own))
        (versionLine minorVersion majorVersion :: (pool.lines count ++ lines))

/-- What is in front of the pool takes eight bytes. -/
theorem drop_encodeVersion (minorVersion majorVersion : UInt16) (back : List UInt8) :
    (encodeVersion minorVersion majorVersion ++ back).drop 8 = back :=
  List.drop_left' (by simp [encodeVersion, BigEndian.length_bytes])

/-- A count in front of some bytes is in front of more of them. -/
theorem take_two_append {count : UInt16} {front : List UInt8}
    (h : front.take 2 = BigEndian.bytes 2 count.toNat) (back : List UInt8) :
    (front ++ back).take 2 = BigEndian.bytes 2 count.toNat := by
  have hlength := congrArg List.length h
  rw [List.length_take, BigEndian.length_bytes] at hlength
  rw [List.take_append_of_le_length (by omega), h]

/-- **What is told of a class file follows its parts,** up to the place where it breaks off. -/
theorem leaves_decodeWithin (room : Nat) : Leaves room (decodeWithin room)
    (fun c run lines => (c.IsWellFormed ∧ c.IsStoredAs run) ∧ ∃ count : UInt16,
      (run.drop 8).take 2 = BigEndian.bytes 2 count.toNat ∧ lines = c.partLines count)
    BreaksOff := by
  refine .reads ?_ (reads_decodeWithin room)
  have hmagic : Leaves room decodeMagic
      (fun _ run lines => run = BigEndian.bytes 4 magicNumber.toNat ∧ lines = []) BreaksOff := by
    refine .u32_bind (fun m => .front (by decide)) fun found => ?_
    by_cases hfound : found = magicNumber
    · rw [if_pos hfound, hfound]
      exact .pure ⟨List.append_nil _, rfl⟩
    · rw [if_neg hfound]
      refine .throw ?_
      rw [List.append_nil]
      exact .magic hfound
  refine hmagic.bind ?_
  rintro _ _ _ ⟨rfl, rfl⟩
  refine .u16_bind (fun m => .front (by simp [BigEndian.length_bytes])) fun minorVersion => ?_
  refine .u16_bind (fun m => .front (by simp [BigEndian.length_bytes])) fun majorVersion => ?_
  refine .record_bind rfl ?_
  refine .mono (n := room) (.weaken (S := fun c back lines => ∃ count : UInt16,
      back.take 2 = BigEndian.bytes 2 count.toNat ∧
        versionLine minorVersion majorVersion :: lines = c.partLines count)
    (D := fun e back lines => BreaksOff e (encodeVersion minorVersion majorVersion ++ back)
      (versionLine minorVersion majorVersion :: lines)) ?_ ?_ ?_) (by omega)
  · refine .bind (ConstantPool.leaves_decode.weaken_error fun e own lines => .pool) ?_
    rintro pool stored _ ⟨⟨hpool, hstored⟩, count, hcount, rfl⟩
    refine ((leaves_decodeBody _ _ pool room).mono (by omega)).weaken ?_
      fun e own lines => .body hpool hstored hcount
    rintro c own _ ⟨⟨rfl, ⟨rfl, rfl, rfl⟩, -⟩, rfl⟩
    exact ⟨count, take_two_append hcount _, rfl⟩
  · rintro c back lines ⟨count, hcount, hlines⟩
    refine ⟨count, ?_, hlines⟩
    have hdrop := drop_encodeVersion minorVersion majorVersion back
    simp only [encodeVersion, List.append_assoc] at hdrop
    rw [hdrop, hcount]
  · intro e back lines h
    show BreaksOff e _ (versionLine minorVersion majorVersion :: lines)
    simpa only [encodeVersion, List.append_assoc] using h

/-! ## The log for a buffer

The reader of a whole class file is no sequential decoder, because it looks at what is left.  It
does so when all else has been read, and its record is the last one; `withoutTrailing` takes it
away, and what remains is the log of a sequential run. -/

/-- Some records without the last one, if that counts what is left behind a class file. -/
def withoutTrailing (records : List LogRecord) : List LogRecord :=
  if records.getLast?.any LogRecord.isTrailing then records.dropLast else records

theorem withoutTrailing_isPrefixOf (records : List LogRecord) :
    withoutTrailing records <+: records := by
  rw [withoutTrailing]
  split
  · exact List.dropLast_prefix records
  · exact List.prefix_rfl

theorem withoutTrailing_append_trailing (records : List LogRecord) (left : Nat) :
    withoutTrailing (records ++ [.trailing left]) = records := by
  have hlast : (records ++ [LogRecord.trailing left]).getLast?.any LogRecord.isTrailing = true := by
    rw [List.getLast?_concat]
    rfl
  rw [withoutTrailing, if_pos hlast, List.dropLast_concat]

theorem withoutTrailing_of_forall {records : List LogRecord}
    (h : ∀ r ∈ records, r.isTrailing = false) : withoutTrailing records = records := by
  refine if_neg fun hlast => ?_
  cases hr : records.getLast? with
  | none =>
    rw [hr] at hlast
    cases hlast
  | some r =>
    rw [hr, Option.any_some, h r (List.mem_of_getLast? hr)] at hlast
    cases hlast

section Buffer

variable {buffer : List UInt8} {room : Nat} {s : Progress}

theorem log_of_error (hroom : buffer.length < room) {e : FormatError}
    (h : (decodeWithin room).run (.start buffer) = (.error e, s)) : log buffer = s.log.toList := by
  rw [log, run_of_error hroom h]

theorem log_of_ok (hroom : buffer.length < room) {c : ClassFile}
    (h : (decodeWithin room).run (.start buffer) = (.ok c, s)) :
    log buffer = s.log.toList ++
      if 0 < s.cursor.remaining then [.trailing s.cursor.remaining] else [] := by
  rw [log, run_of_ok hroom h, run_recordTrailing]
  split
  · exact Array.toList_push ..
  · exact (List.append_nil _).symm

/-- The bytes up to the place where reading stops are those that have been passed. -/
theorem take_stop_of_passes {place : Cursor} {front : List UInt8}
    (h : (Cursor.ofBytes buffer).Passes front place) (hstop : stop buffer = place.position) :
    buffer.take (stop buffer) = front ∧ buffer.length - stop buffer = place.remaining := by
  have hlength : place.position = front.length := h.2.trans (Nat.zero_add _)
  have hremaining : buffer.length = front.length + place.remaining := h.remaining_eq
  rw [hstop]
  exact ⟨h.take_position, by omega⟩

/-- What is told by the time when reading stops, but for what is left. -/
theorem exists_made (hroom : buffer.length < room) : ∃ s : Progress,
    (decodeWithin room).run (.start buffer) = (ofBytes buffer, s) ∧
    s.cursor.remaining = buffer.length - stop buffer ∧
    (∀ r ∈ s.log.toList, r.isTrailing = false) ∧
    match ofBytes buffer with
    | .ok c => (c.IsWellFormed ∧ c.IsStoredAs (buffer.take (stop buffer))) ∧ ∃ count : UInt16,
        ((buffer.take (stop buffer)).drop 8).take 2 = BigEndian.bytes 2 count.toNat ∧
          s.log.toList.map LogRecord.line = c.partLines count
    | .error e => BreaksOff e (buffer.take (stop buffer)) (s.log.toList.map LogRecord.line) := by
  obtain ⟨houtcome, hcursor⟩ := run_eq_decodeWithin hroom
  obtain ⟨front, lines, ⟨hpasses, made, hmade, hlines, hnone⟩, hleft⟩ :=
    leaves_decodeWithin room (.start buffer) hroom
  obtain ⟨hfront, hremaining⟩ := take_stop_of_passes hpasses (congrArg Cursor.position hcursor)
  have hlog : ((decodeWithin room).run (.start buffer)).2.log.toList = made := hmade
  have hofBytes : ((decodeWithin room).run (.start buffer)).1 = ofBytes buffer := houtcome.symm
  refine ⟨((decodeWithin room).run (.start buffer)).2, Prod.ext hofBytes rfl, hremaining.symm,
    hlog ▸ hnone, ?_⟩
  rw [hofBytes] at hleft
  rw [hfront, hlog, hlines]
  cases hr : ofBytes buffer <;> rw [hr] at hleft <;> exact hleft

/-- Without the record of what is left, the log is that of reading the parts. -/
theorem withoutTrailing_log (hroom : buffer.length < room) :
    withoutTrailing (log buffer) =
      ((decodeWithin room).run (.start buffer)).2.log.toList := by
  obtain ⟨s, hrun, -, hnone, -⟩ := exists_made hroom
  rw [hrun]
  cases hofBytes : ofBytes buffer with
  | error e =>
    rw [hofBytes] at hrun
    rw [log_of_error hroom hrun, withoutTrailing_of_forall hnone]
  | ok c =>
    rw [hofBytes] at hrun
    rw [log_of_ok hroom hrun]
    split
    · exact withoutTrailing_append_trailing _ _
    · rw [List.append_nil, withoutTrailing_of_forall hnone]

/-- What is told when reading breaks off. -/
theorem breaksOff_of_ofBytes {e : FormatError} (h : ofBytes buffer = .error e) :
    BreaksOff e (buffer.take (stop buffer)) ((log buffer).map LogRecord.line) := by
  have hroom := Nat.lt_succ_self buffer.length
  obtain ⟨s, hrun, -, -, hleft⟩ := exists_made hroom
  rw [h] at hrun hleft
  rw [log_of_error hroom hrun]
  exact hleft

end Buffer

/-- **The log of what is read is a faithful account of it.**  Its lines are those of the parts of
the class file, and behind them that of the bytes that are left.  The count is the word in front of
the pool, and every name of an attribute is a text of the pool, as the class file is well formed. -/
theorem log_tells_all {buffer : List UInt8} {c : ClassFile} (h : ofBytes buffer = .ok c) :
    ∃ count : UInt16, (buffer.drop 8).take 2 = BigEndian.bytes 2 count.toNat ∧ c.IsWellFormed ∧
      (log buffer).map LogRecord.line =
        c.partLines count ++ trailingLines (buffer.length - stop buffer) := by
  have hroom := Nat.lt_succ_self buffer.length
  obtain ⟨s, hrun, hremaining, -, hleft⟩ := exists_made hroom
  rw [h] at hrun hleft
  obtain ⟨⟨hwell, -⟩, count, hcount, hlines⟩ := hleft
  refine ⟨count, ?_, hwell, ?_⟩
  · have hlength := congrArg List.length hcount
    rw [List.length_take, List.length_drop, BigEndian.length_bytes] at hlength
    rw [← List.take_append_drop (stop buffer) buffer, List.drop_append_of_le_length (by omega)]
    exact take_two_append hcount _
  · rw [log_of_ok hroom hrun, List.map_append, hlines, hremaining, trailingLines]
    split <;> rfl

theorem log_tells_all_wideClass :
    ofBytes (wideClass.encode ++ [0xFF]) = .ok wideClass ∧
    ∃ count : UInt16, ((wideClass.encode ++ [0xFF]).drop 8).take 2 = BigEndian.bytes 2 count.toNat ∧
      wideClass.IsWellFormed ∧
      (log (wideClass.encode ++ [0xFF])).map LogRecord.line = wideClass.partLines count ++
        trailingLines
          ((wideClass.encode ++ [0xFF]).length - stop (wideClass.encode ++ [0xFF])) := by
  have h : ofBytes (wideClass.encode ++ [0xFF]) = .ok wideClass := (accepts_iff.2
    ⟨storable_wideClass.toIsWellFormed, wideClass.encode, [0xFF], rfl, rfl,
      isStoredAs_encode storable_wideClass.constants⟩).1
  exact ⟨h, log_tells_all h⟩

/-- The line of a method body stands behind that of the one inside it. -/
example : (log nestedBuffer).map LogRecord.line =
    [(.debug, "class file version 52.0"), (.debug, "constant pool count 2"),
      (.trace, "#1 = Utf8(\"Code\")"), (.debug, "parsing 0 fields"), (.debug, "parsing 0 methods"),
      (.trace, "attribute Code (12 bytes)"), (.trace, "attribute Code (31 bytes)"),
      (.debug, "1 trailing bytes after class file")] := by decide +kernel

end ClassFile

/-! ## Constants that are to blame

Two errors are about a constant that is being read, and both have its index.  It is the slot behind
those that have been told of, so the log and the error together say where reading has stopped. -/

/-- The index of the constant that an error is about, if it is about one that is being read. -/
def FormatError.constantIndex? : FormatError → Option UInt16
  | unknownTag _ index => some index
  | invalidText index => some index
  | _ => none

theorem Attribute.BreaksOff.constantIndex?_eq_none {pool : ConstantPool} {e : FormatError}
    {own : List UInt8} {lines : List LogLine} (h : Attribute.BreaksOff pool e own lines) :
    e.constantIndex? = none := by
  induction h with
  | header | payload | body | length => rfl
  | name hname =>
    obtain hget | ⟨found, -, -, rfl⟩ := ConstantPool.utf8_eq_error_iff.1 hname
    · rw [(ConstantPool.get_eq_error_iff.1 hget).2]
      rfl
    · rfl
  | inside _ _ _ _ _ ih => exact ih

theorem Member.ListBreaksOff.constantIndex?_eq_none {pool : ConstantPool} {tell : Nat → LogLine}
    {e : FormatError} {own : List UInt8} {lines : List LogLine}
    (h : Member.ListBreaksOff pool tell e own lines) : e.constantIndex? = none := by
  obtain _ | ⟨-, -, _ | ⟨_, -, hown⟩⟩ := h
  · rfl
  · rfl
  · exact hown.constantIndex?_eq_none

namespace ClassFile

theorem BodyBreaksOff.constantIndex?_eq_none {pool : ConstantPool} {e : FormatError}
    {own : List UInt8} {lines : List LogLine} (h : BodyBreaksOff pool e own lines) :
    e.constantIndex? = none := by
  cases h with
  | headings | attributeCount => rfl
  | field hown | method _ hown => exact hown.constantIndex?_eq_none
  | classAttribute _ _ hown =>
    obtain ⟨-, -, hown⟩ := hown
    exact hown.constantIndex?_eq_none

/-- A constant that is to blame is the first one that nothing is told of. -/
theorem BreaksOff.constants {e : FormatError} {run : List UInt8} {lines : List LogLine}
    {index : UInt16} (h : BreaksOff e run lines) (hindex : e.constantIndex? = some index) :
    ∃ (minorVersion majorVersion count : UInt16) (cs : List Constant) (front own : List UInt8),
      run = encodeVersion minorVersion majorVersion ++
        (BigEndian.bytes 2 count.toNat ++ (front ++ own)) ∧
      Format.Repeated Constant.IsStoredAs cs front ∧
      ConstantPool.slotOf cs cs.length = index.toNat ∧
      lines = versionLine minorVersion majorVersion :: ConstantPool.countLine count ::
        (ConstantPool.numbered 0 cs).map ConstantPool.entryLine := by
  cases h with
  | front | magic => cases hindex
  | body _ _ _ hown =>
    rw [hown.constantIndex?_eq_none] at hindex
    cases hindex
  | pool hown =>
    cases hown with
    | count => cases hindex
    | @constant count cs front own _ hcs hslot hown =>
      refine ⟨_, _, count, cs, front, own, rfl, hcs, ?_, rfl⟩
      have htoNat : (UInt16.ofNat (ConstantPool.slotOf cs cs.length)).toNat =
          ConstantPool.slotOf cs cs.length :=
        UInt16.toNat_ofNat_of_lt' (Nat.lt_trans hslot count.toNat_lt)
      obtain ⟨-, ⟨m, rfl⟩ | hfault⟩ := hown
      · cases hindex
      · cases hfault <;> cases hindex <;> exact htoNat.symm

/-! ## Longer buffers

That the log of a longer buffer starts with that of a shorter one comes from the simulation of the
one run by the other, as the outcomes did. -/

/-- The run on a longer buffer adds to the log of the shorter one. -/
theorem log_append (buffer more : List UInt8) :
    withoutTrailing (log buffer) <+: withoutTrailing (log (buffer ++ more)) ∧
      (¬ IsTruncation (ofBytes buffer) →
        withoutTrailing (log (buffer ++ more)) = withoutTrailing (log buffer)) := by
  -- the longer buffer has room for both
  have hroom := Nat.lt_succ_self (buffer ++ more).length
  have hroom' : buffer.length < (buffer ++ more).length + 1 := by rw [List.length_append]; omega
  have hresumes := (sequential_decodeWithin ((buffer ++ more).length + 1)).resumes more
    (.start buffer)
  have hextend : (Progress.start buffer).extend more = .start (buffer ++ more) := rfl
  obtain ⟨s, hshort, -⟩ := exists_made hroom'
  obtain ⟨s', hlong, -⟩ := exists_made hroom
  rw [withoutTrailing_log hroom, withoutTrailing_log hroom', hshort, hlong]
  rw [hextend, hshort, hlong] at hresumes
  generalize ofBytes buffer = r, ofBytes (buffer ++ more) = r' at hresumes ⊢
  cases hresumes with
  | same hr => exact ⟨List.prefix_rfl, fun _ => rfl⟩
  | short hm => exact ⟨List.prefix_rfl, fun _ => rfl⟩
  | beyond hm hposition hlog => exact ⟨hlog, fun hr => absurd ⟨_, rfl⟩ hr⟩

/-- **The log of what is not read tells just what has come to its end.**  With more bytes it goes on
where it has stopped, or stays as it is if the buffer was not too short.  An error leaves the lines
of all parts that have come to their end in front of it, and of no others; if it is about a constant
that is being read, these are the constants in the slots in front of that one. -/
theorem log_breaks_off (buffer more : List UInt8) :
    withoutTrailing (log buffer) <+: log (buffer ++ more) ∧
    (¬ IsTruncation (ofBytes buffer) →
      withoutTrailing (log (buffer ++ more)) = withoutTrailing (log buffer)) ∧
    ∀ e, ofBytes buffer = .error e →
      BreaksOff e (buffer.take (stop buffer)) ((log buffer).map LogRecord.line) ∧
      ∀ index, e.constantIndex? = some index →
        ∃ (minorVersion majorVersion count : UInt16) (cs : List Constant) (front own : List UInt8),
          buffer.take (stop buffer) = encodeVersion minorVersion majorVersion ++
            (BigEndian.bytes 2 count.toNat ++ (front ++ own)) ∧
          Format.Repeated Constant.IsStoredAs cs front ∧
          ConstantPool.slotOf cs cs.length = index.toNat ∧
          (log buffer).map LogRecord.line =
            versionLine minorVersion majorVersion :: ConstantPool.countLine count ::
              (ConstantPool.numbered 0 cs).map ConstantPool.entryLine := by
  obtain ⟨hcontinues, hsame⟩ := log_append buffer more
  refine ⟨hcontinues.trans (withoutTrailing_isPrefixOf _), hsame, fun e h => ?_⟩
  have hbreaks := breaksOff_of_ofBytes h
  exact ⟨hbreaks, fun index hindex => hbreaks.constants hindex⟩

/-- The tag of no kind stands behind a wide constant, which takes the slots one and two. -/
theorem log_breaks_off_strayTag :
    ¬ IsTruncation (ofBytes (encodeVersion 0 0x34 ++ strayTag)) ∧
    ofBytes (encodeVersion 0 0x34 ++ strayTag) = .error (.unknownTag 2 3) ∧
    (FormatError.unknownTag 2 3).constantIndex? = some 3 ∧
    withoutTrailing (log (encodeVersion 0 0x34 ++ strayTag ++ [7])) =
      withoutTrailing (log (encodeVersion 0 0x34 ++ strayTag)) ∧
    ∃ (minorVersion majorVersion count : UInt16) (cs : List Constant) (front own : List UInt8),
      (encodeVersion 0 0x34 ++ strayTag).take (stop (encodeVersion 0 0x34 ++ strayTag)) =
        encodeVersion minorVersion majorVersion ++
          (BigEndian.bytes 2 count.toNat ++ (front ++ own)) ∧
      Format.Repeated Constant.IsStoredAs cs front ∧
      ConstantPool.slotOf cs cs.length = (3 : UInt16).toNat ∧
      (log (encodeVersion 0 0x34 ++ strayTag)).map LogRecord.line =
        versionLine minorVersion majorVersion :: ConstantPool.countLine count ::
          (ConstantPool.numbered 0 cs).map ConstantPool.entryLine := by
  have herror : ofBytes (encodeVersion 0 0x34 ++ strayTag) = .error (.unknownTag 2 3) := by
    decide +kernel
  have hdecided : ¬ IsTruncation (ofBytes (encodeVersion 0 0x34 ++ strayTag)) := by decide +kernel
  obtain ⟨-, hsame, hbreaks⟩ := log_breaks_off (encodeVersion 0 0x34 ++ strayTag) [7]
  exact ⟨hdecided, herror, rfl, hsame hdecided, (hbreaks _ herror).2 3 rfl⟩

/-- A method body that is shorter than it says has no line, but the one inside it has. -/
example : (log (nestedBuffer.set 36 30)).map LogRecord.line =
    [(.debug, "class file version 52.0"), (.debug, "constant pool count 2"),
      (.trace, "#1 = Utf8(\"Code\")"), (.debug, "parsing 0 fields"), (.debug, "parsing 0 methods"),
      (.trace, "attribute Code (12 bytes)")] := by decide +kernel

end ClassFile
end ClassFormat
