import ClassFormat.ClassFile.Basic

/-!
# The first method that a program can start from

The search for the entry point goes through the methods and stops at the first one that decides it.
A method decides it in one of two ways.  It can be the entry point, or the search has to look up a
text for it that is not there: its name, or, if it is called `main`, its descriptor.  All other
methods are passed over, and `Member.isEntry_cases` says that nothing else can happen.

So the outcome is that of the first method which decides, and `entryPoint_is_first` says what this
means in each case.  What is behind that method does not matter, and neither does what the search
does not look at: the descriptor of a method with another name, the flags, and the attributes.

## What is here

* `IsMatch`, `IsBad` and `IsPassed` — the three things that a method can be to the search.  They are
  stated by look-ups in the pool, with the two words written out.
* `seen` — all that the search sees of a method, and `isEntry_eq_judged`, that it sees nothing else.
* `IsFirst` — a method at a place, behind methods that are passed over.
* `Decides` — the outcomes that a list of methods can have, each with the method that decides.
* `findEntry_eq_iff` — an outcome of the search is one that the methods decide.  As the search has
  one outcome, so do the methods.
* `isFirst_of_isBad_iff` — the first method that decides, if it is a bad one, is the first bad one
  and is in front of every match.
* `entryPoint_is_first` — the result, with its consequences for methods that are added or replaced.

No flag is looked at, so a method that is found need not be one that a program could be started
from: it may be private, or belong to an object.
-/

set_option autoImplicit false

namespace ClassFormat

namespace Member

variable {pool : ConstantPool} {m : Member} {e : FormatError}

/-- Whether a method can be the entry point. -/
def IsMatch (pool : ConstantPool) (m : Member) : Prop :=
  pool.utf8 m.name = .ok "main" ∧ pool.utf8 m.descriptor = .ok "([Ljava/lang/String;)V"

/-- What a method has that cannot be looked up: a name, or a descriptor under the name `main`. -/
inductive IsBad (pool : ConstantPool) (m : Member) : FormatError → Prop
  | name {e : FormatError} (h : pool.utf8 m.name = .error e) : IsBad pool m e
  | descriptor {e : FormatError} (hname : pool.utf8 m.name = .ok "main")
      (h : pool.utf8 m.descriptor = .error e) : IsBad pool m e

/-- Whether a method decides nothing. -/
def IsPassed (pool : ConstantPool) (m : Member) : Prop :=
  ¬ m.IsMatch pool ∧ ∀ e, ¬ m.IsBad pool e

/-- What the search sees of a method: the descriptor under the name `main`, and nothing of a method
with another name. -/
def seen (pool : ConstantPool) (m : Member) :
    Except FormatError (Option (Except FormatError String)) :=
  (pool.utf8 m.name).map fun name => if name = "main" then some (pool.utf8 m.descriptor) else none

/-- What the search makes of it. -/
def judged : Except FormatError (Option (Except FormatError String)) → Except FormatError Bool
  | .error e => .error e
  | .ok none => .ok false
  | .ok (some descriptor) =>
    descriptor.map fun text => decide (text = "([Ljava/lang/String;)V")

theorem IsBad.not_isMatch (h : m.IsBad pool e) : ¬ m.IsMatch pool := by
  rintro ⟨hname, hdescriptor⟩
  cases h with
  | name h => cases h.symm.trans hname
  | descriptor _ h => cases h.symm.trans hdescriptor

/-! ## One method

A method is looked at through `seen`: a name that is not there, another name, or the name `main` and
what there is under the descriptor. -/

/-- Nothing else of a method matters. -/
theorem isEntry_eq_judged (pool : ConstantPool) (m : Member) :
    m.isEntry pool = judged (m.seen pool) := by
  rw [isEntry, nameText, seen]
  cases pool.utf8 m.name with
  | error e => rfl
  | ok name =>
    change (if name = "main" then (m.descriptorText pool).bind fun text =>
        .ok (decide (text = "([Ljava/lang/String;)V")) else .ok false) =
      judged (.ok (if name = "main" then some (pool.utf8 m.descriptor) else none))
    by_cases hname : name = "main"
    · rw [if_pos hname, if_pos hname, descriptorText]
      cases pool.utf8 m.descriptor <;> rfl
    · rw [if_neg hname, if_neg hname]
      rfl

theorem isEntry_of_error (h : pool.utf8 m.name = .error e) : m.isEntry pool = .error e := by
  rw [isEntry_eq_judged, seen, h]
  rfl

theorem isEntry_of_main (h : pool.utf8 m.name = .ok "main") :
    m.isEntry pool =
      (pool.utf8 m.descriptor).map fun text => decide (text = "([Ljava/lang/String;)V") := by
  rw [isEntry_eq_judged, seen, h]
  rfl

theorem isEntry_of_other {name : String} (h : pool.utf8 m.name = .ok name) (hname : name ≠ "main") :
    m.isEntry pool = .ok false := by
  rw [isEntry_eq_judged, seen, h, Except.map, if_neg hname]
  rfl

theorem isEntry_of_isMatch (h : m.IsMatch pool) : m.isEntry pool = .ok true := by
  rw [isEntry_of_main h.1, h.2]
  rfl

theorem isEntry_of_isBad (h : m.IsBad pool e) : m.isEntry pool = .error e := by
  cases h with
  | name h => exact isEntry_of_error h
  | descriptor hname h =>
    rw [isEntry_of_main hname, h]
    rfl

/-- A method that neither is bad nor can be the entry point is passed over. -/
theorem isEntry_cases (pool : ConstantPool) (m : Member) :
    (∃ e, m.IsBad pool e) ∨ m.IsMatch pool ∨ m.isEntry pool = .ok false := by
  cases hname : pool.utf8 m.name with
  | error e => exact .inl ⟨e, .name hname⟩
  | ok name =>
    by_cases hmain : name = "main"
    · subst hmain
      cases hdescriptor : pool.utf8 m.descriptor with
      | error e => exact .inl ⟨e, .descriptor hname hdescriptor⟩
      | ok text =>
        by_cases htext : text = "([Ljava/lang/String;)V"
        · exact .inr (.inl ⟨hname, htext ▸ hdescriptor⟩)
        · refine .inr (.inr ?_)
          rw [isEntry_of_main hname, hdescriptor]
          exact congrArg Except.ok (decide_eq_false htext)
    · exact .inr (.inr (isEntry_of_other hname hmain))

theorem isBad_of_isEntry (h : m.isEntry pool = .error e) : m.IsBad pool e := by
  rcases isEntry_cases pool m with ⟨e', hbad⟩ | hmatch | hfalse
  · obtain rfl := Except.error.inj ((isEntry_of_isBad hbad).symm.trans h)
    exact hbad
  · cases (isEntry_of_isMatch hmatch).symm.trans h
  · cases hfalse.symm.trans h

theorem isMatch_of_isEntry (h : m.isEntry pool = .ok true) : m.IsMatch pool := by
  rcases isEntry_cases pool m with ⟨e, hbad⟩ | hmatch | hfalse
  · cases (isEntry_of_isBad hbad).symm.trans h
  · exact hmatch
  · cases hfalse.symm.trans h

/-- **A method decides nothing just if the search passes over it.** -/
theorem isEntry_eq_false_iff : m.isEntry pool = .ok false ↔ m.IsPassed pool := by
  constructor
  · intro h
    refine ⟨fun hmatch => ?_, fun e hbad => ?_⟩
    · cases (isEntry_of_isMatch hmatch).symm.trans h
    · cases (isEntry_of_isBad hbad).symm.trans h
  · rintro ⟨hmatch, hbad⟩
    rcases isEntry_cases pool m with ⟨e, hbad'⟩ | hmatch' | hfalse
    · exact absurd hbad' (hbad e)
    · exact absurd hmatch' hmatch
    · exact hfalse

/-! ## The first method that decides

An induction over the methods would have to be repeated for each statement.  It is made once, in
`exists_isFirst` and `findEntry_append_of_passed`, and from there on methods are divided at a
place. -/

/-- Methods that are passed over only count. -/
theorem findEntry_append_of_passed {before : List Member} (h : ∀ m ∈ before, m.IsPassed pool)
    (start : Nat) (methods : List Member) :
    findEntry pool start (before ++ methods) = findEntry pool (start + before.length) methods := by
  induction before generalizing start with
  | nil => rfl
  | cons m before ih =>
    obtain ⟨hm, hbefore⟩ := List.forall_mem_cons.1 h
    have hentry := isEntry_eq_false_iff.2 hm
    rw [List.cons_append, findEntry, hentry, List.length_cons, Nat.add_comm before.length,
      ← Nat.add_assoc]
    exact ih hbefore (start + 1)

theorem findEntry_cons_of_isMatch (h : m.IsMatch pool) (start : Nat) (methods : List Member) :
    findEntry pool start (m :: methods) = .ok (some (start, m)) := by
  rw [findEntry, isEntry_of_isMatch h]
  rfl

theorem findEntry_cons_of_isBad (h : m.IsBad pool e) (start : Nat) (methods : List Member) :
    findEntry pool start (m :: methods) = .error e := by
  rw [findEntry, isEntry_of_isBad h]
  rfl

/-- Whether a method stands at a place, behind methods that are all passed over. -/
structure IsFirst (pool : ConstantPool) (methods : List Member) (k : Nat) (m : Member) : Prop where
  getElem?_eq : methods[k]? = some m
  passed : ∀ m' ∈ methods.take k, m'.IsPassed pool

variable {methods : List Member} {k : Nat}

theorem IsFirst.findEntry_eq (h : IsFirst pool methods k m) :
    findEntry pool 0 methods = findEntry pool k (m :: methods.drop (k + 1)) := by
  obtain ⟨hlt, hm⟩ := List.getElem?_eq_some_iff.1 h.getElem?_eq
  have hlength : (methods.take k).length = k := List.length_take_of_le (Nat.le_of_lt hlt)
  have hsplit : methods = methods.take k ++ m :: methods.drop (k + 1) := by
    rw [← hm, List.getElem_cons_drop, List.take_append_drop]
  calc findEntry pool 0 methods
      = findEntry pool 0 (methods.take k ++ m :: methods.drop (k + 1)) := by rw [← hsplit]
    _ = findEntry pool k (m :: methods.drop (k + 1)) := by
      rw [findEntry_append_of_passed h.passed, hlength, Nat.zero_add]

/-- What lies behind a method does not matter to it. -/
theorem IsFirst.take_append (h : IsFirst pool methods k m) (behind : List Member) :
    IsFirst pool (methods.take (k + 1) ++ behind) k m := by
  obtain ⟨hlt, -⟩ := List.getElem?_eq_some_iff.1 h.getElem?_eq
  have hlength : (methods.take (k + 1)).length = k + 1 := List.length_take_of_le hlt
  constructor
  · rw [List.getElem?_append_left (by omega), List.getElem?_take_of_lt (Nat.lt_succ_self k)]
    exact h.getElem?_eq
  · rw [List.take_append_of_le_length (by omega), List.take_take,
      Nat.min_eq_left (Nat.le_succ k)]
    exact h.passed

/-- Either all methods are passed over, or there is a first one that is not. -/
theorem exists_isFirst (pool : ConstantPool) (methods : List Member) :
    (∀ m ∈ methods, m.IsPassed pool) ∨
      ∃ k m, IsFirst pool methods k m ∧ (m.IsMatch pool ∨ ∃ e, m.IsBad pool e) := by
  induction methods with
  | nil => exact .inl (List.forall_mem_nil _)
  | cons m methods ih =>
    cases hentry : m.isEntry pool with
    | error e =>
      exact .inr ⟨0, m, ⟨rfl, List.forall_mem_nil _⟩, .inr ⟨e, isBad_of_isEntry hentry⟩⟩
    | ok found =>
      cases found with
      | true => exact .inr ⟨0, m, ⟨rfl, List.forall_mem_nil _⟩, .inl (isMatch_of_isEntry hentry)⟩
      | false =>
        have hm := isEntry_eq_false_iff.1 hentry
        rcases ih with hall | ⟨k, m', hfirst, hm'⟩
        · exact .inl (List.forall_mem_cons.2 ⟨hm, hall⟩)
        · exact .inr ⟨k + 1, m',
            ⟨hfirst.getElem?_eq, List.forall_mem_cons.2 ⟨hm, hfirst.passed⟩⟩, hm'⟩

/-- The first of the bad methods is the first that is not passed over, if it is in front of every
method that can be the entry point. -/
theorem isFirst_of_isBad_iff (hbad : m.IsBad pool e) :
    IsFirst pool methods k m ↔ methods[k]? = some m ∧
      (∀ m' ∈ methods.take k, ∀ e', ¬ m'.IsBad pool e') ∧
      ∀ j m', methods[j]? = some m' → m'.IsMatch pool → k < j := by
  constructor
  · rintro ⟨hk, hpassed⟩
    refine ⟨hk, fun m' hm' => (hpassed m' hm').2, fun j m' hj hmatch => ?_⟩
    rcases Nat.lt_trichotomy j k with hlt | rfl | hgt
    · have hmem : m' ∈ methods.take k := by
        refine List.mem_of_getElem? (i := j) ?_
        rw [List.getElem?_take_of_lt hlt, hj]
      exact absurd hmatch (hpassed m' hmem).1
    · obtain rfl := Option.some.inj (hj.symm.trans hk)
      exact absurd hmatch hbad.not_isMatch
    · exact hgt
  · rintro ⟨hk, hbads, hmatches⟩
    refine ⟨hk, fun m' hm' => ⟨fun hmatch => ?_, hbads m' hm'⟩⟩
    obtain ⟨j, hj, rfl⟩ := List.mem_take_iff_getElem.1 hm'
    have hlt := hmatches j _ (List.getElem?_eq_getElem (by omega)) hmatch
    omega

/-- The outcomes that a search can have. -/
inductive Decides (pool : ConstantPool) (methods : List Member) :
    Except FormatError (Option (Nat × Member)) → Prop
  | found {k : Nat} {m : Member} (hfirst : IsFirst pool methods k m) (hm : m.IsMatch pool) :
      Decides pool methods (.ok (some (k, m)))
  | absent (h : ∀ m ∈ methods, m.IsPassed pool) : Decides pool methods (.ok none)
  | failed {k : Nat} {m : Member} {e : FormatError} (hfirst : IsFirst pool methods k m)
      (hm : m.IsBad pool e) : Decides pool methods (.error e)

theorem Decides.findEntry_eq {outcome : Except FormatError (Option (Nat × Member))}
    (h : Decides pool methods outcome) : findEntry pool 0 methods = outcome := by
  cases h with
  | found hfirst hm => rw [hfirst.findEntry_eq, findEntry_cons_of_isMatch hm]
  | absent h =>
    rw [← List.append_nil methods, findEntry_append_of_passed h]
    rfl
  | failed hfirst hm => rw [hfirst.findEntry_eq, findEntry_cons_of_isBad hm]

/-- **The first method that decides makes the outcome of the search.** -/
theorem findEntry_eq_iff {outcome : Except FormatError (Option (Nat × Member))} :
    findEntry pool 0 methods = outcome ↔ Decides pool methods outcome := by
  refine ⟨?_, Decides.findEntry_eq⟩
  rintro rfl
  rcases exists_isFirst pool methods with hall | ⟨k, m, hfirst, hmatch | ⟨e, hbad⟩⟩
  · have hdecides : Decides pool methods _ := .absent hall
    rwa [hdecides.findEntry_eq]
  · have hdecides : Decides pool methods _ := .found hfirst hmatch
    rwa [hdecides.findEntry_eq]
  · have hdecides : Decides pool methods _ := .failed hfirst hbad
    rwa [hdecides.findEntry_eq]

/-- If something has been decided, then what comes behind it does not change it. -/
theorem findEntry_append (h : findEntry pool 0 methods ≠ .ok none) (more : List Member) :
    findEntry pool 0 (methods ++ more) = findEntry pool 0 methods := by
  have hmore {k : Nat} {m : Member} (hfirst : IsFirst pool methods k m) :
      IsFirst pool (methods ++ more) k m := by
    have hbehind := hfirst.take_append (methods.drop (k + 1) ++ more)
    rwa [← List.append_assoc, List.take_append_drop] at hbehind
  generalize houtcome : findEntry pool 0 methods = outcome at h ⊢
  cases findEntry_eq_iff.1 houtcome with
  | found hfirst hm => exact findEntry_eq_iff.2 (.found (hmore hfirst) hm)
  | absent => exact absurd rfl h
  | failed hfirst hm => exact findEntry_eq_iff.2 (.failed (hmore hfirst) hm)

/-- **The place that is found depends on nothing but what is seen of the methods.** -/
theorem findEntry_of_seen {pool' : ConstantPool} {methods' : List Member}
    (h : methods'.map (seen pool') = methods.map (seen pool)) (start : Nat) :
    (findEntry pool' start methods').map (·.map Prod.fst) =
      (findEntry pool start methods).map (·.map Prod.fst) := by
  induction methods generalizing methods' start with
  | nil =>
    obtain rfl := List.map_eq_nil_iff.1 h
    rfl
  | cons m methods ih =>
    obtain ⟨m', methods', rfl, hm, hmethods⟩ := List.map_eq_cons_iff.1 h
    have hentry : m'.isEntry pool' = m.isEntry pool := by
      rw [isEntry_eq_judged, isEntry_eq_judged, hm]
    rw [findEntry, findEntry, hentry]
    cases m.isEntry pool with
    | error e => rfl
    | ok found =>
      cases found with
      | true => rfl
      | false => exact ih hmethods (start + 1)

end Member

namespace ClassFile

open Member

/-- **The entry point is the first method that decides it.**  A method is found if it can be the
entry point and all methods in front of it are passed over; none is found if all are passed over;
and the search fails with the error of the first method that cannot be looked up, if that one is in
front of every method that can be the entry point.  Nothing else has an influence: not the methods
behind the one that is found, not those that are added when something has been decided, and of a
method only what is seen of it. -/
theorem entryPoint_is_first (c : ClassFile) :
    (∀ k m, c.entryPoint = .ok (some (k, m)) ↔
      c.methods[k]? = some m ∧ m.IsMatch c.pool ∧
        ∀ m' ∈ c.methods.take k, ¬ m'.IsMatch c.pool ∧ ∀ e, ¬ m'.IsBad c.pool e) ∧
    (c.entryPoint = .ok none ↔
      ∀ m ∈ c.methods, ¬ m.IsMatch c.pool ∧ ∀ e, ¬ m.IsBad c.pool e) ∧
    (∀ e, c.entryPoint = .error e ↔ ∃ k m, c.methods[k]? = some m ∧ m.IsBad c.pool e ∧
      (∀ m' ∈ c.methods.take k, ∀ e', ¬ m'.IsBad c.pool e') ∧
      ∀ j m', c.methods[j]? = some m' → m'.IsMatch c.pool → k < j) ∧
    (∀ k m, c.entryPoint = .ok (some (k, m)) → ∀ behind,
      { c with methods := c.methods.take (k + 1) ++ behind }.entryPoint = c.entryPoint) ∧
    (c.entryPoint ≠ .ok none → ∀ more,
      { c with methods := c.methods ++ more }.entryPoint = c.entryPoint) ∧
    ∀ c' : ClassFile, c'.methods.map (seen c'.pool) = c.methods.map (seen c.pool) →
      c'.entryPoint.map (·.map Prod.fst) = c.entryPoint.map (·.map Prod.fst) := by
  refine ⟨fun k m => ?_, ?_, fun e => ?_, fun k m h behind => ?_, findEntry_append,
    fun c' h => findEntry_of_seen h 0⟩
  · rw [entryPoint, findEntry_eq_iff]
    constructor
    · rintro (⟨hfirst, hm⟩ | _ | _)
      exact ⟨hfirst.1, hm, hfirst.2⟩
    · exact fun ⟨hk, hm, hpassed⟩ => .found ⟨hk, hpassed⟩ hm
  · rw [entryPoint, findEntry_eq_iff]
    constructor
    · rintro (_ | hall | _)
      exact hall
    · exact .absent
  · rw [entryPoint, findEntry_eq_iff]
    constructor
    · rintro (_ | _ | ⟨hfirst, hm⟩)
      obtain ⟨hk, hbads, hmatches⟩ := (isFirst_of_isBad_iff hm).1 hfirst
      exact ⟨_, _, hk, hm, hbads, hmatches⟩
    · rintro ⟨k, m, hk, hm, hbads, hmatches⟩
      exact .failed ((isFirst_of_isBad_iff hm).2 ⟨hk, hbads, hmatches⟩) hm
  · cases findEntry_eq_iff.1 h with
    | found hfirst hm =>
      have hkept := Decides.found (hfirst.take_append behind) hm
      exact (findEntry_eq_iff.2 hkept).trans h.symm

/-- A class file with methods of every sort: one with another name and no descriptor, one called
`main` with another descriptor, the entry point, and one without a name. -/
def sundryMethods : ClassFile where
  minorVersion := 0
  majorVersion := 52
  pool := ⟨#[some (.utf8 "main"), some (.utf8 "([Ljava/lang/String;)V"), some (.utf8 "f")]⟩
  accessFlags := 0
  thisClass := 0
  superClass := 0
  interfaces := []
  fields := []
  methods := [⟨1, 3, 0, []⟩, ⟨0, 1, 3, []⟩, ⟨9, 1, 2, []⟩, ⟨0, 7, 0, []⟩]
  attributes := []

/-- The entry point is found behind the first two, and the last one does not matter.  In the
opposite order the last one comes first, and its name is missing. -/
theorem entryPoint_is_first_sundryMethods :
    sundryMethods.entryPoint = .ok (some (2, ⟨9, 1, 2, []⟩)) ∧
    (∀ behind, { sundryMethods with
      methods := sundryMethods.methods.take 3 ++ behind }.entryPoint = sundryMethods.entryPoint) ∧
    ∀ more, { sundryMethods with methods := sundryMethods.methods.reverse ++ more }.entryPoint =
      .error (.invalidIndex 7) := by
  have hfound : sundryMethods.entryPoint = .ok (some (2, ⟨9, 1, 2, []⟩)) := rfl
  have hfailed : { sundryMethods with methods := sundryMethods.methods.reverse }.entryPoint =
      .error (.invalidIndex 7) := rfl
  obtain ⟨-, -, -, hbehind, -, -⟩ := entryPoint_is_first sundryMethods
  obtain ⟨-, -, -, -, hmore, -⟩ :=
    entryPoint_is_first { sundryMethods with methods := sundryMethods.methods.reverse }
  have hdecided : { sundryMethods with methods := sundryMethods.methods.reverse }.entryPoint ≠
      .ok none := fun h => by cases hfailed.symm.trans h
  exact ⟨hfound, hbehind 2 _ hfound, fun more => (hmore hdecided more).trans hfailed⟩

end ClassFile
end ClassFormat
