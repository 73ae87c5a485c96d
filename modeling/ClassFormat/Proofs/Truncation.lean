import ClassFormat.Proofs.NestingRoom

/-!
# Buffers that end too early

Reading a class file never looks ahead, so its outcome is decided by the bytes up to the place where
it stops: `no_lookahead` says that the bytes behind that place do not matter, and that a buffer
which is cut anywhere in front of it is reported as truncated and as nothing else.

When a buffer is reported as truncated, `truncation_exact` says what the report is worth: exactly so
many bytes as it names are missing.  With fewer more bytes the report stays the same but for the
count of what is left; with all of them reading gets past the place.  So a reader that gets its
buffer in pieces can ask for as many bytes as the report names, and will neither stand still nor
wait for bytes that do not belong to the class file.

Both follow from one simulation, `Sequential.resumes`.

* `exists_resumes` is that simulation for a whole buffer, in a room that is enough for both buffers.
* `ofBytes_append`, `ofBytes_append_of_short` and `le_stop_append` are its three cases.
* `isTruncation_take` is for the other direction, from a buffer to a shorter one.  If the shorter
  one were decided, then its outcome would stay when the bytes are put back, and reading would stop
  in front of them.

A truncation names the place in front of all the bytes that were asked for, and counts what is left
from there.  So the place is always the start of a number or of a run of bytes, and what is left may
be a part of it.
-/

set_option autoImplicit false

namespace ClassFormat
namespace ClassFile

open Decoder

/-- Up to their logs, the run on a longer buffer follows that on the shorter one. -/
theorem exists_resumes (buffer more : List UInt8) :
    ∃ out out' : Except FormatError ClassFile × Progress, Resumes more out out' ∧
      (out.1 = ofBytes buffer ∧ out.2.cursor = (run buffer).2.cursor) ∧
      (out'.1 = ofBytes (buffer ++ more) ∧ out'.2.cursor = (run (buffer ++ more)).2.cursor) := by
  -- the longer buffer has room for both
  have hroom := Nat.lt_succ_self (buffer ++ more).length
  have hroom' : buffer.length < (buffer ++ more).length + 1 := by rw [List.length_append]; omega
  obtain ⟨hshort, hshort'⟩ := run_eq_decodeWithin hroom'
  obtain ⟨hlong, hlong'⟩ := run_eq_decodeWithin hroom
  exact ⟨_, _, (sequential_decodeWithin _).resumes more (.start buffer),
    ⟨hshort.symm, hshort'.symm⟩, hlong.symm, hlong'.symm⟩

theorem stop_le (buffer : List UInt8) : stop buffer ≤ buffer.length := by
  have hreaches := (sequential_decodeWithin (buffer.length + 1)).reaches (.start buffer)
  rw [stop, (run_eq_decodeWithin (Nat.lt_succ_self buffer.length)).2]
  exact Nat.le_trans (Nat.le_add_right _ _)
    (Nat.le_of_eq (hreaches.size_eq.trans (Nat.zero_add buffer.length)))

/-- A truncation names the place where reading stopped; what it has and what it needs are counted
from there. -/
theorem shortage_of_ofBytes {buffer : List UInt8} {m : Shortage}
    (h : ofBytes buffer = .error (.truncated m)) :
    m.offset = stop buffer ∧ m.offset + m.remaining = buffer.length ∧ m.remaining < m.needed := by
  have hroom := Nat.lt_succ_self buffer.length
  obtain ⟨houtcome, hcursor⟩ := run_eq_decodeWithin hroom
  have hseq := sequential_decodeWithin (buffer.length + 1)
  have hreaches := hseq.reaches (.start buffer)
  rcases hrun : (decodeWithin (buffer.length + 1)).run (.start buffer) with ⟨r, s⟩
  rw [hrun] at houtcome hcursor hreaches
  have hr : r = .error (.truncated m) := houtcome.symm.trans h
  subst hr
  obtain ⟨hoffset, hremaining, hlt⟩ := hseq.shortage hrun
  have hsize : s.cursor.position + s.cursor.remaining = 0 + buffer.length := hreaches.size_eq
  refine ⟨by rw [stop, hcursor, hoffset], ?_, hlt⟩
  rw [hoffset, hremaining, hsize, Nat.zero_add]

/-! ## What more bytes change -/

/-- A decided outcome stays as it is. -/
theorem ofBytes_append {buffer : List UInt8} (h : ¬ IsTruncation (ofBytes buffer))
    (more : List UInt8) :
    ofBytes (buffer ++ more) = ofBytes buffer ∧ stop (buffer ++ more) = stop buffer := by
  obtain ⟨⟨r, s⟩, out, hresumes, ⟨hr, hs⟩, hr', hs'⟩ := exists_resumes buffer more
  simp only at hr hs
  cases hresumes with
  | same => exact ⟨hr'.symm.trans hr, by rw [stop, stop, ← hs', ← hs]; rfl⟩
  | short => exact absurd ⟨_, hr.symm⟩ h
  | beyond => exact absurd ⟨_, hr.symm⟩ h

/-- A truncation stays one while bytes are missing. -/
theorem ofBytes_append_of_short {buffer more : List UInt8} {m : Shortage}
    (h : ofBytes buffer = .error (.truncated m)) (hmore : m.remaining + more.length < m.needed) :
    ofBytes (buffer ++ more) =
      .error (.truncated { m with remaining := m.remaining + more.length }) := by
  obtain ⟨⟨r, s⟩, out, hresumes, ⟨hr, -⟩, hr', -⟩ := exists_resumes buffer more
  simp only [h] at hr
  cases hresumes with
  | same hsame => exact absurd ⟨m, hr⟩ hsame
  | short => cases hr; exact hr'.symm
  | beyond hm => cases hr; omega

/-- When the missing bytes are there, reading gets past them. -/
theorem le_stop_append {buffer more : List UInt8} {m : Shortage}
    (h : ofBytes buffer = .error (.truncated m)) (hmore : m.needed ≤ m.remaining + more.length) :
    m.offset + m.needed ≤ stop (buffer ++ more) := by
  obtain ⟨⟨r, s⟩, out, hresumes, ⟨hr, -⟩, -, hs'⟩ := exists_resumes buffer more
  simp only [h] at hr
  cases hresumes with
  | same hsame => exact absurd ⟨m, hr⟩ hsame
  | short hm => cases hr; omega
  | beyond _ hposition => cases hr; rw [stop, ← hs']; exact hposition

/-! ## Deciding prefixes -/

/-- The bytes in front of the place where reading stops are enough to stop there. -/
theorem not_isTruncation_take_stop {buffer : List UInt8} (h : ¬ IsTruncation (ofBytes buffer)) :
    ¬ IsTruncation (ofBytes (buffer.take (stop buffer))) := by
  rintro ⟨m, hm⟩
  obtain ⟨-, hsize, hlt⟩ := shortage_of_ofBytes hm
  rw [List.length_take, Nat.min_eq_left (stop_le buffer)] at hsize
  have hsplit := List.take_append_drop (stop buffer) buffer
  rcases Nat.lt_or_ge (m.remaining + (buffer.drop (stop buffer)).length) m.needed with hshort | hge
  · have hwhole := ofBytes_append_of_short hm hshort
    rw [hsplit] at hwhole
    exact h ⟨_, hwhole⟩
  · have hstop := le_stop_append hm hge
    rw [hsplit] at hstop
    omega

/-- A buffer that is cut in front of that place is truncated. -/
theorem isTruncation_take {buffer : List UInt8} {k : Nat} (hk : k < stop buffer) :
    IsTruncation (ofBytes (buffer.take k)) := by
  by_cases hcut : IsTruncation (ofBytes (buffer.take k))
  · exact hcut
  · have hstop := (ofBytes_append hcut (buffer.drop k)).2
    rw [List.take_append_drop] at hstop
    have hle := stop_le (buffer.take k)
    rw [List.length_take] at hle
    omega

/-- **Reading a class file never looks ahead.**  An outcome other than truncation is decided by the
bytes in front of the place where reading stops: every buffer that starts with them has the same
outcome, and every buffer that is cut before them is truncated where it ends. -/
theorem no_lookahead {buffer : List UInt8} (h : ¬ IsTruncation (ofBytes buffer)) :
    (∀ other : List UInt8, other.take (stop buffer) = buffer.take (stop buffer) →
      ofBytes other = ofBytes buffer) ∧
    ∀ k < stop buffer, ∃ m : Shortage, ofBytes (buffer.take k) = .error (.truncated m) ∧
      m.offset + m.remaining = k ∧ m.remaining < m.needed := by
  have hprefix := not_isTruncation_take_stop h
  constructor
  · intro other hother
    have hbuffer := (ofBytes_append hprefix (buffer.drop (stop buffer))).1
    have hother' := (ofBytes_append hprefix (other.drop (stop buffer))).1
    rw [List.take_append_drop] at hbuffer
    rw [← hother, List.take_append_drop, hother] at hother'
    exact hother'.trans hbuffer.symm
  · intro k hk
    obtain ⟨m, hm⟩ := isTruncation_take hk
    obtain ⟨-, hsize, hlt⟩ := shortage_of_ofBytes hm
    have hle := stop_le buffer
    rw [List.length_take, Nat.min_eq_left (by omega)] at hsize
    exact ⟨m, hm, hsize, hlt⟩

/-- A class file with a method body inside a method body, where the declared length of the inner one
is too great by one, and a byte behind it. -/
def mismatchedBuffer : List UInt8 :=
  [0xCA, 0xFE, 0xBA, 0xBE, 0, 0, 0, 0x34, 0, 2, 1, 0, 4, 0x43, 0x6F, 0x64, 0x65,
    0, 0x21, 0, 0, 0, 0, 0, 0, 0, 0, 0, 0, 0, 1,
    0, 1, 0, 0, 0, 31, 0, 2, 0, 1, 0, 0, 0, 1, 0xB1, 0, 0, 0, 1,
    0, 1, 0, 0, 0, 13, 0, 0, 0, 0, 0, 0, 0, 0, 0, 0, 0, 0, 0xFF]

theorem no_lookahead_mismatchedBuffer :
    ¬ IsTruncation (ofBytes mismatchedBuffer) ∧
    (∀ other : List UInt8,
      other.take (stop mismatchedBuffer) = mismatchedBuffer.take (stop mismatchedBuffer) →
        ofBytes other = ofBytes mismatchedBuffer) ∧
    ∀ k < stop mismatchedBuffer, ∃ m : Shortage,
      ofBytes (mismatchedBuffer.take k) = .error (.truncated m) ∧
        m.offset + m.remaining = k ∧ m.remaining < m.needed := by
  have h : ¬ IsTruncation (ofBytes mismatchedBuffer) := by decide +kernel
  exact ⟨h, no_lookahead h⟩

/-- **A truncation says exactly how many bytes are missing.** -/
theorem truncation_exact {buffer : List UInt8} {m : Shortage}
    (h : ofBytes buffer = .error (.truncated m)) :
    m.offset + m.remaining = buffer.length ∧ m.remaining < m.needed ∧
    (∀ more : List UInt8, more.length < m.needed - m.remaining → ofBytes (buffer ++ more) =
      .error (.truncated { m with remaining := m.remaining + more.length })) ∧
    ∀ more : List UInt8, m.needed - m.remaining ≤ more.length →
      ∀ m' : Shortage, ofBytes (buffer ++ more) = .error (.truncated m') →
        m.offset + m.needed ≤ m'.offset := by
  obtain ⟨-, hsize, hlt⟩ := shortage_of_ofBytes h
  refine ⟨hsize, hlt, fun more hmore => ?_, fun more hmore m' h' => ?_⟩
  · exact ofBytes_append_of_short h (by omega)
  · obtain ⟨hoffset, -, -⟩ := shortage_of_ofBytes h'
    rw [hoffset]
    exact le_stop_append h (by omega)

/-- The start of a class file that ends within the length of the inner instructions. -/
def cutBuffer : List UInt8 := mismatchedBuffer.take 62

theorem truncation_exact_cutBuffer :
    ofBytes cutBuffer = .error (.truncated ⟨60, 4, 2⟩) ∧
    60 + 2 = cutBuffer.length ∧ 2 < 4 ∧
    (∀ more : List UInt8, more.length < 4 - 2 →
      ofBytes (cutBuffer ++ more) = .error (.truncated ⟨60, 4, 2 + more.length⟩)) ∧
    ∀ more : List UInt8, 4 - 2 ≤ more.length → ∀ m' : Shortage,
      ofBytes (cutBuffer ++ more) = .error (.truncated m') → 60 + 4 ≤ m'.offset := by
  have h : ofBytes cutBuffer = .error (.truncated ⟨60, 4, 2⟩) := by decide +kernel
  exact ⟨h, truncation_exact h⟩

end ClassFile
end ClassFormat
