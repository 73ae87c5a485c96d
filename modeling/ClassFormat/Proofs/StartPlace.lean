import ClassFormat.Proofs.Readers

/-!
# Where a reader starts does not matter

A reader knows how many bytes lie behind it, and it uses that number in two places: the length of an
attribute is found as the difference of two positions, and a shortage names the place where it
happened.  The difference is the same wherever the reader has started, and the shortage moves along
with the start.  Nothing else depends on what lies behind.

`displaced` says what becomes of an outcome when there are more bytes behind the start and records
in the log already, and `IsRelative` that a decoder does just that.  All decoders do, on success and
on failure, and so does any session of requests: `Session.run_inside`.

* `FormatError.displace` changes the offset of a shortage and leaves every other error as it is;
  `Progress.displace` moves the place and puts the earlier records in front.
* `IsRelative.measured` is where the difference of two positions comes in: the two move by the same
  number, so the difference stays.
* `Sequential.isRelative` and `Counting.isRelative` carry it over all decoders.
* `Progress.inside` is a reader that stands somewhere in a buffer, and `Progress.displace_start`
  says that it is a displaced reader of the bytes that are left.
-/

set_option autoImplicit false

namespace ClassFormat

/-! ## What moves along with the start -/

/-- An error as it is found behind `offset` more bytes: only a shortage names a place. -/
def FormatError.displace (offset : Nat) : FormatError → FormatError
  | truncated m => truncated { m with offset := offset + m.offset }
  | e => e

/-- The same place behind `offset` more bytes and behind the records of an earlier log. -/
def Progress.displace (offset : Nat) (log : Array LogRecord) (s : Progress) : Progress :=
  ⟨⟨offset + s.cursor.position, s.cursor.rest⟩, log ++ s.log⟩

/-- A place in a buffer that has been reached with some records made. -/
def Progress.inside (buffer : List UInt8) (position : Nat) (log : Array LogRecord) : Progress :=
  ⟨⟨position, buffer.drop position⟩, log⟩

theorem Progress.displace_start (buffer : List UInt8) (position : Nat) (log : Array LogRecord) :
    (start (buffer.drop position)).displace position log = inside buffer position log := by
  rw [displace, start, Array.append_empty]
  rfl

namespace Decoder

variable {α β : Type}

/-- What becomes of an outcome when its start is displaced. -/
def displaced (offset : Nat) (log : Array LogRecord) :
    Except FormatError α × Progress → Except FormatError α × Progress
  | (r, s) => (r.mapError (·.displace offset), s.displace offset log)

/-- Whether a decoder does the same wherever it starts. -/
def IsRelative (d : Decoder α) : Prop :=
  ∀ (offset : Nat) (log : Array LogRecord) (s : Progress),
    d.run (s.displace offset log) = displaced offset log (d.run s)

namespace IsRelative

theorem pure (x : α) : IsRelative (Pure.pure x) := fun _ _ _ => rfl

/-- An error that is no shortage names no place. -/
theorem throw {e : FormatError} (he : ∀ m, e ≠ .truncated m) :
    IsRelative (MonadExcept.throw e : Decoder α) := by
  intro offset log s
  have hsame : e.displace offset = e := by
    cases e with
    | truncated m => exact absurd rfl (he m)
    | _ => rfl
  show (Except.error e, _) = (Except.error (e.displace offset), _)
  rw [hsame]

/-- A read looks ahead only, and a shortage moves with the start. -/
theorem read (r : Read) : IsRelative (Decoder.read r) := by
  intro offset log s
  rcases Nat.lt_or_ge s.cursor.remaining r.width with hlt | hge
  · have hlt' : (s.displace offset log).cursor.remaining < r.width := hlt
    rw [run_read_of_lt hlt, run_read_of_lt hlt']
    rfl
  · have hge' : r.width ≤ (s.displace offset log).cursor.remaining := hge
    have hposition : (s.displace offset log).cursor.position + r.width =
        offset + (s.cursor.position + r.width) := Nat.add_assoc ..
    rw [run_read_of_le hge, run_read_of_le hge', hposition]
    rfl

theorem record (r : LogRecord) : IsRelative (Decoder.record r) := by
  intro offset log s
  have hpush : (log ++ s.log).push r = log ++ s.log.push r := Array.push_append
  show (Except.ok (), Progress.mk _ ((log ++ s.log).push r)) = _
  rw [hpush]
  rfl

theorem remaining : IsRelative Decoder.remaining := fun _ _ _ => rfl

theorem bind {d : Decoder α} {f : α → Decoder β} (hd : IsRelative d)
    (hf : ∀ x, IsRelative (f x)) : IsRelative (d >>= f) := by
  intro offset log s
  have hs := hd offset log s
  rcases hrun : d.run s with ⟨e | x, s'⟩
  · rw [hrun] at hs
    rw [run_bind_of_error hrun, run_bind_of_error hs]
    rfl
  · rw [hrun] at hs
    rw [run_bind_of_ok hrun, run_bind_of_ok hs]
    exact hf x offset log s'

/-- The two positions that are compared move by the same number. -/
theorem measured {d : Decoder α} (hd : IsRelative d) : IsRelative (Decoder.measured d) := by
  intro offset log s
  have hs := hd offset log s
  rcases hrun : d.run s with ⟨e | x, s'⟩
  · rw [hrun] at hs
    rw [run_measured_of_error hrun, run_measured_of_error hs]
    rfl
  · rw [hrun] at hs
    have hdiff : (s'.displace offset log).cursor.position - (s.displace offset log).cursor.position
        = s'.cursor.position - s.cursor.position := Nat.add_sub_add_left ..
    rw [run_measured_of_ok hrun, run_measured_of_ok hs, hdiff]
    rfl

end IsRelative

/-- **A sequential decoder does the same wherever it starts.** -/
theorem Sequential.isRelative {d : Decoder α} (hd : Sequential d) : IsRelative d := by
  induction hd with
  | pure x => exact .pure x
  | throw he => exact .throw he
  | read r => exact .read r
  | record r => exact .record r
  | measured hd ih => exact ih.measured
  | bind hd hf ihd ihf => exact ihd.bind ihf

/-- **So does every decoder that also counts the bytes ahead.** -/
theorem Counting.isRelative {d : Decoder α} (hd : Counting d) : IsRelative d := by
  induction hd with
  | sequential hd => exact hd.isRelative
  | remaining => exact .remaining
  | bind hd hf ihd ihf => exact ihd.bind ihf

end Decoder

/-! ## Sessions -/

open Decoder

namespace Session

/-- Requests that follow each other move together, also behind one that has failed. -/
theorem run_displace (requests : List Request) (offset : Nat) (log : Array LogRecord)
    (s : Progress) : run requests (s.displace offset log) =
      ((run requests s).1.map (·.mapError (·.displace offset)),
        (run requests s).2.displace offset log) := by
  induction requests generalizing s with
  | nil => rfl
  | cons request requests ih =>
    have hfirst := request.counting_decoder.isRelative offset log s
    rcases hrun : request.decoder.run s with ⟨r, s'⟩
    rw [hrun] at hfirst
    simp only [run, hrun, hfirst, displaced, ih s', List.map_cons]

/-- **Only the bytes ahead of a reader matter.**  A reader inside a buffer finds what a new reader
finds in the bytes that are left of it: the same values and the same errors, but that a shortage is
named farther behind, by as many bytes as lie behind the start; the same number of bytes is read,
and the same records are added to the log.  This holds of the reader of a pool, of attributes, of a
class file, and of any session of requests, whether they succeed or fail. -/
theorem run_inside (buffer : List UInt8) (position : Nat) (log : Array LogRecord) :
    ConstantPool.decode.run (.inside buffer position log) =
      displaced position log (ConstantPool.decode.run (.start (buffer.drop position))) ∧
    (∀ (pool : ConstantPool) (count : UInt16),
      (Attribute.decode pool count).run (.inside buffer position log) =
        displaced position log
          ((Attribute.decode pool count).run (.start (buffer.drop position)))) ∧
    ClassFile.decode.run (.inside buffer position log) =
      displaced position log (ClassFile.decode.run (.start (buffer.drop position))) ∧
    ∀ requests : List Request, run requests (.inside buffer position log) =
      ((run requests (.start (buffer.drop position))).1.map (·.mapError (·.displace position)),
        (run requests (.start (buffer.drop position))).2.displace position log) := by
  rw [← Progress.displace_start]
  refine ⟨?_, fun pool count => ?_, ?_, fun requests => ?_⟩
  · exact ConstantPool.sequential_decode.isRelative position log _
  · exact (Attribute.counting_decode pool count).isRelative position log _
  · exact ClassFile.counting_decode.isRelative position log _
  · exact run_displace requests position log _

end Session
end ClassFormat
