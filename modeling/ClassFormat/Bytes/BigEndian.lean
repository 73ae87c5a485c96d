/-!
# Big-endian numbers

Every number in a class file is a run of bytes with the most significant byte first.  `value` is the
number that a run stands for and `bytes` writes a number in a given width; the numbers that can be
written are those below the `limit` of the width.

The two are inverse to each other: `bytes_value` says that a run is recovered from its value and its
length, and `value_bytes` that a number is recovered from its bytes when the width holds it.  All of
it is stated in `Nat`, as sums and products, so that widths never matter to a proof.

* `value` is a fold from the left, as a reader goes, and `value_cons` is the same from the other
  end: the first byte counts for the limit of the bytes behind it.  Inductions over a run use the
  latter.
* `bytes` takes a number of any size and writes its lowest bytes; `value_bytes_mod` says so, and
  `value_bytes` is the case of a number that fits.
* `value_lt` is what makes a run fit in its length again.
-/

set_option autoImplicit false

namespace ClassFormat
namespace BigEndian

/-- The number that a run of bytes stands for, most significant byte first. -/
def value (run : List UInt8) : Nat :=
  run.foldl (fun n b => 256 * n + b.toNat) 0

/-- The least number that does not fit in a width: 256 in one byte, 65536 in two bytes. -/
def limit : (width : Nat) → Nat
  | 0 => 1
  | width + 1 => limit width * 256

/-- The lowest `width` bytes of a number, most significant byte first. -/
def bytes : (width n : Nat) → List UInt8
  | 0, _ => []
  | width + 1, n => UInt8.ofNat (n / limit width) :: bytes width n

theorem limit_succ (width : Nat) : limit (width + 1) = limit width * 256 := rfl

theorem limit_pos (width : Nat) : 0 < limit width := by
  induction width with
  | zero => decide
  | succ width ih => rw [limit_succ]; omega

/-! ## The value of a run -/

@[simp] theorem value_nil : value [] = 0 := rfl

theorem foldl_eq_value (n : Nat) (run : List UInt8) :
    run.foldl (fun n b => 256 * n + b.toNat) n = n * limit run.length + value run := by
  induction run generalizing n with
  | nil => simp [limit]
  | cons b run ih =>
    rw [value, List.foldl_cons, List.foldl_cons, ih, ih (256 * 0 + b.toNat), List.length_cons,
      limit_succ]
    grind

/-- The first byte counts for the limit of the bytes behind it. -/
theorem value_cons (b : UInt8) (run : List UInt8) :
    value (b :: run) = b.toNat * limit run.length + value run := by
  rw [value, List.foldl_cons, foldl_eq_value]
  simp

/-- A run stands for a number that fits in its length. -/
theorem value_lt (run : List UInt8) : value run < limit run.length := by
  induction run with
  | nil => decide
  | cons b run ih =>
    have hb : b.toNat + 1 ≤ 256 := b.toNat_lt
    calc value (b :: run) = b.toNat * limit run.length + value run := value_cons b run
      _ < b.toNat * limit run.length + limit run.length := Nat.add_lt_add_left ih _
      _ = (b.toNat + 1) * limit run.length := (Nat.succ_mul _ _).symm
      _ ≤ 256 * limit run.length := Nat.mul_le_mul_right _ hb
      _ = limit (b :: run).length := Nat.mul_comm _ _

/-! ## The bytes of a number -/

@[simp] theorem length_bytes (width n : Nat) : (bytes width n).length = width := by
  induction width with
  | zero => rfl
  | succ width ih => simp [bytes, ih]

theorem bytes_add_mul (width n k : Nat) : bytes width (k * limit width + n) = bytes width n := by
  induction width generalizing k with
  | zero => rfl
  | succ width ih =>
    have hsplit : k * limit (width + 1) + n = 256 * k * limit width + n := by
      rw [limit_succ]; grind
    rw [bytes, bytes, hsplit, ih, Nat.add_comm, Nat.add_mul_div_right _ _ (limit_pos width)]
    congr 1
    apply UInt8.toNat_inj.1
    simp only [UInt8.toNat_ofNat', Nat.reducePow]
    omega

theorem value_bytes_mod (width n : Nat) : value (bytes width n) = n % limit width := by
  induction width with
  | zero => simp [bytes, limit, Nat.mod_one]
  | succ width ih =>
    have hlow : (UInt8.ofNat (n / limit width)).toNat = n / limit width % 256 := by simp
    rw [bytes, value_cons, length_bytes, ih, hlow, limit_succ, Nat.mod_mul, Nat.add_comm,
      Nat.mul_comm (limit width)]

/-- **A number is recovered from its bytes** when the width holds it. -/
theorem value_bytes {width n : Nat} (h : n < limit width) : value (bytes width n) = n := by
  rw [value_bytes_mod, Nat.mod_eq_of_lt h]

/-- **A run is recovered from its value** and its length. -/
theorem bytes_value (run : List UInt8) : bytes run.length (value run) = run := by
  induction run with
  | nil => rfl
  | cons b run ih =>
    have hfirst : value (b :: run) / limit run.length = b.toNat := by
      rw [value_cons, Nat.add_comm, Nat.add_mul_div_right _ _ (limit_pos _),
        Nat.div_eq_of_lt (value_lt run), Nat.zero_add]
    rw [List.length_cons, bytes, hfirst, value_cons, bytes_add_mul, ih, UInt8.ofNat_toNat]

end BigEndian
end ClassFormat
