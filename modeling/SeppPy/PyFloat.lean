import SeppPy.Errors

/-! # Floats and the durations made of them

`PyFloat` has the operations on Python's `float` that the client uses: numbers are exact, or they
are doubles. `timedelta(seconds=x)` takes the integer part of `x` and rounds the rest to
microseconds; it raises where `x` is no number and where the result is out of range.
-/

namespace SeppPy

/-- A reading of `float`. -/
class PyFloat (F : Type) where
  /-- The float nearest to a number. -/
  ofRat : ℚ → F
  add : F → F → F
  mul : F → F → F
  /-- `x < y`. -/
  lt : F → F → Bool
  /-- The number that a float is, where an infinity and a NaN raise as `int` does. -/
  exact : F → Except PyError ℚ

/-- Exact arithmetic. -/
instance : PyFloat ℚ where
  ofRat q := q
  add := (· + ·)
  mul := (· * ·)
  lt x y := decide (x < y)
  exact := .ok

instance : PyFloat Binary64 where
  ofRat := Binary64.round
  add := Binary64.add
  mul := Binary64.mul
  lt := Binary64.lt
  exact
    | .finite value => .ok value
    | .infinite _ => .error (.overflowError "cannot convert float infinity to integer")
    | .nan => .error (.valueError "cannot convert float NaN to integer")

namespace PyFloat

variable {F : Type} [PyFloat F]

/-- `min(x, y)`. -/
def min (x y : F) : F := if lt y x then y else x

/-- `max(x, y)`. -/
def max (x y : F) : F := if lt x y then y else x

theorem max_max (x y : F) : max x (max x y) = max x y := by
  unfold max
  split_ifs <;> rfl

@[simp] theorem min_rat (x y : ℚ) : min x y = Min.min x y := by
  simp only [min, lt, decide_eq_true_eq]
  split_ifs with less
  · exact (min_eq_right less.le).symm
  · exact (min_eq_left (not_lt.mp less)).symm

@[simp] theorem max_rat (x y : ℚ) : max x y = Max.max x y := by
  simp only [max, lt, decide_eq_true_eq]
  split_ifs with less
  · exact (max_eq_right less.le).symm
  · exact (max_eq_left (not_lt.mp less)).symm

/-- The smaller of a number that is not negative and a maximum is a number between. -/
theorem min_of_nonneg {x : Binary64} (nonneg : x.Nonneg) {top : ℚ} (positive : 0 ≤ top) :
    ∃ value, min x (.finite top) = .finite value ∧ 0 ≤ value ∧ value ≤ top := by
  rcases nonneg with ⟨value, rfl, nonneg⟩ | rfl
  · by_cases less : top < value
    · exact ⟨top, if_pos (decide_eq_true less), positive, le_rfl⟩
    · refine ⟨value, if_neg ?_, nonneg, not_lt.mp less⟩
      simpa [PyFloat.lt, Binary64.lt] using less
  · exact ⟨top, rfl, positive, le_rfl⟩

end PyFloat

namespace Timedelta

/-- `timedelta.min`. -/
def MIN : Timedelta := -86399999913600000000

/-- `timedelta.max`. -/
def MAX : Timedelta := 86399999999999999999

/-- A number of microseconds as a `timedelta`, which holds its days in so many digits. -/
def ofMicros (micros : ℤ) : Except PyError Timedelta :=
  if MIN ≤ micros ∧ micros ≤ MAX then .ok micros
  else
    let days := micros / 86400000000
    if -2147483648 ≤ days ∧ days ≤ 2147483647 then
      .error (.overflowError s!"days={days}; must have magnitude <= 999999999")
    else .error (.overflowError "Python int too large to convert to C int")

variable {F : Type} [PyFloat F]

open PyFloat in
/-- `td.total_seconds()`. -/
def totalSeconds (td : Timedelta) : F := ofRat (td / 1000000)

open PyFloat in
/-- `timedelta(seconds=seconds)`. -/
def ofSeconds (seconds : F) : Except PyError Timedelta := do
  let value ← exact seconds
  let micros ← exact (mul (ofRat (value - value.truncate) : F) (ofRat 1000000))
  ofMicros (value.truncate * 1000000 + micros.roundHalfEven)

theorem ofMicros_ok_iff {micros : ℤ} {td : Timedelta} :
    ofMicros micros = .ok td ↔ (MIN ≤ micros ∧ micros ≤ MAX) ∧ td = micros := by
  unfold ofMicros
  dsimp only
  split_ifs with range
  · rw [and_iff_right range, Except.ok.injEq, eq_comm]
  · exact iff_of_false (nomatch ·) fun held => range held.1
  · exact iff_of_false (nomatch ·) fun held => range held.1

/-! ## Exact arithmetic -/

theorem totalSeconds_rat (td : Timedelta) : (totalSeconds td : ℚ) = td / 1000000 := rfl

theorem totalSeconds_le_iff {td td' : Timedelta} :
    (totalSeconds td : ℚ) ≤ totalSeconds td' ↔ (td : ℤ) ≤ td' := by
  rw [totalSeconds_rat, totalSeconds_rat, div_le_div_iff_of_pos_right (by norm_num), Int.cast_le]

/-- An even number can be taken out of what is rounded. -/
theorem roundHalfEven_add_even (n : ℤ) (q : ℚ) :
    (2 * n + q).roundHalfEven = 2 * n + q.roundHalfEven := by
  have floor : ⌊2 * (n : ℚ) + q⌋ = 2 * n + ⌊q⌋ := by
    rw [← Int.floor_intCast_add]
    push_cast
    rfl
  have fraction : 2 * (n : ℚ) + q - (2 * n + ⌊q⌋ : ℤ) = q - ⌊q⌋ := by push_cast; ring
  have parity : (2 * n + ⌊q⌋) % 2 = ⌊q⌋ % 2 := by omega
  unfold Rat.roundHalfEven
  simp only [floor, fraction, parity]
  split_ifs <;> ring

/-- In exact arithmetic the microseconds are rounded once. -/
theorem ofSeconds_rat (seconds : ℚ) :
    ofSeconds seconds = ofMicros (seconds * 1000000).roundHalfEven := by
  have split : seconds * 1000000 =
      2 * (seconds.truncate * 500000 : ℤ) + (seconds - seconds.truncate) * 1000000 := by
    push_cast
    ring
  have rounded : (seconds * 1000000).roundHalfEven = seconds.truncate * 1000000 +
      ((seconds - seconds.truncate) * 1000000).roundHalfEven := by
    rw [split, roundHalfEven_add_even]
    ring
  rw [rounded]
  rfl

/-! ## Doubles -/

/-- The fraction of the seconds is rounded to a double, multiplied and rounded again, but never to
more than two seconds. -/
theorem ofSeconds_finite {value : ℚ} (nonneg : 0 ≤ value) :
    ∃ micros : ℤ, 0 ≤ micros ∧ micros ≤ 2000000 ∧
      ofSeconds (Binary64.finite value) = ofMicros (⌊value⌋ * 1000000 + micros) := by
  have rest : 0 ≤ value - ⌊value⌋ := by linarith [Int.floor_le value]
  have part : value - ⌊value⌋ < 1 := by linarith [Int.lt_floor_add_one value]
  obtain ⟨fraction, rounded, positive, near⟩ : ∃ fraction,
      Binary64.round (value - ⌊value⌋) = .finite fraction ∧ 0 ≤ fraction ∧ fraction ≤ 3 / 2 := by
    refine ⟨_, Binary64.round_of_lt rest (by linarith), Binary64.nearest_nonneg rest, ?_⟩
    have := Binary64.nearest_le (q := value - ⌊value⌋) (by rw [abs_of_nonneg rest]; linarith)
    linarith
  have product : 0 ≤ fraction * 1000000 := by positivity
  have small : fraction * 1000000 < 2 ^ 53 := by linarith
  have scaled : PyFloat.mul (Binary64.finite fraction) (PyFloat.ofRat 1000000) =
      .finite (Binary64.nearest (fraction * 1000000)) := by
    have million : (PyFloat.ofRat 1000000 : Binary64) = .finite 1000000 := by decide +kernel
    rw [million]
    exact Binary64.round_of_lt product small
  refine ⟨(Binary64.nearest (fraction * 1000000)).roundHalfEven,
    Rat.roundHalfEven_nonneg (Binary64.nearest_nonneg product), ?_, ?_⟩
  · have first := Binary64.nearest_le (by rwa [abs_of_nonneg product])
    have second := Rat.roundHalfEven_le (Binary64.nearest (fraction * 1000000))
    have all : ((Binary64.nearest (fraction * 1000000)).roundHalfEven : ℚ) ≤ 2000000 := by linarith
    exact_mod_cast all
  · have fraction_eq : (PyFloat.ofRat (value - ⌊value⌋) : Binary64) = .finite fraction := rounded
    unfold ofSeconds
    simp only [PyFloat.exact, bind, Except.bind, Rat.truncate_of_nonneg nonneg, fraction_eq, scaled]

/-- A day short of the longest `timedelta`, no rounding leads out of range. -/
theorem ofSeconds_of_le {value : ℚ} (nonneg : 0 ≤ value) (fits : value ≤ 86399999913600) :
    ∃ td, ofSeconds (Binary64.finite value) = .ok td ∧ 0 ≤ (td : ℤ) := by
  have floor_nonneg : (0 : ℤ) ≤ ⌊value⌋ := Int.floor_nonneg.mpr nonneg
  have floor_le : ⌊value⌋ ≤ 86399999913600 := by
    have := (Int.floor_le value).trans fits
    exact_mod_cast this
  obtain ⟨micros, micros_nonneg, micros_le, split⟩ := ofSeconds_finite nonneg
  obtain ⟨all, all_eq⟩ : ∃ all : ℤ, all = ⌊value⌋ * 1000000 + micros := ⟨_, rfl⟩
  have all_nonneg : 0 ≤ all := by omega
  have all_le : all ≤ 86399999999999999999 := by omega
  refine ⟨all, ?_, all_nonneg⟩
  rw [split, ← all_eq, ofMicros_ok_iff]
  exact ⟨⟨le_trans (by decide) all_nonneg, all_le⟩, rfl⟩

end Timedelta

end SeppPy
