import Mathlib.Data.Int.Log
import Mathlib.Data.Rat.Floor
import Mathlib.Tactic.FieldSimp
import Mathlib.Tactic.GCongr
import Mathlib.Tactic.Linarith

/-! # Rounding, to integers and to doubles

`Rat.roundHalfEven` rounds to the nearest integer, the even one of two. `Binary64` are the doubles
of IEEE 754, each finite one kept as the number it stands for, so that an operation is the exact one
and then `Binary64.round`: to the nearest multiple of the distance between neighbours, and to an
infinity beyond the largest. The two zeros are one number here, and there is one NaN.
-/

namespace Rat

/-- Round half to even. -/
def roundHalfEven (q : ℚ) : ℤ :=
  let floor := ⌊q⌋
  if q - floor < 1 / 2 then floor
  else if q - floor > 1 / 2 then floor + 1
  else if floor % 2 = 0 then floor
  else floor + 1

/-- Rounding adds at most a half. -/
theorem roundHalfEven_le (q : ℚ) : roundHalfEven q ≤ q + 1 / 2 := by
  have floor := Int.floor_le q
  unfold roundHalfEven
  dsimp only
  split_ifs <;> push_cast <;> linarith

/-- Rounding takes off at most a half. -/
theorem le_roundHalfEven (q : ℚ) : q ≤ roundHalfEven q + 1 / 2 := by
  have floor := Int.lt_floor_add_one q
  unfold roundHalfEven
  dsimp only
  split_ifs <;> push_cast <;> linarith

@[simp] theorem roundHalfEven_intCast (n : ℤ) : roundHalfEven n = n := by
  simp [roundHalfEven]

theorem roundHalfEven_mono {q r : ℚ} (le : q ≤ r) : roundHalfEven q ≤ roundHalfEven r := by
  by_contra less
  have step : roundHalfEven r + 1 ≤ roundHalfEven q := by omega
  have apart : (roundHalfEven r : ℚ) + 1 ≤ roundHalfEven q := by exact_mod_cast step
  have above := roundHalfEven_le q
  have below := le_roundHalfEven r
  -- two halves are not enough for a step of one, unless the arguments are equal
  have same : q = r := by linarith
  rw [same] at less
  exact less le_rfl

theorem roundHalfEven_nonneg {q : ℚ} (nonneg : 0 ≤ q) : 0 ≤ roundHalfEven q := by
  have zero : roundHalfEven 0 = 0 := by exact_mod_cast roundHalfEven_intCast 0
  rw [← zero]
  exact roundHalfEven_mono nonneg

/-- The number without its fraction, as `modf` takes it. -/
def truncate (q : ℚ) : ℤ := if 0 ≤ q then ⌊q⌋ else ⌈q⌉

theorem truncate_of_nonneg {q : ℚ} (nonneg : 0 ≤ q) : q.truncate = ⌊q⌋ := if_pos nonneg

end Rat

/-- An IEEE 754 double. -/
inductive Binary64
  | finite (value : ℚ)
  | infinite (negative : Bool)
  | nan
deriving DecidableEq, Repr

namespace Binary64

/-- The distance between neighbouring doubles around a number. -/
def ulp (q : ℚ) : ℚ := 2 ^ (max (Int.log 2 |q|) (-1022) - 52)

/-- The nearest number that is a multiple of that distance. -/
def nearest (q : ℚ) : ℚ := (q / ulp q).roundHalfEven * ulp q

/-- The double nearest to a number. -/
def round (q : ℚ) : Binary64 :=
  if |nearest q| < 2 ^ 1024 then .finite (nearest q) else .infinite (decide (q < 0))

def add : Binary64 → Binary64 → Binary64
  | .finite x, .finite y => round (x + y)
  | .infinite s, .infinite t => if s = t then .infinite s else .nan
  | .infinite s, .finite _ => .infinite s
  | .finite _, .infinite t => .infinite t
  | _, _ => .nan

def mul : Binary64 → Binary64 → Binary64
  | .finite x, .finite y => round (x * y)
  | .infinite s, .infinite t => .infinite (s ^^ t)
  | .infinite s, .finite y => if y = 0 then .nan else .infinite (s ^^ decide (y < 0))
  | .finite x, .infinite t => if x = 0 then .nan else .infinite (decide (x < 0) ^^ t)
  | _, _ => .nan

/-- `x < y`, which no NaN satisfies. -/
def lt : Binary64 → Binary64 → Bool
  | .finite x, .finite y => decide (x < y)
  | .infinite s, .infinite t => s && !t
  | .infinite s, .finite _ => s
  | .finite _, .infinite t => !t
  | _, _ => false

/-! ## Rounding numbers that are not negative -/

theorem ulp_pos (q : ℚ) : 0 < ulp q := zpow_pos (by norm_num) _

/-- Below `2 ^ 53` neighbours are at most one apart. -/
theorem ulp_le_one {q : ℚ} (small : |q| < 2 ^ 53) : ulp q ≤ 1 := by
  have exponent : Int.log 2 |q| ≤ 52 := by
    by_cases zero : q = 0
    · rw [zero, abs_zero, Int.log_zero_right]
      norm_num
    · have below : |q| < ((2 : ℕ) : ℚ) ^ (53 : ℤ) := by exact_mod_cast small
      have := (Int.lt_zpow_iff_log_lt (by norm_num) (abs_pos.mpr zero)).mp below
      omega
  exact zpow_le_one_of_nonpos₀ (by norm_num) (by omega)

theorem nearest_nonneg {q : ℚ} (nonneg : 0 ≤ q) : 0 ≤ nearest q := by
  have scaled : 0 ≤ (q / ulp q).roundHalfEven :=
    Rat.roundHalfEven_nonneg (div_nonneg nonneg (ulp_pos q).le)
  exact mul_nonneg (by exact_mod_cast scaled) (ulp_pos q).le

/-- Numbers below `2 ^ 53` are rounded by a half at most. -/
theorem nearest_le {q : ℚ} (small : |q| < 2 ^ 53) : nearest q ≤ q + 1 / 2 := by
  have scale := ulp_pos q
  have apart := ulp_le_one small
  calc nearest q ≤ (q / ulp q + 1 / 2) * ulp q := by
        unfold nearest
        gcongr
        exact Rat.roundHalfEven_le _
    _ = q + ulp q / 2 := by field_simp
    _ ≤ q + 1 / 2 := by linarith

theorem round_of_lt {q : ℚ} (nonneg : 0 ≤ q) (small : q < 2 ^ 53) :
    round q = .finite (nearest q) := by
  have near := nearest_le (by rwa [abs_of_nonneg nonneg])
  refine if_pos ?_
  rw [abs_of_nonneg (nearest_nonneg nonneg)]
  calc nearest q ≤ 2 ^ 54 := by linarith
    _ < 2 ^ 1024 := pow_lt_pow_right₀ (by norm_num) (by norm_num)

/-- A number that is not negative, or the positive infinity. -/
def Nonneg (x : Binary64) : Prop := (∃ value, x = .finite value ∧ 0 ≤ value) ∨ x = .infinite false

theorem nonneg_round {q : ℚ} (nonneg : 0 ≤ q) : (round q).Nonneg := by
  unfold round
  split_ifs
  · exact .inl ⟨_, rfl, nearest_nonneg nonneg⟩
  · rw [decide_eq_false (not_lt.mpr nonneg)]
    exact .inr rfl

theorem Nonneg.mul {x : Binary64} (nonneg : x.Nonneg) {factor : ℚ} (positive : 0 < factor) :
    (x.mul (.finite factor)).Nonneg := by
  rcases nonneg with ⟨value, rfl, nonneg⟩ | rfl
  · exact nonneg_round (mul_nonneg nonneg positive.le)
  · simp only [Binary64.mul, if_neg positive.ne', decide_eq_false positive.not_gt]
    exact .inr rfl

end Binary64
