import Mathlib.Data.Int.Log
import Mathlib.Data.Rat.Floor
import Mathlib.Tactic

/-!
Doubles as the rationals they stand for. A rational is rounded to the nearest
one, to the even one of two, and to none if it is too large for any. The
integers below 2^53 are their own. A rounding moves a number by a part in 2^53
at most, so that a chain of them stays as near as there are steps.
-/

namespace Doubles

/-- The nearest integer, of two the even one. -/
def nearest (q : ℚ) : ℤ :=
  if q - ⌊q⌋ < 1 / 2 then ⌊q⌋
  else if q - ⌊q⌋ = 1 / 2 ∧ ⌊q⌋ % 2 = 0 then ⌊q⌋
  else ⌊q⌋ + 1

/-- What the last of the 53 bits of a double next to a rational counts. -/
def ulp (q : ℚ) : ℚ := 2 ^ (max (Int.log 2 |q|) (-1022) - 52)

/-- The nearest double, were none too large. -/
def rounded (q : ℚ) : ℚ := nearest (q / ulp q) * ulp q

def double (q : ℚ) : Option ℚ := if |rounded q| < 2 ^ 1024 then some (rounded q) else none

theorem nearest_intCast (n : ℤ) : nearest n = n := by
  have hfloor : ⌊(n : ℚ)⌋ = n := Int.floor_intCast n
  rw [nearest, hfloor, sub_self]
  exact if_pos (by norm_num)

theorem ulp_pos (q : ℚ) : 0 < ulp q := zpow_pos (by norm_num) _

/-- A multiple of its own last bit is not rounded. -/
theorem rounded_of_multiple {q : ℚ} {k : ℤ} (hq : q = k * ulp q) : rounded q = q := by
  have hdiv : q / ulp q = k := by
    rw [div_eq_iff (ulp_pos q).ne']
    exact hq
  rw [rounded, hdiv, nearest_intCast, ← hq]

theorem double_of_multiple {q : ℚ} {k : ℤ} (hq : q = k * ulp q) (hsmall : |q| < 2 ^ 1024) :
    double q = some q := by
  rw [double, rounded_of_multiple hq, if_pos hsmall]

theorem double_intCast {n : ℤ} (h : |n| < 2 ^ 53) : double n = some (n : ℚ) := by
  have habs : |(n : ℚ)| < 2 ^ 53 := by exact_mod_cast h
  have hsmall : |(n : ℚ)| < 2 ^ 1024 := habs.trans (pow_lt_pow_right₀ (by norm_num) (by norm_num))
  by_cases hzero : n = 0
  · subst hzero
    exact double_of_multiple (k := 0) (by simp) hsmall
  · have hone : (1 : ℚ) ≤ |(n : ℚ)| := by exact_mod_cast Int.one_le_abs hzero
    -- the last bit counts one or less
    obtain ⟨k, hk⟩ : ∃ k : ℕ, max (Int.log 2 |(n : ℚ)|) (-1022) - 52 = -(k : ℤ) := by
      have hlog : Int.log 2 |(n : ℚ)| < 53 :=
        (Int.lt_zpow_iff_log_lt (by norm_num) (by linarith)).mp (by exact_mod_cast habs)
      exact ⟨(52 - max (Int.log 2 |(n : ℚ)|) (-1022)).toNat, by omega⟩
    refine double_of_multiple (k := n * 2 ^ k) ?_ hsmall
    have hulp : ulp n = (2 ^ k : ℚ)⁻¹ := by
      rw [ulp, hk, zpow_neg, zpow_natCast]
    have hpow : (2 ^ k : ℚ) ≠ 0 := by positivity
    rw [hulp]
    push_cast
    exact (mul_inv_cancel_right₀ hpow _).symm

/-! How far a rounding moves a number. -/

theorem nearest_cases (q : ℚ) : nearest q = ⌊q⌋ ∧ q - ⌊q⌋ ≤ 1 / 2 ∨
    nearest q = ⌊q⌋ + 1 ∧ 1 / 2 ≤ q - ⌊q⌋ := by
  unfold nearest
  split
  · rename_i hbelow
    exact .inl ⟨rfl, hbelow.le⟩
  · rename_i habove
    split
    · rename_i hhalf
      exact .inl ⟨rfl, hhalf.1.le⟩
    · exact .inr ⟨rfl, not_lt.mp habove⟩

theorem nearest_near (q : ℚ) : |nearest q - q| ≤ 1 / 2 := by
  have hle : (⌊q⌋ : ℚ) ≤ q := Int.floor_le q
  have hlt : q < ⌊q⌋ + 1 := Int.lt_floor_add_one q
  rw [abs_le]
  rcases nearest_cases q with ⟨hdown, hpart⟩ | ⟨hup, hpart⟩
  · rw [hdown]
    constructor <;> linarith
  · rw [hup]
    push_cast
    constructor <;> linarith

theorem le_nearest {n : ℤ} {q : ℚ} (h : n ≤ q) : n ≤ nearest q := by
  have hfloor : n ≤ ⌊q⌋ := Int.le_floor.mpr h
  rcases nearest_cases q with ⟨hdown, -⟩ | ⟨hup, -⟩
  · omega
  · omega

@[simp] theorem rounded_zero : rounded 0 = 0 := rounded_of_multiple (k := 0) (by simp)

section Normal

variable {q : ℚ} {k : ℤ}

theorem ulp_eq (hk : -1022 ≤ k) (h : 2 ^ k ≤ q) : ulp q = 2 ^ (Int.log 2 q - 52) := by
  have hq : 0 < q := (zpow_pos (by norm_num) k).trans_le h
  have hlog : k ≤ Int.log 2 q := (Int.zpow_le_iff_le_log (by norm_num) hq).mp (by exact_mod_cast h)
  rw [ulp, abs_of_pos hq, max_eq_left (hk.trans hlog)]

theorem mantissa_mul (e : ℤ) : (2 : ℚ) ^ 52 * 2 ^ (e - 52) = 2 ^ e := by
  rw [zpow_sub₀ (by norm_num)]
  norm_num
  ring

/-- The last bit of a number counts a part in 2^52 of it at most. -/
theorem ulp_le (hk : -1022 ≤ k) (h : 2 ^ k ≤ q) : 2 ^ 52 * ulp q ≤ q := by
  have hq : 0 < q := (zpow_pos (by norm_num) k).trans_le h
  have hlog : (2 : ℚ) ^ Int.log 2 q ≤ q := by
    exact_mod_cast Int.zpow_log_le_self (b := 2) (by norm_num) hq
  rw [ulp_eq hk h, mantissa_mul]
  exact hlog

theorem rounded_near (hk : -1022 ≤ k) (h : 2 ^ k ≤ q) : |rounded q - q| ≤ q / 2 ^ 53 := by
  have hulp := ulp_pos q
  have hle := ulp_le hk h
  have hsplit : rounded q - q = (nearest (q / ulp q) - q / ulp q) * ulp q := by
    rw [rounded, sub_mul, div_mul_cancel₀ q hulp.ne']
  rw [hsplit, abs_mul, abs_of_pos hulp]
  calc |(nearest (q / ulp q) : ℚ) - q / ulp q| * ulp q
      ≤ 1 / 2 * ulp q := mul_le_mul_of_nonneg_right (nearest_near _) hulp.le
    _ ≤ q / 2 ^ 53 := by
        rw [le_div_iff₀ (by norm_num)]
        linarith

/-- A power of two is not rounded past. -/
theorem zpow_le_rounded (hk : -1022 ≤ k) (h : 2 ^ k ≤ q) : 2 ^ k ≤ rounded q := by
  have hq : 0 < q := (zpow_pos (by norm_num) k).trans_le h
  have hlog : k ≤ Int.log 2 q := (Int.zpow_le_iff_le_log (by norm_num) hq).mp (by exact_mod_cast h)
  have hmantissa : ((2 ^ 52 : ℤ) : ℚ) ≤ q / ulp q := by
    rw [le_div_iff₀ (ulp_pos q)]
    push_cast
    exact ulp_le hk h
  have hnearest : (2 ^ 52 : ℚ) ≤ nearest (q / ulp q) := by exact_mod_cast le_nearest hmantissa
  calc (2 : ℚ) ^ k ≤ 2 ^ Int.log 2 q := zpow_le_zpow_right₀ (by norm_num) hlog
    _ = 2 ^ 52 * ulp q := by rw [ulp_eq hk h, mantissa_mul]
    _ ≤ rounded q := mul_le_mul_of_nonneg_right hnearest (ulp_pos q).le

theorem one_le_rounded (h : 1 ≤ q) : 1 ≤ rounded q := by
  have hpow := zpow_le_rounded (k := 0) (q := q) (by norm_num) (by rw [zpow_zero]; exact h)
  rw [zpow_zero] at hpow
  exact hpow

theorem half_le_rounded (h : 1 / 2 ≤ q) : 1 / 2 ≤ rounded q := by
  have hpow := zpow_le_rounded (k := -1) (q := q) (by norm_num) (by rw [zpow_neg_one]; linarith)
  rw [zpow_neg_one] at hpow
  linarith

end Normal

/-- As near to a number as so many roundings leave one. -/
def Within (k : ℕ) (x z : ℚ) : Prop := |x - z| ≤ k * (z / 2 ^ 52)

section Within

variable {k l : ℕ} {x y z w : ℚ}

theorem within_self (z : ℚ) : Within 0 z z := by
  simp [Within]

theorem Within.mono (h : Within k x z) (hz : 0 ≤ z) (hkl : k ≤ l) : Within l x z := by
  have hcast : (k : ℚ) ≤ l := by exact_mod_cast hkl
  exact h.trans (mul_le_mul_of_nonneg_right hcast (by positivity))

theorem Within.add (hx : Within k x z) (hy : Within k y w) : Within k (x + y) (z + w) := by
  have hsplit : x + y - (z + w) = (x - z) + (y - w) := by ring
  unfold Within at *
  rw [hsplit, add_div, mul_add]
  exact (abs_add_le _ _).trans (add_le_add hx hy)

theorem Within.mul (h : Within k x z) {c : ℚ} (hc : 0 ≤ c) : Within k (x * c) (z * c) := by
  unfold Within at *
  rw [← sub_mul, abs_mul, abs_of_nonneg hc, mul_div_right_comm, ← mul_assoc]
  exact mul_le_mul_of_nonneg_right h hc

/-- One rounding more. -/
theorem Within.rounded (h : Within k x z) (hz : 0 ≤ z) (hk : k ≤ 2 ^ 20) (hx : x = 0 ∨ 1 / 2 ≤ x) :
    Within (k + 1) (Doubles.rounded x) z := by
  rcases hx with rfl | hx
  · rw [rounded_zero]
    exact h.mono hz (Nat.le_succ k)
  · have hround : |Doubles.rounded x - x| ≤ x / 2 ^ 53 :=
      rounded_near (k := -1) (by norm_num) (by rw [zpow_neg_one]; linarith)
    have hcast : (k : ℚ) ≤ 2 ^ 20 := by exact_mod_cast hk
    have hfactor : (k : ℚ) * (z / 2 ^ 52) ≤ z := by
      calc (k : ℚ) * (z / 2 ^ 52) ≤ 2 ^ 20 * (z / 2 ^ 52) :=
            mul_le_mul_of_nonneg_right hcast (by positivity)
        _ ≤ z := by linarith
    have hdouble : x ≤ 2 * z := by
      have hle := (abs_le.mp h).2
      linarith
    have hsplit : Doubles.rounded x - z = (Doubles.rounded x - x) + (x - z) := by ring
    have hstep : x / 2 ^ 53 ≤ z / 2 ^ 52 := by linarith
    unfold Within
    push_cast
    rw [hsplit, add_mul, one_mul, add_comm (_ * _)]
    exact (abs_add_le _ _).trans (add_le_add (hround.trans hstep) h)

end Within

end Doubles
