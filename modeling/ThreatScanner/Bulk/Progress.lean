import ThreatScanner.Bulk.System

/-!
# The progress of a bulk scan

`percent` is computed in doubles: a division, a multiplication and a rounding to two decimals, each
followed by the rounding to a double. It is monotone, reaches 100 with the last target, and is off
the exact percentage by no more than the rounding to two decimals and the last bits.
-/

namespace ThreatScanner.Bulk

open Rounding

variable {x y : ℚ} {completed completed' total : Nat}

theorem double_mono (hx : 0 ≤ x) (h : x ≤ y) : double x ≤ double y :=
  roundToBits_mono (by decide) hx h

theorem double_nonneg (hx : 0 ≤ x) : 0 ≤ double x := roundToBits_nonneg hx

theorem double_natCast {n : Nat} (h : n < 2 ^ 53) : double n = n := roundToBits_natCast h

theorem abs_double_sub_le (hx : 0 ≤ x) : |double x - x| ≤ x / 2 ^ 53 := abs_roundToBits_sub_le hx

/-- `round(x, 2)` on doubles. -/
def roundCents (x : ℚ) : ℚ := double (roundTo (1 / 100) x)

theorem roundCents_mono (hx : 0 ≤ x) (h : x ≤ y) : roundCents x ≤ roundCents y :=
  double_mono (roundTo_nonneg (by norm_num) hx) (roundTo_mono (by norm_num) h)

theorem roundTo_hundred : roundTo (1 / 100 : ℚ) 100 = 100 := by
  have hunit : (0 : ℚ) < 1 / 100 := by norm_num
  have h := roundTo_mul hunit 10000
  norm_num at h
  exact h

theorem double_one : double 1 = 1 := by
  have := double_natCast (show 1 < 2 ^ 53 by norm_num)
  rwa [Nat.cast_one] at this

theorem double_hundred : double 100 = 100 := by
  have := double_natCast (show 100 < 2 ^ 53 by norm_num)
  rwa [Nat.cast_ofNat] at this

theorem percent_mono (h : completed ≤ completed') :
    percent completed total ≤ percent completed' total := by
  have hmax : (0 : ℚ) ≤ (max total 1 : ℕ) := Nat.cast_nonneg _
  have hquotient : (completed / (max total 1 : ℕ) : ℚ) ≤ completed' / (max total 1 : ℕ) :=
    div_le_div_of_nonneg_right (Nat.cast_le.mpr h) hmax
  have hnonneg : (0 : ℚ) ≤ completed / (max total 1 : ℕ) := div_nonneg (Nat.cast_nonneg _) hmax
  have hproduct : double (completed / (max total 1 : ℕ)) * 100 ≤
      double (completed' / (max total 1 : ℕ)) * 100 :=
    mul_le_mul_of_nonneg_right (double_mono hnonneg hquotient) (by norm_num)
  have hproductNonneg : 0 ≤ double (completed / (max total 1 : ℕ) : ℚ) * 100 :=
    mul_nonneg (double_nonneg hnonneg) (by norm_num)
  exact roundCents_mono (double_nonneg hproductNonneg) (double_mono hproductNonneg hproduct)

theorem percent_zero (total : Nat) : percent 0 total = 0 := by
  simp [percent, double, roundToBits, roundTo, roundHalfEven]

theorem percent_self (h : 0 < total) : percent total total = 100 := by
  have hmax : max total 1 = total := Nat.max_eq_left h
  rw [percent, hmax, div_self (Nat.cast_pos.mpr h).ne', double_one, one_mul, double_hundred,
    roundTo_hundred, double_hundred]

theorem percent_le_hundred (h : completed ≤ total) : percent completed total ≤ 100 := by
  rcases total.eq_zero_or_pos with rfl | hpos
  · rw [Nat.le_zero.mp h, percent_zero]
    norm_num
  · exact (percent_mono h).trans (percent_self hpos).le

/-- The percentage is off by the rounding to cents and by the last bits of three doubles. -/
theorem abs_percent_sub_le (hpos : 0 < total) (h : completed ≤ total) :
    |percent completed total - 100 * (completed / total)| ≤ 1 / 200 + 300 / 2 ^ 53 := by
  have hmax : max total 1 = total := Nat.max_eq_left hpos
  have htotal : (0 : ℚ) < total := Nat.cast_pos.mpr hpos
  rw [percent, hmax]
  generalize hq : (completed / total : ℚ) = q
  have hq0 : 0 ≤ q := hq ▸ div_nonneg (Nat.cast_nonneg _) htotal.le
  have hq1 : q ≤ 1 := hq ▸ (div_le_one htotal).mpr (Nat.cast_le.mpr h)
  -- the quotient
  have hd := abs_le.mp (abs_double_sub_le hq0)
  have hd0 : 0 ≤ double q := double_nonneg hq0
  have hd1 : double q ≤ 1 := (double_mono hq0 hq1).trans_eq double_one
  generalize double q = d at hd hd0 hd1 ⊢
  -- the product
  have hm0 : 0 ≤ d * 100 := mul_nonneg hd0 (by norm_num)
  have hm1 : d * 100 ≤ 100 := by linarith
  have he := abs_le.mp (abs_double_sub_le hm0)
  have he0 : 0 ≤ double (d * 100) := double_nonneg hm0
  have he1 : double (d * 100) ≤ 100 := (double_mono hm0 hm1).trans_eq double_hundred
  generalize double (d * 100) = e at he he0 he1 ⊢
  -- the rounding to cents
  have hunit : (0 : ℚ) < 1 / 100 := by norm_num
  have hr := abs_le.mp (abs_roundTo_sub_le hunit e)
  have hr0 : 0 ≤ roundTo (1 / 100) e := roundTo_nonneg hunit he0
  have hr1 : roundTo (1 / 100) e ≤ 100 := (roundTo_mono hunit he1).trans_eq roundTo_hundred
  generalize roundTo (1 / 100) e = r at hr hr0 hr1 ⊢
  have hf := abs_le.mp (abs_double_sub_le hr0)
  rw [abs_le]
  constructor <;> linarith [hd.1, hd.2, he.1, he.2, hr.1, hr.2, hf.1, hf.2]

end ThreatScanner.Bulk
