import Mathlib.Algebra.Order.Round
import Mathlib.Data.Int.Log
import Mathlib.Data.Rat.Floor
import Mathlib.Tactic.FieldSimp
import Mathlib.Tactic.Linarith
import Mathlib.Tactic.Positivity

/-!
# Rounding half to even

Rounding to the nearest integer with ties to even (`roundHalfEven`), to the nearest multiple of a
unit (`roundTo`) and to a binary significand of a given width (`roundToBits`, without bounds on the
exponent). All three are monotone and keep what they can represent, and the error is at most half
a unit.
-/

namespace ThreatScanner.Rounding

variable {K : Type*} [Field K] [LinearOrder K] [FloorRing K]

/-! ## To integers -/

def roundHalfEven (x : K) : ℤ :=
  if 2 * Int.fract x < 1 then ⌊x⌋
  else if 1 < 2 * Int.fract x then ⌊x⌋ + 1
  else if ⌊x⌋ % 2 = 0 then ⌊x⌋ else ⌊x⌋ + 1

theorem floor_le_roundHalfEven (x : K) : ⌊x⌋ ≤ roundHalfEven x := by
  unfold roundHalfEven
  split_ifs <;> omega

theorem roundHalfEven_le_floor_add_one (x : K) : roundHalfEven x ≤ ⌊x⌋ + 1 := by
  unfold roundHalfEven
  split_ifs <;> omega

variable [IsStrictOrderedRing K]

theorem roundHalfEven_intCast (n : ℤ) : roundHalfEven (n : K) = n := by
  simp [roundHalfEven]

theorem roundHalfEven_mono {x y : K} (h : x ≤ y) : roundHalfEven x ≤ roundHalfEven y := by
  rcases (Int.floor_le_floor h).lt_or_eq with hlt | heq
  · calc roundHalfEven x ≤ ⌊x⌋ + 1 := roundHalfEven_le_floor_add_one x
      _ ≤ ⌊y⌋ := hlt
      _ ≤ roundHalfEven y := floor_le_roundHalfEven y
  · have hfract : Int.fract x ≤ Int.fract y := by
      rw [Int.fract, Int.fract, heq]
      linarith
    unfold roundHalfEven
    rw [heq]
    split_ifs <;> first | omega | linarith

/-- An even integer is reached from half a unit below it on, a tie included. -/
theorem le_roundHalfEven_iff {m : ℤ} (hm : m % 2 = 0) {x : K} :
    m ≤ roundHalfEven x ↔ (m : K) - 1 / 2 ≤ x := by
  constructor
  · intro h
    by_contra hlt
    have hx : x < m - 1 / 2 := not_le.mp hlt
    have hfloor : ⌊x⌋ < m := Int.floor_lt.mpr (by linarith)
    have hle := roundHalfEven_le_floor_add_one x
    have hsame : ⌊x⌋ = m - 1 := by omega
    have hfract : 2 * Int.fract x < 1 := by
      rw [Int.fract, hsame]
      push_cast
      linarith
    rw [roundHalfEven, if_pos hfract] at h
    omega
  · intro h
    have hfloor : ⌊(m : K) - 1 / 2⌋ = m - 1 := by
      rw [Int.floor_eq_iff]
      push_cast
      constructor <;> linarith
    have hfract : 2 * Int.fract ((m : K) - 1 / 2) = 1 := by
      rw [Int.fract, hfloor]
      push_cast
      ring
    have htie : roundHalfEven ((m : K) - 1 / 2) = m := by
      rw [roundHalfEven, hfract, if_neg (lt_irrefl _), if_neg (lt_irrefl _), hfloor,
        if_neg (by omega), sub_add_cancel]
    calc m = roundHalfEven ((m : K) - 1 / 2) := htie.symm
      _ ≤ roundHalfEven x := roundHalfEven_mono h

theorem abs_roundHalfEven_sub_le (x : K) : |(roundHalfEven x : K) - x| ≤ 1 / 2 := by
  have hx : x = ⌊x⌋ + Int.fract x := (Int.floor_add_fract x).symm
  have hpos := Int.fract_nonneg x
  have hlt := Int.fract_lt_one x
  unfold roundHalfEven
  rw [abs_le]
  split_ifs <;> push_cast <;> constructor <;> linarith

/-! ## To multiples of a unit -/

def roundTo (unit x : K) : K := roundHalfEven (x / unit) * unit

section Unit
variable {unit x y : K}

theorem roundTo_mul (hunit : 0 < unit) (n : ℤ) : roundTo unit (n * unit) = n * unit := by
  rw [roundTo, mul_div_cancel_right₀ _ hunit.ne', roundHalfEven_intCast]

theorem roundTo_mono (hunit : 0 < unit) (h : x ≤ y) : roundTo unit x ≤ roundTo unit y := by
  have hdiv : x / unit ≤ y / unit := div_le_div_of_nonneg_right h hunit.le
  have hround : (roundHalfEven (x / unit) : K) ≤ roundHalfEven (y / unit) :=
    Int.cast_le.mpr (roundHalfEven_mono hdiv)
  exact mul_le_mul_of_nonneg_right hround hunit.le

theorem roundTo_nonneg (hunit : 0 < unit) (h : 0 ≤ x) : 0 ≤ roundTo unit x := by
  have := roundTo_mono hunit h
  have hzero := roundTo_mul hunit 0
  rw [Int.cast_zero, zero_mul] at hzero
  rwa [hzero] at this

theorem abs_roundTo_sub_le (hunit : 0 < unit) (x : K) : |roundTo unit x - x| ≤ unit / 2 := by
  have hsplit : roundTo unit x - x = (roundHalfEven (x / unit) - x / unit) * unit := by
    rw [roundTo]
    field_simp
  rw [hsplit, abs_mul, abs_of_pos hunit]
  calc |(roundHalfEven (x / unit) : K) - x / unit| * unit ≤ 1 / 2 * unit :=
        mul_le_mul_of_nonneg_right (abs_roundHalfEven_sub_le _) hunit.le
    _ = unit / 2 := by ring

end Unit

/-! ## To a number of bits -/

/-- The unit of the last place of a number, with `bits` bits. -/
def lastPlace (bits : ℕ) (x : K) : K := 2 ^ (Int.log 2 |x| + 1 - bits)

def roundToBits (bits : ℕ) (x : K) : K := if x = 0 then 0 else roundTo (lastPlace bits x) x

section Bits
variable {bits : ℕ} {x y : K}

theorem lastPlace_pos (bits : ℕ) (x : K) : 0 < lastPlace bits x := zpow_pos two_pos _

/-- The powers of two around a number are multiples of its last place. -/
theorem zpow_eq_mul_lastPlace {e : ℤ} (hx : 0 < x) (he : Int.log 2 x ≤ e) (hbits : 0 < bits) :
    ∃ n : ℤ, (2 : K) ^ e = n * lastPlace bits x := by
  obtain ⟨k, hk⟩ : ∃ k : ℕ, e - (Int.log 2 x + 1 - bits) = k :=
    ⟨(e - (Int.log 2 x + 1 - bits)).toNat, by omega⟩
  refine ⟨2 ^ k, ?_⟩
  rw [lastPlace, abs_of_pos hx, Int.cast_pow, Int.cast_ofNat, ← zpow_natCast, ← hk,
    ← zpow_add₀ two_ne_zero]
  congr 1
  ring

theorem roundToBits_zpow_le {e : ℤ} (hx : 0 < x) (h : (2 : K) ^ e ≤ x) (hbits : 0 < bits)
    (he : Int.log 2 x = e) : (2 : K) ^ e ≤ roundToBits bits x := by
  rw [roundToBits, if_neg hx.ne']
  obtain ⟨n, hn⟩ := zpow_eq_mul_lastPlace hx he.le hbits
  rw [hn] at h ⊢
  rw [← roundTo_mul (lastPlace_pos bits x)]
  exact roundTo_mono (lastPlace_pos bits x) h

theorem roundToBits_le_zpow {e : ℤ} (hx : 0 < x) (h : x ≤ (2 : K) ^ e) (hbits : 0 < bits)
    (he : Int.log 2 x ≤ e) : roundToBits bits x ≤ (2 : K) ^ e := by
  rw [roundToBits, if_neg hx.ne']
  obtain ⟨n, hn⟩ := zpow_eq_mul_lastPlace hx he hbits
  rw [hn] at h ⊢
  rw [← roundTo_mul (lastPlace_pos bits x)]
  exact roundTo_mono (lastPlace_pos bits x) h

theorem roundToBits_nonneg (hx : 0 ≤ x) : 0 ≤ roundToBits bits x := by
  unfold roundToBits
  split
  · exact le_refl 0
  · exact roundTo_nonneg (lastPlace_pos bits x) hx

theorem roundToBits_mono (hbits : 0 < bits) (hx : 0 ≤ x) (h : x ≤ y) :
    roundToBits bits x ≤ roundToBits bits y := by
  rcases hx.eq_or_lt with rfl | hx
  · rw [roundToBits, if_pos rfl]
    exact roundToBits_nonneg h
  have hy : 0 < y := hx.trans_le h
  rcases (Int.log_mono_right (b := 2) hx h).lt_or_eq with hlt | heq
  · -- a power of two lies between the two numbers
    have hbelow : x ≤ (2 : K) ^ Int.log 2 y := by
      have hnext := (Int.lt_zpow_succ_log_self Nat.one_lt_two x).le
      rw [Nat.cast_ofNat] at hnext
      exact hnext.trans (zpow_le_zpow_right₀ one_le_two hlt)
    have habove : (2 : K) ^ Int.log 2 y ≤ y := by
      have := Int.zpow_log_le_self Nat.one_lt_two hy
      rwa [Nat.cast_ofNat] at this
    exact (roundToBits_le_zpow hx hbelow hbits hlt.le).trans
      (roundToBits_zpow_le hy habove hbits rfl)
  · have hplace : lastPlace bits x = lastPlace bits y := by
      rw [lastPlace, lastPlace, abs_of_pos hx, abs_of_pos hy, heq]
    rw [roundToBits, if_neg hx.ne', roundToBits, if_neg hy.ne', hplace]
    exact roundTo_mono (lastPlace_pos bits y) h

/-- An integer of at most `bits` bits is kept. -/
theorem roundToBits_natCast {n : ℕ} (h : n < 2 ^ bits) : roundToBits bits (n : K) = n := by
  rcases n.eq_zero_or_pos with rfl | hn
  · rw [Nat.cast_zero, roundToBits, if_pos rfl]
  have hn' : (0 : K) < n := Nat.cast_pos.mpr hn
  obtain ⟨k, hk⟩ : ∃ k : ℕ, Int.log 2 (n : K) + 1 - bits = -(k : ℤ) := by
    have hlog : Nat.log 2 n < bits := Nat.log_lt_of_lt_pow hn.ne' h
    refine ⟨bits - (Nat.log 2 n + 1), ?_⟩
    rw [Int.log_natCast]
    omega
  have hmul : (n : K) = ((n * 2 ^ k : ℕ) : ℤ) * lastPlace bits (n : K) := by
    rw [lastPlace, abs_of_pos hn', hk, zpow_neg, zpow_natCast]
    push_cast
    field_simp
  rw [roundToBits, if_neg hn'.ne']
  calc roundTo (lastPlace bits (n : K)) n
      = roundTo (lastPlace bits (n : K)) (((n * 2 ^ k : ℕ) : ℤ) * lastPlace bits (n : K)) := by
        rw [← hmul]
    _ = n := by rw [roundTo_mul (lastPlace_pos bits _), ← hmul]

/-- The error is at most half a unit of the last place. -/
theorem abs_roundToBits_sub_le (hx : 0 ≤ x) : |roundToBits bits x - x| ≤ x / 2 ^ bits := by
  rcases hx.eq_or_lt with rfl | hx
  · simp [roundToBits]
  have hlog : (2 : K) ^ Int.log 2 x ≤ x := by
    have := Int.zpow_log_le_self Nat.one_lt_two hx
    rwa [Nat.cast_ofNat] at this
  have hplace : lastPlace bits x / 2 = 2 ^ Int.log 2 x / 2 ^ bits := by
    rw [lastPlace, abs_of_pos hx, zpow_sub₀ two_ne_zero, zpow_add₀ two_ne_zero, zpow_one,
      zpow_natCast]
    field_simp
  rw [roundToBits, if_neg hx.ne']
  calc |roundTo (lastPlace bits x) x - x| ≤ lastPlace bits x / 2 :=
        abs_roundTo_sub_le (lastPlace_pos bits x) x
    _ = 2 ^ Int.log 2 x / 2 ^ bits := hplace
    _ ≤ x / 2 ^ bits := div_le_div_of_nonneg_right hlog (by positivity)

end Bits

end ThreatScanner.Rounding
