import Dialect.Number.Shortest
import Dialect.Proofs.Number.Rounding
import Mathlib.Data.Nat.Cast.Order.Field

namespace Dialect.Shortest

open Double (InRange Rounds two_zpow_pos)

namespace Ratio

variable {a b : Ratio}

-- The number that a fraction is.
def val (a : Ratio) : ℚ := a.num / a.den

theorem lt_iff (ha : 0 < a.den) (hb : 0 < b.den) : a.lt b = true ↔ a.val < b.val := by
  have ha' : (0 : ℚ) < a.den := by exact_mod_cast ha
  have hb' : (0 : ℚ) < b.den := by exact_mod_cast hb
  rw [lt, decide_eq_true_eq, val, val, div_lt_div_iff₀ ha' hb']
  exact_mod_cast Iff.rfl

theorem le_iff (ha : 0 < a.den) (hb : 0 < b.den) : a.le b = true ↔ a.val ≤ b.val := by
  have ha' : (0 : ℚ) < a.den := by exact_mod_cast ha
  have hb' : (0 : ℚ) < b.den := by exact_mod_cast hb
  rw [le, decide_eq_true_eq, val, val, div_le_div_iff₀ ha' hb']
  exact_mod_cast Iff.rfl

theorem den_timesTwo_pos (ha : 0 < a.den) (e : Int) : 0 < (a.timesTwo e).den := by
  unfold timesTwo
  split
  · exact ha
  · exact Nat.mul_pos ha (Nat.pow_pos (by decide))

theorem val_timesTwo (a : Ratio) (e : Int) : (a.timesTwo e).val = a.val * 2 ^ e := by
  unfold timesTwo val
  split
  · rename_i he
    rw [Nat.cast_mul, Double.pow_toNat_of_nonneg 2 he, Nat.cast_ofNat]
    ring
  · rename_i he
    rw [Nat.cast_mul, Double.pow_toNat_of_neg 2 he, Nat.cast_ofNat, ← div_div, div_inv_eq_mul]

theorem den_overTen_pos (ha : 0 < a.den) (p : Int) : 0 < (a.overTen p).den := by
  unfold overTen
  split
  · exact Nat.mul_pos ha (Nat.pow_pos (by decide))
  · exact ha

theorem val_overTen (a : Ratio) (p : Int) : (a.overTen p).val = a.val / 10 ^ p := by
  unfold overTen val
  split
  · rename_i hp
    rw [Nat.cast_mul, Double.pow_toNat_of_nonneg 10 hp, Nat.cast_ofNat, div_div]
  · rename_i hp
    rw [Nat.cast_mul, Double.pow_toNat_of_neg 10 hp, Nat.cast_ofNat]
    ring

end Ratio

theorem den_gridPoint_pos (n : Nat) (p : Int) : 0 < (gridPoint n p).den := by
  unfold gridPoint
  split
  · exact Nat.one_pos
  · exact Nat.pow_pos (by decide)

theorem val_gridPoint (n : Nat) (p : Int) : (gridPoint n p).val = n * 10 ^ p := by
  unfold gridPoint Ratio.val
  split
  · rename_i hp
    rw [Nat.cast_mul, Double.pow_toNat_of_nonneg 10 hp, Nat.cast_ofNat, Nat.cast_one, div_one]
  · rename_i hp
    rw [Double.pow_toNat_of_neg 10 hp, Nat.cast_ofNat, div_inv_eq_mul]

theorem val_low {m : Nat} (hm : 0 < m) (e : Int) :
    (interval m e).low.val = Double.lowest m e * 2 ^ e := by
  have hquarter : ((4 * m - 1 : Nat) : ℚ) = 4 * m - 1 := by
    rw [Nat.cast_sub (by omega)]
    push_cast
    rfl
  have hhalf : ((2 * m - 1 : Nat) : ℚ) = 2 * m - 1 := by
    rw [Nat.cast_sub (by omega)]
    push_cast
    rfl
  have hnarrow : (m == Nat.pow 2 52 && decide (Double.minExponent < e)) = true ↔
      m = 2 ^ 52 ∧ Double.minExponent < e := by
    rw [Bool.and_eq_true, beq_iff_eq, decide_eq_true_eq]
    rfl
  simp only [interval, Ratio.val_timesTwo, hnarrow, Double.lowest]
  congr 1
  split
  · rw [Ratio.val, hquarter]
    push_cast
    ring
  · rw [Ratio.val, hhalf]
    push_cast
    ring

theorem val_high (m : Nat) (e : Int) : (interval m e).high.val = (m + 1 / 2) * 2 ^ e := by
  rw [interval, Ratio.val_timesTwo, Ratio.val]
  push_cast
  ring

theorem den_low_pos (m : Nat) (e : Int) : 0 < (interval m e).low.den := by
  apply Ratio.den_timesTwo_pos
  split
  · exact Nat.succ_pos 3
  · exact Nat.succ_pos 1

theorem den_high_pos (m : Nat) (e : Int) : 0 < (interval m e).high.den :=
  Ratio.den_timesTwo_pos (Nat.succ_pos 1) e

-- The interval of a double holds exactly the numbers that are rounded to it.
theorem holds_interval_iff {m : Nat} (hm : 0 < m) (e : Int) {x : Ratio} (hx : 0 < x.den) :
    (interval m e).holds x = true ↔ Rounds m e x.val := by
  have hlow := val_low hm e
  have hhigh := val_high m e
  have hclosed : (interval m e).closed = (m % 2 == 0) := rfl
  unfold Interval.holds Rounds
  rw [hclosed, ← hlow, ← hhigh]
  by_cases heven : m % 2 = 0
  · simp only [heven, beq_self_eq_true, if_true, Bool.and_eq_true,
      Ratio.le_iff (den_low_pos m e) hx, Ratio.le_iff hx (den_high_pos m e), zero_ne_one,
      false_implies, and_true]
  · have hodd : m % 2 = 1 := by omega
    simp only [hodd, Nat.reduceBEq, Bool.false_eq_true, if_false, Bool.and_eq_true,
      Ratio.lt_iff (den_low_pos m e) hx, Ratio.lt_iff hx (den_high_pos m e), true_implies]
    constructor
    · rintro ⟨h1, h2⟩
      exact ⟨h1.le, h2.le, h1, h2⟩
    · rintro ⟨-, -, h⟩
      exact h

-- A hit lies in the interval.
theorem holds_of_hit? {value : Ratio} {i : Interval} {p : Int} {n : Nat}
    (h : hit? value i p = some n) : i.holds (gridPoint n p) = true := by
  simp only [hit?] at h
  generalize (value.overTen p).num / (value.overTen p).den = k at h
  split at h
  · rename_i hbelow habove
    split at h
    · cases h
      exact hbelow
    · split at h
      · cases h
        exact habove
      · split at h
        · cases h
          exact hbelow
        · cases h
          exact habove
  · rename_i hbelow _
    cases h
    exact hbelow
  · rename_i _ habove
    cases h
    exact habove
  · cases h

-- If the grid point below the value lies in the interval, there is a hit.
theorem exists_hit? {value : Ratio} {i : Interval} {p : Int}
    (h : i.holds (gridPoint ((value.overTen p).num / (value.overTen p).den) p) = true) :
    ∃ n, (value.overTen p).num / (value.overTen p).den ≤ n ∧ hit? value i p = some n := by
  simp only [hit?, h]
  generalize (value.overTen p).num / (value.overTen p).den = k
  split
  · split
    · exact ⟨k, le_rfl, rfl⟩
    · split
      · exact ⟨k + 1, by omega, rfl⟩
      · split
        · exact ⟨k, le_rfl, rfl⟩
        · exact ⟨k + 1, by omega, rfl⟩
  · exact ⟨k, le_rfl, rfl⟩
  · simp_all
  · simp_all

-- The search ends at the first hit that is not zero.
theorem search_spec {value : Ratio} {i : Interval} {fuel : Nat} {p : Int} {k : Nat}
    (hk : k < fuel) (hhit : ∃ n, n ≠ 0 ∧ hit? value i (p - k) = some n) :
    (search value i fuel p).1 ≠ 0 ∧
      i.holds (gridPoint (search value i fuel p).1 (search value i fuel p).2) = true := by
  induction fuel generalizing p k with
  | zero => omega
  | succ fuel ih =>
      have hnext (hmiss : ∀ n, n ≠ 0 → hit? value i p ≠ some n) :
          (search value i fuel (p - 1)).1 ≠ 0 ∧ i.holds (gridPoint
            (search value i fuel (p - 1)).1 (search value i fuel (p - 1)).2) = true := by
        cases k with
        | zero =>
            obtain ⟨n, hn, hhit⟩ := hhit
            exact absurd (by simpa using hhit) (hmiss n hn)
        | succ k =>
            refine ih (Nat.lt_of_succ_lt_succ hk) ?_
            rwa [Nat.cast_succ, ← sub_sub, sub_right_comm] at hhit
      simp only [search]
      split
      · rename_i n hn
        split
        · rename_i hzero
          exact hnext fun n' hn' heq => hn' (by rw [hn] at heq; cases heq; exact hzero)
        · rename_i hne
          exact ⟨hne, holds_of_hit? hn⟩
      · rename_i hnone
        exact hnext fun n' _ heq => by rw [hnone] at heq; cases heq

theorem floor_le (n d : Nat) : ((n / d : Nat) : ℚ) ≤ n / d := Nat.cast_div_le

theorem lt_floor_add_one (n : Nat) {d : Nat} (hd : 0 < d) : (n : ℚ) / d < (n / d : Nat) + 1 := by
  have hpos : (0 : ℚ) < d := by exact_mod_cast hd
  rw [div_lt_iff₀ hpos]
  rw [mul_comm]
  exact_mod_cast Nat.lt_mul_div_succ n hd

theorem lt_ten_pow_digitCount (n : Nat) : n < 10 ^ digitCount n :=
  (Nat.length_toDigits_le_iff (by decide) Nat.length_toDigits_pos).mp le_rfl

theorem ten_pow_le_of_digitCount {n : Nat} (hn : 0 < n) : 10 ^ (digitCount n - 1) ≤ n := by
  by_cases hone : digitCount n ≤ 1
  · rw [show digitCount n - 1 = 0 by omega]
    exact hn
  · by_contra hlt
    have hlen := (Nat.length_toDigits_le_iff (b := 10) (by decide)
      (show 0 < digitCount n - 1 by omega)).mpr (not_le.mp hlt)
    have : digitCount n ≤ digitCount n - 1 := hlen
    omega

-- The highest power of ten that is no greater than a number, as the search finds it.
def leadPower (value : Ratio) : Int :=
  if value.den ≤ value.num then digitCount (value.num / value.den)
  else 1 - (digitCount (value.den / value.num) : Int)

theorem digits_eq (m : Nat) (e : Int) :
    digits m e = search ((Ratio.mk m 1).timesTwo e) (interval m e) 22
      (leadPower ((Ratio.mk m 1).timesTwo e) + 1) := rfl

theorem ten_zpow_le_val {a : Ratio} (hnum : 0 < a.num) (hden : 0 < a.den) :
    (10 : ℚ) ^ (leadPower a - 1) ≤ a.val := by
  have hnum' : (0 : ℚ) < a.num := by exact_mod_cast hnum
  have hden' : (0 : ℚ) < a.den := by exact_mod_cast hden
  unfold leadPower
  split
  · rename_i hle
    have hfloor : 0 < a.num / a.den := Nat.div_pos hle hden
    have hcount : 0 < digitCount (a.num / a.den) := Nat.length_toDigits_pos
    have hpow := ten_pow_le_of_digitCount hfloor
    rw [show (digitCount (a.num / a.den) : Int) - 1 = ((digitCount (a.num / a.den) - 1 : Nat) : Int)
      by omega, zpow_natCast]
    exact le_trans (by exact_mod_cast hpow) (floor_le a.num a.den)
  · rename_i hlt
    have hpow := lt_ten_pow_digitCount (a.den / a.num)
    rw [Nat.div_lt_iff_lt_mul hnum] at hpow
    have hpow : (a.den : ℚ) < 10 ^ digitCount (a.den / a.num) * a.num := by exact_mod_cast hpow
    rw [sub_sub_cancel_left, zpow_neg, zpow_natCast, Ratio.val,
      inv_le_iff_one_le_mul₀ (by positivity), mul_comm, mul_div_assoc', one_le_div₀ hden']
    exact hpow.le

-- On the last grid of the search a step is less than a quarter of a double's last bit, so the
-- point below the double is rounded to it.
theorem exists_hit?_last {m : Nat} {e : Int} (hm : 0 < m) (hbits : m < 2 ^ 53) :
    ∃ n, n ≠ 0 ∧ hit? ((Ratio.mk m 1).timesTwo e) (interval m e)
      (leadPower ((Ratio.mk m 1).timesTwo e) + 1 - (21 : Nat)) = some n := by
  have hval : ((Ratio.mk m 1).timesTwo e).val = m * 2 ^ e := by
    rw [Ratio.val_timesTwo, Ratio.val, Nat.cast_one, div_one]
  have hden : 0 < ((Ratio.mk m 1).timesTwo e).den := Ratio.den_timesTwo_pos Nat.one_pos e
  generalize (Ratio.mk m 1).timesTwo e = value at *
  have hpow := two_zpow_pos e
  have hone : (1 : ℚ) ≤ m := by exact_mod_cast hm
  have hbits' : (m : ℚ) < 2 ^ 53 := by exact_mod_cast hbits
  have hsize : (m : ℚ) * 2 ^ e < 2 ^ 53 * 2 ^ e := mul_lt_mul_of_pos_right hbits' hpow
  have hsize' : 1 * (2 : ℚ) ^ e ≤ m * 2 ^ e := mul_le_mul_of_nonneg_right hone hpow.le
  have hnum : 0 < value.num := by
    rw [Nat.pos_iff_ne_zero]
    intro hzero
    rw [Ratio.val, hzero, Nat.cast_zero, zero_div] at hval
    linarith
  have hlead := ten_zpow_le_val hnum hden
  generalize hp : leadPower value + 1 - (21 : Nat) = p
  rw [show leadPower value - 1 = p + 19 by omega, zpow_add₀ (by norm_num), hval] at hlead
  have hgrid : (0 : ℚ) < 10 ^ p := zpow_pos (by norm_num) p
  have hstep : (10 : ℚ) ^ p ≤ 2 ^ e / 4 := by
    norm_num at hlead hsize
    linarith
  have hfloor := floor_le (value.overTen p).num (value.overTen p).den
  have hnext := lt_floor_add_one (value.overTen p).num (Ratio.den_overTen_pos hden p)
  rw [← Ratio.val, Ratio.val_overTen, hval] at hfloor hnext
  obtain ⟨n, hle, hhit⟩ : ∃ n, (value.overTen p).num / (value.overTen p).den ≤ n ∧
      hit? value (interval m e) p = some n := by
    apply exists_hit?
    rw [holds_interval_iff hm e (den_gridPoint_pos _ p), val_gridPoint]
    rw [le_div_iff₀ hgrid] at hfloor
    rw [div_lt_iff₀ hgrid] at hnext
    have hlow : Double.lowest m e * 2 ^ e ≤ (m - 1 / 4) * 2 ^ e :=
      mul_le_mul_of_nonneg_right (Double.lowest_le m e) hpow.le
    refine ⟨by linarith, by linarith, fun _ => ⟨by linarith, by linarith⟩⟩
  refine ⟨n, ?_, hhit⟩
  rintro rfl
  rw [Nat.le_zero.mp hle, Nat.cast_zero, zero_add, div_lt_one hgrid] at hnext
  linarith

-- The shortest digits of a double are not zero, and are rounded to it.
theorem digits_spec {m : Nat} {e : Int} (hm : 0 < m) (hbits : m < 2 ^ 53) :
    0 < (digits m e).1 ∧ Rounds m e ((digits m e).1 * 10 ^ (digits m e).2) := by
  obtain ⟨hpos, hholds⟩ := search_spec (show 21 < 22 by decide) (exists_hit?_last hm hbits)
  rw [← digits_eq, holds_interval_iff hm e (den_gridPoint_pos _ _), val_gridPoint] at hholds
  rw [← digits_eq] at hpos
  exact ⟨Nat.pos_of_ne_zero hpos, hholds⟩

end Dialect.Shortest
