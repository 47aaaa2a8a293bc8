import Dialect.Proofs.Number.Shortest

namespace Dialect.Double

variable {m digits : Nat} {e exponent : Int}

theorem two_pow_le_ten_pow : (2 : ℚ) ^ (1200 : Int) ≤ 10 ^ (400 : Int) := by
  have h : (2 : ℚ) ^ 1200 ≤ 10 ^ 400 := by
    rw [show 1200 = 3 * 400 by decide, pow_mul]
    exact pow_le_pow_left₀ (by norm_num) (by norm_num) 400
  exact_mod_cast h

-- What is rounded to a double is nowhere near the ends of the powers of ten that are computed.
theorem Rounds.lt_ten_zpow {q : ℚ} (hr : InRange m e) (h : Rounds m e q) :
    q < 10 ^ (400 : Int) := by
  have hbits : (m : ℚ) + 1 ≤ 2 ^ 53 := by exact_mod_cast hr.1
  have hpow : (2 : ℚ) ^ e ≤ 2 ^ maxExponent := two_zpow_le hr.2.2.1
  calc q ≤ (m + 1 / 2) * 2 ^ e := h.2.1
    _ ≤ 2 ^ 53 * 2 ^ maxExponent :=
        mul_le_mul (by linarith) hpow (two_zpow_pos e).le (by norm_num)
    _ = 2 ^ (1024 : Int) := by
        rw [maxExponent, ← zpow_natCast, ← zpow_add₀ (by norm_num)]
        norm_num
    _ < 2 ^ (1200 : Int) := zpow_lt_zpow_right₀ (by norm_num) (by norm_num)
    _ ≤ 10 ^ (400 : Int) := two_pow_le_ten_pow

theorem Rounds.ten_zpow_lt {q : ℚ} (hm : 0 < m) (hr : InRange m e) (h : Rounds m e q) :
    10 ^ (-400 : Int) < q := by
  have hone : (1 : ℚ) ≤ m := by exact_mod_cast hm
  have hpow : (2 : ℚ) ^ minExponent ≤ 2 ^ e := two_zpow_le hr.2.1
  have hlow := le_lowest m e
  calc (10 : ℚ) ^ (-400 : Int) ≤ 2 ^ (-1200 : Int) := by
        rw [zpow_neg, zpow_neg]
        exact inv_anti₀ (by positivity) two_pow_le_ten_pow
    _ < 2 ^ (-1075 : Int) := zpow_lt_zpow_right₀ (by norm_num) (by norm_num)
    _ = 1 / 2 * 2 ^ minExponent := by
        rw [minExponent, show (-1074 : Int) = -1075 + 1 by norm_num, two_zpow_succ]
        ring
    _ ≤ lowest m e * 2 ^ e := mul_le_mul (by linarith) hpow (two_zpow_pos _).le (by linarith)
    _ ≤ q := h.1

-- Reading a decimal takes it for the double that it is rounded to.
theorem ofDecimal_of_rounds (negative : Bool) (hm : 0 < m) (hr : InRange m e)
    (h : Rounds m e (digits * 10 ^ exponent)) :
    ofDecimal negative digits exponent = .finite negative m e := by
  have hdigits : 0 < digits := by
    rw [Nat.pos_iff_ne_zero]
    rintro rfl
    simpa using h.pos hm
  have hten : (0 : ℚ) < 10 ^ exponent := zpow_pos (by norm_num) exponent
  have hlead : (10 : ℚ) ^ (Shortest.digitCount digits - 1) ≤ digits := by
    exact_mod_cast Shortest.ten_pow_le_of_digitCount hdigits
  have hcount : (digits : ℚ) < 10 ^ Shortest.digitCount digits := by
    exact_mod_cast Shortest.lt_ten_pow_digitCount digits
  have hpos : 0 < Shortest.digitCount digits := Nat.length_toDigits_pos
  have hnotHuge : ¬(400 : Int) < (Nat.toDigits 10 digits).length + exponent := by
    have hlt := (mul_le_mul_of_nonneg_right hlead hten.le).trans_lt (h.lt_ten_zpow hr)
    rw [← zpow_natCast, ← zpow_add₀ (by norm_num),
      zpow_lt_zpow_iff_right₀ (by norm_num)] at hlt
    change ¬(400 : Int) < Shortest.digitCount digits + exponent
    omega
  have hnotTiny : ¬(Nat.toDigits 10 digits).length + exponent < -400 := by
    have hlt := (h.ten_zpow_lt hm hr).trans (mul_lt_mul_of_pos_right hcount hten)
    rw [← zpow_natCast, ← zpow_add₀ (by norm_num),
      zpow_lt_zpow_iff_right₀ (by norm_num)] at hlt
    change ¬(Shortest.digitCount digits : Int) + exponent < -400
    omega
  simp only [ofDecimal, hdigits.ne', if_false, hnotHuge, hnotTiny]
  split
  · rename_i hexp
    refine ofRatio_of_rounds negative hm hr Nat.one_pos ?_
    rwa [Nat.cast_mul, pow_toNat_of_nonneg 10 hexp, Nat.cast_one, div_one, Nat.cast_ofNat]
  · rename_i hexp
    refine ofRatio_of_rounds negative hm hr (Nat.pow_pos (by decide)) ?_
    rwa [pow_toNat_of_neg 10 hexp, div_inv_eq_mul, Nat.cast_ofNat]

theorem held_ofDecimal (negative : Bool) (digits : Nat) (exponent : Int) :
    Held (ofDecimal negative digits exponent) := by
  unfold ofDecimal
  split
  · exact held_zero negative
  dsimp only
  split
  · trivial
  split
  · exact held_zero negative
  split
  · exact held_ofRatio negative _ Nat.one_pos
  · exact held_ofRatio negative _ (Nat.pow_pos (by decide))

end Dialect.Double
