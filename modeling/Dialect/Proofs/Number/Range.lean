import Dialect.Proofs.Number.Rounding

namespace Dialect.Double

variable {num den m : Nat} {e : Int} {negative : Bool}

-- Numbers from here on are rounded to infinity: half way between the largest double and the
-- next power of two. The half itself goes up, as the largest mantissa is odd.
def limit : ℚ := (2 ^ 53 - 1 / 2) * 2 ^ maxExponent

theorem limit_pos : 0 < limit :=
  mul_pos (by norm_num) (two_zpow_pos maxExponent)

theorem le_of_roundDiv_eq {n d : Nat} (hd : 0 < d) (h : roundDiv n d = m) :
    (m : ℚ) - 1 / 2 ≤ n / d := by
  have hwhole : 2 * (d * m) ≤ 2 * n + d := by
    have hn := Nat.div_add_mod n d
    simp only [roundDiv] at h
    generalize n / d = k at *
    subst h
    split_ifs
    · omega
    · rw [Nat.mul_add, Nat.mul_one]
      omega
    · omega
    · rw [Nat.mul_add, Nat.mul_one]
      omega
  have hpos : (0 : ℚ) < d := by exact_mod_cast hd
  have hwhole' : (2 * (d * m) : ℚ) ≤ 2 * n + d := by exact_mod_cast hwhole
  rw [le_div_iff₀ hpos]
  linarith

theorem pack_eq_infinite_iff : (∃ b, pack negative m e = .infinite b) ↔
    maxExponent < e ∨ e = maxExponent ∧ m = 2 ^ 53 := by
  by_cases hcarry : m = 2 ^ 53
  · have hpack : pack negative m e =
        if maxExponent < e + 1 then .infinite negative else .finite negative (2 ^ 52) (e + 1) := by
      subst hcarry
      rfl
    rw [hpack]
    split_ifs <;> simp [hcarry] <;> omega
  · have hpack : pack negative m e =
        if maxExponent < e then .infinite negative else .finite negative m e := by
      have hno : ¬m = Nat.pow 2 53 := hcarry
      simp only [pack, hno, if_false]
    have hnot : ¬(e = maxExponent ∧ m = 2 ^ 53) := fun h => hcarry h.2
    rw [hpack, or_iff_left hnot]
    split_ifs with hmost <;> simp [hmost]

theorem ofRatio_eq_infinite_iff (hden : 0 < den) :
    (∃ b, ofRatio negative num den = .infinite b) ↔ limit ≤ num / den := by
  by_cases hnum : num = 0
  · simp [ofRatio, hnum, zero, limit_pos]
  obtain ⟨-, hhigh, hlead⟩ := isExponent_max hnum hden
  rw [ofRatio_eq negative hnum]
  dsimp only
  generalize max (leadExponent num den) minExponent = e at *
  rw [pack_eq_infinite_iff]
  rw [div_lt_iff₀ (two_zpow_pos e)] at hhigh
  constructor
  · rintro (hmost | ⟨rfl, hround⟩)
    · have hlead : 2 ^ 52 * 2 ^ e ≤ (num : ℚ) / den := by
        rw [← le_div_iff₀ (two_zpow_pos e)]
        refine hlead.resolve_right ?_
        rintro rfl
        exact absurd hmost (by decide)
      have hstep : (2 : ℚ) ^ maxExponent * 2 ≤ 2 ^ e := by
        rw [mul_comm, ← two_zpow_succ]
        exact two_zpow_le hmost
      have hpos := two_zpow_pos maxExponent
      unfold limit
      linarith
    · have hround := le_of_roundDiv_eq (den_scaled_pos hden maxExponent) hround
      rw [scaled_eq, le_div_iff₀ (two_zpow_pos maxExponent)] at hround
      exact_mod_cast hround
  · intro hlimit
    rcases lt_trichotomy e maxExponent with hless | rfl | hmost
    · have hstep : 2 * 2 ^ e ≤ (2 : ℚ) ^ maxExponent := by
        rw [← two_zpow_succ]
        exact two_zpow_le hless
      have hpos := two_zpow_pos e
      unfold limit at hlimit
      linarith
    · refine .inr ⟨rfl, roundDiv_eq (den_scaled_pos hden _) ?_⟩
      rw [limit, ← le_div_iff₀ (two_zpow_pos maxExponent)] at hlimit
      rw [← div_lt_iff₀ (two_zpow_pos maxExponent)] at hhigh
      rw [scaled_eq]
      refine ⟨by exact_mod_cast hlimit, ?_, fun hodd => absurd hodd (by decide)⟩
      push_cast
      linarith
    · exact .inl hmost

-- A whole number is too large for a double, whether it is positive or negative.
def TooLarge (i : Int) : Prop :=
  (2 ^ 54 - 1) * 2 ^ 970 ≤ i.natAbs

theorem ofInt_eq_infinite_iff (i : Int) : (∃ b, ofInt i = .infinite b) ↔ TooLarge i := by
  have hlimit : limit = ((2 ^ 54 - 1) * 2 ^ 970 : Nat) := by
    have hpow : (2 : ℚ) ^ maxExponent = 2 * 2 ^ 970 := by
      rw [maxExponent, zpow_ofNat, pow_succ']
    have hodd : ((2 ^ 54 - 1 : Nat) : ℚ) = (2 ^ 53 - 1 / 2) * 2 := by norm_num
    rw [limit, hpow, Nat.cast_mul, Nat.cast_pow, hodd, Nat.cast_ofNat, mul_assoc]
  rw [ofInt, ofRatio_eq_infinite_iff Nat.one_pos, hlimit, TooLarge, Nat.cast_one, div_one,
    Nat.cast_le]

end Dialect.Double
