import Dialect.Number.Double
import Mathlib.Algebra.Order.Field.Power
import Mathlib.Data.Nat.Log
import Mathlib.Data.Rat.Cast.Order
import Mathlib.Tactic.FieldSimp
import Mathlib.Tactic.Linarith
import Mathlib.Tactic.NormNum
import Mathlib.Tactic.Positivity
import Mathlib.Tactic.Ring

namespace Dialect.Double

-- What 64 bits hold: a mantissa of 53 bits, or of fewer at the least exponent.
def InRange (m : Nat) (e : Int) : Prop :=
  m < 2 ^ 53 ∧ minExponent ≤ e ∧ e ≤ maxExponent ∧ (2 ^ 52 ≤ m ∨ e = minExponent)

-- A double as the readers make it.
def Held : Double → Prop
  | .finite _ m e => InRange m e
  | .infinite _ => True
  | .nan => True

theorem held_zero (negative : Bool) : Held (zero negative) :=
  ⟨by decide, le_rfl, by decide, .inr rfl⟩

-- An integer power, by the powers of natural numbers that stand for it.
theorem pow_toNat_of_nonneg (b : Nat) {e : Int} (he : 0 ≤ e) :
    ((Nat.pow b e.toNat : Nat) : ℚ) = (b : ℚ) ^ e := by
  obtain ⟨n, rfl⟩ := Int.eq_ofNat_of_zero_le he
  simp

theorem pow_toNat_of_neg (b : Nat) {e : Int} (he : ¬0 ≤ e) :
    ((Nat.pow b (-e).toNat : Nat) : ℚ) = ((b : ℚ) ^ e)⁻¹ := by
  rw [pow_toNat_of_nonneg b (by omega), zpow_neg]

theorem two_zpow_pos (e : Int) : (0 : ℚ) < 2 ^ e := zpow_pos (by norm_num) e

theorem two_zpow_succ (e : Int) : (2 : ℚ) ^ (e + 1) = 2 * 2 ^ e := by
  rw [zpow_add_one₀ (by norm_num), mul_comm]

variable {num den : Nat}

theorem den_scaled_pos (hden : 0 < den) (e : Int) : 0 < (scaled num den e).2 := by
  unfold scaled
  split
  · exact Nat.mul_pos hden (Nat.pow_pos (by decide))
  · exact hden

theorem scaled_eq (num den : Nat) (e : Int) :
    ((scaled num den e).1 : ℚ) / (scaled num den e).2 = num / den / 2 ^ e := by
  unfold scaled
  split
  · rename_i he
    rw [Nat.cast_mul, pow_toNat_of_nonneg 2 he, Nat.cast_ofNat, div_div]
  · rename_i he
    rw [Nat.cast_mul, pow_toNat_of_neg 2 he, Nat.cast_ofNat]
    ring

theorem div_scaled_lt_iff (hden : 0 < den) (e : Int) (k : Nat) :
    (scaled num den e).1 / (scaled num den e).2 < k ↔ (num : ℚ) / den / 2 ^ e < k := by
  have hpos : (0 : ℚ) < (scaled num den e).2 := by exact_mod_cast den_scaled_pos hden e
  rw [Nat.div_lt_iff_lt_mul (den_scaled_pos hden e), ← scaled_eq, div_lt_iff₀ hpos]
  exact_mod_cast Iff.rfl

-- A number that is rounded to m: at most a half away, and a half only if m is even.
def RoundsTo (m : Nat) (y : ℚ) : Prop :=
  m - 1 / 2 ≤ y ∧ y ≤ m + 1 / 2 ∧ (m % 2 = 1 → m - 1 / 2 < y ∧ y < m + 1 / 2)

-- The same for a fraction, in whole numbers.
theorem RoundsTo.bounds {n d m : Nat} (hd : 0 < d) (h : RoundsTo m (n / d)) :
    2 * (d * m) ≤ 2 * n + d ∧ 2 * n ≤ 2 * (d * m) + d ∧
      (m % 2 = 1 → 2 * (d * m) < 2 * n + d ∧ 2 * n < 2 * (d * m) + d) := by
  have hpos : (0 : ℚ) < d := by exact_mod_cast hd
  obtain ⟨hlow, hhigh, hodd⟩ := h
  rw [le_div_iff₀ hpos] at hlow
  rw [div_le_iff₀ hpos] at hhigh
  have hlow : (2 * (d * m) : ℚ) ≤ 2 * n + d := by linarith
  have hhigh : (2 * n : ℚ) ≤ 2 * (d * m) + d := by linarith
  refine ⟨by exact_mod_cast hlow, by exact_mod_cast hhigh, fun hm => ?_⟩
  obtain ⟨h1, h2⟩ := hodd hm
  rw [lt_div_iff₀ hpos] at h1
  rw [div_lt_iff₀ hpos] at h2
  have h1 : (2 * (d * m) : ℚ) < 2 * n + d := by linarith
  have h2 : (2 * n : ℚ) < 2 * (d * m) + d := by linarith
  exact ⟨by exact_mod_cast h1, by exact_mod_cast h2⟩

-- A quotient is the number that it is within a half of, or the one below.
theorem eq_or_succ_eq_of_bounds {n d m k r : Nat} (hn : d * k + r = n) (hr : r < d)
    (hlow : 2 * (d * m) ≤ 2 * n + d) (hhigh : 2 * n ≤ 2 * (d * m) + d) : k = m ∨ k + 1 = m := by
  rcases Nat.lt_trichotomy k m with hlt | heq | hgt
  · rcases Nat.lt_or_ge (k + 1) m with hlt' | hge
    · have hfar : d * (k + 2) ≤ d * m := Nat.mul_le_mul_left d hlt'
      rw [Nat.mul_add] at hfar
      omega
    · omega
  · exact .inl heq
  · have hfar : d * (m + 1) ≤ d * k := Nat.mul_le_mul_left d hgt
    rw [Nat.mul_add] at hfar
    omega

theorem roundDiv_eq {n d m : Nat} (hd : 0 < d) (h : RoundsTo m (n / d)) : roundDiv n d = m := by
  obtain ⟨hlow, hhigh, hodd⟩ := h.bounds hd
  have hn := Nat.div_add_mod n d
  have hr := Nat.mod_lt n hd
  simp only [roundDiv]
  generalize n / d = k at *
  generalize n % d = r at *
  rcases eq_or_succ_eq_of_bounds hn hr hlow hhigh with rfl | rfl
  · split
    · rfl
    · split
      · omega
      · split
        · rfl
        · omega
  · simp only [Nat.mul_add, Nat.mul_one] at hlow hhigh hodd
    split
    · omega
    · split
      · rfl
      · split
        · omega
        · rfl

-- An exponent that leaves 53 or 54 bits in front of the point, from the two lengths.
def guess (num den : Nat) : Int :=
  (Nat.log2 num : Int) - (Nat.log2 den : Int) - 53

-- The exponent at which a number has 53 bits in front of the point.
def leadExponent (num den : Nat) : Int :=
  let fits (e : Int) : Bool :=
    let (n, d) := scaled num den e
    n / d < Nat.pow 2 53
  if fits (guess num den) then guess num den else guess num den + 1

-- A rounded mantissa, which may have carried into one bit more.
def pack (negative : Bool) (m : Nat) (e : Int) : Double :=
  let (m, e) := if m = Nat.pow 2 53 then (Nat.pow 2 52, e + 1) else (m, e)
  if maxExponent < e then .infinite negative else .finite negative m e

theorem pack_of_lt (negative : Bool) {m : Nat} {e : Int} (hm : m < 2 ^ 53)
    (he : e ≤ maxExponent) : pack negative m e = .finite negative m e := by
  have hcarry : ¬m = Nat.pow 2 53 := hm.ne
  have hmost : ¬maxExponent < e := not_lt.mpr he
  simp only [pack, hcarry, if_false, hmost]

theorem pack_carry (negative : Bool) {e : Int} (he : e + 1 ≤ maxExponent) :
    pack negative (2 ^ 53) e = .finite negative (2 ^ 52) (e + 1) := by
  have hcarry : 2 ^ 53 = Nat.pow 2 53 := rfl
  have hmost : ¬maxExponent < e + 1 := not_lt.mpr he
  simp only [pack, hcarry, if_true, hmost, if_false]
  rfl

theorem ofRatio_eq (negative : Bool) (hnum : num ≠ 0) (den : Nat) :
    ofRatio negative num den =
      let e := max (leadExponent num den) minExponent
      pack negative (roundDiv (scaled num den e).1 (scaled num den e).2) e := by
  unfold ofRatio
  rw [if_neg hnum]
  rfl

theorem guess_spec (hnum : num ≠ 0) (hden : 0 < den) :
    2 ^ 52 < (num : ℚ) / den / 2 ^ guess num den ∧
      (num : ℚ) / den / 2 ^ guess num den < 2 ^ 54 := by
  have hnum1 : ((2 ^ num.log2 : Nat) : ℚ) ≤ num := by exact_mod_cast Nat.log2_self_le hnum
  have hnum2 : (num : ℚ) < ((2 ^ (num.log2 + 1) : Nat) : ℚ) := by
    exact_mod_cast Nat.lt_log2_self
  have hden1 : ((2 ^ den.log2 : Nat) : ℚ) ≤ den := by exact_mod_cast Nat.log2_self_le hden.ne'
  have hden2 : (den : ℚ) < ((2 ^ (den.log2 + 1) : Nat) : ℚ) := by
    exact_mod_cast Nat.lt_log2_self
  have hguess : (2 : ℚ) ^ guess num den = 2 ^ num.log2 / 2 ^ den.log2 / 2 ^ 53 := by
    rw [guess, zpow_sub₀ (by norm_num), zpow_sub₀ (by norm_num), zpow_natCast, zpow_natCast]
    norm_num
  have hden0 : (0 : ℚ) < den := by exact_mod_cast hden
  push_cast [pow_succ] at hnum1 hnum2 hden1 hden2
  rw [hguess]
  have ha0 : (0 : ℚ) < 2 ^ num.log2 := by positivity
  have hb0 : (0 : ℚ) < 2 ^ den.log2 := by positivity
  generalize (2 : ℚ) ^ num.log2 = a at *
  generalize (2 : ℚ) ^ den.log2 = b at *
  have hab : 0 < a / b := by positivity
  have hscale : a / b * b = a := div_mul_cancel₀ a hb0.ne'
  have hlow : a / b * den < a / b * (b * 2) := mul_lt_mul_of_pos_left hden2 hab
  have hhigh : a / b * b ≤ a / b * den := mul_le_mul_of_nonneg_left hden1 hab.le
  constructor
  · rw [lt_div_iff₀ (by positivity), lt_div_iff₀ hden0]
    linarith
  · rw [div_lt_iff₀ (by positivity), div_lt_iff₀ hden0]
    linarith

theorem leadExponent_eq (hden : 0 < den) :
    leadExponent num den =
      if (num : ℚ) / den / 2 ^ guess num den < 2 ^ 53 then guess num den
      else guess num den + 1 := by
  have hfits : (scaled num den (guess num den)).1 / (scaled num den (guess num den)).2 < 2 ^ 53 ↔
      (num : ℚ) / den / 2 ^ guess num den < 2 ^ 53 := by
    exact_mod_cast div_scaled_lt_iff hden (guess num den) (2 ^ 53)
  unfold leadExponent
  generalize guess num den = e at *
  change (if decide ((scaled num den e).1 / (scaled num den e).2 < 2 ^ 53) = true
    then e else e + 1) = _
  simp only [decide_eq_true_eq, hfits]

theorem div_two_zpow_succ (x : ℚ) (e : Int) : x / 2 ^ (e + 1) = x / 2 ^ e / 2 := by
  rw [two_zpow_succ, mul_comm, div_div]

theorem leadExponent_spec (hnum : num ≠ 0) (hden : 0 < den) :
    2 ^ 52 ≤ (num : ℚ) / den / 2 ^ leadExponent num den ∧
      (num : ℚ) / den / 2 ^ leadExponent num den < 2 ^ 53 := by
  obtain ⟨hlow, hhigh⟩ := guess_spec hnum hden
  rw [leadExponent_eq hden]
  split
  · rename_i hfits
    exact ⟨hlow.le, hfits⟩
  · rename_i hfits
    rw [div_two_zpow_succ]
    constructor <;> linarith

-- The exponent of a number in 64 bits: where it has 53 bits in front of the point, but no
-- less than the least one.
def IsExponent (q : ℚ) (e : Int) : Prop :=
  minExponent ≤ e ∧ q / 2 ^ e < 2 ^ 53 ∧ (2 ^ 52 ≤ q / 2 ^ e ∨ e = minExponent)

theorem two_zpow_le {e e' : Int} (h : e ≤ e') : (2 : ℚ) ^ e ≤ 2 ^ e' :=
  zpow_le_zpow_right₀ (by norm_num) h

theorem div_two_zpow_le {q : ℚ} (hq : 0 ≤ q) {e e' : Int} (h : e ≤ e') :
    q / 2 ^ e' ≤ q / 2 ^ e :=
  div_le_div_of_nonneg_left hq (two_zpow_pos e) (two_zpow_le h)

theorem isExponent_max (hnum : num ≠ 0) (hden : 0 < den) :
    IsExponent (num / den) (max (leadExponent num den) minExponent) := by
  obtain ⟨hlow, hhigh⟩ := leadExponent_spec hnum hden
  have hq : (0 : ℚ) ≤ num / den := by positivity
  refine ⟨le_max_right _ _, (div_two_zpow_le hq (le_max_left _ _)).trans_lt hhigh, ?_⟩
  rcases le_total (leadExponent num den) minExponent with h | h
  · exact .inr (max_eq_right h)
  · rw [max_eq_left h]
    exact .inl hlow

theorem IsExponent.le {q : ℚ} (hq : 0 ≤ q) {e e' : Int} (h : IsExponent q e)
    (h' : IsExponent q e') : e' ≤ e := by
  by_contra hlt
  obtain ⟨hmin, hhigh, -⟩ := h
  obtain ⟨-, -, hlow | hleast⟩ := h'
  · have hstep := div_two_zpow_le hq (show e + 1 ≤ e' by omega)
    rw [div_two_zpow_succ] at hstep
    linarith
  · omega

theorem IsExponent.unique {q : ℚ} (hq : 0 ≤ q) {e e' : Int} (h : IsExponent q e)
    (h' : IsExponent q e') : e = e' :=
  le_antisymm (h'.le hq h) (h.le hq h')

theorem ofRatio_of_isExponent {negative : Bool} {e : Int} {m : Nat} (hnum : num ≠ 0)
    (hden : 0 < den) (he : IsExponent (num / den) e) (hm : RoundsTo m (num / den / 2 ^ e)) :
    ofRatio negative num den = pack negative m e := by
  have hunique := he.unique (by positivity) (isExponent_max hnum hden)
  rw [ofRatio_eq negative hnum, ← hunique]
  dsimp only
  rw [roundDiv_eq (den_scaled_pos hden e) (by rwa [scaled_eq])]

-- Where rounding to a mantissa begins. Below a power of two the next smaller double is half
-- as far away.
def lowest (m : Nat) (e : Int) : ℚ :=
  if m = 2 ^ 52 ∧ minExponent < e then m - 1 / 4 else m - 1 / 2

-- The numbers that are rounded to m times a power of two.
def Rounds (m : Nat) (e : Int) (q : ℚ) : Prop :=
  lowest m e * 2 ^ e ≤ q ∧ q ≤ (m + 1 / 2) * 2 ^ e ∧
    (m % 2 = 1 → lowest m e * 2 ^ e < q ∧ q < (m + 1 / 2) * 2 ^ e)

theorem lowest_le (m : Nat) (e : Int) : lowest m e ≤ m - 1 / 4 := by
  unfold lowest
  split <;> linarith

theorem le_lowest (m : Nat) (e : Int) : (m : ℚ) - 1 / 2 ≤ lowest m e := by
  unfold lowest
  split <;> linarith

theorem Rounds.pos {m : Nat} {e : Int} {q : ℚ} (hm : 0 < m) (h : Rounds m e q) : 0 < q := by
  have hone : (1 : ℚ) ≤ m := by exact_mod_cast hm
  have hlow := le_lowest m e
  exact lt_of_lt_of_le (mul_pos (by linarith) (two_zpow_pos e)) h.1

-- A number that is rounded to a double has the exponent of the double, unless it lies below
-- a power of two; then its mantissa carries.
theorem Rounds.cases {m : Nat} {e : Int} {q : ℚ} (hr : InRange m e) (h : Rounds m e q) :
    IsExponent q e ∧ RoundsTo m (q / 2 ^ e) ∨
      m = 2 ^ 52 ∧ IsExponent q (e - 1) ∧ RoundsTo (2 ^ 53) (q / 2 ^ (e - 1)) := by
  obtain ⟨hbits, hleast, -, hlead⟩ := hr
  obtain ⟨hlow, hhigh, hodd⟩ := h
  have hpow := two_zpow_pos e
  rw [← le_div_iff₀ hpow] at hlow
  rw [← div_le_iff₀ hpow] at hhigh
  rw [← lt_div_iff₀ hpow, ← div_lt_iff₀ hpow] at hodd
  have hhalf : q / 2 ^ (e - 1) = 2 * (q / 2 ^ e) := by
    have := div_two_zpow_succ q (e - 1)
    rw [sub_add_cancel] at this
    linarith
  have hbits' : (m : ℚ) + 1 ≤ 2 ^ 53 := by exact_mod_cast hbits
  by_cases hcarry : q / 2 ^ e < 2 ^ 52 ∧ minExponent < e
  · obtain ⟨hsmall, hmin⟩ := hcarry
    have hm52 : 2 ^ 52 ≤ m := hlead.resolve_right hmin.ne'
    have hm : m = 2 ^ 52 := by
      by_contra hne
      have hm52' : 2 ^ 52 + 1 ≤ m := by omega
      have hm52'' : (2 : ℚ) ^ 52 + 1 ≤ m := by exact_mod_cast hm52'
      rw [lowest, if_neg fun h => hne h.1] at hlow
      linarith
    rw [lowest, if_pos ⟨hm, hmin⟩] at hlow
    have hmq : (m : ℚ) = 2 ^ 52 := by rw [hm]; norm_num
    rw [hmq] at hlow
    refine .inr ⟨hm, ⟨by omega, ?_, .inl ?_⟩, ?_, ?_, fun h => absurd h (by decide)⟩
    · rw [hhalf]; linarith
    · rw [hhalf]; linarith
    · rw [hhalf]; push_cast; linarith
    · rw [hhalf]; push_cast; linarith
  · have hexp : 2 ^ 52 ≤ q / 2 ^ e ∨ e = minExponent := by
      by_contra hnot
      rw [not_or, not_le] at hnot
      exact hcarry ⟨hnot.1, lt_of_le_of_ne hleast (Ne.symm hnot.2)⟩
    have hlow' := le_lowest m e
    refine .inl ⟨⟨hleast, by linarith, hexp⟩, hlow'.trans hlow, hhigh, fun h => ?_⟩
    exact ⟨hlow'.trans_lt (hodd h).1, (hodd h).2⟩

-- Reading takes every number that is rounded to a double for that double.
theorem ofRatio_of_rounds (negative : Bool) {m : Nat} {e : Int} (hm : 0 < m) (hr : InRange m e)
    (hden : 0 < den) (h : Rounds m e (num / den)) :
    ofRatio negative num den = .finite negative m e := by
  have hnum : num ≠ 0 := by
    rintro rfl
    simpa using h.pos hm
  have hmost : e ≤ maxExponent := hr.2.2.1
  rcases h.cases hr with ⟨he, hround⟩ | ⟨hcarry, he, hround⟩
  · rw [ofRatio_of_isExponent hnum hden he hround, pack_of_lt negative hr.1 hmost]
  · rw [ofRatio_of_isExponent hnum hden he hround, pack_carry negative (by omega), hcarry,
      sub_add_cancel]

theorem div_le_roundDiv (n d : Nat) : n / d ≤ roundDiv n d ∧ roundDiv n d ≤ n / d + 1 := by
  simp only [roundDiv]
  split
  · omega
  · split
    · omega
    · split <;> omega

theorem held_pack (negative : Bool) {m : Nat} {e : Int} (hbits : m ≤ 2 ^ 53)
    (hleast : minExponent ≤ e) (hlead : 2 ^ 52 ≤ m ∨ e = minExponent) :
    Held (pack negative m e) := by
  unfold pack
  by_cases hcarry : m = Nat.pow 2 53
  · rw [if_pos hcarry]
    dsimp only
    split
    · trivial
    · exact ⟨by decide, by omega, by omega, .inl le_rfl⟩
  · rw [if_neg hcarry]
    dsimp only
    split
    · trivial
    · exact ⟨lt_of_le_of_ne hbits hcarry, hleast, by omega, hlead⟩

theorem held_ofRatio (negative : Bool) (num : Nat) (hden : 0 < den) :
    Held (ofRatio negative num den) := by
  by_cases hnum : num = 0
  · rw [ofRatio, if_pos hnum]
    exact held_zero negative
  rw [ofRatio_eq negative hnum]
  obtain ⟨hleast, hhigh, hlead⟩ := isExponent_max hnum hden
  generalize max (leadExponent num den) minExponent = e at *
  have hfloor := div_le_roundDiv (scaled num den e).1 (scaled num den e).2
  have hbits : (scaled num den e).1 / (scaled num den e).2 < 2 ^ 53 :=
    (div_scaled_lt_iff hden e (2 ^ 53)).mpr (by exact_mod_cast hhigh)
  refine held_pack negative (by omega) hleast (hlead.imp_left fun hlow => ?_)
  have hlead : ¬(scaled num den e).1 / (scaled num den e).2 < 2 ^ 52 := by
    rw [div_scaled_lt_iff hden e (2 ^ 52), not_lt]
    exact_mod_cast hlow
  omega

end Dialect.Double
