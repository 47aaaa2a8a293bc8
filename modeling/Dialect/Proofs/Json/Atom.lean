import Dialect.Proofs.Json.Numeral

namespace Dialect.Json

open Numeral (Ends)

variable {rest : Text}

-- The numeral of a natural number.
def Numeral.ofNat (n : Nat) : Numeral where
  whole := Nat.toDigits 10 n
  frac := []
  power := none
  whole_ne_nil := Nat.toDigits_ne_nil
  whole_digits := fun _ => Text.isDigit_of_mem_toDigits
  whole_lead := by
    intro h
    obtain rfl | hn := Nat.eq_zero_or_pos n
    · rfl
    · exact absurd h (Text.head?_toDigits hn)
  frac_digits := by simp

theorem toList_toString_int (i : Int) :
    (toString i).toList = (Numeral.ofNat i.natAbs).signed (decide (i < 0)) := by
  cases i with
  | ofNat n =>
      simp [Numeral.signed, Numeral.ofNat, Numeral.chars, Numeral.fracChars, Numeral.powerChars,
        toString, Int.repr, Nat.toList_repr]
  | negSucc n =>
      simp [Numeral.signed, Numeral.ofNat, Numeral.chars, Numeral.fracChars, Numeral.powerChars,
        toString, Int.repr, Nat.toList_repr]

theorem value_ofNat (i : Int) : (Numeral.ofNat i.natAbs).value (decide (i < 0)) = int i := by
  simp only [Numeral.value, Numeral.isWhole, Numeral.ofNat, Numeral.digits, List.append_nil,
    Text.decimal_toDigits, List.isEmpty_nil, Option.isNone_none, Bool.and_self, if_true,
    decide_eq_true_eq, int.injEq]
  split <;> omega

theorem atom_int (i : Int) (hrest : Ends rest) :
    atom (Text.of (toString i) ++ rest) = .ok (int i, rest) := by
  rw [Text.of, toList_toString_int, Numeral.atom_signed _ _ hrest, value_ofNat]

-- A finite double is written as a numeral that stands for it.
theorem exists_text_finite (style : Shortest.Style) (negative : Bool) {m : Nat} {e : Int}
    (hr : Double.InRange m e) : ∃ x : Numeral,
      (Shortest.text style (.finite negative m e)).toList = x.signed negative ∧
        x.value negative = double (.finite negative m e) := by
  obtain rfl | hm := Nat.eq_zero_or_pos m
  · have he : e = Double.minExponent := by
      have := hr.2.2.2
      omega
    refine ⟨Numeral.pointZero, ?_, ?_⟩
    · cases negative <;> simp [Shortest.text, Numeral.signed, Numeral.pointZero, Numeral.chars,
        Numeral.fracChars, Numeral.powerChars]
    · subst he
      rfl
  · obtain ⟨hpos, hrounds⟩ := Shortest.digits_spec (e := e) hm hr.1
    obtain ⟨x, htext, hwhole, hvalue⟩ :=
      Numeral.exists_positiveText style hpos (Shortest.digits m e).2
    refine ⟨x, ?_, ?_⟩
    · simp only [Shortest.text, hm.ne', if_false, String.toList_append, htext, Numeral.signed]
      cases negative <;> rfl
    · rw [← hvalue] at hrounds
      simp only [Numeral.value, hwhole, Bool.false_eq_true, if_false, double.injEq]
      exact Double.ofDecimal_of_rounds negative hm hr hrounds

-- The shortest text of a double reads back as that double.
theorem atom_double {d : Double} (hd : d.Held) (hrest : Ends rest) :
    atom (Text.of (Shortest.text numberStyle d) ++ rest) = .ok (double d, rest) := by
  cases d with
  | finite negative m e =>
      obtain ⟨x, htext, hvalue⟩ := exists_text_finite numberStyle negative hd
      rw [Text.of, htext, Numeral.atom_signed _ _ hrest, hvalue]
  | infinite negative => cases negative <;> rfl
  | nan => rfl

end Dialect.Json
