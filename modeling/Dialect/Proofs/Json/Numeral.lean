import Dialect.Json.Reader
import Dialect.Json.Writer
import Dialect.Proofs.Number.Decimal
import Dialect.Proofs.Text.Code
import Dialect.Proofs.Text.Digit

namespace Dialect.Json

open Text (isDigit decimal)

variable {ds : List Char} {rest : Text} {negative : Bool}

theorem digits_append (hds : ∀ c ∈ ds, isDigit c = true)
    (hrest : ∀ c, rest.head? = some (.char c) → isDigit c = false) :
    digits (Text.ofChars ds ++ rest) = (ds, rest) := by
  induction ds with
  | nil =>
      match rest with
      | [] | .half _ :: _ => rfl
      | .char c :: _ => simp [digits, hrest c rfl]
  | cons d ds ih =>
      obtain ⟨hd, hds⟩ := List.forall_mem_cons.mp hds
      simp [digits, hd, ih hds]

-- An unsigned number as it stands in text: a whole part, the digits behind a point and a
-- power of ten. There are no zeros in front of the whole part.
structure Numeral where
  whole : List Char
  frac : List Char
  power : Option Int
  whole_ne_nil : whole ≠ []
  whole_digits : ∀ c ∈ whole, isDigit c = true
  whole_lead : whole.head? = some '0' → whole = ['0']
  frac_digits : ∀ c ∈ frac, isDigit c = true

namespace Numeral

def powerChars (power : Option Int) : List Char :=
  power.elim [] fun x => (Shortest.exponentText x).toList

def fracChars (frac : List Char) : List Char :=
  if frac = [] then [] else '.' :: frac

def chars (x : Numeral) : List Char :=
  x.whole ++ (fracChars x.frac ++ powerChars x.power)

def digits (x : Numeral) : Nat :=
  decimal (x.whole ++ x.frac)

def exponent (x : Numeral) : Int :=
  x.power.getD 0 - x.frac.length

def isWhole (x : Numeral) : Bool :=
  x.frac.isEmpty && x.power.isNone

-- Nothing that would go on with a number.
def Ends (rest : Text) : Prop :=
  ∀ c, rest.head? = some (.char c) → isDigit c = false ∧ c ≠ '.' ∧ c ≠ 'e' ∧ c ≠ 'E'

theorem exponentText_eq (x : Int) : ∃ ds, (Shortest.exponentText x).toList =
    'e' :: (if x < 0 then '-' else '+') :: ds ∧ ds ≠ [] ∧ (∀ c ∈ ds, isDigit c = true) ∧
    decimal ds = x.natAbs := by
  have hdigits : ∀ c ∈ Nat.toDigits 10 x.natAbs, isDigit c = true :=
    fun c => Text.isDigit_of_mem_toDigits
  simp only [Shortest.exponentText, String.toList_append, Nat.toString_eq_ofList_toDigits]
  by_cases hshort : (String.ofList (Nat.toDigits 10 x.natAbs)).length < 2
  · refine ⟨'0' :: Nat.toDigits 10 x.natAbs, ?_, by simp, ?_, ?_⟩
    · simp only [hshort, if_true]
      split <;> simp
    · simpa [isDigit] using hdigits
    · exact (Text.decimal_zeros_append 1 _).trans (Text.decimal_toDigits _)
  · refine ⟨Nat.toDigits 10 x.natAbs, ?_, Nat.toDigits_ne_nil, hdigits, Text.decimal_toDigits _⟩
    simp only [hshort, if_false]
    split <;> simp

theorem exponent?_exponentText (x : Int)
    (hrest : ∀ c, rest.head? = some (.char c) → isDigit c = false) :
    exponent? (Text.of (Shortest.exponentText x) ++ rest) = some (x, rest) := by
  obtain ⟨ds, htext, hne, hds, hvalue⟩ := exponentText_eq x
  have hread := digits_append hds hrest
  obtain ⟨d, ds, rfl⟩ := List.exists_cons_of_ne_nil hne
  rw [Text.ofChars_cons, List.cons_append] at hread
  rw [Text.of, htext]
  by_cases hx : x < 0
  · simp [hx, exponent?, hread, hvalue, abs_of_neg]
  · simp [hx, exponent?, hread, hvalue, abs_of_nonneg (not_lt.mp hx)]

theorem exponent?_powerChars {power : Option Int} (hrest : Ends rest) :
    exponent? (Text.ofChars (powerChars power) ++ rest) = power.map fun x => (x, rest) := by
  cases power with
  | some x => exact exponent?_exponentText x fun c hc => (hrest c hc).1
  | none =>
      match rest with
      | [] => rfl
      | .half _ :: _ => simp [powerChars, exponent?]
      | .char c :: _ =>
          obtain ⟨-, -, he, hE⟩ := hrest c rfl
          simp [powerChars, exponent?, he, hE]

theorem head?_powerChars (power : Option Int) (hrest : Ends rest) :
    ∀ c, (Text.ofChars (powerChars power) ++ rest).head? = some (.char c) →
      isDigit c = false ∧ c ≠ '.' := by
  cases power with
  | none => exact fun c hc => ⟨(hrest c hc).1, (hrest c hc).2.1⟩
  | some x =>
      obtain ⟨ds, htext, -⟩ := exponentText_eq x
      simp [powerChars, htext, isDigit]

theorem fraction_fracChars {frac : List Char} (hfrac : ∀ c ∈ frac, isDigit c = true)
    (hrest : ∀ c, rest.head? = some (.char c) → isDigit c = false ∧ c ≠ '.') :
    fraction (Text.ofChars (fracChars frac) ++ rest) = (frac, rest) := by
  cases frac with
  | nil =>
      match rest with
      | [] | .half _ :: _ => rfl
      | .char c :: _ => simp [fracChars, fraction, (hrest c rfl).2]
  | cons d frac =>
      have hread := digits_append hfrac fun c hc => (hrest c hc).1
      rw [Text.ofChars_cons, List.cons_append] at hread
      simp [fracChars, fraction, hread]

theorem head?_fracChars (frac : List Char)
    (hrest : ∀ c, rest.head? = some (.char c) → isDigit c = false) :
    ∀ c, (Text.ofChars (fracChars frac) ++ rest).head? = some (.char c) → isDigit c = false := by
  cases frac with
  | nil => exact hrest
  | cons d frac => simp [fracChars, isDigit]

theorem whole_append (x : Numeral)
    (hrest : ∀ c, rest.head? = some (.char c) → isDigit c = false) :
    Json.whole (Text.ofChars x.whole ++ rest) = (x.whole, rest) := by
  unfold Json.whole
  split
  · rename_i tail h
    obtain ⟨d, ds, hwhole⟩ := List.exists_cons_of_ne_nil x.whole_ne_nil
    simp only [hwhole, Text.ofChars_cons, List.cons_append, List.cons.injEq,
      Code.char.injEq] at h
    have hzero : x.whole = ['0'] := x.whole_lead (by simp [hwhole, h.1])
    obtain rfl : ds = [] := by simp_all
    rw [hzero, ← h.2]
    rfl
  · exact digits_append x.whole_digits hrest

-- What a numeral stands for: a whole number if it has neither a fraction nor a power.
def value (negative : Bool) (x : Numeral) : Json :=
  if x.isWhole then int (if negative then -(x.digits : Int) else x.digits)
  else double (Double.ofDecimal negative x.digits x.exponent)

-- Reading a number takes exactly its text.
theorem number?_chars (negative : Bool) (x : Numeral) (hrest : Ends rest) :
    number? negative (Text.ofChars x.chars ++ rest) = some (x.value negative, rest) := by
  have hpower := head?_powerChars x.power hrest
  have hfrac := head?_fracChars x.frac fun c hc => (hpower c hc).1
  have hempty : x.whole.isEmpty = false := by simp [x.whole_ne_nil]
  simp only [chars, Text.ofChars_append, List.append_assoc, number?, whole_append x hfrac, hempty,
    fraction_fracChars x.frac_digits hpower, exponent?_powerChars hrest]
  obtain ⟨whole, frac, power, -, -, -, -⟩ := x
  cases frac <;> cases power <;> simp [value, isWhole, digits, exponent, powerChars]

theorem exists_chars_eq_cons (x : Numeral) : ∃ d ds, x.chars = d :: ds ∧ isDigit d = true := by
  obtain ⟨d, ds, hwhole⟩ := List.exists_cons_of_ne_nil x.whole_ne_nil
  refine ⟨d, ds ++ (fracChars x.frac ++ powerChars x.power), ?_, ?_⟩
  · rw [chars, hwhole, List.cons_append]
  · exact x.whole_digits d (by simp [hwhole])

def signed (negative : Bool) (x : Numeral) : List Char :=
  if negative then '-' :: x.chars else x.chars

-- No word starts with a digit, and none with a minus and a digit.
theorem atom_signed (negative : Bool) (x : Numeral) (hrest : Ends rest) :
    atom (Text.ofChars (x.signed negative) ++ rest) = .ok (x.value negative, rest) := by
  obtain ⟨d, ds, hchars, hd⟩ := x.exists_chars_eq_cons
  have hnumber := number?_chars negative x hrest
  have hne : ∀ c, isDigit c = false → c ≠ d := by
    rintro c hc rfl
    simp [hd] at hc
  have hwords : words.findSome? (fun p =>
      (after? p.1 (Text.ofChars (x.signed negative) ++ rest)).map fun r => (p.2, r)) = none := by
    cases negative <;> simp [words, Text.of, signed, hchars, after?, hne 'n' rfl, hne 't' rfl,
      hne 'f' rfl, hne 'N' rfl, hne 'I' rfl, hne '-' rfl]
  unfold atom
  split
  · rename_i hfound
    exact absurd (hwords.symm.trans hfound) (by simp)
  · cases negative with
    | true => simp only [signed, if_true, Text.ofChars_cons, List.cons_append, hnumber]
    | false =>
        rw [hchars, Text.ofChars_cons, List.cons_append] at hnumber
        simp [signed, hchars, hnumber, (hne '-' rfl).symm]

-- The numeral that a zero is written as.
def pointZero : Numeral where
  whole := ['0']
  frac := ['0']
  power := none
  whole_ne_nil := by simp
  whole_digits := by simp [isDigit]
  whole_lead := by simp
  frac_digits := by simp [isDigit]

section Printed

open Shortest (positiveText zeros)

-- The digits of a positive number up to its last one that is not zero, and how many zeros
-- stand behind them.
theorem exists_significant {n : Nat} (hn : 0 < n) : ∃ d more z,
    ((Nat.toDigits 10 n).reverse.dropWhile (· == '0')).reverse = d :: more ∧ d ≠ '0' ∧
      (Nat.toDigits 10 n).length = (d :: more).length + z ∧
      (∀ c ∈ d :: more, isDigit c = true) ∧ decimal (d :: more) * 10 ^ z = n := by
  generalize htrail : (Nat.toDigits 10 n).reverse.takeWhile (· == '0') = trail
  generalize hds : ((Nat.toDigits 10 n).reverse.dropWhile (· == '0')).reverse = ds
  have hzeros : trail = List.replicate trail.length '0' :=
    List.eq_replicate_of_mem fun c hc =>
      beq_iff_eq.mp (List.all_eq_true.mp (htrail ▸ List.all_takeWhile) c hc)
  have hsplit : Nat.toDigits 10 n = ds ++ List.replicate trail.length '0' := by
    rw [← List.reverse_replicate, ← hzeros, ← hds, ← htrail, ← List.reverse_append,
      List.takeWhile_append_dropWhile, List.reverse_reverse]
  have hvalue : decimal ds * 10 ^ trail.length = n := by
    rw [← Text.decimal_append_zeros, ← hsplit, Text.decimal_toDigits]
  have hne : ds ≠ [] := by
    rintro rfl
    simp only [decimal, List.foldl_nil] at hvalue
    omega
  obtain ⟨d, more, rfl⟩ := List.exists_cons_of_ne_nil hne
  refine ⟨d, more, trail.length, rfl, ?_, ?_, ?_, hvalue⟩
  · rintro rfl
    exact Text.head?_toDigits hn (by simp [hsplit])
  · rw [hsplit, List.length_append, List.length_replicate]
  · intro c hc
    exact Text.isDigit_of_mem_toDigits (hsplit ▸ List.mem_append_left _ hc)

variable {d : Char} {more : List Char} (hdigits : ∀ c ∈ d :: more, isDigit c = true)

-- The first digit, the others behind the point, and the power of ten of the first.
def scientific (lead : Int) : Numeral where
  whole := [d]
  frac := more
  power := some lead
  whole_ne_nil := by simp
  whole_digits := fun c hc => hdigits c (by simp_all)
  whole_lead := by simp
  frac_digits := fun c hc => hdigits c (List.mem_cons_of_mem d hc)

-- Nothing but zeros in front of the digits.
def small (k : Nat) : Numeral where
  whole := ['0']
  frac := List.replicate k '0' ++ d :: more
  power := none
  whole_ne_nil := by simp
  whole_digits := by simp [isDigit]
  whole_lead := by simp
  frac_digits := by
    intro c hc
    cases List.mem_append.mp hc with
    | inl hc => simp [isDigit, List.eq_of_mem_replicate hc]
    | inr hc => exact hdigits c hc

-- As many digits as stand in front of the point, with zeros where there are too few.
def positional (hd : d ≠ '0') (k : Nat) : Numeral where
  whole := (d :: more).take (k + 1) ++ List.replicate (k - more.length) '0'
  frac := if more.drop k = [] then ['0'] else more.drop k
  power := none
  whole_ne_nil := by simp
  whole_digits := by
    intro c hc
    cases List.mem_append.mp hc with
    | inl hc => exact hdigits c (List.mem_of_mem_take hc)
    | inr hc => simp [isDigit, List.eq_of_mem_replicate hc]
  whole_lead := by simp [hd]
  frac_digits := by
    intro c hc
    split at hc
    · simp_all [isDigit]
    · exact hdigits c (List.mem_cons_of_mem d (List.mem_of_mem_drop hc))

theorem digits_small (k : Nat) : (small hdigits k).digits = decimal (d :: more) :=
  Text.decimal_zeros_append (k + 1) (d :: more)

theorem digits_positional (hd : d ≠ '0') (k : Nat) : ∃ j : Nat,
    (positional hdigits hd k).digits = decimal (d :: more) * 10 ^ j ∧
      (positional hdigits hd k).exponent + j = k - more.length := by
  by_cases hback : more.drop k = []
  · have hlen : more.length ≤ k := List.drop_eq_nil_iff.mp hback
    refine ⟨k - more.length + 1, ?_, ?_⟩
    · have htake : (d :: more).take (k + 1) = d :: more := List.take_of_length_le (by simpa)
      simp only [digits, positional, htake, if_pos hback, List.append_assoc]
      rw [← List.replicate_succ', Text.decimal_append_zeros]
    · simp only [exponent, positional, if_pos hback, Option.getD_none, List.length_singleton]
      omega
  · have hlen : k < more.length := by
      rw [List.drop_eq_nil_iff] at hback
      omega
    refine ⟨0, ?_, ?_⟩
    · have hnone : k - more.length = 0 := by omega
      simp only [digits, positional, if_neg hback, hnone, List.replicate_zero, List.append_nil,
        pow_zero, Nat.mul_one]
      exact congrArg decimal (List.take_append_drop (k + 1) (d :: more))
    · simp only [exponent, positional, if_neg hback, Option.getD_none, List.length_drop]
      omega

theorem scaled_eq {ds : List Char} {n z digits : Nat} {exponent p : Int} (k : Nat)
    (hn : decimal ds * 10 ^ z = n) (hdigits : digits = decimal ds * 10 ^ k)
    (hexp : exponent + k = p + z) : (digits : ℚ) * 10 ^ exponent = n * 10 ^ p := by
  rw [← hn, hdigits]
  push_cast
  rw [mul_assoc, mul_assoc, ← zpow_natCast, ← zpow_natCast, ← zpow_add₀ (by norm_num),
    ← zpow_add₀ (by norm_num), add_comm (k : Int), add_comm (z : Int), hexp]

-- A positive number is written as a numeral with a fraction or a power, whatever the style.
theorem exists_positiveText (style : Shortest.Style) {n : Nat} (hn : 0 < n) (p : Int) :
    ∃ x : Numeral, (positiveText style n p).toList = x.chars ∧ x.isWhole = false ∧
      (x.digits : ℚ) * 10 ^ x.exponent = n * 10 ^ p := by
  obtain ⟨d, more, z, hds, hd, hlen, hdigits, hvalue⟩ := exists_significant hn
  generalize hlead : p + (Nat.toDigits 10 n).length - 1 = lead
  have hlead' : lead = p + more.length + z := by
    rw [← hlead, hlen]
    push_cast [List.length_cons]
    omega
  simp only [positiveText, hds, hlead]
  split
  · refine ⟨scientific hdigits lead, ?_, by simp [scientific, isWhole], ?_⟩
    · cases more <;> simp [scientific, chars, fracChars, powerChars]
    · refine scaled_eq 0 hvalue (by simp [scientific, digits]) ?_
      simp only [scientific, exponent, Option.getD_some]
      omega
  split
  · refine ⟨small hdigits (-lead - 1).toNat, ?_, by simp [small, isWhole], ?_⟩
    · simp [small, chars, fracChars, powerChars, zeros]
    · refine scaled_eq 0 hvalue (by simp [digits_small]) ?_
      simp only [small, exponent, Option.getD_none, List.length_append, List.length_replicate,
        List.length_cons]
      omega
  · obtain ⟨j, hpositional, hexp⟩ := digits_positional hdigits hd lead.toNat
    refine ⟨positional hdigits hd lead.toNat, ?_, ?_, scaled_eq j hvalue hpositional (by omega)⟩
    · have hmin : lead.toNat - min lead.toNat more.length = lead.toNat - more.length := by omega
      by_cases hback : more.drop lead.toNat = []
      · simp [positional, chars, fracChars, powerChars, zeros, hback, hmin]
      · simp [positional, chars, fracChars, powerChars, zeros, hback, hmin]
    · simp only [positional, isWhole]
      split <;> simp_all

end Printed

end Numeral

end Dialect.Json
