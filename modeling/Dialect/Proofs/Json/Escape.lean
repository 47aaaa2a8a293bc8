import Dialect.Json.Reader
import Dialect.Json.Writer
import Dialect.Proofs.Text.Code
import Dialect.Proofs.Text.Digit

namespace Dialect.Json

variable {opening rest : Text} {fuel n : Nat} {ascii : Bool}

theorem hexDigits_four (n : Nat) : Text.hexDigits 4 n =
    [Text.hexDigit (n / 16 / 16 / 16 % 16), Text.hexDigit (n / 16 / 16 % 16),
      Text.hexDigit (n / 16 % 16), Text.hexDigit (n % 16)] := rfl

-- A unit as it is escaped, behind its backslash and its letter.
def unitDigits (n : Nat) : Text :=
  .ofChars (Text.hexDigits 4 n)

theorem ofChars_unitEscape (n : Nat) :
    Text.ofChars (unitEscape n) = .char '\\' :: .char 'u' :: unitDigits n := rfl

theorem unitEscape?_unitDigits (hn : n < 0x10000) (hrest : rest ≠ []) :
    unitEscape? (unitDigits n ++ rest) = some (n, rest) := by
  obtain ⟨c, rest, rfl⟩ := List.exists_cons_of_ne_nil hrest
  have hvalue : ((n / 16 / 16 / 16 % 16 * 16 + n / 16 / 16 % 16) * 16 + n / 16 % 16) * 16 +
      n % 16 = n := by omega
  simp [unitDigits, hexDigits_four, unitEscape?, unit?, hexValue?,
    Text.hexValue?_hexDigit (Nat.mod_lt _ _), hvalue]

-- No character is half of a surrogate pair.
theorem not_isHighSurrogate_toNat (c : Char) : isHighSurrogate c.toNat = false := by
  have hhalf := Code.not_isHalf_toNat c
  simp only [Code.IsHalf] at hhalf
  simp only [isHighSurrogate, Bool.and_eq_false_iff, decide_eq_false_iff_not]
  omega

theorem escape_unitEscape (c : Char) (hc : c.toNat < 0x10000) (hrest : rest ≠ []) :
    escape opening (.char 'u' :: (unitDigits c.toNat ++ rest)) = .ok (.char c, rest) := by
  have hcode : Code.ofNat c.toNat = .char c := Code.ofNat_toNat (.char c)
  simp [escape, unitEscape?_unitDigits hc hrest, not_isHighSurrogate_toNat, hcode]

theorem escape_pair {high low : Nat} {c : Char} (hhigh : isHighSurrogate high = true)
    (hlow : isLowSurrogate low = true) (hpair : pairChar high low = c) (hrest : rest ≠ []) :
    escape opening (.char 'u' :: (unitDigits high ++ (Text.ofChars (unitEscape low) ++ rest))) =
      .ok (.char c, rest) := by
  have hhigh' : high < 0x10000 := by
    simp only [isHighSurrogate, Bool.and_eq_true, decide_eq_true_eq] at hhigh
    omega
  have hlow' : low < 0x10000 := by
    simp only [isLowSurrogate, Bool.and_eq_true, decide_eq_true_eq] at hlow
    omega
  rw [ofChars_unitEscape, List.cons_append, List.cons_append]
  have hfirst : unitEscape? (unitDigits high ++ .char '\\' :: .char 'u' ::
      (unitDigits low ++ rest)) = some (high, .char '\\' :: .char 'u' ::
        (unitDigits low ++ rest)) :=
    unitEscape?_unitDigits hhigh' (by simp)
  have hsecond := unitEscape?_unitDigits hlow' hrest
  simp only [escape, hfirst, hhigh, hsecond, hlow, if_true, hpair]

-- A character beyond sixteen bits comes back from its two halves.
theorem pairChar_halves {c : Char} (hc : 0x10000 ≤ c.toNat) :
    isHighSurrogate (0xD800 + (c.toNat - 0x10000) / 1024) = true ∧
      isLowSurrogate (0xDC00 + (c.toNat - 0x10000) % 1024) = true ∧
      pairChar (0xD800 + (c.toNat - 0x10000) / 1024) (0xDC00 + (c.toNat - 0x10000) % 1024) = c := by
  have hlt : c.toNat < 0x110000 := Code.toNat_lt (.char c)
  refine ⟨?_, ?_, ?_⟩
  · simp only [isHighSurrogate, Bool.and_eq_true, decide_eq_true_eq]
    omega
  · simp only [isLowSurrogate, Bool.and_eq_true, decide_eq_true_eq]
    omega
  · unfold pairChar
    rw [show 0x10000 + (0xD800 + (c.toNat - 0x10000) / 1024 - 0xD800) * 1024 +
      (0xDC00 + (c.toNat - 0x10000) % 1024 - 0xDC00) = c.toNat by omega, Char.ofNat_toNat]

theorem escape_short {c : Char} {e : Code} (h : shortEscape? e = some c) :
    escape opening (e :: rest) = .ok (.char c, rest) := by
  unfold escape
  split
  · contradiction
  · rename_i heq
    cases heq
    simp [shortEscape?] at h
  · rename_i heq
    cases heq
    simp only [h]

-- How a character is written: by a letter behind a backslash, by its number, by its two
-- halves, or as it is.
theorem charText_cases (ascii : Bool) (c : Char) :
    (∃ e, charText ascii c = ['\\', e] ∧ shortEscape? (.char e) = some c) ∨
    (charText ascii c = unitEscape c.toNat ∧ c.toNat < 0x10000) ∨
    (charText ascii c = unitEscape (0xD800 + (c.toNat - 0x10000) / 1024) ++
      unitEscape (0xDC00 + (c.toNat - 0x10000) % 1024) ∧ 0x10000 ≤ c.toNat) ∨
    (charText ascii c = [c] ∧ c ≠ '"' ∧ c ≠ '\\' ∧ 32 ≤ c.toNat ∧
      (ascii = true → c.toNat ≤ 126)) := by
  have hchar : ∀ n, c.toNat = n → some (Char.ofNat n) = some c := by
    rintro n rfl
    rw [Char.ofNat_toNat]
  generalize htext : charText ascii c = text
  unfold charText at htext
  dsimp only at htext
  split at htext
  · exact .inl ⟨'"', htext.symm, by simp_all [shortEscape?]⟩
  split at htext
  · exact .inl ⟨'\\', htext.symm, by simp_all [shortEscape?]⟩
  split at htext
  · exact .inl ⟨'n', htext.symm, by simp_all [shortEscape?]⟩
  split at htext
  · exact .inl ⟨'r', htext.symm, by simp_all [shortEscape?]⟩
  split at htext
  · exact .inl ⟨'t', htext.symm, by simp_all [shortEscape?]⟩
  split at htext
  · exact .inl ⟨'b', htext.symm, hchar 8 ‹_›⟩
  split at htext
  · exact .inl ⟨'f', htext.symm, hchar 12 ‹_›⟩
  split at htext
  · exact .inr (.inl ⟨htext.symm, by omega⟩)
  split at htext
  · split at htext
    · exact .inr (.inl ⟨htext.symm, ‹_›⟩)
    · exact .inr (.inr (.inl ⟨htext.symm, by omega⟩))
  · rename_i hquote hslash _ _ _ _ _ hcontrol hascii
    refine .inr (.inr (.inr ⟨htext.symm, hquote, hslash, by omega, ?_⟩))
    rintro rfl
    simpa using hascii

theorem stringBody_plain {c : Code} (hquote : c ≠ .char '"') (hslash : c ≠ .char '\\')
    (hc : 32 ≤ c.toNat) :
    stringBody opening (fuel + 1) (c :: rest) =
      (stringBody opening fuel rest).map fun (cs, r) => (c :: cs, r) := by
  simp only [stringBody, if_neg hquote, if_neg hslash, Nat.not_lt.mpr hc, if_false]
  cases stringBody opening fuel rest <;> rfl

theorem stringBody_escape {c : Code} {s : Text} (h : escape opening s = .ok (c, rest)) :
    stringBody opening (fuel + 1) (.char '\\' :: s) =
      (stringBody opening fuel rest).map fun (cs, r) => (c :: cs, r) := by
  simp only [stringBody, Code.char.injEq, Char.reduceEq, if_false, if_true, h]
  change (stringBody opening fuel rest >>= _) = _
  cases stringBody opening fuel rest <;> rfl

-- Reading a string takes the text of one character at a time.
theorem stringBody_charText (c : Char) (hrest : rest ≠ []) :
    stringBody opening (fuel + 1) (codeText ascii (.char c) ++ rest) =
      (stringBody opening fuel rest).map fun (cs, r) => (.char c :: cs, r) := by
  rw [codeText]
  obtain ⟨e, htext, he⟩ | ⟨htext, hc⟩ | ⟨htext, hc⟩ | ⟨htext, hquote, hslash, hc, -⟩ :=
    charText_cases ascii c
  · rw [htext]
    exact stringBody_escape (escape_short he)
  · rw [htext]
    exact stringBody_escape (escape_unitEscape c hc hrest)
  · obtain ⟨hhigh, hlow, hpair⟩ := pairChar_halves hc
    rw [htext, Text.ofChars_append, List.append_assoc]
    exact stringBody_escape (escape_pair hhigh hlow hpair hrest)
  · rw [htext]
    exact stringBody_plain (by simpa using hquote) (by simpa using hslash) hc

-- A half is a text of its own where it stays as it is.
theorem stringBody_half (d : Fin 0x800) :
    stringBody opening (fuel + 1) (codeText false (.half d) ++ rest) =
      (stringBody opening fuel rest).map fun (cs, r) => (.half d :: cs, r) :=
  stringBody_plain (by simp) (by simp) (by simp only [Code.toNat]; omega)

-- The texts that come back from how they are written: all of them, where halves stay as they are.
def Restored (ascii : Bool) (s : Text) : Prop :=
  ascii = true → s.isPlain = true

theorem Restored.of_cons {c : Code} {s : Text} (h : Restored ascii (c :: s)) :
    Restored ascii s := by
  intro hascii
  obtain ⟨cs, hcs⟩ := Text.isPlain_iff.mp (h hascii)
  cases cs with
  | nil => cases hcs
  | cons c cs => exact Text.isPlain_iff.mpr ⟨cs, (List.cons.inj hcs).2⟩

theorem stringBody_codeText {c : Code} {s : Text} (h : Restored ascii (c :: s))
    (hrest : rest ≠ []) :
    stringBody opening (fuel + 1) (codeText ascii c ++ rest) =
      (stringBody opening fuel rest).map fun (cs, r) => (c :: cs, r) := by
  cases c with
  | char c => exact stringBody_charText c hrest
  | half d =>
      cases ascii with
      | false => exact stringBody_half d
      | true => exact absurd (h rfl) (by simp [Text.isPlain, Text.chars?])

theorem stringBody_text (s : Text) (hs : Restored ascii s) (hfuel : s.length < fuel) :
    stringBody opening fuel (s.flatMap (codeText ascii) ++ .char '"' :: rest) =
      .ok (s, rest) := by
  induction s generalizing fuel with
  | nil =>
      obtain ⟨fuel, rfl⟩ := Nat.exists_eq_add_one_of_ne_zero (Nat.ne_of_gt hfuel)
      simp [stringBody]
  | cons c s ih =>
      obtain ⟨fuel, rfl⟩ := Nat.exists_eq_add_one_of_ne_zero (Nat.ne_zero_of_lt hfuel)
      rw [List.flatMap_cons, List.append_assoc, stringBody_codeText hs (by simp),
        ih hs.of_cons (Nat.lt_of_succ_lt_succ hfuel)]
      rfl

theorem codeText_ne_nil (ascii : Bool) (c : Code) : codeText ascii c ≠ [] := by
  cases c with
  | char c =>
      obtain ⟨e, htext, -⟩ | ⟨htext, -⟩ | ⟨htext, -⟩ | ⟨htext, -⟩ := charText_cases ascii c
      all_goals simp [codeText, htext, unitEscape]
  | half d => cases ascii <;> simp [codeText, unitEscape]

theorem length_le_length_flatMap (ascii : Bool) (s : Text) :
    s.length ≤ (s.flatMap (codeText ascii)).length := by
  induction s with
  | nil => simp
  | cons c s ih =>
      have hc := List.length_pos_iff.mpr (codeText_ne_nil ascii c)
      simp only [List.flatMap_cons, List.length_append, List.length_cons]
      omega

-- The text of a string reads back as the string.
theorem stringAt_stringText {s : Text} (hs : Restored ascii s) (rest : Text) :
    stringAt (stringText ascii s ++ rest) = .ok (s, rest) := by
  have hlen := length_le_length_flatMap ascii s
  have hfuel : s.length < (stringText ascii s ++ rest).length := by
    simp only [stringText, List.length_append, List.length_cons]
    omega
  have hdrop : (stringText ascii s ++ rest).drop 1 =
      s.flatMap (codeText ascii) ++ .char '"' :: rest := by
    simp [stringText]
  rw [stringAt, hdrop, stringBody_text s hs hfuel]

end Dialect.Json
