import Dialect.Text.Utf8
import Mathlib.Tactic.Common

namespace Dialect.Utf8

open String (utf8EncodeChar)

section Bytes

variable {first low high b c₁ c₂ c₃ : UInt8} {taken follow bits n : Nat} {s rest : List UInt8}
  {c : Char}

theorem following_succ_eq_char_iff :
    following first low high taken (follow + 1) bits s = .char c n ↔
      ∃ b rest, s = b :: rest ∧ low.toNat ≤ b.toNat ∧ b.toNat ≤ high.toNat ∧
        following first 0x80 0xBF (taken + 1) follow (bits * 64 + (b.toNat - 0x80)) rest =
          .char c n := by
  cases s with
  | nil => simp [following]
  | cons b rest =>
      by_cases h : low ≤ b ∧ b ≤ high
      · simp [following, h, UInt8.le_iff_toNat_le.mp h.1, UInt8.le_iff_toNat_le.mp h.2]
      · have h' : ¬(low.toNat ≤ b.toNat ∧ b.toNat ≤ high.toNat) := by
          simpa only [UInt8.le_iff_toNat_le] using h
        simp only [following, Bool.and_eq_true, decide_eq_true_eq, h, if_false]
        simp only [reduceCtorEq, List.cons.injEq, false_iff, not_exists, not_and]
        rintro _ _ ⟨rfl, rfl⟩ hlow hhigh
        exact absurd ⟨hlow, hhigh⟩ h'

theorem following_zero_eq_char_iff :
    following first low high taken 0 bits s = .char c n ↔ Char.ofNat bits = c ∧ taken = n := by
  simp [following]

-- The first bytes of characters with two, three and four bytes, with the range of the second.
theorem lead?_eq_some_iff {l : Lead} : lead? b = some l ↔
    0xC2 ≤ b.toNat ∧ b.toNat ≤ 0xDF ∧ l = ⟨1, 0x80, 0xBF, b.toNat - 0xC0⟩ ∨
    0xE0 ≤ b.toNat ∧ b.toNat ≤ 0xEF ∧ l = ⟨2, if b.toNat = 0xE0 then 0xA0 else 0x80,
      if b.toNat = 0xED then 0x9F else 0xBF, b.toNat - 0xE0⟩ ∨
    0xF0 ≤ b.toNat ∧ b.toNat ≤ 0xF4 ∧ l = ⟨3, if b.toNat = 0xF0 then 0x90 else 0x80,
      if b.toNat = 0xF4 then 0x8F else 0xBF, b.toNat - 0xF0⟩ := by
  generalize hn : b.toNat = n
  simp only [lead?, hn, Bool.and_eq_true, decide_eq_true_eq]
  split_ifs <;> grind

theorem ofNat_eq_of_toNat_eq {v : Nat} (h : b.toNat = v) : UInt8.ofNat v = b := by
  rw [← h, UInt8.ofNat_toNat]

theorem toNat_ofNat_of_valid {v : Nat} (h : v.isValidChar) : (Char.ofNat v).val.toNat = v := by
  rw [Char.ofNat, dif_pos h]
  rfl

-- A byte behind the first one.
def IsTail (b : UInt8) : Prop := 0x80 ≤ b.toNat ∧ b.toNat ≤ 0xBF

-- What the bytes of a character make when they are put together again. Where the first byte
-- narrows the range of the second one, the character would need fewer bytes, or be half of a
-- surrogate pair, or be out of range.
theorem utf8EncodeChar_two (hb : 0xC2 ≤ b.toNat ∧ b.toNat ≤ 0xDF) (h₁ : IsTail c₁) :
    utf8EncodeChar (Char.ofNat ((b.toNat - 0xC0) * 64 + (c₁.toNat - 0x80))) = [b, c₁] := by
  unfold IsTail at h₁
  generalize hv : (b.toNat - 0xC0) * 64 + (c₁.toNat - 0x80) = v
  have hvalid : v.isValidChar := .inl (by omega)
  simp only [utf8EncodeChar, toNat_ofNat_of_valid hvalid]
  rw [if_neg (by omega), if_pos (by omega), ofNat_eq_of_toNat_eq (b := b) (by omega),
    ofNat_eq_of_toNat_eq (b := c₁) (by omega)]

theorem utf8EncodeChar_three (hb : 0xE0 ≤ b.toNat ∧ b.toNat ≤ 0xEF) (h₁ : IsTail c₁)
    (hleast : b.toNat = 0xE0 → 0xA0 ≤ c₁.toNat) (hmost : b.toNat = 0xED → c₁.toNat ≤ 0x9F)
    (h₂ : IsTail c₂) :
    utf8EncodeChar (Char.ofNat (((b.toNat - 0xE0) * 64 + (c₁.toNat - 0x80)) * 64 +
      (c₂.toNat - 0x80))) = [b, c₁, c₂] := by
  unfold IsTail at h₁ h₂
  generalize hv : ((b.toNat - 0xE0) * 64 + (c₁.toNat - 0x80)) * 64 + (c₂.toNat - 0x80) = v
  have hvalid : v.isValidChar := by
    unfold Nat.isValidChar
    omega
  simp only [utf8EncodeChar, toNat_ofNat_of_valid hvalid]
  rw [if_neg (by omega), if_neg (by omega), if_pos (by omega),
    ofNat_eq_of_toNat_eq (b := b) (by omega), ofNat_eq_of_toNat_eq (b := c₁) (by omega),
    ofNat_eq_of_toNat_eq (b := c₂) (by omega)]

theorem utf8EncodeChar_four (hb : 0xF0 ≤ b.toNat ∧ b.toNat ≤ 0xF4) (h₁ : IsTail c₁)
    (hleast : b.toNat = 0xF0 → 0x90 ≤ c₁.toNat) (hmost : b.toNat = 0xF4 → c₁.toNat ≤ 0x8F)
    (h₂ : IsTail c₂) (h₃ : IsTail c₃) :
    utf8EncodeChar (Char.ofNat ((((b.toNat - 0xF0) * 64 + (c₁.toNat - 0x80)) * 64 +
      (c₂.toNat - 0x80)) * 64 + (c₃.toNat - 0x80))) = [b, c₁, c₂, c₃] := by
  unfold IsTail at h₁ h₂ h₃
  generalize hv : (((b.toNat - 0xF0) * 64 + (c₁.toNat - 0x80)) * 64 + (c₂.toNat - 0x80)) * 64 +
    (c₃.toNat - 0x80) = v
  have hvalid : v.isValidChar := by
    unfold Nat.isValidChar
    omega
  simp only [utf8EncodeChar, toNat_ofNat_of_valid hvalid]
  rw [if_neg (by omega), if_neg (by omega), if_neg (by omega),
    ofNat_eq_of_toNat_eq (b := b) (by omega), ofNat_eq_of_toNat_eq (b := c₁) (by omega),
    ofNat_eq_of_toNat_eq (b := c₂) (by omega), ofNat_eq_of_toNat_eq (b := c₃) (by omega)]

theorem step_of_lead {l : Lead} (hb : 128 ≤ b.toNat) (hl : lead? b = some l) :
    step b rest = following b l.low l.high 1 l.follow l.bits rest := by
  have hascii : ¬b < 0x80 := fun h => Nat.not_lt_of_le hb (UInt8.lt_iff_toNat_lt.mp h)
  simp only [step, hascii, if_false, hl]

-- A character that is read is written by the bytes that were taken.
theorem exists_eq_append_of_step (h : step b rest = .char c n) :
    ∃ tail, b :: rest = utf8EncodeChar c ++ tail ∧ n = (utf8EncodeChar c).length := by
  by_cases hascii : b < 0x80
  · have hb : b.toNat < 128 := UInt8.lt_iff_toNat_lt.mp hascii
    simp only [step, hascii, if_true, Step.char.injEq] at h
    obtain ⟨rfl, rfl⟩ := h
    have hone : utf8EncodeChar (Char.ofNat b.toNat) = [b] := by
      have hvalid : b.toNat.isValidChar := .inl (by omega)
      simp only [utf8EncodeChar, toNat_ofNat_of_valid hvalid]
      rw [if_pos (by omega), UInt8.ofNat_toNat]
    exact ⟨rest, by simp [hone]⟩
  · simp only [step, hascii, if_false] at h
    cases hlead : lead? b with
    | none => simp [hlead] at h
    | some l =>
        simp only [hlead] at h
        obtain ⟨hlow, hhigh, rfl⟩ | ⟨hlow, hhigh, rfl⟩ | ⟨hlow, hhigh, rfl⟩ :=
          lead?_eq_some_iff.mp hlead
        all_goals simp only [following_succ_eq_char_iff, following_zero_eq_char_iff] at h
        · obtain ⟨c₁, tail, rfl, hlow₁, hhigh₁, rfl, rfl⟩ := h
          rw [utf8EncodeChar_two ⟨hlow, hhigh⟩ ⟨hlow₁, hhigh₁⟩]
          exact ⟨tail, rfl, rfl⟩
        · obtain ⟨c₁, _, rfl, hlow₁, hhigh₁, c₂, tail, rfl, hlow₂, hhigh₂, rfl, rfl⟩ := h
          have h₁ : IsTail c₁ := ⟨Nat.le_trans (by split_ifs <;> decide) hlow₁,
            Nat.le_trans hhigh₁ (by split_ifs <;> decide)⟩
          rw [utf8EncodeChar_three ⟨hlow, hhigh⟩ h₁ (fun hb => by simpa [hb] using hlow₁)
            (fun hb => by simpa [hb] using hhigh₁) ⟨hlow₂, hhigh₂⟩]
          exact ⟨tail, rfl, rfl⟩
        · obtain ⟨c₁, _, rfl, hlow₁, hhigh₁, c₂, _, rfl, hlow₂, hhigh₂, c₃, tail, rfl, hlow₃,
            hhigh₃, rfl, rfl⟩ := h
          have h₁ : IsTail c₁ := ⟨Nat.le_trans (by split_ifs <;> decide) hlow₁,
            Nat.le_trans hhigh₁ (by split_ifs <;> decide)⟩
          rw [utf8EncodeChar_four ⟨hlow, hhigh⟩ h₁ (fun hb => by simpa [hb] using hlow₁)
            (fun hb => by simpa [hb] using hhigh₁) ⟨hlow₂, hhigh₂⟩ ⟨hlow₃, hhigh₃⟩]
          exact ⟨tail, rfl, rfl⟩

theorem toNat_ofNat_of_lt {v : Nat} (h : v < 256) : (UInt8.ofNat v).toNat = v :=
  UInt8.toNat_ofNat_of_lt' h

theorem toNat_ofNat_tail (v : Nat) : (UInt8.ofNat (v % 64 + 128)).toNat = v % 64 + 128 :=
  toNat_ofNat_of_lt (by omega)

theorem isTail_ofNat (v : Nat) : IsTail (UInt8.ofNat (v % 64 + 128)) := by
  rw [IsTail, toNat_ofNat_tail]
  omega

theorem ofNat_eq_of_eq_toNat {v : Nat} (h : v = c.val.toNat) : Char.ofNat v = c := by
  rw [h]
  exact Char.ofNat_toNat c

-- The bytes of a character are read as that character, whatever follows.
theorem step_of_eq_append {tail : List UInt8} (h : b :: rest = utf8EncodeChar c ++ tail) :
    step b rest = .char c (utf8EncodeChar c).length := by
  have hvalid : c.val.toNat.isValidChar := c.valid
  generalize hv : c.val.toNat = v at hvalid
  unfold Nat.isValidChar at hvalid
  simp only [utf8EncodeChar, hv] at h ⊢
  split_ifs at h ⊢ with h₁ h₂ h₃
  all_goals
    simp only [List.cons_append, List.nil_append, List.cons.injEq] at h
    obtain ⟨rfl, rfl⟩ := h
  · have hb : (UInt8.ofNat v).toNat = v := toNat_ofNat_of_lt (by omega)
    have hascii : UInt8.ofNat v < 0x80 :=
      UInt8.lt_iff_toNat_lt.mpr (by rw [hb]; exact Nat.lt_succ_of_le h₁)
    simp only [step, hascii, if_true, hb, ofNat_eq_of_eq_toNat hv.symm]
    rfl
  · have hb : (UInt8.ofNat (v / 64 % 32 + 192)).toNat = v / 64 % 32 + 192 :=
      toNat_ofNat_of_lt (by omega)
    rw [step_of_lead (by omega) (lead?_eq_some_iff.mpr (.inl ⟨by omega, by omega, rfl⟩))]
    refine following_succ_eq_char_iff.mpr ⟨_, _, rfl, (isTail_ofNat v).1, (isTail_ofNat v).2, ?_⟩
    refine following_zero_eq_char_iff.mpr ⟨ofNat_eq_of_eq_toNat ?_, rfl⟩
    rw [hb, toNat_ofNat_tail]
    dsimp only
    omega
  · have hb : (UInt8.ofNat (v / 4096 % 16 + 224)).toNat = v / 4096 % 16 + 224 :=
      toNat_ofNat_of_lt (by omega)
    rw [step_of_lead (by omega) (lead?_eq_some_iff.mpr (.inr (.inl ⟨by omega, by omega, rfl⟩)))]
    refine following_succ_eq_char_iff.mpr ⟨_, _, rfl, ?_, ?_, ?_⟩
    · rw [toNat_ofNat_tail, hb]
      split_ifs <;> simp <;> omega
    · rw [toNat_ofNat_tail, hb]
      split_ifs <;> simp <;> omega
    refine following_succ_eq_char_iff.mpr ⟨_, _, rfl, (isTail_ofNat v).1, (isTail_ofNat v).2, ?_⟩
    refine following_zero_eq_char_iff.mpr ⟨ofNat_eq_of_eq_toNat ?_, rfl⟩
    rw [hb, toNat_ofNat_tail, toNat_ofNat_tail]
    dsimp only
    omega
  · have hb : (UInt8.ofNat (v / 262144 % 8 + 240)).toNat = v / 262144 % 8 + 240 :=
      toNat_ofNat_of_lt (by omega)
    rw [step_of_lead (by omega) (lead?_eq_some_iff.mpr (.inr (.inr ⟨by omega, by omega, rfl⟩)))]
    refine following_succ_eq_char_iff.mpr ⟨_, _, rfl, ?_, ?_, ?_⟩
    · rw [toNat_ofNat_tail, hb]
      split_ifs <;> simp <;> omega
    · rw [toNat_ofNat_tail, hb]
      split_ifs <;> simp <;> omega
    refine following_succ_eq_char_iff.mpr
      ⟨_, _, rfl, (isTail_ofNat (v / 64)).1, (isTail_ofNat (v / 64)).2, ?_⟩
    refine following_succ_eq_char_iff.mpr ⟨_, _, rfl, (isTail_ofNat v).1, (isTail_ofNat v).2, ?_⟩
    refine following_zero_eq_char_iff.mpr ⟨ofNat_eq_of_eq_toNat ?_, rfl⟩
    rw [hb, toNat_ofNat_tail, toNat_ofNat_tail, toNat_ofNat_tail]
    dsimp only
    omega

end Bytes

theorem toList_loop (bytes : ByteArray) (i : Nat) (acc : List UInt8) :
    ByteArray.toList.loop bytes i acc = acc.reverse ++ bytes.data.toList.drop i := by
  induction i, acc using ByteArray.toList.loop.induct bytes with
  | case1 i acc hi ih =>
      have hlength : i < bytes.data.toList.length := by simpa using hi
      rw [ByteArray.toList.loop, if_pos hi, ih, List.drop_eq_getElem_cons hlength]
      simp [ByteArray.get!, hi]
  | case2 i acc hi =>
      have hlength : bytes.data.toList.length ≤ i := by simpa using hi
      rw [ByteArray.toList.loop, if_neg hi, List.drop_eq_nil_of_le hlength, List.append_nil]

-- The encoding of a text is that of its characters, one after the other.
theorem encode_eq (text : String) : encode text = text.toList.flatMap utf8EncodeChar := by
  unfold encode ByteArray.toList
  rw [toList_loop, String.toUTF8_eq_toByteArray, ← String.utf8Encode_toList]
  simp [List.utf8Encode]

theorem encode_append (front back : String) :
    encode (front ++ back) = encode front ++ encode back := by
  rw [encode_eq, encode_eq, encode_eq, String.toList_append, List.flatMap_append]

theorem encode_empty : encode "" = [] := by
  rw [encode_eq]
  rfl

theorem decodeFrom_eq_ok_iff {fuel offset : Nat} {bytes : List UInt8} {cs : List Char}
    (hfuel : bytes.length ≤ fuel) :
    decodeFrom offset fuel bytes = .ok cs ↔ bytes = cs.flatMap utf8EncodeChar := by
  induction fuel generalizing offset bytes cs with
  | zero =>
      obtain rfl : bytes = [] := List.length_eq_zero_iff.mp (by omega)
      cases cs <;> simp [decodeFrom, String.utf8EncodeChar_ne_nil]
  | succ fuel ih =>
      cases bytes with
      | nil => cases cs <;> simp [decodeFrom, String.utf8EncodeChar_ne_nil]
      | cons b rest =>
          -- a character takes at least one byte, so the fuel is enough for what is left
          have hleft : ∀ {c : Char} {tail : List UInt8}, b :: rest = utf8EncodeChar c ++ tail →
              tail.length ≤ fuel := by
            intro c tail h
            have hlength := congrArg List.length h
            have hpos := List.length_pos_iff.mpr (String.utf8EncodeChar_ne_nil (c := c))
            simp only [List.length_cons, List.length_append] at hlength hfuel
            omega
          simp only [decodeFrom]
          constructor
          · intro h
            cases hstep : step b rest with
            | flaw f => simp [hstep] at h
            | char c n =>
                obtain ⟨tail, htail, rfl⟩ := exists_eq_append_of_step hstep
                simp only [hstep, htail, List.drop_left] at h
                cases hrest : decodeFrom (offset + (utf8EncodeChar c).length) fuel tail with
                | error e =>
                    rw [hrest] at h
                    cases h
                | ok rest' =>
                    rw [hrest] at h
                    obtain rfl : c :: rest' = cs := Except.ok.inj h
                    rw [htail, List.flatMap_cons, ← (ih (hleft htail)).mp hrest]
          · intro h
            cases cs with
            | nil => simp at h
            | cons c cs =>
                rw [List.flatMap_cons] at h
                simp only [step_of_eq_append h, h, List.drop_left, (ih (hleft h)).mpr rfl]
                rfl

theorem decodeChars_eq_ok_iff {bytes : List UInt8} {cs : List Char} :
    decodeChars bytes = .ok cs ↔ bytes = cs.flatMap utf8EncodeChar :=
  decodeFrom_eq_ok_iff (Nat.le_refl _)

-- Bytes are read as a text exactly if they are its encoding.
theorem decode_eq_ok_iff {bytes : List UInt8} {text : String} :
    decode bytes = .ok text ↔ bytes = encode text := by
  rw [encode_eq, ← decodeChars_eq_ok_iff, decode]
  cases decodeChars bytes with
  | error e => simp [Except.map]
  | ok cs =>
      simp only [Except.map, Except.ok.injEq]
      exact ⟨fun h => by rw [← h, String.toList_ofList], fun h => by rw [h, String.ofList_toList]⟩

end Dialect.Utf8
