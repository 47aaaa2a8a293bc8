import Dialect.Text.Code
import Mathlib.Logic.Function.Basic
import Mathlib.Data.List.Basic

namespace Dialect

namespace Code

variable {n : Nat}

theorem char_injective : Function.Injective char :=
  fun _ _ h => Code.char.inj h

-- The numbers of halves.
def IsHalf (n : Nat) : Prop :=
  0xD800 ≤ n ∧ n < 0xE000

instance (n : Nat) : Decidable (IsHalf n) :=
  inferInstanceAs (Decidable (0xD800 ≤ n ∧ n < 0xE000))

theorem not_isHalf_toNat (c : Char) : ¬IsHalf c.toNat := by
  have hvalid : c.toNat < 0xD800 ∨ 0xDFFF < c.toNat ∧ c.toNat < 0x110000 := c.valid
  simp only [IsHalf]
  omega

theorem toNat_lt (code : Code) : code.toNat < 0x110000 := by
  cases code with
  | char c =>
      have hvalid : c.toNat < 0xD800 ∨ 0xDFFF < c.toNat ∧ c.toNat < 0x110000 := c.valid
      simp only [toNat]
      omega
  | half d =>
      simp only [toNat]
      omega

@[simp] theorem ofNat_toNat (code : Code) : ofNat code.toNat = code := by
  cases code with
  | char c =>
      have hc : ¬(0xD800 ≤ c.toNat ∧ c.toNat < 0xE000) := not_isHalf_toNat c
      simp only [ofNat, toNat, hc, dif_neg, not_false_eq_true, Char.ofNat_toNat]
  | half d =>
      have hd : 0xD800 ≤ 0xD800 + d.val ∧ 0xD800 + d.val < 0xE000 := by omega
      simp [ofNat, toNat, hd]

theorem toNat_ofNat (hn : n < 0x110000) : (ofNat n).toNat = n := by
  unfold ofNat
  split
  · simp only [toNat]
    omega
  · have hvalid : n.isValidChar := by
      simp only [Nat.isValidChar]
      omega
    simp only [toNat]
    rw [Char.ofNat, dif_pos hvalid]
    rfl

theorem ofNat_eq_iff (hn : n < 0x110000) (code : Code) : ofNat n = code ↔ n = code.toNat := by
  constructor
  · rintro rfl
    exact (toNat_ofNat hn).symm
  · rintro rfl
    exact ofNat_toNat code

end Code

namespace Text

variable {t : Text} {cs ds : List Char}

theorem ofChars_injective : Function.Injective ofChars :=
  Code.char_injective.list_map

@[simp] theorem ofChars_inj : ofChars cs = ofChars ds ↔ cs = ds :=
  ofChars_injective.eq_iff

@[simp] theorem ofChars_nil : ofChars [] = [] := rfl

@[simp] theorem ofChars_cons (c : Char) (cs : List Char) :
    ofChars (c :: cs) = .char c :: ofChars cs := rfl

@[simp] theorem ofChars_append (cs ds : List Char) :
    ofChars (cs ++ ds) = ofChars cs ++ ofChars ds :=
  List.map_append

theorem mem_ofChars {code : Code} : code ∈ ofChars cs ↔ ∃ c ∈ cs, .char c = code :=
  List.mem_map

@[simp] theorem of_inj {a b : String} : of a = of b ↔ a = b := by
  simp [of, String.toList_inj]

theorem of_eq_nil_iff {s : String} : of s = [] ↔ s = "" := by
  simp [of, ofChars]

theorem chars?_eq_some_iff : t.chars? = some cs ↔ t = ofChars cs := by
  induction t generalizing cs with
  | nil => cases cs <;> simp [chars?]
  | cons code rest ih =>
      cases code with
      | half d => cases cs <;> simp [chars?]
      | char c =>
          cases cs with
          | nil => simp [chars?]
          | cons d ds => simp [chars?, ih, and_comm]

theorem isPlain_iff : t.isPlain = true ↔ ∃ cs, t = ofChars cs := by
  simp [isPlain, Option.isSome_iff_exists, chars?_eq_some_iff]

theorem isPlain_of_mem {c : Code} (h : t.isPlain = true) (hc : c ∈ t) : isPlain [c] = true := by
  obtain ⟨cs, rfl⟩ := isPlain_iff.mp h
  obtain ⟨c, -, rfl⟩ := mem_ofChars.mp hc
  rfl

theorem isPlain_of_append_left {u : Text} (h : (t ++ u).isPlain = true) : t.isPlain = true := by
  obtain ⟨cs, hcs⟩ := isPlain_iff.mp h
  obtain ⟨ds, es, -, rfl, -⟩ := List.map_eq_append_iff.mp hcs.symm
  exact isPlain_iff.mpr ⟨ds, rfl⟩

theorem string?_eq_some_iff {s : String} : t.string? = some s ↔ t = of s := by
  simp only [string?, Option.map_eq_some_iff, chars?_eq_some_iff]
  constructor
  · rintro ⟨cs, rfl, rfl⟩
    simp [of]
  · rintro rfl
    exact ⟨s.toList, rfl, String.ofList_toList⟩

theorem isSome_string? : t.string?.isSome = t.isPlain := by
  simp [string?, isPlain]

@[simp] theorem escaped_nil : escaped [] = "" := rfl

@[simp] theorem escaped_append (a b : Text) : escaped (a ++ b) = escaped a ++ escaped b := by
  simp [escaped, String.ofList_append]

-- A text without halves is shown as it is.
@[simp] theorem escaped_of (s : String) : escaped (of s) = s := by
  have hchars (cs : List Char) : (ofChars cs).flatMap Code.escaped = cs := by
    induction cs with
    | nil => rfl
    | cons c rest ih =>
        rw [ofChars_cons, List.flatMap_cons, ih, Code.escaped, List.singleton_append]
  rw [escaped, of, hchars, String.ofList_toList]

@[simp] theorem isPlain_of (s : String) : (of s).isPlain = true :=
  isPlain_iff.mpr ⟨_, rfl⟩

end Text

end Dialect
