import Dialect.Json.Bytes
import Dialect.Proofs.Json.Escape
import Dialect.Proofs.Text.Utf8
import Mathlib.Data.List.Chain

namespace Dialect.Json

open String (utf8EncodeChar)

section Utf8

variable {bytes tail : List UInt8} {fuel : Nat} {s : Text} {code : Code}

-- Half of a surrogate pair takes three bytes, as a character of its number would.
def halfBytes (n : Nat) : List UInt8 :=
  [0xED, .ofNat (n / 64 % 64 + 0x80), .ofNat (n % 64 + 0x80)]

-- The bytes of a code in UTF-8.
def utf8Bytes : Code → List UInt8
  | .char c => utf8EncodeChar c
  | .half d => halfBytes (0xD800 + d)

theorem utf8Bytes_ne_nil (code : Code) : utf8Bytes code ≠ [] := by
  cases code with
  | char c => exact String.utf8EncodeChar_ne_nil
  | half d => simp [utf8Bytes, halfBytes]

theorem half?_eq_some_iff : half? bytes = some (code, tail) ↔
    ∃ d, code = .half d ∧ bytes = halfBytes (0xD800 + d) ++ tail := by
  constructor
  · intro h
    unfold half? at h
    split at h
    · rename_i a b c rest
      simp only [Bool.and_eq_true, decide_eq_true_eq, UInt8.le_iff_toNat_le] at h
      split at h
      · rename_i hrange
        obtain ⟨⟨⟨⟨rfl, hb⟩, hb'⟩, hc⟩, hc'⟩ := hrange
        simp only [Option.some.injEq, Prod.mk.injEq] at h
        obtain ⟨rfl, rfl⟩ := h
        simp only [UInt8.reduceToNat] at hb hb' hc hc'
        refine ⟨⟨(b.toNat - 0xA0) * 64 + (c.toNat - 0x80), by omega⟩, ?_, ?_⟩
        · have hcode : 0xD000 + (b.toNat - 0x80) * 64 + (c.toNat - 0x80) =
              (Code.half ⟨(b.toNat - 0xA0) * 64 + (c.toNat - 0x80), by omega⟩).toNat := by
            simp only [Code.toNat]
            omega
          rw [hcode, Code.ofNat_toNat]
        · change _ = halfBytes (0xD800 + ((b.toNat - 0xA0) * 64 + (c.toNat - 0x80))) ++ _
          rw [halfBytes, Utf8.ofNat_eq_of_toNat_eq (b := b) (by omega),
            Utf8.ofNat_eq_of_toNat_eq (b := c) (by omega)]
          rfl
      · cases h
    · cases h
  · rintro ⟨d, rfl, rfl⟩
    generalize hn : 0xD800 + d.val = n
    have hcode : 0xD000 + (n / 64 % 64 + 0x80 - 0x80) * 64 + (n % 64 + 0x80 - 0x80) =
        (Code.half d).toNat := by
      simp only [Code.toNat]
      omega
    have hsecond : (UInt8.ofNat (n / 64 % 64 + 0x80)).toNat = n / 64 % 64 + 0x80 :=
      Utf8.toNat_ofNat_tail _
    have hthird : (UInt8.ofNat (n % 64 + 0x80)).toNat = n % 64 + 0x80 := Utf8.toNat_ofNat_tail n
    simp only [halfBytes, List.cons_append, List.nil_append, half?, Bool.and_eq_true,
      decide_eq_true_eq, UInt8.le_iff_toNat_le, hsecond, hthird, UInt8.reduceToNat, true_and,
      hcode, Code.ofNat_toNat]
    exact if_pos (by omega)

-- The second byte of half of a surrogate pair is none that a character has there.
theorem utf8Codes?_half (d : Fin 0x800) : utf8Codes? (fuel + 1) (utf8Bytes (.half d) ++ tail) =
    (utf8Codes? fuel tail).map (.half d :: ·) := by
  have hafter : half? (halfBytes (0xD800 + d) ++ tail) = some (.half d, tail) :=
    half?_eq_some_iff.mpr ⟨d, rfl, rfl⟩
  rw [utf8Bytes]
  generalize hn : 0xD800 + d.val = n at hafter ⊢
  have hsecond : ¬n / 64 % 64 + 0x80 ≤ 0x9F := by omega
  have hflaw : ∃ f, Utf8.step 0xED
      (.ofNat (n / 64 % 64 + 0x80) :: .ofNat (n % 64 + 0x80) :: tail) = .flaw f := by
    rw [Utf8.step_of_lead (by decide) rfl]
    simp only [Utf8.following, Bool.and_eq_true, decide_eq_true_eq, UInt8.le_iff_toNat_le,
      Utf8.toNat_ofNat_tail, UInt8.reduceToNat, hsecond, and_false, if_false]
    exact ⟨_, rfl⟩
  obtain ⟨f, hf⟩ := hflaw
  rw [halfBytes] at hafter ⊢
  simp only [List.cons_append, List.nil_append] at hafter ⊢
  simp only [utf8Codes?, hf, hafter, Option.bind_some]

theorem utf8Codes?_char (c : Char) : utf8Codes? (fuel + 1) (utf8EncodeChar c ++ tail) =
    (utf8Codes? fuel tail).map (.char c :: ·) := by
  obtain ⟨b, rest, hbytes⟩ : ∃ b rest, utf8EncodeChar c ++ tail = b :: rest :=
    List.exists_cons_of_ne_nil (by simp [String.utf8EncodeChar_ne_nil])
  rw [hbytes]
  simp only [utf8Codes?, Utf8.step_of_eq_append hbytes.symm]
  rw [← hbytes, List.drop_left]

theorem utf8Codes?_utf8Bytes (code : Code) : utf8Codes? (fuel + 1) (utf8Bytes code ++ tail) =
    (utf8Codes? fuel tail).map (code :: ·) := by
  cases code with
  | char c => exact utf8Codes?_char c
  | half d => exact utf8Codes?_half d

-- Bytes that are read at all start with those of a code.
theorem exists_utf8Bytes_of_utf8Codes? (hbytes : bytes ≠ [])
    (h : utf8Codes? (fuel + 1) bytes = some s) : ∃ code tail, bytes = utf8Bytes code ++ tail := by
  obtain ⟨b, rest, rfl⟩ := List.exists_cons_of_ne_nil hbytes
  cases hstep : Utf8.step b rest with
  | char c k =>
      obtain ⟨tail, htail, -⟩ := Utf8.exists_eq_append_of_step hstep
      exact ⟨.char c, tail, htail⟩
  | flaw f =>
      simp only [utf8Codes?, hstep, Option.bind_eq_some_iff] at h
      obtain ⟨⟨code, tail⟩, hhalf, -⟩ := h
      obtain ⟨d, -, hbytes⟩ := half?_eq_some_iff.mp hhalf
      exact ⟨.half d, tail, hbytes⟩

theorem utf8Codes?_eq_some_iff (hfuel : bytes.length ≤ fuel) :
    utf8Codes? fuel bytes = some s ↔ bytes = s.flatMap utf8Bytes := by
  induction fuel generalizing bytes s with
  | zero =>
      obtain rfl : bytes = [] := List.length_eq_zero_iff.mp (by omega)
      cases s with
      | nil => simp [utf8Codes?]
      | cons code rest => simp [utf8Codes?, utf8Bytes_ne_nil]
  | succ fuel ih =>
      -- a code takes at least one byte, so the fuel is enough for what is left
      have hleft {code : Code} {tail : List UInt8} (h : bytes = utf8Bytes code ++ tail) :
          tail.length ≤ fuel := by
        have hpos := List.length_pos_iff.mpr (utf8Bytes_ne_nil code)
        rw [h, List.length_append] at hfuel
        omega
      constructor
      · intro h
        by_cases hempty : bytes = []
        · subst hempty
          cases h
          rfl
        · obtain ⟨code, tail, hbytes⟩ := exists_utf8Bytes_of_utf8Codes? hempty h
          rw [hbytes, utf8Codes?_utf8Bytes, Option.map_eq_some_iff] at h
          obtain ⟨rest, hrest, rfl⟩ := h
          rw [hbytes, List.flatMap_cons, ← (ih (hleft hbytes)).mp hrest]
      · intro hbytes
        cases s with
        | nil =>
            subst hbytes
            rfl
        | cons code rest =>
            rw [List.flatMap_cons] at hbytes
            rw [hbytes, utf8Codes?_utf8Bytes, (ih (hleft hbytes)).mpr rfl]
            rfl

end Utf8

theorem ofNat_eq_iff {v : Nat} {b : UInt8} (hv : v < 256) : UInt8.ofNat v = b ↔ v = b.toNat := by
  constructor
  · rintro rfl
    exact (UInt8.toNat_ofNat_of_lt' hv).symm
  · rintro rfl
    exact UInt8.ofNat_toNat

section Units

variable {write : Nat → List UInt8} {width bound : Nat}

-- The units that bytes are read as, if they are read: those below the bound that they spell.
def Reads (write : Nat → List UInt8) (bound : Nat) (bytes : List UInt8)
    (units? : Option (List Nat)) : Prop :=
  ∀ us, units? = some us ↔ (∀ u ∈ us, u < bound) ∧ bytes = us.flatMap write

theorem Reads.nil (hwidth : ∀ u, (write u).length = width + 1) :
    Reads write bound [] (some []) := by
  intro us
  cases us with
  | nil => simp
  | cons u us =>
      have hne : write u ≠ [] := List.ne_nil_of_length_eq_add_one (hwidth u)
      simp [hne]

-- Bytes that are left over are too few for a unit.
theorem Reads.short {bytes : List UInt8} (hwidth : ∀ u, (write u).length = width + 1)
    (hne : bytes ≠ []) (hshort : bytes.length < width + 1) : Reads write bound bytes none := by
  intro us
  cases us with
  | nil => simp [hne]
  | cons u us =>
      have hbytes : bytes ≠ (u :: us).flatMap write := by
        rintro rfl
        rw [List.flatMap_cons, List.length_append, hwidth] at hshort
        omega
      simp only [reduceCtorEq, hbytes, and_false]

theorem Reads.cons (chunk : List UInt8) {rest : List UInt8} {units? : Option (List Nat)}
    {value : Nat} (hwidth : ∀ u, (write u).length = width + 1)
    (hchunk : chunk.length = width + 1) (hvalue : value < bound)
    (hunit : ∀ u < bound, write u = chunk ↔ value = u)
    (h : Reads write bound rest units?) :
    Reads write bound (chunk ++ rest) (units?.map (value :: ·)) := by
  intro us
  rw [Option.map_eq_some_iff]
  constructor
  · rintro ⟨more, hmore, rfl⟩
    obtain ⟨hlt, rfl⟩ := (h more).mp hmore
    have hwrite : write value = chunk := (hunit value hvalue).mpr rfl
    exact ⟨List.forall_mem_cons.mpr ⟨hvalue, hlt⟩, by rw [List.flatMap_cons, hwrite]⟩
  · rintro ⟨hlt, hbytes⟩
    cases us with
    | nil => simp [List.ne_nil_of_length_eq_add_one hchunk] at hbytes
    | cons u more =>
        obtain ⟨hu, hmore⟩ := List.forall_mem_cons.mp hlt
        obtain ⟨hhead, hrest⟩ := List.append_inj hbytes (by rw [hchunk, hwidth])
        obtain rfl : value = u := (hunit u hu).mp hhead.symm
        exact ⟨more, (h more).mpr ⟨hmore, hrest⟩, rfl⟩

end Units

variable {bigEndian : Bool}

-- The bytes of a unit of sixteen bits.
def unit16Bytes (bigEndian : Bool) (u : Nat) : List UInt8 :=
  let bytes := [.ofNat (u / 256), .ofNat (u % 256)]
  if bigEndian then bytes else bytes.reverse

theorem length_unit16Bytes (u : Nat) : (unit16Bytes bigEndian u).length = 2 := by
  cases bigEndian <;> rfl

theorem reads_units16? (bytes : List UInt8) :
    Reads (unit16Bytes bigEndian) 0x10000 bytes (units16? bigEndian bytes) := by
  fun_induction units16? bigEndian bytes with
  | case1 => exact .nil length_unit16Bytes
  | case2 a => exact .short length_unit16Bytes (by simp) (by simp)
  | case3 a b rest ih =>
      have ha := a.toNat_lt
      have hb := b.toNat_lt
      refine .cons [a, b] length_unit16Bytes rfl ?_ (fun u hu => ?_) ih
      · split <;> omega
      · have hhigh : u / 256 < 256 := by omega
        have hlow : u % 256 < 256 := by omega
        cases bigEndian <;>
          simp only [unit16Bytes, Bool.false_eq_true, if_true, if_false, List.reverse_cons,
            List.reverse_nil, List.nil_append, List.cons_append, List.cons.injEq, and_true,
            ofNat_eq_iff hhigh, ofNat_eq_iff hlow] <;>
          omega

-- The bytes of a unit of thirty-two bits.
def unit32Bytes (bigEndian : Bool) (u : Nat) : List UInt8 :=
  let bytes := [.ofNat (u / 0x1000000), .ofNat (u / 0x10000 % 256), .ofNat (u / 256 % 256),
    .ofNat (u % 256)]
  if bigEndian then bytes else bytes.reverse

theorem length_unit32Bytes (u : Nat) : (unit32Bytes bigEndian u).length = 4 := by
  cases bigEndian <;> rfl

theorem reads_units32? (bytes : List UInt8) :
    Reads (unit32Bytes bigEndian) 0x100000000 bytes (units32? bigEndian bytes) := by
  fun_induction units32? bigEndian bytes with
  | case1 => exact .nil length_unit32Bytes
  | case2 a b c d rest number ih =>
      have ha := a.toNat_lt
      have hb := b.toNat_lt
      have hc := c.toNat_lt
      have hd := d.toNat_lt
      refine .cons [a, b, c, d] length_unit32Bytes rfl ?_ (fun u hu => ?_) ih
      · simp only [number]
        split <;> omega
      · have h₃ : u / 0x1000000 < 256 := by omega
        have h₂ : u / 0x10000 % 256 < 256 := by omega
        have h₁ : u / 256 % 256 < 256 := by omega
        have h₀ : u % 256 < 256 := by omega
        cases bigEndian <;>
          simp only [unit32Bytes, Bool.false_eq_true, if_true, if_false, List.reverse_cons,
            List.reverse_nil, List.nil_append, List.cons_append, List.cons.injEq, and_true,
            ofNat_eq_iff h₃, ofNat_eq_iff h₂, ofNat_eq_iff h₁, ofNat_eq_iff h₀, number] <;>
          omega
  | case3 bytes hnil hcons =>
      refine .short length_unit32Bytes hnil ?_
      match bytes, hcons with
      | [], _ | [_], _ | [_, _], _ | [_, _, _], _ => simp
      | a :: b :: c :: d :: rest, hcons => exact (hcons a b c d rest rfl).elim

section Utf16

variable {s : Text} {us : List Nat} {code : Code}

-- The units of a code in UTF-16: one, or the two halves of a surrogate pair.
def codeUnits (code : Code) : List Nat :=
  let n := code.toNat
  if n < 0x10000 then [n] else [0xD800 + (n - 0x10000) / 1024, 0xDC00 + (n - 0x10000) % 1024]

-- Two halves that make a pair are one character where they follow one another.
def Joined (s : Text) : Prop :=
  s.IsChain fun a b => ¬(isHighSurrogate a.toNat ∧ isLowSurrogate b.toNat)

theorem Joined.cons (h : ∀ b ∈ s.head?, ¬(isHighSurrogate code.toNat ∧ isLowSurrogate b.toNat))
    (hjoined : Joined s) : Joined (code :: s) := by
  cases s with
  | nil => exact .singleton code
  | cons b s => exact List.isChain_cons_cons.mpr ⟨h b rfl, hjoined⟩

theorem lt_of_mem_codeUnits {u : Nat} (hu : u ∈ codeUnits code) : u < 0x10000 := by
  have hcode := code.toNat_lt
  unfold codeUnits at hu
  dsimp only at hu
  split at hu
  · have hself : u = code.toNat := List.mem_singleton.mp hu
    omega
  · have hhalf : u = 0xD800 + (code.toNat - 0x10000) / 1024 ∨
        u = 0xDC00 + (code.toNat - 0x10000) % 1024 := by
      simpa only [List.mem_cons, List.not_mem_nil, or_false] using hu
    omega

-- What is beyond sixteen bits is a character.
theorem pairChar_codeUnits (h : 0x10000 ≤ code.toNat) :
    isHighSurrogate (0xD800 + (code.toNat - 0x10000) / 1024) ∧
      isLowSurrogate (0xDC00 + (code.toNat - 0x10000) % 1024) ∧
      Code.char (pairChar (0xD800 + (code.toNat - 0x10000) / 1024)
        (0xDC00 + (code.toNat - 0x10000) % 1024)) = code := by
  cases code with
  | char c =>
      obtain ⟨hhigh, hlow, hpair⟩ := pairChar_halves h
      exact ⟨hhigh, hlow, congrArg Code.char hpair⟩
  | half d =>
      simp only [Code.toNat] at h
      omega

-- A low half at the head of the units is a code of its own.
theorem head?_codeUnits_iff {u : Nat} (hu : isLowSurrogate u) :
    ((code :: s).flatMap codeUnits).head? = some u ↔ code.toNat = u := by
  have hcode := code.toNat_lt
  simp only [isLowSurrogate, Bool.and_eq_true, decide_eq_true_eq] at hu
  rw [List.flatMap_cons, codeUnits]
  split
  · simp
  · simp only [List.cons_append, List.head?_cons, Option.some.injEq]
    omega

theorem ofUnits16_cons {u : Nat} (h : ∀ v ∈ us.head?, ¬(isHighSurrogate u ∧ isLowSurrogate v)) :
    ofUnits16 (u :: us) = Code.ofNat u :: ofUnits16 us := by
  cases us with
  | nil => rfl
  | cons v rest =>
      have hpair : ¬(isHighSurrogate u ∧ isLowSurrogate v) := h v rfl
      simp [ofUnits16, hpair]

theorem ofUnits16_flatMap (hjoined : Joined s) : ofUnits16 (s.flatMap codeUnits) = s := by
  induction s with
  | nil => rfl
  | cons code s ih =>
      have hrest := ih hjoined.tail
      rw [List.flatMap_cons, codeUnits]
      split
      · rw [List.singleton_append, ofUnits16_cons, hrest, Code.ofNat_toNat]
        rintro v hv ⟨hhigh, hlow⟩
        cases s with
        | nil => cases hv
        | cons b s =>
            obtain rfl := (head?_codeUnits_iff hlow).mp hv
            exact (List.isChain_cons_cons.mp hjoined).1 ⟨hhigh, hlow⟩
      · obtain ⟨hhigh, hlow, hchar⟩ := @pairChar_codeUnits code (by omega)
        simp only [List.cons_append, List.nil_append, ofUnits16, hhigh, hlow, Bool.and_self,
          if_true, hchar, hrest]

-- A pair of halves is a character beyond sixteen bits.
theorem toNat_pairChar {high low : Nat} (hhigh : isHighSurrogate high) (hlow : isLowSurrogate low) :
    (pairChar high low).toNat = 0x10000 + (high - 0xD800) * 1024 + (low - 0xDC00) := by
  simp only [isHighSurrogate, isLowSurrogate, Bool.and_eq_true, decide_eq_true_eq] at hhigh hlow
  refine Utf8.toNat_ofNat_of_valid ?_
  simp only [Nat.isValidChar]
  omega

theorem spelled_ofUnits16 (hus : ∀ u ∈ us, u < 0x10000) :
    Joined (ofUnits16 us) ∧ us = (ofUnits16 us).flatMap codeUnits := by
  have hunits {u : Nat} (hu : u < 0x10000) : codeUnits (Code.ofNat u) = [u] := by
    simp only [codeUnits, Code.toNat_ofNat (hu.trans (by decide)), hu, if_true]
  fun_induction ofUnits16 us with
  | case1 => exact ⟨.nil, rfl⟩
  | case2 u =>
      have hu : u < 0x10000 := hus u List.mem_cons_self
      exact ⟨.singleton _, by simp [hunits hu]⟩
  | case3 u v rest hpair ih =>
      obtain ⟨hhigh, hlow⟩ := (Bool.and_eq_true _ _).mp hpair
      obtain ⟨hjoined, hrest⟩ := ih fun u hu => hus u (by simp [hu])
      have hcode : (Code.char (pairChar u v)).toNat =
          0x10000 + (u - 0xD800) * 1024 + (v - 0xDC00) := toNat_pairChar hhigh hlow
      simp only [isHighSurrogate, isLowSurrogate, Bool.and_eq_true, decide_eq_true_eq] at hhigh hlow
      refine ⟨hjoined.cons fun b _ hhalves => ?_, ?_⟩
      · simp only [isHighSurrogate, Bool.and_eq_true, decide_eq_true_eq, hcode] at hhalves
        omega
      · rw [List.flatMap_cons, ← hrest, codeUnits]
        simp only [hcode]
        rw [if_neg (by omega)]
        simp only [List.cons_append, List.nil_append, List.cons.injEq, and_true]
        omega
  | case4 u v rest hpair ih =>
      obtain ⟨hjoined, hrest⟩ := ih fun u hu => hus u (by simp [hu])
      have hu : u < 0x10000 := hus u List.mem_cons_self
      refine ⟨hjoined.cons fun b hb hhalves => ?_, ?_⟩
      · cases hcodes : ofUnits16 (v :: rest) with
        | nil => simp [hcodes] at hb
        | cons code codes =>
            obtain rfl : code = b := by simpa [hcodes] using hb
            -- the low half would be the very next unit
            have hnext : (v :: rest).head? = some code.toNat := by
              rw [hrest, hcodes, head?_codeUnits_iff hhalves.2]
            obtain rfl : v = code.toNat := Option.some.inj hnext
            rw [Code.toNat_ofNat (hu.trans (by decide))] at hhalves
            simp [hhalves] at hpair
      · rw [List.flatMap_cons, hunits hu, ← hrest]
        rfl

end Utf16

-- The bytes of a code in an encoding.
def Encoding.bytes : Encoding → Code → List UInt8
  | utf8, code => utf8Bytes code
  | utf16 bigEndian, code => (codeUnits code).flatMap (unit16Bytes bigEndian)
  | utf32 bigEndian, code => unit32Bytes bigEndian code.toNat

-- Bytes that are a text in an encoding, code by code. Halves of surrogate pairs may stand on their
-- own in it.
structure Encoding.Spells (encoding : Encoding) (bytes : List UInt8) (s : Text) : Prop where
  bytes_eq : bytes = s.flatMap encoding.bytes
  joined : ∀ bigEndian, encoding = .utf16 bigEndian → Joined s

section Encoding

variable {bytes : List UInt8} {s : Text} {bigEndian : Bool}

theorem utf8_eq_some_iff :
    utf8Codes? bytes.length bytes = some s ↔ Encoding.utf8.Spells bytes s := by
  rw [utf8Codes?_eq_some_iff (Nat.le_refl _)]
  exact ⟨fun h => ⟨h, nofun⟩, fun h => h.bytes_eq⟩

theorem utf16_eq_some_iff : (units16? bigEndian bytes).map ofUnits16 = some s ↔
    (Encoding.utf16 bigEndian).Spells bytes s := by
  have hflat (s : Text) : s.flatMap (Encoding.utf16 bigEndian).bytes =
      (s.flatMap codeUnits).flatMap (unit16Bytes bigEndian) := List.flatMap_assoc.symm
  rw [Option.map_eq_some_iff]
  constructor
  · rintro ⟨us, hus, rfl⟩
    obtain ⟨hlt, rfl⟩ := (reads_units16? bytes us).mp hus
    obtain ⟨hjoined, hunits⟩ := spelled_ofUnits16 hlt
    exact ⟨by rw [hflat, ← hunits], fun _ _ => hjoined⟩
  · rintro ⟨rfl, hjoined⟩
    have hunits : ∀ u ∈ s.flatMap codeUnits, u < 0x10000 := by
      intro u hu
      obtain ⟨code, -, hu⟩ := List.mem_flatMap.mp hu
      exact lt_of_mem_codeUnits hu
    exact ⟨_, (reads_units16? _ _).mpr ⟨hunits, hflat s⟩, ofUnits16_flatMap (hjoined _ rfl)⟩

theorem utf32_eq_some_iff : ((units32? bigEndian bytes).bind fun us =>
      if us.all (· < 0x110000) then some (us.map Code.ofNat) else none) = some s ↔
    (Encoding.utf32 bigEndian).Spells bytes s := by
  simp only [Option.bind_eq_some_iff, reads_units32? bytes _, List.all_eq_true, decide_eq_true_eq]
  constructor
  · rintro ⟨us, ⟨-, hbytes⟩, hs⟩
    split at hs
    · rename_i hlt
      cases hs
      refine ⟨?_, nofun⟩
      rw [hbytes, List.flatMap_map]
      refine List.flatMap_congr fun u hu => ?_
      rw [Encoding.bytes, Code.toNat_ofNat (hlt u hu)]
    · cases hs
  · rintro ⟨rfl, -⟩
    have hlt : ∀ u ∈ s.map Code.toNat, u < 0x110000 :=
      List.forall_mem_map.mpr fun code _ => code.toNat_lt
    refine ⟨s.map Code.toNat, ⟨fun u hu => (hlt u hu).trans (by decide), ?_⟩, ?_⟩
    · rw [List.flatMap_map]
      rfl
    · rw [if_pos hlt, List.map_map, List.map_congr_left fun code _ => code.ofNat_toNat]
      simp

-- Bytes that are a text behind their mark, in the encoding that they look like.
def Spells (bytes : List UInt8) (s : Text) : Prop :=
  (detect bytes).1.Spells (bytes.drop (detect bytes).2) s

-- Bytes are read as a text exactly if they are one.
theorem decode?_eq_some_iff : decode? bytes = some s ↔ Spells bytes s := by
  unfold decode? Spells
  obtain ⟨encoding, mark⟩ := detect bytes
  cases encoding with
  | utf8 => exact utf8_eq_some_iff
  | utf16 bigEndian => exact utf16_eq_some_iff
  | utf32 bigEndian => exact utf32_eq_some_iff

theorem decode?_eq_none_iff : decode? bytes = none ↔ ∀ s, ¬Spells bytes s := by
  simp only [Option.eq_none_iff_forall_ne_some, ne_eq, decode?_eq_some_iff]

end Encoding

end Dialect.Json
