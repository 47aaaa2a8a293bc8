import Dialect.Proofs.Json.Atom
import Dialect.Proofs.Json.Escape
import Dialect.Proofs.Json.Structure
import Dialect.Proofs.Json.Valid

namespace Dialect.Json

-- Nothing beyond U+007F.
def Ascii (s : Text) : Prop :=
  ∀ c ∈ s, c.toNat < 128

variable {layout : Layout} {depth : Nat} {s : Text} {cs : List Char}

@[simp] theorem ascii_nil : Ascii [] := by
  simp [Ascii]

@[simp] theorem ascii_cons_iff (c : Code) (s : Text) :
    Ascii (c :: s) ↔ c.toNat < 128 ∧ Ascii s :=
  List.forall_mem_cons

@[simp] theorem ascii_append_iff (s t : Text) : Ascii (s ++ t) ↔ Ascii s ∧ Ascii t :=
  List.forall_mem_append

theorem ascii_ofChars_iff : Ascii (.ofChars cs) ↔ ∀ c ∈ cs, c.toNat < 128 :=
  List.forall_mem_map

theorem ascii_of_digits (h : ∀ c ∈ cs, Text.isDigit c = true) : Ascii (.ofChars cs) := by
  rw [ascii_ofChars_iff]
  intro c hc
  have := (Text.isDigit_iff c).mp (h c hc)
  omega

section Strings

@[simp] theorem ascii_hexDigits (width n : Nat) : Ascii (.ofChars (Text.hexDigits width n)) := by
  induction width generalizing n with
  | zero => exact ascii_nil
  | succ width ih =>
      have hdigit : ∀ m < 16, (Text.hexDigit m).toNat < 128 := by decide
      simp [Text.hexDigits, ih, Code.toNat, hdigit _ (Nat.mod_lt n (by decide))]

@[simp] theorem ascii_unitEscape (n : Nat) : Ascii (.ofChars (unitEscape n)) := by
  simp [unitEscape, Code.toNat]

theorem toNat_lt_of_shortEscape? {c : Char} {e : Code} (h : shortEscape? e = some c) :
    e.toNat < 128 := by
  unfold shortEscape? at h
  split at h
  case h_9 => cases h
  all_goals decide

@[simp] theorem ascii_codeText (c : Code) : Ascii (codeText true c) := by
  cases c with
  | half d => simp [codeText]
  | char c =>
      obtain ⟨e, htext, he⟩ | ⟨htext, -⟩ | ⟨htext, -⟩ | ⟨htext, -, -, -, hc⟩ :=
        charText_cases true c
      · have hlt := toNat_lt_of_shortEscape? he
        simpa [codeText, htext, Code.toNat] using hlt
      · simp [codeText, htext]
      · simp [codeText, htext]
      · have := hc rfl
        simp only [codeText, htext, ascii_ofChars_iff, List.forall_mem_singleton]
        omega

@[simp] theorem ascii_stringText (text : Text) : Ascii (stringText true text) := by
  have hbody : Ascii (text.flatMap (codeText true)) := by
    intro c hc
    obtain ⟨d, -, hc⟩ := List.mem_flatMap.mp hc
    exact ascii_codeText d c hc
  simp [stringText, hbody, Code.toNat]

end Strings

section Numbers

theorem ascii_exponentText (x : Int) : Ascii (Text.of (Shortest.exponentText x)) := by
  obtain ⟨ds, htext, -, hds, -⟩ := Numeral.exponentText_eq x
  rw [Text.of, htext]
  split
  · simp [ascii_of_digits hds, Code.toNat]
  · simp [ascii_of_digits hds, Code.toNat]

theorem ascii_signed (negative : Bool) (x : Numeral) : Ascii (.ofChars (x.signed negative)) := by
  have hwhole : Ascii (.ofChars x.whole) := ascii_of_digits x.whole_digits
  have hfrac : Ascii (.ofChars (Numeral.fracChars x.frac)) := by
    unfold Numeral.fracChars
    split
    · exact ascii_nil
    · simp [ascii_of_digits x.frac_digits, Code.toNat]
  have hpower : Ascii (.ofChars (Numeral.powerChars x.power)) := by
    unfold Numeral.powerChars
    cases x.power with
    | none => exact ascii_nil
    | some e => exact ascii_exponentText e
  cases negative with
  | false => simp [Numeral.signed, Numeral.chars, hwhole, hfrac, hpower]
  | true => simp [Numeral.signed, Numeral.chars, hwhole, hfrac, hpower, Code.toNat]

theorem ascii_double {d : Double} (hd : d.Held) :
    Ascii (Text.of (Shortest.text numberStyle d)) := by
  cases d with
  | finite negative m e =>
      obtain ⟨x, htext, -⟩ := exists_text_finite numberStyle negative hd
      rw [Text.of, htext]
      exact ascii_signed negative x
  | infinite negative => cases negative <;> simp [Shortest.text, numberStyle, Text.of, Code.toNat]
  | nan => simp [Shortest.text, numberStyle, Text.of, Code.toNat]

theorem ascii_scalar {j : Json} (hscalar : j.Scalar) (hj : j.Valid) (hlayout : layout.ascii) :
    Ascii (written layout depth j) := by
  cases j with
  | null => simp [written, Text.of, Code.toNat]
  | bool b => cases b <;> simp [written, Text.of, Code.toNat]
  | int i =>
      rw [written, Text.of, toList_toString_int]
      exact ascii_signed _ _
  | double d =>
      rw [written]
      exact ascii_double hj
  | str text =>
      rw [written, hlayout]
      exact ascii_stringText text
  | arr _ => exact hscalar.elim
  | obj _ => exact hscalar.elim

end Numbers

section Containers

@[simp] theorem ascii_lineBreak (layout : Layout) (depth : Nat) :
    Ascii (lineBreak layout depth) := by
  unfold lineBreak
  split
  · exact ascii_nil
  · rename_i n _
    have hblanks : Ascii (List.replicate (n * depth) (.char ' ')) := by
      intro c hc
      rw [List.eq_of_mem_replicate hc]
      decide
    simp [hblanks, Code.toNat]

@[simp] theorem ascii_separator (layout : Layout) (depth : Nat) :
    Ascii (separator layout depth) := by
  unfold separator
  split
  · simp [Code.toNat]
  · simp [Code.toNat]

theorem ascii_writtenItems {items : List Json}
    (h : ∀ a ∈ items, Ascii (written layout depth a)) :
    Ascii (writtenItems layout depth items) := by
  induction items with
  | nil => exact ascii_nil
  | cons a rest ih =>
      obtain ⟨ha, hrest⟩ := List.forall_mem_cons.mp h
      simp [writtenItems, ha, ih hrest]

theorem ascii_writtenMembers {entries : List (Text × Json)} (hlayout : layout.ascii)
    (h : ∀ p ∈ entries, Ascii (written layout depth p.2)) :
    Ascii (writtenMembers layout depth entries) := by
  induction entries with
  | nil => exact ascii_nil
  | cons p rest ih =>
      obtain ⟨hp, hrest⟩ := List.forall_mem_cons.mp h
      simp [writtenMembers, hlayout, hp, ih hrest, Code.toNat]

-- In the layout for it every value is written in ASCII, by induction over the value: between the
-- values of a container stand brackets, commas, colons and blanks.
theorem ascii_written (hlayout : layout.ascii) {j : Json} (hj : j.Valid) :
    Ascii (written layout depth j) := by
  induction j using Json.induction generalizing depth with
  | scalar j hscalar => exact ascii_scalar hscalar hj hlayout
  | arr items ih =>
      have hitems : ∀ a ∈ items, Ascii (written layout (depth + 1) a) :=
        fun a ha => ih a ha ((validItems_iff items).mp hj a ha)
      cases items with
      | nil => simp [written, Text.of, Code.toNat]
      | cons a rest =>
          obtain ⟨ha, hrest⟩ := List.forall_mem_cons.mp hitems
          simp [written, ha, ascii_writtenItems hrest, Code.toNat]
  | obj entries ih =>
      have hmembers : ∀ p ∈ entries, Ascii (written layout (depth + 1) p.2) :=
        fun p hp => ih p hp ((validMembers_iff entries).mp hj.2 p hp)
      cases entries with
      | nil => simp [written, Text.of, Code.toNat]
      | cons p rest =>
          obtain ⟨hp, hrest⟩ := List.forall_mem_cons.mp hmembers
          simp [written, hlayout, hp, ascii_writtenMembers hlayout hrest, Code.toNat]

end Containers

theorem ascii_render (hlayout : layout.ascii) {j : Json} (hj : j.Valid) :
    Ascii (render layout j) :=
  ascii_written hlayout hj

end Dialect.Json
