import Dialect.Format.Toggle
import Dialect.Proofs.Entries
import Mathlib.Data.List.TakeWhile

namespace Dialect.Format

theorem isSign_eq_false_of_isNameChar {c : Char} (h : isNameChar c) : isSign c = false := by
  by_contra hs
  have hs : isSign c := by simpa using hs
  simp only [isSign, Bool.or_eq_true, beq_iff_eq] at hs
  rcases hs with rfl | rfl
  · exact absurd h (by decide)
  · exact absurd h (by decide)

theorem isLineBreak_eq_false_of_isNameChar {c : Char} (h : isNameChar c) :
    isLineBreak c = false := by
  by_contra hs
  have hs : isLineBreak c := by simpa using hs
  simp only [isLineBreak, Bool.or_eq_true, beq_iff_eq] at hs
  rcases hs with rfl | rfl
  · exact absurd h (by decide)
  · exact absurd h (by decide)

theorem isNameChar_eq_false_of_isSign {c : Char} (h : isSign c) : isNameChar c = false := by
  by_contra hn
  have hsign := isSign_eq_false_of_isNameChar (by simpa using hn)
  rw [h] at hsign
  contradiction

theorem isLineBreak_eq_false_of_isSign {c : Char} (h : isSign c) : isLineBreak c = false := by
  simp only [isSign, Bool.or_eq_true, beq_iff_eq] at h
  rcases h with rfl | rfl
  · decide
  · decide

namespace Toggle

-- The toggles that a text can hold: the name is a word, and not the empty one.
def Writable (t : Toggle) : Prop :=
  t.name.toList ≠ [] ∧ ∀ c ∈ t.name.toList, isNameChar c

def sign (t : Toggle) : Char :=
  if t.enabled then '+' else '-'

theorem isSign_sign (t : Toggle) : isSign t.sign := by
  unfold sign
  split <;> decide

theorem sign_beq_plus (t : Toggle) : (t.sign == '+') = t.enabled := by
  unfold sign
  cases t.enabled <;> decide

theorem sign_mk {c : Char} (h : isSign c) (name : String) : sign ⟨name, c == '+'⟩ = c := by
  simp only [isSign, Bool.or_eq_true, beq_iff_eq] at h
  rcases h with rfl | rfl <;> rfl

theorem toList_signed (t : Toggle) : t.signed.toList = t.sign :: t.name.toList := by
  unfold signed sign
  cases t.enabled <;> simp [String.toList_append]

-- A character that begins no toggle is passed over.
theorem scan_cons_of_not_sign {c : Char} (h : isSign c = false) (cs : List Char) :
    scan (c :: cs) = scan cs := by
  simp [scan, h]

theorem scan_append_of_not_sign {front : List Char} (h : ∀ c ∈ front, isSign c = false)
    (cs : List Char) : scan (front ++ cs) = scan cs := by
  induction front with
  | nil => rfl
  | cons c front ih =>
      rw [List.cons_append, scan_cons_of_not_sign (h c (by simp)),
        ih fun d hd => h d (List.mem_cons_of_mem c hd)]

theorem writable_of_mem_scan {t : Toggle} {cs : List Char} (h : t ∈ scan cs) : t.Writable := by
  induction cs with
  | nil => simp [scan] at h
  | cons c cs ih =>
      simp only [scan] at h
      split at h
      · rename_i hc
        rcases List.mem_cons.mp h with rfl | ht
        · constructor
          · simpa using (Bool.and_eq_true_iff.mp hc).2
          · intro d hd
            rw [String.toList_ofList] at hd
            exact List.mem_takeWhile_imp hd
        · exact ih ht
      · exact ih h

theorem writable_of_mem_parse {t : Toggle} {text : String} (h : t ∈ parse text) : t.Writable :=
  writable_of_mem_scan h

-- Reading takes a written toggle off the front, unless what follows would prolong its name.
theorem scan_signed_append {t : Toggle} (ht : t.Writable) {rest : List Char}
    (hrest : rest.takeWhile isNameChar = []) :
    scan (t.signed.toList ++ rest) = t :: scan rest := by
  have hname : (t.name.toList ++ rest).takeWhile isNameChar = t.name.toList := by
    rw [List.takeWhile_append_of_pos ht.2, hrest, List.append_nil]
  have hsigned : (isSign t.sign && !t.name.toList.isEmpty) = true := by
    simp [isSign_sign, ht.1]
  have hskip : scan (t.name.toList ++ rest) = scan rest :=
    scan_append_of_not_sign (fun c hc => isSign_eq_false_of_isNameChar (ht.2 c hc)) rest
  rw [toList_signed, List.cons_append]
  simp only [scan, hname, hsigned, if_true, hskip, String.ofList_toList, sign_beq_plus]

theorem head?_signed (toggles : List Toggle) :
    (toggles.flatMap fun t => t.signed.toList).head?.all isSign := by
  cases toggles with
  | nil => rfl
  | cons t rest =>
      rw [List.flatMap_cons, toList_signed]
      exact t.isSign_sign

-- No name runs on into a text that a sign begins.
theorem takeWhile_eq_nil_of_sign {cs : List Char} (h : cs.head?.all isSign) :
    cs.takeWhile isNameChar = [] := by
  cases cs with
  | nil => rfl
  | cons c rest =>
      have hname : isNameChar c = false := isNameChar_eq_false_of_isSign h
      simp [hname]

theorem scan_signed {toggles : List Toggle} (h : ∀ t ∈ toggles, t.Writable) :
    scan (toggles.flatMap fun t => t.signed.toList) = toggles := by
  induction toggles with
  | nil => rfl
  | cons t rest ih =>
      have hrest := takeWhile_eq_nil_of_sign (head?_signed rest)
      rw [List.flatMap_cons, scan_signed_append (h t (by simp)) hrest,
        ih fun s hs => h s (List.mem_cons_of_mem t hs)]

-- The written form of a row of toggles.
def row (toggles : List Toggle) : String :=
  String.join (toggles.map signed)

theorem toList_row (toggles : List Toggle) :
    (row toggles).toList = toggles.flatMap fun t => t.signed.toList := by
  simp [row, String.toList_join, List.flatMap_map]

-- Nothing in a written toggle is a line break, so taking line breaks out changes nothing.
theorem not_lineBreak_of_mem_row {toggles : List Toggle} (h : ∀ t ∈ toggles, t.Writable)
    {c : Char} (hc : c ∈ (row toggles).toList) : isLineBreak c = false := by
  rw [toList_row, List.mem_flatMap] at hc
  obtain ⟨t, ht, hc⟩ := hc
  rw [toList_signed] at hc
  rcases List.mem_cons.mp hc with rfl | hc
  · exact isLineBreak_eq_false_of_isSign t.isSign_sign
  · exact isLineBreak_eq_false_of_isNameChar ((h t ht).2 c hc)

-- Reading a row of toggles gives back the toggles that were written.
theorem parse_row {toggles : List Toggle} (h : ∀ t ∈ toggles, t.Writable) :
    parse (row toggles) = toggles := by
  have hfilter : ((row toggles).toList.filter fun c => !isLineBreak c) = (row toggles).toList := by
    apply List.filter_eq_self.mpr
    intro c hc
    simp [not_lineBreak_of_mem_row h hc]
  rw [parse, hfilter, toList_row, scan_signed h]

-- The state that the last toggle of a name asks for.
def lastState (name : String) (toggles : List Toggle) : Option Bool :=
  ((toggles.filter fun t => t.name = name).getLast?).map enabled

theorem last?_eq_lastState (name : String) (toggles : List Toggle) :
    Entries.last? name (toggles.map fun t => (t.name, t.enabled)) = lastState name toggles := by
  simp only [Entries.last?, lastState, List.filter_map, List.getLast?_map, Option.map_map]
  rfl

theorem lastState_append (name : String) (first second : List Toggle) :
    lastState name (first ++ second) = (lastState name second).or (lastState name first) := by
  simp only [lastState, List.filter_append, List.getLast?_append, Option.map_or]

theorem lastState_isSome_iff (name : String) (toggles : List Toggle) :
    (lastState name toggles).isSome ↔ name ∈ toggles.map Toggle.name := by
  simp [lastState]

theorem mem_of_lastState {name : String} {toggles : List Toggle} {enabled : Bool}
    (h : lastState name toggles = some enabled) : ⟨name, enabled⟩ ∈ toggles := by
  obtain ⟨t, hlast, rfl⟩ := Option.map_eq_some_iff.mp h
  have hmem := List.mem_filter.mp (List.mem_of_getLast? hlast)
  have hname : t.name = name := by simpa using hmem.2
  subst hname
  exact hmem.1

theorem get?_states (name : String) (toggles : List Toggle) :
    Entries.get? name (states toggles) = lastState name toggles := by
  rw [states, Entries.ofPairs, Entries.get?_putAll, last?_eq_lastState]
  simp [Entries.get?]

theorem mem_keys_states (name : String) (toggles : List Toggle) :
    name ∈ Entries.keys (states toggles) ↔ name ∈ toggles.map Toggle.name := by
  rw [Entries.mem_keys_iff, get?_states, lastState_isSome_iff]

end Toggle

end Dialect.Format
