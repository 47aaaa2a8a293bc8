import Dialect.Title
import Mathlib.Data.List.Infix

namespace Dialect.Title

-- The text that a place was found in.
def Place.text (p : Place) : List Char :=
  p.before ++ key ++ p.value ++ '\n' :: p.after

theorem Place.text_nil (value after : List Char) :
    (Place.mk [] value after).text = key ++ value ++ '\n' :: after := rfl

theorem Place.text_cons (c : Char) (before value after : List Char) :
    (Place.mk (c :: before) value after).text = c :: (Place.mk before value after).text := rfl

-- A text has a title line if it can be cut around one; the line ends at its first line feed.
def HasLine (s : List Char) : Prop :=
  ∃ p : Place, p.text = s ∧ '\n' ∉ p.value

-- A title line that is the beginning of a text.
def StartsWithLine (s : List Char) : Prop :=
  ∃ value, '\n' ∉ value ∧ key ++ value ++ ['\n'] <+: s

theorem closedLine?_eq_some_iff {s line after : List Char} :
    closedLine? s = some (line, after) ↔ s = line ++ '\n' :: after ∧ '\n' ∉ line := by
  induction s generalizing line with
  | nil => simp [closedLine?]
  | cons c s ih =>
      by_cases hc : c = '\n'
      · subst c
        cases line with
        | nil => simp [closedLine?, eq_comm]
        | cons d line =>
            simp only [closedLine?, if_true, Option.some.injEq, Prod.mk.injEq, List.cons_append,
              List.cons.injEq, List.mem_cons, not_or]
            constructor
            · rintro ⟨h, -⟩
              cases h
            · rintro ⟨⟨h, -⟩, hne, -⟩
              exact absurd h hne
      · cases line with
        | nil => simp [closedLine?, hc]
        | cons d line =>
            simp only [closedLine?, hc, if_false, Option.map_eq_some_iff, Prod.exists,
              Prod.mk.injEq, List.cons.injEq, List.cons_append, List.mem_cons, not_or]
            constructor
            · rintro ⟨line', after', h, ⟨rfl, rfl⟩, rfl⟩
              obtain ⟨rfl, hline⟩ := ih.mp h
              exact ⟨⟨rfl, rfl⟩, fun h => hc h.symm, hline⟩
            · rintro ⟨⟨rfl, rfl⟩, -, hline⟩
              exact ⟨line, after, ih.mpr ⟨rfl, hline⟩, ⟨rfl, rfl⟩, rfl⟩

theorem behind?_eq_some_iff {lead s rest : List Char} :
    behind? lead s = some rest ↔ s = lead ++ rest := by
  induction lead generalizing s with
  | nil => simp [behind?]
  | cons k lead ih =>
      cases s with
      | nil => simp [behind?]
      | cons c s =>
          by_cases hk : k = c
          · simp [behind?, hk, ih]
          · simp [behind?, hk, Ne.symm hk]

theorem lineAt_eq_some_iff {s value after : List Char} :
    (behind? key s).bind closedLine? = some (value, after) ↔
      s = key ++ value ++ '\n' :: after ∧ '\n' ∉ value := by
  rw [Option.bind_eq_some_iff]
  constructor
  · rintro ⟨rest, hlead, hline⟩
    obtain ⟨rfl, hvalue⟩ := closedLine?_eq_some_iff.mp hline
    exact ⟨by rw [behind?_eq_some_iff.mp hlead, List.append_assoc], hvalue⟩
  · rintro ⟨rfl, hvalue⟩
    exact ⟨_, behind?_eq_some_iff.mpr (List.append_assoc _ _ _),
      closedLine?_eq_some_iff.mpr ⟨rfl, hvalue⟩⟩

theorem lineAt_eq_none_iff {s : List Char} :
    (behind? key s).bind closedLine? = none ↔ ¬StartsWithLine s := by
  rw [← Option.not_isSome_iff_eq_none, Option.isSome_iff_exists, Prod.exists]
  apply not_congr
  constructor
  · rintro ⟨value, after, h⟩
    obtain ⟨rfl, hvalue⟩ := lineAt_eq_some_iff.mp h
    exact ⟨value, hvalue, after, by simp⟩
  · rintro ⟨value, hvalue, after, rfl⟩
    exact ⟨value, after, lineAt_eq_some_iff.mpr ⟨by simp, hvalue⟩⟩

theorem key_eq : key = '\n' :: key.tail := by decide

theorem notMem_key_tail : '\n' ∉ key.tail := by decide

-- The search takes the first start of a title line, character by character.
theorem find?_of_line {s value after : List Char} (hs : s = key ++ value ++ '\n' :: after)
    (hvalue : '\n' ∉ value) : find? s = some ⟨[], value, after⟩ := by
  have hline := lineAt_eq_some_iff.mpr ⟨hs, hvalue⟩
  cases s with
  | nil =>
      rw [key_eq] at hs
      simp at hs
  | cons c rest => simp only [find?, hline]

theorem find?_of_not_line {c : Char} {rest : List Char} (h : ¬StartsWithLine (c :: rest)) :
    find? (c :: rest) = (find? rest).map fun p => { p with before := c :: p.before } := by
  simp only [find?, lineAt_eq_none_iff.mpr h]

theorem text_of_find? {s : List Char} {p : Place} (h : find? s = some p) :
    p.text = s ∧ '\n' ∉ p.value := by
  induction s generalizing p with
  | nil => simp [find?] at h
  | cons c rest ih =>
      simp only [find?] at h
      split at h
      · rename_i value after hline
        cases h
        obtain ⟨hs, hvalue⟩ := lineAt_eq_some_iff.mp hline
        exact ⟨by simp [Place.text, hs], hvalue⟩
      · obtain ⟨q, hq, rfl⟩ := Option.map_eq_some_iff.mp h
        obtain ⟨htext, hvalue⟩ := ih hq
        exact ⟨by simpa [Place.text] using htext, hvalue⟩

theorem isSome_find?_iff {s : List Char} : (find? s).isSome ↔ HasLine s := by
  constructor
  · intro h
    obtain ⟨p, hp⟩ := Option.isSome_iff_exists.mp h
    exact ⟨p, text_of_find? hp⟩
  · rintro ⟨⟨before, value, after⟩, rfl, hvalue⟩
    replace hvalue : '\n' ∉ value := hvalue
    induction before with
    | nil => rw [find?_of_line (Place.text_nil value after) hvalue, Option.isSome_some]
    | cons c before ih =>
        rw [Place.text_cons]
        by_cases hstart : StartsWithLine (c :: (Place.mk before value after).text)
        · obtain ⟨value', hvalue', after', hs⟩ := hstart
          rw [find?_of_line (by simpa using hs.symm) hvalue', Option.isSome_some]
        · rw [find?_of_not_line hstart, Option.isSome_map]
          exact ih

-- Whether a title line starts a text is settled at the first line feed behind its first
-- character: the key has only one, at its front, and the line ends at the next one.
theorem startsWithLine_append_iff {c : Char} {front rest : List Char} :
    StartsWithLine (c :: front ++ '\n' :: rest) ↔ StartsWithLine (c :: front ++ ['\n']) := by
  have hshort : c :: front ++ ['\n'] <+: c :: front ++ '\n' :: rest := ⟨rest, by simp⟩
  constructor
  · rintro ⟨value, hvalue, hline⟩
    refine ⟨value, hvalue, ?_⟩
    rcases List.prefix_or_prefix_of_prefix hline hshort with h | h
    · exact h
    rcases List.prefix_concat_iff.mp h with heq | hinside
    · rw [heq]
    · have htail : front ++ ['\n'] <+: key.tail ++ value := (List.cons_prefix_cons.mp hinside).2
      have hmem : '\n' ∈ key.tail ++ value := htail.subset (by simp)
      rcases List.mem_append.mp hmem with hkey | hin
      · exact absurd hkey notMem_key_tail
      · exact absurd hin hvalue
  · rintro ⟨value, hvalue, hline⟩
    exact ⟨value, hvalue, hline.trans hshort⟩

-- What stands behind the line feed of the key has no say in where the first title line is.
theorem find?_text_of_before {p q : Place} (h : find? p.text = some p)
    (hbefore : q.before = p.before) (hvalue : '\n' ∉ q.value) : find? q.text = some q := by
  obtain ⟨before, value, after⟩ := p
  obtain ⟨before', value', after'⟩ := q
  obtain rfl : before' = before := hbefore
  replace hvalue : '\n' ∉ value' := hvalue
  induction before' with
  | nil => exact find?_of_line (Place.text_nil value' after') hvalue
  | cons c before ih =>
      have hcut (v a : List Char) : c :: (Place.mk before v a).text =
          c :: before ++ '\n' :: (key.tail ++ v ++ '\n' :: a) := by
        rw [Place.text, key_eq]
        simp
      have hnone : ¬StartsWithLine (c :: (Place.mk before value after).text) := by
        rintro ⟨value'', hvalue'', after'', hs⟩
        rw [Place.text_cons, find?_of_line (by simpa using hs.symm) hvalue''] at h
        cases h
      have hnone' : ¬StartsWithLine (c :: (Place.mk before value' after').text) := by
        rw [hcut, startsWithLine_append_iff] at hnone ⊢
        exact hnone
      rw [Place.text_cons, find?_of_not_line hnone, Option.map_eq_some_iff] at h
      obtain ⟨⟨before', value'', after''⟩, hq, hcons⟩ := h
      cases hcons
      rw [Place.text_cons, find?_of_not_line hnone', ih hq]
      rfl

end Dialect.Title
