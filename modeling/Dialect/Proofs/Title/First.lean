import Dialect.Proofs.Title.Place

namespace Dialect.Title

-- The leftmost of all ways to cut a text around a title line.
structure Place.IsFirst (p : Place) (s : List Char) : Prop where
  text : p.text = s
  closed : '\n' ∉ p.value
  least : ∀ q : Place, q.text = s → '\n' ∉ q.value → p.before.length ≤ q.before.length

theorem length_before_le_of_find? {s : List Char} {p q : Place} (h : find? s = some p)
    (htext : q.text = s) (hclosed : '\n' ∉ q.value) : p.before.length ≤ q.before.length := by
  obtain ⟨before, value, after⟩ := q
  subst htext
  induction before generalizing p with
  | nil =>
      rw [find?_of_line (Place.text_nil value after) hclosed] at h
      cases h
      exact Nat.le_refl 0
  | cons c before ih =>
      rw [Place.text_cons] at h
      by_cases hstart : StartsWithLine (c :: (Place.mk before value after).text)
      · obtain ⟨value', hvalue', after', hs⟩ := hstart
        rw [find?_of_line (by simpa using hs.symm) hvalue'] at h
        cases h
        exact Nat.zero_le _
      · rw [find?_of_not_line hstart] at h
        obtain ⟨p', hp', rfl⟩ := Option.map_eq_some_iff.mp h
        exact Nat.succ_le_succ (ih hclosed hp')

-- A text is cut in one way only at a given line feed: the line ends at the next one.
theorem Place.eq_of_text_eq {p q : Place} (htext : p.text = q.text)
    (hlength : p.before.length = q.before.length) (hp : '\n' ∉ p.value) (hq : '\n' ∉ q.value) :
    p = q := by
  obtain ⟨before, value, after⟩ := p
  obtain ⟨before', value', after'⟩ := q
  simp only [Place.text, List.append_assoc] at htext
  obtain ⟨rfl, hline⟩ := List.append_inj htext hlength
  have hread : closedLine? (value ++ '\n' :: after) = some (value', after') :=
    closedLine?_eq_some_iff.mpr ⟨List.append_cancel_left hline, hq⟩
  rw [closedLine?_eq_some_iff.mpr ⟨rfl, hp⟩] at hread
  cases hread
  rfl

theorem Place.IsFirst.unique {p q : Place} {s : List Char} (hp : p.IsFirst s)
    (hq : q.IsFirst s) : p = q := by
  have hle := hp.least q hq.text hq.closed
  have hge := hq.least p hp.text hp.closed
  exact Place.eq_of_text_eq (hp.text.trans hq.text.symm) (Nat.le_antisymm hle hge) hp.closed
    hq.closed

-- The search finds the leftmost title line.
theorem find?_eq_some_iff {s : List Char} {p : Place} : find? s = some p ↔ p.IsFirst s := by
  constructor
  · intro h
    obtain ⟨htext, hclosed⟩ := text_of_find? h
    exact ⟨htext, hclosed, fun q => length_before_le_of_find? h⟩
  · intro h
    obtain ⟨q, hq⟩ := Option.isSome_iff_exists.mp (isSome_find?_iff.mpr ⟨p, h.text, h.closed⟩)
    obtain ⟨htext, hclosed⟩ := text_of_find? hq
    rw [hq, h.unique ⟨htext, hclosed, fun r => length_before_le_of_find? hq⟩]

theorem HasLine.exists_isFirst {s : List Char} (h : HasLine s) : ∃ p : Place, p.IsFirst s := by
  obtain ⟨p, hp⟩ := Option.isSome_iff_exists.mp (isSome_find?_iff.mpr h)
  exact ⟨p, find?_eq_some_iff.mp hp⟩

-- With another line at its place, a text has its first title line at the same place.
theorem Place.IsFirst.of_before {p q : Place} {s : List Char} (h : p.IsFirst s)
    (hbefore : q.before = p.before) (hclosed : '\n' ∉ q.value) : q.IsFirst q.text := by
  rw [← find?_eq_some_iff]
  refine find?_text_of_before ?_ hbefore hclosed
  rw [find?_eq_some_iff, h.text]
  exact h

theorem extract_of_isFirst {y : String} {p : Place} (h : p.IsFirst y.toList) :
    extract y = String.ofList (ofLine p.value) := by
  rw [extract, find?_eq_some_iff.mpr h]

end Dialect.Title
