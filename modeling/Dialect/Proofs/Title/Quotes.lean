import Dialect.Proofs.Title.Written

namespace Dialect.Title

-- A double quote behind a backslash, which a reader takes for one that was escaped.
def slashQuote : List Char := ['\\', '"']

def dropFirstQuote (s : List Char) : List Char :=
  if s.head?.any isQuote then s.tail else s

def dropLastQuote (s : List Char) : List Char :=
  if s.getLast?.any isQuote then s.dropLast else s

-- No quote stands at either end of a text.
def Bare (s : List Char) : Prop :=
  s.head?.any isQuote = false ∧ s.getLast?.any isQuote = false

-- The front is looked at first, then the end of what is left, whatever was found at the front.
theorem unquote_eq (s : List Char) : unquote s = dropLastQuote (dropFirstQuote s) := by
  cases s with
  | nil => rfl
  | cons c rest =>
      by_cases hc : isQuote c
      · have hfirst : dropFirstQuote (c :: rest) = rest := by simp [dropFirstQuote, hc]
        cases hlast : rest.getLast? with
        | none => simp [unquote, hc, hfirst, dropLastQuote, hlast]
        | some d => simp [unquote, hc, hfirst, dropLastQuote, hlast]
      · have hfirst : dropFirstQuote (c :: rest) = c :: rest := by simp [dropFirstQuote, hc]
        have hlast : (c :: rest).getLast? = some ((c :: rest).getLast (by simp)) :=
          List.getLast?_eq_some_getLast (by simp)
        simp only [unquote, hc, hfirst, dropLastQuote, hlast, Bool.false_eq_true, if_false,
          Option.any_some]

theorem dropFirstQuote_isSuffix (s : List Char) : dropFirstQuote s <:+ s := by
  unfold dropFirstQuote
  split
  · exact s.tail_suffix
  · exact s.suffix_refl

theorem dropLastQuote_isPrefix (s : List Char) : dropLastQuote s <+: s := by
  unfold dropLastQuote
  split
  · exact s.dropLast_prefix
  · exact s.prefix_refl

theorem unquote_isInfix (s : List Char) : unquote s <:+: s := by
  rw [unquote_eq]
  exact (dropLastQuote_isPrefix _).isInfix.trans (dropFirstQuote_isSuffix s).isInfix

theorem dropFirstQuote_eq_self_iff (s : List Char) :
    dropFirstQuote s = s ↔ s.head?.any isQuote = false := by
  unfold dropFirstQuote
  cases s with
  | nil => simp
  | cons c rest => cases hc : isQuote c <;> simp [hc]

theorem dropLastQuote_eq_self_iff (s : List Char) :
    dropLastQuote s = s ↔ s.getLast?.any isQuote = false := by
  unfold dropLastQuote
  cases hlast : s.getLast?.any isQuote with
  | false => simp
  | true =>
      have hne : s ≠ [] := by
        rintro rfl
        simp at hlast
      have hpos := List.length_pos_iff.mpr hne
      simp only [if_true, Bool.true_eq_false, iff_false]
      intro h
      have := congrArg List.length h
      rw [List.length_dropLast] at this
      omega

-- Taking quotes off changes nothing only if there is none to take off: both steps shorten, so
-- neither makes up for the other.
theorem unquote_eq_self_iff (s : List Char) : unquote s = s ↔ Bare s := by
  rw [unquote_eq, Bare, ← dropFirstQuote_eq_self_iff, ← dropLastQuote_eq_self_iff]
  constructor
  · intro h
    have hback := (dropLastQuote_isPrefix (dropFirstQuote s)).length_le
    rw [h] at hback
    have hfirst : dropFirstQuote s = s := (dropFirstQuote_isSuffix s).eq_of_length_le hback
    rw [hfirst] at h
    exact ⟨hfirst, h⟩
  · rintro ⟨hfirst, hlast⟩
    rw [hfirst, hlast]

theorem dropBackslashes_of_not_infix {s : List Char} (h : ¬slashQuote <:+: s) :
    dropBackslashes s = s := by
  fun_induction dropBackslashes s with
  | case1 => rfl
  | case2 rest _ => exact absurd ⟨[], rest, rfl⟩ h
  | case3 c rest _ ih => rw [ih fun hrest => h (List.infix_cons hrest)]

theorem trimChars_cons_of_isBlank {c : Char} (h : Text.isBlank c = true) (s : List Char) :
    Text.trimChars (c :: s) = Text.trimChars s := by
  rw [Text.trimChars, List.dropWhile_cons_of_pos h]
  rfl

-- In a text without escapes there is nothing to undo, also when its quotes are gone.
theorem ofLine_of_plain {w : List Char} (htrim : Text.trimChars w = w)
    (hslash : ¬slashQuote <:+: w) (hquotes : ¬twoQuotes <:+: w) :
    ofLine (' ' :: w) = unquote w := by
  have hpart := unquote_isInfix w
  have hdrop : dropBackslashes (unquote w) = unquote w :=
    dropBackslashes_of_not_infix fun h => hslash (h.trans hpart)
  have hhalve : halveQuotes (unquote w) = unquote w :=
    (halveQuotes_eq_self_iff _).mpr fun h => hquotes (h.trans hpart)
  rw [ofLine, trimChars_cons_of_isBlank (by decide), htrim, hdrop, hhalve]

-- A trimmed title without escapes loses a quote at its front and a quote at its end, each whether
-- or not the other one is there. So it is read as it stands exactly if it has none at either end.
theorem extract_plain_iff {y w : String} {p : Place} (hfirst : p.IsFirst y.toList)
    (hvalue : p.value = ' ' :: w.toList) (htrim : Text.trimChars w.toList = w.toList)
    (hslash : ¬slashQuote <:+: w.toList) (hquotes : ¬twoQuotes <:+: w.toList) :
    extract y = String.ofList (dropLastQuote (dropFirstQuote w.toList)) ∧
      (extract y = w ↔ Bare w.toList) := by
  have hread : extract y = String.ofList (unquote w.toList) := by
    rw [extract_of_isFirst hfirst, hvalue, ofLine_of_plain htrim hslash hquotes]
  rw [hread]
  refine ⟨congrArg String.ofList (unquote_eq w.toList), ?_⟩
  rw [← unquote_eq_self_iff, ← String.toList_inj, String.toList_ofList]

-- Quotes of both kinds inside a title, and a backslash at its end.
private def inner : String := "Don't say \"no\" \\"

private def innerBlock : String := "---\ntitle: Don't say \"no\" \\\ntitle: b\n---"

theorem extract_plain_inner :
    (Place.mk "---".toList (' ' :: inner.toList) "title: b\n---".toList).IsFirst
      innerBlock.toList ∧
    Text.trimChars inner.toList = inner.toList ∧ ¬slashQuote <:+: inner.toList ∧
    ¬twoQuotes <:+: inner.toList ∧ Bare inner.toList ∧ extract innerBlock = inner := by
  have hfirst : (Place.mk "---".toList (' ' :: inner.toList) "title: b\n---".toList).IsFirst
      innerBlock.toList := find?_eq_some_iff.mp (by decide)
  have htrim : Text.trimChars inner.toList = inner.toList := by decide
  have hslash : ¬slashQuote <:+: inner.toList := by decide
  have hquotes : ¬twoQuotes <:+: inner.toList := by decide
  have hbare : Bare inner.toList := ⟨by decide, by decide⟩
  exact ⟨hfirst, htrim, hslash, hquotes, hbare,
    (extract_plain_iff hfirst rfl htrim hslash hquotes).2.mpr hbare⟩

-- An apostrophe that begins a title is lost, though nothing closes it.
theorem extract_plain_apostrophe :
    (Place.mk "---".toList " 'tis so".toList "---".toList).IsFirst
      "---\ntitle: 'tis so\n---".toList ∧
    Text.trimChars "'tis so".toList = "'tis so".toList ∧
    "'tis so".toList.head? ≠ "'tis so".toList.getLast? ∧ ¬slashQuote <:+: "'tis so".toList ∧
    ¬twoQuotes <:+: "'tis so".toList ∧ extract "---\ntitle: 'tis so\n---" = "tis so" :=
  ⟨find?_eq_some_iff.mp (by decide), by decide, by decide, by decide, by decide, by decide⟩

end Dialect.Title
