import Dialect.Proofs.Title.First

namespace Dialect.Title

-- Two single quotes side by side, which a reader takes for one that was doubled.
def twoQuotes : List Char := ['\'', '\'']

theorem escapeQuotes_ne_quote (s t : List Char) : escapeQuotes s ≠ '"' :: t := by
  cases s with
  | nil => simp [escapeQuotes]
  | cons c s =>
      by_cases hc : c = '"'
      · simp [escapeQuotes, hc]
      · simp [escapeQuotes, hc]

theorem dropBackslashes_cons {c : Char} {s : List Char} (h : ∀ t, s ≠ '"' :: t) :
    dropBackslashes (c :: s) = c :: dropBackslashes s := by
  rw [dropBackslashes]
  rintro rest rfl rfl
  exact h rest rfl

-- Every double quote that is written has a backslash of its own in front of it, so a
-- backslash of the title is never taken for one that escapes.
theorem dropBackslashes_escapeQuotes (s : List Char) : dropBackslashes (escapeQuotes s) = s := by
  induction s with
  | nil => rfl
  | cons c s ih =>
      by_cases hc : c = '"'
      · simp [escapeQuotes, hc, dropBackslashes, ih]
      · simp only [escapeQuotes, hc, if_false]
        rw [dropBackslashes_cons (escapeQuotes_ne_quote s), ih]

theorem unquote_quoted (s : List Char) : unquote ('"' :: s ++ ['"']) = s := by
  simp [unquote, isQuote]

theorem trimChars_line (s : List Char) :
    Text.trimChars (' ' :: '"' :: s ++ ['"']) = '"' :: s ++ ['"'] := by
  have hspace : Text.isBlank ' ' = true := by decide
  have hquote : Text.isBlank '"' = false := by decide
  simp [Text.trimChars, Text.trimRight, hspace, hquote]

-- A written title is read with each pair of single quotes made one.
theorem ofLine_escapeQuotes (title : List Char) :
    ofLine (' ' :: '"' :: escapeQuotes title ++ ['"']) = halveQuotes title := by
  rw [ofLine, trimChars_line, unquote_quoted, dropBackslashes_escapeQuotes]

theorem length_halveQuotes_le (s : List Char) : (halveQuotes s).length ≤ s.length := by
  fun_induction halveQuotes s with
  | case1 => exact Nat.le_refl 0
  | case2 rest ih =>
      simp only [List.length_cons]
      omega
  | case3 c rest _ ih =>
      simp only [List.length_cons]
      omega

theorem halveQuotes_eq_self_iff (s : List Char) : halveQuotes s = s ↔ ¬twoQuotes <:+: s := by
  fun_induction halveQuotes s with
  | case1 => simp [twoQuotes]
  | case2 rest _ =>
      have hlen := length_halveQuotes_le rest
      constructor
      · intro h
        have := congrArg List.length h
        simp only [List.length_cons] at this
        omega
      · intro h
        exact absurd ⟨[], rest, rfl⟩ h
  | case3 c rest hne ih =>
      have hstart : ¬twoQuotes <+: c :: rest := by
        rintro ⟨t, ht⟩
        obtain ⟨rfl, rfl⟩ := List.cons.inj ht
        exact hne t rfl rfl
      simp [List.infix_cons_iff, hstart, ih]

theorem notMem_escapeQuotes {s : List Char} (h : '\n' ∉ s) : '\n' ∉ escapeQuotes s := by
  induction s with
  | nil => simp [escapeQuotes]
  | cons c s ih =>
      simp only [List.mem_cons, not_or] at h
      by_cases hc : c = '"'
      · simp [escapeQuotes, hc, ih h.2]
      · simp [escapeQuotes, hc, h.1, ih h.2]

-- A written line with text around it, as a place.
def written (before title after : List Char) : Place :=
  ⟨before, ' ' :: '"' :: escapeQuotes title ++ ['"'], after⟩

theorem text_written (before title after : List Char) :
    (written before title after).text = before ++ line title ++ after := by
  simp [written, Place.text, line]

theorem notMem_value_written {title : List Char} (h : '\n' ∉ title) (before after : List Char) :
    '\n' ∉ (written before title after).value := by
  simp [written, notMem_escapeQuotes h]

-- What is put in for the first title line is itself the first one, if it is one line at all.
theorem isFirst_written {p : Place} {s title : List Char} (h : p.IsFirst s)
    (htitle : '\n' ∉ title) :
    (written p.before title p.after).IsFirst (p.before ++ line title ++ p.after) := by
  rw [← text_written]
  exact h.of_before rfl (notMem_value_written htitle p.before p.after)

-- A block that was made for a title: nothing in front of it looks like a title line.
theorem isFirst_block {title : List Char} (h : '\n' ∉ title) :
    (written "---".toList title "---".toList).IsFirst
      ("---".toList ++ line title ++ "---".toList) := by
  have hplain : (Place.mk "---".toList [] "---".toList).IsFirst "---\ntitle:\n---".toList :=
    find?_eq_some_iff.mp (by decide)
  exact isFirst_written hplain h

theorem extract_of_isFirst_written {s before title after : List Char}
    (h : (written before title after).IsFirst s) :
    extract (String.ofList s) = String.ofList (halveQuotes title) := by
  rw [← String.toList_ofList (l := s)] at h
  rw [extract_of_isFirst h]
  exact congrArg String.ofList (ofLine_escapeQuotes title)

theorem extract_block {title : String} (h : '\n' ∉ title.toList) :
    extract (block title) = String.ofList (halveQuotes title.toList) :=
  extract_of_isFirst_written (isFirst_block h)

theorem replace?_of_isFirst {y : String} {p : Place} (h : p.IsFirst y.toList) (title : String) :
    replace? y title = some (String.ofList (p.before ++ line title.toList ++ p.after)) := by
  rw [replace?, find?_eq_some_iff.mpr h]
  rfl

theorem extract_replace? {y title new : String} (h : '\n' ∉ title.toList)
    (hnew : replace? y title = some new) :
    extract new = String.ofList (halveQuotes title.toList) := by
  obtain ⟨p, hp, rfl⟩ := Option.map_eq_some_iff.mp hnew
  exact extract_of_isFirst_written (isFirst_written (find?_eq_some_iff.mp hp) h)

theorem isSome_replace?_iff (y title : String) :
    (replace? y title).isSome ↔ HasLine y.toList := by
  rw [replace?, Option.isSome_map, isSome_find?_iff]

theorem ofList_halveQuotes_eq_iff (title : String) :
    String.ofList (halveQuotes title.toList) = title ↔ ¬twoQuotes <:+: title.toList := by
  rw [← halveQuotes_eq_self_iff, ← String.toList_inj, String.toList_ofList]

-- Reading a title gives back what was written, into a block of its own or into any block with
-- a title line, exactly when no two single quotes stand side by side in it.
theorem extract_written_iff {title : String} (h : '\n' ∉ title.toList) :
    (extract (block title) = title ↔ ¬twoQuotes <:+: title.toList) ∧
      ∀ y : String, HasLine y.toList → ∃ new, replace? y title = some new ∧
        (extract new = title ↔ ¬twoQuotes <:+: title.toList) := by
  refine ⟨?_, fun y hy => ?_⟩
  · rw [extract_block h, ofList_halveQuotes_eq_iff]
  · obtain ⟨new, hnew⟩ := Option.isSome_iff_exists.mp ((isSome_replace?_iff y title).mpr hy)
    refine ⟨new, hnew, ?_⟩
    rw [extract_replace? h hnew, ofList_halveQuotes_eq_iff]

-- A title with every kind of quote, with backslashes in front of a quote and at its end.
private def awkward : String := "'\\\"it's\\\\"

theorem extract_written_awkward :
    '\n' ∉ awkward.toList ∧ extract (block awkward) = awkward ∧
      ∃ new, replace? "---\ntitle: a\ntitle: b\n---" awkward = some new ∧
        extract new = awkward := by
  have hline : '\n' ∉ awkward.toList := by decide
  have hplain : ¬twoQuotes <:+: awkward.toList := by decide
  have htwo : HasLine "---\ntitle: a\ntitle: b\n---".toList :=
    ⟨⟨"---".toList, " a".toList, "title: b\n---".toList⟩, by decide, by decide⟩
  obtain ⟨hblock, hreplace⟩ := extract_written_iff hline
  obtain ⟨new, hnew, hread⟩ := hreplace _ htwo
  exact ⟨hline, hblock.mpr hplain, new, hnew, hread.mpr hplain⟩

-- Two single quotes side by side are not escaped, and one of them is lost.
theorem extract_written_twoQuotes :
    '\n' ∉ "''".toList ∧ extract (block "''") = "'" ∧
      (replace? "---\ntitle: a\n---" "''").map extract = some "'" := by
  decide

end Dialect.Title
