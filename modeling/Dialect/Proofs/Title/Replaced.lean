import Dialect.Proofs.Title.Written

namespace Dialect.Title

variable {y : String} {p : Place}

-- A double quote is written behind a backslash, every other character as it is.
def escaped (c : Char) : List Char :=
  if c = '"' then ['\\', '"'] else [c]

theorem escapeQuotes_eq_flatMap (s : List Char) : escapeQuotes s = s.flatMap escaped := by
  induction s with
  | nil => rfl
  | cons c s ih =>
      rw [List.flatMap_cons, ← ih]
      by_cases hc : c = '"'
      · simp [escapeQuotes, escaped, hc]
      · simp [escapeQuotes, escaped, hc]

theorem line_eq (title : List Char) :
    line title = "\ntitle: \"".toList ++ title.flatMap escaped ++ "\"\n".toList := by
  rw [line, escapeQuotes_eq_flatMap]
  rfl

theorem replace?_eq_none_iff (y title : String) :
    replace? y title = none ↔ ¬HasLine y.toList := by
  rw [← isSome_replace?_iff y title, Option.not_isSome_iff_eq_none]

-- A second replacement meets the place of the first one, and leaves no trace of it.
theorem replace?_replace? (h : p.IsFirst y.toList) {title : String} (htitle : '\n' ∉ title.toList)
    (again : String) : (replace? y title).bind (replace? · again) = replace? y again := by
  have hwritten := isFirst_written h htitle
  rw [replace?_of_isFirst h title, replace?_of_isFirst h again, Option.bind_some]
  rw [← String.toList_ofList (l := p.before ++ line title.toList ++ p.after)] at hwritten
  exact replace?_of_isFirst hwritten again

-- Replacing a title changes the text of the first title line and nothing else, whatever the new
-- title is. The new line holds it between double quotes, and those in it behind backslashes. If
-- it is one line, replacing it again comes to the same as replacing once.
theorem replace?_first_line (y title : String) :
    (replace? y title = none ↔ ¬HasLine y.toList) ∧
    (HasLine y.toList → ∃ p : Place, p.IsFirst y.toList ∧ replace? y title = some (String.ofList
      (p.before ++ "\ntitle: \"".toList ++ title.toList.flatMap escaped ++ "\"\n".toList ++
        p.after))) ∧
    ('\n' ∉ title.toList → ∀ again, (replace? y title).bind (replace? · again) =
      replace? y again) := by
  refine ⟨replace?_eq_none_iff y title, fun hy => ?_, fun htitle again => ?_⟩
  · obtain ⟨p, hp⟩ := hy.exists_isFirst
    refine ⟨p, hp, ?_⟩
    rw [replace?_of_isFirst hp, line_eq]
    simp only [List.append_assoc]
  · by_cases hy : HasLine y.toList
    · obtain ⟨p, hp⟩ := hy.exists_isFirst
      exact replace?_replace? hp htitle again
    · have hnone : ∀ t, replace? y t = none := fun t => (replace?_eq_none_iff y t).mpr hy
      rw [hnone, hnone, Option.bind_none]

-- Two title lines that share a line feed, and a title that a pattern would take for its groups.
private def twoTitles : String := "---\ntitle: a\ntitle: b\n---"

private def literal : String := "\\1 \"\\g<0>\" $1"

theorem replace?_first_line_twoTitles :
    HasLine twoTitles.toList ∧ '\n' ∉ literal.toList ∧
    (∃ p : Place, p.IsFirst twoTitles.toList ∧ replace? twoTitles literal = some (String.ofList
      (p.before ++ "\ntitle: \"".toList ++ literal.toList.flatMap escaped ++ "\"\n".toList ++
        p.after))) ∧
    (replace? twoTitles literal).bind (replace? · "title:") = replace? twoTitles "title:" := by
  have hlines : HasLine twoTitles.toList :=
    ⟨⟨"---".toList, " a".toList, "title: b\n---".toList⟩, by decide, by decide⟩
  have hliteral : '\n' ∉ literal.toList := by decide
  obtain ⟨-, hplace, hagain⟩ := replace?_first_line twoTitles literal
  exact ⟨hlines, hliteral, hplace hlines, hagain hliteral "title:"⟩

end Dialect.Title
