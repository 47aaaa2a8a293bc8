import Dialect.Proofs.Text.Code
import Dialect.Proofs.Token.Rewriting
import Mathlib.Data.Set.Insert

namespace Dialect.Transform

open Token

variable {f : Token → Token} {vs ws : List Value} {seen : List Token}

-- The converse of `Yields.eq_of_fixed`: where the change leaves every token alone, the pass
-- comes to an end, and it hands over the tokens in the order of the walk.
theorem yields_of_fixed (vs : List Value) (hfix : ∀ t ∈ visit vs, f t = t) :
    Yields f vs (visit vs) vs := by
  obtain ⟨ws, h⟩ := exists_yields_of_keeps fun t ht => congrArg payload (hfix t ht)
  rwa [h.eq_of_fixed hfix] at h

-- A change that does away with some tags: tokens with other tags stay as they are, and what
-- it returns has another tag. It may put new tokens with these tags below.
structure Eliminates (f : Token → Token) (tags : Set Text) : Prop where
  keeps : ∀ t, t.tag ∉ tags → f t = t
  drops : ∀ t, (f t).tag ∉ tags

variable {tags : Set Text}

-- Every tag in the result was given by the change, to a token of the tree or to one that it
-- had put in itself.
theorem Eliminates.tag_notMem (he : Eliminates f tags) (h : Yields f vs seen ws) {t : Token}
    (ht : t ∈ visit ws) : t.tag ∉ tags := by
  have htag : t.tag ∈ (visit ws).map tag := List.mem_map_of_mem ht
  rw [h.map_tag_visit, List.mem_map] at htag
  obtain ⟨x, -, hx⟩ := htag
  exact hx ▸ he.drops x

theorem find_eq_nil_iff {tag : Text} : find ws tag = [] ↔ ∀ t ∈ visit ws, t.tag ≠ tag := by
  simp [find, List.filter_eq_nil_iff, isTagged]

-- A transformation that does away with some tags leaves none of them in its result, also not
-- in the payloads that the change put in. A second one over the result comes to an end,
-- whatever the first one went through, with one call for each token of the result, and it
-- cannot end in any other tree than the same one.
theorem find_of_eliminates (he : Eliminates f tags) (h : Ends f vs seen ws) :
    (∀ t ∈ visit ws, t.tag ∉ tags) ∧ (∀ tag ∈ tags, find ws tag = []) ∧
      Ends f ws (visit ws) ws ∧ ∀ again ws', Ends f ws again ws' → ws' = ws := by
  have hclean : ∀ t ∈ visit ws, t.tag ∉ tags := fun t ht => he.tag_notMem (ends_iff.mp h) ht
  have hfix : ∀ t ∈ visit ws, f t = t := fun t ht => he.keeps t (hclean t ht)
  refine ⟨hclean, ?_, ends_iff.mpr (yields_of_fixed ws hfix), ?_⟩
  · intro tag htag
    exact find_eq_nil_iff.mpr fun t ht heq => hclean t ht (heq ▸ htag)
  · intro again ws' hagain
    exact (ends_iff.mp hagain).eq_of_fixed hfix

-- A line block becomes a paragraph with a break behind it, a break becomes a span around a
-- mark, and a mark becomes text. The tree holds line blocks only; breaks and marks come up
-- while they are done away with.
private def unline (t : Token) : Token :=
  if t.tag = "LineBlock" then ⟨"Para", .list [t.payload, .token "Break" (.str "line")]⟩
  else if t.tag = "Break" then ⟨"Span", .list [.token "Mark" .null, t.payload]⟩
  else if t.tag = "Mark" then ⟨"Str", .str "¶"⟩
  else t

private def lineTags : Set Text := {Text.of "LineBlock", Text.of "Break", Text.of "Mark"}

private def lines : List Value :=
  [.token "LineBlock" (.list [.token "Str" (.str "a"), .token "LineBlock" .null]), .int 1]

private def broken : Value := .token "Span" (.list [.token "Str" (.str "¶"), .str "line"])

private def unlined : List Value :=
  [.token "Para" (.list [.list [.token "Str" (.str "a"),
    .token "Para" (.list [.null, broken])], broken]), .int 1]

private def linesCalls : List Token :=
  visit lines ++ [⟨"Break", .str "line"⟩, ⟨"Mark", .null⟩, ⟨"Break", .str "line"⟩, ⟨"Mark", .null⟩]

private theorem eliminates_unline : Eliminates unline lineTags where
  keeps t ht := by
    simp only [lineTags, Set.mem_insert_iff, Set.mem_singleton_iff, not_or] at ht
    simp only [unline, ht, if_false]
  drops t := by
    simp only [unline, lineTags, Set.mem_insert_iff, Set.mem_singleton_iff]
    split_ifs <;> simp_all

private theorem ends_lines : Ends unline lines linesCalls unlined :=
  ⟨9, by decide, by decide⟩

theorem find_of_eliminates_lines :
    Eliminates unline lineTags ∧ Ends unline lines linesCalls unlined ∧
      (∀ t ∈ visit unlined, t.tag ∉ lineTags) ∧ (∀ tag ∈ lineTags, find unlined tag = []) ∧
      Ends unline unlined (visit unlined) unlined :=
  have h := find_of_eliminates eliminates_unline ends_lines
  ⟨eliminates_unline, ends_lines, h.1, h.2.1, h.2.2.1⟩

end Dialect.Transform
