import Dialect.Proofs.Text.Code
import Dialect.Proofs.Token.Rewriting

namespace Dialect

namespace Token

-- The tags of tokens that stand for text themselves. Their payload is not searched for more.
def IsWord (tag : Text) : Prop :=
  tag = "Str" ∨ tag = "Space"

instance (tag : Text) : Decidable (IsWord tag) :=
  inferInstanceAs (Decidable (tag = "Str" ∨ tag = "Space"))

-- What a token brings to the text on its own, without the tokens in its payload.
def literal (t : Token) : Text :=
  if t.tag = "Str" then
    match t.payload with
    | .str s => s
    | _ => []
  else if t.tag = "Space" then " "
  else []

theorem literal_of_not_isWord {t : Token} (h : ¬IsWord t.tag) : t.literal = [] := by
  rw [IsWord, not_or] at h
  simp only [literal, h, if_false]

theorem collectText_cons (v : Value) (vs : List Value) :
    collectText (v :: vs) = collectText [v] ++ collectText vs := by
  simp [collectText, Value.itemText]

theorem collectText_list (items : List Value) : collectText [.list items] = collectText items := by
  simp [collectText, Value.itemText, Value.text]

theorem collectText_word {tag : Text} (h : IsWord tag) (payload : Value) :
    collectText [.token tag payload] = literal ⟨tag, payload⟩ := by
  obtain rfl | rfl := h
  · cases payload <;> simp [collectText, Value.itemText, Value.text, literal]
  · simp [collectText, Value.itemText, Value.text, literal]

theorem collectText_of_not_isWord {tag : Text} (h : ¬IsWord tag) (payload : Value) :
    collectText [.token tag payload] = collectText [payload] := by
  rw [IsWord, not_or] at h
  simp [collectText, Value.itemText, Value.text, h]

end Token

namespace Transform

open Token

theorem collectText_of_isOpaque {v : Value} (h : isOpaque v) : collectText [v] = [] := by
  cases v <;> first | rfl | simp [isOpaque] at h

variable {f : Token → Token} {vs ws : List Value} {seen : List Token}

-- Flattening agrees with visiting: if no word has a token in its payload, the text is what the
-- tokens bring on their own, one after the other in the order of the walk.
theorem collectText_eq_join (h : ∀ t ∈ visit vs, IsWord t.tag → visit [t.payload] = []) :
    collectText vs = ((visit vs).map literal).flatten := by
  induction vs using roots_induction with
  | nil => rfl
  | token tag payload vs ihpayload ihvs =>
      rw [visit_cons, visit_token] at h
      have hvs := ihvs fun t ht => h t (by simp [ht])
      rw [collectText_cons, visit_cons, visit_token, hvs]
      by_cases hword : IsWord tag
      · have hnone : visit [payload] = [] := h ⟨tag, payload⟩ (by simp) hword
        simp [collectText_word hword, hnone]
      · have hpayload := ihpayload fun t ht => h t (by simp [ht])
        have hliteral : literal ⟨tag, payload⟩ = [] := literal_of_not_isWord hword
        simp [collectText_of_not_isWord hword, hpayload, hliteral]
  | list items vs ihitems ihvs =>
      rw [visit_cons, visit_list] at h
      have hitems := ihitems fun t ht => h t (by simp [ht])
      have hvs := ihvs fun t ht => h t (by simp [ht])
      rw [collectText_cons, collectText_list, visit_cons, visit_list, hitems, hvs]
      simp
  | leaf v vs hleaf ihvs =>
      rw [visit_cons, visit_of_isOpaque hleaf, List.nil_append] at h ⊢
      rw [collectText_cons, collectText_of_isOpaque hleaf, List.nil_append]
      exact ihvs h

-- Words without text, a text that is no word, and a word in a map.
private def link : List Value :=
  [.token "Str" (.list [.str "x", .list [.int 1]]), .str "y", .token "Link" (.list [
    .list [.str "", .map [("k", .token "Str" (.str "z"))]],
    .list [.token "Str" (.str "a"), .token "Space" (.bool true),
      .token "Emph" (.token "Str" (.str "b")), .token "Code" (.str "c")]])]

theorem collectText_link :
    (∀ t ∈ visit link, IsWord t.tag → visit [t.payload] = []) ∧
      collectText link = ((visit link).map literal).flatten ∧ collectText link = "a b" :=
  have hwords : ∀ t ∈ visit link, IsWord t.tag → visit [t.payload] = [] := by decide
  ⟨hwords, collectText_eq_join hwords, by decide⟩

-- A token in the payload of a word is met by a walk, but it brings nothing to the text.
example : collectText [.token "Str" (.token "Space" .null)] = [] ∧
    (visit [.token "Str" (.token "Space" .null)]).map literal = [[], " "] := by decide

-- A pass makes no text of a payload that is none, and leaves one that is a text as it is.
theorem Yields.literal_eq {payload payload' : Value} (h : Yields f [payload] seen [payload'])
    (tag : Text) : literal ⟨tag, payload'⟩ = literal ⟨tag, payload⟩ := by
  cases h <;> rfl

theorem Yields.collectText_eq (h : Yields f vs seen ws)
    (hkeeps : ∀ t ∈ seen, collectText [(f t).toValue] = collectText [t.toValue]) :
    collectText ws = collectText vs := by
  induction h with
  | nil => rfl
  | @token tag payload payload' _ _ vs ws hyields _ ihpayload ihvs =>
      have hhead := hkeeps ⟨tag, payload⟩ (by simp)
      have hpayload := ihpayload fun t ht => hkeeps t (by simp [ht])
      have hvs := ihvs fun t ht => hkeeps t (by simp [ht])
      -- the text of what the change returned is still there after its payload was rebuilt
      have hrebuilt : collectText [.token (f ⟨tag, payload⟩).tag payload'] =
          collectText [(f ⟨tag, payload⟩).toValue] := by
        rw [toValue]
        by_cases hword : IsWord (f ⟨tag, payload⟩).tag
        · rw [collectText_word hword, collectText_word hword]
          exact hyields.literal_eq _
        · rw [collectText_of_not_isWord hword, collectText_of_not_isWord hword]
          exact hpayload
      calc
        collectText (.token (f ⟨tag, payload⟩).tag payload' :: ws)
        _ = collectText [(f ⟨tag, payload⟩).toValue] ++ collectText vs := by
          rw [collectText_cons, hrebuilt, hvs]
        _ = collectText (.token tag payload :: vs) := by
          rw [collectText_cons (.token tag payload), hhead, toValue]
  | list _ _ ihitems ihvs =>
      have hitems := ihitems fun t ht => hkeeps t (by simp [ht])
      have hvs := ihvs fun t ht => hkeeps t (by simp [ht])
      rw [collectText_cons, collectText_list, hitems, hvs, ← collectText_list, ← collectText_cons]
  | leaf _ _ ihvs =>
      rw [collectText_cons, ihvs hkeeps, ← collectText_cons]

-- A change that keeps the text of every token keeps the text of the tree: if a transformation
-- comes to an end, and the change keeps the text of the tokens that it was given, the result has
-- the text of the tree, although the change saw parents before it saw their children.
theorem collectText_of_ends (h : Ends f vs seen ws)
    (hkeeps : ∀ t ∈ seen, collectText [(f t).toValue] = collectText [t.toValue]) :
    collectText ws = collectText vs :=
  (ends_iff.mp h).collectText_eq hkeeps

-- A quotation becomes a span with a mark, marks become empty words, and blanks are spelled out,
-- also a blank in a word, which is no text before or after.
private def unquote (t : Token) : Token :=
  if t.tag = "Quoted" then ⟨"Span", .list [.token "Mark" .null, .list [.int 1, t.payload]]⟩
  else if t.tag = "Mark" then ⟨"Str", .list [t.payload]⟩
  else if t.tag = "Space" then ⟨"Str", .str " "⟩
  else t

private def quoted : List Value :=
  [.token "Quoted" (.list [.token "Str" (.str "a"), .token "Space" .null,
    .token "Quoted" (.token "Str" (.token "Space" .null)), .token "Str" (.str "b")])]

private def span (v : Value) : Value :=
  .token "Span" (.list [.token "Str" (.list [.null]), .list [.int 1, v]])

private def unquoted : List Value :=
  [span (.list [.token "Str" (.str "a"), .token "Str" (.str " "),
    span (.token "Str" (.token "Str" (.str " "))), .token "Str" (.str "b")])]

private def quotedCalls : List Token :=
  [⟨"Quoted", .list [.token "Str" (.str "a"), .token "Space" .null,
      .token "Quoted" (.token "Str" (.token "Space" .null)), .token "Str" (.str "b")]⟩,
    ⟨"Mark", .null⟩, ⟨"Str", .str "a"⟩, ⟨"Space", .null⟩,
    ⟨"Quoted", .token "Str" (.token "Space" .null)⟩, ⟨"Mark", .null⟩,
    ⟨"Str", .token "Space" .null⟩, ⟨"Space", .null⟩, ⟨"Str", .str "b"⟩]

private theorem ends_quoted : Ends unquote quoted quotedCalls unquoted :=
  ⟨10, by decide, by decide⟩

theorem collectText_unquoted : Ends unquote quoted quotedCalls unquoted ∧
    (∀ t ∈ quotedCalls, collectText [(unquote t).toValue] = collectText [t.toValue]) ∧
    collectText unquoted = collectText quoted ∧ collectText quoted = "a b" :=
  have hkeeps : ∀ t ∈ quotedCalls,
      collectText [(unquote t).toValue] = collectText [t.toValue] := by decide
  ⟨ends_quoted, hkeeps, collectText_of_ends ends_quoted hkeeps, by decide⟩

end Transform

end Dialect
