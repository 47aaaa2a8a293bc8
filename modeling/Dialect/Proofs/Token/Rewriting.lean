import Dialect.Proofs.Token.Yields
import Dialect.Token.Visit

namespace Dialect.Transform

open Token

theorem visit_cons (v : Value) (vs : List Value) : visit (v :: vs) = visit [v] ++ visit vs := by
  simp [visit, Value.itemTokens]

theorem visit_token (tag : Text) (payload : Value) :
    visit [.token tag payload] = ⟨tag, payload⟩ :: visit [payload] := by
  simp [visit, Value.itemTokens, Value.tokens]

theorem visit_list (items : List Value) : visit [.list items] = visit items := by
  simp [visit, Value.itemTokens, Value.tokens]

-- What a transformation does not go into, a walk does not go into either.
theorem visit_of_isOpaque {v : Value} (h : isOpaque v) : visit [v] = [] := by
  cases v <;> first | rfl | simp [isOpaque] at h

variable {f : Token → Token} {vs ws : List Value} {seen : List Token}

-- The walk over the result meets one token for each call, in the order of the calls, and it
-- has the tag that the change gave.
theorem Yields.map_tag_visit (h : Yields f vs seen ws) :
    (visit ws).map tag = seen.map fun t => (f t).tag := by
  induction h with
  | nil => rfl
  | token _ _ ihpayload ihvs =>
      rw [visit_cons, visit_token]
      simp only [List.cons_append, List.map_cons, List.map_append, ihpayload, ihvs]
  | list _ _ ihitems ihvs =>
      rw [visit_cons, visit_list]
      simp only [List.map_append, ihitems, ihvs]
  | leaf hleaf _ ihvs =>
      rw [visit_cons, visit_of_isOpaque hleaf, List.nil_append, ihvs]

-- A change that leaves every token of a tree alone leaves the tree alone.
theorem Yields.eq_of_fixed (h : Yields f vs seen ws) (hfix : ∀ t ∈ visit vs, f t = t) :
    ws = vs := by
  induction h with
  | nil => rfl
  | @token tag payload payload' _ _ vs ws _ _ ihpayload ihvs =>
      rw [visit_cons, visit_token] at hfix
      have hhead : f ⟨tag, payload⟩ = ⟨tag, payload⟩ := hfix _ (by simp)
      -- the payload that the pass goes into is the old one
      rw [hhead] at ihpayload
      have hpayload : payload' = payload :=
        (List.cons.inj (ihpayload fun t ht => hfix t (by simp [ht]))).1
      rw [hhead, hpayload, ihvs fun t ht => hfix t (by simp [ht])]
  | list _ _ ihitems ihvs =>
      rw [visit_cons, visit_list] at hfix
      rw [ihitems fun t ht => hfix t (by simp [ht]), ihvs fun t ht => hfix t (by simp [ht])]
  | leaf _ _ ihvs =>
      rw [visit_cons] at hfix
      rw [ihvs fun t ht => hfix t (by simp [ht])]

-- Where the change keeps every payload, the pass comes to an end, and it hands over the tokens
-- in the order of the walk.
theorem exists_yields_of_keeps (hkeeps : ∀ t ∈ visit vs, (f t).payload = t.payload) :
    ∃ ws, Yields f vs (visit vs) ws := by
  induction vs using roots_induction with
  | nil => exact ⟨[], .nil⟩
  | token tag payload vs ihpayload ihvs =>
      rw [visit_cons, visit_token] at hkeeps ⊢
      obtain ⟨_, hpayload⟩ := ihpayload fun t ht => hkeeps t (by simp [ht])
      obtain ⟨ws, hvs⟩ := ihvs fun t ht => hkeeps t (by simp [ht])
      have hhead : (f ⟨tag, payload⟩).payload = payload := hkeeps _ (by simp)
      obtain ⟨payload', rfl⟩ := hpayload.exists_eq_singleton
      exact ⟨_, .token (by rwa [hhead]) hvs⟩
  | list items vs ihitems ihvs =>
      rw [visit_cons, visit_list] at hkeeps ⊢
      obtain ⟨items', hitems⟩ := ihitems fun t ht => hkeeps t (by simp [ht])
      obtain ⟨ws, hvs⟩ := ihvs fun t ht => hkeeps t (by simp [ht])
      exact ⟨_, .list hitems hvs⟩
  | leaf v vs hleaf ihvs =>
      rw [visit_cons, visit_of_isOpaque hleaf, List.nil_append] at hkeeps ⊢
      obtain ⟨ws, hvs⟩ := ihvs hkeeps
      exact ⟨_, .leaf hleaf hvs⟩

-- Rewriting and visiting agree: a walk over the result of a transformation meets as many
-- tokens as were handed to the change, with the tags that the change gave them, one after the
-- other; and nothing changes where the change returns every token of the tree as it is.
theorem visit_of_ends (h : Ends f vs seen ws) :
    (visit ws).map tag = seen.map (fun t => (f t).tag) ∧
      ((∀ t ∈ visit vs, f t = t) → ws = vs) :=
  ⟨(ends_iff.mp h).map_tag_visit, (ends_iff.mp h).eq_of_fixed⟩

-- A note becomes a span around what it held and a mark, and marks become text. The mark is
-- handed to the change only because the span was put in; the note in a map never is.
private def markNotes (t : Token) : Token :=
  if t.tag = "Note" then ⟨"Span", .list [t.payload, .token "Mark" .null]⟩
  else if t.tag = "Mark" then ⟨"Str", .str "*"⟩
  else t

private def paragraph (item : Value) : List Value :=
  [.token "Para" (.list [item, .list [.int 1], .map [("k", .token "Note" .null)]])]

private def noted : List Value := paragraph (.token "Note" (.token "Str" (.str "a")))

private def marked : List Value :=
  paragraph (.token "Span" (.list [.token "Str" (.str "a"), .token "Str" (.str "*")]))

private def plain : List Value := paragraph (.token "Str" (.str "a"))

private def notedCalls : List Token :=
  visit noted ++ [⟨"Mark", .null⟩]

private theorem ends_noted : Ends markNotes noted notedCalls marked :=
  ⟨6, by decide, by decide⟩

theorem visit_of_ends_noted :
    Ends markNotes noted notedCalls marked ∧
      (visit marked).map tag = notedCalls.map (fun t => (markNotes t).tag) ∧
      ∀ seen ws, Ends markNotes plain seen ws → ws = plain :=
  ⟨ends_noted, (visit_of_ends ends_noted).1, fun _ _ h => (visit_of_ends h).2 (by decide)⟩

end Dialect.Transform
