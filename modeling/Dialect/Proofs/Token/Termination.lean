import Dialect.Proofs.Token.Rewriting

namespace Dialect.Transform

open Token

-- How many tokens are reachable in a value, through lists and through payloads.
def tokenCount (v : Value) : Nat :=
  (visit [v]).length

variable {f : Token → Token} {vs ws : List Value} {seen : List Token}

theorem length_visit_cons (v : Value) (vs : List Value) :
    (visit (v :: vs)).length = tokenCount v + (visit vs).length := by
  rw [visit_cons, List.length_append, tokenCount]

theorem tokenCount_token (tag : Text) (payload : Value) :
    tokenCount (.token tag payload) = tokenCount payload + 1 := by
  rw [tokenCount, visit_token, List.length_cons, tokenCount]

theorem tokenCount_list (items : List Value) :
    tokenCount (.list items) = (visit items).length := by
  rw [tokenCount, visit_list]

-- A call uses up one token, and the payload that the pass goes into has no more tokens than the
-- one it replaces. So below a call fewer tokens are left, although its payload may be nested
-- deeper than before; what is not below a call is a smaller part of the same tree.
theorem exists_yields_of_tokenCount_le
    (hf : ∀ t, tokenCount (f t).payload ≤ tokenCount t.payload) (count : Nat) (vs : List Value)
    (hcount : (visit vs).length ≤ count) :
    ∃ seen ws, Yields f vs seen ws ∧ seen.length ≤ (visit vs).length := by
  induction count using Nat.strongRecOn generalizing vs with
  | ind count below =>
    induction vs using roots_induction with
    | nil => exact ⟨[], [], .nil, Nat.le_refl _⟩
    | token tag payload vs _ ihvs =>
        have hpayload : tokenCount (f ⟨tag, payload⟩).payload ≤ tokenCount payload :=
          hf ⟨tag, payload⟩
        rw [length_visit_cons, tokenCount_token] at hcount ⊢
        obtain ⟨inner, _, hinner, hcalls⟩ := below _ (by omega) [(f ⟨tag, payload⟩).payload]
          (Nat.le_refl (tokenCount (f ⟨tag, payload⟩).payload))
        change inner.length ≤ tokenCount (f ⟨tag, payload⟩).payload at hcalls
        obtain ⟨payload', rfl⟩ := hinner.exists_eq_singleton
        obtain ⟨outer, ws, houter, hrest⟩ := ihvs (by omega)
        refine ⟨_, _, .token hinner houter, ?_⟩
        rw [List.length_cons, List.length_append]
        omega
    | list items vs ihitems ihvs =>
        rw [length_visit_cons, tokenCount_list] at hcount ⊢
        obtain ⟨inner, items', hinner, hcalls⟩ := ihitems (by omega)
        obtain ⟨outer, ws, houter, hrest⟩ := ihvs (by omega)
        refine ⟨_, _, .list hinner houter, ?_⟩
        rw [List.length_append]
        omega
    | leaf v vs hleaf ihvs =>
        rw [visit_cons, visit_of_isOpaque hleaf, List.nil_append] at hcount ⊢
        obtain ⟨seen, ws, hvs, hcalls⟩ := ihvs hcount
        exact ⟨seen, _, .leaf hleaf hvs, hcalls⟩

-- A transformation comes to an end, on every tree and in one way only, if the change never puts
-- more tokens into a payload than there were. It then hands over at most as many tokens as a
-- walk over the tree would meet.
theorem ends_of_tokenCount_le (hf : ∀ t, tokenCount (f t).payload ≤ tokenCount t.payload)
    (vs : List Value) :
    ∃ seen ws, (∀ seen' ws', Ends f vs seen' ws' ↔ seen' = seen ∧ ws' = ws) ∧
      seen.length ≤ (visit vs).length := by
  obtain ⟨seen, ws, hyields, hcalls⟩ := exists_yields_of_tokenCount_le hf _ vs (Nat.le_refl _)
  exact ⟨seen, ws, fun _ _ => hyields.ends_eq_iff, hcalls⟩

-- A list that starts with a token is hung below that token, behind what the token held, and a
-- note that holds none is emptied.
private def hang (t : Token) : Token :=
  match t.payload with
  | .list (.token tag payload :: rest) => ⟨t.tag, .token tag (.list (payload :: rest))⟩
  | payload => if t.tag = "Note" then ⟨"Str", .str "*"⟩ else ⟨t.tag, payload⟩

private theorem tokenCount_hang (t : Token) :
    tokenCount (hang t).payload ≤ tokenCount t.payload := by
  unfold hang
  split
  · rename_i tag payload rest hpayload
    rw [hpayload]
    simp only [tokenCount_token, tokenCount_list, length_visit_cons]
    omega
  · split
    · exact Nat.zero_le _
    · exact Nat.le_refl _

private def note : Value := .token "Note" (.list [.int 1, .token "Str" (.str "n")])

private def loose : List Value :=
  [.token "Para" (.list [.token "Emph" (.token "Str" (.str "a")), .token "Space" .null, note])]

private def looseCalls : List Token :=
  [⟨"Para", .list [.token "Emph" (.token "Str" (.str "a")), .token "Space" .null, note]⟩,
    ⟨"Emph", .list [.token "Str" (.str "a"), .token "Space" .null, note]⟩,
    ⟨"Str", .list [.str "a", .token "Space" .null, note]⟩, ⟨"Space", .null⟩,
    ⟨"Note", .list [.int 1, .token "Str" (.str "n")]⟩]

private def hung : List Value :=
  [.token "Para" (.token "Emph" (.token "Str" (.list [.str "a", .token "Space" .null,
    .token "Str" (.str "*")])))]

private theorem ends_loose : Ends hang loose looseCalls hung :=
  ⟨9, by decide, by decide⟩

theorem ends_of_tokenCount_le_loose :
    (∀ t, tokenCount (hang t).payload ≤ tokenCount t.payload) ∧
      Ends hang loose looseCalls hung ∧ looseCalls.length ≤ (visit loose).length := by
  obtain ⟨seen, ws, hends, hcalls⟩ := ends_of_tokenCount_le tokenCount_hang loose
  obtain ⟨rfl, rfl⟩ := (hends _ _).mp ends_loose
  exact ⟨tokenCount_hang, ends_loose, hcalls⟩

-- A change that always leaves a token in the payload comes to an end on trees without tokens only.
theorem Yields.visit_eq_nil (hf : ∀ t, visit [(f t).payload] ≠ []) (h : Yields f vs seen ws) :
    visit vs = [] := by
  induction h with
  | nil => rfl
  | @token tag payload _ _ _ _ _ _ _ ihpayload _ => exact absurd ihpayload (hf ⟨tag, payload⟩)
  | list _ _ ihitems ihvs => rw [visit_cons, visit_list, ihitems, ihvs, List.nil_append]
  | leaf hleaf _ ihvs => rw [visit_cons, visit_of_isOpaque hleaf, ihvs, List.nil_append]

end Dialect.Transform
