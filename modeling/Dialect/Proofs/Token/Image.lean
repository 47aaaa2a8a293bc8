import Dialect.Proofs.Json.Valid
import Dialect.Token.FromJson

namespace Dialect.Value

mutual

-- No map has a member t, at any depth: written as JSON it would be taken for a token.
def Untagged : Value → Prop
  | list items => UntaggedItems items
  | map entries => tagKey ∉ Entries.keys entries ∧ UntaggedEntries entries
  | token _ payload => payload.Untagged
  | _ => True

def UntaggedItems : List Value → Prop
  | [] => True
  | v :: rest => v.Untagged ∧ UntaggedItems rest

def UntaggedEntries : List (Text × Value) → Prop
  | [] => True
  | (_, v) :: rest => v.Untagged ∧ UntaggedEntries rest

end

@[simp] theorem tagKey_ne_payloadKey : tagKey ≠ payloadKey := by decide

@[simp] theorem payloadKey_ne_tagKey : payloadKey ≠ tagKey := by decide

theorem toJson_token (tag : Text) {payload : Value} (h : payload ≠ null) :
    toJson (token tag payload) = .obj [(tagKey, .str tag), (payloadKey, payload.toJson)] := by
  cases payload <;> simp_all [toJson]

theorem keys_toJsonEntries (entries : List (Text × Value)) :
    Entries.keys (toJsonEntries entries) = Entries.keys entries := by
  induction entries with
  | nil => rfl
  | cons p rest ih => simpa [toJsonEntries, Entries.keys] using ih

theorem ofJson_tagged {entries : List (Text × Json)} {tag : Text}
    (h : Entries.get? tagKey entries = some (.str tag)) :
    ofJson (.obj entries) = (payloadOf entries).map (token tag) := by
  simp only [ofJson, h]

theorem ofJson_map {entries : List (Text × Json)} (h : tagKey ∉ Entries.keys entries) :
    ofJson (.obj entries) = (ofJsonEntries entries).map map := by
  simp only [ofJson, (Entries.get?_eq_none_iff tagKey entries).mpr h]

section Inversion

variable {items : List Json} {entries : List (Text × Json)} {v : Value}

theorem exists_of_ofJson_arr (h : ofJson (.arr items) = .ok v) :
    ∃ vs, v = list vs ∧ ofJsonItems items = .ok vs := by
  obtain ⟨vs, hvs, rfl⟩ := exists_of_map_eq_ok h
  exact ⟨vs, rfl, hvs⟩

theorem exists_of_ofJson_untagged (huntagged : tagKey ∉ Entries.keys entries)
    (h : ofJson (.obj entries) = .ok v) : ∃ es, v = map es ∧ ofJsonEntries entries = .ok es := by
  rw [ofJson_map huntagged] at h
  obtain ⟨es, hes, rfl⟩ := exists_of_map_eq_ok h
  exact ⟨es, rfl, hes⟩

theorem exists_of_ofJson_tagged (htagged : tagKey ∈ Entries.keys entries)
    (h : ofJson (.obj entries) = .ok v) : ∃ tag payload, v = token tag payload ∧
      Entries.get? tagKey entries = some (.str tag) ∧ payloadOf entries = .ok payload := by
  obtain ⟨found, hfound⟩ := Option.isSome_iff_exists.mp ((Entries.mem_keys_iff tagKey _).mp htagged)
  cases found with
  | str tag =>
      rw [ofJson_tagged hfound] at h
      obtain ⟨payload, hpayload, rfl⟩ := exists_of_map_eq_ok h
      exact ⟨tag, payload, rfl, hfound, hpayload⟩
  | _ => simp [ofJson, hfound] at h

theorem exists_of_ofJsonItems_cons {a : Json} {vs : List Value}
    (h : ofJsonItems (a :: items) = .ok vs) :
    ∃ v ws, vs = v :: ws ∧ ofJson a = .ok v ∧ ofJsonItems items = .ok ws := by
  rw [ofJsonItems] at h
  split at h
  · cases h
  · rename_i v hv
    obtain ⟨ws, hws, rfl⟩ := exists_of_map_eq_ok h
    exact ⟨v, ws, rfl, hv, hws⟩

theorem exists_of_ofJsonEntries_cons {p : Text × Json} {es : List (Text × Value)}
    (h : ofJsonEntries (p :: entries) = .ok es) :
    ∃ v ws, es = (p.1, v) :: ws ∧ ofJson p.2 = .ok v ∧ ofJsonEntries entries = .ok ws := by
  rw [ofJsonEntries] at h
  split at h
  · cases h
  · rename_i v hv
    obtain ⟨ws, hws, rfl⟩ := exists_of_map_eq_ok h
    exact ⟨v, ws, rfl, hv, hws⟩

end Inversion

mutual

-- A tree without tagged maps comes back from its JSON.
theorem ofJson_toJson : (v : Value) → v.Untagged → ofJson v.toJson = .ok v
  | null, _ => rfl
  | bool _, _ => rfl
  | int _, _ => rfl
  | double _, _ => rfl
  | str _, _ => rfl
  | list items, h => by
    rw [toJson, ofJson, ofJsonItems_toJsonItems items h]
    rfl
  | map entries, h => by
    have hkeys : tagKey ∉ Entries.keys (toJsonEntries entries) := by
      rw [keys_toJsonEntries]
      exact h.1
    rw [toJson, ofJson_map hkeys, ofJsonEntries_toJsonEntries entries h.2]
    rfl
  | token tag payload, h => by
    by_cases hnull : payload = null
    · subst hnull
      rfl
    · rw [toJson_token tag hnull, ofJson_tagged rfl]
      simp only [payloadOf, tagKey_ne_payloadKey, if_false, if_true, ofJson_toJson payload h]
      rfl

theorem ofJsonItems_toJsonItems : (items : List Value) → UntaggedItems items →
    ofJsonItems (toJsonItems items) = .ok items
  | [], _ => rfl
  | v :: rest, h => by
    simp only [toJsonItems, ofJsonItems, ofJson_toJson v h.1, ofJsonItems_toJsonItems rest h.2]
    rfl

theorem ofJsonEntries_toJsonEntries : (entries : List (Text × Value)) →
    UntaggedEntries entries → ofJsonEntries (toJsonEntries entries) = .ok entries
  | [], _ => rfl
  | (k, v) :: rest, h => by
    simp only [toJsonEntries, ofJsonEntries, ofJson_toJson v h.1,
      ofJsonEntries_toJsonEntries rest h.2]
    rfl

end

theorem valid_toJson_token (tag : Text) {payload : Value} (h : payload.toJson.Valid) :
    (token tag payload).toJson.Valid := by
  by_cases hnull : payload = null
  · subst hnull
    exact ⟨List.nodup_singleton _, trivial, trivial⟩
  · rw [toJson_token tag hnull]
    exact ⟨by simp [Entries.keys], trivial, h, trivial⟩

mutual

-- What trees are read: maps keep their names and have no member t, so that writing a tree read
-- from a valid value gives a valid one.
theorem image_ofJson : (j : Json) →
    Ensures (fun v => v.Untagged ∧ (j.Valid → v.toJson.Valid)) (ofJson j)
  | .null => .ok ⟨trivial, id⟩
  | .bool _ => .ok ⟨trivial, id⟩
  | .int _ => .ok ⟨trivial, id⟩
  | .double _ => .ok ⟨trivial, id⟩
  | .str _ => .ok ⟨trivial, id⟩
  | .arr items => (image_ofJsonItems items).map fun _ h => h
  | .obj entries => by
    rw [ofJson]
    split
    · rename_i hnone
      refine (image_ofJsonEntries entries).map fun es ⟨hkeys, huntagged, hvalid⟩ =>
        ⟨⟨?_, huntagged⟩, ?_⟩
      · rw [hkeys]
        exact (Entries.get?_eq_none_iff tagKey entries).mp hnone
      · rintro ⟨hnodup, hmembers⟩
        refine ⟨?_, hvalid hmembers⟩
        rwa [keys_toJsonEntries, hkeys]
    · exact (image_payloadOf entries).map fun v ⟨huntagged, hvalid⟩ =>
        ⟨huntagged, fun h => valid_toJson_token _ (hvalid h.2)⟩
    · exact .error _

theorem image_ofJsonItems : (items : List Json) → Ensures (fun vs => UntaggedItems vs ∧
    (Json.ValidItems items → Json.ValidItems (toJsonItems vs))) (ofJsonItems items)
  | [] => .ok ⟨trivial, id⟩
  | a :: rest => by
    rw [ofJsonItems]
    split
    · exact .error _
    · rename_i v hv
      obtain ⟨huntagged, hvalid⟩ := image_ofJson a v hv
      exact (image_ofJsonItems rest).map fun vs h =>
        ⟨⟨huntagged, h.1⟩, fun ha => ⟨hvalid ha.1, h.2 ha.2⟩⟩

theorem image_ofJsonEntries : (entries : List (Text × Json)) →
    Ensures (fun es => Entries.keys es = Entries.keys entries ∧ UntaggedEntries es ∧
      (Json.ValidMembers entries → Json.ValidMembers (toJsonEntries es))) (ofJsonEntries entries)
  | [] => .ok ⟨rfl, trivial, id⟩
  | (k, a) :: rest => by
    rw [ofJsonEntries]
    split
    · exact .error _
    · rename_i v hv
      obtain ⟨huntagged, hvalid⟩ := image_ofJson a v hv
      exact (image_ofJsonEntries rest).map fun es h =>
        ⟨congrArg (k :: ·) h.1, ⟨huntagged, h.2.1⟩, fun ha => ⟨hvalid ha.1, h.2.2 ha.2⟩⟩

theorem image_payloadOf : (entries : List (Text × Json)) → Ensures (fun v => v.Untagged ∧
    (Json.ValidMembers entries → v.toJson.Valid)) (payloadOf entries)
  | [] => .ok ⟨trivial, id⟩
  | (k, a) :: rest => by
    rw [payloadOf]
    split
    · exact (image_ofJson a).imp fun v ⟨huntagged, hvalid⟩ => ⟨huntagged, fun h => hvalid h.1⟩
    · exact (image_payloadOf rest).imp fun v ⟨huntagged, hvalid⟩ =>
        ⟨huntagged, fun h => hvalid h.2⟩

end

-- What an object is read as is written as an object.
theorem exists_toJson_eq_obj (members : List (Text × Json)) :
    Ensures (fun v => ∃ fields, v.toJson = .obj fields) (ofJson (.obj members)) := by
  rw [ofJson]
  split
  · exact (Ensures.trivially _).map fun es _ => ⟨toJsonEntries es, rfl⟩
  · refine (Ensures.trivially _).map fun payload _ => ?_
    by_cases hnull : payload = null
    · subst hnull
      exact ⟨_, rfl⟩
    · exact ⟨_, toJson_token _ hnull⟩
  · exact .error _

end Dialect.Value
