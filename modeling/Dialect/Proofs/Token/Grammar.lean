import Dialect.Proofs.Token.Document
import Dialect.Proofs.Token.Reach

namespace Dialect

namespace Json

open Value (tagKey payloadKey)

-- Every object with a member t that is reached has a text there.
def TextTags (j : Json) : Prop :=
  ∀ entries tag, Reaches j (.obj entries) → Entries.get? tagKey entries = some tag →
    ∃ text, tag = .str text

theorem textTags_iff (j : Json) : j.TextTags ↔ firstNoText j.tags = none := by
  rw [firstNoText_eq_none_iff]
  constructor
  · intro h tag hmem
    obtain ⟨entries, hreach, htag⟩ := mem_tags_iff.mp hmem
    exact h entries tag hreach htag
  · intro h entries tag hreach htag
    exact h tag (mem_tags_iff.mpr ⟨entries, hreach, htag⟩)

end Json

namespace Value

theorem exists_ofJson_iff (j : Json) : (∃ v, ofJson j = .ok v) ↔ j.TextTags := by
  rw [Json.textTags_iff, ← refusal_ofJson, refusal_eq_none_iff]

theorem exists_ofJsonItems_iff (items : List Json) :
    (∃ vs, ofJsonItems items = .ok vs) ↔ (Json.arr items).TextTags := by
  rw [← exists_ofJson_iff, ← refusal_eq_none_iff, ← refusal_eq_none_iff, ofJson, refusal_map]

-- Only what is written with a tag is read as a token.
theorem isToken_ofJson_iff {j : Json} {v : Value} (h : ofJson j = .ok v) :
    (∃ t : Token, v = t.toValue) ↔ ∃ fields, j = .obj fields ∧ tagKey ∈ Entries.keys fields := by
  cases j with
  | arr items =>
      obtain ⟨vs, rfl, -⟩ := exists_of_ofJson_arr h
      simp [Token.toValue]
  | obj entries =>
      by_cases htagged : tagKey ∈ Entries.keys entries
      · obtain ⟨tag, payload, rfl, -⟩ := exists_of_ofJson_tagged htagged h
        exact iff_of_true ⟨⟨tag, payload⟩, rfl⟩ ⟨entries, rfl, htagged⟩
      · obtain ⟨es, rfl, -⟩ := exists_of_ofJson_untagged htagged h
        simp [Token.toValue, htagged]
  | _ => cases h; simp [Token.toValue]

theorem areTokens_ofJsonItems_iff {items : List Json} {vs : List Value}
    (h : ofJsonItems items = .ok vs) : (∃ blocks : List Token, vs = blocks.map Token.toValue) ↔
      ∀ a ∈ items, ∃ fields, a = .obj fields ∧ tagKey ∈ Entries.keys fields := by
  induction items generalizing vs with
  | nil => cases h; exact ⟨by simp, fun _ => ⟨[], rfl⟩⟩
  | cons a rest ih =>
      obtain ⟨v, ws, rfl, ha, hrest⟩ := exists_of_ofJsonItems_cons h
      rw [List.forall_mem_cons, ← isToken_ofJson_iff ha, ← ih hrest]
      constructor
      · rintro ⟨blocks, hblocks⟩
        obtain ⟨t, rest, rfl, ht, hrest⟩ := List.map_eq_cons_iff.mp hblocks.symm
        exact ⟨⟨t, ht.symm⟩, ⟨rest, hrest.symm⟩⟩
      · rintro ⟨⟨t, rfl⟩, ⟨blocks, rfl⟩⟩
        exact ⟨t :: blocks, rfl⟩

end Value

namespace Document

open Value (tagKey)

open Json (firstNoText firstNoText_append TextTags)

theorem wholeNumbers?_eq_some_iff {items : List Json} {version : List Int} :
    wholeNumbers? items = some version ↔ items = version.map .int := by
  constructor
  · intro h
    induction items generalizing version with
    | nil => simpa [wholeNumbers?, eq_comm] using h
    | cons a rest ih =>
        cases a with
        | int i =>
            obtain ⟨numbers, hnumbers, rfl⟩ := Option.map_eq_some_iff.mp h
            rw [ih hnumbers]
            rfl
        | _ => simp [wholeNumbers?] at h
  · rintro rfl
    exact wholeNumbers?_map version

theorem exists_versionOf_iff (found? : Option Json) : (∃ version, versionOf found? = .ok version) ↔
    ∀ found, found? = some found → ∃ numbers : List Int, found = .arr (numbers.map .int) := by
  constructor
  · rintro ⟨version, h⟩ found rfl
    cases found with
    | arr items =>
        cases hnumbers : wholeNumbers? items with
        | none => simp [versionOf, hnumbers] at h
        | some numbers => exact ⟨numbers, by rw [wholeNumbers?_eq_some_iff.mp hnumbers]⟩
    | _ => simp [versionOf] at h
  · intro h
    cases found? with
    | none => exact ⟨[], rfl⟩
    | some found =>
        obtain ⟨numbers, rfl⟩ := h found rfl
        exact ⟨numbers, versionOf_map numbers⟩

-- An object that looks like a document from the outside: its blocks are a list of objects with
-- a tag, its metadata is an object if there is any, and its version a list of whole numbers if it
-- has one.
structure Framed (entries : List (Text × Json)) (items : List Json)
    (members : List (Text × Json)) : Prop where
  blocks : Entries.get? blocksKey entries = some (.arr items)
  elements : ∀ a ∈ items, ∃ fields, a = .obj fields ∧ tagKey ∈ Entries.keys fields
  metadata : Entries.get? metadataKey entries = some (.obj members) ∨
    Entries.get? metadataKey entries = none ∧ members = []
  version : ∀ found, Entries.get? versionKey entries = some found →
    ∃ numbers : List Int, found = .arr (numbers.map .int)

-- The grammar of documents: such an object, where every tag below the blocks and in the metadata
-- is a text.
def IsDocument (j : Json) : Prop :=
  ∃ entries items members, j = .obj entries ∧ Framed entries items members ∧
    TextTags (.arr items) ∧ TextTags (.obj members)

variable {entries members : List (Text × Json)} {items : List Json}

theorem Framed.hasParts (h : Framed entries items members) : HasParts entries items members := by
  refine ⟨h.blocks, ?_⟩
  obtain hsome | ⟨hnone, rfl⟩ := h.metadata
  · simp [hsome]
  · simp [hnone]

theorem HasParts.metadata (h : HasParts entries items members) :
    Entries.get? metadataKey entries = some (.obj members) ∨
      Entries.get? metadataKey entries = none ∧ members = [] := by
  obtain ⟨-, hmeta⟩ := h
  cases hfound : Entries.get? metadataKey entries with
  | none => exact .inr ⟨rfl, by simpa [hfound, eq_comm] using hmeta⟩
  | some found => exact .inl (by simpa [hfound] using hmeta)

theorem isDocument_of_ofJson {j : Json} {d : Document} (h : ofJson j = .ok d) : IsDocument j := by
  obtain ⟨entries, rfl, hversion, items, members, hparts, hvalues, hmetadata⟩ :=
    (ofJson_eq_ok_iff j d).mp h
  refine ⟨entries, items, members, rfl, ?_, ?_, ?_⟩
  · exact {
      blocks := hparts.1
      elements := (Value.areTokens_ofJsonItems_iff hvalues).mp ⟨d.blocks, rfl⟩
      metadata := hparts.metadata
      version := (exists_versionOf_iff _).mp ⟨_, hversion⟩ }
  · exact (Value.exists_ofJsonItems_iff items).mp ⟨_, hvalues⟩
  · exact (Value.exists_ofJson_iff _).mp ⟨_, hmetadata⟩

-- All that can go wrong with an object that looks like a document is a tag that is no text.
theorem Framed.ofJson_eq (h : Framed entries items members) :
    (∃ d, ofJson (.obj entries) = .ok d ∧
      firstNoText ((Json.arr items).tags ++ (Json.obj members).tags) = none) ∨
    ∃ tag, ofJson (.obj entries) = .error (.tagNotText tag) ∧
      firstNoText ((Json.arr items).tags ++ (Json.obj members).tags) = some tag := by
  obtain ⟨version, hversion⟩ := (exists_versionOf_iff _).mpr h.version
  rw [ofJson_obj h.hasParts, hversion, firstNoText_append, ← Value.refusal_ofJson,
    ← Value.refusal_ofJson (.obj members), Value.ofJson, Value.refusal_map]
  cases hvalues : Value.ofJsonItems items with
  | error tag => exact .inr ⟨tag, rfl, rfl⟩
  | ok values =>
      obtain ⟨blocks, rfl⟩ := (Value.areTokens_ofJsonItems_iff hvalues).mpr h.elements
      simp only [Except.mapError, bind, Except.bind, blocksOf_map]
      cases Value.ofJson (.obj members) with
      | error tag => exact .inr ⟨tag, rfl, rfl⟩
      | ok metadata => exact .inl ⟨_, rfl, rfl⟩

theorem exists_ofJson_iff (j : Json) : (∃ d, ofJson j = .ok d) ↔ IsDocument j := by
  refine ⟨fun ⟨d, hd⟩ => isDocument_of_ofJson hd, ?_⟩
  rintro ⟨entries, items, members, rfl, hframed, hblocks, hmetadata⟩
  rw [Json.textTags_iff] at hblocks hmetadata
  obtain ⟨d, hd, -⟩ | ⟨tag, -, htag⟩ := hframed.ofJson_eq
  · exact ⟨d, hd⟩
  · simp [firstNoText_append, hblocks, hmetadata] at htag

theorem exists_ofJson_eq_error_iff (j : Json) :
    (∃ cause, ofJson j = .error cause) ↔ ¬IsDocument j := by
  rw [← exists_ofJson_iff]
  cases ofJson j <;> simp

-- A value is read as a document exactly if it has the form of one, and refused otherwise. If it
-- is only a tag somewhere that is wrong, the error shows the first one in the order of the
-- document, blocks before metadata.
theorem ofJson_grammar (j : Json) :
    ((∃ d, ofJson j = .ok d) ↔ IsDocument j) ∧
    ((∃ cause, ofJson j = .error cause) ↔ ¬IsDocument j) ∧
    ∀ entries items members tag, j = .obj entries → Framed entries items members →
      firstNoText ((Json.arr items).tags ++ (Json.obj members).tags) = some tag →
      ofJson j = .error (.tagNotText tag) ∧ (Malformed.tagNotText tag).culprit = tag := by
  refine ⟨exists_ofJson_iff j, exists_ofJson_eq_error_iff j, ?_⟩
  rintro entries items members tag rfl hframed hfirst
  obtain ⟨d, -, hnone⟩ | ⟨found, hfound, hsome⟩ := hframed.ofJson_eq
  · rw [hnone] at hfirst
    cases hfirst
  · rw [hsome] at hfirst
    cases hfirst
    exact ⟨hfound, rfl⟩

-- The number 1 is not reached, the null stands in front of the object below it, and false is in
-- the metadata.
private def mistaggedBlocks : List Json :=
  [.obj [("x", .obj [("t", .int 1)]), ("t", .str "Para"),
    ("c", .arr [.obj [("k", .obj [("c", .obj [("t", .arr [])]), ("t", .null)])]])]]

private def mistaggedMembers : List (Text × Json) := [("a", .obj [("t", .bool false)])]

private def mistagged : List (Text × Json) :=
  [("meta", .obj mistaggedMembers), ("blocks", .arr mistaggedBlocks), (versionKey, .arr [.int 1])]

theorem ofJson_grammar_mistagged : Framed mistagged mistaggedBlocks mistaggedMembers ∧
    firstNoText ((Json.arr mistaggedBlocks).tags ++ (Json.obj mistaggedMembers).tags) =
      some .null ∧
    ofJson (.obj mistagged) = .error (.tagNotText .null) := by
  have hframed : Framed mistagged mistaggedBlocks mistaggedMembers :=
    { blocks := rfl
      elements := by simp [mistaggedBlocks, tagKey, Entries.keys]
      metadata := .inl rfl
      version := by
        rintro found ⟨⟩
        exact ⟨[1], rfl⟩ }
  have hfirst : firstNoText ((Json.arr mistaggedBlocks).tags ++
      (Json.obj mistaggedMembers).tags) = some .null := by decide
  exact ⟨hframed, hfirst, ((ofJson_grammar _).2.2 _ _ _ _ rfl hframed hfirst).1⟩

end Document

end Dialect
