import Dialect.Proofs.Json.Written
import Dialect.Proofs.Token.Image
import Dialect.Token.Document

namespace Dialect.Document

theorem wholeNumbers?_map (version : List Int) :
    wholeNumbers? (version.map .int) = some version := by
  induction version with
  | nil => rfl
  | cons i rest ih => simp [wholeNumbers?, ih]

theorem versionOf_map (version : List Int) :
    versionOf (some (.arr (version.map .int))) = .ok version := by
  simp only [versionOf, wholeNumbers?_map]

theorem blocksOf_map (blocks : List Token) : blocksOf (blocks.map Token.toValue) = .ok blocks := by
  induction blocks with
  | nil => rfl
  | cons t rest ih =>
      simp only [List.map_cons, blocksOf, Token.toValue, Value.token?, ih]
      rfl

theorem map_toValue_of_blocksOf (values : List Value) :
    Ensures (fun blocks => blocks.map Token.toValue = values) (blocksOf values) := by
  induction values with
  | nil => exact .ok rfl
  | cons v rest ih =>
      rw [blocksOf]
      cases v with
      | token tag payload => exact ih.map fun blocks h => congrArg (Value.token tag payload :: ·) h
      | _ => exact .error _

section Members

variable {entries members : List (Text × Json)} {items : List Json}

-- The blocks and the metadata of an object. One without metadata counts as one with none in it.
def HasParts (entries : List (Text × Json)) (items : List Json)
    (members : List (Text × Json)) : Prop :=
  Entries.get? blocksKey entries = some (.arr items) ∧
    (Entries.get? metadataKey entries).getD (.obj []) = .obj members

theorem hasParts_of_ofJson (j : Json) : Ensures (fun _ => ∃ entries items members,
    j = .obj entries ∧ HasParts entries items members) (ofJson j) := by
  unfold ofJson
  split
  · rename_i entries
    dsimp only
    split
    · rename_i items hitems
      rw [pure_bind]
      split
      · rename_i hnone
        exact (Ensures.trivially _).imp fun _ _ =>
          ⟨entries, items, [], rfl, hitems, by simp [hnone]⟩
      · rename_i members hsome
        exact (Ensures.trivially _).imp fun _ _ =>
          ⟨entries, items, members, rfl, hitems, by simp [hsome]⟩
      · exact .error _
    · exact .error _
  · exact .error _

theorem ofJson_obj (h : HasParts entries items members) : ofJson (.obj entries) = do
    let apiVersion ← versionOf (Entries.get? versionKey entries)
    let values ← (Value.ofJsonItems items).mapError .tagNotText
    let blocks ← blocksOf values
    let metadata ← (Value.ofJson (.obj members)).mapError .tagNotText
    return { blocks, apiVersion, metadata } := by
  obtain ⟨hitems, hmembers⟩ := h
  cases hmeta : Entries.get? metadataKey entries with
  | none =>
      obtain rfl : members = [] := by simpa [hmeta, eq_comm] using hmembers
      simp only [ofJson, hitems, hmeta, pure_bind]
  | some found =>
      obtain rfl : found = .obj members := by simpa [hmeta] using hmembers
      simp only [ofJson, hitems, hmeta, pure_bind]

-- What the members of an object have to be for it to be read as a document.
structure Writes (entries : List (Text × Json)) (d : Document) : Prop where
  version : versionOf (Entries.get? versionKey entries) = .ok d.apiVersion
  parts : ∃ items members, HasParts entries items members ∧
    Value.ofJsonItems items = .ok (d.blocks.map Token.toValue) ∧
    Value.ofJson (.obj members) = .ok d.metadata

theorem ofJson_eq_ok_iff (j : Json) (d : Document) :
    ofJson j = .ok d ↔ ∃ entries, j = .obj entries ∧ Writes entries d := by
  constructor
  · intro h
    obtain ⟨entries, items, members, rfl, hparts⟩ := hasParts_of_ofJson j d h
    rw [ofJson_obj hparts] at h
    refine ⟨entries, rfl, ?_⟩
    revert h
    refine Ensures.bind (.self _) (fun version hversion => ?_) d
    refine .bind ((Ensures.self _).mapError _) fun values hvalues => ?_
    refine .bind (map_toValue_of_blocksOf values) fun blocks hblocks => ?_
    refine .bind ((Ensures.self _).mapError _) fun metadata hmetadata => ?_
    subst hblocks
    exact .ok ⟨hversion, items, members, hparts, hvalues, hmetadata⟩
  · rintro ⟨entries, rfl, hversion, items, members, hparts, hvalues, hmetadata⟩
    rw [ofJson_obj hparts, hversion, hvalues, hmetadata]
    simp only [Except.mapError, bind, Except.bind, blocksOf_map]
    rfl

end Members

-- Writing a document that was read from an object and reading it again changes nothing.
theorem ofJson_toJson {j : Json} {d : Document} (h : ofJson j = .ok d) :
    ofJson d.toJson = .ok d := by
  rw [ofJson_eq_ok_iff] at h ⊢
  obtain ⟨entries, rfl, -, items, members, -, hvalues, hmetadata⟩ := h
  obtain ⟨hblocks, -⟩ := Value.image_ofJsonItems items _ hvalues
  obtain ⟨huntagged, -⟩ := Value.image_ofJson _ _ hmetadata
  obtain ⟨fields, hfields⟩ := Value.exists_toJson_eq_obj members _ hmetadata
  refine ⟨_, rfl, versionOf_map _, _, fields, ⟨rfl, hfields⟩, ?_, ?_⟩
  · exact Value.ofJsonItems_toJsonItems _ hblocks
  · rw [← hfields]
    exact Value.ofJson_toJson _ huntagged

theorem HasParts.valid {entries members : List (Text × Json)} {items : List Json}
    (h : HasParts entries items members) (hentries : Json.ValidMembers entries) :
    Json.ValidItems items ∧ (Json.obj members).Valid := by
  rw [Json.validMembers_iff] at hentries
  refine ⟨hentries _ (Entries.mem_of_get? h.1), ?_⟩
  cases hmeta : Entries.get? metadataKey entries with
  | none =>
      rw [← h.2, hmeta]
      exact ⟨List.nodup_nil, trivial⟩
  | some found =>
      rw [← h.2, hmeta]
      exact hentries _ (Entries.mem_of_get? hmeta)

theorem nodup_keys : [versionKey, metadataKey, blocksKey].Nodup := by decide

theorem valid_toJson {j : Json} {d : Document} (hj : j.Valid) (h : ofJson j = .ok d) :
    d.toJson.Valid := by
  rw [ofJson_eq_ok_iff] at h
  obtain ⟨entries, rfl, -, items, members, hparts, hvalues, hmetadata⟩ := h
  obtain ⟨hitems, hmembers⟩ := hparts.valid hj.2
  have hversion : Json.ValidItems (d.apiVersion.map .int) := by
    rw [Json.validItems_iff]
    intro a ha
    obtain ⟨i, -, rfl⟩ := List.mem_map.mp ha
    trivial
  refine ⟨by simpa [Entries.keys] using nodup_keys, hversion, ?_, ?_, trivial⟩
  · exact (Value.image_ofJson _ _ hmetadata).2 hmembers
  · exact (Value.image_ofJsonItems items _ hvalues).2 hitems

-- Documents that can be read at all, from text or from bytes.
def Readable (d : Document) : Prop :=
  (∃ text, ofText text = .ok d) ∨ ∃ bytes, ofBytes bytes = .ok d

theorem Readable.exists_valid {d : Document} (h : d.Readable) :
    ∃ j : Json, j.Valid ∧ ofJson j = .ok d := by
  obtain ⟨text, h⟩ | ⟨bytes, h⟩ := h
  · unfold ofText at h
    split at h
    · cases h
    · rename_i j hread
      exact ⟨j, Json.valid_read text j hread, h⟩
  · unfold ofBytes at h
    split at h
    · cases h
    · cases h
    · rename_i j hread
      refine ⟨j, Json.valid_readBytes bytes j hread, ?_⟩
      cases hj : ofJson j <;> simp_all [Except.mapError]

-- Reading undoes writing on every document that can be read, in any layout, and so writing what
-- was read again gives the same text.
theorem ofText_text {d : Document} (h : d.Readable) (indent : Option Nat) :
    ofText (d.text indent) = .ok d ∧
      (ofText (d.text indent)).map (fun again => again.text indent) = .ok (d.text indent) := by
  obtain ⟨j, hvalid, hj⟩ := h.exists_valid
  have hagain : ofText (d.text indent) = .ok d := by
    rw [ofText, text, Json.read_render ⟨valid_toJson hvalid hj, fun h => by cases h⟩]
    exact ofJson_toJson hj
  exact ⟨hagain, by rw [hagain]; rfl⟩

-- Metadata that is a token, a name that comes twice, null payloads, numbers out of range and a
-- surrogate pair.
private def knottedText : String :=
  "\x7b\"meta\": \x7b\"t\": \"Map\", \"x\": 1, \"c\": " ++
  "\x7b\"b\": 0, \"a\": \x7b\"z\": \x7b\x7d, \"y\": -0.0\x7d, \"b\": [1e400]\x7d\x7d,\n" ++
  "\"blocks\": [\x7b\"c\": null, \"t\": \"Null\"\x7d, \x7b\"t\": \"Rule\"\x7d, " ++
  "\x7b\"t\": \"Str\", \"c\": \"\\u00e9\\ud83d\\ude00\\\"\"\x7d, " ++
  "\x7b\"t\": \"Pair\", \"c\": [\x7b\"k\": 0.1\x7d, \x7b\"t\": \"\"\x7d]\x7d]\x7d"

private def knotted : Document where
  blocks := [⟨"Null", .null⟩, ⟨"Rule", .null⟩, ⟨"Str", .str "é😀\""⟩,
    ⟨"Pair", .list [.map [("k", .double (.finite false 7205759403792794 (-56)))], .token "" .null]⟩]
  apiVersion := []
  metadata := .token "Map" (.map [("b", .list [.double (.infinite false)]),
    ("a", .map [("z", .map []), ("y", .double (.finite true 0 (-1074)))])])

private theorem readable_knotted : knotted.Readable :=
  .inl ⟨knottedText, by decide +kernel⟩

theorem ofText_text_knotted : knotted.Readable ∧ ofText (knotted.text (some 2)) = .ok knotted ∧
    (ofText (knotted.text (some 2))).map (fun again => again.text (some 2)) =
      .ok (knotted.text (some 2)) :=
  ⟨readable_knotted, ofText_text readable_knotted (some 2)⟩

end Dialect.Document
