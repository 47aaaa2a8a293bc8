import Dialect.Proofs.Token.Document
import Dialect.Proofs.Token.Reach

namespace Dialect

namespace Json

open Value (tagKey payloadKey)

-- An object that has a tag and a payload, in either order, and nothing else.
inductive Tagged (tag : Text) (payload : Json) : Json → Prop
  | tagFirst : Tagged tag payload (.obj [(tagKey, .str tag), (payloadKey, payload)])
  | payloadFirst : Tagged tag payload (.obj [(payloadKey, payload), (tagKey, .str tag)])

-- What the payload of a block may be: elements with and without a payload, in lists and in
-- records, which have no member t.
inductive Content : Json → Prop
  | null : Content .null
  | bool (b : Bool) : Content (.bool b)
  | int (i : Int) : Content (.int i)
  | double (d : Double) : Content (.double d)
  | str (text : Text) : Content (.str text)
  | arr {items : List Json} (h : ∀ a ∈ items, Content a) : Content (.arr items)
  | record {entries : List (Text × Json)} (names : (Entries.keys entries).Nodup)
      (untagged : tagKey ∉ Entries.keys entries) (h : ∀ p ∈ entries, Content p.2) :
      Content (.obj entries)
  | bare (tag : Text) : Content (.obj [(tagKey, .str tag)])
  | tagged {tag : Text} {payload j : Json} (h : Tagged tag payload j) (present : payload ≠ .null)
      (content : Content payload) : Content j

-- A block or an inline: content with a tag.
def Element (j : Json) : Prop :=
  Content j ∧ ∃ tag, j.member? tagKey = some (.str tag)

-- A metadata value whose maps have names that are allowed only.
inductive MetaValue (allowed : Text → Prop) : Json → Prop
  | string {text : Text} {j : Json} (h : Tagged "MetaString" (.str text) j) : MetaValue allowed j
  | bool {b : Bool} {j : Json} (h : Tagged "MetaBool" (.bool b) j) : MetaValue allowed j
  | inlines {items : List Json} {j : Json} (h : Tagged "MetaInlines" (.arr items) j)
      (elements : ∀ a ∈ items, Element a) : MetaValue allowed j
  | blocks {items : List Json} {j : Json} (h : Tagged "MetaBlocks" (.arr items) j)
      (elements : ∀ a ∈ items, Element a) : MetaValue allowed j
  | list {items : List Json} {j : Json} (h : Tagged "MetaList" (.arr items) j)
      (values : ∀ a ∈ items, MetaValue allowed a) : MetaValue allowed j
  | map {members : List (Text × Json)} {j : Json} (h : Tagged "MetaMap" (.obj members) j)
      (names : (Entries.keys members).Nodup) (names_allowed : ∀ p ∈ members, allowed p.1)
      (values : ∀ p ∈ members, MetaValue allowed p.2) : MetaValue allowed j

-- The members of a map of metadata.
def MetaMembers (allowed : Text → Prop) (members : List (Text × Json)) : Prop :=
  ∀ p ∈ members, allowed p.1 ∧ MetaValue allowed p.2

end Json

namespace Value

open Json (Same SameItems SameMembers Tagged Content Element MetaValue MetaMembers)

variable {j : Json} {items : List Json} {members : List (Text × Json)}

-- A value that is read and written back as it was.
def Kept (j : Json) : Prop :=
  ∃ v, ofJson j = .ok v ∧ Same v.toJson j

theorem kept_items (h : ∀ a ∈ items, Kept a) :
    ∃ vs, ofJsonItems items = .ok vs ∧ SameItems (toJsonItems vs) items := by
  induction items with
  | nil => exact ⟨[], rfl, .nil⟩
  | cons a rest ih =>
      obtain ⟨v, hv, hsame⟩ := h a List.mem_cons_self
      obtain ⟨vs, hvs, hrest⟩ := ih fun b hb => h b (List.mem_cons_of_mem a hb)
      refine ⟨v :: vs, ?_, .cons hsame hrest⟩
      simp only [ofJsonItems, hv, hvs]
      rfl

theorem kept_members (h : ∀ p ∈ members, Kept p.2) :
    ∃ es, ofJsonEntries members = .ok es ∧ Entries.keys es = Entries.keys members ∧
      SameMembers (toJsonEntries es) members := by
  induction members with
  | nil => exact ⟨[], rfl, rfl, .nil⟩
  | cons p rest ih =>
      obtain ⟨name, a⟩ := p
      obtain ⟨v, hv, hsame⟩ := h (name, a) List.mem_cons_self
      obtain ⟨es, hes, hkeys, hrest⟩ := ih fun q hq => h q (List.mem_cons_of_mem _ hq)
      refine ⟨(name, v) :: es, ?_, congrArg (name :: ·) hkeys, .cons name hsame hrest⟩
      simp only [ofJsonEntries, hv, hes]
      rfl

theorem kept_map (names : ∀ p ∈ members, p.1 ≠ tagKey) (values : ∀ p ∈ members, Kept p.2) :
    ∃ es, ofJson (.obj members) = .ok (.map es) ∧ Entries.keys es = Entries.keys members ∧
      Same (map es).toJson (.obj members) := by
  have huntagged : tagKey ∉ Entries.keys members := by
    intro hmem
    obtain ⟨p, hp, hname⟩ := List.mem_map.mp hmem
    exact names p hp hname
  obtain ⟨es, hes, hkeys, hsame⟩ := kept_members values
  refine ⟨es, ?_, hkeys, .obj hsame (.refl _)⟩
  rw [ofJson_map huntagged, hes]
  rfl

theorem ofJson_of_tagged {tag : Text} {payload : Json} (h : Tagged tag payload j) :
    ofJson j = (ofJson payload).map (token tag) := by
  cases h with
  | tagFirst => simp [ofJson, Entries.get?, payloadOf]
  | payloadFirst => simp [ofJson, Entries.get?, payloadOf]

theorem ne_null_of_ofJson (hj : j ≠ .null) : Ensures (fun v => v ≠ null) (ofJson j) := by
  cases j with
  | null => exact absurd rfl hj
  | arr items => exact (Ensures.trivially _).map fun vs _ => by simp
  | obj entries =>
      rw [ofJson]
      split
      · exact (Ensures.trivially _).map fun es _ => by simp
      · exact (Ensures.trivially _).map fun payload _ => by simp
      · exact .error _
  | _ => exact .ok (by simp)

theorem kept_tagged {tag : Text} {payload : Json} (h : Tagged tag payload j)
    (hpresent : payload ≠ .null) (hkept : Kept payload) : Kept j := by
  obtain ⟨v, hv, hsame⟩ := hkept
  refine ⟨token tag v, by rw [ofJson_of_tagged h, hv]; rfl, ?_⟩
  have hmembers : SameMembers [(tagKey, .str tag), (payloadKey, v.toJson)]
      [(tagKey, .str tag), (payloadKey, payload)] :=
    .cons tagKey (.refl _) (.cons payloadKey hsame .nil)
  rw [toJson_token tag (ne_null_of_ofJson hpresent v hv)]
  cases h with
  | tagFirst => exact .obj hmembers (.refl _)
  | payloadFirst => exact .obj hmembers (.swap _ _ _)

theorem kept_arr (h : ∀ a ∈ items, Kept a) : Kept (.arr items) := by
  obtain ⟨vs, hvs, hsame⟩ := kept_items h
  exact ⟨.list vs, by rw [ofJson, hvs]; rfl, .arr hsame⟩

theorem kept_content (h : Content j) : Kept j := by
  induction h with
  | null => exact ⟨.null, rfl, .refl _⟩
  | bool b => exact ⟨.bool b, rfl, .refl _⟩
  | int i => exact ⟨.int i, rfl, .refl _⟩
  | double d => exact ⟨.double d, rfl, .refl _⟩
  | str text => exact ⟨.str text, rfl, .refl _⟩
  | arr _ ih => exact kept_arr ih
  | @record entries _ untagged _ ih =>
      have hnames : ∀ p ∈ entries, p.1 ≠ tagKey :=
        fun p hp hname => untagged (hname ▸ List.mem_map_of_mem hp)
      obtain ⟨es, hes, -, hsame⟩ := kept_map hnames ih
      exact ⟨.map es, hes, hsame⟩
  | bare tag => exact ⟨.token tag .null, rfl, .refl _⟩
  | tagged h present _ ih => exact kept_tagged h present ih

theorem kept_meta (h : MetaValue (· ≠ tagKey) j) : Kept j := by
  induction h with
  | string h => exact kept_tagged h (by simp) ⟨.str _, rfl, .refl _⟩
  | bool h => exact kept_tagged h (by simp) ⟨.bool _, rfl, .refl _⟩
  | inlines h elements =>
      exact kept_tagged h (by simp) (kept_arr fun a ha => kept_content (elements a ha).1)
  | blocks h elements =>
      exact kept_tagged h (by simp) (kept_arr fun a ha => kept_content (elements a ha).1)
  | list h _ ih => exact kept_tagged h (by simp) (kept_arr ih)
  | map h _ names _ ih =>
      obtain ⟨es, hes, -, hsame⟩ := kept_map names ih
      exact kept_tagged h (by simp) ⟨.map es, hes, hsame⟩

-- A value that holds an object whose member t is no text.
def Refused (j : Json) : Prop :=
  ∃ tag, ofJson j = .error tag

theorem refused_iff (j : Json) : Refused j ↔ ∃ tag ∈ j.tags, ∀ text, tag ≠ .str text := by
  have hrefusal : Refused j ↔ refusal (ofJson j) ≠ none := by
    unfold Refused
    cases ofJson j <;> simp [refusal]
  rw [hrefusal, refusal_ofJson, ne_eq, Json.firstNoText_eq_none_iff]
  push Not
  rfl

theorem refused_arr (h : ∃ a ∈ items, Refused a) : Refused (.arr items) := by
  obtain ⟨a, ha, hrefused⟩ := h
  obtain ⟨tag, htag, hnoText⟩ := (refused_iff a).mp hrefused
  exact (refused_iff _).mpr ⟨tag, Json.mem_itemTags.mpr ⟨a, ha, htag⟩, hnoText⟩

theorem refused_untagged (huntagged : tagKey ∉ Entries.keys members)
    (h : ∃ p ∈ members, Refused p.2) : Refused (.obj members) := by
  obtain ⟨p, hp, hrefused⟩ := h
  obtain ⟨tag, htag, hnoText⟩ := (refused_iff p.2).mp hrefused
  refine (refused_iff _).mpr ⟨tag, ?_, hnoText⟩
  rw [Json.tags_of_untagged huntagged]
  exact Json.mem_memberTags.mpr ⟨p, hp, htag⟩

theorem refused_tagged {tag : Text} {payload : Json} (h : Tagged tag payload j)
    (hrefused : Refused payload) : Refused j := by
  obtain ⟨cause, hcause⟩ := hrefused
  exact ⟨cause, by rw [ofJson_of_tagged h, hcause]; rfl⟩

theorem exists_tagged_of_meta {allowed : Text → Prop} (h : MetaValue allowed j) :
    ∃ tag payload, Tagged tag payload j := by
  cases h with
  | string h => exact ⟨_, _, h⟩
  | bool h => exact ⟨_, _, h⟩
  | inlines h => exact ⟨_, _, h⟩
  | blocks h => exact ⟨_, _, h⟩
  | list h => exact ⟨_, _, h⟩
  | map h => exact ⟨_, _, h⟩

-- A map of metadata values is refused for the name t and for the values that are refused.
theorem refused_map {allowed : Text → Prop} (values : ∀ p ∈ members, MetaValue allowed p.2)
    (h : (∃ p ∈ members, p.1 = tagKey) ∨ ∃ p ∈ members, Refused p.2) : Refused (.obj members) := by
  cases htag : Entries.get? tagKey members with
  | some a =>
      obtain ⟨tag, payload, htagged⟩ := exists_tagged_of_meta (values _ (Entries.mem_of_get? htag))
      refine (refused_iff _).mpr ⟨a, ?_, ?_⟩
      · rw [Json.tags_of_tagged htag]
        exact List.mem_cons_self
      · rintro text rfl
        cases htagged
  | none =>
      have huntagged := (Entries.get?_eq_none_iff tagKey members).mp htag
      obtain ⟨p, hp, hname⟩ | hvalue := h
      · exact absurd (hname ▸ List.mem_map_of_mem hp) huntagged
      · exact refused_untagged huntagged hvalue

theorem members_or_refused (values : ∀ p ∈ members, MetaValue (fun _ => True) p.2)
    (h : ∀ p ∈ members, MetaValue (· ≠ tagKey) p.2 ∨ Refused p.2) :
    MetaMembers (· ≠ tagKey) members ∨ Refused (.obj members) := by
  by_cases hall : ∀ p ∈ members, p.1 ≠ tagKey ∧ MetaValue (· ≠ tagKey) p.2
  · exact .inl hall
  · push Not at hall
    obtain ⟨p, hp, hbad⟩ := hall
    refine .inr (refused_map values ?_)
    by_cases hname : p.1 = tagKey
    · exact .inl ⟨p, hp, hname⟩
    · exact .inr ⟨p, hp, (h p hp).resolve_left (hbad hname)⟩

-- A metadata value is refused unless none of its maps has the name t.
theorem meta_or_refused (h : MetaValue (fun _ => True) j) :
    MetaValue (· ≠ tagKey) j ∨ Refused j := by
  induction h with
  | string h => exact .inl (.string h)
  | bool h => exact .inl (.bool h)
  | inlines h elements => exact .inl (.inlines h elements)
  | blocks h elements => exact .inl (.blocks h elements)
  | @list items j h _ ih =>
      by_cases hall : ∀ a ∈ items, MetaValue (· ≠ tagKey) a
      · exact .inl (.list h hall)
      · push Not at hall
        obtain ⟨a, ha, hbad⟩ := hall
        exact .inr (refused_tagged h (refused_arr ⟨a, ha, (ih a ha).resolve_left hbad⟩))
  | map h names _ values ih =>
      obtain hall | hrefused := members_or_refused values ih
      · exact .inl (.map h names (fun p hp => (hall p hp).1) fun p hp => (hall p hp).2)
      · exact .inr (refused_tagged h hrefused)

end Value

namespace Document

open Value (tagKey payloadKey)

open Json (Same Element MetaValue MetaMembers)

-- An object that writes a document: its blocks are elements and its metadata a map of metadata
-- values, which may have any names at any depth.
structure Pandoc (entries : List (Text × Json)) (items : List Json)
    (members : List (Text × Json)) : Prop where
  version : ∃ numbers : List Int, Entries.get? versionKey entries = some (.arr (numbers.map .int))
  blocks : Entries.get? blocksKey entries = some (.arr items)
  elements : ∀ a ∈ items, Element a
  metadata : Entries.get? metadataKey entries = some (.obj members)
  names : (Entries.keys members).Nodup
  values : MetaMembers (fun _ => True) members

variable {entries members : List (Text × Json)} {items : List Json}

theorem exists_token {a : Json} (h : Element a) : ∃ t : Token, Value.ofJson a = .ok t.toValue := by
  obtain ⟨hcontent, tag, htag⟩ := h
  obtain ⟨v, hv, -⟩ := Value.kept_content hcontent
  cases a with
  | obj entries =>
      have htagged : tagKey ∈ Entries.keys entries :=
        (Entries.mem_keys_iff tagKey entries).mpr (Option.isSome_of_eq_some htag)
      obtain ⟨tag, payload, rfl, -⟩ := Value.exists_of_ofJson_tagged htagged hv
      exact ⟨⟨tag, payload⟩, hv⟩
  | _ => simp [Json.member?] at htag

theorem exists_blocks (h : ∀ a ∈ items, Element a) :
    ∃ blocks : List Token, Value.ofJsonItems items = .ok (blocks.map Token.toValue) := by
  induction items with
  | nil => exact ⟨[], rfl⟩
  | cons a rest ih =>
      obtain ⟨t, ht⟩ := exists_token (h a List.mem_cons_self)
      obtain ⟨blocks, hblocks⟩ := ih fun b hb => h b (List.mem_cons_of_mem a hb)
      refine ⟨t :: blocks, ?_⟩
      simp only [Value.ofJsonItems, ht, hblocks]
      rfl

-- Such an object is read if its metadata is.
theorem Pandoc.exists_ofJson_eq (h : Pandoc entries items members) :
    ∃ (blocks : List Token) (numbers : List Int), ofJson (.obj entries) =
      ((Value.ofJson (.obj members)).map (Document.mk blocks numbers)).mapError .tagNotText := by
  obtain ⟨numbers, hversion⟩ := h.version
  obtain ⟨blocks, hblocks⟩ := exists_blocks h.elements
  refine ⟨blocks, numbers, ?_⟩
  have hparts : HasParts entries items members := ⟨h.blocks, by rw [h.metadata]; rfl⟩
  rw [ofJson_obj hparts, hversion, versionOf_map, hblocks]
  simp only [Except.mapError, bind, Except.bind, blocksOf_map]
  cases Value.ofJson (.obj members) <;> rfl

-- Metadata comes back from reading and writing unless a name in it is t, at the top or in a map
-- at any depth: an object with that name is taken for a token.
theorem ofJson_pandoc (h : Pandoc entries items members) :
    (MetaMembers (· ≠ tagKey) members → ∃ d es, ofJson (.obj entries) = .ok d ∧
      d.metadata = .map es ∧ Entries.keys es = Entries.keys members ∧
      ∃ written, d.toJson.member? metadataKey = some written ∧ Same written (.obj members)) ∧
    (¬MetaMembers (· ≠ tagKey) members →
      ∃ tag, ofJson (.obj entries) = .error (.tagNotText tag)) := by
  obtain ⟨blocks, numbers, hread⟩ := h.exists_ofJson_eq
  constructor
  · intro hmembers
    obtain ⟨es, hes, hkeys, hsame⟩ := Value.kept_map (fun p hp => (hmembers p hp).1)
      fun p hp => Value.kept_meta (hmembers p hp).2
    exact ⟨⟨blocks, numbers, .map es⟩, es, by rw [hread, hes]; rfl, rfl, hkeys, _, rfl, hsame⟩
  · intro hmembers
    have hvalues : ∀ p ∈ members, MetaValue (fun _ => True) p.2 := fun p hp => (h.values p hp).2
    have hcases := Value.members_or_refused hvalues
      fun p hp => Value.meta_or_refused (hvalues p hp)
    obtain ⟨tag, htag⟩ := hcases.resolve_left hmembers
    exact ⟨tag, by rw [hread, htag]; rfl⟩

private def note : Json := .obj [("c", .str "x"), ("t", .str "Str")]

private def nested : Json := .obj [("t", .str "MetaMap"), ("c", .obj [
  ("c", .obj [("c", .bool true), ("t", .str "MetaBool")]),
  ("", .obj [("t", .str "MetaList"),
    ("c", .arr [.obj [("t", .str "MetaString"), ("c", .str "t")]])])])]

private def nestedMembers : List (Text × Json) :=
  [("meta", nested), ("title", .obj [("c", .arr [note]), ("t", .str "MetaInlines")])]

private def nestedDocument : List (Text × Json) :=
  [("blocks", .arr [note]), ("meta", .obj nestedMembers), (versionKey, .arr [.int 1, .int 23])]

private theorem element_note : Element note :=
  ⟨.tagged .payloadFirst (by simp) (.str "x"), "Str", rfl⟩

private theorem metaMembers_nested {allowed : Text → Prop}
    (h : ∀ name ∈ ["meta", "title", "c", ""], allowed name) :
    MetaMembers allowed nestedMembers := by
  have htext : MetaValue allowed (.obj [("t", .str "MetaString"), ("c", .str "t")]) :=
    .string .tagFirst
  have hinner : MetaValue allowed nested :=
    .map .tagFirst (by decide) (by simp_all) (by
      simp only [List.forall_mem_cons]
      exact ⟨.bool .payloadFirst, .list .tagFirst (by simpa using htext), by simp⟩)
  simp only [MetaMembers, nestedMembers, List.forall_mem_cons]
  exact ⟨⟨h _ (by simp), hinner⟩,
    ⟨h _ (by simp), .inlines .payloadFirst (by simpa using element_note)⟩, by simp⟩

private theorem pandoc_nested : Pandoc nestedDocument [note] nestedMembers where
  version := ⟨[1, 23], rfl⟩
  blocks := rfl
  elements := by simpa using element_note
  metadata := rfl
  names := by decide
  values := metaMembers_nested fun _ _ => trivial

theorem ofJson_pandoc_nested : Pandoc nestedDocument [note] nestedMembers ∧
    MetaMembers (· ≠ tagKey) nestedMembers ∧ ∃ d es, ofJson (.obj nestedDocument) = .ok d ∧
      d.metadata = .map es ∧ Entries.keys es = ["meta", "title"] ∧
      ∃ written, d.toJson.member? metadataKey = some written ∧
        Same written (.obj nestedMembers) := by
  have hallowed : MetaMembers (· ≠ tagKey) nestedMembers := metaMembers_nested (by decide)
  exact ⟨pandoc_nested, hallowed, (ofJson_pandoc pandoc_nested).1 hallowed⟩

private def namedT : List (Text × Json) := [("t", .obj [("t", .str "MetaString"), ("c", .str "x")])]

private def namedTDocument : List (Text × Json) :=
  [(versionKey, .arr [.int 1, .int 23, .int 1]), ("meta", .obj namedT), ("blocks", .arr [])]

-- A document with a metadata entry of the name t is not read at all.
theorem ofJson_pandoc_namedT : Pandoc namedTDocument [] namedT ∧
    ¬∃ d, ofJson (.obj namedTDocument) = .ok d := by
  refine ⟨⟨⟨[1, 23, 1], rfl⟩, rfl, by simp, rfl, by decide, ?_⟩, ?_⟩
  · simp only [MetaMembers, namedT, List.forall_mem_singleton]
    exact ⟨trivial, .string .tagFirst⟩
  · rintro ⟨d, hd⟩
    cases hd

end Document

end Dialect
