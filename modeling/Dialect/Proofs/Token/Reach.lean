import Dialect.Proofs.Json.Structure
import Dialect.Proofs.Token.Image

namespace Dialect

-- An object with a member t is taken for a token, and of a token only the payload is looked at.
namespace Json

open Value (tagKey payloadKey)

-- The values that are looked at when a value is read: the value itself, what a list holds, all
-- members of an object without t, and the member c alone of an object with one.
inductive Reaches : Json → Json → Prop
  | refl (a : Json) : Reaches a a
  | item {items : List Json} {a b : Json} (h : a ∈ items) (below : Reaches a b) :
      Reaches (.arr items) b
  | member {entries : List (Text × Json)} {p : Text × Json} {b : Json}
      (untagged : tagKey ∉ Entries.keys entries) (h : p ∈ entries) (below : Reaches p.2 b) :
      Reaches (.obj entries) b
  | payload {entries : List (Text × Json)} {a b : Json} (tagged : tagKey ∈ Entries.keys entries)
      (h : Entries.get? payloadKey entries = some a) (below : Reaches a b) :
      Reaches (.obj entries) b

mutual

-- The members t of the objects that are reached, in the order of the document.
def tags : Json → List Json
  | .arr items => itemTags items
  | .obj entries =>
    match Entries.get? tagKey entries with
    | none => memberTags entries
    | some tag => tag :: payloadTags entries
  | _ => []

def itemTags : List Json → List Json
  | [] => []
  | a :: rest => tags a ++ itemTags rest

def memberTags : List (Text × Json) → List Json
  | [] => []
  | (_, a) :: rest => tags a ++ memberTags rest

def payloadTags : List (Text × Json) → List Json
  | [] => []
  | (k, a) :: rest => if k = payloadKey then tags a else payloadTags rest

end

variable {items : List Json} {entries : List (Text × Json)} {tag : Json}

theorem mem_itemTags : tag ∈ itemTags items ↔ ∃ a ∈ items, tag ∈ tags a := by
  induction items with
  | nil => simp [itemTags]
  | cons a rest ih => simp [itemTags, ih]

theorem mem_memberTags : tag ∈ memberTags entries ↔ ∃ p ∈ entries, tag ∈ tags p.2 := by
  induction entries with
  | nil => simp [memberTags]
  | cons p rest ih => simp [memberTags, ih]

theorem payloadTags_eq (entries : List (Text × Json)) :
    payloadTags entries = ((Entries.get? payloadKey entries).map tags).getD [] := by
  induction entries with
  | nil => rfl
  | cons p rest ih =>
      rw [payloadTags, Entries.get?]
      split
      · rfl
      · exact ih

theorem tags_of_untagged (h : tagKey ∉ Entries.keys entries) :
    tags (.obj entries) = memberTags entries := by
  simp only [tags, (Entries.get?_eq_none_iff tagKey entries).mpr h]

theorem tags_of_tagged (h : Entries.get? tagKey entries = some tag) :
    tags (.obj entries) = tag :: payloadTags entries := by
  simp only [tags, h]

theorem mem_tags_of_reaches {a b : Json} (h : Reaches a b) (hb : tag ∈ tags b) : tag ∈ tags a := by
  induction h with
  | refl => exact hb
  | item h _ ih => exact mem_itemTags.mpr ⟨_, h, ih hb⟩
  | member untagged h _ ih =>
      rw [tags_of_untagged untagged]
      exact mem_memberTags.mpr ⟨_, h, ih hb⟩
  | payload tagged h _ ih =>
      obtain ⟨found, hfound⟩ :=
        Option.isSome_iff_exists.mp ((Entries.mem_keys_iff tagKey _).mp tagged)
      rw [tags_of_tagged hfound, payloadTags_eq, h]
      exact List.mem_cons_of_mem _ (ih hb)

theorem exists_reaches_of_mem_tags {j : Json} (h : tag ∈ tags j) :
    ∃ entries, Reaches j (.obj entries) ∧ Entries.get? tagKey entries = some tag := by
  induction j using induction with
  | scalar j hj => cases j <;> simp_all [tags, Scalar]
  | arr items ih =>
      obtain ⟨a, ha, htag⟩ := mem_itemTags.mp h
      obtain ⟨entries, hreach, hentries⟩ := ih a ha htag
      exact ⟨entries, .item ha hreach, hentries⟩
  | obj members ih =>
      cases hfound : Entries.get? tagKey members with
      | none =>
          have huntagged := (Entries.get?_eq_none_iff tagKey members).mp hfound
          rw [tags_of_untagged huntagged] at h
          obtain ⟨p, hp, htag⟩ := mem_memberTags.mp h
          obtain ⟨entries, hreach, hentries⟩ := ih p hp htag
          exact ⟨entries, .member huntagged hp hreach, hentries⟩
      | some found =>
          rw [tags_of_tagged hfound, List.mem_cons] at h
          obtain rfl | h := h
          · exact ⟨members, .refl _, hfound⟩
          · have htagged : tagKey ∈ Entries.keys members := by simp [Entries.mem_keys_iff, hfound]
            rw [payloadTags_eq] at h
            cases hpayload : Entries.get? payloadKey members with
            | none => simp [hpayload] at h
            | some a =>
                obtain ⟨entries, hreach, hentries⟩ :=
                  ih _ (Entries.mem_of_get? hpayload) (by simpa [hpayload] using h)
                exact ⟨entries, .payload htagged hpayload hreach, hentries⟩

theorem mem_tags_iff {j : Json} : tag ∈ tags j ↔
    ∃ entries, Reaches j (.obj entries) ∧ Entries.get? tagKey entries = some tag := by
  refine ⟨exists_reaches_of_mem_tags, ?_⟩
  rintro ⟨entries, hreach, htag⟩
  refine mem_tags_of_reaches hreach ?_
  rw [tags_of_tagged htag]
  exact List.mem_cons_self

def isText : Json → Bool
  | .str _ => true
  | _ => false

-- The first of some tags that is no text.
def firstNoText (tags : List Json) : Option Json :=
  tags.find? fun tag => !tag.isText

theorem firstNoText_append (before after : List Json) :
    firstNoText (before ++ after) = (firstNoText before).or (firstNoText after) :=
  List.find?_append

theorem firstNoText_eq_none_iff (tags : List Json) :
    firstNoText tags = none ↔ ∀ tag ∈ tags, ∃ text, tag = .str text := by
  have hisText (tag : Json) : tag.isText = true ↔ ∃ text, tag = .str text := by
    cases tag <;> simp [isText]
  simp [firstNoText, List.find?_eq_none, hisText]

end Json

namespace Value

open Json (firstNoText firstNoText_append itemTags memberTags payloadTags)

variable {items : List Json} {entries : List (Text × Json)}

-- The tag that a tree is refused for, if it is refused.
def refusal {α : Type} : Except Json α → Option Json
  | .ok _ => none
  | .error tag => some tag

theorem refusal_map {α β : Type} (f : α → β) (x : Except Json α) :
    refusal (x.map f) = refusal x := by
  cases x <;> rfl

theorem refusal_eq_none_iff {α : Type} (x : Except Json α) : refusal x = none ↔ ∃ a, x = .ok a := by
  cases x <;> simp [refusal]

theorem payloadOf_eq (entries : List (Text × Json)) :
    payloadOf entries = ((Entries.get? payloadKey entries).map ofJson).getD (.ok null) := by
  induction entries with
  | nil => rfl
  | cons p rest ih =>
      rw [payloadOf, Entries.get?]
      split
      · rfl
      · exact ih

theorem refusal_ofJsonItems (h : ∀ a ∈ items, refusal (ofJson a) = firstNoText a.tags) :
    refusal (ofJsonItems items) = firstNoText (itemTags items) := by
  induction items with
  | nil => rfl
  | cons a rest ih =>
      obtain ⟨ha, hrest⟩ := List.forall_mem_cons.mp h
      rw [itemTags, firstNoText_append, ← ha, ← ih hrest, ofJsonItems]
      cases ofJson a with
      | error tag => rfl
      | ok v => exact refusal_map _ _

theorem refusal_ofJsonEntries (h : ∀ p ∈ entries, refusal (ofJson p.2) = firstNoText p.2.tags) :
    refusal (ofJsonEntries entries) = firstNoText (memberTags entries) := by
  induction entries with
  | nil => rfl
  | cons p rest ih =>
      obtain ⟨hp, hrest⟩ := List.forall_mem_cons.mp h
      rw [memberTags, firstNoText_append, ← hp, ← ih hrest, ofJsonEntries]
      cases ofJson p.2 with
      | error tag => rfl
      | ok v => exact refusal_map _ _

theorem refusal_payloadOf (h : ∀ p ∈ entries, refusal (ofJson p.2) = firstNoText p.2.tags) :
    refusal (payloadOf entries) = firstNoText (payloadTags entries) := by
  rw [payloadOf_eq, Json.payloadTags_eq]
  cases hpayload : Entries.get? payloadKey entries with
  | none => rfl
  | some a => exact h _ (Entries.mem_of_get? hpayload)

-- A value is refused for the first tag in it that is no text, and for nothing else.
theorem refusal_ofJson (j : Json) : refusal (ofJson j) = firstNoText j.tags := by
  induction j using Json.induction with
  | scalar j hj => cases j <;> simp_all [Json.Scalar, ofJson, refusal, Json.tags, firstNoText]
  | arr items ih =>
      rw [ofJson, refusal_map]
      exact refusal_ofJsonItems ih
  | obj entries ih =>
      cases htag : Entries.get? tagKey entries with
      | none =>
          have huntagged := (Entries.get?_eq_none_iff tagKey entries).mp htag
          rw [ofJson_map huntagged, refusal_map, Json.tags_of_untagged huntagged]
          exact refusal_ofJsonEntries ih
      | some tag =>
          rw [Json.tags_of_tagged htag]
          cases tag with
          | str text =>
              rw [ofJson_tagged htag, refusal_map]
              exact refusal_payloadOf ih
          | _ => simp only [ofJson, htag]; rfl

end Value

end Dialect
