import Dialect.Proofs.Token.Metadata

namespace Dialect

namespace Json

open Value (tagKey payloadKey)

mutual

-- A value without what reading it loses: of every object with a member t that is reached only
-- t and c are kept, and c only if it is not null.
def prune : Json → Json
  | .arr items => .arr (pruneItems items)
  | .obj entries =>
    if tagKey ∈ Entries.keys entries then .obj (pruneTagged entries)
    else .obj (pruneMembers entries)
  | j => j

def pruneItems : List Json → List Json
  | [] => []
  | a :: rest => prune a :: pruneItems rest

def pruneMembers : List (Text × Json) → List (Text × Json)
  | [] => []
  | (k, a) :: rest => (k, prune a) :: pruneMembers rest

def pruneTagged : List (Text × Json) → List (Text × Json)
  | [] => []
  | (k, a) :: rest =>
    if k = tagKey then (k, a) :: pruneTagged rest
    else if k = payloadKey ∧ a ≠ .null then (k, prune a) :: pruneTagged rest
    else pruneTagged rest

end

-- An object with a member t that has nothing to lose.
def Tight (entries : List (Text × Json)) : Prop :=
  ∀ p ∈ entries, p.1 = tagKey ∨ p.1 = payloadKey ∧ p.2 ≠ .null

variable {items : List Json} {entries : List (Text × Json)}

theorem prune_of_tagged (h : tagKey ∈ Entries.keys entries) :
    prune (.obj entries) = .obj (pruneTagged entries) := by
  simp only [prune, if_pos h]

theorem prune_of_untagged (h : tagKey ∉ Entries.keys entries) :
    prune (.obj entries) = .obj (pruneMembers entries) := by
  simp only [prune, if_neg h]

theorem pruneItems_eq_self (h : ∀ a ∈ items, a.prune = a) : pruneItems items = items := by
  induction items with
  | nil => rfl
  | cons a rest ih =>
      obtain ⟨ha, hrest⟩ := List.forall_mem_cons.mp h
      rw [pruneItems, ha, ih hrest]

theorem pruneMembers_eq_self (h : ∀ p ∈ entries, p.2.prune = p.2) :
    pruneMembers entries = entries := by
  induction entries with
  | nil => rfl
  | cons p rest ih =>
      obtain ⟨hp, hrest⟩ := List.forall_mem_cons.mp h
      rw [pruneMembers, hp, ih hrest]

theorem pruneTagged_eq_self (htight : Tight entries)
    (h : ∀ p ∈ entries, p.1 = payloadKey → p.2.prune = p.2) : pruneTagged entries = entries := by
  induction entries with
  | nil => rfl
  | cons p rest ih =>
      obtain ⟨hp, hrest⟩ := List.forall_mem_cons.mp htight
      obtain ⟨hpayload, hpayloads⟩ := List.forall_mem_cons.mp h
      rw [pruneTagged, ih hrest hpayloads]
      obtain htag | ⟨hc, hnull⟩ := hp
      · rw [if_pos htag]
      · rw [if_neg (by simp [hc]), if_pos ⟨hc, hnull⟩, hpayload hc]

theorem prune_eq_self {j : Json} (hj : j.Valid) (h : ∀ entries, Reaches j (.obj entries) →
    tagKey ∈ Entries.keys entries → Tight entries) : j.prune = j := by
  induction j using induction with
  | scalar j hscalar => cases j <;> simp_all [Scalar, prune]
  | arr items ih =>
      rw [prune, pruneItems_eq_self fun a ha => ih a ha ((validItems_iff items).mp hj a ha)
        fun entries hreach => h entries (.item ha hreach)]
  | obj entries ih =>
      have hmembers := (validMembers_iff entries).mp hj.2
      by_cases htagged : tagKey ∈ Entries.keys entries
      · rw [prune_of_tagged htagged, pruneTagged_eq_self (h entries (.refl _) htagged)]
        rintro ⟨k, a⟩ hp rfl
        exact ih _ hp (hmembers _ hp) fun below hreach =>
          h below (.payload htagged (Entries.get?_of_mem hj.1 hp) hreach)
      · rw [prune_of_untagged htagged, pruneMembers_eq_self fun p hp =>
          ih p hp (hmembers p hp) fun below hreach => h below (.member htagged hp hreach)]

-- What is left of an object with a tag, in the order in which tokens are written.
theorem pruneTagged_perm (hnodup : (Entries.keys entries).Nodup) :
    (pruneTagged entries).Perm ((Entries.get? tagKey entries).toList.map ((tagKey, ·)) ++
      ((Entries.get? payloadKey entries).filter (· ≠ .null)).toList.map
        fun a => (payloadKey, a.prune)) := by
  induction entries with
  | nil => exact .refl _
  | cons p rest ih =>
      obtain ⟨k, a⟩ := p
      obtain ⟨hnotMem, hrest⟩ := List.nodup_cons.mp hnodup
      have hrest := ih hrest
      have hnone : Entries.get? k rest = none := (Entries.get?_eq_none_iff k rest).mpr hnotMem
      by_cases htag : k = tagKey
      · subst htag
        simpa [pruneTagged, Entries.get?, hnone] using hrest
      · by_cases hc : k = payloadKey
        · subst hc
          by_cases hnull : a = .null
          · simpa [pruneTagged, Entries.get?, hnone, hnull, Option.filter] using hrest
          · simp only [hnone, Option.filter_none, Option.toList_none, List.map_nil,
              List.append_nil] at hrest
            have hcons := (List.perm_append_singleton (payloadKey, a.prune) _).symm.trans
              (hrest.append_right [(payloadKey, a.prune)])
            simpa [pruneTagged, Entries.get?, hnull, Option.filter] using hcons
        · simpa [pruneTagged, Entries.get?, htag, hc] using hrest

end Json

namespace Value

open Json (Same SameItems SameMembers Reaches Tight)

variable {j : Json} {v : Value} {items : List Json} {entries : List (Text × Json)}

theorem toJson_eq_null_iff (v : Value) : v.toJson = .null ↔ v = null := by
  cases v with
  | token tag payload => cases payload <;> simp [toJson]
  | _ => simp [toJson]

theorem ofJson_of_payloadOf {payload : Value} {a : Json}
    (hpayload : payloadOf entries = .ok payload) (h : Entries.get? payloadKey entries = some a) : ofJson a = .ok payload := by
  simpa [payloadOf_eq, h] using hpayload

-- Writing gives the pruned value.

theorem same_pruneItems
    (h : ∀ a ∈ items, Ensures (fun v => Same v.toJson a.prune) (ofJson a)) :
    Ensures (fun vs => SameItems (toJsonItems vs) (Json.pruneItems items)) (ofJsonItems items) := by
  induction items with
  | nil => exact .ok .nil
  | cons a rest ih =>
      obtain ⟨ha, hrest⟩ := List.forall_mem_cons.mp h
      rw [ofJsonItems]
      split
      · exact .error _
      · rename_i v hv
        exact (ih hrest).map fun vs hvs => .cons (ha v hv) hvs

theorem same_pruneMembers
    (h : ∀ p ∈ entries, Ensures (fun v => Same v.toJson p.2.prune) (ofJson p.2)) :
    Ensures (fun es => SameMembers (toJsonEntries es) (Json.pruneMembers entries))
      (ofJsonEntries entries) := by
  induction entries with
  | nil => exact .ok .nil
  | cons p rest ih =>
      obtain ⟨hp, hrest⟩ := List.forall_mem_cons.mp h
      rw [ofJsonEntries]
      split
      · exact .error _
      · rename_i v hv
        exact (ih hrest).map fun es hes => .cons p.1 (hp v hv) hes

theorem same_pruneTagged {tag : Text} {payload : Value}
    (hnodup : (Entries.keys entries).Nodup) (htag : Entries.get? tagKey entries = some (.str tag))
    (hpayload : payloadOf entries = .ok payload)
    (h : ∀ a, Entries.get? payloadKey entries = some a → Same payload.toJson a.prune) :
    Same (token tag payload).toJson (.obj (Json.pruneTagged entries)) := by
  have hperm := Json.pruneTagged_perm hnodup
  cases hc : Entries.get? payloadKey entries with
  | none =>
      obtain rfl : payload = null := by simpa [payloadOf_eq, hc, eq_comm] using hpayload
      refine .obj (.refl _) (.trans ?_ hperm.symm)
      simp [htag, hc]
  | some a =>
      have ha := ofJson_of_payloadOf hpayload hc
      by_cases hnull : a = .null
      · subst hnull
        cases ha
        refine .obj (.refl _) (.trans ?_ hperm.symm)
        simp [htag, hc, Option.filter]
      · rw [toJson_token tag (ne_null_of_ofJson hnull payload ha)]
        refine .obj (.cons tagKey (.refl _) (.cons payloadKey (h a hc) .nil)) (.trans ?_ hperm.symm)
        simp [htag, hc, hnull, Option.filter]

theorem same_prune (hj : j.Valid) : Ensures (fun v => Same v.toJson j.prune) (ofJson j) := by
  induction j using Json.induction with
  | scalar j hscalar =>
      cases j with
      | arr | obj => exact hscalar.elim
      | _ => exact .ok (.refl _)
  | arr items ih =>
      have hitems := (Json.validItems_iff items).mp hj
      exact (same_pruneItems fun a ha => ih a ha (hitems a ha)).map fun vs hvs => .arr hvs
  | obj entries ih =>
      have hmembers := (Json.validMembers_iff entries).mp hj.2
      have ih := fun p hp => ih p hp (hmembers p hp)
      intro v hv
      by_cases htagged : tagKey ∈ Entries.keys entries
      · obtain ⟨tag, payload, rfl, htag, hpayload⟩ := exists_of_ofJson_tagged htagged hv
        rw [Json.prune_of_tagged htagged]
        refine same_pruneTagged hj.1 htag hpayload fun a ha => ?_
        exact ih _ (Entries.mem_of_get? ha) _ (ofJson_of_payloadOf hpayload ha)
      · obtain ⟨es, rfl, hes⟩ := exists_of_ofJson_untagged htagged hv
        rw [Json.prune_of_untagged htagged]
        exact .obj (same_pruneMembers ih es hes) (.refl _)

-- What is written back as it was is so in all that is reached.

theorem kept_item (h : Kept (.arr items)) : ∀ a ∈ items, Kept a := by
  obtain ⟨v, hv, hsame⟩ := h
  obtain ⟨vs, rfl, hvs⟩ := exists_of_ofJson_arr hv
  have hitems : SameItems (toJsonItems vs) items := hsame.items
  clear hv hsame
  induction items generalizing vs with
  | nil => simp
  | cons a rest ih =>
      obtain ⟨w, ws, rfl, ha, hrest⟩ := exists_of_ofJsonItems_cons hvs
      cases hitems with
      | cons hhead htail => exact List.forall_mem_cons.mpr ⟨⟨w, ha, hhead⟩, ih ws hrest htail⟩

theorem exists_of_mem_ofJsonEntries {es : List (Text × Value)}
    (h : ofJsonEntries entries = .ok es) {name : Text} {a : Json}
    (ha : (name, a) ∈ toJsonEntries es) :
    ∃ p ∈ entries, p.1 = name ∧ ∃ v, ofJson p.2 = .ok v ∧ v.toJson = a := by
  induction entries generalizing es with
  | nil => cases h; cases ha
  | cons p rest ih =>
      obtain ⟨v, ws, rfl, hp, hrest⟩ := exists_of_ofJsonEntries_cons h
      obtain heq | ha := List.mem_cons.mp ha
      · cases heq
        exact ⟨p, List.mem_cons_self, rfl, v, hp, rfl⟩
      · obtain ⟨q, hq, hread⟩ := ih hrest ha
        exact ⟨q, List.mem_cons_of_mem p hq, hread⟩

theorem kept_member (hnodup : (Entries.keys entries).Nodup)
    (huntagged : tagKey ∉ Entries.keys entries) (h : Kept (.obj entries)) :
    ∀ p ∈ entries, Kept p.2 := by
  obtain ⟨v, hv, hsame⟩ := h
  obtain ⟨es, rfl, hes⟩ := exists_of_ofJson_untagged huntagged hv
  rintro ⟨name, a⟩ hp
  obtain ⟨b, hb, hba⟩ := hsame.exists_of_mem hp
  obtain ⟨⟨k, c⟩, hq, rfl, w, hw, rfl⟩ := exists_of_mem_ofJsonEntries hes hb
  have hsome := (Entries.get?_of_mem hnodup hq).symm.trans (Entries.get?_of_mem hnodup hp)
  obtain rfl : c = a := Option.some.inj hsome
  exact ⟨w, hw, hba⟩

-- A token that is written back as it was has nothing to lose, and nor has its payload.
theorem kept_of_tagged (htagged : tagKey ∈ Entries.keys entries) (h : Kept (.obj entries)) :
    Tight entries ∧ ∀ a, Entries.get? payloadKey entries = some a → Kept a := by
  obtain ⟨v, hv, hsame⟩ := h
  obtain ⟨tag, payload, rfl, -, hpayload⟩ := exists_of_ofJson_tagged htagged hv
  by_cases hnull : payload = null
  · subst hnull
    have hname : ∀ p ∈ entries, p.1 = tagKey := by
      intro p hp
      obtain ⟨a, ha, -⟩ := Same.exists_of_mem hsame hp
      exact congrArg Prod.fst (List.mem_singleton.mp ha)
    refine ⟨fun p hp => .inl (hname p hp), fun a ha => ?_⟩
    simpa using hname _ (Entries.mem_of_get? ha)
  · rw [toJson_token tag hnull] at hsame
    have hmember : ∀ p ∈ entries, p.1 = tagKey ∨ p.1 = payloadKey ∧ Same payload.toJson p.2 := by
      intro p hp
      obtain ⟨a, ha, hap⟩ := hsame.exists_of_mem hp
      simp only [List.mem_cons, Prod.mk.injEq, List.not_mem_nil, or_false] at ha
      obtain ⟨ht, -⟩ | ⟨hc, rfl⟩ := ha
      · exact .inl ht
      · exact .inr ⟨hc, hap⟩
    refine ⟨fun p hp => ?_, fun a ha => ?_⟩
    · refine (hmember p hp).imp_right fun ⟨hc, hap⟩ => ⟨hc, fun hvalue => hnull ?_⟩
      rw [hvalue] at hap
      exact (toJson_eq_null_iff payload).mp hap.eq_null
    · obtain ht | ⟨-, hap⟩ := hmember _ (Entries.mem_of_get? ha)
      · simp at ht
      · exact ⟨payload, ofJson_of_payloadOf hpayload ha, hap⟩

theorem kept_of_reaches {b : Json} (h : Reaches j b) (hj : j.Valid) (hkept : Kept j) : Kept b := by
  induction h with
  | refl => exact hkept
  | item h _ ih => exact ih ((Json.validItems_iff _).mp hj _ h) (kept_item hkept _ h)
  | member untagged h _ ih =>
      exact ih ((Json.validMembers_iff _).mp hj.2 _ h) (kept_member hj.1 untagged hkept _ h)
  | payload tagged h _ ih =>
      exact ih ((Json.validMembers_iff _).mp hj.2 _ (Entries.mem_of_get? h))
        ((kept_of_tagged tagged hkept).2 _ h)

-- There and back gives the pruned value, which is the value itself exactly if no token that is
-- reached has anything to lose. The other way nothing is lost: a tree without tagged maps comes
-- back from its JSON.
theorem toJson_prunes :
    (∀ (j : Json) (v : Value), j.Valid → ofJson j = .ok v → Same v.toJson j.prune ∧
      (Same v.toJson j ↔ ∀ entries, Reaches j (.obj entries) → tagKey ∈ Entries.keys entries →
        Tight entries)) ∧
    ∀ v : Value, v.Untagged → ofJson v.toJson = .ok v := by
  refine ⟨fun j v hj hv => ⟨same_prune hj v hv, fun hsame entries hreach htagged => ?_, ?_⟩,
    ofJson_toJson⟩
  · exact (kept_of_tagged htagged (kept_of_reaches hreach hj ⟨v, hv, hsame⟩)).1
  · intro htight
    have hprune := same_prune hj v hv
    rwa [Json.prune_eq_self hj htight] at hprune

-- A token in a list in a map has a member too many, which holds an object that could not be
-- read, and in its payload there is a null.
private def wide : List (Text × Json) :=
  [("x", .obj [("t", .int 1)]), ("c", .obj [("t", .str "Str"), ("c", .null), ("y", .int 0)]),
    ("t", .str "Para")]

private def wideMap : Json := .obj [("k", .arr [.obj wide]), ("c", .null)]

private def wideTree : Value :=
  .map [("k", .list [.token "Para" (.token "Str" .null)]), ("c", .null)]

theorem toJson_prunes_wide : wideMap.Valid ∧ ofJson wideMap = .ok wideTree ∧
    Same wideTree.toJson (.obj [("k", .arr [.obj [("c", .obj [("t", .str "Str")]),
      ("t", .str "Para")]]), ("c", .null)]) ∧
    ¬Same wideTree.toJson wideMap ∧ wideTree.Untagged ∧ ofJson wideTree.toJson = .ok wideTree := by
  have hvalid : wideMap.Valid := by
    simp [wideMap, wide, Json.Valid, Json.ValidItems, Json.ValidMembers, Entries.keys]
  have hread : ofJson wideMap = .ok wideTree := rfl
  have huntagged : wideTree.Untagged := by
    simp [wideTree, Untagged, UntaggedItems, UntaggedEntries, tagKey, Entries.keys]
  obtain ⟨hprune, hiff⟩ := toJson_prunes.1 wideMap wideTree hvalid hread
  refine ⟨hvalid, hread, hprune, fun hsame => ?_, huntagged, toJson_prunes.2 wideTree huntagged⟩
  have hreach : Reaches wideMap (.obj wide) :=
    .member (by decide) List.mem_cons_self (.item List.mem_cons_self (.refl _))
  have htight := hiff.mp hsame wide hreach (by decide) _ List.mem_cons_self
  simp [tagKey, payloadKey] at htight

end Value

end Dialect
