import Dialect.Proofs.Config.Merge.Lemmas

namespace Dialect.Config

open Setting (Distinct IsMapping distinct_obj_iff)

variable {a b c : Entries Key Setting} {key : Key} {x y z : Option Setting}

-- A value somewhere in a mapping that is replaced by another kind of value, while below it and
-- above it there are mappings: then it matters which two are laid over one another first.
def Interrupted (below between above : Setting) (path : List Key) : Prop :=
  (∃ entries, lookup path below = some (.obj entries)) ∧
    (∃ v, lookup path between = some v ∧ ¬v.IsMapping) ∧
    ∃ entries, lookup path above = some (.obj entries)

theorem merge_eq_of_get? {m : Entries Key Setting} (ha : (Entries.keys a).Nodup)
    (hb : (Entries.keys b).Nodup)
    (hkeys : Entries.keys a ++ (Entries.keys b).filter (· ∉ Entries.keys a) = Entries.keys m)
    (h : ∀ key, overlay (Entries.get? key a) (Entries.get? key b) = Entries.get? key m) :
    merge a b = m := by
  refine Entries.ext_of_keys (nodup_keys_merge ha b) ((keys_merge a hb).trans hkeys) fun key => ?_
  rw [get?_merge a hb, h]

theorem nil_merge (ha : (Entries.keys a).Nodup) : merge [] a = a := by
  refine merge_eq_of_get? List.nodup_nil ha (by simp [Entries.keys]) fun key => ?_
  cases Entries.get? key a with
  | none => rfl
  | some v => simp [Entries.get?, mergeValue_of_no_mapping]

theorem mergeValue_self {v : Setting} (hv : v.Distinct) : mergeValue (some v) v = v := by
  induction hv with
  | value h => exact mergeValue_of_not_isMapping h _
  | @mapping entries hkeys _ ih =>
      rw [mergeValue_obj]
      refine congrArg Setting.obj (merge_eq_of_get? hkeys hkeys (by simp) fun key => ?_)
      cases hget : Entries.get? key entries with
      | none => rfl
      | some v => simpa using ih _ (Entries.mem_of_get? hget)

theorem merge_self (ha : (Setting.obj a).Distinct) : merge a a = a := by
  simpa only [mergeValue_obj, Setting.obj.injEq] using mergeValue_self ha

-- Laying the same mapping over a second time changes nothing.
theorem mergeValue_mergeValue {v : Setting} (hx : ∀ j ∈ x, j.Distinct) (hv : v.Distinct) :
    mergeValue (some (mergeValue x v)) v = mergeValue x v := by
  induction hv generalizing x with
  | value h => simp only [mergeValue_of_not_isMapping h]
  | @mapping upper hkeys hvalues ih =>
      obtain ⟨lower, rfl⟩ | hno := exists_mapping_or_not x
      · have hlower := hx _ rfl
        simp only [mergeValue_obj]
        refine congrArg Setting.obj
          (merge_eq_of_get? (nodup_keys_merge hlower.keys upper) hkeys ?_ ?_)
        · rw [keys_merge lower hkeys]
          simp +contextual
        · intro key
          rw [get?_merge lower hkeys]
          cases hget : Entries.get? key upper with
          | none => rfl
          | some u =>
              exact congrArg some (ih _ (Entries.mem_of_get? hget) fun j hj => hlower.of_get? hj)
      · rw [mergeValue_of_no_mapping hno, mergeValue_self (.mapping hkeys hvalues)]

-- Nor does it to lay over a mapping what comes of laying something over it.
theorem mergeValue_mergeValue_self {v : Setting} (hx : ∀ j ∈ x, j.Distinct) (hv : v.Distinct) :
    mergeValue x (mergeValue x v) = mergeValue x v := by
  induction hv generalizing x with
  | value h => simp only [mergeValue_of_not_isMapping h]
  | @mapping upper hkeys hvalues ih =>
      obtain ⟨lower, rfl⟩ | hno := exists_mapping_or_not x
      · have hlower := hx _ rfl
        simp only [mergeValue_obj]
        refine congrArg Setting.obj
          (merge_eq_of_get? hlower.keys (nodup_keys_merge hlower.keys upper) ?_ ?_)
        · rw [keys_merge lower hkeys]
          simp [List.filter_append]
        · intro key
          rw [get?_merge lower hkeys]
          cases hget : Entries.get? key upper with
          | none =>
              cases hold : Entries.get? key lower with
              | none => rfl
              | some v => exact congrArg some (mergeValue_self (hlower.of_get? hold))
          | some u =>
              exact congrArg some (ih _ (Entries.mem_of_get? hget) fun j hj => hlower.of_get? hj)
      · simp only [mergeValue_of_no_mapping hno]

theorem keys_merge_assoc (a : Entries Key Setting) (hb : (Entries.keys b).Nodup)
    (hc : (Entries.keys c).Nodup) :
    Entries.keys (merge (merge a b) c) = Entries.keys (merge a (merge b c)) := by
  rw [keys_merge _ hc, keys_merge a hb, keys_merge a (nodup_keys_merge hb c), keys_merge b hc]
  simp only [List.filter_append, List.filter_filter, List.append_assoc]
  congr 2
  refine List.filter_congr fun key _ => ?_
  by_cases hkey : key ∈ Entries.keys a <;> simp [hkey]

theorem Interrupted.cons {below between above : Setting} {path : List Key}
    (h : Interrupted below between above path) (ha : Entries.get? key a = some below)
    (hb : Entries.get? key b = some between) (hc : Entries.get? key c = some above) :
    Interrupted (.obj a) (.obj b) (.obj c) (key :: path) := by
  simpa only [Interrupted, lookup_cons, ha, hb, hc, Option.bind_some] using h

theorem mergeValue_assoc {v w : Setting} (hx : ∀ j ∈ x, j.Distinct) (hv : v.Distinct)
    (hw : w.Distinct) (h : ∀ j ∈ x, ∀ path, ¬Interrupted j v w path) :
    mergeValue (some (mergeValue x v)) w = mergeValue x (mergeValue (some v) w) := by
  induction hw generalizing x v with
  | value hw => simp only [mergeValue_of_not_isMapping hw]
  | @mapping upper hkeys hvalues ih =>
      by_cases hbetween : v.IsMapping
      · obtain ⟨middle, rfl⟩ := hbetween
        obtain ⟨lower, rfl⟩ | hno := exists_mapping_or_not x
        · have hlower := hx _ rfl
          have hnodup := nodup_keys_merge hlower.keys middle
          simp only [mergeValue_obj]
          refine congrArg Setting.obj (Entries.ext_of_keys (nodup_keys_merge hnodup upper)
            (keys_merge_assoc lower hv.keys hkeys) fun key => ?_)
          rw [get?_merge _ hkeys, get?_merge lower hv.keys,
            get?_merge lower (nodup_keys_merge hv.keys upper), get?_merge middle hkeys]
          cases hupper : Entries.get? key upper with
          | none => rfl
          | some u =>
              cases hmiddle : Entries.get? key middle with
              | none => simp [mergeValue_of_no_mapping]
              | some m =>
                  refine congrArg some (ih _ (Entries.mem_of_get? hupper)
                    (fun j hj => hlower.of_get? hj) (hv.of_get? hmiddle) fun j hj path hbad => ?_)
                  exact h _ rfl (key :: path) (hbad.cons hj hmiddle hupper)
        · simp only [mergeValue_of_no_mapping hno]
      · have hno : ∀ entries, some v ≠ some (.obj entries) := by
          rintro entries ⟨⟩
          exact hbetween (Setting.isMapping_obj entries)
        rw [mergeValue_of_not_isMapping hbetween, mergeValue_of_no_mapping hno,
          mergeValue_of_no_mapping]
        rintro lower rfl
        exact h _ rfl [] ⟨⟨lower, rfl⟩, ⟨v, rfl, hbetween⟩, upper, rfl⟩

-- The laws of laying mappings over one another, with the order of the keys: nothing is laid over
-- a mapping or a mapping over nothing, a mapping over itself, the same one twice; and of three,
-- it does not matter which two come first, unless a value in the middle parts two mappings.
theorem merge_laws (ha : (Setting.obj a).Distinct) (hb : (Setting.obj b).Distinct)
    (hc : (Setting.obj c).Distinct) :
    merge a [] = a ∧ merge [] a = a ∧ merge a a = a ∧
    merge (merge a b) b = merge a b ∧ merge a (merge a b) = merge a b ∧
    ((∀ path, ¬Interrupted (.obj a) (.obj b) (.obj c) path) →
      merge (merge a b) c = merge a (merge b c)) := by
  have hlower : ∀ j ∈ some (Setting.obj a), j.Distinct := by
    rintro _ ⟨⟩
    exact ha
  have htwice := mergeValue_mergeValue hlower hb
  have hbelow := mergeValue_mergeValue_self hlower hb
  simp only [mergeValue_obj, Setting.obj.injEq] at htwice hbelow
  refine ⟨merge_nil a, nil_merge ha.keys, merge_self ha, htwice, hbelow, fun h => ?_⟩
  have hassoc := mergeValue_assoc hlower hb hc (by rintro _ ⟨⟩; exact h)
  simpa only [mergeValue_obj, Setting.obj.injEq] using hassoc

-- With a value between two mappings it does matter.
example : merge (merge [("k", .obj [("p", .null)])] [("k", .null)]) [("k", .obj [])] ≠
    merge [("k", .obj [("p", .null)])] (merge [("k", .null)] [("k", .obj [])]) := by decide

-- Three mappings with keys of their own and keys in common, a value over a mapping, and a
-- mapping over a value.
private def first : Entries Key Setting :=
  [("x", .obj [("p", .int 1), ("q", .null)]), ("y", .int 2)]

private def second : Entries Key Setting :=
  [("z", .bool true), ("y", .obj [("r", .int 3)]), ("x", .obj [("q", .obj [("s", .int 4)])])]

private def third : Entries Key Setting :=
  [("y", .null), ("x", .obj [("q", .obj [("s", .arr [])]), ("p", .obj [])])]

theorem merge_laws_three : ((Setting.obj first).Distinct ∧ (Setting.obj second).Distinct ∧
      (Setting.obj third).Distinct ∧
      ∀ path, ¬Interrupted (.obj first) (.obj second) (.obj third) path) ∧
    merge [] first = first ∧ merge first first = first ∧
    merge (merge first second) third = merge first (merge second third) ∧
    merge (merge first second) third =
      ([("x", .obj [("p", .obj []), ("q", .obj [("s", .arr [])])]), ("y", .null),
        ("z", .bool true)] : Entries Key Setting) := by
  have hfirst : (Setting.obj first).Distinct := by
    simp [first, distinct_obj_iff, Distinct.value, IsMapping, Entries.keys]
  have hsecond : (Setting.obj second).Distinct := by
    simp [second, distinct_obj_iff, Distinct.value, IsMapping, Entries.keys]
  have hthird : (Setting.obj third).Distinct := by
    simp [third, distinct_obj_iff, Distinct.value, IsMapping, Entries.keys]
  have hpaths : ∀ path, ¬Interrupted (.obj first) (.obj second) (.obj third) path := by
    rintro path ⟨⟨below, hbelow⟩, ⟨v, hbetween, hv⟩, -⟩
    -- in the first one there are mappings at the root and under x only
    obtain _ | ⟨key, path⟩ := path
    · exact hv ⟨_, (Option.some.inj hbetween).symm⟩
    by_cases hx : key = "x"
    · subst hx
      obtain _ | ⟨key, path⟩ := path
      · exact hv ⟨_, (Option.some.inj hbetween).symm⟩
      · simp only [lookup_cons, first, Entries.get?, if_true, Option.bind_some] at hbelow
        split_ifs at hbelow <;>
          simp [lookup_of_not_isMapping, IsMapping] at hbelow
    · simp only [lookup_cons, first, Entries.get?, Ne.symm hx, if_false] at hbelow
      split_ifs at hbelow <;>
        simp [lookup_of_not_isMapping, IsMapping] at hbelow
  have hlaws := merge_laws hfirst hsecond hthird
  exact ⟨⟨hfirst, hsecond, hthird, hpaths⟩, hlaws.2.1, hlaws.2.2.1, hlaws.2.2.2.2.2 hpaths,
    by decide⟩

end Dialect.Config
