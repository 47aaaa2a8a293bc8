import Dialect.Proofs.Config.Merge.Store

namespace Dialect.Config

open Setting (Distinct IsMapping distinct_obj_iff)

variable {base upper merged : Setting} {lower entries : Entries Key Setting} {key : Key}
  {path : List Key}

theorem isMapping_of_lookup {j : Setting} (h : lookup path j = some (.obj entries)) :
    j.IsMapping := by
  by_contra hj
  exact hj ⟨entries, ((lookup_of_not_isMapping hj path _).mp h).2⟩

-- Up to some place on the path both have mappings, and the upper one lacks the next key.
def Missing (base upper : Setting) (path : List Key) : Prop :=
  ∃ front key back lower entries, path = front ++ key :: back ∧
    lookup front base = some (.obj lower) ∧ lookup front upper = some (.obj entries) ∧
    Entries.get? key entries = none

theorem not_missing_nil : ¬Missing base upper [] := by
  rintro ⟨front, key, back, -, -, hpath, -⟩
  simp at hpath

theorem missing_cons_iff : Missing (.obj lower) (.obj entries) (key :: path) ↔
    Entries.get? key entries = none ∨
      ∃ below above, Entries.get? key lower = some below ∧
        Entries.get? key entries = some above ∧ Missing below above path := by
  constructor
  · rintro ⟨front, name, back, lower', entries', hpath, hbase, hupper, hname⟩
    cases front with
    | nil =>
        obtain ⟨rfl, rfl⟩ := List.cons.inj hpath
        cases hupper
        exact .inl hname
    | cons other front =>
        obtain ⟨rfl, rfl⟩ := List.cons.inj hpath
        rw [lookup_cons, Option.bind_eq_some_iff] at hbase hupper
        obtain ⟨below, hbelow, hbase⟩ := hbase
        obtain ⟨above, habove, hupper⟩ := hupper
        exact .inr ⟨below, above, hbelow, habove, front, name, back, lower', entries', rfl, hbase,
          hupper, hname⟩
  · rintro (hnone | ⟨below, above, hbelow, habove, front, name, back, lower', entries', rfl, hbase,
      hupper, hname⟩)
    · exact ⟨[], key, path, lower, entries, rfl, rfl, rfl, hnone⟩
    · refine ⟨key :: front, name, back, lower', entries', rfl, ?_, ?_, hname⟩
      · rwa [lookup_cons, hbelow]
      · rwa [lookup_cons, habove]

-- What there is at a path when one value is laid over another: a value that is no mapping, or a
-- mapping with none below it, as it is above; two mappings merged, the keys of the lower one
-- first; what is below, where the upper one has nothing to say; and else nothing.
structure MergedAt (base upper merged : Setting) (path : List Key) : Prop where
  value : ∀ v, lookup path upper = some v → ¬v.IsMapping → lookup path merged = some v
  alone : ∀ entries, lookup path upper = some (.obj entries) →
    (∀ lower, lookup path base ≠ some (.obj lower)) → lookup path merged = some (.obj entries)
  both : ∀ lower entries, lookup path base = some (.obj lower) →
    lookup path upper = some (.obj entries) → lookup path merged = some (.obj (merge lower entries))
  order : ∀ lower entries, lookup path base = some (.obj lower) →
    lookup path upper = some (.obj entries) → Entries.keys (merge lower entries) =
      Entries.keys lower ++ (Entries.keys entries).filter (· ∉ Entries.keys lower)
  missing : Missing base upper path → lookup path merged = lookup path base
  absent : lookup path upper = none → ¬Missing base upper path → lookup path merged = none

-- Where the result has what the upper value has, there are no two mappings that could be merged.
theorem MergedAt.of_upper (heq : lookup path merged = lookup path upper)
    (hboth : ∀ lower entries, lookup path base = some (.obj lower) →
      lookup path upper ≠ some (.obj entries))
    (hmissing : ¬Missing base upper path) : MergedAt base upper merged path where
  value _ hv _ := heq.trans hv
  alone _ hentries _ := heq.trans hentries
  both _ _ hlower hentries := absurd hentries (hboth _ _ hlower)
  order _ _ hlower hentries := absurd hentries (hboth _ _ hlower)
  missing h := absurd h hmissing
  absent hnone _ := heq.trans hnone

theorem MergedAt.cons {below above : Setting} (hbelow : Entries.get? key lower = some below)
    (habove : Entries.get? key entries = some above) (hkeys : (Entries.keys entries).Nodup)
    (h : MergedAt below above (mergeValue (some below) above) path) :
    MergedAt (.obj lower) (.obj entries) (.obj (merge lower entries)) (key :: path) := by
  have hmissing : Missing (.obj lower) (.obj entries) (key :: path) ↔ Missing below above path := by
    simp [missing_cons_iff, hbelow, habove]
  have hbase : lookup (key :: path) (.obj lower) = lookup path below := by
    rw [lookup_cons, hbelow, Option.bind_some]
  have hupper : lookup (key :: path) (.obj entries) = lookup path above := by
    rw [lookup_cons, habove, Option.bind_some]
  have hmerged : lookup (key :: path) (.obj (merge lower entries)) =
      lookup path (mergeValue (some below) above) := by
    rw [lookup_cons, get?_merge lower hkeys, hbelow, habove, overlay_some, Option.bind_some]
  constructor
  all_goals simp only [hmissing, hbase, hupper, hmerged]
  exacts [h.value, h.alone, h.both, h.order, h.missing, h.absent]

-- Of two values that are not both mappings, nothing below is left.
theorem mergedAt_of_not_both
    (hboth : ∀ lower entries, base = .obj lower → upper ≠ .obj entries) (path : List Key) :
    MergedAt base upper upper path := by
  have hno : ∀ {front lower entries}, lookup front base = some (.obj lower) →
      lookup front upper ≠ some (.obj entries) := by
    intro front lower entries hlower hentries
    obtain ⟨lower, rfl⟩ := isMapping_of_lookup hlower
    obtain ⟨entries, rfl⟩ := isMapping_of_lookup hentries
    exact hboth lower entries rfl rfl
  refine .of_upper rfl (fun _ _ => hno) ?_
  rintro ⟨front, key, back, lower, entries, -, hlower, hentries, -⟩
  exact hno hlower hentries

theorem mergedAt_nil (hkeys : (Entries.keys entries).Nodup) :
    MergedAt (.obj lower) (.obj entries) (.obj (merge lower entries)) [] where
  value := by
    rintro v ⟨⟩ hv
    exact absurd (Setting.isMapping_obj entries) hv
  alone _ _ hlower := absurd rfl (hlower lower)
  both := by
    rintro _ _ ⟨⟩ ⟨⟩
    rfl
  order := by
    rintro _ _ ⟨⟩ ⟨⟩
    exact keys_merge lower hkeys
  missing h := absurd h not_missing_nil
  absent h := nomatch h

theorem mergedAt_cons_of_none (hnone : Entries.get? key entries = none)
    (hkeys : (Entries.keys entries).Nodup) :
    MergedAt (.obj lower) (.obj entries) (.obj (merge lower entries)) (key :: path) := by
  have hupper : lookup (key :: path) (.obj entries) = none := by
    rw [lookup_cons, hnone, Option.bind_none]
  have hmissing : Missing (.obj lower) (.obj entries) (key :: path) :=
    missing_cons_iff.mpr (.inl hnone)
  constructor
  case missing =>
    intro _
    rw [lookup_cons, get?_merge lower hkeys, hnone, overlay_none, ← lookup_cons]
  all_goals simp [hupper, hmissing]

theorem mergedAt_cons_of_new {above : Setting} (hbelow : Entries.get? key lower = none)
    (habove : Entries.get? key entries = some above) (hkeys : (Entries.keys entries).Nodup) :
    MergedAt (.obj lower) (.obj entries) (.obj (merge lower entries)) (key :: path) := by
  have hbase : lookup (key :: path) (.obj lower) = none := by
    rw [lookup_cons, hbelow, Option.bind_none]
  refine .of_upper ?_ (by simp [hbase]) (by simp [missing_cons_iff, hbelow, habove])
  rw [lookup_cons, get?_merge lower hkeys, hbelow, habove, overlay_some,
    mergeValue_of_no_mapping (by simp), lookup_cons, habove]

theorem mergedAt (base : Setting) (hupper : upper.Distinct) (path : List Key) :
    MergedAt base upper (mergeValue (some base) upper) path := by
  induction path generalizing base upper with
  | nil =>
      obtain ⟨lower, entries, ⟨⟩, rfl⟩ | ⟨hboth, hmerged⟩ := mergeValue_cases (some base) upper
      · rw [mergeValue_obj]
        exact mergedAt_nil hupper.keys
      · rw [hmerged]
        exact mergedAt_of_not_both (fun _ _ hbase => hboth _ _ (congrArg some hbase)) []
  | cons key path ih =>
      obtain ⟨lower, entries, ⟨⟩, rfl⟩ | ⟨hboth, hmerged⟩ := mergeValue_cases (some base) upper
      · rw [mergeValue_obj]
        cases habove : Entries.get? key entries with
        | none => exact mergedAt_cons_of_none habove hupper.keys
        | some above =>
            cases hbelow : Entries.get? key lower with
            | none => exact mergedAt_cons_of_new hbelow habove hupper.keys
            | some below => exact .cons hbelow habove hupper.keys (ih below (hupper.of_get? habove))
      · rw [hmerged]
        exact mergedAt_of_not_both (fun _ _ hbase => hboth _ _ (congrArg some hbase)) _

-- Laying a mapping over another, path by path; and the same with mappings as objects, of which
-- the two and what they hold may be shared in any way: a new one comes of it that means this, and
-- none of those that were there has changed.
theorem merge_by_paths (base : Entries Key Setting) {upper : Entries Key Setting}
    (h : (Setting.obj upper).Distinct) :
    (∀ path, MergedAt (.obj base) (.obj upper) (.obj (merge base upper)) path) ∧
    ∀ (s : Store) (below above bound : Nat), (Setting.obj upper).nesting ≤ bound →
      Store.Means (s.view []) (.mapping below) (.obj base) →
      Store.Means (s.view []) (.mapping above) (.obj upper) →
      ∃ place t, s.merge bound below above = some (place, t) ∧ s.Kept t [] ∧
        Store.Means (t.view []) (.mapping place) (.obj (merge base upper)) := by
  constructor
  · intro path
    have hmerged := mergedAt (.obj base) h path
    rwa [mergeValue_obj] at hmerged
  · intro s below above bound hbound hbelow habove
    exact Store.merges bound s [] below above base upper (by simp) hbelow habove hbound

-- The upper mapping takes another mapping for its log that the lower one has for its engine,
-- where a setting is replaced.
private def defaults : Entries Key Setting :=
  [("engine", .obj [("program", .str "pandoc"), ("timeout", .int 5)]), ("log", .null)]

private def changes : Entries Key Setting :=
  [("log", .obj [("program", .str "pandoc"), ("timeout", .int 5)]),
    ("engine", .obj [("timeout", .int 30)])]

private def shared : Store :=
  ⟨[[("program", .value (.str "pandoc")), ("timeout", .value (.int 5))],
    [("engine", .mapping 0), ("log", .value .null)],
    [("timeout", .value (.int 30))],
    [("log", .mapping 0), ("engine", .mapping 2)]]⟩

theorem merge_by_paths_shared : (Setting.obj changes).Distinct ∧
    lookup ["engine", "program"] (.obj (merge defaults changes)) = some (.str "pandoc") ∧
    lookup ["engine", "timeout"] (.obj (merge defaults changes)) = some (.int 30) ∧
    lookup ["log", "timeout"] (.obj (merge defaults changes)) = some (.int 5) ∧
    ∃ place t, shared.merge 2 1 3 = some (place, t) ∧ shared.Kept t [] ∧
      Store.Means (t.view []) (.mapping place) (.obj
        [("engine", .obj [("program", .str "pandoc"), ("timeout", .int 30)]),
          ("log", .obj [("program", .str "pandoc"), ("timeout", .int 5)])]) := by
  have hdistinct : (Setting.obj changes).Distinct := by
    simp [changes, distinct_obj_iff, Distinct.value, IsMapping, Entries.keys]
  obtain ⟨hpaths, hstore⟩ := merge_by_paths defaults hdistinct
  have hthirty : Store.Means (shared.view []) (.value (.int 30)) (.int 30) :=
    .value (by simp [IsMapping])
  have hfive : Store.Means (shared.view []) (.value (.int 5)) (.int 5) :=
    .value (by simp [IsMapping])
  have hprogram : Store.Means (shared.view []) (.value (.str "pandoc")) (.str "pandoc") :=
    .value (by simp [IsMapping])
  have hnull : Store.Means (shared.view []) (.value .null) .null :=
    .value (by simp [IsMapping])
  have hengine : Store.Means (shared.view []) (.mapping 0)
      (.obj [("program", .str "pandoc"), ("timeout", .int 5)]) :=
    .mapping rfl (.cons _ hprogram (.cons _ hfive .nil))
  have hchange : Store.Means (shared.view []) (.mapping 2) (.obj [("timeout", .int 30)]) :=
    .mapping rfl (.cons _ hthirty .nil)
  refine ⟨hdistinct, ?_, ?_, ?_, ?_⟩
  · rw [(hpaths ["engine", "program"]).missing
      ⟨["engine"], "program", [], _, _, rfl, rfl, rfl, by decide⟩]
    rfl
  · exact (hpaths ["engine", "timeout"]).value _ rfl (by simp [IsMapping])
  · exact (hpaths ["log", "timeout"]).value _ rfl (by simp [IsMapping])
  · obtain ⟨place, t, hresult, hkept, hmeans⟩ := hstore shared 1 3 2 (by decide)
      (.mapping rfl (.cons _ hengine (.cons _ hnull .nil)))
      (.mapping rfl (.cons _ hengine (.cons _ hchange .nil)))
    exact ⟨place, t, hresult, hkept, hmeans⟩

end Dialect.Config
