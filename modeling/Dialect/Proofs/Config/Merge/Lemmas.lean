import Dialect.Config.Merge
import Dialect.Proofs.Config.Setting

namespace Dialect.Config

variable {base upper : Entries Key Setting} {key : Key} {v : Setting} {old : Option Setting}

theorem mergeValue_of_not_isMapping (h : ¬v.IsMapping) (old : Option Setting) :
    mergeValue old v = v := by
  cases v with
  | obj entries => exact absurd (Setting.isMapping_obj entries) h
  | _ => rfl

theorem mergeValue_obj (base upper : Entries Key Setting) :
    mergeValue (some (.obj base)) (.obj upper) = .obj (merge base upper) := by
  simp only [mergeValue, merge]

theorem mergeValue_of_no_mapping (h : ∀ entries, old ≠ some (.obj entries)) (v : Setting) :
    mergeValue old v = v := by
  cases v with
  | obj upper =>
      cases old with
      | none => simp only [mergeValue]
      | some j =>
          cases j with
          | obj entries => exact absurd rfl (h entries)
          | _ => simp only [mergeValue]
  | _ => rfl

theorem exists_mapping_or_not (old : Option Setting) :
    (∃ base, old = some (.obj base)) ∨ ∀ base, old ≠ some (.obj base) := by
  by_cases h : ∃ base, old = some (.obj base)
  · exact .inl h
  · exact .inr fun base hold => h ⟨base, hold⟩

-- Two mappings are merged; of any other two values the upper one is left.
theorem mergeValue_cases (old : Option Setting) (v : Setting) :
    (∃ base upper, old = some (.obj base) ∧ v = .obj upper) ∨
      (∀ base upper, old = some (.obj base) → v ≠ .obj upper) ∧ mergeValue old v = v := by
  obtain ⟨base, rfl⟩ | hno := exists_mapping_or_not old
  · by_cases hv : v.IsMapping
    · obtain ⟨upper, rfl⟩ := hv
      exact .inl ⟨base, upper, rfl, rfl⟩
    · exact .inr ⟨fun _ upper _ h => hv ⟨upper, h⟩, mergeValue_of_not_isMapping hv _⟩
  · exact .inr ⟨fun base _ h => absurd h (hno base), mergeValue_of_no_mapping hno v⟩

-- What a key has in two mappings of which one is laid over the other, by what it has in each.
def overlay (old : Option Setting) : Option Setting → Option Setting
  | none => old
  | some v => some (mergeValue old v)

@[simp] theorem overlay_none (old : Option Setting) : overlay old none = old := rfl

@[simp] theorem overlay_some (old : Option Setting) (v : Setting) :
    overlay old (some v) = some (mergeValue old v) := rfl

@[simp] theorem merge_nil (base : Entries Key Setting) : merge base [] = base := by
  simp only [merge, mergeEntries]

theorem merge_cons (base : Entries Key Setting) (key : Key) (v : Setting)
    (rest : Entries Key Setting) :
    merge base ((key, v) :: rest) =
      merge (Entries.put key (mergeValue (Entries.get? key base) v) base) rest := by
  simp only [merge, mergeEntries]

theorem get?_merge (base : Entries Key Setting) (h : (Entries.keys upper).Nodup) (key : Key) :
    Entries.get? key (merge base upper) =
      overlay (Entries.get? key base) (Entries.get? key upper) := by
  induction upper generalizing base with
  | nil => simp [Entries.get?]
  | cons entry rest ih =>
      obtain ⟨name, v⟩ := entry
      obtain ⟨hname, hrest⟩ := List.nodup_cons.mp h
      rw [merge_cons, ih _ hrest, Entries.get?_put]
      by_cases hkey : name = key
      · subst hkey
        have hnone : Entries.get? name rest = none := (Entries.get?_eq_none_iff name rest).mpr hname
        simp [Entries.get?, hnone]
      · simp [Entries.get?, hkey]

-- The keys of the lower mapping stay where they are, and the others of the upper one follow.
theorem keys_merge (base : Entries Key Setting) (h : (Entries.keys upper).Nodup) :
    Entries.keys (merge base upper) =
      Entries.keys base ++ (Entries.keys upper).filter (· ∉ Entries.keys base) := by
  induction upper generalizing base with
  | nil => simp [Entries.keys]
  | cons entry rest ih =>
      obtain ⟨name, v⟩ := entry
      obtain ⟨hname, hrest⟩ := List.nodup_cons.mp h
      have hcons : Entries.keys ((name, v) :: rest) = name :: Entries.keys rest := rfl
      rw [merge_cons, ih _ hrest, Entries.keys_put, hcons, List.filter_cons]
      by_cases hmem : name ∈ Entries.keys base
      · simp [hmem]
      · have hother : (Entries.keys rest).filter (· ∉ Entries.keys base ++ [name]) =
            (Entries.keys rest).filter (· ∉ Entries.keys base) := by
          refine List.filter_congr fun other hother => ?_
          have hne : other ≠ name := fun h => hname (h ▸ hother)
          simp [hne]
        simp only [hmem, if_false, hother]
        simp

theorem nodup_keys_merge (h : (Entries.keys base).Nodup) (upper : Entries Key Setting) :
    (Entries.keys (merge base upper)).Nodup := by
  induction upper generalizing base with
  | nil => simpa using h
  | cons entry rest ih =>
      rw [merge_cons]
      exact ih (Entries.nodup_keys_put h _ _)

theorem lookup_cons (key : Key) (path : List Key) (entries : Entries Key Setting) :
    lookup (key :: path) (.obj entries) = (Entries.get? key entries).bind (lookup path) := by
  simp only [lookup]

theorem lookup_eq_member? (key : Key) (path : List Key) (j : Setting) :
    lookup (key :: path) j = (j.member? key).bind (lookup path) := by
  cases j <;> rfl

theorem lookup_of_not_isMapping (hv : ¬v.IsMapping) (path : List Key) (j : Setting) :
    lookup path v = some j ↔ path = [] ∧ v = j := by
  cases path with
  | nil => simp [lookup]
  | cons key rest =>
      cases v with
      | obj entries => exact absurd (Setting.isMapping_obj entries) hv
      | _ => simp [lookup]

end Dialect.Config
