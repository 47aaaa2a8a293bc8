import Dialect.Entries
import Mathlib.Data.List.Induction
import Mathlib.Data.List.Nodup

namespace Dialect.Entries

variable {κ α β : Type} [DecidableEq κ]

-- The value that the last pair with a key has, if there is such a pair.
def last? (key : κ) (pairs : List (κ × α)) : Option α :=
  ((pairs.filter fun p => p.1 = key).getLast?).map Prod.snd

theorem last?_append_singleton (key : κ) (pairs : List (κ × α)) (p : κ × α) :
    last? key (pairs ++ [p]) = if p.1 = key then some p.2 else last? key pairs := by
  by_cases h : p.1 = key <;> simp [last?, List.filter_append, h]

theorem get?_put (key other : κ) (value : α) (m : Entries κ α) :
    get? other (put key value m) = if key = other then some value else get? other m := by
  induction m with
  | nil => simp [put, get?]
  | cons entry rest ih =>
      rcases entry with ⟨name, old⟩
      by_cases hn : name = key
      · subst name
        simp only [put, if_true, get?]
        split <;> rfl
      · simp only [put, hn, if_false, get?, ih]
        by_cases ho : name = other
        · have hk : ¬key = other := fun h => hn (ho.trans h.symm)
          simp [ho, hk]
        · simp [ho]

theorem keys_put (key : κ) (value : α) (m : Entries κ α) :
    keys (put key value m) = if key ∈ keys m then keys m else keys m ++ [key] := by
  induction m with
  | nil => simp [put, keys]
  | cons entry rest ih =>
      rcases entry with ⟨name, old⟩
      by_cases hn : name = key
      · simp [put, keys, hn]
      · have hk : ¬key = name := Ne.symm hn
        simp only [keys] at ih
        by_cases hr : key ∈ rest.map Prod.fst
        · simp only [put, hn, if_false, keys, List.map_cons, List.mem_cons, hk, false_or, hr,
            if_true, ih]
        · simp only [put, hn, if_false, keys, List.map_cons, List.mem_cons, hk, false_or, hr,
            ih, List.cons_append]

theorem mem_keys_iff (key : κ) (m : Entries κ α) : key ∈ keys m ↔ (get? key m).isSome := by
  induction m with
  | nil => simp [keys, get?]
  | cons entry rest ih =>
      rcases entry with ⟨name, old⟩
      by_cases hn : name = key
      · simp [keys, get?, hn]
      · have hk : ¬key = name := Ne.symm hn
        simpa [keys, get?, hn, hk] using ih

theorem mem_of_get? {key : κ} {value : α} {m : Entries κ α} (h : get? key m = some value) :
    (key, value) ∈ m := by
  induction m with
  | nil => simp [get?] at h
  | cons entry rest ih =>
      rcases entry with ⟨name, old⟩
      by_cases hn : name = key
      · simp [get?, hn] at h
        simp [hn, h]
      · simp only [get?, hn, if_false] at h
        exact List.mem_cons_of_mem _ (ih h)

theorem get?_eq_none_iff (key : κ) (m : Entries κ α) : get? key m = none ↔ key ∉ keys m := by
  simp [mem_keys_iff]

theorem get?_of_mem {key : κ} {value : α} {m : Entries κ α} (hnodup : (keys m).Nodup)
    (h : (key, value) ∈ m) : get? key m = some value := by
  induction m with
  | nil => cases h
  | cons entry rest ih =>
      obtain ⟨hnotMem, hrest⟩ := List.nodup_cons.mp hnodup
      obtain rfl | h := List.mem_cons.mp h
      · simp [get?]
      · have hkey : entry.1 ≠ key := by
          rintro rfl
          exact hnotMem (List.mem_map.mpr ⟨_, h, rfl⟩)
        simp only [get?, hkey, if_false, ih hrest h]

theorem keys_put_of_mem {key : κ} {m : Entries κ α} (h : key ∈ keys m) (value : α) :
    keys (put key value m) = keys m := by
  simp [keys_put, h]

theorem put_of_notMem {key : κ} {m : Entries κ α} (h : key ∉ keys m) (value : α) :
    put key value m = m ++ [(key, value)] := by
  induction m with
  | nil => rfl
  | cons entry rest ih =>
      rcases entry with ⟨name, old⟩
      simp only [keys, List.map_cons, List.mem_cons, not_or] at h
      simp only [put, Ne.symm h.1, if_false, ih h.2, List.cons_append]

theorem nodup_keys_put {m : Entries κ α} (h : (keys m).Nodup) (key : κ) (value : α) :
    (keys (put key value m)).Nodup := by
  rw [keys_put]
  split
  · exact h
  · rename_i hk
    simpa only [List.concat_eq_append] using h.concat hk

theorem putAll_append_singleton (m : Entries κ α) (pairs : List (κ × α)) (p : κ × α) :
    putAll m (pairs ++ [p]) = put p.1 p.2 (putAll m pairs) := by
  simp [putAll]

-- Writing pairs over a map: the last one counts, and the map stands behind all of them.
theorem get?_putAll (key : κ) (m : Entries κ α) (pairs : List (κ × α)) :
    get? key (putAll m pairs) = (last? key pairs).or (get? key m) := by
  induction pairs using List.reverseRecOn with
  | nil => simp [putAll, last?]
  | append_singleton pairs p ih =>
      rw [putAll_append_singleton, get?_put, last?_append_singleton, ih]
      split <;> simp

-- Writing under keys that are there moves nothing.
theorem keys_putAll_of_subset {m : Entries κ α} {pairs : List (κ × α)}
    (h : ∀ p ∈ pairs, p.1 ∈ keys m) : keys (putAll m pairs) = keys m := by
  induction pairs using List.reverseRecOn with
  | nil => rfl
  | append_singleton pairs p ih =>
      have hp := ih fun q hq => h q (List.mem_append_left [p] hq)
      rw [putAll_append_singleton, keys_put_of_mem _ p.2, hp]
      rw [hp]
      exact h p (by simp)

theorem nodup_keys_putAll {m : Entries κ α} (h : (keys m).Nodup) (pairs : List (κ × α)) :
    (keys (putAll m pairs)).Nodup := by
  induction pairs using List.reverseRecOn with
  | nil => exact h
  | append_singleton pairs p ih =>
      rw [putAll_append_singleton]
      exact nodup_keys_put ih p.1 p.2

theorem nodup_keys_ofPairs (pairs : List (κ × α)) : (keys (ofPairs pairs)).Nodup :=
  nodup_keys_putAll (m := []) List.nodup_nil pairs

theorem mem_put {key : κ} {value : α} {m : Entries κ α} {p : κ × α}
    (h : p ∈ put key value m) : p = (key, value) ∨ p ∈ m := by
  induction m with
  | nil => exact .inl (List.mem_singleton.mp h)
  | cons entry rest ih =>
      simp only [put] at h
      split at h
      · simp only [List.mem_cons] at h ⊢
        tauto
      · cases List.mem_cons.mp h with
        | inl h => exact .inr (h ▸ List.mem_cons_self)
        | inr h => exact (ih h).imp_right (List.mem_cons_of_mem _)

theorem mem_putAll {m : Entries κ α} {pairs : List (κ × α)} {p : κ × α}
    (h : p ∈ putAll m pairs) : p ∈ m ∨ p ∈ pairs := by
  induction pairs using List.reverseRecOn with
  | nil => exact .inl h
  | append_singleton pairs q ih =>
      rw [putAll_append_singleton] at h
      cases mem_put h with
      | inl h => exact .inr (by simp [h])
      | inr h => exact (ih h).imp_right (List.mem_append_left [q])

-- Where a pair is written is a matter of its key alone, so values may be changed before or after.
theorem put_map (f : α → β) (key : κ) (value : α) (m : Entries κ α) :
    put key (f value) (m.map (Prod.map id f)) = (put key value m).map (Prod.map id f) := by
  induction m with
  | nil => rfl
  | cons entry rest ih =>
      rcases entry with ⟨name, old⟩
      by_cases hn : name = key
      · simp [put, hn]
      · simp [put, hn, ih]

theorem ofPairs_map (f : α → β) (pairs : List (κ × α)) :
    ofPairs (pairs.map (Prod.map id f)) = (ofPairs pairs).map (Prod.map id f) := by
  induction pairs using List.reverseRecOn with
  | nil => rfl
  | append_singleton pairs p ih =>
      have hpairs : putAll [] (pairs.map (Prod.map id f)) =
          (putAll [] pairs).map (Prod.map id f) := ih
      rw [ofPairs, ofPairs, List.map_append, List.map_singleton, putAll_append_singleton,
        putAll_append_singleton, hpairs]
      exact put_map f p.1 p.2 (putAll [] pairs)

-- Pairs with distinct keys are a map as they stand.
theorem ofPairs_of_nodup {pairs : List (κ × α)} (h : (keys pairs).Nodup) :
    ofPairs pairs = pairs := by
  induction pairs using List.reverseRecOn with
  | nil => rfl
  | append_singleton pairs p ih =>
      simp only [keys, List.map_append, List.map_cons, List.map_nil] at h
      obtain ⟨hpairs, -, hp⟩ := List.nodup_append.mp h
      have hnew : p.1 ∉ keys pairs := fun hmem => hp p.1 hmem p.1 (by simp) rfl
      have hold : putAll [] pairs = pairs := ih hpairs
      rw [ofPairs, putAll_append_singleton, hold, put_of_notMem hnew]

-- A map is what it has under each key, together with the order of its keys.
theorem ext_of_keys {m n : Entries κ α} (hnodup : (keys m).Nodup) (hkeys : keys m = keys n)
    (h : ∀ key, get? key m = get? key n) : m = n := by
  induction m generalizing n with
  | nil => exact (List.map_eq_nil_iff.mp hkeys.symm).symm
  | cons entry rest ih =>
      obtain ⟨name, v⟩ := entry
      obtain ⟨⟨name', v'⟩, rest', rfl⟩ : ∃ entry' rest', n = entry' :: rest' :=
        List.exists_cons_of_ne_nil (by rintro rfl; simp [keys] at hkeys)
      obtain ⟨rfl, hrest⟩ : name = name' ∧ keys rest = keys rest' := List.cons.inj hkeys
      obtain ⟨hname, hnodup⟩ := List.nodup_cons.mp hnodup
      obtain rfl : v = v' := by simpa [get?] using h name
      refine congrArg _ (ih hnodup hrest fun key => ?_)
      by_cases hkey : name = key
      · subst hkey
        have hname' : name ∉ keys rest' := hrest ▸ hname
        rw [(get?_eq_none_iff name rest).mpr hname, (get?_eq_none_iff name rest').mpr hname']
      · simpa [get?, hkey] using h key

end Dialect.Entries
