import Dialect.Config.Setting
import Dialect.Proofs.Json.Structure
import Dialect.Proofs.Json.Valid

namespace Dialect.Setting

-- A value that holds no other values.
def Scalar : Setting → Prop
  | .arr _ => False
  | .obj _ => False
  | _ => True

-- Induction over a value: a list has the property if all its items have it, a mapping if the
-- values of all its keys have it.
@[elab_as_elim]
theorem induction {P : Setting → Prop} (scalar : ∀ v : Setting, v.Scalar → P v)
    (arr : ∀ items, (∀ a ∈ items, P a) → P (.arr items))
    (obj : ∀ entries, (∀ p ∈ entries, P p.2) → P (.obj entries)) (v : Setting) : P v := by
  refine @Setting.rec P (fun items => ∀ a ∈ items, P a) (fun entries => ∀ p ∈ entries, P p.2)
    (fun p => P p.2) (scalar _ trivial) (fun _ => scalar _ trivial) (fun _ => scalar _ trivial)
    (fun _ => scalar _ trivial) (fun _ => scalar _ trivial) arr obj (fun _ => scalar _ trivial)
    ?_ ?_ ?_ ?_ ?_ v
  · simp
  · exact fun a rest ha hrest => List.forall_mem_cons.mpr ⟨ha, hrest⟩
  · simp
  · exact fun p rest hp hrest => List.forall_mem_cons.mpr ⟨hp, hrest⟩
  · exact fun key a ha => ha

-- A value that is a mapping.
def IsMapping (v : Setting) : Prop :=
  ∃ entries, v = .obj entries

-- The keys of a mapping are distinct, and so are those of the mappings in it, at every depth.
-- Lists are not looked into.
inductive Distinct : Setting → Prop
  | mapping {entries : List (Key × Setting)} (keys : (Entries.keys entries).Nodup)
      (values : ∀ p ∈ entries, Distinct p.2) : Distinct (.obj entries)
  | value {v : Setting} (h : ¬v.IsMapping) : Distinct v

variable {entries : List (Key × Setting)} {key : Key} {a : Setting}

@[simp] theorem isMapping_obj (entries : List (Key × Setting)) : IsMapping (.obj entries) :=
  ⟨entries, rfl⟩

theorem distinct_obj_iff : Distinct (.obj entries) ↔
    (Entries.keys entries).Nodup ∧ ∀ p ∈ entries, p.2.Distinct := by
  constructor
  · intro h
    cases h with
    | mapping keys values => exact ⟨keys, values⟩
    | value h => exact absurd (isMapping_obj entries) h
  · rintro ⟨keys, values⟩
    exact .mapping keys values

theorem Distinct.keys (h : Distinct (.obj entries)) : (Entries.keys entries).Nodup :=
  (distinct_obj_iff.mp h).1

theorem Distinct.of_get? (h : Distinct (.obj entries)) (hget : Entries.get? key entries = some a) :
    a.Distinct :=
  (distinct_obj_iff.mp h).2 _ (Entries.mem_of_get? hget)

theorem Distinct.of_member? {v : Setting} (h : v.Distinct) (hmember : v.member? key = some a) :
    a.Distinct := by
  cases v with
  | obj entries => exact h.of_get? hmember
  | _ => cases hmember

theorem Distinct.put (h : Distinct (.obj entries)) (ha : a.Distinct) :
    Distinct (.obj (Entries.put key a entries)) := by
  obtain ⟨hkeys, hvalues⟩ := distinct_obj_iff.mp h
  refine .mapping (Entries.nodup_keys_put hkeys key a) fun p hp => ?_
  obtain rfl | hp := Entries.mem_put hp
  · exact ha
  · exact hvalues p hp

theorem distinct_nil : Distinct (.obj []) :=
  distinct_obj_iff.mpr ⟨List.nodup_nil, by simp⟩

theorem distinct_arr (items : List Setting) : Distinct (.arr items) :=
  .value (by rintro ⟨entries, h⟩; cases h)

theorem Scalar.distinct {v : Setting} (h : v.Scalar) : v.Distinct := by
  refine .value ?_
  rintro ⟨entries, rfl⟩
  exact h

section Json

theorem ofJsonMembers_eq (entries : List (Text × Json)) :
    ofJsonMembers entries = entries.map fun p => (.text p.1, ofJson p.2) := by
  induction entries with
  | nil => rfl
  | cons p rest ih => rw [ofJsonMembers, ih, List.map_cons]

theorem scalar_ofJson {j : Json} (h : j.Scalar) : (ofJson j).Scalar := by
  cases j <;> trivial

-- What is read from a JSON text is distinct.
theorem distinct_ofJson (j : Json) (h : j.Valid) : (ofJson j).Distinct := by
  induction j using Json.induction with
  | scalar j hj => exact (scalar_ofJson hj).distinct
  | arr items _ => exact distinct_arr _
  | obj entries ih =>
      have hmembers := (Json.validMembers_iff entries).mp h.2
      rw [ofJson, ofJsonMembers_eq]
      refine .mapping ?_ fun p hp => ?_
      · rw [Entries.keys, List.map_map]
        have hnames := h.1
        rw [Entries.keys] at hnames
        rw [show (Prod.fst ∘ fun p : Text × Json => (Key.text p.1, ofJson p.2)) =
          Key.text ∘ Prod.fst from rfl, ← List.map_map]
        exact hnames.map fun _ _ => Key.text.inj
      · obtain ⟨q, hq, rfl⟩ := List.mem_map.mp hp
        exact ih q hq (hmembers q hq)

end Json

end Dialect.Setting
