import Dialect.Json.Basic
import Dialect.Proofs.Entries

namespace Dialect.Json

-- A value that holds no other values.
def Scalar : Json → Prop
  | .arr _ => False
  | .obj _ => False
  | _ => True

-- Induction over a value: a list has the property if all its items have it, an object if the
-- values of all its members have it.
@[elab_as_elim]
theorem induction {P : Json → Prop} (scalar : ∀ j : Json, j.Scalar → P j)
    (arr : ∀ items, (∀ a ∈ items, P a) → P (.arr items))
    (obj : ∀ entries, (∀ p ∈ entries, P p.2) → P (.obj entries)) (j : Json) : P j := by
  refine @Json.rec P (fun items => ∀ a ∈ items, P a) (fun entries => ∀ p ∈ entries, P p.2)
    (fun p => P p.2) (scalar _ trivial) (fun _ => scalar _ trivial) (fun _ => scalar _ trivial)
    (fun _ => scalar _ trivial) (fun _ => scalar _ trivial) arr obj ?_ ?_ ?_ ?_ ?_ j
  · simp
  · exact fun a rest ha hrest => List.forall_mem_cons.mpr ⟨ha, hrest⟩
  · simp
  · exact fun p rest hp hrest => List.forall_mem_cons.mpr ⟨hp, hrest⟩
  · exact fun name a ha => ha

mutual

-- Equal but for the order in which the members of objects come.
inductive Same : Json → Json → Prop
  | refl (a : Json) : Same a a
  | arr {as bs : List Json} (h : SameItems as bs) : Same (.arr as) (.arr bs)
  | obj {as bs cs : List (Text × Json)} (h : SameMembers as cs) (order : cs.Perm bs) :
      Same (.obj as) (.obj bs)

inductive SameItems : List Json → List Json → Prop
  | nil : SameItems [] []
  | cons {a b : Json} {as bs : List Json} (head : Same a b) (tail : SameItems as bs) :
      SameItems (a :: as) (b :: bs)

inductive SameMembers : List (Text × Json) → List (Text × Json) → Prop
  | nil : SameMembers [] []
  | cons {a b : Json} {as bs : List (Text × Json)} (name : Text) (head : Same a b)
      (tail : SameMembers as bs) : SameMembers ((name, a) :: as) ((name, b) :: bs)

end

theorem SameItems.refl (items : List Json) : SameItems items items := by
  induction items with
  | nil => exact .nil
  | cons a rest ih => exact .cons (.refl a) ih

theorem SameMembers.refl (entries : List (Text × Json)) : SameMembers entries entries := by
  induction entries with
  | nil => exact .nil
  | cons p rest ih => exact .cons p.1 (.refl p.2) ih

theorem Same.items {as bs : List Json} (h : Same (.arr as) (.arr bs)) : SameItems as bs := by
  cases h with
  | refl => exact .refl as
  | arr h => exact h

theorem SameMembers.exists_of_mem {as bs : List (Text × Json)} (h : SameMembers as bs)
    {p : Text × Json} (hp : p ∈ bs) : ∃ a, (p.1, a) ∈ as ∧ Same a p.2 := by
  induction bs generalizing as with
  | nil => cases hp
  | cons q rest ih =>
      cases h with
      | cons name head tail =>
          obtain rfl | hp := List.mem_cons.mp hp
          · exact ⟨_, List.mem_cons_self, head⟩
          · obtain ⟨a, ha, hsame⟩ := ih tail hp
            exact ⟨a, List.mem_cons_of_mem _ ha, hsame⟩

-- Every member of an object has its counterpart, wherever that stands.
theorem Same.exists_of_mem {as bs : List (Text × Json)} (h : Same (.obj as) (.obj bs))
    {p : Text × Json} (hp : p ∈ bs) : ∃ a, (p.1, a) ∈ as ∧ Same a p.2 := by
  cases h with
  | refl => exact ⟨p.2, hp, .refl _⟩
  | obj h order => exact h.exists_of_mem (order.mem_iff.mpr hp)

theorem Same.eq_null {a : Json} (h : Same a .null) : a = .null := by
  cases h
  rfl

end Dialect.Json
