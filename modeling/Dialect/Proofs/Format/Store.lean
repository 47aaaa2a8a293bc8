import Dialect.Format.Store
import Mathlib.Data.List.Basic

namespace Dialect.Format.Store

-- The store of some resolved formats, in which the object with each number has the parts with
-- the same number. Making and changing objects leads from one such store to another, so
-- no two objects ever have a part in common.
def layout (rs : List Resolved) : Store where
  bodies := rs.mapIdx fun i r => ⟨r.baseName, r.fullName, i, i⟩
  maps := rs.map Resolved.extensions
  remarks := rs.mapIdx fun i r => ⟨r.warnings.invalidFormat, i⟩
  names := rs.map fun r => r.warnings.invalidOptions

theorem read?_layout (rs : List Resolved) (object : Nat) :
    (layout rs).read? object = rs[object]? := by
  cases h : rs[object]? <;> simp [read?, layout, h]

theorem make_layout (rs : List Resolved) (r : Resolved) :
    (layout rs).make r = (rs.length, layout (rs ++ [r])) := by
  simp [make, layout, List.mapIdx_append]

theorem copy_layout {rs : List Resolved} {object : Nat} {r : Resolved}
    (h : rs[object]? = some r) :
    (layout rs).copy object = (rs.length, layout (rs ++ [r])) := by
  rw [copy, read?_layout, h]
  exact make_layout rs r

-- A change of an object is a change of the one resolved format that it stands for.
theorem edit_layout (rs : List Resolved) (object : Nat) (e : Edit) :
    (layout rs).edit object e = layout (rs.modify object e.apply) := by
  cases h : rs[object]? with
  | none =>
      have hlength : rs.length ≤ object := List.getElem?_eq_none_iff.mp h
      rw [List.modify_eq_self hlength]
      simp [edit, layout, h]
  | some r =>
      have hbody : (layout rs).bodies[object]? =
          some ⟨r.baseName, r.fullName, object, object⟩ := by simp [layout, h]
      have hremarks : (layout rs).remarks[object]? =
          some ⟨r.warnings.invalidFormat, object⟩ := by simp [layout, h]
      simp only [edit, hbody, hremarks]
      simp only [layout, mk.injEq]
      refine ⟨?_, ?_, ?_, ?_⟩
      all_goals
        apply List.ext_getElem?
        intro i
        by_cases hi : object = i
        · subst i
          simp [h, Edit.apply]
        · simp [hi]

end Dialect.Format.Store
