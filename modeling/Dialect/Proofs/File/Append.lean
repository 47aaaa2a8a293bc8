import Dialect.File.Tree
import Mathlib.Tactic.Common

-- Files that are written at their end.

namespace Dialect.FileTree

variable {t t' : FileTree} {l l' : Location} {bytes : List UInt8} {cwd p : Path}

-- What a file holds. What is no file holds nothing.
def content (t : FileTree) (l : Location) : List UInt8 :=
  match t.node? l with
  | some (.file bytes) => bytes
  | _ => []

theorem content_of_node? (h : t.node? l = some (.file bytes)) : t.content l = bytes := by
  rw [content, h]

theorem content_of_none (h : t.node? l = none) : t.content l = [] := by
  rw [content, h]

theorem node?_put (hl : l ≠ []) (n : FileNode) :
    (t.put l n).node? l' = if l' = l then some n else t.node? l' := by
  by_cases hroot : l' = []
  · subst hroot
    rw [if_neg hl.symm]
    rfl
  · simp only [put, node?, hl, hroot, if_false]
    cases hfind : t.nodes.find? fun m => m.1 = l with
    | none =>
        by_cases hself : l' = l
        · subst hself
          simp [hfind]
        · simp [hself, Ne.symm hself]
    | some found =>
        -- the entries keep their places
        have hkeep : ((fun m : Location × FileNode => decide (m.1 = l')) ∘
            fun m => if m.1 = l then (l, n) else m) = fun m => decide (m.1 = l') := by
          funext m
          by_cases hm : m.1 = l <;> simp [hm]
        simp only [Option.map_some, Option.isSome_some, if_true, List.find?_map, hkeep]
        by_cases hself : l' = l
        · subst hself
          have hfound : found.1 = l' := by simpa using List.find?_some hfind
          simp [hfind, hfound]
        · simp only [hself, if_false, Option.map_map]
          refine Option.map_congr fun m hm => ?_
          have hm : m.1 = l' := by simpa using List.find?_some hm
          simp [hm, hself]

-- A file has got some bytes at its end, if need be a new one, and all else is as it was.
structure Appended (t t' : FileTree) (l : Location) (bytes : List UInt8) : Prop where
  node?_self : t'.node? l = some (.file (t.content l ++ bytes))
  node?_of_ne : ∀ l', l' ≠ l → t'.node? l' = t.node? l'

theorem appended_put (hl : l ≠ []) (bytes : List UInt8) :
    Appended t (t.put l (.file (t.content l ++ bytes))) l bytes where
  node?_self := by rw [node?_put hl, if_pos rfl]
  node?_of_ne l' h := by rw [node?_put hl, if_neg h]

theorem ne_nil_of_node? (h : t.node? l ≠ some .directory) : l ≠ [] := by
  rintro rfl
  exact h rfl

theorem appended_append (h : t.node? l = some (.file bytes)) (text : String) :
    Appended t (t.append l text) l (Utf8.encode text) := by
  have hl : l ≠ [] := ne_nil_of_node? (by rw [h]; simp)
  rw [append, h]
  dsimp only
  rw [← content_of_node? h]
  exact appended_put hl _

theorem appended_nil (h : t.node? l = some (.file bytes)) : Appended t t l [] where
  node?_self := by rw [h, content_of_node? h, List.append_nil]
  node?_of_ne _ _ := rfl

theorem openToAppend_of_hasNul (h : p.hasNul = true) :
    t.openToAppend cwd p = .error .nulByte := by
  simp only [openToAppend, find, h, if_true]
  rfl

-- A file that is opened is there from then on.
theorem appended_openToAppend (h : t.openToAppend cwd p = .ok (l, t')) : Appended t t' l [] := by
  unfold openToAppend at h
  cases hfind : t.find cwd p with
  | error e =>
      rw [hfind] at h
      cases h
  | ok place =>
      rw [hfind] at h
      simp only [bind, Except.bind] at h
      cases hnode : t.node? place with
      | some node =>
          rw [hnode] at h
          cases node with
          | directory => cases h
          | file bytes =>
              cases h
              exact appended_nil hnode
      | none =>
          rw [hnode] at h
          cases hparent : t.node? place.dropLast with
          | none =>
              rw [hparent] at h
              cases h
          | some parent =>
              rw [hparent] at h
              cases parent with
              | file bytes => cases h
              | directory =>
                  cases h
                  have hl : l ≠ [] := ne_nil_of_node? (by rw [hnode]; simp)
                  have happended := appended_put (t := t) hl []
                  rwa [content_of_none hnode] at happended

end Dialect.FileTree
