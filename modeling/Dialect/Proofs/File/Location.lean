import Dialect.Proofs.File.Tree

namespace Dialect

namespace Path

theorem settleParts_append (done front back : List String) :
    settleParts done (front ++ back) = settleParts (settleParts done front) back := by
  induction front generalizing done with
  | nil => rfl
  | cons part rest ih => exact ih _

theorem exists_eq_append_name {p : Path} (h : p.parts ≠ []) :
    ∃ front, p.parts = front ++ [p.name] := by
  obtain ⟨front, last, hparts⟩ := (List.eq_nil_or_concat p.parts).resolve_left h
  exact ⟨front, by simp [name, hparts]⟩

-- A path keeps its name when it is settled, unless the name leads out of the directory.
theorem name_settle (cwd : Path) {p : Path} (h : p.parts ≠ []) (hname : p.name ≠ "..") :
    (settle cwd p).name = p.name := by
  obtain ⟨front, hparts⟩ := exists_eq_append_name h
  rw [name, settle, hparts, settleParts_append, settleParts, if_neg hname]
  simp [settleParts]

end Path

namespace FileTree

variable {t : FileTree} {cwd p : Path} {l l' : Location} {part : String} {parts : List String}
  {node : FileNode} {bytes : List UInt8}

theorem follow_cons_eq_ok_iff : t.follow l (part :: parts) = .ok l' ↔
    t.node? l = some .directory ∧ isTooLong part = false ∧
      t.follow (if part = ".." then l.dropLast else l ++ [part]) parts = .ok l' := by
  rw [follow]
  cases hnode : t.node? l with
  | none => simp
  | some node =>
      cases node with
      | file bytes => simp
      | directory => cases hlong : isTooLong part <;> simp

-- Where a path leads, it leads by its parts alone.
theorem follow_eq_ok (h : t.follow l parts = .ok l') : l' = Path.settleParts l parts := by
  induction parts generalizing l with
  | nil => exact (Except.ok.inj h).symm
  | cons part rest ih => exact ih (follow_cons_eq_ok_iff.mp h).2.2

-- A place that its own parts lead to: all places on the way are directories.
inductive Reached (t : FileTree) : Location → Prop
  | root : Reached t []
  | part {l : Location} {name : String} (parent : Reached t l)
      (directory : t.node? l = some .directory) (short : isTooLong name = false)
      (plain : name ≠ "..") : Reached t (l ++ [name])

theorem Reached.dropLast (h : t.Reached l) : t.Reached l.dropLast := by
  cases h with
  | root => exact .root
  | part parent _ _ _ => rwa [List.dropLast_concat]

theorem Reached.node?_dropLast (h : t.Reached l) : t.node? l.dropLast = some .directory := by
  cases h with
  | root => rfl
  | part _ directory _ _ => rwa [List.dropLast_concat]

theorem Reached.follow (hl : t.Reached l) (h : t.follow l parts = .ok l') : t.Reached l' := by
  induction parts generalizing l with
  | nil =>
      cases h
      exact hl
  | cons part rest ih =>
      obtain ⟨hdirectory, hshort, hrest⟩ := follow_cons_eq_ok_iff.mp h
      split at hrest
      · exact ih hl.dropLast hrest
      · exact ih (hl.part hdirectory hshort ‹_›) hrest

theorem Reached.follow_self (h : t.Reached l) : t.follow [] l = .ok l := by
  induction h with
  | root => rfl
  | @part l name _ directory short plain ih =>
      rw [follow_append, ih]
      exact follow_cons_eq_ok_iff.mpr ⟨directory, short, by rw [if_neg plain]; rfl⟩

-- A path is followed from the root or from where the directory leads.
theorem exists_start (h : t.locate cwd p = .ok l) : ∃ start, t.Reached start ∧
    start = (if p.isAbsolute then [] else Path.settleParts [] cwd.parts) ∧
      t.follow start p.parts = .ok l := by
  unfold locate at h
  split at h
  · exact ⟨[], .root, (if_pos ‹_›).symm, h⟩
  · cases hcwd : t.follow [] cwd.parts with
    | error e =>
        rw [hcwd] at h
        cases h
    | ok directory =>
        rw [hcwd] at h
        refine ⟨directory, Reached.root.follow hcwd, ?_, h⟩
        rw [if_neg ‹_›]
        exact follow_eq_ok hcwd

theorem locate_eq_ok (h : t.locate cwd p = .ok l) : l = (Path.settle cwd p).parts := by
  obtain ⟨start, -, rfl, hfollow⟩ := exists_start h
  exact follow_eq_ok hfollow

-- Paths that lead somewhere settle alike if they lead to the same place.
theorem settle_eq_iff {q : Path} (hp : t.locate cwd p = .ok l) (hq : t.locate cwd q = .ok l') :
    Path.settle cwd p = Path.settle cwd q ↔ l = l' := by
  rw [locate_eq_ok hp, locate_eq_ok hq]
  exact ⟨fun h => congrArg Path.parts h, fun h => congrArg (Path.mk "/") h⟩

theorem stat_of_settle {q : Path} {node' : FileNode}
    (hsame : Path.settle cwd p = Path.settle cwd q) (hp : t.stat cwd p = .ok node)
    (hq : t.stat cwd q = .ok node') : node = node' := by
  obtain ⟨-, l, hlocate, hnode⟩ := stat_eq_ok_iff.mp hp
  obtain ⟨-, l', hlocate', hnode'⟩ := stat_eq_ok_iff.mp hq
  obtain rfl := (settle_eq_iff hlocate hlocate').mp hsame
  exact Option.some.inj (hnode.symm.trans hnode')

-- A path that ends by leading out of a directory leads to a directory.
theorem name_ne_of_stat (h : t.stat cwd p = .ok (.file bytes)) (hparts : p.parts ≠ []) :
    p.name ≠ ".." := by
  intro hname
  obtain ⟨front, hfront⟩ := Path.exists_eq_append_name hparts
  obtain ⟨-, l, hlocate, hnode⟩ := stat_eq_ok_iff.mp h
  obtain ⟨start, hstart, -, hfollow⟩ := exists_start hlocate
  rw [hfront, hname, follow_append] at hfollow
  cases hbefore : t.follow start front with
  | error e =>
      rw [hbefore] at hfollow
      cases hfollow
  | ok l' =>
      rw [hbefore] at hfollow
      obtain ⟨-, -, hlast⟩ := follow_cons_eq_ok_iff.mp hfollow
      obtain rfl : l'.dropLast = l := by simpa [follow] using hlast
      rw [(hstart.follow hbefore).node?_dropLast] at hnode
      cases hnode

-- Where a path leads, the settled one leads too.
theorem locate_settle (h : t.locate cwd p = .ok l) : t.locate cwd (Path.settle cwd p) = .ok l := by
  obtain ⟨start, hstart, -, hfollow⟩ := exists_start h
  have hroot : (Path.settle cwd p).isAbsolute = true := rfl
  rw [locate, if_pos hroot, ← locate_eq_ok h]
  exact (hstart.follow hfollow).follow_self

end FileTree

end Dialect
