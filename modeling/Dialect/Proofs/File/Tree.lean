import Dialect.File.Tree
import Dialect.Proofs.Text.Utf8

namespace Dialect

-- A file is read as a text exactly if its bytes are the encoding of one; what is read is that
-- text with one kind of line end.
theorem textOfBytes_eq_ok_iff {bytes : List UInt8} {text : String} :
    textOfBytes bytes = .ok text ↔
      ∃ raw, bytes = Utf8.encode raw ∧ text = String.ofList (Text.unifyNewlines raw.toList) := by
  constructor
  · intro h
    cases hdecode : Utf8.decodeChars bytes with
    | error e =>
        rw [textOfBytes, hdecode] at h
        cases h
    | ok cs =>
        rw [textOfBytes, hdecode] at h
        have hbytes := Utf8.decodeChars_eq_ok_iff.mp hdecode
        refine ⟨String.ofList cs, ?_, ?_⟩
        · rw [Utf8.encode_eq, String.toList_ofList, hbytes]
        · rw [String.toList_ofList]
          exact (Except.ok.inj h).symm
  · rintro ⟨raw, rfl, rfl⟩
    have hdecode := Utf8.decodeChars_eq_ok_iff.mpr (Utf8.encode_eq raw)
    rw [textOfBytes, hdecode]
    rfl

theorem exists_textOfBytes_iff {bytes : List UInt8} :
    (∃ text, textOfBytes bytes = .ok text) ↔ ∃ text, bytes = Utf8.encode text := by
  simp only [textOfBytes_eq_ok_iff]
  constructor
  · rintro ⟨text, raw, hbytes, -⟩
    exact ⟨raw, hbytes⟩
  · rintro ⟨raw, hbytes⟩
    exact ⟨_, raw, hbytes, rfl⟩

namespace Path

variable {p : Path} {name : String}

-- The length of some parts with a separator behind each.
def partsReach : List String → Nat
  | [] => 0
  | part :: rest => part.utf8ByteSize + 1 + partsReach rest

-- The length of the path with a name in it, which every part makes longer.
def reach (p : Path) : Nat :=
  p.root.utf8ByteSize + partsReach p.parts

theorem partsReach_append (parts others : List String) :
    partsReach (parts ++ others) = partsReach parts + partsReach others := by
  induction parts with
  | nil => exact (Nat.zero_add _).symm
  | cons part rest ih =>
      rw [List.cons_append, partsReach, partsReach, ih]
      omega

theorem utf8ByteSize_intercalate_concat (parts : List String) (name : String) :
    ("/".intercalate (parts ++ [name])).utf8ByteSize =
      partsReach parts + name.utf8ByteSize := by
  induction parts with
  | nil => simp [partsReach]
  | cons part rest ih =>
      obtain ⟨next, others, h⟩ := List.exists_cons_of_ne_nil
        (List.append_ne_nil_of_right_ne_nil rest (List.cons_ne_nil name []))
      have hslash : "/".utf8ByteSize = 1 := rfl
      rw [List.cons_append, h, String.intercalate_cons_cons, ← h, String.utf8ByteSize_append,
        String.utf8ByteSize_append, ih, hslash, partsReach]
      omega

theorem utf8ByteSize_text_child (p : Path) (name : String) :
    (p.child name).text.utf8ByteSize = p.reach + name.utf8ByteSize := by
  rw [text, if_neg (by simp [child]), String.utf8ByteSize_append, child,
    utf8ByteSize_intercalate_concat, reach, Nat.add_assoc]

theorem hasNul_child (h : name.toList.contains (Char.ofNat 0) = false) :
    (p.child name).hasNul = p.hasNul := by
  rw [hasNul, hasNul, child, List.any_append, List.any_cons, h, List.any_nil, Bool.or_false,
    Bool.or_false]

theorem reach_le_of_mem_upwards {q : Path} (h : q ∈ p.upwards) : q.reach ≤ p.reach := by
  obtain ⟨n, -, rfl⟩ := List.mem_map.mp h
  refine Nat.add_le_add_left ?_ _
  conv_rhs => rw [← List.take_append_drop (p.parts.length - n) p.parts, partsReach_append]
  exact Nat.le_add_right _ _

end Path

namespace FileTree

variable {t : FileTree} {cwd p : Path} {name : String} {bytes : List UInt8} {e : OsError}
  {l : Location} {node : FileNode}

theorem follow_append (t : FileTree) (l : Location) (front back : List String) :
    t.follow l (front ++ back) = (t.follow l front).bind fun l => t.follow l back := by
  induction front generalizing l with
  | nil => rfl
  | cons part rest ih =>
      simp only [List.cons_append, follow]
      cases t.node? l with
      | none => rfl
      | some node =>
          cases node with
          | file bytes => rfl
          | directory =>
              by_cases hlong : isTooLong part = true
              · simp only [hlong, if_true]
                rfl
              · simp only [hlong, Bool.false_eq_true, if_false, ih]

theorem locate_append (t : FileTree) (cwd : Path) (root : String) (front back : List String) :
    t.locate cwd ⟨root, front ++ back⟩ =
      (t.locate cwd ⟨root, front⟩).bind fun l => t.follow l back := by
  by_cases hroot : (Path.mk root front).isAbsolute = true
  · have hroot' : (Path.mk root (front ++ back)).isAbsolute = true := hroot
    rw [locate, locate, if_pos hroot, if_pos hroot']
    exact follow_append t [] front back
  · have hroot' : ¬(Path.mk root (front ++ back)).isAbsolute = true := hroot
    rw [locate, locate, if_neg hroot, if_neg hroot']
    cases t.follow [] cwd.parts with
    | error e => rfl
    | ok l => exact follow_append t l front back

theorem locate_child (t : FileTree) (cwd p : Path) (name : String) :
    t.locate cwd (p.child name) = (t.locate cwd p).bind fun l => t.follow l [name] :=
  locate_append t cwd p.root p.parts [name]

-- A path that the system can be asked for.
def Accepted (p : Path) : Prop :=
  p.hasNul = false ∧ isLong p = false

instance (p : Path) : Decidable (Accepted p) :=
  inferInstanceAs (Decidable (p.hasNul = false ∧ isLong p = false))

theorem find_of_accepted (h : Accepted p) : t.find cwd p = (t.locate cwd p).mapError .os := by
  rw [find, if_neg (by simp [h.1]), if_neg (by simp [h.2])]

theorem find_eq_ok_iff : t.find cwd p = .ok l ↔ Accepted p ∧ t.locate cwd p = .ok l := by
  by_cases h : Accepted p
  · rw [find_of_accepted h]
    cases t.locate cwd p <;> simp [h, Except.mapError]
  · simp only [h, false_and, iff_false]
    unfold find
    split_ifs with hnul hlong
    · simp
    · simp
    · exact absurd ⟨by simpa using hnul, by simpa using hlong⟩ h

theorem stat_eq_ok_iff : t.stat cwd p = .ok node ↔
    Accepted p ∧ ∃ l, t.locate cwd p = .ok l ∧ t.node? l = some node := by
  simp only [← exists_and_left, ← and_assoc, ← find_eq_ok_iff]
  unfold stat
  cases t.find cwd p with
  | error e => simp [bind, Except.bind]
  | ok l =>
      cases hnode : t.node? l <;>
        simp [hnode, bind, Except.bind, pure, Except.pure, throw, throwThe, MonadExceptOf.throw]

theorem isFile_eq_error_iff {e : PathError} :
    t.isFile cwd p = .error e ↔ t.stat cwd p = .error e ∧ e.isAbsent = false := by
  unfold isFile
  cases hstat : t.stat cwd p with
  | error e' =>
      by_cases h : e'.isAbsent = true
      · simp only [h, if_true, reduceCtorEq, false_iff, not_and, Except.error.injEq]
        rintro rfl
        simp [h]
      · simp only [h, Bool.false_eq_true, if_false, Except.error.injEq, iff_self_and]
        rintro rfl
        simpa using h
  | ok node => cases node <;> simp

theorem isAbsent_of_follow_singleton {l : Location} (hname : isTooLong name = false)
    (h : t.follow l [name] = .error e) : e.isAbsent = true := by
  simp only [follow, hname, Bool.false_eq_true, if_false] at h
  cases hnode : t.node? l with
  | none =>
      rw [hnode] at h
      cases h
      rfl
  | some node =>
      rw [hnode] at h
      cases node <;> cases h
      rfl

-- What keeps a name in a directory from being looked up, beside that nothing is there. A name that
-- is short enough brings no fault of its own: the path with it is too long, or what goes wrong has
-- gone wrong on the way to the directory.
theorem stat_child_eq_error_iff (hname : isTooLong name = false)
    (hnul : (p.child name).hasNul = false) (habsent : e.isAbsent = false) :
    t.stat cwd (p.child name) = .error (.os e) ↔
      if isLong (p.child name) then e = .nameTooLong else t.locate cwd p = .error e := by
  rw [stat, find, if_neg (by simp [hnul])]
  split_ifs with hlong
  · simp [bind, Except.bind, eq_comm]
  rw [locate_child]
  cases t.locate cwd p with
  | error e' => simp [Except.bind, Except.mapError, bind]
  | ok l =>
      simp only [reduceCtorEq, iff_false]
      intro h
      cases hfollow : t.follow l [name] with
      | error e' =>
          obtain rfl : e' = e := by
            simpa [Except.bind, Except.mapError, bind, hfollow] using h
          simp [isAbsent_of_follow_singleton hname hfollow] at habsent
      | ok l' =>
          cases hnode : t.node? l' with
          | none =>
              obtain rfl : OsError.missing = e := by
                simpa [Except.bind, Except.mapError, bind, hfollow, hnode, throw, throwThe,
                  MonadExceptOf.throw] using h
              cases habsent
          | some node =>
              simp [Except.bind, Except.mapError, bind, hfollow, hnode, pure, Except.pure] at h

theorem readBytes_eq_ok_iff : t.readBytes cwd p = .ok bytes ↔ t.stat cwd p = .ok (.file bytes) := by
  unfold readBytes
  cases t.stat cwd p with
  | error e => simp [bind, Except.bind]
  | ok node => cases node <;> simp [bind, Except.bind, pure, Except.pure, throw, throwThe,
      MonadExceptOf.throw]

-- The name alone tells whether the system can be asked at all.
theorem stat_eq_nulByte_iff : t.stat cwd p = .error .nulByte ↔ p.hasNul = true := by
  unfold stat find
  split_ifs with hnul hlong
  · simp [bind, Except.bind, hnul]
  · simp [bind, Except.bind, hnul]
  · cases t.locate cwd p with
    | error e => simp [bind, Except.bind, Except.mapError, hnul]
    | ok l =>
        cases hnode : t.node? l <;>
          simp [hnode, bind, Except.bind, pure, Except.pure, Except.mapError, throw, throwThe,
            MonadExceptOf.throw, hnul]

theorem readBytes_eq_nulByte_iff : t.readBytes cwd p = .error .nulByte ↔ p.hasNul = true := by
  rw [← stat_eq_nulByte_iff, readBytes]
  cases t.stat cwd p with
  | error e => simp [bind, Except.bind]
  | ok node => cases node <;> simp [bind, Except.bind, pure, Except.pure, throw, throwThe,
      MonadExceptOf.throw]

end FileTree

end Dialect
