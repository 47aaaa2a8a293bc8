import Dialect.Format.Resolver.Basic
import Dialect.Proofs.Entries
import Dialect.Proofs.Format.Store

namespace Dialect.Format.Resolver

namespace State

-- The objects that the resolver keeps or its caller has.
def held (s : State) : List Nat :=
  s.memory.kept.map Prod.snd ++ s.returned

-- The store lays out `rs`, and nothing in it is held twice.
structure Holds (s : State) (rs : List Resolved) : Prop where
  store : s.memory.store = Store.layout rs
  apart : s.held.Nodup
  inside : ∀ object ∈ s.held, object < rs.length
  requests : (Entries.keys s.memory.kept).Nodup

-- Keep a resolved format for a request.
def keep (s : State) (request : String) (r : Resolved) : State :=
  let (object, store) := s.memory.store.make r
  { s with memory := ⟨store, Entries.put request object s.memory.kept⟩ }

-- Give the caller a copy of an object.
def handOut (s : State) (object : Nat) : State :=
  let (copy, store) := s.memory.store.copy object
  { s with memory := { s.memory with store }, returned := s.returned ++ [copy] }

variable {s : State} {rs : List Resolved} {request : String} {object : Nat} {r : Resolved}

theorem holds_start (engine : Answers) : (start engine).Holds [] where
  store := rfl
  apart := List.nodup_nil
  inside := by simp [held, start]
  requests := List.nodup_nil

theorem Holds.read?_eq (hs : s.Holds rs) (place : Nat) :
    s.read? place = s.returned[place]?.bind (rs[·]?) := by
  rw [read?, hs.store, funext (Store.read?_layout rs)]

theorem Holds.kept?_eq (hs : s.Holds rs) (request : String) :
    s.kept? request = (Entries.get? request s.memory.kept).bind (rs[·]?) := by
  rw [kept?, hs.store, funext (Store.read?_layout rs)]

theorem Holds.lt_of_get? (hs : s.Holds rs)
    (h : Entries.get? request s.memory.kept = some object) : object < rs.length :=
  hs.inside object (List.mem_append_left _ (List.mem_map_of_mem (Entries.mem_of_get? h)))

theorem Holds.lt_of_returned (hs : s.Holds rs) {place : Nat}
    (h : s.returned[place]? = some object) : object < rs.length :=
  hs.inside object (List.mem_append_right _ (List.mem_of_getElem? h))

theorem Holds.isSome_kept?_iff (hs : s.Holds rs) (request : String) :
    (s.kept? request).isSome ↔ request ∈ Entries.keys s.memory.kept := by
  rw [hs.kept?_eq, Entries.mem_keys_iff]
  cases h : Entries.get? request s.memory.kept with
  | none => simp
  | some object => simpa using hs.lt_of_get? h

theorem Holds.notMem_held (hs : s.Holds rs) : rs.length ∉ s.held := by
  intro h
  exact Nat.lt_irrefl _ (hs.inside _ h)

-- One more resolved format is laid out, and the object that stands for it is held.
theorem Holds.grow (hs : s.Holds rs) (r : Resolved) {t : State}
    (hstore : t.memory.store = Store.layout (rs ++ [r]))
    (hheld : t.held.Perm (s.held ++ [rs.length]))
    (hrequests : (Entries.keys t.memory.kept).Nodup) : t.Holds (rs ++ [r]) := by
  refine ⟨hstore, ?_, ?_, hrequests⟩
  · rw [hheld.nodup_iff, ← List.concat_eq_append]
    exact hs.apart.concat hs.notMem_held
  · intro object hobject
    rw [List.length_append, List.length_singleton]
    rcases List.mem_append.mp (hheld.mem_iff.mp hobject) with h | h
    · exact Nat.lt_succ_of_lt (hs.inside object h)
    · rw [List.mem_singleton.mp h]
      exact Nat.lt_succ_self _

theorem Holds.keep (hs : s.Holds rs) (hnew : request ∉ Entries.keys s.memory.kept)
    (r : Resolved) : (s.keep request r).Holds (rs ++ [r]) := by
  apply hs.grow r
  · simp only [State.keep, hs.store, Store.make_layout]
  · simp only [held, State.keep, hs.store, Store.make_layout, Entries.put_of_notMem hnew,
      List.map_append, List.append_assoc]
    exact (List.perm_append_comm).append_left _
  · exact Entries.nodup_keys_put hs.requests request _

theorem Holds.handOut (hs : s.Holds rs) (h : rs[object]? = some r) :
    (s.handOut object).Holds (rs ++ [r]) := by
  apply hs.grow r
  · simp only [State.handOut, hs.store, Store.copy_layout h]
  · simp only [held, State.handOut, hs.store, Store.copy_layout h, List.append_assoc]
    exact List.Perm.refl _
  · exact hs.requests

theorem Holds.kept?_keep (hs : s.Holds rs) (hnew : request ∉ Entries.keys s.memory.kept)
    (r : Resolved) :
    (s.keep request r).kept? = fun other => if request = other then some r else s.kept? other := by
  funext other
  have hkept : (s.keep request r).memory.kept = Entries.put request rs.length s.memory.kept := by
    simp only [State.keep, hs.store, Store.make_layout]
  rw [(hs.keep hnew r).kept?_eq, hkept, Entries.get?_put, hs.kept?_eq]
  by_cases hother : request = other
  · simp [hother]
  · simp only [hother, if_false]
    cases hget : Entries.get? other s.memory.kept with
    | none => rfl
    | some object => exact List.getElem?_append_left (hs.lt_of_get? hget)

theorem Holds.read?_keep (hs : s.Holds rs) (hnew : request ∉ Entries.keys s.memory.kept)
    (r : Resolved) (place : Nat) : (s.keep request r).read? place = s.read? place := by
  have hreturned : (s.keep request r).returned = s.returned := rfl
  rw [(hs.keep hnew r).read?_eq, hs.read?_eq, hreturned]
  cases hget : s.returned[place]? with
  | none => rfl
  | some object => exact List.getElem?_append_left (hs.lt_of_returned hget)

theorem Holds.kept?_handOut (hs : s.Holds rs) (h : rs[object]? = some r) :
    (s.handOut object).kept? = s.kept? := by
  funext request
  have hkept : (s.handOut object).memory.kept = s.memory.kept := rfl
  rw [(hs.handOut h).kept?_eq, hkept, hs.kept?_eq]
  cases hget : Entries.get? request s.memory.kept with
  | none => rfl
  | some other => exact List.getElem?_append_left (hs.lt_of_get? hget)

theorem Holds.read?_handOut (hs : s.Holds rs) (h : rs[object]? = some r) (place : Nat) :
    (s.handOut object).read? place =
      if place = s.returned.length then some r else s.read? place := by
  have hreturned : (s.handOut object).returned = s.returned ++ [rs.length] := by
    simp only [State.handOut, hs.store, Store.copy_layout h]
  rw [(hs.handOut h).read?_eq, hs.read?_eq, hreturned]
  by_cases hplace : place = s.returned.length
  · simp [hplace]
  · have hget : (s.returned ++ [rs.length])[place]? = s.returned[place]? := by
      simp only [List.getElem?_append, List.getElem?_singleton]
      split
      · rfl
      · rw [if_neg (by omega), List.getElem?_eq_none_iff.mpr (by omega)]
    rw [hget, if_neg hplace]
    cases hother : s.returned[place]? with
    | none => rfl
    | some other => exact List.getElem?_append_left (hs.lt_of_returned hother)

theorem edit_of_some {place : Nat} (h : s.returned[place]? = some object) (change : Edit) :
    s.edit (some place) change =
      { s with memory := { s.memory with store := s.memory.store.edit object change } } := by
  simp only [edit, Option.bind_some, h]

theorem Holds.edit (hs : s.Holds rs) {place : Nat} (h : s.returned[place]? = some object)
    (change : Edit) : (s.edit (some place) change).Holds (rs.modify object change.apply) := by
  rw [edit_of_some h]
  constructor
  · simp only [hs.store, Store.edit_layout]
  · exact hs.apart
  · rw [List.length_modify]
    exact hs.inside
  · exact hs.requests

-- The caller's object is not one that is kept, so a change of it does not reach the memory.
theorem Holds.kept?_edit (hs : s.Holds rs) {place : Nat} (h : s.returned[place]? = some object)
    (change : Edit) : (s.edit (some place) change).kept? = s.kept? := by
  funext request
  have hkept : (s.edit (some place) change).memory.kept = s.memory.kept := by
    rw [edit_of_some h]
  rw [(hs.edit h change).kept?_eq, hkept, hs.kept?_eq]
  cases hget : Entries.get? request s.memory.kept with
  | none => rfl
  | some other =>
      have hne : object ≠ other := by
        rintro rfl
        exact (List.nodup_append.mp hs.apart).2.2 object
          (List.mem_map_of_mem (Entries.mem_of_get? hget)) object (List.mem_of_getElem? h) rfl
      exact List.getElem?_modify_ne _ _ hne

-- Two answers are two objects, so a change of one does not reach the other.
theorem Holds.read?_edit (hs : s.Holds rs) {place : Nat} (h : s.returned[place]? = some object)
    (change : Edit) (other : Nat) :
    (s.edit (some place) change).read? other =
      if place = other then (s.read? other).map change.apply else s.read? other := by
  have hreturned : (s.edit (some place) change).returned = s.returned := by
    rw [edit_of_some h]
  rw [(hs.edit h change).read?_eq, hreturned, hs.read?_eq]
  by_cases hplace : place = other
  · subst other
    simp [h]
  · rw [if_neg hplace]
    cases hget : s.returned[other]? with
    | none => rfl
    | some object' =>
        have hne : object ≠ object' := by
          rintro rfl
          have hnodup : s.returned.Nodup := (List.nodup_append.mp hs.apart).2.1
          have hlt : place < s.returned.length := (List.getElem?_eq_some_iff.mp h).1
          exact hplace ((List.getElem?_inj hlt hnodup).mp (h.trans hget.symm))
        exact List.getElem?_modify_ne _ _ hne

end State

end Dialect.Format.Resolver
