namespace Dialect

variable {ε ε' α β : Type} {x : Except ε α} {P : α → Prop} {Q : β → Prop}

-- What a computation gives, if it gives anything, has a property.
def Ensures (P : α → Prop) (x : Except ε α) : Prop :=
  ∀ a, x = .ok a → P a

theorem exists_of_map_eq_ok {f : α → β} {b : β} (h : x.map f = .ok b) :
    ∃ a, x = .ok a ∧ f a = b := by
  cases x with
  | error e => cases h
  | ok a => exact ⟨a, rfl, Except.ok.inj h⟩

theorem mapError_eq_ok_iff {f : ε → ε'} {a : α} : x.mapError f = .ok a ↔ x = .ok a := by
  cases x with
  | error e => exact ⟨fun h => (nomatch h), fun h => (nomatch h)⟩
  | ok b => exact ⟨fun h => congrArg _ (Except.ok.inj h), fun h => congrArg _ (Except.ok.inj h)⟩

namespace Ensures

theorem ok {a : α} (h : P a) : Ensures P (.ok a : Except ε α) := by
  rintro b ⟨⟩
  exact h

theorem error (e : ε) : Ensures P (.error e : Except ε α) := by
  rintro b ⟨⟩

theorem imp {P' : α → Prop} (h : Ensures P x) (himp : ∀ a, P a → P' a) : Ensures P' x :=
  fun a ha => himp a (h a ha)

theorem bind {f : α → Except ε β} (h : Ensures P x) (hf : ∀ a, P a → Ensures Q (f a)) :
    Ensures Q (x >>= f) := by
  cases x with
  | error e => exact error e
  | ok a => exact hf a (h a rfl)

theorem map {f : α → β} (h : Ensures P x) (hf : ∀ a, P a → Q (f a)) : Ensures Q (x.map f) := by
  cases x with
  | error e => exact error e
  | ok a => exact ok (hf a (h a rfl))

theorem mapError (f : ε → ε') (h : Ensures P x) : Ensures P (x.mapError f) := by
  cases x with
  | error e => exact error (f e)
  | ok a => exact ok (h a rfl)

theorem mapM {γ : Type} {f : γ → Except ε α} {xs : List γ} (h : ∀ x ∈ xs, Ensures P (f x)) :
    Ensures (fun ys => ∀ y ∈ ys, P y) (xs.mapM f) := by
  induction xs with
  | nil => exact ok (by simp)
  | cons x rest ih =>
      obtain ⟨hx, hrest⟩ := List.forall_mem_cons.mp h
      rw [List.mapM_cons]
      exact hx.bind fun y hy => (ih hrest).bind fun ys hys =>
        ok (List.forall_mem_cons.mpr ⟨hy, hys⟩)

-- All there is to know of what a computation gives.
theorem self (x : Except ε α) : Ensures (fun a => x = .ok a) x :=
  fun _ h => h

theorem trivially (x : Except ε α) : Ensures (fun _ => True) x :=
  fun _ _ => trivial

end Ensures

end Dialect
