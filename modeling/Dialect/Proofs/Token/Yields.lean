import Dialect.Token.Transform
import Mathlib.Tactic.Common

namespace Dialect.Transform

-- A value that a transformation does not go into.
def isOpaque : Value → Bool
  | .token _ _ => false
  | .list _ => false
  | _ => true

-- Induction over a sequence of values, in the order of a walk. A payload is a sequence of one
-- value, so that a single property of sequences is enough.
@[elab_as_elim]
theorem roots_induction {P : List Value → Prop} (nil : P [])
    (token : ∀ tag payload vs, P [payload] → P vs → P (.token tag payload :: vs))
    (list : ∀ items vs, P items → P vs → P (.list items :: vs))
    (leaf : ∀ v vs, isOpaque v → P vs → P (v :: vs)) (vs : List Value) : P vs := by
  have hleaf (v : Value) (hv : isOpaque v) (vs : List Value) : P vs → P (v :: vs) := leaf v vs hv
  refine @Value.rec_1 (fun v => ∀ vs, P vs → P (v :: vs)) P (fun _ => True) (fun _ => True)
    (hleaf _ rfl) (fun _ => hleaf _ rfl) (fun _ => hleaf _ rfl) (fun _ => hleaf _ rfl)
    (fun _ => hleaf _ rfl) ?_ (fun _ _ => hleaf _ rfl) ?_ nil
    (fun _ vs hv => hv vs) trivial (fun _ _ _ _ => trivial) (fun _ _ _ => trivial) vs
  · exact fun items hitems vs => list items vs hitems
  · exact fun tag payload hpayload vs => token tag payload vs (hpayload [] nil)

-- A pass that transforms a sequence of values without any bound: which tokens are handed to
-- the change, and what the sequence becomes. A token's payload is looked at only after the
-- change, so the rule for tokens goes on with the payload that the change returned.
inductive Yields (f : Token → Token) : List Value → List Token → List Value → Prop
  | nil : Yields f [] [] []
  | token {tag : Text} {payload payload' : Value} {seen seen' : List Token}
      {vs ws : List Value} :
      Yields f [(f ⟨tag, payload⟩).payload] seen [payload'] → Yields f vs seen' ws →
      Yields f (.token tag payload :: vs) (⟨tag, payload⟩ :: (seen ++ seen'))
        (.token (f ⟨tag, payload⟩).tag payload' :: ws)
  | list {items items' : List Value} {seen seen' : List Token} {vs ws : List Value} :
      Yields f items seen items' → Yields f vs seen' ws →
      Yields f (.list items :: vs) (seen ++ seen') (.list items' :: ws)
  | leaf {v : Value} {seen : List Token} {vs ws : List Value} :
      isOpaque v → Yields f vs seen ws → Yields f (v :: vs) seen (v :: ws)

section Pass

variable {ε α β : Type}

-- What is known of two stretches of work, one after the other, that did not fail.
theorem Pass.andThen_eq_ok_iff {p : Pass ε α} {next : α → Pass ε β} {seen : List Token} {b : β} :
    p.andThen next = ⟨seen, .ok b⟩ ↔
      ∃ first a second, p = ⟨first, .ok a⟩ ∧ next a = ⟨second, .ok b⟩ ∧
        seen = first ++ second := by
  obtain ⟨tokens, result⟩ := p
  cases result with
  | error e => simp [Pass.andThen]
  | ok a =>
      simp only [Pass.andThen, Pass.mk.injEq, Except.ok.injEq]
      constructor
      · rintro ⟨rfl, hb⟩
        exact ⟨tokens, a, (next a).seen, ⟨rfl, rfl⟩, by rw [← hb], rfl⟩
      · rintro ⟨first, a', second, ⟨rfl, rfl⟩, hnext, rfl⟩
        rw [hnext]
        exact ⟨rfl, rfl⟩

theorem Pass.done_eq_ok_iff {a b : α} {seen : List Token} :
    (Pass.done a : Pass ε α) = ⟨seen, .ok b⟩ ↔ seen = [] ∧ a = b := by
  simp [Pass.done, eq_comm]

theorem eachItem_cons_eq_ok_iff {step : Value → Pass ε Value} {v : Value} {vs : List Value}
    {seen : List Token} {ws : List Value} :
    eachItem step (v :: vs) = ⟨seen, .ok ws⟩ ↔
      ∃ first w second rest, step v = ⟨first, .ok w⟩ ∧ eachItem step vs = ⟨second, .ok rest⟩ ∧
        seen = first ++ second ∧ ws = w :: rest := by
  simp only [eachItem, Pass.andThen_eq_ok_iff, Pass.done_eq_ok_iff]
  constructor
  · rintro ⟨first, w, _, hw, ⟨second, rest, _, hrest, ⟨rfl, rfl⟩, rfl⟩, rfl⟩
    exact ⟨first, w, second, rest, hw, hrest, by rw [List.append_nil], rfl⟩
  · rintro ⟨first, w, second, rest, hw, hrest, rfl, rfl⟩
    refine ⟨first, w, second, hw, ⟨second, rest, [], hrest, ⟨rfl, rfl⟩, ?_⟩, rfl⟩
    rw [List.append_nil]

theorem eachItem_singleton_eq_ok_iff {step : Value → Pass ε Value} {v w : Value}
    {seen : List Token} : eachItem step [v] = ⟨seen, .ok [w]⟩ ↔ step v = ⟨seen, .ok w⟩ := by
  rw [eachItem_cons_eq_ok_iff]
  constructor
  · rintro ⟨first, w', second, rest, hw, hrest, rfl, hws⟩
    obtain ⟨rfl, rfl⟩ := Pass.done_eq_ok_iff.mp hrest
    obtain rfl : w = w' := (List.cons.inj hws).1
    rw [hw, List.append_nil]
  · intro hw
    exact ⟨seen, w, [], [], hw, rfl, by rw [List.append_nil], rfl⟩

end Pass

variable {f : Token → Token}

theorem call_always_eq_ok_iff {t t' : Token} {seen : List Token} :
    Pass.call (always f) t = ⟨seen, .ok t'⟩ ↔ seen = [t] ∧ t' = f t := by
  simp [Pass.call, always, Except.mapError, eq_comm]

-- A step on a token that comes to an end, taken apart.
theorem value_token_eq_ok_iff {bound : Nat} {tag : Text} {payload w : Value}
    {seen : List Token} :
    value (always f) (bound + 1) (.token tag payload) = ⟨seen, .ok w⟩ ↔
      ∃ inner payload', value (always f) bound (f ⟨tag, payload⟩).payload = ⟨inner, .ok payload'⟩ ∧
        seen = ⟨tag, payload⟩ :: inner ∧ w = .token (f ⟨tag, payload⟩).tag payload' := by
  simp only [value, Pass.andThen_eq_ok_iff, call_always_eq_ok_iff, Pass.done_eq_ok_iff]
  constructor
  · rintro ⟨_, _, _, ⟨rfl, rfl⟩, ⟨inner, payload', _, hp, ⟨rfl, rfl⟩, rfl⟩, rfl⟩
    exact ⟨inner, payload', hp, by simp, rfl⟩
  · rintro ⟨inner, payload', hp, rfl, rfl⟩
    exact ⟨_, _, inner, ⟨rfl, rfl⟩, ⟨inner, payload', [], hp, ⟨rfl, rfl⟩, by simp⟩, rfl⟩

theorem value_list_eq_ok_iff {bound : Nat} {items : List Value} {w : Value} {seen : List Token} :
    value (always f) (bound + 1) (.list items) = ⟨seen, .ok w⟩ ↔
      ∃ items', roots (always f) bound items = ⟨seen, .ok items'⟩ ∧ w = .list items' := by
  simp only [value, roots, Pass.andThen_eq_ok_iff, Pass.done_eq_ok_iff]
  constructor
  · rintro ⟨seen, items', _, hitems, ⟨rfl, rfl⟩, rfl⟩
    exact ⟨items', by rw [hitems, List.append_nil], rfl⟩
  · rintro ⟨items', hitems, rfl⟩
    exact ⟨seen, items', [], hitems, ⟨rfl, rfl⟩, by rw [List.append_nil]⟩

theorem value_of_isOpaque {v : Value} (hv : isOpaque v) (bound : Nat) :
    value (always f) (bound + 1) v = .done v := by
  cases v <;> first | rfl | simp [isOpaque] at hv

theorem Yields.cons {v w : Value} {vs ws : List Value} {seen seen' : List Token}
    (hv : Yields f [v] seen [w]) (hvs : Yields f vs seen' ws) :
    Yields f (v :: vs) (seen ++ seen') (w :: ws) := by
  cases hv with
  | token hpayload hnil =>
      cases hnil
      simpa using Yields.token hpayload hvs
  | list hitems hnil =>
      cases hnil
      simpa using Yields.list hitems hvs
  | leaf hleaf hnil =>
      cases hnil
      exact .leaf hleaf hvs

theorem Yields.of_eachItem {step : Value → Pass Empty Value}
    (hstep : ∀ {v seen w}, step v = ⟨seen, .ok w⟩ → Yields f [v] seen [w]) {vs ws : List Value}
    {seen : List Token} (h : eachItem step vs = ⟨seen, .ok ws⟩) : Yields f vs seen ws := by
  induction vs generalizing seen ws with
  | nil =>
      obtain ⟨rfl, rfl⟩ := Pass.done_eq_ok_iff.mp h
      exact .nil
  | cons v vs ih =>
      obtain ⟨first, w, second, rest, hw, hrest, rfl, rfl⟩ := eachItem_cons_eq_ok_iff.mp h
      exact .cons (hstep hw) (ih hrest)

theorem Yields.of_value {bound : Nat} {v w : Value} {seen : List Token}
    (h : value (always f) bound v = ⟨seen, .ok w⟩) : Yields f [v] seen [w] := by
  induction bound generalizing v w seen with
  | zero => simp [value, Pass.fail] at h
  | succ bound ih =>
      by_cases hleaf : isOpaque v
      · rw [value_of_isOpaque hleaf] at h
        obtain ⟨rfl, rfl⟩ := Pass.done_eq_ok_iff.mp h
        exact .leaf hleaf .nil
      · cases v with
        | token tag payload =>
            obtain ⟨inner, payload', hpayload, rfl, rfl⟩ := value_token_eq_ok_iff.mp h
            simpa using Yields.token (ih hpayload) .nil
        | list items =>
            obtain ⟨items', hitems, rfl⟩ := value_list_eq_ok_iff.mp h
            simpa using Yields.list (.of_eachItem ih hitems) .nil
        | _ => simp [isOpaque] at hleaf

-- A pass without a bound succeeds under every bound that is large enough.
theorem Yields.exists_bound {vs ws : List Value} {seen : List Token} (h : Yields f vs seen ws) :
    ∃ enough, ∀ bound, enough ≤ bound → roots (always f) bound vs = ⟨seen, .ok ws⟩ := by
  induction h with
  | nil => exact ⟨0, fun bound _ => rfl⟩
  | token _ _ ihpayload ihvs =>
      obtain ⟨deep, hdeep⟩ := ihpayload
      obtain ⟨wide, hwide⟩ := ihvs
      refine ⟨max (deep + 1) wide, fun bound hbound => ?_⟩
      obtain ⟨bound, rfl⟩ : ∃ n, bound = n + 1 := ⟨bound - 1, by omega⟩
      have hpayload := eachItem_singleton_eq_ok_iff.mp (hdeep bound (by omega))
      have htoken := value_token_eq_ok_iff.mpr ⟨_, _, hpayload, rfl, rfl⟩
      exact eachItem_cons_eq_ok_iff.mpr ⟨_, _, _, _, htoken, hwide _ (by omega), rfl, rfl⟩
  | list _ _ ihitems ihvs =>
      obtain ⟨deep, hdeep⟩ := ihitems
      obtain ⟨wide, hwide⟩ := ihvs
      refine ⟨max (deep + 1) wide, fun bound hbound => ?_⟩
      obtain ⟨bound, rfl⟩ : ∃ n, bound = n + 1 := ⟨bound - 1, by omega⟩
      have hlist := value_list_eq_ok_iff.mpr ⟨_, hdeep bound (by omega), rfl⟩
      exact eachItem_cons_eq_ok_iff.mpr ⟨_, _, _, _, hlist, hwide _ (by omega), rfl, rfl⟩
  | @leaf v _ _ _ hleaf _ ihvs =>
      obtain ⟨wide, hwide⟩ := ihvs
      refine ⟨max 1 wide, fun bound hbound => ?_⟩
      obtain ⟨bound, rfl⟩ : ∃ n, bound = n + 1 := ⟨bound - 1, by omega⟩
      have hvalue : value (always f) (bound + 1) v = .done v := value_of_isOpaque hleaf bound
      exact eachItem_cons_eq_ok_iff.mpr ⟨_, _, _, _, hvalue, hwide _ (by omega), rfl, rfl⟩

theorem Yields.exists_eq_singleton {v : Value} {seen : List Token} {ws : List Value}
    (h : Yields f [v] seen ws) : ∃ w, ws = [w] := by
  cases h with
  | token _ hnil =>
      cases hnil
      exact ⟨_, rfl⟩
  | list _ hnil =>
      cases hnil
      exact ⟨_, rfl⟩
  | leaf _ hnil =>
      cases hnil
      exact ⟨_, rfl⟩

-- A pass comes to one end only.
theorem Yields.unique {vs ws ws' : List Value} {seen seen' : List Token} (h : Yields f vs seen ws)
    (h' : Yields f vs seen' ws') : seen' = seen ∧ ws' = ws := by
  induction h generalizing seen' ws' with
  | nil =>
      cases h'
      exact ⟨rfl, rfl⟩
  | token _ _ ihpayload ihvs =>
      cases h' with
      | token hpayload hvs =>
          obtain ⟨rfl, hp⟩ := ihpayload hpayload
          obtain ⟨rfl, rfl⟩ := ihvs hvs
          exact ⟨rfl, by rw [(List.cons.inj hp).1]⟩
      | leaf hleaf => simp [isOpaque] at hleaf
  | list _ _ ihitems ihvs =>
      cases h' with
      | list hitems hvs =>
          obtain ⟨rfl, rfl⟩ := ihitems hitems
          obtain ⟨rfl, rfl⟩ := ihvs hvs
          exact ⟨rfl, rfl⟩
      | leaf hleaf => simp [isOpaque] at hleaf
  | leaf hleaf _ ihvs =>
      cases h' with
      | leaf _ hvs =>
          obtain ⟨rfl, rfl⟩ := ihvs hvs
          exact ⟨rfl, rfl⟩
      | _ => simp [isOpaque] at hleaf

-- The bounded passes that come to an end are the passes without a bound.
theorem ends_iff {vs ws : List Value} {seen : List Token} :
    Ends f vs seen ws ↔ Yields f vs seen ws := by
  constructor
  · rintro ⟨bound, rfl, hresult⟩
    have hroots : roots (always f) bound vs = ⟨(roots (always f) bound vs).seen, .ok ws⟩ := by
      rw [← hresult]
    exact .of_eachItem .of_value hroots
  · intro h
    obtain ⟨bound, hbound⟩ := h.exists_bound
    have hroots := hbound bound (Nat.le_refl bound)
    exact ⟨bound, congrArg Pass.seen hroots, congrArg Pass.result hroots⟩

theorem Yields.ends_eq_iff {vs ws ws' : List Value} {seen seen' : List Token}
    (h : Yields f vs seen ws) : Ends f vs seen' ws' ↔ seen' = seen ∧ ws' = ws := by
  rw [ends_iff]
  constructor
  · exact h.unique
  · rintro ⟨rfl, rfl⟩
    exact h

end Dialect.Transform
