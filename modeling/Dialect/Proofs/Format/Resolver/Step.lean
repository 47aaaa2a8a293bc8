import Dialect.Proofs.Format.Interview
import Dialect.Proofs.Format.Resolver.Objects

namespace Dialect.Format.Resolver

section Resolve

variable {answers : Answers} {memory : Memory} {request : String}

theorem observe_resolve_of_some {object : Nat}
    (h : Entries.get? request memory.kept = some object) :
    Interview.observe (resolve (Interview.engine answers) memory request) =
      (.ok ((memory.store.copy object).1, { memory with store := (memory.store.copy object).2 }),
        Journal.blank) := by
  simp only [resolve, h]
  rfl

theorem observe_resolve_of_none (h : Entries.get? request memory.kept = none) :
    Interview.observe (resolve (Interview.engine answers) memory request) =
      match Interview.resolve answers request with
      | (.ok r, journal) =>
        let made := memory.store.make r
        let copied := made.2.copy made.1
        (.ok (copied.1, ⟨copied.2, Entries.put request made.1 memory.kept⟩), journal)
      | (.error e, journal) => (.error e, journal) := by
  simp only [resolve, h, Interview.observe, Interview.resolve]
  rw [Interview.run_bind]
  rcases (Negotiation.resolve (Interview.engine answers) request).run.run Journal.blank with
    ⟨e | r, journal⟩ <;> rfl

end Resolve

-- What there is to a state beside the answers in the caller's hands.
structure Account where
  engine : Answers
  requests : List String
  kept? : String → Option Resolved
  returned : Nat

def State.account (s : State) : Account :=
  ⟨s.engine, Entries.keys s.memory.kept, s.kept?, s.returned.length⟩

namespace Account

-- What a request does to an account, and what it shows: a kept answer is given again, and a
-- new one is kept.
def resolve (a : Account) (request : String) : Account × Shown × Journal :=
  match a.kept? request with
  | some r => ({ a with returned := a.returned + 1 }, .answer a.returned r, Journal.blank)
  | none =>
    match Interview.resolve a.engine request with
    | (.ok r, journal) =>
      ({ a with
          requests := a.requests ++ [request]
          kept? := fun other => if request = other then some r else a.kept? other
          returned := a.returned + 1 },
        .answer a.returned r, journal)
    | (.error e, journal) => (a, .failed e, journal)

-- Of the other steps, an account shows only that it was cleared or the engine changed.
def step (a : Account) : Step → Account
  | .resolve request => (a.resolve request).1
  | .clear => { a with requests := [], kept? := fun _ => none }
  | .engine answers => { a with engine := answers }
  | .edit _ _ | .look _ | .compare _ _ => a

variable {a : Account} {request : String} {r : Resolved}

theorem resolve_of_kept (h : a.kept? request = some r) :
    a.resolve request =
      ({ a with returned := a.returned + 1 }, .answer a.returned r, Journal.blank) := by
  simp only [resolve, h]

theorem resolve_of_new (h : a.kept? request = none)
    (hr : (Interview.resolve a.engine request).1 = .ok r) :
    a.resolve request =
      ({ a with
          requests := a.requests ++ [request]
          kept? := fun other => if request = other then some r else a.kept? other
          returned := a.returned + 1 },
        .answer a.returned r, (Interview.resolve a.engine request).2) := by
  simp only [resolve, h]
  rcases h' : Interview.resolve a.engine request with ⟨e | r', journal⟩
  · rw [h'] at hr
    contradiction
  · rw [h'] at hr
    cases hr
    rfl

theorem resolve_of_failed (h : a.kept? request = none) {e : Engine.EngineError}
    (hr : (Interview.resolve a.engine request).1 = .error e) :
    a.resolve request = (a, .failed e, (Interview.resolve a.engine request).2) := by
  simp only [resolve, h]
  rcases h' : Interview.resolve a.engine request with ⟨e' | r, journal⟩
  · rw [h'] at hr
    cases hr
    rfl
  · rw [h'] at hr
    contradiction

end Account

variable {s : State} {rs : List Resolved} {request : String} {object : Nat} {r : Resolved}

theorem step_resolve_of_some (h : Entries.get? request s.memory.kept = some object) :
    step s (.resolve request) =
      (s.handOut object, (s.handOut object).view (some s.returned.length), Journal.blank) := by
  simp only [step, observe_resolve_of_some h]
  rfl

theorem step_resolve_of_none (h : Entries.get? request s.memory.kept = none) :
    step s (.resolve request) =
      match Interview.resolve s.engine request with
      | (.ok r, journal) =>
        let next := (s.keep request r).handOut (s.memory.store.make r).1
        (next, next.view (some s.returned.length), journal)
      | (.error e, journal) => (s, .failed e, journal) := by
  simp only [step, observe_resolve_of_none h]
  rcases Interview.resolve s.engine request with ⟨e | r, journal⟩ <;> rfl

theorem view_of_read? {place : Nat} (h : s.read? place = some r) :
    s.view (some place) = .answer place r := by
  simp [State.view, h]

theorem get?_kept_of_none (hs : s.Holds rs) (h : s.kept? request = none) :
    Entries.get? request s.memory.kept = none := by
  rw [Entries.get?_eq_none_iff, ← hs.isSome_kept?_iff, h]
  exact Bool.false_ne_true

-- The three ways that a request can go: a kept answer is given again, as a new copy; a new
-- answer is kept and the caller has a copy of it; a failure changes nothing.
theorem step_resolve_cases (hs : s.Holds rs) (request : String) :
    (∃ r object, s.kept? request = some r ∧ rs[object]? = some r ∧
      step s (.resolve request) =
        (s.handOut object, .answer s.returned.length r, Journal.blank)) ∨
    (s.kept? request = none ∧ request ∉ Entries.keys s.memory.kept ∧
      ∃ r, (Interview.resolve s.engine request).1 = .ok r ∧
        step s (.resolve request) = ((s.keep request r).handOut rs.length,
          .answer s.returned.length r, (Interview.resolve s.engine request).2)) ∨
    (s.kept? request = none ∧ ∃ e, (Interview.resolve s.engine request).1 = .error e ∧
      step s (.resolve request) = (s, .failed e, (Interview.resolve s.engine request).2)) := by
  cases h : s.kept? request with
  | some r =>
      rw [hs.kept?_eq] at h
      obtain ⟨object, hget, hobject⟩ := Option.bind_eq_some_iff.mp h
      have hread : (s.handOut object).read? s.returned.length = some r := by
        rw [hs.read?_handOut hobject, if_pos rfl]
      refine .inl ⟨r, object, rfl, hobject, ?_⟩
      rw [step_resolve_of_some hget, view_of_read? hread]
  | none =>
      have hget := get?_kept_of_none hs h
      have hnew := (Entries.get?_eq_none_iff request _).mp hget
      have hstep := step_resolve_of_none hget
      rcases hr : Interview.resolve s.engine request with ⟨e | r, journal⟩
      · rw [hr] at hstep
        exact .inr (.inr ⟨rfl, e, rfl, hstep⟩)
      · have hread : ((s.keep request r).handOut rs.length).read? s.returned.length = some r := by
          have hkeep := hs.keep hnew r
          exact (hkeep.read?_handOut List.getElem?_concat_length _).trans (if_pos rfl)
        have hmake : (s.memory.store.make r).1 = rs.length := by rw [hs.store, Store.make_layout]
        rw [hr] at hstep
        dsimp only at hstep
        rw [hmake, view_of_read? hread] at hstep
        exact .inr (.inl ⟨rfl, hnew, r, rfl, hstep⟩)

theorem account_handOut (hs : s.Holds rs) (h : rs[object]? = some r) :
    (s.handOut object).account = { s.account with returned := s.account.returned + 1 } := by
  have hlength : (s.handOut object).returned.length = s.returned.length + 1 := by
    simp only [State.handOut, List.length_append, List.length_singleton]
  rw [State.account, hs.kept?_handOut h, hlength]
  rfl

theorem account_keep (hs : s.Holds rs) (hnew : request ∉ Entries.keys s.memory.kept)
    (r : Resolved) :
    (s.keep request r).account =
      { s.account with
        requests := s.account.requests ++ [request]
        kept? := fun other => if request = other then some r else s.account.kept? other } := by
  have hkeys : Entries.keys (s.keep request r).memory.kept =
      Entries.keys s.memory.kept ++ [request] := by
    simp only [State.keep, hs.store, Store.make_layout, Entries.keys_put, hnew, if_false]
  rw [State.account, hs.kept?_keep hnew r, hkeys]
  rfl

-- A request is a matter of the account alone.
theorem account_step_resolve (hs : s.Holds rs) (request : String) :
    ((step s (.resolve request)).1.account, (step s (.resolve request)).2) =
      s.account.resolve request := by
  rcases step_resolve_cases hs request with
    ⟨r, object, hkept, hobject, hstep⟩ | ⟨hnone, hnew, r, hr, hstep⟩ | ⟨hnone, e, hr, hstep⟩
  · rw [hstep, Account.resolve_of_kept (a := s.account) hkept, account_handOut hs hobject]
    rfl
  · rw [hstep, Account.resolve_of_new (a := s.account) hnone hr,
      account_handOut (hs.keep hnew r) List.getElem?_concat_length, account_keep hs hnew r]
    rfl
  · rw [hstep, Account.resolve_of_failed (a := s.account) hnone hr]
    rfl

-- What an event says of the three ways that a request can go.
theorem event_resolve_cases (hs : s.Holds rs) (request : String) :
    (∃ r, s.kept? request = some r ∧
      (event s (.resolve request)).shown = .answer s.returned.length r ∧
      (event s (.resolve request)).journal = Journal.blank) ∨
    (s.kept? request = none ∧ ∃ r, (Interview.resolve s.engine request).1 = .ok r ∧
      (event s (.resolve request)).shown = .answer s.returned.length r ∧
      (event s (.resolve request)).journal = (Interview.resolve s.engine request).2) ∨
    (s.kept? request = none ∧ ∃ e, (Interview.resolve s.engine request).1 = .error e ∧
      (event s (.resolve request)).shown = .failed e ∧
      (event s (.resolve request)).journal = (Interview.resolve s.engine request).2 ∧
      (event s (.resolve request)).after = s) := by
  unfold event
  rcases step_resolve_cases hs request with
    ⟨r, object, hkept, -, hstep⟩ | ⟨hnone, -, r, hr, hstep⟩ | ⟨hnone, e, hr, hstep⟩
  · rw [hstep]
    exact .inl ⟨r, hkept, rfl, rfl⟩
  · rw [hstep]
    exact .inr (.inl ⟨hnone, r, hr, rfl, rfl⟩)
  · rw [hstep]
    exact .inr (.inr ⟨hnone, e, hr, rfl, rfl, rfl⟩)

theorem exists_returned_of_place? {answer : Int} {place : Nat}
    (h : s.place? answer = some place) : ∃ object, s.returned[place]? = some object := by
  simp only [State.place?] at h
  generalize (if answer < 0 then answer + s.returned.length else answer) = i at h
  split at h
  · rename_i hi
    have hplace := Option.some.inj h
    exact ⟨_, List.getElem?_eq_getElem (by omega)⟩
  · contradiction

-- No step ever lets an object be held twice.
theorem exists_holds_after (hs : s.Holds rs) (next : Step) :
    ∃ rs', (event s next).after.Holds rs' := by
  change ∃ rs', (step s next).1.Holds rs'
  cases next with
  | resolve request =>
      rcases step_resolve_cases hs request with
        ⟨r, object, -, hobject, hstep⟩ | ⟨-, hnew, r, -, hstep⟩ | ⟨-, e, -, hstep⟩
      · rw [hstep]
        exact ⟨_, hs.handOut hobject⟩
      · rw [hstep]
        exact ⟨_, (hs.keep hnew r).handOut List.getElem?_concat_length⟩
      · rw [hstep]
        exact ⟨rs, hs⟩
  | clear =>
      refine ⟨rs, hs.store, (List.nodup_append.mp hs.apart).2.1, ?_, List.nodup_nil⟩
      intro object hobject
      exact hs.inside object (List.mem_append_right _ hobject)
  | engine answers => exact ⟨rs, hs.store, hs.apart, hs.inside, hs.requests⟩
  | edit answer change =>
      simp only [step]
      cases hplace : s.place? answer with
      | none => exact ⟨rs, hs⟩
      | some place =>
          obtain ⟨object, hobject⟩ := exists_returned_of_place? hplace
          exact ⟨_, hs.edit hobject change⟩
  | look answer => exact ⟨rs, hs⟩
  | compare first second =>
      simp only [step]
      split <;> exact ⟨rs, hs⟩

theorem account_after (hs : s.Holds rs) (next : Step) :
    (event s next).after.account = s.account.step next := by
  change (step s next).1.account = s.account.step next
  cases next with
  | resolve request => exact congrArg Prod.fst (account_step_resolve hs request)
  | clear => rfl
  | engine answers => rfl
  | edit answer change =>
      simp only [step, Account.step]
      cases hplace : s.place? answer with
      | none => rfl
      | some place =>
          obtain ⟨object, hobject⟩ := exists_returned_of_place? hplace
          rw [State.account, hs.kept?_edit hobject change, State.edit_of_some hobject]
          rfl
  | look answer => rfl
  | compare first second =>
      simp only [step]
      split <;> rfl

-- What a step does to the answer in a place: nothing, unless it is a change of that answer.
def changeOf (s : State) (place : Nat) : Step → Option Edit
  | .edit answer change => if s.place? answer = some place then some change else none
  | _ => none

theorem read?_after (hs : s.Holds rs) (next : Step) {place : Nat}
    (hplace : place < s.returned.length) :
    (event s next).after.read? place =
      match changeOf s place next with
      | some change => (s.read? place).map change.apply
      | none => s.read? place := by
  change (step s next).1.read? place = _
  cases next with
  | resolve request =>
      have hne : place ≠ s.returned.length := Nat.ne_of_lt hplace
      rcases step_resolve_cases hs request with
        ⟨r, object, -, hobject, hstep⟩ | ⟨-, hnew, r, -, hstep⟩ | ⟨-, e, -, hstep⟩
      · rw [hstep]
        exact (hs.read?_handOut hobject place).trans (if_neg hne)
      · rw [hstep]
        have hread := (hs.keep hnew r).read?_handOut List.getElem?_concat_length place
        exact (hread.trans (if_neg hne)).trans (hs.read?_keep hnew r place)
      · rw [hstep]
        rfl
  | clear => rfl
  | engine answers => rfl
  | edit answer change =>
      simp only [step, changeOf]
      cases hanswer : s.place? answer with
      | none => rfl
      | some other =>
          obtain ⟨object, hobject⟩ := exists_returned_of_place? hanswer
          rw [hs.read?_edit hobject change]
          by_cases hother : other = place
          · simp [hother]
          · simp [hother]
  | look answer => rfl
  | compare first second =>
      simp only [step]
      split <;> rfl

-- What a request shows is the answer in a new place.
theorem read?_of_shown (hs : s.Holds rs) {place : Nat}
    (h : (event s (.resolve request)).shown = .answer place r) :
    place = s.returned.length ∧ (event s (.resolve request)).after.read? place = some r ∧
      place < (event s (.resolve request)).after.returned.length := by
  change (step s (.resolve request)).2.1 = .answer place r at h
  change _ ∧ (step s (.resolve request)).1.read? place = some r ∧
    place < (step s (.resolve request)).1.returned.length
  rcases step_resolve_cases hs request with
    ⟨r', object, -, hobject, hstep⟩ | ⟨-, hnew, r', -, hstep⟩ | ⟨-, e, -, hstep⟩
  · rw [hstep] at h ⊢
    cases h
    refine ⟨rfl, (hs.read?_handOut hobject _).trans (if_pos rfl), ?_⟩
    simp [State.handOut]
  · rw [hstep] at h ⊢
    cases h
    have hread := (hs.keep hnew r).read?_handOut List.getElem?_concat_length s.returned.length
    refine ⟨rfl, hread.trans (if_pos rfl), ?_⟩
    simp [State.handOut, State.keep]
  · rw [hstep] at h
    contradiction

end Dialect.Format.Resolver
