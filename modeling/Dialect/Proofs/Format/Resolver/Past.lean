import Dialect.Proofs.Format.Resolver.Step
import Mathlib.Data.Finset.Card
import Mathlib.Data.List.DropRight

namespace Dialect.Format.Resolver

def Step.isClear : Step → Bool
  | .clear => true
  | _ => false

def Step.isEdit : Step → Bool
  | .edit _ _ => true
  | _ => false

-- The answer that a request was given, or the failure.
def Shown.outcome? : Shown → Option (Except Engine.EngineError Resolved)
  | .answer _ r => some (.ok r)
  | .failed e => some (.error e)
  | _ => none

-- Whether the engine was asked on behalf of a request.
def Event.asks (e : Event) (request : String) : Bool :=
  match e.step with
  | .resolve other => other == request && !e.journal.asked.isEmpty
  | _ => false

-- The request that was answered.
def Event.answered? (e : Event) : Option String :=
  match e.step, e.shown with
  | .resolve request, .answer _ _ => some request
  | _, _ => none

-- The events since the resolver was last cleared.
def sinceClear (past : List Event) : List Event :=
  past.rtakeWhile fun e => !e.step.isClear

-- The last time that the engine was asked on behalf of a request.
def lastAsked? (request : String) (past : List Event) : Option Event :=
  (past.filter fun e => e.asks request).getLast?

def answered (past : List Event) : List String :=
  past.filterMap Event.answered?

theorem sinceClear_concat (past : List Event) (e : Event) :
    sinceClear (past ++ [e]) = if e.step.isClear then [] else sinceClear past ++ [e] := by
  unfold sinceClear
  rw [List.rtakeWhile_concat]
  cases e.step.isClear <;> rfl

theorem lastAsked?_concat (request : String) (past : List Event) (e : Event) :
    lastAsked? request (past ++ [e]) =
      if e.asks request then some e else lastAsked? request past := by
  unfold lastAsked?
  cases h : e.asks request <;> simp [List.filter_append, h]

theorem answered_concat (past : List Event) (e : Event) :
    answered (past ++ [e]) = answered past ++ e.answered?.toList := by
  unfold answered
  cases h : e.answered? <;> simp [List.filterMap_append, h]

theorem after_append (s : State) (past more : List Step) :
    after s (past ++ more) = after (after s past) more := by
  induction past generalizing s with
  | nil => rfl
  | cons next rest ih => exact ih (event s next).after

theorem events_append (s : State) (past more : List Step) :
    events s (past ++ more) = events s past ++ events (after s past) more := by
  induction past generalizing s with
  | nil => rfl
  | cons next rest ih => exact congrArg (event s next :: ·) (ih (event s next).after)

theorem exists_holds_run {s : State} {rs : List Resolved} (hs : s.Holds rs)
    (past : List Step) : ∃ rs', (after s past).Holds rs' := by
  induction past generalizing s rs with
  | nil => exact ⟨rs, hs⟩
  | cons next rest ih =>
      obtain ⟨rs', hs'⟩ := exists_holds_after hs next
      exact ih hs'

-- What is kept is what the events since the last clear say: the outcome of the last time that
-- the engine was asked, for the requests that were answered.
structure Recalls (s : State) (past : List Event) : Prop where
  kept : ∀ request, s.kept? request = (lastAsked? request (sinceClear past)).bind fun e =>
    (Interview.resolve e.before.engine request).1.toOption
  requests : ∀ request,
    request ∈ Entries.keys s.memory.kept ↔ request ∈ answered (sinceClear past)

variable {s : State} {rs : List Resolved} {past : List Event} {request : String}

theorem recalls_start (engine : Answers) : Recalls (start engine) [] where
  kept := fun _ => rfl
  requests := fun _ => Iff.rfl

theorem kept?_after (hs : s.Holds rs) (next : Step) :
    (event s next).after.kept? = (s.account.step next).kept? :=
  congrArg Account.kept? (account_after hs next)

theorem keys_after (hs : s.Holds rs) (next : Step) :
    Entries.keys (event s next).after.memory.kept = (s.account.step next).requests :=
  congrArg Account.requests (account_after hs next)

-- An event that clears nothing adds to what is recalled what the engine was asked in it and
-- the request that it answered.
theorem Recalls.concat (h : Recalls s past) {e : Event} (hclear : e.step.isClear = false)
    (hkept : ∀ request, e.after.kept? request = if e.asks request then
      (Interview.resolve e.before.engine request).1.toOption else s.kept? request)
    (hkeys : ∀ request, request ∈ Entries.keys e.after.memory.kept ↔
      request ∈ Entries.keys s.memory.kept ∨ e.answered? = some request) :
    Recalls e.after (past ++ [e]) := by
  have hsince : sinceClear (past ++ [e]) = sinceClear past ++ [e] := by
    rw [sinceClear_concat, hclear, if_neg Bool.false_ne_true]
  constructor
  · intro request
    rw [hkept, hsince, lastAsked?_concat]
    split
    · rfl
    · exact h.kept request
  · intro request
    rw [hkeys, hsince, answered_concat, List.mem_append, Option.mem_toList, h.requests]

theorem asks_event_resolve (s : State) (request other : String) :
    (event s (.resolve request)).asks other =
      (request == other && !(event s (.resolve request)).journal.asked.isEmpty) := rfl

theorem asks_of_blank {s : State} {request : String}
    (h : (event s (.resolve request)).journal = Journal.blank) (other : String) :
    (event s (.resolve request)).asks other = false := by
  rw [asks_event_resolve, h]
  exact Bool.and_false _

theorem asks_of_asked {s : State} {request : String}
    (h : (event s (.resolve request)).journal = (Interview.resolve s.engine request).2)
    (other : String) : (event s (.resolve request)).asks other = (request == other) := by
  rw [asks_event_resolve, h, List.isEmpty_eq_false_iff.mpr (Interview.asked_resolve_ne_nil _ _),
    Bool.not_false, Bool.and_true]

theorem answered?_event_resolve {s : State} {request : String} {place : Nat} {r : Resolved}
    (h : (event s (.resolve request)).shown = .answer place r) :
    (event s (.resolve request)).answered? = some request := by
  have hstep : (event s (.resolve request)).step = .resolve request := rfl
  simp only [Event.answered?, hstep, h]

theorem answered?_event_failed {s : State} {request : String} {e : Engine.EngineError}
    (h : (event s (.resolve request)).shown = .failed e) :
    (event s (.resolve request)).answered? = none := by
  have hstep : (event s (.resolve request)).step = .resolve request := rfl
  simp only [Event.answered?, hstep, h]

-- A step that is neither a request nor a clear leaves what is kept alone.
theorem Recalls.quiet (hs : s.Holds rs) (h : Recalls s past) {next : Step}
    (hclear : next.isClear = false) (hasks : ∀ request, (event s next).asks request = false)
    (hanswered : (event s next).answered? = none)
    (hkept : (s.account.step next).kept? = s.kept?)
    (hkeys : (s.account.step next).requests = Entries.keys s.memory.kept) :
    Recalls (event s next).after (past ++ [event s next]) := by
  refine h.concat hclear ?_ ?_
  · intro request
    rw [kept?_after hs, hkept, hasks, if_neg Bool.false_ne_true]
  · intro request
    rw [keys_after hs, hkeys, hanswered]
    simp

-- What is kept stands for a request that was answered before.
theorem Recalls.again (hs : s.Holds rs) (h : Recalls s past) {r : Resolved}
    (hr : s.kept? request = some r) {place : Nat}
    (hshown : (event s (.resolve request)).shown = .answer place r)
    (hjournal : (event s (.resolve request)).journal = Journal.blank) :
    Recalls (event s (.resolve request)).after (past ++ [event s (.resolve request)]) := by
  have haccount := congrArg Prod.fst (Account.resolve_of_kept (a := s.account) hr)
  have hmem : request ∈ Entries.keys s.memory.kept := by
    rw [← hs.isSome_kept?_iff, hr, Option.isSome_some]
  refine h.concat rfl ?_ ?_
  · intro other
    rw [kept?_after hs, Account.step, haccount, asks_of_blank hjournal,
      if_neg Bool.false_ne_true]
    rfl
  · intro other
    rw [keys_after hs, Account.step, haccount, answered?_event_resolve hshown, Option.some_inj]
    exact ⟨Or.inl, fun hother => hother.elim id fun heq => heq ▸ hmem⟩

theorem Recalls.new (hs : s.Holds rs) (h : Recalls s past) (hnone : s.kept? request = none)
    {r : Resolved} (hr : (Interview.resolve s.engine request).1 = .ok r) {place : Nat}
    (hshown : (event s (.resolve request)).shown = .answer place r)
    (hjournal : (event s (.resolve request)).journal = (Interview.resolve s.engine request).2) :
    Recalls (event s (.resolve request)).after (past ++ [event s (.resolve request)]) := by
  have haccount := congrArg Prod.fst (Account.resolve_of_new (a := s.account) hnone hr)
  have hbefore : (event s (.resolve request)).before = s := rfl
  refine h.concat rfl ?_ ?_
  · intro other
    rw [kept?_after hs, Account.step, haccount, asks_of_asked hjournal, hbefore]
    by_cases hother : request = other
    · subst hother
      simp [hr, Except.toOption]
    · simp only [hother, if_false, beq_eq_false_iff_ne.mpr hother, Bool.false_eq_true]
      rfl
  · intro other
    rw [keys_after hs, Account.step, haccount, answered?_event_resolve hshown, Option.some_inj,
      List.mem_append, List.mem_singleton, eq_comm (a := other)]
    rfl

-- Of a failure there is nothing to recall, and nothing is kept.
theorem Recalls.failed (h : Recalls s past) (hnone : s.kept? request = none)
    {e : Engine.EngineError} (hr : (Interview.resolve s.engine request).1 = .error e)
    (hshown : (event s (.resolve request)).shown = .failed e)
    (hjournal : (event s (.resolve request)).journal = (Interview.resolve s.engine request).2)
    (hafter : (event s (.resolve request)).after = s) :
    Recalls (event s (.resolve request)).after (past ++ [event s (.resolve request)]) := by
  have hbefore : (event s (.resolve request)).before = s := rfl
  refine h.concat rfl ?_ ?_
  · intro other
    rw [hafter, asks_of_asked hjournal, hbefore]
    by_cases hother : request = other
    · subst hother
      simp [hr, Except.toOption, hnone]
    · simp [hother]
  · intro other
    rw [hafter, answered?_event_failed hshown]
    simp

-- What is recalled stays true, whatever the caller does next.
theorem Recalls.after (hs : s.Holds rs) (h : Recalls s past) (next : Step) :
    Recalls (event s next).after (past ++ [event s next]) := by
  cases next with
  | resolve request =>
      rcases event_resolve_cases hs request with
        ⟨r, hr, hshown, hjournal⟩ | ⟨hnone, r, hr, hshown, hjournal⟩ |
        ⟨hnone, e, hr, hshown, hjournal, hafter⟩
      · exact h.again hs hr hshown hjournal
      · exact h.new hs hnone hr hshown hjournal
      · exact h.failed hnone hr hshown hjournal hafter
  | clear =>
      have hsince : sinceClear (past ++ [event s .clear]) = [] := by
        rw [sinceClear_concat]
        rfl
      constructor
      · intro request
        rw [kept?_after hs, hsince]
        rfl
      · intro request
        rw [keys_after hs, hsince]
        rfl
  | engine answers => exact h.quiet hs rfl (fun _ => rfl) rfl rfl rfl
  | edit answer change => exact h.quiet hs rfl (fun _ => rfl) rfl rfl rfl
  | look answer => exact h.quiet hs rfl (fun _ => rfl) rfl rfl rfl
  | compare first second => exact h.quiet hs rfl (fun _ => rfl) rfl rfl rfl

theorem recalls_run (engine : Answers) (past : List Step) :
    Recalls (Resolver.after (start engine) past) (events (start engine) past) := by
  induction past using List.reverseRecOn with
  | nil => exact recalls_start engine
  | append_singleton past next ih =>
      obtain ⟨rs, hs⟩ := exists_holds_run (State.holds_start engine) past
      rw [after_append, events_append]
      exact ih.after hs next

end Dialect.Format.Resolver
