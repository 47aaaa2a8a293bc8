import Dialect.Proofs.Format.Resolver.Past

namespace Dialect.Format.Resolver

variable {s : State} {rs : List Resolved} {past : List Event} {request : String}

-- What a request shows, its conversation with the engine, and how much is kept after it.
def Event.reply? (e : Event) : Option (String × Shown × Journal × Nat) :=
  match e.step with
  | .resolve request => some (request, e.shown, e.journal, e.after.memory.kept.length)
  | _ => none

def replies (past : List Event) : List (String × Shown × Journal × Nat) :=
  past.filterMap Event.reply?

-- The changes that are made in a run of the answer in a place.
def changesOf (s : State) (place : Nat) : List Step → List Edit
  | [] => []
  | next :: rest => (changeOf s place next).toList ++ changesOf (event s next).after place rest

theorem returned_le_after (hs : s.Holds rs) (next : Step) :
    s.returned.length ≤ (event s next).after.returned.length := by
  have haccount : (event s next).after.returned.length = (s.account.step next).returned :=
    congrArg Account.returned (account_after hs next)
  rw [haccount]
  cases next with
  | resolve request =>
      simp only [Account.step, Account.resolve]
      split
      · exact Nat.le_succ _
      · split
        · exact Nat.le_succ _
        · exact Nat.le_refl _
  | clear => exact Nat.le_refl _
  | engine answers => exact Nat.le_refl _
  | edit answer change => exact Nat.le_refl _
  | look answer => exact Nat.le_refl _
  | compare first second => exact Nat.le_refl _

-- An answer says what it said when it was given, but for the changes that were made of it.
theorem read?_run (hs : s.Holds rs) (more : List Step) {place : Nat}
    (hplace : place < s.returned.length) :
    (after s more).read? place =
      (s.read? place).map fun r => (changesOf s place more).foldl (fun r c => c.apply r) r := by
  induction more generalizing s rs with
  | nil => exact Option.map_id'.symm
  | cons next rest ih =>
      obtain ⟨rs', hs'⟩ := exists_holds_after hs next
      have hrest := ih hs' (Nat.lt_of_lt_of_le hplace (returned_le_after hs next))
      simp only [after, changesOf, List.foldl_append]
      rw [hrest, read?_after hs next hplace]
      cases changeOf s place next with
      | none => rfl
      | some change => rw [Option.map_map]; rfl

theorem reply?_event_resolve (hs : s.Holds rs) (request : String) :
    (event s (.resolve request)).reply? =
      some (request, (s.account.resolve request).2.1, (s.account.resolve request).2.2,
        (s.account.resolve request).1.requests.length) := by
  have hlength : (event s (.resolve request)).after.memory.kept.length =
      (event s (.resolve request)).after.account.requests.length :=
    (List.length_map _).symm
  have haccount := account_step_resolve hs request
  rw [← haccount]
  exact congrArg (fun n => some (request, _, _, n)) hlength

-- The changes that the caller makes are never seen by a request.
theorem replies_filter_isEdit {t : State} {rs' : List Resolved} (hs : s.Holds rs)
    (ht : t.Holds rs') (hst : s.account = t.account) (past : List Step) :
    replies (events s past) = replies (events t (past.filter fun next => !next.isEdit)) := by
  induction past generalizing s t rs rs' with
  | nil => rfl
  | cons next rest ih =>
      obtain ⟨_, hs'⟩ := exists_holds_after hs next
      obtain ⟨_, ht'⟩ := exists_holds_after ht next
      have hnext : (event s next).after.account = (event t next).after.account := by
        rw [account_after hs, account_after ht, hst]
      cases next with
      | resolve request =>
          have hreply : (event s (.resolve request)).reply? =
              (event t (.resolve request)).reply? := by
            rw [reply?_event_resolve hs, reply?_event_resolve ht, hst]
          have hrest := ih hs' ht' hnext
          simp only [Step.isEdit, Bool.not_false, List.filter_cons_of_pos, events, replies,
            List.filterMap_cons, hreply] at hrest ⊢
          rw [hrest]
      | clear => exact ih hs' ht' hnext
      | engine answers => exact ih hs' ht' hnext
      | edit answer change => exact ih hs' ht ((account_after hs _).trans hst)
      | look answer => exact ih hs' ht' hnext
      | compare first second => exact ih hs' ht' hnext

theorem Recalls.kept?_eq_none_iff (hs : s.Holds rs) (h : Recalls s past) (request : String) :
    s.kept? request = none ↔ request ∉ answered (sinceClear past) := by
  rw [← h.requests, ← hs.isSome_kept?_iff, Option.not_isSome_iff_eq_none]

-- What a request is given was found the last time that the engine was asked about it.
theorem Recalls.source (hs : s.Holds rs) (h : Recalls s past) {place : Nat} {r : Resolved}
    (hr : (event s (.resolve request)).shown = .answer place r) :
    ∃ src, lastAsked? request (sinceClear past ++ [event s (.resolve request)]) = some src ∧
      (Interview.resolve src.before.engine request).1 = .ok r := by
  rw [lastAsked?_concat]
  rcases event_resolve_cases hs request with
    ⟨r', hkept, hshown, hjournal⟩ | ⟨hnone, r', hnew, hshown, hjournal⟩ |
    ⟨hnone, e, hfailed, hshown, hjournal, hafter⟩
  · rw [hshown] at hr
    cases hr
    rw [h.kept] at hkept
    obtain ⟨src, hsrc, hok⟩ := Option.bind_eq_some_iff.mp hkept
    rw [asks_of_blank hjournal]
    refine ⟨src, hsrc, ?_⟩
    cases hres : (Interview.resolve src.before.engine request).1 with
    | error e => rw [hres] at hok; contradiction
    | ok r' => rw [hres] at hok; cases hok; rfl
  · rw [hshown] at hr
    cases hr
    rw [asks_of_asked hjournal, beq_self_eq_true]
    exact ⟨_, rfl, hnew⟩
  · rw [hshown] at hr
    contradiction

theorem Recalls.asks (hs : s.Holds rs) (h : Recalls s past)
    (hrequest : request ∉ answered (sinceClear past)) :
    (event s (.resolve request)).shown.outcome? = some (Interview.resolve s.engine request).1 ∧
      (event s (.resolve request)).journal = (Interview.resolve s.engine request).2 := by
  have hnone := (h.kept?_eq_none_iff hs request).mpr hrequest
  rcases event_resolve_cases hs request with
    ⟨r, hkept, -, -⟩ | ⟨-, r, hnew, hshown, hjournal⟩ | ⟨-, e, hfailed, hshown, hjournal, -⟩
  · rw [hnone] at hkept
    contradiction
  · rw [hshown, hnew]
    exact ⟨rfl, hjournal⟩
  · rw [hshown, hfailed]
    exact ⟨rfl, hjournal⟩

theorem Recalls.replays (hs : s.Holds rs) (h : Recalls s past)
    (hrequest : request ∈ answered (sinceClear past)) :
    (∃ place r, (event s (.resolve request)).shown = .answer place r) ∧
      (event s (.resolve request)).journal = Journal.blank := by
  have hsome := mt (h.kept?_eq_none_iff hs request).mp (not_not_intro hrequest)
  rcases event_resolve_cases hs request with
    ⟨r, -, hshown, hjournal⟩ | ⟨hnone, -⟩ | ⟨hnone, -⟩
  · exact ⟨⟨_, r, hshown⟩, hjournal⟩
  · exact absurd hnone hsome
  · exact absurd hnone hsome

theorem Recalls.asked_iff (hs : s.Holds rs) (h : Recalls s past) (request : String) :
    (event s (.resolve request)).journal.asked ≠ [] ↔ request ∉ answered (sinceClear past) := by
  constructor
  · intro hasked hrequest
    rw [(h.replays hs hrequest).2] at hasked
    exact hasked rfl
  · intro hrequest
    rw [(h.asks hs hrequest).2]
    exact Interview.asked_resolve_ne_nil _ _

theorem fails_of_shown (hs : s.Holds rs) {e : Engine.EngineError}
    (h : (event s (.resolve request)).shown = .failed e) :
    (Interview.resolve s.engine request).1 = .error e ∧
      (event s (.resolve request)).after = s := by
  rcases event_resolve_cases hs request with
    ⟨r, -, hshown, -⟩ | ⟨-, r, -, hshown, -⟩ | ⟨-, e', hfailed, hshown, -, hafter⟩
  · rw [hshown] at h
    contradiction
  · rw [hshown] at h
    contradiction
  · rw [hshown] at h
    cases h
    exact ⟨hfailed, hafter⟩

-- As many are kept as different requests were answered.
theorem Recalls.size (hs : s.Holds rs) (h : Recalls s past) :
    s.memory.kept.length = (answered (sinceClear past)).toFinset.card := by
  have hfinset : (answered (sinceClear past)).toFinset =
      (Entries.keys s.memory.kept).toFinset := by
    ext request
    rw [List.mem_toFinset, List.mem_toFinset, h.requests]
  rw [hfinset, List.toFinset_card_of_nodup hs.requests]
  exact (List.length_map _).symm

theorem apart_of_edit (hs : s.Holds rs) (answer : Int) (change : Edit) :
    (event s (.edit answer change)).after.kept? = s.kept? ∧
      ∀ place, s.place? answer ≠ some place →
        (event s (.edit answer change)).after.read? place = s.read? place := by
  refine ⟨kept?_after hs _, ?_⟩
  intro place hplace
  change (s.edit (s.place? answer) change).read? place = s.read? place
  cases hanswer : s.place? answer with
  | none => rfl
  | some other =>
      obtain ⟨object, hobject⟩ := exists_returned_of_place? hanswer
      rw [hs.read?_edit hobject change, if_neg]
      rintro rfl
      exact hplace hanswer

-- Where the engine is still the one that was asked, the answer is the one it would give.
theorem Recalls.steady (hs : s.Holds rs) (h : Recalls s past)
    (hengine : ∀ e ∈ sinceClear past, e.before.engine = s.engine) (request : String) :
    (event s (.resolve request)).shown.outcome? =
      some (Interview.resolve s.engine request).1 := by
  by_cases hrequest : request ∈ answered (sinceClear past)
  · obtain ⟨⟨place, r, hshown⟩, -⟩ := h.replays hs hrequest
    obtain ⟨src, hsrc, hok⟩ := h.source hs hshown
    have hmem : src ∈ sinceClear past ++ [event s (.resolve request)] := by
      exact List.mem_of_mem_filter (List.mem_of_getLast? hsrc)
    have hsame : src.before.engine = s.engine := by
      rcases List.mem_append.mp hmem with hold | hnew
      · exact hengine src hold
      · rw [List.mem_singleton.mp hnew]
        rfl
    rw [hshown, ← hsame, hok]
    rfl
  · exact (h.asks hs hrequest).1

theorem read?_after_answer (hs : s.Holds rs) {place : Nat} {r : Resolved}
    (h : (event s (.resolve request)).shown = .answer place r) (more : List Step) :
    (after (event s (.resolve request)).after more).read? place =
      some ((changesOf (event s (.resolve request)).after place more).foldl
        (fun r change => change.apply r) r) := by
  obtain ⟨_, hs'⟩ := exists_holds_after hs (.resolve request)
  obtain ⟨-, hread, hplace⟩ := read?_of_shown hs h
  rw [read?_run hs' more hplace, hread]
  rfl

-- What is true of the next step, after any others: an answer is what the engine said when it
-- was last asked about the request, it is asked again only after a clear, a failure leaves no
-- trace, and what the caller does to its answers stays with these answers.
structure Remembers (history : List Event) (now : State) : Prop where
  source : ∀ {request : String} {place : Nat} {r : Resolved},
    (event now (.resolve request)).shown = .answer place r →
    ∃ src, lastAsked? request (sinceClear history ++ [event now (.resolve request)]) = some src ∧
      (Interview.resolve src.before.engine request).1 = .ok r
  asked_iff : ∀ request, (event now (.resolve request)).journal.asked ≠ [] ↔
    request ∉ answered (sinceClear history)
  asks : ∀ {request}, request ∉ answered (sinceClear history) →
    (event now (.resolve request)).shown.outcome? =
        some (Interview.resolve now.engine request).1 ∧
      (event now (.resolve request)).journal = (Interview.resolve now.engine request).2
  replays : ∀ {request}, request ∈ answered (sinceClear history) →
    (∃ place r, (event now (.resolve request)).shown = .answer place r) ∧
      (event now (.resolve request)).journal = Journal.blank
  fails : ∀ {request : String} {e : Engine.EngineError},
    (event now (.resolve request)).shown = .failed e →
    (Interview.resolve now.engine request).1 = .error e ∧
      (event now (.resolve request)).after = now
  size : now.memory.kept.length = (answered (sinceClear history)).toFinset.card
  apart : ∀ answer change, (event now (.edit answer change)).after.kept? = now.kept? ∧
    ∀ place, now.place? answer ≠ some place →
      (event now (.edit answer change)).after.read? place = now.read? place
  own : ∀ {request : String} {place : Nat} {r : Resolved},
    (event now (.resolve request)).shown = .answer place r →
    ∀ more, (after (event now (.resolve request)).after more).read? place =
      some ((changesOf (event now (.resolve request)).after place more).foldl
        (fun r change => change.apply r) r)
  steady : (∀ e ∈ sinceClear history, e.before.engine = now.engine) → ∀ request,
    (event now (.resolve request)).shown.outcome? =
      some (Interview.resolve now.engine request).1

-- Every run of a new resolver remembers, and its requests go as if no answer had ever been
-- changed.
theorem run_remembers (engine : Answers) (past : List Step) :
    Remembers (events (start engine) past) (after (start engine) past) ∧
      replies (events (start engine) past) =
        replies (events (start engine) (past.filter fun next => !next.isEdit)) := by
  have hstart := State.holds_start engine
  obtain ⟨rs, hs⟩ := exists_holds_run hstart past
  have hrecalls := recalls_run engine past
  refine ⟨?_, replies_filter_isEdit hstart hstart rfl past⟩
  exact {
    source := hrecalls.source hs
    asked_iff := hrecalls.asked_iff hs
    asks := hrecalls.asks hs
    replays := hrecalls.replays hs
    fails := fails_of_shown hs
    size := hrecalls.size hs
    apart := apart_of_edit hs
    own := read?_after_answer hs
    steady := hrecalls.steady hs
  }

end Dialect.Format.Resolver
