import Dialect.Proofs.Engine.Containment

-- No program outlives the call that started it.

namespace Dialect.Engine

open Session (argumentFault?)

namespace Behaviour

def Hangs (b : Behaviour) : Prop :=
  ∃ exited vanished, b = .hangs exited vanished

-- It hangs, and the caller gives up or the time is over.
def Interrupted (o : Options) (cancel : Bool) (b : Behaviour) : Prop :=
  b.Hangs ∧ (cancel = true ∨ o.timeout ≠ none)

end Behaviour

-- All that may be done to a program from its start to its end.
inductive Course : Bool → List Deed → Prop
  | notStarted : Course false []
  | finished : Course true [.converse true]
  -- its exit code was known when it was left
  | reaped : Course true [.converse false, .wait]
  | killed : Course true [.converse false, .kill, .wait]

-- It was never started, or heard to the end, or its end was waited for.
def Launch.Settled (l : Launch) : Prop :=
  l.started = false ∨ .converse true ∈ l.deeds ∨ .wait ∈ l.deeds

def Launch.Completed (l : Launch) : Prop :=
  Course l.started l.deeds

theorem Launch.Completed.settled {l : Launch} (h : l.Completed) : l.Settled := by
  unfold Launch.Completed at h
  unfold Launch.Settled
  generalize l.started = started at h ⊢
  generalize l.deeds = deeds at h ⊢
  cases h <;> simp

-- How one program was used for a call, and what the caller got for it.
structure Conducted (o : Options) (operation : Operation) (cancel : Bool) (b : Behaviour)
    (l : Launch) (result : Except Failure Reply) : Prop where
  -- the caller waits for ever only for a program that nobody interrupts
  endless_iff : result = .error .endless ↔ b.Hangs ∧ ¬ b.Interrupted o cancel
  settled : result ≠ .error .endless → l.Settled
  notStarted : ∀ error, b = .fails error → l.started = false ∧ l.deeds = []
  finished : ∀ output complaint code, b = .ends output complaint code →
    l.started = true ∧ l.deeds = [.converse true]
  -- it is waited for once, after the kill if there is one; that it is gone changes nothing
  interrupted : ∀ exited vanished, b = .hangs exited vanished → b.Interrupted o cancel →
    l.started = true ∧ l.deeds = .converse false :: ((if exited then [] else [.kill]) ++ [.wait])
  killed_iff : .kill ∈ l.deeds ↔ ∃ vanished, b = .hangs false vanished ∧ b.Interrupted o cancel
  tolerated : result ≠ .error .vanished
  cancelled_iff : result = .error .cancelled ↔ b.Hangs ∧ cancel = true
  timedOut_iff : ∀ t, result = .error (.engine ⟨operation, .timedOut t⟩) ↔
    b.Hangs ∧ cancel = false ∧ o.timeout = some t

-- What only a program that hangs can lead to.
inductive Failure.OfHanging : Failure → Prop
  | timedOut {operation : Operation} {t : Setting.Amount} :
      OfHanging (.engine ⟨operation, .timedOut t⟩)
  | cancelled : OfHanging .cancelled
  | endless : OfHanging .endless
  | vanished : OfHanging .vanished

-- A failure behind which a program may go on running: it is waited for in vain, or was not fed.
def Failure.Leaves (failure : Failure) : Prop :=
  failure = .endless ∨ failure.IsFault

section Deeds

variable {o : Options} {cancel : Bool} {b : Behaviour}

theorem interrupted_hangs_iff {exited vanished : Bool} :
    (Behaviour.hangs exited vanished).Interrupted o cancel ↔
      (cancel || o.timeout.isSome) = true := by
  have hhangs : (Behaviour.hangs exited vanished).Hangs := ⟨exited, vanished, rfl⟩
  simp [Behaviour.Interrupted, hhangs, Option.isSome_iff_ne_none]

theorem deeds_of_interrupted {exited vanished : Bool}
    (h : (Behaviour.hangs exited vanished).Interrupted o cancel) :
    (Behaviour.hangs exited vanished).deeds o cancel =
      .converse false :: ((if exited then [] else [.kill]) ++ [.wait]) := by
  rw [Behaviour.deeds, if_pos (interrupted_hangs_iff.mp h)]

theorem kill_mem_deeds_iff :
    .kill ∈ b.deeds o cancel ↔ ∃ vanished, b = .hangs false vanished ∧ b.Interrupted o cancel := by
  cases b with
  | fails error => simp [Behaviour.deeds]
  | ends output complaint code => simp [Behaviour.deeds]
  | hangs exited vanished =>
      by_cases h : (Behaviour.hangs exited vanished).Interrupted o cancel
      · rw [deeds_of_interrupted h]
        cases exited <;> simp [h]
      · simp [Behaviour.deeds, interrupted_hangs_iff.not.mp h, h]

theorem course_deeds (h : b.Hangs → b.Interrupted o cancel) :
    Course b.starts (b.deeds o cancel) := by
  cases b with
  | fails error => exact .notStarted
  | ends output complaint code => exact .finished
  | hangs exited vanished =>
      rw [deeds_of_interrupted (h ⟨exited, vanished, rfl⟩)]
      cases exited
      · exact .killed
      · exact .reaped

end Deeds

section Answer

variable {o : Options} {program : Text} {operation : Operation} {cancel : Bool} {b : Behaviour}
  {input : Option Text} {failure : Failure}

theorem hangs_of_answer (h : b.answer o program operation cancel = .error failure)
    (hfailure : failure.OfHanging) : b.Hangs := by
  cases b with
  | fails error =>
      simp only [Behaviour.answer] at h
      split at h <;> cases h <;> cases hfailure
  | ends output complaint code =>
      simp only [Behaviour.answer] at h
      split at h
      · cases h
        cases hfailure
      · cases hdecode : Utf8.decode output with
        | ok text => simp [hdecode] at h
        | error e =>
            simp only [hdecode] at h
            cases h
            cases hfailure
  | hangs exited vanished => exact ⟨exited, vanished, rfl⟩

theorem answer_ne_vanished : b.answer o program operation cancel ≠ .error .vanished := by
  intro h
  obtain ⟨exited, vanished, rfl⟩ := hangs_of_answer h .vanished
  cases cancel <;> cases htime : o.timeout <;> simp [Behaviour.answer, htime] at h

theorem answer_eq_endless_iff : b.answer o program operation cancel = .error .endless ↔
    b.Hangs ∧ ¬ b.Interrupted o cancel := by
  by_cases hb : b.Hangs
  · obtain ⟨exited, vanished, rfl⟩ := id hb
    cases cancel <;> cases htime : o.timeout <;>
      simp [Behaviour.answer, Behaviour.Interrupted, htime, hb]
  · exact iff_of_false (fun h => hb (hangs_of_answer h .endless)) fun h => hb h.1

theorem answer_eq_cancelled_iff : b.answer o program operation cancel = .error .cancelled ↔
    b.Hangs ∧ cancel = true := by
  by_cases hb : b.Hangs
  · obtain ⟨exited, vanished, rfl⟩ := id hb
    cases cancel <;> cases htime : o.timeout <;> simp [Behaviour.answer, htime, hb]
  · exact iff_of_false (fun h => hb (hangs_of_answer h .cancelled)) fun h => hb h.1

theorem answer_eq_timedOut_iff (t : Setting.Amount) :
    b.answer o program operation cancel = .error (.engine ⟨operation, .timedOut t⟩) ↔
      b.Hangs ∧ cancel = false ∧ o.timeout = some t := by
  by_cases hb : b.Hangs
  · obtain ⟨exited, vanished, rfl⟩ := id hb
    cases cancel <;> cases htime : o.timeout <;> simp [Behaviour.answer, htime, hb]
  · exact iff_of_false (fun h => hb (hangs_of_answer h .timedOut)) fun h => hb h.1

theorem deeds_launch_of_fed (h : b.fault? o input = none) (argv : List Text) :
    (b.launch o cancel input argv).deeds = b.deeds o cancel := by
  simp [Behaviour.launch, h]

theorem outcome_of_fed (h : b.fault? o input = none) :
    b.outcome o program operation cancel input = b.answer o program operation cancel := by
  simp [Behaviour.outcome, h]

-- A program that gave its answer is done with, if it could be fed.
theorem completed_launch {argv : List Text} (hfed : b.fault? o input = none)
    (h : b.answer o program operation cancel ≠ .error .endless) :
    (b.launch o cancel input argv).Completed := by
  rw [Ne, answer_eq_endless_iff] at h
  rw [Launch.Completed, deeds_launch_of_fed hfed]
  exact course_deeds fun hhangs => by_contra fun hfree => h ⟨hhangs, hfree⟩

-- What a call makes of a text never looks like a program that hangs.
theorem bind_eq_error_iff {call : Call} {read : String → Except Failure Reply}
    (hreads : ∀ text, call.Reads text (read text)) (hfailure : failure.OfHanging) :
    (b.answer o program operation cancel >>= read) = .error failure ↔
      b.answer o program operation cancel = .error failure := by
  cases b.answer o program operation cancel with
  | error failure' => exact ⟨fun h => by cases h; rfl, fun h => by cases h; rfl⟩
  | ok text =>
      refine iff_of_false (fun h => ?_) (by rintro ⟨⟩)
      have hread : call.Reads text (.error failure) := h ▸ hreads text
      cases hread
      cases hfailure

end Answer

namespace Session

variable {s : Session} {call : Call} {operation : Operation}

theorem perform_run_noCommand (h : ∀ program, s.options.program ≠ .str program)
    (operation : Operation) (args : List Text) (input : Option Text) (cancel : Bool) :
    s.perform (run operation args input cancel) = (.error .noCommand, s) := by
  unfold run
  simp only [perform_bind, perform_get]
  cases hprogram : s.options.program with
  | str program => exact absurd hprogram (h program)
  | _ => rfl

-- A call without a command line starts nothing.
theorem perform_call_noCommand (h : ∀ program, s.options.program ≠ .str program)
    (hcall : call.operation? = some operation) (cancel : Bool) :
    s.perform (call.act cancel) = (.error .noCommand, s) := by
  obtain ⟨read, -, hact⟩ := perform_act s hcall cancel
  rw [hact, perform_run_noCommand h]
  rfl

theorem conducted (hfed : s.upcoming.fault? s.options call.input = none) (cancel : Bool)
    {program : Text} {read : String → Except Failure Reply}
    (hreads : ∀ text, call.Reads text (read text)) (argv : List Text) :
    Conducted s.options operation cancel s.upcoming
      (s.upcoming.launch s.options cancel call.input argv)
      (s.upcoming.outcome s.options program operation cancel call.input >>= read) := by
  rw [outcome_of_fed hfed]
  exact {
    endless_iff := (bind_eq_error_iff hreads .endless).trans answer_eq_endless_iff
    settled := fun hover =>
      (completed_launch hfed ((bind_eq_error_iff hreads .endless).not.mp hover)).settled
    notStarted := fun error hb => by
      rw [deeds_launch_of_fed hfed, hb]
      exact ⟨rfl, rfl⟩
    finished := fun output complaint code hb => by
      rw [deeds_launch_of_fed hfed, hb]
      exact ⟨rfl, rfl⟩
    interrupted := fun exited vanished hb h => by
      rw [deeds_launch_of_fed hfed]
      rw [hb] at h ⊢
      exact ⟨rfl, deeds_of_interrupted h⟩
    killed_iff := by
      rw [deeds_launch_of_fed hfed]
      exact kill_mem_deeds_iff
    tolerated := (bind_eq_error_iff hreads .vanished).not.mpr answer_ne_vanished
    cancelled_iff := (bind_eq_error_iff hreads .cancelled).trans answer_eq_cancelled_iff
    timedOut_iff := fun t =>
      (bind_eq_error_iff hreads .timedOut).trans (answer_eq_timedOut_iff t) }

-- A program that runs and cannot be fed is left as it is.
theorem left_alone {failure : Failure} {program : Text} (operation : Operation)
    (h : s.upcoming.fault? s.options call.input = some failure) (cancel : Bool)
    (read : String → Except Failure Reply) (argv : List Text) :
    (s.upcoming.outcome s.options program operation cancel call.input >>= read) = .error failure ∧
      (s.upcoming.launch s.options cancel call.input argv).started = true ∧
      (s.upcoming.launch s.options cancel call.input argv).deeds = [] := by
  have hstarts : s.upcoming.starts = true := by
    by_contra hstarts
    rw [Behaviour.fault?, if_neg hstarts] at h
    cases h
  exact ⟨by rw [Behaviour.outcome, h]; rfl, hstarts, by simp [Behaviour.launch, h]⟩

-- Whatever a program does and whenever it is interrupted, a call starts it at most once, and when
-- the call is over the program is too, if it could be fed. One that runs and cannot be fed is left
-- running: nobody hears it, kills it or waits for it. With an argument that the system does not
-- take nothing is started.
theorem call_conducted (hcall : call.operation? = some operation) (cancel : Bool) :
    (∀ program, s.options.program = .str program →
      ((∀ argument ∈ program :: call.arguments s.options, Argument argument) →
        ∃ l, (s.perform (call.act cancel)).2.launches = s.launches ++ [l] ∧
          l.argv = program :: call.arguments s.options ∧
          ((s.upcoming.starts = true → Fed s.options call.input) →
            Conducted s.options operation cancel s.upcoming l
              (s.perform (call.act cancel)).1) ∧
          (s.upcoming.starts = true → ¬Fed s.options call.input →
            ∃ failure, (s.perform (call.act cancel)).1 = .error failure ∧ failure.IsFault ∧
              l.started = true ∧ l.deeds = [])) ∧
      ((∃ argument ∈ program :: call.arguments s.options, ¬Argument argument) →
        ∃ failure, (s.perform (call.act cancel)).1 = .error failure ∧ failure.IsFault ∧
          (s.perform (call.act cancel)).2.launches = s.launches)) ∧
    ((∀ program, s.options.program ≠ .str program) →
      s.perform (call.act cancel) = (.error .noCommand, s)) := by
  refine ⟨fun program h => ⟨fun harguments => ?_, fun hargument => ?_⟩,
    fun h => perform_call_noCommand h hcall cancel⟩
  · obtain ⟨records, read, hreads, hcalled⟩ :=
      perform_call_eq h hcall (arguments_fault?_eq_none_iff.mpr harguments) cancel
    rw [hcalled]
    refine ⟨_, rfl, rfl, fun hfed => ?_, fun hstarts hfed => ?_⟩
    · exact conducted (behaviour_fault?_eq_none_iff.mpr hfed) cancel hreads _
    · obtain ⟨failure, hfailure⟩ := Option.ne_none_iff_exists'.mp
        (behaviour_fault?_eq_none_iff.not.mpr fun h => hfed (h hstarts))
      obtain ⟨hresult, hstarted, hdeeds⟩ := left_alone operation hfailure cancel read
        (program :: call.arguments s.options)
      exact ⟨failure, hresult, isFault_of_behaviour hfailure, hstarted, hdeeds⟩
  · have hfault : (program :: call.arguments s.options).findSome? argumentFault? ≠ none := by
      rw [Ne, arguments_fault?_eq_none_iff]
      exact fun h => hargument.elim fun argument h' => h'.2 (h argument h'.1)
    obtain ⟨failure, hfailure⟩ := Option.ne_none_iff_exists'.mp hfault
    obtain ⟨records, hcalled⟩ := perform_call_of_fault h hcall hfailure cancel
    rw [hcalled]
    exact ⟨failure, rfl, isFault_of_arguments hfailure, rfl⟩

-- The time is over, and when the program is to be killed it is gone.
private def late : Session :=
  start ⟨.str (Text.of "pandoc"), some (.whole 5), []⟩ [.hangs false true]

theorem call_conducted_late : Call.version.operation? = some .version ∧
    ∃ l, (late.perform (Call.version.act false)).2.launches = [l] ∧
      l.deeds = [.converse false, .kill, .wait] ∧
      (late.perform (Call.version.act false)).1 =
        .error (.engine ⟨.version, .timedOut (.whole 5)⟩) := by
  have hfits : Call.version.Fits late.options (Text.of "pandoc") late.upcoming :=
    fault?_eq_none_iff.mp (by decide +kernel)
  obtain ⟨l, hlaunches, -, hconducted, -⟩ :=
    ((@call_conducted late .version .version rfl false).1 (Text.of "pandoc") rfl).1 hfits.1
  have hhangs : late.upcoming.Hangs := ⟨false, true, rfl⟩
  have hinterrupted : late.upcoming.Interrupted late.options false := ⟨hhangs, .inr (by decide)⟩
  have hover := hconducted hfits.2
  exact ⟨rfl, l, hlaunches, (hover.interrupted false true rfl hinterrupted).2,
    (hover.timedOut_iff _).mpr ⟨hhangs, rfl, rfl⟩⟩

-- A document that cannot be sent to the program, which is running already.
private def stranded : Call := .astToMarkdown halved "gfm" []

theorem call_conducted_stranded :
    (∃ l, (late.perform (stranded.act false)).2.launches = [l] ∧ l.started = true ∧
      l.deeds = []) ∧
    (late.perform (stranded.act false)).1 = .error .unencodable := by
  have harguments : (Text.of "pandoc" :: stranded.arguments late.options).findSome?
      argumentFault? = none := by decide +kernel
  obtain ⟨records, read, -, hcalled⟩ := @perform_call_eq late (Text.of "pandoc") stranded
    .astToMarkdown rfl rfl harguments false
  obtain ⟨hresult, hstarted, hdeeds⟩ := @left_alone late stranded .unencodable (Text.of "pandoc")
    .astToMarkdown (by decide +kernel) false read
    (Text.of "pandoc" :: stranded.arguments late.options)
  rw [hcalled]
  exact ⟨⟨_, rfl, hstarted, hdeeds⟩, hresult⟩

-- Whatever the act starts is over when the act is, unless it fails in a way that leaves it.
def Clean {α : Type} (act : Act α) : Prop :=
  ∀ s : Session, ∃ new, (s.perform act).2.launches = s.launches ++ new ∧
    ((∀ failure, (s.perform act).1 = .error failure → ¬failure.Leaves) → ∀ l ∈ new, l.Completed)

section Clean

variable {α β : Type}

theorem clean_of_launches_eq {act : Act α}
    (h : ∀ s : Session, (s.perform act).2.launches = s.launches) : Clean act :=
  fun s => ⟨[], by rw [h, List.append_nil], by simp⟩

theorem clean_pure (a : α) : Clean (pure a) := clean_of_launches_eq fun _ => rfl

theorem clean_note (r : Log.Record) : Clean (note r) := clean_of_launches_eq fun _ => rfl

theorem clean_get : Clean get := clean_of_launches_eq fun _ => rfl

theorem clean_failWith (operation : Operation) (cause : Cause) :
    Clean (failWith operation cause : Act α) := clean_of_launches_eq fun _ => rfl

-- What comes after an act that is over starts more, and the rest is a matter of that.
theorem Clean.bind {act : Act α} {next : α → Act β} (h : Clean act)
    (hnext : ∀ a, Clean (next a)) : Clean (act >>= next) := by
  intro s
  obtain ⟨first, hfirst, hover⟩ := h s
  rw [perform_bind]
  cases hact : s.perform act with
  | mk result after =>
      rw [hact] at hfirst hover
      cases result with
      | error failure =>
          refine ⟨first, hfirst, fun hdone => hover fun failure' h => hdone failure' ?_⟩
          cases h
          rfl
      | ok a =>
          obtain ⟨second, hsecond, hover'⟩ := hnext a after
          refine ⟨first ++ second, ?_, fun hdone => ?_⟩
          · rw [hsecond, hfirst, List.append_assoc]
          · exact List.forall_mem_append.mpr ⟨hover (by simp), hover' hdone⟩

theorem Clean.map {act : Act α} (h : Clean act) (f : α → β) : Clean (f <$> act) := by
  rw [← bind_pure_comp]
  exact h.bind fun a => clean_pure (f a)

theorem clean_run (operation : Operation) (args : List Text) (input : Option Text)
    (cancel : Bool) : Clean (run operation args input cancel) := by
  intro s
  by_cases h : ∃ program, s.options.program = .str program
  · obtain ⟨program, h⟩ := h
    cases hargs : (program :: args).findSome? argumentFault? with
    | some failure =>
        obtain ⟨records, hrun⟩ := s.perform_run_of_fault h hargs operation input cancel
        rw [hrun]
        exact ⟨[], (List.append_nil _).symm, by simp⟩
    | none =>
        obtain ⟨records, hrun⟩ := s.perform_run h hargs operation input cancel
        refine ⟨[s.upcoming.launch s.options cancel input (program :: args)], by rw [hrun], ?_⟩
        rw [hrun]
        intro hdone l hl
        obtain rfl := List.mem_singleton.mp hl
        have hfed : s.upcoming.fault? s.options input = none := by
          by_contra hfault
          obtain ⟨failure, hfailure⟩ := Option.ne_none_iff_exists'.mp hfault
          refine hdone failure ?_ (.inr (isFault_of_behaviour hfailure))
          simp only [Behaviour.outcome, hfailure]
        refine @completed_launch _ program operation _ _ _ _ hfed fun h => ?_
        exact hdone .endless (by rw [outcome_of_fed hfed, h]) (.inl rfl)
  · rw [perform_run_noCommand fun program hprogram => h ⟨program, hprogram⟩]
    exact ⟨[], (List.append_nil _).symm, by simp⟩

theorem clean_logAll (cancel : Bool) (records : List Log.Record) :
    Clean (Format.Negotiation.logAll (negotiator cancel) records) := by
  induction records with
  | nil => exact clean_pure ()
  | cons r rest ih => exact (clean_note r).bind fun _ => ih

-- A negotiation asks for one list or for two.
theorem clean_resolve (cancel : Bool) (request : String) : Clean (resolve cancel request) := by
  have hlist (dialect : String) : Clean ((negotiator cancel).listExtensions dialect) :=
    clean_run _ _ _ _
  have hreport (dialect : String) (result : Format.Resolved) : Clean (do
      Format.Negotiation.logAll (negotiator cancel)
        (result.warnings.invalidOptions.map (Format.Negotiation.unsupportedRecord dialect))
      (negotiator cancel).log (Format.Negotiation.resolvedRecord request result)
      return result) :=
    (clean_logAll cancel _).bind fun _ => (clean_note _).bind fun _ => clean_pure result
  unfold resolve Format.Negotiation.resolve
  dsimp only
  split
  -- an unknown dialect is reported first
  on_goal 1 => refine (clean_note _).bind fun _ => ?_
  all_goals
    refine (hlist _).bind fun own => ?_
    split
    · exact (hlist _).bind fun shared => hreport _ _
    · exact (clean_pure "").bind fun shared => hreport _ _

theorem clean_act (call : Call) (cancel : Bool) : Clean (call.act cancel) := by
  cases call with
  | listExtensions dialect => exact (clean_run _ _ _ _).map _
  | version => exact ((clean_run _ _ _ _).bind fun _ => clean_pure _).map _
  | markdownToAst markdown format options =>
      refine (clean_get.bind fun s => (clean_run _ _ _ _).bind fun text => ?_).map _
      cases Document.ofText (Text.of text) with
      | ok d => exact clean_pure d
      | error fault => exact clean_failWith _ _
  | astToMarkdown d format options => exact (clean_get.bind fun s => clean_run _ _ _ _).map _
  | resolve request => exact (clean_resolve cancel request).map _

-- So it is after any row of calls, of which none fails in such a way.
theorem performAll_completed (calls : List (Call × Bool)) (s : Session) :
    ∃ new, (s.performAll calls).2.launches = s.launches ++ new ∧
      ((∀ failure, .error failure ∈ (s.performAll calls).1 → ¬failure.Leaves) →
        ∀ l ∈ new, l.Completed) := by
  induction calls generalizing s with
  | nil => exact ⟨[], (List.append_nil _).symm, by simp⟩
  | cons head rest ih =>
      obtain ⟨call, cancel⟩ := head
      obtain ⟨first, hfirst, hover⟩ := clean_act call cancel s
      obtain ⟨second, hsecond, hover'⟩ := ih (s.perform (call.act cancel)).2
      refine ⟨first ++ second, ?_, fun hdone => ?_⟩
      · rw [← List.append_assoc, ← hfirst, ← hsecond]
        rfl
      · exact List.forall_mem_append.mpr
          ⟨hover fun failure h => hdone failure (List.mem_cons.mpr (.inl h.symm)),
            hover' fun failure h => hdone failure (List.mem_cons_of_mem _ h)⟩

end Clean

end Session

end Dialect.Engine
