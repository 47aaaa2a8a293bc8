import Dialect.Engine.Process
import Mathlib.Tactic.Common

namespace Dialect.Engine

open Session (inputFault? argumentFault?)

-- What comes of starting a program that behaves in some way.
namespace Behaviour

variable (o : Options) (program : Text) (operation : Operation) (cancel : Bool)
  (input : Option Text)

-- The text that it writes, or why there is none. The exit code is looked at before the output.
def answer : Behaviour → Except Failure String
  | .fails error =>
    .error (.engine ⟨operation,
      if error.number = 2 then .notFound program error else .notStarted error⟩)
  | .ends output complaint code =>
    if code ≠ 0 then
      .error (.engine ⟨operation, .exited code (Text.trim (Utf8.decodeLossy complaint))⟩)
    else
      match Utf8.decode output with
      | .ok text => .ok text
      | .error _ => .error (.engine ⟨operation, .undecodable⟩)
  | .hangs _ _ =>
    if cancel then .error .cancelled
    else
      match o.timeout with
      | some t => .error (.engine ⟨operation, .timedOut t⟩)
      | none => .error .endless

-- What is done to it. One that hangs is left if there is anybody to leave it: whether it is gone
-- by then makes no difference.
def deeds : Behaviour → List Deed
  | .fails _ => []
  | .ends _ _ _ => [.converse true]
  | .hangs exited _ =>
    .converse false ::
      if cancel || o.timeout.isSome then (if exited then [] else [.kill]) ++ [.wait] else []

def starts : Behaviour → Bool
  | .fails _ => false
  | _ => true

-- What goes wrong beside it once it runs.
def fault? (b : Behaviour) : Option Failure :=
  if b.starts then inputFault? o.timeout input else none

-- What the question comes to when the program is started.
def outcome (b : Behaviour) : Except Failure String :=
  match b.fault? o input with
  | some failure => .error failure
  | none => b.answer o program operation cancel

-- How it is used. If something goes wrong beside it nothing is done to it.
def launch (argv : List Text) (b : Behaviour) : Launch where
  argv
  pipe := input.isSome
  started := b.starts
  input := if b.starts && (b.fault? o input).isNone then input.bind Text.string? else none
  deeds := if (b.fault? o input).isNone then b.deeds o cancel else []

end Behaviour

namespace Session

variable {α β : Type} (s : Session)

-- What the next program does; when all are used up there is none to start.
def upcoming : Behaviour :=
  s.programs.headD (.fails .missing)

theorem perform_bind (act : Act α) (next : α → Act β) :
    s.perform (act >>= next) = match s.perform act with
      | (.ok a, s) => s.perform (next a)
      | (.error e, s) => (.error e, s) := by
  unfold perform
  rw [ExceptT.run_bind, StateT.run_bind]
  rcases act.run.run s with ⟨e | a, after⟩ <;> rfl

theorem perform_map (f : α → β) (act : Act α) :
    s.perform (f <$> act) = ((s.perform act).1.map f, (s.perform act).2) := by
  rw [← bind_pure_comp, perform_bind]
  rcases s.perform act with ⟨e | a, after⟩ <;> rfl

theorem perform_get : s.perform get = (.ok s, s) := rfl

theorem perform_keep (l : Launch) :
    s.perform (keep l) = (.ok (), { s with launches := s.launches ++ [l] }) := rfl

theorem perform_noteAt (level : Log.Level) (message : Text) :
    s.perform (noteAt level message) =
      (.ok (), { s with records := s.records ++ [⟨level, logger, message⟩] }) := rfl

theorem perform_nextProgram :
    s.perform nextProgram = (.ok s.upcoming, { s with programs := s.programs.tail }) := by
  obtain ⟨options, programs, launches, records⟩ := s
  cases programs <;> rfl

theorem perform_failWith (operation : Operation) (cause : Cause) :
    s.perform (failWith operation cause : Act α) = (.error (.engine ⟨operation, cause⟩), s) := rfl

theorem perform_throwAny (fault : Option Failure) :
    s.perform (throwAny fault) = (match fault with
      | some failure => .error failure
      | none => .ok (), s) := by
  cases fault <;> rfl

theorem perform_finish (o : Options) (program : Text) (operation : Operation) (cancel : Bool)
    (output complaint : List UInt8) (code : Int) :
    ∃ records, ∀ s : Session, s.perform (finish operation output complaint code) =
      ((Behaviour.ends output complaint code).answer o program operation cancel,
        { s with records := s.records ++ records }) := by
  unfold finish
  by_cases hcode : code = 0
  · by_cases hquiet : Text.trim (Utf8.decodeLossy complaint) = ""
    · refine ⟨[], fun s => ?_⟩
      simp only [hcode, hquiet, ne_eq, not_true, if_false, Behaviour.answer, List.append_nil]
      cases Utf8.decode output <;> rfl
    · simp only [hcode, hquiet, ne_eq, not_true, not_false_eq_true, if_true, if_false,
        perform_bind, perform_noteAt, Behaviour.answer]
      cases Utf8.decode output <;> exact ⟨_, fun _ => rfl⟩
  · refine ⟨[], fun s => ?_⟩
    simp only [hcode, ne_eq, not_false_eq_true, if_true, Behaviour.answer, List.append_nil]
    rfl

section Deeds

variable {o : Options} {programs : List Behaviour} {launches : List Launch}
  {records : List Log.Record}

-- What is done is done to the launch that came last.
theorem perform_amend (l : Launch) (change : Launch → Launch) :
    perform ⟨o, programs, launches ++ [l], records⟩ (amend change) =
      (.ok (), ⟨o, programs, launches ++ [change l], records⟩) := by
  change (Except.ok (), Session.mk o programs _ records) = _
  simp only [List.dropLast_concat, List.getLast?_concat, Option.toList_some, List.map_cons,
    List.map_nil]

theorem perform_did (l : Launch) (d : Deed) :
    perform ⟨o, programs, launches ++ [l], records⟩ (did d) =
      (.ok (), ⟨o, programs, launches ++ [l.add d], records⟩) :=
  perform_amend l (Launch.add d)

theorem perform_converse (l : Launch) (input : Option String) (finished : Bool) :
    perform ⟨o, programs, launches ++ [l], records⟩ (converse input finished) =
      (.ok (), ⟨o, programs, launches ++ [{ l.add (.converse finished) with input }], records⟩) :=
  perform_amend l fun l => { l.add (.converse finished) with input }

theorem perform_tolerate (act : Act Unit) :
    s.perform (tolerate act) = match s.perform act with
      | (.error .vanished, s) => (.ok (), s)
      | result => result := by
  unfold perform tolerate tryCatch
  simp only [tryCatchThe, MonadExceptOf.tryCatch, instMonadExceptOfMonadExceptOf, ExceptT.tryCatch,
    ExceptT.run_mk, StateT.run_bind]
  change (StateT.run act.run s >>= _) = _
  rcases StateT.run act.run s with ⟨failure | u, after⟩
  · cases failure <;> rfl
  · rfl

theorem perform_kill (l : Launch) (vanished : Bool) :
    perform ⟨o, programs, launches ++ [l], records⟩ (kill vanished) =
      (if vanished then .error .vanished else .ok (),
        ⟨o, programs, launches ++ [l.add .kill], records⟩) := by
  rw [kill, perform_bind, perform_did]
  cases vanished <;> rfl

-- A program that is gone by the time is left like any other.
theorem perform_abandon (l : Launch) (exited vanished : Bool) :
    perform ⟨o, programs, launches ++ [l], records⟩ (abandon exited vanished) =
      (.ok (), ⟨o, programs, launches ++
        [{ l with deeds := l.deeds ++ ((if exited then [] else [.kill]) ++ [.wait]) }],
        records⟩) := by
  cases exited with
  | true => exact perform_did l .wait
  | false =>
      have hkilled : perform ⟨o, programs, launches ++ [l], records⟩ (tolerate (kill vanished)) =
          (.ok (), ⟨o, programs, launches ++ [l.add .kill], records⟩) := by
        rw [perform_tolerate, perform_kill]
        cases vanished <;> rfl
      change perform _ (tolerate (kill vanished) >>= fun _ => did .wait) = _
      rw [perform_bind, hkilled]
      dsimp only
      rw [perform_did]
      simp [Launch.add]

end Deeds

-- A question whose arguments the system does not take starts nothing.
theorem perform_run_of_fault {program : Text} {failure : Failure} {args : List Text}
    (h : s.options.program = .str program)
    (hargs : (program :: args).findSome? argumentFault? = some failure) (operation : Operation)
    (input : Option Text) (cancel : Bool) :
    ∃ records, s.perform (run operation args input cancel) =
      (.error failure, { s with records := s.records ++ records }) := by
  unfold run
  simp only [perform_bind, perform_get, h, perform_noteAt, hargs, perform_throwAny]
  exact ⟨_, rfl⟩

-- All that another question does: the next program is started once, and it is left in one way.
theorem perform_run {program : Text} {args : List Text} (h : s.options.program = .str program)
    (hargs : (program :: args).findSome? argumentFault? = none) (operation : Operation)
    (input : Option Text) (cancel : Bool) :
    ∃ records, s.perform (run operation args input cancel) =
      (s.upcoming.outcome s.options program operation cancel input,
        { s with
          programs := s.programs.tail
          launches := s.launches ++
            [s.upcoming.launch s.options cancel input (program :: args)]
          records := s.records ++ records }) := by
  have hupcoming (records : List Log.Record) : upcoming { s with records } = s.upcoming := rfl
  unfold run
  simp only [perform_bind, perform_get, h, perform_noteAt, perform_nextProgram, hupcoming, hargs,
    perform_throwAny]
  cases s.upcoming with
  | fails error =>
      simp only [perform_bind, perform_keep, Behaviour.outcome, Behaviour.fault?, Behaviour.starts,
        Bool.false_eq_true, if_false, Behaviour.answer]
      by_cases hmissing : error.number = 2 <;>
        simp only [hmissing, if_true, if_false, perform_failWith] <;>
        exact ⟨_, rfl⟩
  | ends output complaint code =>
      obtain ⟨records, hfinish⟩ := perform_finish s.options program operation cancel output
        complaint code
      cases hfault : inputFault? s.options.timeout input <;>
        simp only [perform_bind, perform_keep, perform_converse, perform_throwAny, hfinish,
          List.append_assoc, Behaviour.outcome, Behaviour.fault?, Behaviour.launch,
          Behaviour.starts, if_true, hfault]
      · exact ⟨_, rfl⟩
      · exact ⟨_, rfl⟩
  | hangs exited vanished =>
      cases hfault : inputFault? s.options.timeout input with
      | some failure =>
          simp only [perform_bind, perform_keep, perform_throwAny, Behaviour.outcome,
            Behaviour.fault?, Behaviour.launch, Behaviour.starts, if_true, hfault]
          exact ⟨_, rfl⟩
      | none =>
          simp only [perform_bind, perform_keep, perform_converse, perform_throwAny,
            Behaviour.outcome, Behaviour.fault?, Behaviour.launch, Behaviour.starts, if_true,
            hfault, Behaviour.answer, Behaviour.deeds]
          cases cancel with
          | true =>
              simp only [if_true, perform_bind, perform_abandon]
              exact ⟨_, rfl⟩
          | false =>
              cases s.options.timeout with
              | none => exact ⟨_, rfl⟩
              | some t =>
                  simp only [Bool.false_eq_true, if_false, perform_bind, perform_abandon,
                    perform_noteAt, perform_failWith, List.append_assoc]
                  exact ⟨_, rfl⟩

end Session

end Dialect.Engine
