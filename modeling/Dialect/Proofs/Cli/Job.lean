import Dialect.Cli.Run
import Dialect.Proofs.Text.Code

namespace Dialect.Cli

open Job (put print tell ask)

namespace Progress

variable {α β : Type} (p : Progress)

theorem perform_bind (job : Job α) (next : α → Job β) :
    p.perform (job >>= next) = match p.perform job with
      | (.ok a, p) => p.perform (next a)
      | (.error trouble, p) => (.error trouble, p) := by
  unfold perform
  rw [ExceptT.run_bind, StateT.run_bind]
  rcases job.run.run p with ⟨trouble | a, after⟩ <;> rfl

theorem perform_pure (a : α) : p.perform (pure a) = (.ok a, p) := rfl

theorem perform_get : p.perform get = (.ok p, p) := rfl

theorem perform_lift (result : Except Trouble α) :
    p.perform (liftM result : Job α) = (result, p) := by
  cases result <;> rfl

theorem perform_put (text : Text) :
    p.perform (put text) = match text.string? with
      | some text => (.ok (), { p with output := p.output ++ text })
      | none => (.error (.fault .unprintable), p) := by
  unfold put
  cases text.string? <;> rfl

-- What is answered, what is logged, and what was started.
theorem perform_ask (o : Engine.Options) (programs : List Engine.Behaviour) (act : Engine.Act α) :
    p.perform (ask o programs act) =
      let (result, session) := (Engine.Session.start o programs).perform act
      (match result with
        | .ok answer => .ok answer
        | .error (.engine error) => .error (.engine error)
        | .error failure => .error (.fault (.engine failure)),
        { p with
          writer := p.writer.logAll session.records
          launches := p.launches ++ session.launches }) := by
  unfold ask
  rcases (Engine.Session.start o programs).perform act with ⟨failure | answer, session⟩
  · cases failure <;> rfl
  · rfl

end Progress

-- The lines as they are written, each with its end, up to the first that cannot be encoded.
def printed : List Text → String
  | [] => ""
  | line :: rest =>
    match line.string? with
    | some text => text ++ "\n" ++ printed rest
    | none => ""

namespace Progress

variable (p : Progress)

theorem perform_print (line : Text) :
    p.perform (print line) = match line.string? with
      | some text => (.ok (), { p with output := p.output ++ (text ++ "\n") })
      | none => (.error (.fault .unprintable), p) := by
  rw [print, perform_put]
  cases hline : line.string? with
  | some text =>
      obtain rfl := Text.string?_eq_some_iff.mp hline
      have hend : (Text.of text ++ Text.of "\n").string? = some (text ++ "\n") :=
        Text.string?_eq_some_iff.mpr (by simp [Text.of])
      simp only [hend]
  | none =>
      have hend : (line ++ Text.of "\n").string? = none := by
        rw [← Option.not_isSome_iff_eq_none, Text.isSome_string?] at hline ⊢
        exact fun h => hline (Text.isPlain_of_append_left h)
      simp only [hend]

theorem perform_prints {α : Type} (line : α → Text) (items : List α) :
    p.perform (forM items fun a => print (line a)) =
      (if (items.map line).all Text.isPlain then .ok () else .error (.fault .unprintable),
        { p with output := p.output ++ printed (items.map line) }) := by
  induction items generalizing p with
  | nil => simp [printed, perform_pure]
  | cons a rest ih =>
      rw [List.forM_cons, perform_bind, perform_print, List.map_cons, List.all_cons, printed,
        ← Text.isSome_string?]
      cases (line a).string? with
      | none => simp
      | some text => simp [ih, String.append_assoc]

end Progress

-- A job that fails for nothing but what nobody answers for.
def Job.OnlyFaults {α : Type} (job : Job α) : Prop :=
  ∀ p : Progress, ∀ trouble, (p.perform job).1 = .error trouble → ∃ f, trouble = .fault f

namespace Job.OnlyFaults

variable {α β : Type}

theorem put (text : Text) : (Job.put text).OnlyFaults := by
  intro p trouble h
  rw [Progress.perform_put] at h
  split at h
  · cases h
  · exact ⟨_, (Except.error.inj h).symm⟩

theorem print (line : Text) : (Job.print line).OnlyFaults :=
  put _

theorem tell (line : Text) : (Job.tell line).OnlyFaults := by
  intro p trouble h
  cases h

theorem bind {job : Job α} {next : α → Job β} (hjob : job.OnlyFaults)
    (hnext : ∀ a, (next a).OnlyFaults) : (job >>= next).OnlyFaults := by
  intro p trouble h
  rw [Progress.perform_bind] at h
  split at h
  · exact hnext _ _ trouble h
  · rename_i found p' hperform
    obtain rfl : found = trouble := Except.error.inj h
    exact hjob p found (congrArg Prod.fst hperform)

theorem forM {step : α → Job Unit} (h : ∀ a, (step a).OnlyFaults) (items : List α) :
    (forM items step).OnlyFaults := by
  induction items with
  | nil =>
      intro p trouble h
      cases h
  | cons a rest ih => exact bind (h a) fun _ => ih

theorem present (m : Machine) (drawing : Drawing) : (m.present drawing).OnlyFaults := by
  unfold Machine.present
  cases m.draw drawing with
  | some picture => exact put _
  | none =>
      intro p trouble h
      exact ⟨.drawing, (Except.error.inj h).symm⟩

end Job.OnlyFaults

namespace Progress

variable {α β : Type} {p : Progress} {trouble : Trouble}

theorem progress_bind_of_error {job : Job α} (h : (p.perform job).1 = .error trouble)
    (next : α → Job β) : (p.perform (job >>= next)).2 = (p.perform job).2 := by
  rw [perform_bind]
  rcases hjob : p.perform job with ⟨found | a, after⟩
  · rfl
  · rw [hjob] at h
    cases h

-- What is answered for comes from the first of two jobs, if the second brings faults only.
theorem bind_eq_error_iff {job : Job α} {next : α → Job β} (hnext : ∀ a, (next a).OnlyFaults)
    (hanswered : ∀ f, trouble ≠ .fault f) :
    (p.perform (job >>= next)).1 = .error trouble ↔ (p.perform job).1 = .error trouble := by
  rw [perform_bind]
  rcases p.perform job with ⟨found | a, after⟩
  · simp
  · refine iff_of_false (fun h => ?_) (by simp)
    obtain ⟨f, rfl⟩ := hnext a after trouble h
    exact hanswered f rfl

section Outcome

variable (p : Progress) (result : Except Trouble Unit)

@[simp] theorem output_outcome : (outcome (result, p)).output = p.output := rfl

@[simp] theorem launches_outcome : (outcome (result, p)).launches = p.launches := rfl

@[simp] theorem ending_outcome_ok (u : Unit) :
    (outcome (.ok u, p)).ending = .exit .success := rfl

@[simp] theorem ending_outcome_error (trouble : Trouble) :
    (outcome (.error trouble, p)).ending = trouble.ending := rfl

-- To tell the user what went wrong changes no file.
@[simp] theorem files_outcome : (outcome (result, p)).files = p.writer.files := by
  cases result <;> rfl

end Outcome

end Progress

end Dialect.Cli
