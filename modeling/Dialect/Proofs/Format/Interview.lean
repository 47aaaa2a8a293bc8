import Dialect.Format.Interview

namespace Dialect.Format.Interview

open Negotiation

variable {α β : Type}

theorem run_bind (i : Interview α) (f : α → Interview β) (j : Journal) :
    (i >>= f).run.run j = match i.run.run j with
      | (.ok a, j) => (f a).run.run j
      | (.error e, j) => (.error e, j) := by
  rw [ExceptT.run_bind, StateT.run_bind]
  rcases i.run.run j with ⟨e | a, next⟩ <;> rfl

theorem run_ask (answers : Answers) (dialect : String) (j : Journal) :
    (ask answers dialect).run.run j =
      (answers dialect, { j with asked := j.asked ++ [dialect] }) := by
  unfold ask
  cases answers dialect <;> rfl

theorem run_pure (a : α) (j : Journal) : (pure a : Interview α).run.run j = (.ok a, j) := rfl

theorem run_note (r : Log.Record) (j : Journal) :
    (note r).run.run j = (.ok (), { j with records := j.records ++ [r] }) := rfl

theorem run_logAll (answers : Answers) (records : List Log.Record) (j : Journal) :
    (logAll (engine answers) records).run.run j =
      (.ok (), { j with records := j.records ++ records }) := by
  induction records generalizing j with
  | nil => rw [List.append_nil]; rfl
  | cons r rest ih =>
      change (logAll (engine answers) rest).run.run { j with records := j.records ++ [r] } = _
      rw [ih, List.append_assoc]
      rfl

-- The texts that settle a dialect: its own list and, for a delta dialect, that of markdown.
def texts (answers : Answers) (dialect : String) :
    Except Engine.EngineError (String × String) :=
  match answers dialect with
  | .error e => .error e
  | .ok own =>
    if isDelta dialect then (answers markdown).map fun shared => (own, shared)
    else .ok (own, "")

theorem texts_eq_ok_iff (answers : Answers) (dialect own shared : String) :
    texts answers dialect = .ok (own, shared) ↔ answers dialect = .ok own ∧
      (if isDelta dialect then answers markdown = .ok shared else shared = "") := by
  unfold texts
  cases answers dialect with
  | error e => simp
  | ok text =>
      cases isDelta dialect with
      | false => simp [eq_comm]
      | true => cases answers markdown <;> simp [Except.map]

-- The dialects that the engine is asked for, in order.
def questions (answers : Answers) (dialect : String) : List String :=
  match answers dialect with
  | .ok _ => if isDelta dialect then [dialect, markdown] else [dialect]
  | .error _ => [dialect]

-- What is reported before the engine is asked, and after it has answered.
def openingRecords (request : String) : List Log.Record :=
  let base := (Request.split request).base
  if supported.contains base then [] else [fallbackRecord base]

def closingRecords (request : String) (r : Resolved) : List Log.Record :=
  r.warnings.invalidOptions.map (unsupportedRecord r.baseName) ++ [resolvedRecord request r]

def dialectFor (request : String) : String :=
  dialectOf (Request.split request).base

theorem run_reports (answers : Answers) (request : String) (r : Resolved) (j : Journal) :
    (do
      logAll (engine answers) (r.warnings.invalidOptions.map (unsupportedRecord r.baseName))
      note (resolvedRecord request r)
      pure r : Interview Resolved).run.run j =
      (.ok r, { j with records := j.records ++ closingRecords request r }) := by
  simp only [run_bind, run_logAll, run_note, run_pure, closingRecords, List.append_assoc]

theorem run_inquiry (answers : Answers) (request : String) (j : Journal) :
    (do
      let own ← ask answers (dialectFor request)
      let shared ← if isDelta (dialectFor request) then ask answers markdown else pure ""
      let r := answer request own shared
      logAll (engine answers) (r.warnings.invalidOptions.map (unsupportedRecord r.baseName))
      note (resolvedRecord request r)
      pure r : Interview Resolved).run.run j =
      match texts answers (dialectFor request) with
      | .ok (own, shared) =>
        (.ok (answer request own shared), ⟨j.asked ++ questions answers (dialectFor request),
          j.records ++ closingRecords request (answer request own shared)⟩)
      | .error e =>
        (.error e, ⟨j.asked ++ questions answers (dialectFor request), j.records⟩) := by
  unfold texts questions
  rw [run_bind, run_ask]
  cases answers (dialectFor request) with
  | error e => rfl
  | ok own =>
      cases isDelta (dialectFor request) with
      | false => simp only [Bool.false_eq_true, if_false, pure_bind, run_reports]
      | true =>
          simp only [if_true]
          rw [run_bind, run_ask]
          cases answers markdown with
          | error e => simp [Except.map]
          | ok shared =>
              simp only [run_reports, List.append_assoc, Except.map]
              rfl

-- All that one negotiation does: the engine is asked first, and only then is anything decided.
theorem resolve_eq (answers : Answers) (request : String) :
    resolve answers request = match texts answers (dialectFor request) with
      | .ok (own, shared) =>
        (.ok (answer request own shared), ⟨questions answers (dialectFor request),
          openingRecords request ++ closingRecords request (answer request own shared)⟩)
      | .error e =>
        (.error e, ⟨questions answers (dialectFor request), openingRecords request⟩) := by
  refine Eq.trans ?_ (run_inquiry answers request ⟨[], openingRecords request⟩)
  unfold resolve observe Negotiation.resolve openingRecords
  dsimp only
  cases supported.contains (Request.split request).base with
  | false => rfl
  | true => rfl

theorem resolve_eq_ok_iff (answers : Answers) (request : String) (r : Resolved) :
    (resolve answers request).1 = .ok r ↔
      ∃ own shared, texts answers (dialectFor request) = .ok (own, shared) ∧
        r = answer request own shared := by
  rw [resolve_eq]
  cases texts answers (dialectFor request) with
  | error e => simp
  | ok both =>
      rcases both with ⟨own, shared⟩
      simp only [Except.ok.injEq, Prod.mk.injEq]
      constructor
      · rintro rfl
        exact ⟨own, shared, ⟨rfl, rfl⟩, rfl⟩
      · rintro ⟨_, _, ⟨rfl, rfl⟩, rfl⟩
        rfl

-- There is always a first question.
theorem asked_resolve_ne_nil (answers : Answers) (request : String) :
    (resolve answers request).2.asked ≠ [] := by
  have hasked : (resolve answers request).2.asked = questions answers (dialectFor request) := by
    rw [resolve_eq]
    split <;> rfl
  rw [hasked, questions]
  split
  · split <;> simp
  · simp

end Dialect.Format.Interview
