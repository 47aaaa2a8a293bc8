import Dialect.Proofs.Format.Negotiation.Lemmas

namespace Dialect.Format

theorem Warnings.any_eq_false_iff (w : Warnings) :
    w.any = false ↔ w.invalidFormat = "" ∧ w.invalidOptions = [] := by
  simp [Warnings.any]

namespace Negotiation

open Interview (dialectFor openingRecords closingRecords questions texts)

variable {answers : Answers} {request : String} {r : Resolved}

-- A request that is its own full name is left alone.
theorem any_warnings_of_fullName {own shared : String}
    (h : (answer request own shared).fullName = request) :
    (answer request own shared).warnings.any = false := by
  have hagain := congrArg Resolved.warnings (answer_fullName request own shared)
  rw [h] at hagain
  rw [hagain]
  rfl

theorem fullName_of_any_warnings {own shared : String}
    (hbase : (Request.split request).base ≠ "")
    (hoptions : (Request.split request).options = Toggle.row (toggles request))
    (h : (answer request own shared).warnings.any = false) :
    (answer request own shared).fullName = request := by
  rw [answer_eq, Warnings.any_eq_false_iff] at h
  dsimp only at h
  obtain ⟨hformat, hrejected⟩ := h
  have hsupported : (Request.split request).base ∈ supported := by
    by_contra hnot
    simp only [List.contains_eq_mem, hnot, decide_false, Bool.false_eq_true, if_false] at hformat
    exact hbase hformat
  have haccepted : accepted request own = toggles request := by
    rw [List.map_eq_nil_iff, rejected, List.filter_eq_nil_iff] at hrejected
    exact List.filter_eq_self.mpr fun t ht => by simpa using hrejected t ht
  calc
    (answer request own shared).fullName
    _ = (Request.split request).base ++ Toggle.row (toggles request) := by
      rw [answer_eq]
      dsimp only
      rw [haccepted, dialectOf_of_mem_supported hsupported]
    _ = (Request.split request).text := by rw [← hoptions, Request.text]
    _ = request := Request.text_split request

-- Nothing is dropped in silence, and nothing is reported that was kept: where a request names a
-- base, and its options are written as its toggles are, there are no warnings exactly if the full
-- name is the request.
theorem any_warnings_eq_false_iff (h : (Interview.resolve answers request).1 = .ok r)
    (hbase : (Request.split request).base ≠ "")
    (hoptions : (Request.split request).options =
      String.join ((Toggle.parse (Request.split request).options).map Toggle.signed)) :
    r.warnings.any = false ↔ r.fullName = request := by
  obtain ⟨own, shared, -, rfl⟩ := texts_of_resolve h
  constructor
  · exact fullName_of_any_warnings hbase hoptions
  · exact any_warnings_of_fullName

private def fewLists : Answers := fun dialect =>
  if dialect = "gfm" then .ok "+emoji\n+smart" else .ok ""

-- One toggle among several is dropped, so the full name is shorter.
private def partlyKept : Resolved :=
  { baseName := "gfm"
    fullName := "gfm-emoji+smart"
    extensions := [("emoji", false), ("smart", true)]
    warnings := ⟨"", ["ntb"]⟩ }

private theorem resolve_partlyKept :
    (Interview.resolve fewLists "gfm-emoji+ntb+smart").1 = .ok partlyKept :=
  (Interview.resolve_eq_ok_iff _ _ _).mpr ⟨"+emoji\n+smart", "", rfl, rfl⟩

theorem any_warnings_partlyKept :
    (Interview.resolve fewLists "gfm-emoji+ntb+smart").1 = .ok partlyKept ∧
      (partlyKept.warnings.any = false ↔ partlyKept.fullName = "gfm-emoji+ntb+smart") ∧
      partlyKept.warnings.any = true :=
  ⟨resolve_partlyKept, any_warnings_eq_false_iff resolve_partlyKept (by decide) (by decide),
    by decide⟩

-- Without a base, and with a sign that begins no toggle, the name changes and nothing is dropped.
example : answer "+smart-" "+smart" "" =
    ⟨"markdown", "markdown+smart", [("smart", true)], Warnings.none⟩ := by decide

-- The error of the first dialect in a row that an engine fails for.
def firstFailure (answers : Answers) (dialects : List String) : Option Engine.EngineError :=
  dialects.findSome? fun dialect =>
    match answers dialect with
    | .ok _ => none
    | .error e => some e

theorem texts_eq_error_iff (answers : Answers) (dialect : String) (e : Engine.EngineError) :
    texts answers dialect = .error e ↔
      firstFailure answers (questions answers dialect) = some e := by
  unfold texts questions firstFailure
  cases hown : answers dialect with
  | error e' => simp [hown]
  | ok own =>
      cases isDelta dialect with
      | false => simp [hown]
      | true => cases hshared : answers markdown <;> simp [hown, hshared, Except.map]

theorem questions_eq (answers : Answers) (dialect : String) :
    questions answers dialect = dialect ::
      if (answers dialect).isOk ∧ dialect ∈ deltaDialects then [markdown] else [] := by
  unfold questions
  cases answers dialect with
  | error e => simp [Except.isOk, Except.toBool]
  | ok own =>
      by_cases hdelta : dialect ∈ deltaDialects
      · simp [(isDelta_iff dialect).mpr hdelta, hdelta, Except.isOk, Except.toBool]
      · simp [mt (isDelta_iff dialect).mp hdelta, hdelta, Except.isOk, Except.toBool]

theorem openingRecords_eq (request : String) :
    openingRecords request =
      if (Request.split request).base ∈ supported then []
      else [fallbackRecord (Request.split request).base] := by
  simp [openingRecords]

-- What is seen of a negotiation from outside, with its outcome: what the engine was asked, and
-- what was reported.
structure Observed (answers : Answers) (request : String)
    (outcome : Except Engine.EngineError Resolved) (journal : Journal) : Prop where
  -- a dialect is asked for, whatever the request says
  mem_supported : dialectFor request ∈ supported
  -- markdown is asked for where it is needed, unless the engine has failed before
  asked : journal.asked = dialectFor request ::
    if (answers (dialectFor request)).isOk ∧ dialectFor request ∈ deltaDialects then [markdown]
    else []
  fails_iff : ∀ e, outcome = .error e ↔ firstFailure answers journal.asked = some e
  baseName : ∀ r, outcome = .ok r → r.baseName = dialectFor request
  -- the base is reported before the engine is asked, so it is on record after a failure too
  records_of_error : ∀ e, outcome = .error e → journal.records =
    if (Request.split request).base ∈ supported then []
    else [fallbackRecord (Request.split request).base]
  records_of_ok : ∀ r, outcome = .ok r → journal.records =
    (if (Request.split request).base ∈ supported then []
      else [fallbackRecord (Request.split request).base]) ++
    r.warnings.invalidOptions.map (unsupportedRecord r.baseName) ++ [resolvedRecord request r]
  levels : ∀ r, outcome = .ok r → journal.records.map Log.Record.level =
    (if (Request.split request).base ∈ supported then [] else [Log.warning]) ++
    List.replicate r.warnings.invalidOptions.length Log.warning ++ [Log.debug]

theorem levels_eq (request : String) (r : Resolved) :
    (openingRecords request ++ closingRecords request r).map Log.Record.level =
      (if (Request.split request).base ∈ supported then [] else [Log.warning]) ++
        List.replicate r.warnings.invalidOptions.length Log.warning ++ [Log.debug] := by
  have hdropped : (r.warnings.invalidOptions.map (unsupportedRecord r.baseName)).map
      Log.Record.level = List.replicate r.warnings.invalidOptions.length Log.warning := by
    rw [List.map_map]
    exact List.map_const'
  rw [openingRecords_eq, closingRecords, List.map_append, List.map_append, hdropped,
    ← List.append_assoc]
  split
  · rfl
  · rfl

-- The engine is asked for the dialect that the base stands for and then, where that builds on
-- markdown, for markdown. A negotiation fails only if the engine does, with the first error of
-- the engine, and then at most the base has been reported. Otherwise what was dropped is reported
-- in the order of the request, and the outcome last.
theorem resolve_observed (answers : Answers) (request : String) :
    Observed answers request (Interview.resolve answers request).1
      (Interview.resolve answers request).2 := by
  have hfails := texts_eq_error_iff answers (dialectFor request)
  rw [Interview.resolve_eq]
  cases htexts : texts answers (dialectFor request) with
  | error e =>
      rw [htexts] at hfails
      exact {
        mem_supported := dialectOf_mem_supported _
        asked := questions_eq answers (dialectFor request)
        fails_iff := fun e' => by simpa using hfails e'
        baseName := fun r h => nomatch h
        records_of_error := fun _ _ => openingRecords_eq request
        records_of_ok := fun r h => nomatch h
        levels := fun r h => nomatch h }
  | ok both =>
      obtain ⟨own, shared⟩ := both
      rw [htexts] at hfails
      exact {
        mem_supported := dialectOf_mem_supported _
        asked := questions_eq answers (dialectFor request)
        fails_iff := fun e => by simpa using hfails e
        baseName := fun r h => Except.ok.inj h ▸ baseName_answer request own shared
        records_of_error := fun e h => nomatch h
        records_of_ok := fun r h => by
          rw [← Except.ok.inj h, ← openingRecords_eq, List.append_assoc]
          rfl
        levels := fun r h => by
          rw [← Except.ok.inj h]
          exact levels_eq request _ }

end Negotiation

end Dialect.Format
