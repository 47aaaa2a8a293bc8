import Dialect.Proofs.Format.Negotiation.Lemmas

namespace Dialect.Format.Negotiation

variable {answers : Answers} {request : String} {r : Resolved}

theorem texts_congr {other : Answers} {dialect : String}
    (hown : other dialect = answers dialect)
    (hshared : dialect ∈ deltaDialects → other markdown = answers markdown) :
    Interview.texts other dialect = Interview.texts answers dialect := by
  unfold Interview.texts
  rw [hown]
  by_cases hdelta : isDelta dialect
  · simp only [hdelta, if_true, hshared ((isDelta_iff dialect).mp hdelta)]
  · simp only [hdelta, Bool.false_eq_true, if_false]

-- Negotiation is a normal form: the full name of an answer stands for the same dialect and
-- the same states in the same order, and nothing of it is dropped.
theorem resolve_fullName (h : (Interview.resolve answers request).1 = .ok r) :
    (Interview.resolve answers r.fullName).1 = .ok { r with warnings := ⟨"", []⟩ } := by
  obtain ⟨own, shared, htexts, rfl⟩ := texts_of_resolve h
  rw [Interview.resolve_eq_ok_iff]
  refine ⟨own, shared, ?_, (answer_fullName request own shared).symm⟩
  rw [dialectFor_fullName, ← baseName_answer request own shared]
  exact htexts

-- A list with a word that is no toggle, stray signs and a repeated name, in front of it a
-- list whose last name runs on into it, and a request with all of that and line breaks.
private def roughList : String := "x+smart\r\n-emoji+ -smart+"

private def roughLists : Answers := fun dialect =>
  if dialect = "gfm" then .ok roughList else .ok "+a\n+B\n+emoji"

private def roughRequest : String := "gfm+smart-nope\n+e\nmoji-smart++a"

private def roughAnswer : Resolved :=
  { baseName := "gfm"
    fullName := "gfm+smart+emoji-smart"
    extensions := [("a", false), ("emojix", false), ("smart", false), ("emoji", true)]
    warnings := ⟨"", ["nope", "a"]⟩ }

private theorem resolve_roughLists :
    (Interview.resolve roughLists roughRequest).1 = .ok roughAnswer :=
  (Interview.resolve_eq_ok_iff _ _ _).mpr ⟨roughList, "+a\n+B\n+emoji", rfl, rfl⟩

theorem resolve_fullName_roughAnswer :
    (Interview.resolve roughLists roughRequest).1 = .ok roughAnswer ∧
      (Interview.resolve roughLists roughAnswer.fullName).1 =
        .ok { roughAnswer with warnings := ⟨"", []⟩ } :=
  ⟨resolve_roughLists, resolve_fullName resolve_roughLists⟩

-- The extension map of an answer, name by name. The last word on a name of the dialect's own
-- list is the request's, and else the list's. Other names come only from the list of
-- markdown, under a delta dialect, and are off. Which names there are, and in which order,
-- is no matter of the request.
theorem extensions_of_resolve (h : (Interview.resolve answers request).1 = .ok r) :
    ∃ own, answers r.baseName = .ok own ∧
      (∀ name ∈ names own, name ∈ Entries.keys r.extensions ∧
        Entries.get? name r.extensions =
          (Toggle.lastState name (accepted request own)).or
            (Toggle.lastState name (Toggle.parse own))) ∧
      (r.baseName ∉ deltaDialects → ∀ name ∈ Entries.keys r.extensions, name ∈ names own) ∧
      (r.baseName ∈ deltaDialects → ∀ name ∈ Entries.keys r.extensions, name ∉ names own →
        Entries.get? name r.extensions = some false) ∧
      (∀ (other : Answers) (request' : String) (r' : Resolved),
        (Interview.resolve other request').1 = .ok r' → r'.baseName = r.baseName →
        other r.baseName = answers r.baseName →
        (r.baseName ∈ deltaDialects → other markdown = answers markdown) →
        Entries.keys r'.extensions = Entries.keys r.extensions) := by
  obtain ⟨own, shared, htexts, rfl⟩ := texts_of_resolve h
  refine ⟨own, own_of_texts htexts, ?_, ?_, ?_, ?_⟩
  · intro name hname
    have hget := get?_answer name request own shared
    rw [get?_initialStates_of_mem hname] at hget
    refine ⟨?_, hget⟩
    rw [Entries.mem_keys_iff, hget, Option.isSome_or, Bool.or_eq_true]
    exact Or.inr ((Toggle.lastState_isSome_iff name _).mpr hname)
  · intro hdelta name hkey
    rw [keys_answer] at hkey
    exact mem_names_of_mem_keys_initialStates hdelta hkey
  · intro hdelta name hkey hname
    rw [keys_answer] at hkey
    rw [get?_answer, lastState_accepted_eq_none hname, Option.none_or]
    exact get?_initialStates_of_notMem hdelta hname hkey
  · intro other request' r' h' hbase hown hshared
    obtain ⟨own', shared', htexts', rfl⟩ := texts_of_resolve h'
    rw [hbase, texts_congr hown hshared, htexts] at htexts'
    cases htexts'
    rw [keys_answer, keys_answer, hbase]

theorem extensions_of_roughAnswer :
    (Interview.resolve roughLists roughRequest).1 = .ok roughAnswer ∧
      (∀ name ∈ names roughList, Entries.get? name roughAnswer.extensions =
        (Toggle.lastState name (accepted roughRequest roughList)).or
          (Toggle.lastState name (Toggle.parse roughList))) ∧
      ∀ name ∈ Entries.keys roughAnswer.extensions, name ∉ names roughList →
        Entries.get? name roughAnswer.extensions = some false := by
  obtain ⟨own, hown, hstate, -, hoff, -⟩ := extensions_of_resolve resolve_roughLists
  cases hown
  exact ⟨resolve_roughLists, fun name hname => (hstate name hname).2, hoff (by decide)⟩

-- No toggle of a request is lost, doubled or moved: the accepted ones stand in the full name,
-- which gives them back when it is read, and the names of the others are reported.
theorem fullName_of_resolve (h : (Interview.resolve answers request).1 = .ok r) :
    ∃ own, answers r.baseName = .ok own ∧
      (toggles request).partition (fun t => (names own).contains t.name) =
        (accepted request own, rejected request own) ∧
      r.fullName = r.baseName ++ String.join ((accepted request own).map Toggle.signed) ∧
      r.warnings.invalidOptions = (rejected request own).map Toggle.name ∧
      (Request.split r.fullName).base = r.baseName ∧
      Toggle.parse (Request.split r.fullName).options = accepted request own ∧
      r.baseName ∈ supported ∧
      let base := (Request.split request).base
      (base ∈ supported → r.baseName = base ∧ r.warnings.invalidFormat = "") ∧
        (base ∉ supported → r.baseName = markdown ∧ r.warnings.invalidFormat = base) := by
  obtain ⟨own, shared, htexts, rfl⟩ := texts_of_resolve h
  have hdialect := dialectOf_mem_supported (Request.split request).base
  have hwritable (t : Toggle) (ht : t ∈ accepted request own) := writable_of_mem_accepted ht
  have hsplit := split_fullName hdialect hwritable
  have hpartition : (toggles request).partition (fun t => (names own).contains t.name) =
      (accepted request own, rejected request own) := List.partition_eq_filter_filter
  refine ⟨own, own_of_texts htexts, hpartition, ?_⟩
  rw [answer_eq]
  dsimp only
  refine ⟨rfl, rfl, ?_, ?_, hdialect, ?_, ?_⟩
  · exact congrArg Request.base hsplit
  · exact toggles_fullName hdialect hwritable
  · intro hbase
    simp [dialectOf, hbase]
  · intro hbase
    simp [dialectOf, hbase]

theorem fullName_of_roughAnswer :
    (Interview.resolve roughLists roughRequest).1 = .ok roughAnswer ∧
      Toggle.parse (Request.split roughAnswer.fullName).options =
        accepted roughRequest roughList ∧
      roughAnswer.warnings.invalidOptions =
        (rejected roughRequest roughList).map Toggle.name := by
  obtain ⟨own, hown, -, -, hrejected, -, haccepted, -⟩ := fullName_of_resolve resolve_roughLists
  cases hown
  exact ⟨resolve_roughLists, haccepted, hrejected⟩

end Dialect.Format.Negotiation
