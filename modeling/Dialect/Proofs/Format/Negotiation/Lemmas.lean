import Dialect.Proofs.Format.Disabled
import Dialect.Proofs.Format.Interview
import Dialect.Proofs.Format.Request
import Dialect.Proofs.Format.Seam

namespace Dialect.Format.Negotiation

theorem dialectOf_mem_supported (base : String) : dialectOf base ∈ supported := by
  unfold dialectOf
  split
  · rename_i h
    simpa using h
  · decide

theorem dialectOf_of_mem_supported {dialect : String} (h : dialect ∈ supported) :
    dialectOf dialect = dialect := by
  simp [dialectOf, h]

theorem not_startsOptions_of_mem_supported {dialect : String} (h : dialect ∈ supported) :
    ∀ c ∈ dialect.toList, Request.startsOptions c = false := by
  have hall : supported.all (fun d => d.toList.all fun c => !Request.startsOptions c) = true :=
    rfl
  intro c hc
  simpa using List.all_eq_true.mp (List.all_eq_true.mp hall dialect h) c hc

-- The toggles of a request, and those among them that a dialect's own list has or has not.
def toggles (request : String) : List Toggle :=
  Toggle.parse (Request.split request).options

def names (own : String) : List String :=
  (Toggle.parse own).map Toggle.name

def accepted (request own : String) : List Toggle :=
  (toggles request).filter fun t => (names own).contains t.name

def rejected (request own : String) : List Toggle :=
  (toggles request).filter fun t => !(names own).contains t.name

theorem writable_of_mem_accepted {request own : String} {t : Toggle}
    (h : t ∈ accepted request own) : t.Writable :=
  Toggle.writable_of_mem_parse (List.mem_filter.mp h).1

theorem name_mem_of_mem_accepted {request own : String} {t : Toggle}
    (h : t ∈ accepted request own) : t.name ∈ names own := by
  simpa using (List.mem_filter.mp h).2

-- The states of a dialect before any request has its say.
def initialStates (dialect own shared : String) : Entries String Bool :=
  Toggle.states (Toggle.parse (extensionText dialect own shared))

theorem answer_eq (request own shared : String) :
    answer request own shared =
      let base := (Request.split request).base
      { baseName := dialectOf base
        fullName := dialectOf base ++ Toggle.row (accepted request own)
        extensions := Entries.putAll (initialStates (dialectOf base) own shared)
          ((accepted request own).map fun t => (t.name, t.enabled))
        warnings := ⟨if supported.contains base then "" else base,
          (rejected request own).map Toggle.name⟩ } := rfl

-- Negotiation sees nothing of a request but its base and its toggles.
theorem answer_congr {request other : String}
    (hbase : (Request.split request).base = (Request.split other).base)
    (htoggles : toggles request = toggles other) (own shared : String) :
    answer request own shared = answer other own shared := by
  simp only [answer_eq, accepted, rejected, hbase, htoggles]

theorem baseName_answer (request own shared : String) :
    (answer request own shared).baseName = Interview.dialectFor request := rfl

theorem isOptions_row (ts : List Toggle) : Request.IsOptions (Toggle.row ts) := by
  rw [Request.IsOptions, Toggle.toList_row]
  exact Toggle.head?_signed ts

-- A full name is cut behind its dialect, and its options are the toggles it was built from.
theorem split_fullName {dialect : String} (hdialect : dialect ∈ supported) {ts : List Toggle}
    (_ : ∀ t ∈ ts, t.Writable) :
    Request.split (dialect ++ Toggle.row ts) = ⟨dialect, Toggle.row ts⟩ :=
  Request.split_append (not_startsOptions_of_mem_supported hdialect) (isOptions_row ts)

theorem toggles_fullName {dialect : String} (hdialect : dialect ∈ supported) {ts : List Toggle}
    (hts : ∀ t ∈ ts, t.Writable) : toggles (dialect ++ Toggle.row ts) = ts := by
  rw [toggles, split_fullName hdialect hts]
  exact Toggle.parse_row hts

-- Asking for the full name changes nothing, and there is nothing left to drop.
theorem answer_fullName (request own shared : String) :
    answer (answer request own shared).fullName own shared =
      { answer request own shared with warnings := ⟨"", []⟩ } := by
  have hdialect := dialectOf_mem_supported (Request.split request).base
  have hwritable (t : Toggle) (ht : t ∈ accepted request own) := writable_of_mem_accepted ht
  have hname (t : Toggle) (ht : t ∈ accepted request own) := name_mem_of_mem_accepted ht
  have haccepted : accepted (dialectOf (Request.split request).base ++
      Toggle.row (accepted request own)) own = accepted request own := by
    rw [accepted, toggles_fullName hdialect hwritable]
    exact List.filter_eq_self.mpr fun t ht => by simpa using hname t ht
  have hrejected : rejected (dialectOf (Request.split request).base ++
      Toggle.row (accepted request own)) own = [] := by
    rw [rejected, toggles_fullName hdialect hwritable]
    exact List.filter_eq_nil_iff.mpr fun t ht => by simpa using hname t ht
  rw [answer_eq request own shared, answer_eq]
  simp only [haccepted, hrejected, split_fullName hdialect hwritable,
    dialectOf_of_mem_supported hdialect, List.contains_eq_mem, hdialect, decide_true, if_true,
    List.map_nil]

theorem dialectFor_fullName (request own shared : String) :
    Interview.dialectFor (answer request own shared).fullName = Interview.dialectFor request := by
  have hagain := congrArg Resolved.baseName (answer_fullName request own shared)
  rwa [baseName_answer, baseName_answer] at hagain

theorem isDelta_iff (dialect : String) : isDelta dialect = true ↔ dialect ∈ deltaDialects := by
  simp [isDelta]

-- A dialect's own list has the last word on every name that it has.
theorem get?_initialStates_of_mem {name own : String} (h : name ∈ names own)
    (dialect shared : String) :
    Entries.get? name (initialStates dialect own shared) =
      Toggle.lastState name (Toggle.parse own) := by
  have hown : (Toggle.lastState name (Toggle.parse own)).isSome :=
    (Toggle.lastState_isSome_iff name _).mpr h
  rw [initialStates, Toggle.get?_states, extensionText]
  split
  · obtain ⟨front, hparse, -⟩ := Toggle.exists_parse_append (Toggle.disable shared) own
    rw [hparse, Toggle.lastState_append, Option.or_of_isSome hown]
  · rfl

theorem mem_names_of_mem_keys_initialStates {dialect name own shared : String}
    (hdelta : dialect ∉ deltaDialects)
    (h : name ∈ Entries.keys (initialStates dialect own shared)) : name ∈ names own := by
  have hplain : extensionText dialect own shared = own := by
    rw [extensionText, if_neg (mt (isDelta_iff dialect).mp hdelta)]
  rwa [initialStates, hplain, Toggle.mem_keys_states] at h

-- What a delta dialect takes from the list of markdown is off, even a name that the seam
-- between the two lists has made longer: its sign stands in the first of them.
theorem get?_initialStates_of_notMem {dialect name own shared : String}
    (hdelta : dialect ∈ deltaDialects) (hname : name ∉ names own)
    (h : name ∈ Entries.keys (initialStates dialect own shared)) :
    Entries.get? name (initialStates dialect own shared) = some false := by
  obtain ⟨front, hparse, hsign⟩ := Toggle.exists_parse_append (Toggle.disable shared) own
  have hown : Toggle.lastState name (Toggle.parse own) = none := by
    rw [← Option.not_isSome_iff_eq_none, Toggle.lastState_isSome_iff]
    exact hname
  rw [Entries.mem_keys_iff] at h
  obtain ⟨state, hstate⟩ := Option.isSome_iff_exists.mp h
  have hlast := hstate
  rw [initialStates, Toggle.get?_states, extensionText, if_pos ((isDelta_iff dialect).mpr hdelta),
    hparse, Toggle.lastState_append, hown, Option.none_or] at hlast
  cases state with
  | false => exact hstate
  | true =>
      have hplus := hsign _ (Toggle.mem_of_lastState hlast)
      exact absurd hplus (Toggle.plus_notMem_disable shared)

theorem get?_answer (name request own shared : String) :
    Entries.get? name (answer request own shared).extensions =
      (Toggle.lastState name (accepted request own)).or
        (Entries.get? name (initialStates (answer request own shared).baseName own shared)) := by
  rw [answer_eq, Entries.get?_putAll, Toggle.last?_eq_lastState]

-- A name of the own list is a key already, so no toggle that is accepted brings a new one.
theorem keys_answer (request own shared : String) :
    Entries.keys (answer request own shared).extensions =
      Entries.keys (initialStates (answer request own shared).baseName own shared) := by
  rw [answer_eq]
  apply Entries.keys_putAll_of_subset
  intro p hp
  obtain ⟨t, ht, rfl⟩ := List.mem_map.mp hp
  have hname := name_mem_of_mem_accepted ht
  rw [Entries.mem_keys_iff, get?_initialStates_of_mem hname, Toggle.lastState_isSome_iff]
  exact hname

theorem lastState_accepted_eq_none {name request own : String} (h : name ∉ names own) :
    Toggle.lastState name (accepted request own) = none := by
  rw [← Option.not_isSome_iff_eq_none, Toggle.lastState_isSome_iff]
  intro hmem
  obtain ⟨t, ht, rfl⟩ := List.mem_map.mp hmem
  exact h (name_mem_of_mem_accepted ht)

theorem lastState_accepted_of_mem {name own : String} (h : name ∈ names own) (request : String) :
    Toggle.lastState name (accepted request own) = Toggle.lastState name (toggles request) := by
  have hfilter : (accepted request own).filter (fun t => t.name = name) =
      (toggles request).filter fun t => t.name = name := by
    rw [accepted, List.filter_filter]
    apply List.filter_congr
    intro t _
    by_cases hname : t.name = name
    · simp [hname, h]
    · simp [hname]
  rw [Toggle.lastState, hfilter, Toggle.lastState]

variable {answers : Answers} {request : String} {r : Resolved}

-- An answer that was given comes from the list of its own dialect, and for a delta dialect
-- from that of markdown too.
theorem texts_of_resolve (h : (Interview.resolve answers request).1 = .ok r) :
    ∃ own shared, Interview.texts answers r.baseName = .ok (own, shared) ∧
      r = answer request own shared := by
  obtain ⟨own, shared, htexts, rfl⟩ := (Interview.resolve_eq_ok_iff answers request r).mp h
  rw [← baseName_answer request own shared] at htexts
  exact ⟨own, shared, htexts, rfl⟩

theorem own_of_texts {dialect own shared : String}
    (h : Interview.texts answers dialect = .ok (own, shared)) : answers dialect = .ok own :=
  ((Interview.texts_eq_ok_iff answers dialect own shared).mp h).1

end Dialect.Format.Negotiation
