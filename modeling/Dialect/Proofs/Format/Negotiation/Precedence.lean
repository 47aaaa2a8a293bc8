import Dialect.Proofs.Format.Negotiation.Lemmas

namespace Dialect.Format.Negotiation

open Request (IsOptions extend split)

variable {first last : String}

theorem resolve_congr {request other : String}
    (hbase : (split request).base = (split other).base)
    (htoggles : toggles request = toggles other) (answers : Answers) :
    (Interview.resolve answers request).1 = (Interview.resolve answers other).1 := by
  have hdialect : Interview.dialectFor request = Interview.dialectFor other :=
    congrArg dialectOf hbase
  have hanswer := answer_congr hbase htoggles
  rw [Interview.resolve_eq, Interview.resolve_eq, hdialect]
  cases Interview.texts answers (Interview.dialectFor other) with
  | error e => rfl
  | ok both => exact congrArg Except.ok (hanswer both.1 both.2)

-- A sign begins the options and what is put behind them, so no name runs over a seam.
theorem toggles_extend (hfirst : IsOptions first) (hlast : IsOptions last) (format : String) :
    toggles (extend format first last) =
      Toggle.parse first ++ toggles format ++ Toggle.parse last := by
  rw [toggles, Request.split_extend hfirst hlast, Toggle.parse_append hlast,
    Toggle.parse_append (Request.isOptions_split format)]
  rfl

-- The last word on a name of the dialect's own list is that of the request, else the list's.
theorem get?_of_resolve {answers : Answers} {request : String} {r : Resolved}
    (h : (Interview.resolve answers request).1 = .ok r) :
    ∃ own, answers r.baseName = .ok own ∧ ∀ name ∈ names own,
      Entries.get? name r.extensions =
        (Toggle.lastState name (toggles request)).or
          (Toggle.lastState name (Toggle.parse own)) := by
  obtain ⟨own, shared, htexts, rfl⟩ := texts_of_resolve h
  refine ⟨own, own_of_texts htexts, fun name hname => ?_⟩
  rw [get?_answer, lastState_accepted_of_mem hname, get?_initialStates_of_mem hname]

theorem split_base_row (format : String) (ts : List Toggle) :
    split ((split format).base ++ Toggle.row ts) = ⟨(split format).base, Toggle.row ts⟩ :=
  Request.split_append (fun _ hc => Request.not_startsOptions_of_mem_base hc) (isOptions_row ts)

-- Toggles may be put in front of the options of a format and behind them. The base stays, and the
-- format comes to what its base comes to with all the toggles written in a row: behind beats
-- within, within beats in front, and any of them the dialect itself. Doing it twice is doing it
-- once, with the later toggles further out.
theorem resolve_extend (hfirst : IsOptions first) (hlast : IsOptions last) (format : String) :
    let base := (split format).base
    let ts := Toggle.parse first ++ Toggle.parse (split format).options ++ Toggle.parse last
    (split (extend format first last)).base = base ∧
      Toggle.parse (split (extend format first last)).options = ts ∧
      (∀ answers, (Interview.resolve answers (extend format first last)).1 =
        (Interview.resolve answers (base ++ Toggle.row ts)).1) ∧
      (∀ answers r, (Interview.resolve answers (extend format first last)).1 = .ok r →
        ∃ own, answers r.baseName = .ok own ∧ ∀ name ∈ names own,
          Entries.get? name r.extensions =
            (Toggle.lastState name (Toggle.parse last)).or
              ((Toggle.lastState name (Toggle.parse (split format).options)).or
                ((Toggle.lastState name (Toggle.parse first)).or
                  (Toggle.lastState name (Toggle.parse own))))) ∧
      ∀ before behind, extend (extend format first last) before behind =
        extend format (before ++ first) (last ++ behind) := by
  intro base ts
  have hbase : (split (extend format first last)).base = base := by
    rw [Request.split_extend hfirst hlast]
  have htoggles : toggles (extend format first last) = ts := toggles_extend hfirst hlast format
  refine ⟨hbase, htoggles, ?_, ?_, Request.extend_extend hfirst hlast format⟩
  · have hrow : toggles (base ++ Toggle.row ts) = ts := by
      rw [toggles, split_base_row]
      apply Toggle.parse_row
      rw [← htoggles]
      exact fun t ht => Toggle.writable_of_mem_parse ht
    apply resolve_congr
    · rw [hbase, split_base_row]
    · rw [htoggles, hrow]
  · intro answers r h
    obtain ⟨own, hown, hget⟩ := get?_of_resolve h
    refine ⟨own, hown, fun name hname => ?_⟩
    rw [hget name hname, htoggles, Toggle.lastState_append, Toggle.lastState_append,
      Option.or_assoc, Option.or_assoc]

-- Options with a name over two lines and a bare sign at their end, and bare signs in what is put
-- around them. Each of four names has its last word from another place.
private def oddFormat : String := "gfm+e\nmoji+styles-"

private def oddFirst : String := "-\r-emoji-ntb+styles-"

private def oddLast : String := "+-styles\n+Nope"

private def oddList : String := "+smart\n-emoji\n+ntb\n+styles"

private def oddLists : Answers := fun dialect =>
  if dialect = "gfm" then .ok oddList else .ok "+smart+tables"

private def oddAnswer : Resolved :=
  { baseName := "gfm"
    fullName := "gfm-emoji-ntb+styles+emoji+styles-styles"
    extensions := [("smart", true), ("tables", false), ("emoji", true), ("ntb", false),
      ("styles", false)]
    warnings := ⟨"", []⟩ }

private theorem resolve_oddFormat :
    (Interview.resolve oddLists (extend oddFormat oddFirst oddLast)).1 = .ok oddAnswer :=
  (Interview.resolve_eq_ok_iff _ _ _).mpr ⟨oddList, "+smart+tables", rfl, by decide +kernel⟩

theorem resolve_extend_oddFormat :
    IsOptions oddFirst ∧ IsOptions oddLast ∧
      (Interview.resolve oddLists (extend oddFormat oddFirst oddLast)).1 = .ok oddAnswer ∧
      (Interview.resolve oddLists
        ("gfm" ++ Toggle.row [⟨"emoji", false⟩, ⟨"ntb", false⟩, ⟨"styles", true⟩,
          ⟨"emoji", true⟩, ⟨"styles", true⟩, ⟨"styles", false⟩])).1 = .ok oddAnswer ∧
      (∀ name ∈ names oddList, Entries.get? name oddAnswer.extensions =
        (Toggle.lastState name (Toggle.parse oddLast)).or
          ((Toggle.lastState name (Toggle.parse (split oddFormat).options)).or
            ((Toggle.lastState name (Toggle.parse oddFirst)).or
              (Toggle.lastState name (Toggle.parse oddList))))) ∧
      extend (extend oddFormat oddFirst oddLast) "-a" "+b" =
        extend oddFormat ("-a" ++ oddFirst) (oddLast ++ "+b") := by
  have hfirst : IsOptions oddFirst := by decide
  have hlast : IsOptions oddLast := by decide
  obtain ⟨-, -, hwritten, hstates, htwice⟩ := resolve_extend hfirst hlast oddFormat
  obtain ⟨own, hown, hget⟩ := hstates oddLists oddAnswer resolve_oddFormat
  cases hown
  have hrow := (hwritten oddLists).symm.trans resolve_oddFormat
  exact ⟨hfirst, hlast, resolve_oddFormat, hrow, hget, htwice "-a" "+b"⟩

end Dialect.Format.Negotiation
