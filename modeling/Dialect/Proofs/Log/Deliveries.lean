import Dialect.Log.Writer
import Dialect.Proofs.File.Append
import Dialect.Proofs.Text.Code
import Dialect.Proofs.Text.Utf8

-- What is written of a row of configurations and records, and where.

namespace Dialect.Log

-- How records are written after a configuration, and the file that gets a copy of them.
structure Target where
  level : Level
  layout : Layout
  place? : Option Location
deriving DecidableEq, Repr

-- A line that goes to the console, the file that gets a copy of it, and what is said if the file
-- does not take it.
structure Delivery where
  line : Text
  place? : Option Location
  alarm : String
deriving DecidableEq, Repr

namespace Delivery

-- What the console gets of the line.
def text (d : Delivery) : String := d.line.escaped

-- What the file gets: the same, unless that cannot be encoded.
def copy (d : Delivery) : String := d.line.string?.getD ""

-- What is said on the console beside the line.
def aside (d : Delivery) : String :=
  match d.place?, d.line.string? with
  | some _, none => d.alarm
  | _, _ => ""

theorem copy_of_isPlain {d : Delivery} (h : d.line.isPlain = true) : d.copy = d.text := by
  rw [← Text.isSome_string?, Option.isSome_iff_exists] at h
  obtain ⟨s, hs⟩ := h
  rw [copy, text, hs, Text.string?_eq_some_iff.mp hs, Text.escaped_of, Option.getD_some]

theorem aside_of_isPlain {d : Delivery} (h : d.line.isPlain = true) : d.aside = "" := by
  rw [← Text.isSome_string?, Option.isSome_iff_exists] at h
  obtain ⟨s, hs⟩ := h
  unfold aside
  rw [hs]
  cases d.place? <;> rfl

-- Nothing is written of an empty line.
theorem text_of_nil {d : Delivery} (h : d.line = []) : d.text ++ d.aside = "" := by
  rw [aside_of_isPlain (by rw [h]; rfl), text, h, Text.escaped_nil, String.append_empty]

theorem encode_copy_of_nil {d : Delivery} (h : d.line = []) : Utf8.encode d.copy = [] := by
  rw [copy, h]
  exact Utf8.encode_empty

end Delivery

namespace Target

-- The level that a record of a logger needs. Chatty loggers are held back unless their records
-- are traced.
def needed (t : Target) (logger : String) : Level :=
  match t.layout with
  | .plain => if Setup.isChatty logger then max t.level warning else t.level
  | .traced => t.level

-- A record is written once or not at all.
def delivery (t : Target) (w : Writer) (r : Record) : Delivery where
  line := if 0 < r.level ∧ t.needed r.logger ≤ r.level then t.layout.line w.clock r else []
  place? := t.place?
  alarm := w.alarm r

def setup (t : Target) : Setup :=
  { Setup.consoleOnly t.level t.layout with
    handlers := (.console :: t.place?.toList.map Sink.file).map fun sink =>
      ⟨sink, t.level, t.layout⟩ }

theorem level_le_needed (t : Target) (logger : String) : t.level ≤ t.needed logger := by
  unfold needed
  split
  · split_ifs
    · exact Int.le_max_left _ _
    · exact Int.le_refl _
  · exact Int.le_refl _

theorem threshold_setup (t : Target) (logger : String) :
    t.setup.threshold logger = t.needed logger := by
  obtain ⟨level, layout, place?⟩ := t
  cases layout with
  | traced => simp [Setup.threshold, setup, Setup.consoleOnly, needed]
  | plain =>
      -- the level of the chatty ones is never zero
      have hchatty : (max level warning != 0) = true := by
        have hpos : 0 < max level warning :=
          Int.lt_of_lt_of_le (by decide) (Int.le_max_right level warning)
        exact bne_iff_ne.mpr (Int.ne_of_gt hpos)
      simp only [Setup.threshold, setup, Setup.consoleOnly, needed, hchatty, Bool.and_true]

theorem admits_setup_iff (t : Target) (r : Record) :
    t.setup.admits r = true ↔ 0 < r.level ∧ t.needed r.logger ≤ r.level := by
  simp [Setup.admits, threshold_setup]

end Target

-- What all deliveries to a file come to.
def copied (l : Location) (ds : List Delivery) : String :=
  String.join ((ds.filter fun d => d.place? = some l).map Delivery.copy)

theorem copied_append (l : Location) (ds ds' : List Delivery) :
    copied l (ds ++ ds') = copied l ds ++ copied l ds' := by
  rw [copied, List.filter_append, List.map_append, String.join_append]
  rfl

theorem copied_of_forall_ne {l : Location} {ds : List Delivery}
    (h : ∀ d ∈ ds, d.place? ≠ some l) : copied l ds = "" := by
  rw [copied, List.filter_eq_nil_iff.mpr fun d hd => by simpa using h d hd]
  rfl

-- From one writer to the other all this was written, in this order, and nothing else.
structure Told (w w' : Writer) (ds : List Delivery) : Prop where
  console : w'.console = w.console ++ String.join (ds.map fun d => d.text ++ d.aside)
  copies : ∀ l, (∃ d ∈ ds, d.place? = some l) →
    w'.files.node? l = some (.file (w.files.content l ++ Utf8.encode (copied l ds)))
  others : ∀ l, (∀ d ∈ ds, d.place? ≠ some l) → w'.files.node? l = w.files.node? l

namespace Told

variable {w w' w'' : Writer} {ds ds' : List Delivery}

theorem refl (w : Writer) : Told w w [] where
  console := String.append_empty.symm
  copies l h := by simp at h
  others _ _ := rfl

-- A file that gets no copy is a file that gets nothing more.
theorem content (h : Told w w' ds) (l : Location) :
    w'.files.content l = w.files.content l ++ Utf8.encode (copied l ds) := by
  by_cases hplace : ∃ d ∈ ds, d.place? = some l
  · exact FileTree.content_of_node? (h.copies l hplace)
  · have hno : ∀ d ∈ ds, d.place? ≠ some l := fun d hd hd' => hplace ⟨d, hd, hd'⟩
    rw [copied_of_forall_ne hno, Utf8.encode_empty, List.append_nil, FileTree.content,
      FileTree.content, h.others l hno]

theorem trans (h : Told w w' ds) (h' : Told w' w'' ds') : Told w w'' (ds ++ ds') where
  console := by
    rw [h'.console, h.console, List.map_append, String.join_append, String.append_assoc]
  copies l hplace := by
    rw [copied_append, Utf8.encode_append, ← List.append_assoc, ← h.content]
    by_cases hlater : ∃ d ∈ ds', d.place? = some l
    · exact h'.copies l hlater
    · have hno : ∀ d ∈ ds', d.place? ≠ some l := fun d hd hd' => hlater ⟨d, hd, hd'⟩
      obtain ⟨d, hd, hd'⟩ := hplace
      have hearlier : d ∈ ds := (List.mem_append.mp hd).resolve_right fun hd => hno d hd hd'
      rw [copied_of_forall_ne hno, Utf8.encode_empty, List.append_nil, h'.others l hno, h.content]
      exact h.copies l ⟨d, hearlier, hd'⟩
  others l hno := by
    obtain ⟨hearlier, hlater⟩ := List.forall_mem_append.mp hno
    rw [h'.others l hlater, h.others l hearlier]

-- One delivery, whether or not a file gets a copy.
theorem single {d : Delivery} (hconsole : w'.console = w.console ++ (d.text ++ d.aside))
    (hcopy : ∀ l, d.place? = some l → w.files.Appended w'.files l (Utf8.encode d.copy))
    (hnone : d.place? = none → w'.files = w.files) : Told w w' [d] where
  console := by rw [hconsole, List.map_singleton, String.join_cons, String.join_nil,
    String.append_empty]
  copies l h := by
    have hplace : d.place? = some l := by simpa using h
    have hcopied : copied l [d] = d.copy := by simp [copied, hplace]
    rw [hcopied]
    exact (hcopy l hplace).node?_self
  others l h := by
    have hl : d.place? ≠ some l := h d List.mem_cons_self
    cases hplace : d.place? with
    | none => rw [hnone hplace]
    | some place =>
        refine (hcopy place hplace).node?_of_ne l ?_
        rintro rfl
        exact hl hplace

end Told

namespace Writer

-- The file that is opened for a configuration, and what is reported of that.
def opening (w : Writer) (file : Option String) : Option Location × List Record :=
  match file with
  | none => (none, [])
  | some name =>
    if name = "" then (none, [])
    else
      match w.openFile name with
      | .ok (place, _) => (some place, [⟨debug, rootLogger, "Copying log output to " ++ name⟩])
      | .error (.os e) =>
        (none, [⟨warning, rootLogger, "Cannot write log file " ++ name ++ ": " ++
          e.messageAbout (Path.absolute w.cwd (Path.ofText name)).text⟩])
      | .error .nulByte => (none, [])

-- Where setting logging up fails, no file is opened and nothing is reported.
theorem opening_of_rejects {w : Writer} {file : Option String} (h : w.rejects file = true) :
    w.opening file = (none, []) := by
  cases file with
  | none => cases h
  | some name =>
      simp only [rejects, Bool.and_eq_true, bne_iff_ne] at h
      have hopen : w.openFile name = .error .nulByte := FileTree.openToAppend_of_hasNul h.2
      simp only [opening, h.1, if_false, hopen]

def target (w : Writer) (level : Level) (file : Option String) (layout : Layout) : Target :=
  ⟨level, layout, (w.opening file).1⟩

-- What a configuration writes itself. The file is there even if nothing is written to it.
def introduction (w : Writer) (level : Level) (file : Option String) (layout : Layout) :
    List Delivery :=
  let t := w.target level file layout
  ⟨[], t.place?, ""⟩ :: (w.opening file).2.map (t.delivery w)

-- What is written of a row of events while the latest configuration is as given.
def deliveries (w : Writer) (t : Target) : List Event → List Delivery
  | [] => []
  | .record r :: rest => t.delivery w r :: (w.log r).deliveries t rest
  | .configure level file layout :: rest =>
    w.introduction level file layout ++
      (w.configure level file layout).deliveries (w.target level file layout) rest

-- The writer after a row of events.
def after (w : Writer) (events : List Event) : Writer :=
  (w.run events).getLastD w

theorem after_cons (w : Writer) (e : Event) (rest : List Event) :
    w.after (e :: rest) = (w.step e).after rest :=
  List.getLastD_cons ..

-- Logging is set up as the target says, and the file that gets the copies is there.
structure Attached (w : Writer) (t : Target) : Prop where
  setup : w.setup = t.setup
  opened : ∀ l, t.place? = some l → ∃ bytes, w.files.node? l = some (.file bytes)

section Attached

variable {w : Writer} {t : Target}

theorem log_of_not_admits {r : Record} (h : w.setup = t.setup)
    (hno : ¬(0 < r.level ∧ t.needed r.logger ≤ r.level)) : w.log r = w := by
  rw [log, h, if_neg fun hadmits => hno ((t.admits_setup_iff r).mp hadmits)]

theorem log_of_admits {r : Record} (h : w.setup = t.setup)
    (hr : 0 < r.level ∧ t.needed r.logger ≤ r.level) :
    w.log r = { w with
      console := w.console ++ ((t.delivery w r).text ++ (t.delivery w r).aside)
      files := match t.place?, (t.layout.line w.clock r).string? with
        | some l, some text => w.files.append l text
        | _, _ => w.files } := by
  have hlevel : t.level ≤ r.level := Int.le_trans (t.level_le_needed r.logger) hr.2
  have hline : (t.delivery w r).line = t.layout.line w.clock r := if_pos hr
  rw [log, h, if_pos ((t.admits_setup_iff r).mpr hr), Delivery.text, Delivery.aside, hline]
  obtain ⟨level, layout, place?⟩ := t
  cases hstring : (layout.line w.clock r).string? <;> cases place? <;>
    simpa [Target.setup, Target.delivery, handle, send, say, hlevel, hstring, String.append_assoc]
      using h

theorem setup_log (h : w.setup = t.setup) (r : Record) : (w.log r).setup = w.setup := by
  by_cases hr : 0 < r.level ∧ t.needed r.logger ≤ r.level
  · rw [log_of_admits h hr]
  · rw [log_of_not_admits h hr]

theorem told_log (h : Attached w t) (r : Record) : Told w (w.log r) [t.delivery w r] := by
  by_cases hr : 0 < r.level ∧ t.needed r.logger ≤ r.level
  · have hline : (t.delivery w r).line = t.layout.line w.clock r := if_pos hr
    rw [log_of_admits h.setup hr]
    refine .single rfl (fun l hplace => ?_) (fun hplace => ?_)
    · obtain ⟨bytes, hopened⟩ := h.opened l hplace
      have hcopy : t.place? = some l := hplace
      simp only [Delivery.copy, hline, hcopy]
      cases (t.layout.line w.clock r).string? with
      | none =>
          rw [Option.getD_none, Utf8.encode_empty]
          exact FileTree.appended_nil hopened
      | some text => exact FileTree.appended_append hopened _
    · have hcopy : t.place? = none := hplace
      simp only [hcopy]
  · have hline : (t.delivery w r).line = [] := if_neg hr
    rw [log_of_not_admits h.setup hr]
    refine .single (by rw [Delivery.text_of_nil hline, String.append_empty])
      (fun l hplace => ?_) (fun _ => rfl)
    obtain ⟨bytes, hopened⟩ := h.opened l hplace
    rw [Delivery.encode_copy_of_nil hline]
    exact FileTree.appended_nil hopened

theorem attached_log (h : Attached w t) (r : Record) : Attached (w.log r) t where
  setup := (setup_log h.setup r).trans h.setup
  opened l hplace :=
    ⟨_, (told_log h r).copies l ⟨_, List.mem_singleton_self _, hplace⟩⟩

-- What is reported of the opening of a file comes after the opening.
theorem told_report {w' : Writer} (h : Told w w' [⟨[], t.place?, ""⟩]) (hattached : Attached w' t)
    (r : Record) : Told w (w'.log r) [⟨[], t.place?, ""⟩, t.delivery w' r] ∧
      Attached (w'.log r) t :=
  ⟨h.trans (told_log hattached r), attached_log hattached r⟩

end Attached

-- Whatever the writer was, it is set up anew, and nothing of the earlier set-up is left.
theorem told_configure (w : Writer) (level : Level) (file : Option String) (layout : Layout) :
    Told w (w.configure level file layout) (w.introduction level file layout) ∧
      Attached (w.configure level file layout) (w.target level file layout) := by
  have hbare : Told w { w with setup := Setup.consoleOnly level layout }
      [⟨[], none, ""⟩] :=
    .single String.append_empty.symm (by rintro _ ⟨⟩) fun _ => rfl
  have hattached : Attached { w with setup := Setup.consoleOnly level layout }
      ⟨level, layout, none⟩ := ⟨rfl, by rintro _ ⟨⟩⟩
  cases file with
  | none => exact ⟨hbare, hattached⟩
  | some name =>
      by_cases hname : name = ""
      · subst hname
        exact ⟨hbare, hattached⟩
      · have hconfigure : w.configure level (some name) layout =
            { w with setup := Setup.consoleOnly level layout }.copyTo name level layout :=
          if_neg hname
        rw [hconfigure]
        unfold introduction target opening copyTo
        simp only [hname, if_false]
        have hfile : openFile { w with setup := Setup.consoleOnly level layout } name =
            w.openFile name := rfl
        rw [hfile]
        cases hopen : w.openFile name with
        | error e =>
            cases e with
            | os e => exact told_report hbare hattached _
            | nulByte => exact ⟨hbare, hattached⟩
        | ok opened =>
            obtain ⟨place, files⟩ := opened
            have happended := FileTree.appended_openToAppend hopen
            refine told_report (t := ⟨level, layout, some place⟩) ?_ ⟨rfl, ?_⟩ _
            · refine .single String.append_empty.symm ?_ (by rintro ⟨⟩)
              rintro l ⟨⟩
              rwa [Delivery.encode_copy_of_nil rfl]
            · rintro l ⟨⟩
              exact ⟨_, happended.node?_self⟩

theorem told_events {t : Target} {w : Writer} (h : Attached w t) (events : List Event) :
    Told w (w.after events) (w.deliveries t events) := by
  induction events generalizing w t with
  | nil => exact .refl w
  | cons e rest ih =>
      rw [after_cons]
      cases e with
      | record r => exact (told_log h r).trans (ih (attached_log h r))
      | configure level file layout =>
          obtain ⟨htold, hattached⟩ := told_configure w level file layout
          exact htold.trans (ih hattached)

-- The line of a record names its level and ends with its message.
theorem line_eq (layout : Layout) (clock : String) (r : Record) : ∃ front between : Text,
    layout.line clock r =
      front ++ Text.of (levelName r.level) ++ between ++ r.message ++ Text.of "\n" := by
  cases layout with
  | plain => exact ⟨[], ": ", by simp [Layout.line]⟩
  | traced =>
      exact ⟨"[" ++ clock ++ "] [", "] [" ++ r.logger ++ "] ", by simp [Layout.line]⟩

-- From a configuration on, whatever the writer was before and whatever comes after: a record is
-- written once if it has the level that the latest configuration asks of its logger, and not at
-- all otherwise. Its line, which names its level and ends with its message, goes to the console
-- and, if the latest configuration opened a file and the line can be encoded, to the end of that
-- file. All that comes besides are the reports of the openings and an alarm for each line that a
-- file did not take, and all other files stay as they were. There is no report where the
-- configuration fails.
theorem after_configure_told (w : Writer) (level : Level) (file : Option String) (layout : Layout)
    (events : List Event) :
    Told w (w.after (.configure level file layout :: events))
      (w.introduction level file layout ++
        (w.configure level file layout).deliveries (w.target level file layout) events) ∧
    (∀ (t : Target) (v : Writer) (r : Record),
      (0 < r.level ∧ t.needed r.logger ≤ r.level → ∃ front between : Text,
        (t.delivery v r).line =
          front ++ Text.of (levelName r.level) ++ between ++ r.message ++ Text.of "\n") ∧
      (¬(0 < r.level ∧ t.needed r.logger ≤ r.level) → (t.delivery v r).line = [])) ∧
    (∀ d : Delivery, d.copy = (if d.line.isPlain then d.text else "") ∧
      (d.line.isPlain = true → d.aside = "")) ∧
    ∀ (v : Writer) (name? : Option String), v.rejects name? = true →
      v.opening name? = (none, []) := by
  obtain ⟨htold, hattached⟩ := told_configure w level file layout
  refine ⟨?_, fun t v r => ⟨fun hr => ?_, fun hr => if_neg hr⟩, fun d =>
    ⟨?_, Delivery.aside_of_isPlain⟩, fun v name? => opening_of_rejects⟩
  · rw [after_cons]
    exact htold.trans (told_events hattached events)
  · obtain ⟨front, between, hline⟩ := line_eq t.layout v.clock r
    exact ⟨front, between, (if_pos hr).trans hline⟩
  · by_cases hplain : d.line.isPlain = true
    · rw [if_pos hplain, Delivery.copy_of_isPlain hplain]
    · rw [if_neg hplain, Delivery.copy]
      rw [← Text.isSome_string?, Bool.not_eq_true, Option.isSome_eq_false_iff] at hplain
      rw [Option.isNone_iff_eq_none.mp hplain, Option.getD_none]

-- Before the first configuration, with nothing written yet.
private def blank : Writer := start ⟨[]⟩ ⟨"/", []⟩ "" fun _ => "!\n"

-- One file cannot be opened, another one can. Nothing is left of the tracing when it is over.
private def twoFiles : List Event :=
  [.record ⟨debug, "asyncio", "poll"⟩, .configure info (some "a.log") .plain,
    .record ⟨info, "asyncio", "poll"⟩, .record ⟨warning, "panbridge.cli", "done"⟩]

theorem after_configure_told_twoFiles :
    let w := blank.after (.configure debug (some "no/a.log") .traced :: twoFiles)
    w.console = "[] [WARNING] [root] Cannot write log file no/a.log: [Errno 2] " ++
        "No such file or directory: '/no/a.log'\n[] [DEBUG] [asyncio] poll\nWARNING: done\n" ∧
      w.files.content ["no", "a.log"] = [] ∧
      w.files.content ["a.log"] = Utf8.encode "WARNING: done\n" := by
  obtain ⟨htold, -⟩ := after_configure_told blank debug (some "no/a.log") .traced twoFiles
  refine ⟨?_, ?_, ?_⟩
  · rw [htold.console]
    decide +kernel
  · rw [htold.content]
    decide +kernel
  · rw [htold.content]
    decide +kernel

-- A configuration fails whose file can have no such name, and nothing is reported. A record with
-- half of a surrogate pair has the level that is asked for, and the file that is open gets nothing
-- of it.
theorem after_configure_told_half :
    (blank.rejects (some "a\x00b.log") = true ∧
      (blank.configure info (some "a\x00b.log") .plain).console = "") ∧
    let r : Record := ⟨info, "panbridge.cli", [.char 'x', .half 0]⟩
    let w := blank.configure info (some "a.log") .plain
    (w.setup.admits r = true ∧ (blank.opening (some "a.log")).1 = some ["a.log"]) ∧
      (w.log r).console = w.console ++ "INFO: x\\ud800\n!\n" ∧
      (w.log r).files.content ["a.log"] = w.files.content ["a.log"] := by
  refine ⟨?_, ?_⟩ <;> decide +kernel

end Writer

end Dialect.Log
