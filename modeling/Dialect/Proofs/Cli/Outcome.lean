import Dialect.Proofs.Cli.Documents
import Dialect.Proofs.Config.Layers
import Dialect.Proofs.Engine.Session

namespace Dialect.Cli

-- What a command asks the engine, if it asks anything.
def Command.call? : Command → Option Engine.Call
  | .resolve request _ => some (.resolve request)
  | .extensions dialect => some (.listExtensions (Text.of dialect))
  | _ => none

-- The run comes back with an exit code.
def Outcome.Returns (out : Outcome) (code : Nat) : Prop :=
  ∃ e, out.ending = .exit e ∧ e.code = code

theorem Outcome.returns_code_iff (out : Outcome) (e : Exit) :
    out.Returns e.code ↔ out.ending = .exit e := by
  constructor
  · rintro ⟨e', hending, hcode⟩
    obtain rfl : e' = e := by cases e' <;> cases e <;> first | rfl | cases hcode
    exact hending
  · exact fun h => ⟨e, h, rfl⟩

-- Nothing was written and no program was started.
structure Outcome.Idle (out : Outcome) : Prop where
  output : out.output = ""
  launches : out.launches = []

namespace Progress

variable {p p' : Progress} {trouble : Trouble} (result : Except Trouble Unit × Progress)

theorem ending_outcome_eq_exit_iff {e : Exit} (he : e ≠ .success) :
    (outcome result).ending = .exit e ↔
      ∃ trouble, trouble.ending = .exit e ∧ result.1 = .error trouble := by
  obtain ⟨trouble | u, p⟩ := result
  · simp
  · simp [he.symm]

-- A question to the engine writes nothing, and what is answered for is what the engine fails with.
theorem output_ask {α : Type} (p : Progress) (o : Engine.Options)
    (programs : List Engine.Behaviour) (act : Engine.Act α) :
    (p.perform (Job.ask o programs act)).2.output = p.output := by
  rw [perform_ask]

theorem ask_eq_error_iff {α : Type} {o : Engine.Options} {programs : List Engine.Behaviour}
    {act : Engine.Act α} (hanswered : ∀ f, trouble ≠ .fault f) :
    (p.perform (Job.ask o programs act)).1 = .error trouble ↔ ∃ e, trouble = .engine e ∧
      ((Engine.Session.start o programs).perform act).1 = .error (.engine e) := by
  rw [perform_ask]
  rcases (Engine.Session.start o programs).perform act with ⟨failure | answer, session⟩
  · cases failure with
    | engine error => simp [eq_comm]
    | _ => simpa using fun h => hanswered _ h.symm
  · simp

end Progress

namespace Machine

variable {m : Machine} {args : List String} {s : Settings} {command : Command}
  {config : Entries Key Setting} {o : Engine.Options} {files : FileTree} {trouble : Trouble}
  {e : Engine.EngineError} {p : Progress}

-- What the configuration of a run comes to: nothing is read if none is wanted, and otherwise the
-- files decide, of which one may be named, by the settings or else by the environment.
inductive Configures (m : Machine) (s : Settings) :
    Except Config.LoadError (Entries Key Setting) → Prop
  | unwanted : s.noConfig = true → Configures m s (.ok [])
  | wanted {result : Except Config.LoadError Config.Mapping} : s.noConfig = false →
      m.surroundings.ComesTo ((s.config.filter (· ≠ "")).or (m.configPath.filter (· ≠ ""))) result →
      Configures m s (result.map Config.Mapping.settings)

theorem configures_iff {result : Except Config.LoadError (Entries Key Setting)} :
    m.Configures s result ↔ m.configuration s = result := by
  unfold configuration
  constructor
  · rintro (h | ⟨h, hresult⟩)
    · rw [if_pos h]
    · rw [← Config.Surroundings.selected_eq, Config.Surroundings.comesTo_iff] at hresult
      rw [if_neg (by simp [h]), hresult]
  · rintro rfl
    split_ifs with h
    · exact .unwanted h
    · refine .wanted (by simpa using h) ?_
      rw [← Config.Surroundings.selected_eq]
      exact Config.Surroundings.comesTo_iff.mpr rfl

-- A run has a configuration, and its log can be set up.
structure Proceeds (m : Machine) (s : Settings) (config : Entries Key Setting) : Prop where
  configures : m.Configures s (.ok config)
  log : m.writer.rejects s.logFile = false

-- The configuration is refused, or else what it says of the engine together with the environment
-- and the settings. A timeout out of the range of doubles is the one fault there that nobody
-- answers for.
def Refuses (m : Machine) (s : Settings) : Prop :=
  (∃ e, m.Configures s (.error e) ∧ e.isReported = true) ∨
    ∃ config e, m.Proceeds s config ∧ optionsFor s m.program config = .error e ∧
      e ≠ .timeoutTooLarge

-- The options of a run, where there are any.
def Accepts (m : Machine) (s : Settings) (o : Engine.Options) : Prop :=
  ∃ config, m.Proceeds s config ∧ optionsFor s m.program config = .ok o

-- The question that a command puts to the engine fails.
def EngineFails (m : Machine) (o : Engine.Options) (command : Command) (e : Engine.EngineError) :
    Prop :=
  ∃ call, command.call? = some call ∧
    ((Engine.Session.start o m.programs).perform (call.act false)).1 = .error (.engine e)

-- There is no document for a command that reads one, though there may be a file of that name.
def LacksDocument (m : Machine) (files : FileTree) (command : Command) : Prop :=
  ∃ source, command.source? = some source ∧ (∀ d, ¬m.Offers files source d) ∧ ¬Unnameable source

theorem Proceeds.unique {config' : Entries Key Setting} (h : m.Proceeds s config)
    (h' : m.Proceeds s config') : config = config' :=
  Except.ok.inj ((configures_iff.mp h.configures).symm.trans (configures_iff.mp h'.configures))

theorem Accepts.unique {o' : Engine.Options} (h : m.Accepts s o) (h' : m.Accepts s o') :
    o = o' := by
  obtain ⟨config, hconfig, hoptions⟩ := h
  obtain ⟨config', hconfig', hoptions'⟩ := h'
  obtain rfl := hconfig.unique hconfig'
  exact Except.ok.inj (hoptions.symm.trans hoptions')

theorem Accepts.not_refuses (h : m.Accepts s o) : ¬m.Refuses s := by
  obtain ⟨config, hconfig, hoptions⟩ := h
  rintro (⟨e, hfailed, -⟩ | ⟨config', e, hconfig', hrefused, -⟩)
  · have := (configures_iff.mp hconfig.configures).symm.trans (configures_iff.mp hfailed)
    cases this
  · obtain rfl := hconfig.unique hconfig'
    rw [hoptions] at hrefused
    cases hrefused

theorem error_of_act_iff {α : Type} (f : α → Engine.Reply) (act : Engine.Act α)
    (session : Engine.Session) (failure : Engine.Failure) :
    (session.perform (f <$> act)).1 = .error failure ↔
      (session.perform act).1 = .error failure := by
  rw [Engine.Session.perform_map]
  cases (session.perform act).1 <;> simp [Except.map]

-- A command with a question puts it first, and nothing is answered for after that.
theorem runCommand_of_call {call : Engine.Call} (m : Machine) (o : Engine.Options)
    (hasks : command.call? = some call) : ∃ (α : Type) (act : Engine.Act α)
      (reply : α → Engine.Reply) (rest : α → Job Unit), call.act false = reply <$> act ∧
        m.runCommand o command = (Job.ask o m.programs act >>= rest) ∧
        ∀ answer, (rest answer).OnlyFaults := by
  cases command with
  | resolve request view =>
      obtain rfl := Option.some.inj hasks
      refine ⟨_, _, _, _, rfl, rfl, fun r => ?_⟩
      cases view with
      | json => exact .print _
      | plain => exact .bind (.forM (fun _ => .tell _) _) fun _ => .forM (fun _ => .print _) _
      | table => exact .bind (.present m _) fun _ => .present m _
  | extensions dialect =>
      obtain rfl := Option.some.inj hasks
      exact ⟨_, _, _, _, rfl, rfl, fun names => .print _⟩
  | formatWith format first last => cases hasks
  | text source => cases hasks
  | title source => cases hasks

theorem call?_or_source? (command : Command) : (∃ call, command.call? = some call) ∨
    (∃ source, command.source? = some source) ∨
    ∃ format first last, command = .formatWith format first last := by
  cases command with
  | resolve request view => exact .inl ⟨_, rfl⟩
  | extensions dialect => exact .inl ⟨_, rfl⟩
  | formatWith format first last => exact .inr (.inr ⟨_, _, _, rfl⟩)
  | text source => exact .inr (.inl ⟨_, rfl⟩)
  | title source => exact .inr (.inl ⟨_, rfl⟩)

-- What the engine fails with is what its question fails with, and nothing is written by then.
theorem error_of_call_iff {call : Engine.Call} (hasks : command.call? = some call)
    (hanswered : ∀ f, trouble ≠ .fault f) :
    (p.perform (m.runCommand o command)).1 = .error trouble ↔
      ∃ e, trouble = .engine e ∧ m.EngineFails o command e := by
  obtain ⟨α, act, reply, rest, hact, hrun, hrest⟩ := m.runCommand_of_call o hasks
  rw [hrun, Progress.bind_eq_error_iff hrest hanswered, Progress.ask_eq_error_iff hanswered]
  refine exists_congr fun e => and_congr_right fun _ => ?_
  simp only [EngineFails, hasks, Option.some.injEq, exists_eq_left', hact, error_of_act_iff]

theorem output_of_call {call : Engine.Call} (hasks : command.call? = some call)
    (hanswered : ∀ f, trouble ≠ .fault f)
    (h : (p.perform (m.runCommand o command)).1 = .error trouble) :
    (p.perform (m.runCommand o command)).2.output = p.output := by
  obtain ⟨α, act, reply, rest, -, hrun, hrest⟩ := m.runCommand_of_call o hasks
  rw [hrun] at h ⊢
  rw [Progress.progress_bind_of_error ((Progress.bind_eq_error_iff hrest hanswered).mp h) rest,
    Progress.output_ask]

-- What there is to read decides about a command that reads a document, and no error of the engine
-- comes of it. Nothing is written before there is a document.
theorem error_of_source {source : String} (hreads : command.source? = some source)
    (hanswered : ∀ f, trouble ≠ .fault f)
    (h : (p.perform (m.runCommand o command)).1 = .error trouble) :
    trouble.ending = .exit .badInput ∧ m.LacksDocument p.writer.files command ∧
      (p.perform (m.runCommand o command)).2.output = p.output := by
  obtain ⟨d, lines, -, -, -, hperform⟩ | ⟨d, -, -, -, hperform⟩ | ⟨hnone, found, hperform, hwhy⟩ :=
    m.perform_cases p o hreads
  · rw [hperform] at h
    dsimp only at h
    split_ifs at h
    exact absurd (Except.error.inj h).symm (hanswered _)
  · rw [hperform] at h
    exact absurd (Except.error.inj h).symm (hanswered _)
  · rw [hperform] at h ⊢
    obtain rfl : found = trouble := Except.error.inj h
    obtain ⟨-, rfl⟩ | ⟨hname, hending⟩ := hwhy
    · exact absurd rfl (hanswered _)
    · exact ⟨hending, ⟨source, hreads, hnone, hname⟩, rfl⟩

theorem error_of_lacksDocument (h : m.LacksDocument p.writer.files command) : ∃ trouble,
    trouble.ending = .exit .badInput ∧
      (p.perform (m.runCommand o command)).1 = .error trouble := by
  obtain ⟨source, hreads, hnone, hname⟩ := h
  obtain ⟨d, lines, hoffers, -⟩ | ⟨d, hoffers, -⟩ | ⟨-, trouble, hperform, hwhy⟩ :=
    m.perform_cases p o hreads
  · exact absurd hoffers (hnone d)
  · exact absurd hoffers (hnone d)
  · obtain ⟨hname', -⟩ | ⟨-, hending⟩ := hwhy
    · exact absurd hname' hname
    · exact ⟨trouble, hending, by rw [hperform]⟩

-- What is answered for comes from the engine or from the document, and then nothing is written.
theorem told_cases (hanswered : ∀ f, trouble ≠ .fault f)
    (h : (p.perform (m.runCommand o command)).1 = .error trouble) :
    (p.perform (m.runCommand o command)).2.output = p.output ∧
      ((∃ e, trouble = .engine e ∧ m.EngineFails o command e) ∨
        trouble.ending = .exit .badInput ∧ m.LacksDocument p.writer.files command) := by
  obtain ⟨call, hasks⟩ | ⟨source, hreads⟩ | ⟨format, first, last, rfl⟩ := call?_or_source? command
  · exact ⟨output_of_call hasks hanswered h, .inl ((error_of_call_iff hasks hanswered).mp h)⟩
  · obtain ⟨hending, hlacks, houtput⟩ := error_of_source hreads hanswered h
    exact ⟨houtput, .inr ⟨hending, hlacks⟩⟩
  · obtain ⟨f, rfl⟩ := Job.OnlyFaults.print _ p trouble h
    exact absurd rfl (hanswered f)

theorem error_engine_iff : (p.perform (m.runCommand o command)).1 = .error (.engine e) ↔
    m.EngineFails o command e := by
  constructor
  · intro h
    obtain ⟨-, ⟨e', he, hfails⟩ | ⟨hending, -⟩⟩ := told_cases (by simp) h
    · exact Trouble.engine.inj he ▸ hfails
    · cases hending
  · rintro ⟨call, hasks, hfails⟩
    exact (error_of_call_iff hasks (by simp)).mpr ⟨e, rfl, call, hasks, hfails⟩

-- The documents are those of the files at the end.
theorem lacksDocument_end_iff :
    m.LacksDocument (p.perform (m.runCommand o command)).2.writer.files command ↔
      m.LacksDocument p.writer.files command := by
  cases hreads : command.source? with
  | none => simp [LacksDocument, hreads]
  | some source => rw [(m.perform_frame p o hreads).1]

theorem error_badInput_iff : (∃ trouble, trouble.ending = .exit .badInput ∧
    (p.perform (m.runCommand o command)).1 = .error trouble) ↔
      m.LacksDocument p.writer.files command := by
  constructor
  · rintro ⟨trouble, hending, h⟩
    have hanswered (f : Fault) : trouble ≠ .fault f := by
      rintro rfl
      cases hending
    obtain ⟨-, ⟨e, rfl, -⟩ | ⟨-, hlacks⟩⟩ := told_cases hanswered h
    · cases hending
    · exact hlacks
  · exact error_of_lacksDocument

theorem LacksDocument.call?_eq_none (h : m.LacksDocument files command) :
    command.call? = none := by
  obtain ⟨source, hreads, -⟩ := h
  cases command <;> first | rfl | cases hreads

theorem launches_perform (hasks : command.call? = none) :
    (p.perform (m.runCommand o command)).2.launches = p.launches := by
  obtain ⟨call, hasks'⟩ | ⟨source, hreads⟩ | ⟨format, first, last, rfl⟩ := call?_or_source? command
  · rw [hasks] at hasks'
    cases hasks'
  · exact (m.perform_frame p o hreads).2
  · rw [runCommand, Progress.perform_print]
    split <;> rfl

-- What a run comes to that gets as far as its command.
section Ending

variable {w : Log.Writer} {out : Outcome}

theorem ending_engineError_iff
    (hout : out = Progress.outcome ((Progress.start w).perform (m.runCommand o command))) :
    out.ending = .exit .engineError ↔ ∃ e, m.EngineFails o command e := by
  rw [hout, Progress.ending_outcome_eq_exit_iff _ (by simp)]
  constructor
  · rintro ⟨trouble, hending, h⟩
    cases trouble with
    | engine e => exact ⟨e, error_engine_iff.mp h⟩
    | _ => cases hending
  · rintro ⟨e, h⟩
    exact ⟨.engine e, rfl, error_engine_iff.mpr h⟩

theorem ending_badInput_iff
    (hout : out = Progress.outcome ((Progress.start w).perform (m.runCommand o command))) :
    out.ending = .exit .badInput ↔ m.LacksDocument out.files command := by
  rw [hout, Progress.ending_outcome_eq_exit_iff _ (by simp), error_badInput_iff,
    Progress.files_outcome, lacksDocument_end_iff]

theorem ending_ne_invalidSettings
    (hout : out = Progress.outcome ((Progress.start w).perform (m.runCommand o command))) :
    out.ending ≠ .exit .invalidSettings := by
  rw [hout]
  intro h
  obtain ⟨trouble, hending, -⟩ := (Progress.ending_outcome_eq_exit_iff _ (by simp)).mp h
  cases trouble <;> cases hending

theorem output_eq_empty
    (hout : out = Progress.outcome ((Progress.start w).perform (m.runCommand o command)))
    {e : Exit} (he : e ≠ .success) (h : out.ending = .exit e) : out.output = "" := by
  rw [hout] at h ⊢
  obtain ⟨trouble, hending, herror⟩ := (Progress.ending_outcome_eq_exit_iff _ he).mp h
  have hanswered (f : Fault) : trouble ≠ .fault f := by
    rintro rfl
    cases hending
  rw [Progress.output_outcome, (told_cases hanswered herror).1]
  rfl

end Ending

-- A run has no options and tells the user so, or fails to have them for a reason that nobody
-- answers for, or has them and comes down to its command.
theorem run_cases (hparse : parse args = .ok (s, command)) :
    ((m.run args).ending = .exit .invalidSettings ∧ m.Refuses s ∧ (m.run args).Idle ∧
      ∀ o, ¬m.Accepts s o) ∨
    ((∃ f, (m.run args).ending = .fault f) ∧ ¬m.Refuses s ∧ (m.run args).Idle ∧
      ∀ o, ¬m.Accepts s o) ∨
    ∃ o w, m.run args = Progress.outcome ((Progress.start w).perform (m.runCommand o command)) ∧
      m.Accepts s o := by
  have hproceeds : ∀ config', m.Proceeds s config' ↔ m.configuration s = .ok config' ∧
      m.writer.rejects s.logFile = false :=
    fun config' => ⟨fun h => ⟨configures_iff.mp h.1, h.2⟩, fun h => ⟨configures_iff.mpr h.1, h.2⟩⟩
  cases hconfig : m.configuration s with
  | error e =>
      have hno : ∀ o, ¬m.Accepts s o := by simp [Accepts, hproceeds, hconfig]
      have hrefuses : m.Refuses s ↔ e.isReported = true := by
        simp [Refuses, configures_iff, hproceeds, hconfig]
      simp only [run, hparse, runCommandLine, hconfig, hrefuses]
      cases hreported : e.isReported with
      | true => exact .inl ⟨rfl, rfl, ⟨rfl, rfl⟩, hno⟩
      | false => exact .inr (.inl ⟨⟨_, rfl⟩, by simp, ⟨rfl, rfl⟩, hno⟩)
  | ok config =>
      cases hlog : m.writer.rejects s.logFile with
      | true =>
          have hno : ∀ o, ¬m.Accepts s o := by simp [Accepts, hproceeds, hlog]
          have hrefuses : ¬m.Refuses s := by
            simp [Refuses, configures_iff, hproceeds, hconfig, hlog]
          simp only [run, hparse, runCommandLine, hconfig, runConfigured, hlog, if_true]
          exact .inr (.inl ⟨⟨_, rfl⟩, hrefuses, ⟨rfl, rfl⟩, hno⟩)
      | false =>
          cases hoptions : optionsFor s m.program config with
          | error e =>
              have hno : ∀ o, ¬m.Accepts s o := by simp [Accepts, hproceeds, hconfig, hoptions]
              have hrefuses : m.Refuses s ↔ e ≠ .timeoutTooLarge := by
                simp [Refuses, configures_iff, hproceeds, hconfig, hlog, hoptions]
              simp only [run, hparse, runCommandLine, hconfig, runConfigured, hlog, hoptions,
                hrefuses]
              cases e with
              | timeoutTooLarge => exact .inr (.inl ⟨⟨_, rfl⟩, by simp, ⟨rfl, rfl⟩, hno⟩)
              | _ => exact .inl ⟨rfl, by simp, ⟨rfl, rfl⟩, hno⟩
          | ok o =>
              obtain ⟨w, hrun, -⟩ := run_eq hparse hconfig hlog hoptions
              have hgoes := (hproceeds config).mpr ⟨hconfig, hlog⟩
              exact .inr (.inr ⟨o, w, hrun, config, hgoes, hoptions⟩)

theorem ending_run_refused_iff (hparse : parse args = .ok (s, command)) :
    (m.run args).ending = .exit .invalidSettings ↔ m.Refuses s := by
  obtain ⟨hending, hrefuses, -⟩ | ⟨⟨f, hending⟩, hrefuses, -⟩ | ⟨o, w, hrun, haccepts⟩ :=
    run_cases (m := m) hparse
  · simp [hending, hrefuses]
  · simp [hending, hrefuses]
  · exact iff_of_false (ending_ne_invalidSettings hrun) haccepts.not_refuses

theorem ending_run_engineError_iff (hparse : parse args = .ok (s, command)) :
    (m.run args).ending = .exit .engineError ↔
      ∃ o, m.Accepts s o ∧ ∃ e, m.EngineFails o command e := by
  obtain ⟨hending, -, -, hno⟩ | ⟨⟨f, hending⟩, -, -, hno⟩ | ⟨o, w, hrun, haccepts⟩ :=
    run_cases (m := m) hparse
  · simp [hending, hno]
  · simp [hending, hno]
  · rw [ending_engineError_iff hrun]
    constructor
    · exact fun h => ⟨o, haccepts, h⟩
    · rintro ⟨o', haccepts', h⟩
      exact haccepts.unique haccepts' ▸ h

theorem ending_run_badInput_iff (hparse : parse args = .ok (s, command)) :
    (m.run args).ending = .exit .badInput ↔
      (∃ o, m.Accepts s o) ∧ m.LacksDocument (m.run args).files command := by
  obtain ⟨hending, -, -, hno⟩ | ⟨⟨f, hending⟩, -, -, hno⟩ | ⟨o, w, hrun, haccepts⟩ :=
    run_cases (m := m) hparse
  · simp [hending, hno]
  · simp [hending, hno]
  · rw [ending_badInput_iff hrun]
    exact ⟨fun h => ⟨⟨o, haccepts⟩, h⟩, fun h => h.2⟩

theorem ending_run_success_iff (hparse : parse args = .ok (s, command)) :
    (m.run args).ending = .exit .success ↔ (∃ code, (m.run args).Returns code) ∧ ¬m.Refuses s ∧
      (¬∃ o, m.Accepts s o ∧ ∃ e, m.EngineFails o command e) ∧
      ¬((∃ o, m.Accepts s o) ∧ m.LacksDocument (m.run args).files command) := by
  rw [← ending_run_refused_iff hparse, ← ending_run_engineError_iff hparse,
    ← ending_run_badInput_iff hparse]
  constructor
  · intro h
    exact ⟨⟨0, .success, h, rfl⟩, by simp [h]⟩
  · rintro ⟨⟨code, e, hending, -⟩, hrefused, hengine, hbad⟩
    cases e with
    | success => exact hending
    | engineError => exact absurd hending hengine
    | invalidSettings => exact absurd hending hrefused
    | badInput => exact absurd hending hbad

theorem output_run (hparse : parse args = .ok (s, command)) {e : Exit} (he : e ≠ .success)
    (h : (m.run args).ending = .exit e) : (m.run args).output = "" := by
  obtain ⟨-, -, hidle, -⟩ | ⟨-, -, hidle, -⟩ | ⟨o, w, hrun, -⟩ := run_cases (m := m) hparse
  · exact hidle.output
  · exact hidle.output
  · exact output_eq_empty hrun he h

theorem launches_run (hparse : parse args = .ok (s, command))
    (h : (m.run args).ending = .exit .invalidSettings ∨
      (m.run args).ending = .exit .badInput ∨ command.call? = none) :
    (m.run args).launches = [] := by
  obtain ⟨-, -, hidle, -⟩ | ⟨-, -, hidle, -⟩ | ⟨o, w, hrun, haccepts⟩ := run_cases (m := m) hparse
  · exact hidle.launches
  · exact hidle.launches
  · have hasks : command.call? = none := by
      obtain hrefused | hbad | hasks := h
      · exact absurd hrefused (ending_ne_invalidSettings hrun)
      · exact ((ending_badInput_iff hrun).mp hbad).call?_eq_none
      · exact hasks
    rw [hrun, Progress.launches_outcome, launches_perform hasks]
    rfl

-- What a run with a proper command line comes back with, if it comes back with anything: 3 if
-- the configuration or the options are refused, else 2 if the engine fails, else 4 if there is
-- no document to read, else 0. It has written nothing unless it is 0, and starts no program on 3
-- and on 4, nor for a command with no question to the engine. The files are those at the end.
theorem run_returns (hparse : parse args = .ok (s, command)) :
    (∀ code, (m.run args).Returns code → code ≠ 0 → (m.run args).output = "") ∧
    ((m.run args).Returns 3 ↔ m.Refuses s) ∧
    ((m.run args).Returns 2 ↔ ∃ o, m.Accepts s o ∧ ∃ e, m.EngineFails o command e) ∧
    ((m.run args).Returns 4 ↔
      (∃ o, m.Accepts s o) ∧ m.LacksDocument (m.run args).files command) ∧
    ((m.run args).Returns 0 ↔ (∃ code, (m.run args).Returns code) ∧ ¬m.Refuses s ∧
      (¬∃ o, m.Accepts s o ∧ ∃ e, m.EngineFails o command e) ∧
      ¬((∃ o, m.Accepts s o) ∧ m.LacksDocument (m.run args).files command)) ∧
    ((m.run args).Returns 3 ∨ (m.run args).Returns 4 ∨ command.call? = none →
      (m.run args).launches = []) := by
  have hcode (e : Exit) := (m.run args).returns_code_iff e
  refine ⟨?_, (hcode .invalidSettings).trans (ending_run_refused_iff hparse),
    (hcode .engineError).trans (ending_run_engineError_iff hparse),
    (hcode .badInput).trans (ending_run_badInput_iff hparse),
    (hcode .success).trans (ending_run_success_iff hparse), fun h => ?_⟩
  · rintro _ ⟨e, hending, rfl⟩ hzero
    refine output_run hparse (fun hsuccess => hzero ?_) hending
    rw [hsuccess]
    rfl
  · exact launches_run hparse
      (h.imp (hcode .invalidSettings).mp (Or.imp_left (hcode .badInput).mp))

-- A configuration file names the program, which is started once and behaves in some way.
private def asking (behaviour : Engine.Behaviour) : Machine where
  surroundings :=
    { files := ⟨[(["work"], .directory), (["work", ".panbridge.json"],
        .file (Utf8.encode "\x7b\"pandoc_path\": \"p\", \"timeout\": 5\x7d"))]⟩
      cwd := ⟨"/", ["work"]⟩
      home := ⟨"/", ["home"]⟩
      yaml := fun _ => .error (.malformed none) }
  configPath := none
  program := none
  input := []
  programs := [behaviour]
  clock := ""
  alarm := fun _ => ""
  draw := fun _ => none

private def askingArgs : List String := ["extensions", "nope"]

-- It complains and ends with an exit code.
private def complaining : Machine := asking (.ends [] [0x6E, 0x6F] 21)

-- It answers one name.
private def answering : Machine := asking (.ends [0x2B, 0x78, 0x0A, 0x0A] [] 0)

private def askingOptions : Engine.Options :=
  ⟨.str (Text.of "p"), some (.real (Double.ofInt 5)), []⟩

theorem run_returns_complaining :
    parse askingArgs = .ok (Settings.default, .extensions "nope") ∧
    (complaining.run askingArgs).Returns 2 ∧ (complaining.run askingArgs).output = "" ∧
    (answering.run askingArgs).Returns 0 ∧ (answering.run askingArgs).output = "+x\n" := by
  have hparse : parse askingArgs = .ok (Settings.default, .extensions "nope") := by decide +kernel
  have hresult : (complaining.surroundings.configuration none none).result = .ok (.entries
      [("pandoc_path", .str (Text.of "p")), ("timeout", .int 5)]) := by decide +kernel
  have hconfig : complaining.Configures Settings.default
      (.ok [("pandoc_path", .str (Text.of "p")), ("timeout", .int 5)]) :=
    @Configures.wanted complaining _ (.ok (.entries _)) rfl
      (Config.Surroundings.comesTo_iff.mpr hresult)
  have haccepts : complaining.Accepts Settings.default askingOptions :=
    ⟨_, ⟨hconfig, rfl⟩, by decide +kernel⟩
  have hfails : complaining.EngineFails askingOptions (.extensions "nope")
      ⟨.listExtensions, .exited 21 "no"⟩ :=
    ⟨_, rfl, (error_of_act_iff _ _ _ _).mpr (by decide +kernel)⟩
  obtain ⟨hsilent, -, hengine, -⟩ := run_returns (m := complaining) hparse
  have hcode := hengine.mpr ⟨_, haccepts, _, hfails⟩
  refine ⟨hparse, hcode, hsilent 2 hcode (by decide), ⟨.success, ?_, rfl⟩, ?_⟩
  all_goals decide +kernel

end Machine

end Dialect.Cli
