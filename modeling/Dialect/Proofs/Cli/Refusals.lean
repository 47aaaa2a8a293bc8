import Dialect.Proofs.Cli.Layering
import Dialect.Proofs.Cli.Outcome
import Dialect.Proofs.Number.Range

namespace Dialect.Engine

namespace OptionsError

-- A setting has a value that will not do.
inductive IsValue : OptionsError → Prop
  | timeoutText (text : String) : IsValue (.timeoutText text)
  | programEmpty : IsValue .programEmpty
  | timeoutNotPositive (timeout : Setting.Amount) : IsValue (.timeoutNotPositive timeout)
  | argsNotList (kind : String) : IsValue (.argsNotList kind)
  | argsNotTexts (items : List Setting) : IsValue (.argsNotTexts items)

-- A setting has a value of the wrong kind, or there is no such setting.
inductive IsKind : OptionsError → Prop
  | unknownSetting : IsKind .unknownSetting
  | timeoutKind (kind : String) : IsKind (.timeoutKind kind)
  | timeoutNotComparable (kind : String) : IsKind (.timeoutNotComparable kind)

end OptionsError

namespace Options

open Cli (optionsFor)

variable {s : Cli.Settings} {environment : Option String} {config : Entries Key Setting}
  {value : Setting}

-- There is a result, or one of the two sorts of errors that the user is told.
inductive Told {α : Type} : Except OptionsError α → Prop
  | ok (a : α) : Told (.ok a)
  | value {e : OptionsError} (h : e.IsValue) : Told (.error e)
  | kind {e : OptionsError} (h : e.IsKind) : Told (.error e)

theorem Told.bind {α β : Type} {x : Except OptionsError α} {f : α → Except OptionsError β}
    (hx : Told x) (hf : ∀ a, Told (f a)) : Told (x >>= f) := by
  cases hx with
  | ok a => exact hf a
  | value h => exact .value h
  | kind h => exact .kind h

theorem Told.map {α β : Type} {x : Except OptionsError α} (hx : Told x) (f : α → β) :
    Told (x.map f) := by
  cases hx with
  | ok a => exact .ok (f a)
  | value h => exact .value h
  | kind h => exact .kind h

theorem not_told_tooLarge {α : Type} : ¬Told (.error .timeoutTooLarge : Except OptionsError α) := by
  intro h
  cases h with
  | value h => cases h
  | kind h => cases h

theorem told_check (program timeout args : Setting) : Told (check program timeout args) := by
  unfold check
  split_ifs
  · exact .value .programEmpty
  · refine .bind ?_ fun t => .bind ?_ fun extraArgs => .ok _
    · unfold checkTimeout
      split
      · exact .ok _
      · split
        · exact .kind (.timeoutNotComparable _)
        · split_ifs
          · exact .value (.timeoutNotPositive _)
          · exact .ok _
    · unfold checkArgs
      split
      · exact .ok _
      · split
        · exact .ok _
        · exact .value (.argsNotTexts _)
      · exact .value (.argsNotList _)

-- A whole number that is too large is all that fails to become a double in a way of its own.
theorem toDouble_cases (value : Setting) :
    (∃ i, value = .int i ∧ Double.TooLarge i) ∧ toDouble value = .error .timeoutTooLarge ∨
      (¬∃ i, value = .int i ∧ Double.TooLarge i) ∧ Told (toDouble value) := by
  unfold toDouble
  split
  · exact .inr ⟨by simp, .ok _⟩
  · rename_i i
    split
    · rename_i b hinfinite
      have hlarge : Double.TooLarge i := (Double.ofInt_eq_infinite_iff i).mp ⟨b, hinfinite⟩
      exact .inl ⟨⟨i, rfl, hlarge⟩, rfl⟩
    · rename_i hfinite
      refine .inr ⟨?_, .ok _⟩
      rintro ⟨_, ⟨⟩, hlarge⟩
      obtain ⟨b, hinfinite⟩ := (Double.ofInt_eq_infinite_iff i).mpr hlarge
      exact hfinite b hinfinite
  · exact .inr ⟨by simp, .ok _⟩
  · split
    · exact .inr ⟨by simp, .ok _⟩
    · exact .inr ⟨by simp, .value (.timeoutText _)⟩
  · split
    · exact .inr ⟨by simp, .ok _⟩
    · exact .inr ⟨by simp, .value (.timeoutText _)⟩
    · exact .inr ⟨by simp, .kind (.timeoutKind _)⟩
  · rename_i hint _ _ _
    exact .inr ⟨fun ⟨i, h, _⟩ => hint i h, .kind (.timeoutKind _)⟩

-- The timeout of a configuration is a whole number that is too large for a double.
def OutOfRange (config : Entries Key Setting) : Prop :=
  ∃ i, Entries.get? timeoutKey config = some (.int i) ∧ Double.TooLarge i

theorem givenTimeout_cases (config : Entries Key Setting) :
    OutOfRange config ∧ givenTimeout config = .error .timeoutTooLarge ∨
      ¬OutOfRange config ∧ Told (givenTimeout config) := by
  unfold givenTimeout OutOfRange
  split
  · rename_i hget
    exact .inr ⟨by simp [hget], .ok _⟩
  · rename_i hget
    exact .inr ⟨by simp [hget], .ok _⟩
  · rename_i value hvalue hget
    simp only [hget, Option.some.injEq]
    obtain ⟨hlarge, htoo⟩ | ⟨hlarge, htold⟩ := toDouble_cases value
    · exact .inl ⟨hlarge, by rw [htoo]; rfl⟩
    · exact .inr ⟨hlarge, htold.map Setting.double⟩

theorem ofConfig_cases (config : Entries Key Setting) :
    OutOfRange config ∧ ofConfig (.obj config) = .error .timeoutTooLarge ∨
      ¬OutOfRange config ∧ Told (ofConfig (.obj config)) := by
  rw [ofConfig_obj]
  obtain ⟨hrange, hgiven⟩ | ⟨hrange, htold⟩ := givenTimeout_cases config
  · exact .inl ⟨hrange, by rw [hgiven]; rfl⟩
  · exact .inr ⟨hrange, htold.bind fun timeout => told_check _ _ _⟩

-- What an environment and a command line lay over a configuration brings no other errors.
theorem optionsFor_told_cases (s : Cli.Settings) (environment : Option String)
    (config : Entries Key Setting) :
    OutOfRange config ∧ optionsFor s environment config = .error .timeoutTooLarge ∨
      ¬OutOfRange config ∧ Told (optionsFor s environment config) := by
  obtain ⟨e, hconfig, hoptions⟩ | ⟨o, hconfig, hlaid⟩ := optionsFor_cases s environment config
  · rw [hoptions, ← hconfig]
    exact ofConfig_cases config
  · obtain ⟨-, hlarge⟩ | ⟨hrange, -⟩ := ofConfig_cases config
    · rw [hlarge] at hconfig
      cases hconfig
    · obtain ⟨d, -, -, hoptions⟩ | ⟨-, hoptions⟩ := hlaid
      · rw [hoptions]
        exact .inr ⟨hrange, .value (.timeoutNotPositive _)⟩
      · rw [hoptions]
        exact .inr ⟨hrange, .ok _⟩

end Options

end Dialect.Engine

namespace Dialect.Cli.Machine

open Engine (Options)

variable {m : Machine} {args : List String} {s : Settings} {command : Command}
  {config : Entries Key Setting} {e : Engine.OptionsError}

-- The answer of a run to options that are refused: 3, with a line that says why.
structure Answers (out : Outcome) (e : Engine.OptionsError) : Prop where
  code : out.Returns 3
  idle : out.Idle
  line : ∃ before, out.console =
    before ++ ("Error: invalid engine configuration: " ++ e.message ++ "\n")

theorem console_refuse (w : Log.Writer) (ending : Ending) (front message back : String) :
    (refuse w ending (front ++ message ++ back)).console =
      w.console ++ (front ++ message ++ back) := by
  simp [refuse, Log.Writer.say, String.append_assoc]

theorem answers_run (hparse : parse args = .ok (s, command))
    (hconfig : m.configuration s = .ok config) (hlog : m.writer.rejects s.logFile = false)
    (hoptions : optionsFor s m.program config = .error e) (he : e ≠ .timeoutTooLarge) :
    Answers (m.run args) e := by
  simp only [run, hparse, runCommandLine, hconfig, runConfigured, hlog, hoptions]
  cases e with
  | timeoutTooLarge => exact absurd rfl he
  | _ => exact ⟨⟨_, rfl, rfl⟩, ⟨rfl, rfl⟩, _, console_refuse _ _ _ _ _⟩

theorem ending_run_of_tooLarge (hparse : parse args = .ok (s, command))
    (hconfig : m.configuration s = .ok config) (hlog : m.writer.rejects s.logFile = false)
    (hoptions : optionsFor s m.program config = .error .timeoutTooLarge) :
    (m.run args).ending = .fault (.options .timeoutTooLarge) := by
  simp only [run, hparse, runCommandLine, hconfig, runConfigured, hlog, hoptions]
  rfl

theorem ending_run_of_rejects (hparse : parse args = .ok (s, command))
    (hconfig : m.configuration s = .ok config) (hlog : m.writer.rejects s.logFile = true) :
    (m.run args).ending = .fault .logName := by
  simp only [run, hparse, runCommandLine, hconfig, runConfigured, hlog, if_true]
  rfl

-- Whatever values a configuration, an environment and a command line give: there are options, or
-- the error is one of the two sorts that a run answers with 3 and a line, save for exactly one
-- case. A timeout in the configuration that is a whole number too large for a double is an error
-- that nobody handles. A run gets that far unless the name of its log file is none at all.
theorem refusals_told (config : Entries Key Setting) :
    (Options.Told (Options.ofConfig (.obj config)) ↔ ¬Options.OutOfRange config) ∧
    (∀ s environment, Options.Told (optionsFor s environment config) ↔
      ¬Options.OutOfRange config) ∧
    ∀ (m : Machine) args s command, parse args = .ok (s, command) →
      m.configuration s = .ok config →
      (m.writer.rejects s.logFile = true → (m.run args).ending = .fault .logName) ∧
      (m.writer.rejects s.logFile = false →
        (Options.OutOfRange config → (m.run args).ending = .fault (.options .timeoutTooLarge)) ∧
        (¬Options.OutOfRange config → ∀ e, optionsFor s m.program config = .error e →
          Answers (m.run args) e)) := by
  refine ⟨?_, fun s environment => ?_, fun m args s command hparse hconfig => ?_⟩
  · obtain ⟨hrange, hlarge⟩ | ⟨hrange, htold⟩ := Options.ofConfig_cases config
    · simp [hlarge, hrange, Options.not_told_tooLarge]
    · simp [htold, hrange]
  · obtain ⟨hrange, hlarge⟩ | ⟨hrange, htold⟩ :=
      Options.optionsFor_told_cases s environment config
    · simp [hlarge, hrange, Options.not_told_tooLarge]
    · simp [htold, hrange]
  · refine ⟨ending_run_of_rejects hparse hconfig, fun hlog => ?_⟩
    obtain ⟨hrange, hlarge⟩ | ⟨hrange, htold⟩ :=
      Options.optionsFor_told_cases s m.program config
    · exact ⟨fun _ => ending_run_of_tooLarge hparse hconfig hlog hlarge, fun h => absurd hrange h⟩
    · refine ⟨fun h => absurd h hrange, fun _ e he => answers_run hparse hconfig hlog he ?_⟩
      rintro rfl
      exact Options.not_told_tooLarge (he ▸ htold)

-- A machine with one configuration file in the working directory.
private def configured (content : String) : Machine where
  surroundings :=
    { files :=
        ⟨[(["work"], .directory), (["work", ".panbridge.json"], .file (Utf8.encode content))]⟩
      cwd := ⟨"/", ["work"]⟩
      home := ⟨"/", ["home"]⟩
      yaml := fun _ => .error (.malformed none) }
  configPath := none
  program := some "p"
  input := []
  programs := []
  clock := ""
  alarm := fun _ => ""
  draw := fun _ => none

private def extensionsArgs : List String := ["--timeout", "5", "extensions", "gfm"]

private def extensionsSettings : Settings :=
  { Settings.default with timeout := some (Double.ofInt 5) }

private def wrongKind : String := "\x7b\"timeout\": [true]\x7d"

-- The timeout on the command line does not save the one of the configuration.
theorem refusals_told_wrongKind :
    parse extensionsArgs = .ok (extensionsSettings, .extensions "gfm") ∧
    (configured wrongKind).configuration extensionsSettings =
      .ok [("timeout", .arr [.bool true])] ∧
    Answers ((configured wrongKind).run extensionsArgs) (.timeoutKind "list") := by
  have hparse : parse extensionsArgs = .ok (extensionsSettings, .extensions "gfm") := by
    decide +kernel
  have hconfig : (configured wrongKind).configuration extensionsSettings =
      .ok [("timeout", .arr [.bool true])] := by decide +kernel
  have hrange : ¬Options.OutOfRange [("timeout", .arr [.bool true])] := by
    rintro ⟨i, h, -⟩
    cases h
  obtain ⟨-, -, hrun⟩ := refusals_told [("timeout", .arr [.bool true])]
  exact ⟨hparse, hconfig, ((hrun _ _ _ _ hparse hconfig).2 rfl).2 hrange _ rfl⟩

-- The least power of two that is no double any more.
private def tooLarge : Entries Key Setting := [("timeout", .int (2 ^ 1024))]

theorem refusals_told_tooLarge :
    ¬Options.Told (Options.ofConfig (.obj tooLarge)) ∧
    ¬Options.Told (optionsFor extensionsSettings none tooLarge) ∧
    ∀ code, ¬((configured "").runConfigured extensionsSettings (.extensions "gfm") tooLarge).Returns
      code := by
  have hconfig : Options.ofConfig (.obj tooLarge) = .error .timeoutTooLarge := by decide +kernel
  have hoptions (environment : Option String) :
      optionsFor extensionsSettings environment tooLarge = .error .timeoutTooLarge := by
    simp only [optionsFor, hconfig, bind, Except.bind]
  refine ⟨hconfig ▸ Options.not_told_tooLarge, hoptions none ▸ Options.not_told_tooLarge, ?_⟩
  rintro code ⟨e, hending, -⟩
  rw [runConfigured, hoptions] at hending
  cases hending

end Dialect.Cli.Machine
