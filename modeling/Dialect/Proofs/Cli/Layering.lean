import Dialect.Proofs.Cli.Options
import Dialect.Proofs.Text.Code

namespace Dialect.Engine.Options

open Cli (named override optionsFor)

variable {o : Options} {s : Cli.Settings} {environment : Option String}
  {config : Entries Key Setting} {d : Double} {e : OptionsError}

theorem update_program (o : Options) (program : Setting) :
    o.update (.obj [(programKey, program)]) =
      check program ((o.timeout.map Setting.Amount.toSetting).getD .null)
        (.arr (o.extraArgs.map .str)) := by
  simp [update, settings, Entries.get?]

theorem update_timeout (o : Options) (timeout : Setting) :
    o.update (.obj [(timeoutKey, timeout)]) =
      check o.program timeout (.arr (o.extraArgs.map .str)) := by
  simp [update, settings, Entries.get?, programKey_ne_timeoutKey.symm]

-- A program over another, where one is named, is never refused.
theorem override_program (ho : o.Admitted) (name : Option String) :
    override programKey (named name) o =
      .ok { o with program := (named name).getD o.program } := by
  cases hname : named name with
  | none => rfl
  | some program =>
      obtain ⟨text, htext, rfl⟩ := Option.map_eq_some_iff.mp hname
      obtain ⟨-, hempty⟩ := Option.filter_eq_some_iff.mp htext
      have hadmitted : Admitted { o with program := .str (Text.of text) } :=
        ⟨by simpa [Setting.truthy, Text.of_eq_nil_iff] using hempty, ho.timeout⟩
      exact (update_program o (.str (Text.of text))).trans (check_of_admitted hadmitted)

theorem override_timeout (ho : o.Admitted) (hd : d.notPositive = false) :
    override timeoutKey (some (.double d)) o = .ok { o with timeout := some (.real d) } := by
  have hadmitted : Admitted { o with timeout := some (.real d) } := by
    refine ⟨ho.program, ?_⟩
    rintro _ ⟨⟩
    exact (notPositive_eq_false_iff (.real d)).mp hd
  exact (update_timeout o (.double d)).trans (check_of_admitted hadmitted)

theorem override_timeout_of_notPositive (ho : o.Admitted) (hd : d.notPositive = true) :
    override timeoutKey (some (.double d)) o = .error (.timeoutNotPositive (.real d)) := by
  have htimeout : checkTimeout (.double d) = .error (.timeoutNotPositive (.real d)) := by
    simp only [checkTimeout, Setting.amount?, notPositive, hd, if_true]
  have hprogram : o.program.truthy = true := ho.program
  refine (update_timeout o (.double d)).trans ?_
  simp only [check, hprogram, htimeout]
  rfl

-- What an environment and a command line make of options.
def overlay (s : Cli.Settings) (environment : Option String) (o : Options) : Options where
  program := ((named s.program).or (named environment)).getD o.program
  timeout := (s.timeout.map .real).or o.timeout
  extraArgs := o.extraArgs

-- The names of a program are laid over the configuration first, and nothing is refused there.
theorem optionsFor_of_ofConfig (hconfig : ofConfig (.obj config) = .ok o) :
    ∃ named : Options, named.Admitted ∧
      named = { overlay s environment o with timeout := o.timeout } ∧
      optionsFor s environment config = override timeoutKey (s.timeout.map .double) named := by
  have ho := admitted_ofConfig _ o hconfig
  have henvironment := override_program ho environment
  have hadmitted := admitted_override ho _ henvironment
  have hprogram := override_program hadmitted s.program
  refine ⟨_, admitted_override hadmitted _ hprogram, ?_, ?_⟩
  · cases hname : named s.program <;> simp [overlay, hname]
  · simp only [optionsFor, hconfig, bind, Except.bind, henvironment, hprogram]

-- The options of a run fail where the configuration does, or for the timeout on the command line;
-- else they are those of the configuration with the names and the timeout laid over them.
theorem optionsFor_cases (s : Cli.Settings) (environment : Option String)
    (config : Entries Key Setting) :
    (∃ e, ofConfig (.obj config) = .error e ∧ optionsFor s environment config = .error e) ∨
    ∃ o, ofConfig (.obj config) = .ok o ∧
      ((∃ d, s.timeout = some d ∧ d.notPositive = true ∧
        optionsFor s environment config = .error (.timeoutNotPositive (.real d))) ∨
      ((∀ d, s.timeout = some d → d.notPositive = false) ∧
        optionsFor s environment config = .ok (overlay s environment o))) := by
  cases hconfig : ofConfig (.obj config) with
  | error e => exact .inl ⟨e, rfl, by simp only [optionsFor, hconfig, bind, Except.bind]⟩
  | ok o =>
      obtain ⟨named, hadmitted, rfl, hoptions⟩ :=
        @optionsFor_of_ofConfig o s environment config hconfig
      refine .inr ⟨o, rfl, ?_⟩
      rw [hoptions]
      cases htimeout : s.timeout with
      | none => exact .inr ⟨by simp, by simp [override, overlay, htimeout]⟩
      | some d =>
          cases hd : d.notPositive with
          | true => exact .inl ⟨d, rfl, hd, override_timeout_of_notPositive hadmitted hd⟩
          | false =>
              refine .inr ⟨by simp [hd], (override_timeout hadmitted hd).trans ?_⟩
              simp [overlay, htimeout]

-- The timeout that a configuration gives: that of a key with a value other than null, as a double.
inductive GivesTimeout (config : Entries Key Setting) : Option Setting.Amount → Prop
  | absent (h : Entries.get? timeoutKey config = none) : GivesTimeout config none
  | null (h : Entries.get? timeoutKey config = some .null) : GivesTimeout config none
  | number {value : Setting} {d : Double} (h : Entries.get? timeoutKey config = some value)
      (hvalue : value ≠ .null) (hd : toDouble value = .ok d) :
      GivesTimeout config (some (.real d))

-- The arguments that it gives: a list of texts, or a text for a list of one.
inductive GivesArgs (config : Entries Key Setting) : List Text → Prop
  | absent (h : Entries.get? argsKey config = none) : GivesArgs config []
  | one {a : Text} (h : Entries.get? argsKey config = some (.str a)) : GivesArgs config [a]
  | many {args : List Text} (h : Entries.get? argsKey config = some (.arr (args.map .str))) :
      GivesArgs config args

theorem eq_of_texts? {items : List Setting} {args : List Text} (h : texts? items = some args) :
    items = args.map .str := by
  induction items generalizing args with
  | nil =>
      obtain rfl : [] = args := by simpa [texts?] using h
      rfl
  | cons item rest ih =>
      cases item with
      | str a =>
          obtain ⟨args', hrest, rfl⟩ := Option.map_eq_some_iff.mp h
          rw [List.map_cons, ih hrest]
      | _ => simp [texts?] at h

theorem check_eq_ok {program timeout args : Setting} (h : check program timeout args = .ok o) :
    o.program = program ∧ checkTimeout timeout = .ok o.timeout ∧
      checkArgs args = .ok o.extraArgs := by
  unfold check at h
  split_ifs at h
  · cases h
  · cases htimeout : checkTimeout timeout with
    | error e =>
        rw [htimeout] at h
        cases h
    | ok t =>
        cases hargs : checkArgs args with
        | error e =>
            rw [htimeout, hargs] at h
            cases h
        | ok extraArgs =>
            rw [htimeout, hargs] at h
            cases h
            exact ⟨rfl, rfl, rfl⟩

theorem givesTimeout_of_givenTimeout {timeout : Setting} {t : Option Setting.Amount}
    (hgiven : givenTimeout config = .ok timeout) (hcheck : checkTimeout timeout = .ok t) :
    GivesTimeout config t := by
  have hnull : checkTimeout .null = .ok none := rfl
  unfold givenTimeout at hgiven
  split at hgiven
  · rename_i habsent
    cases hgiven
    cases hnull.symm.trans hcheck
    exact .absent habsent
  · rename_i hvalue
    cases hgiven
    cases hnull.symm.trans hcheck
    exact .null hvalue
  · rename_i value hvalue hget
    obtain ⟨d, hd, rfl⟩ := exists_of_map_eq_ok hgiven
    obtain rfl : some (.real d) = t := by
      simp only [checkTimeout, Setting.amount?] at hcheck
      split_ifs at hcheck
      exact Except.ok.inj hcheck
    exact .number hget hvalue hd

theorem givesArgs_of_checkArgs {args : List Text}
    (h : checkArgs ((Entries.get? argsKey config).getD (.arr [])) = .ok args) :
    GivesArgs config args := by
  cases hget : Entries.get? argsKey config with
  | none =>
      rw [hget] at h
      cases h
      exact .absent hget
  | some value =>
      rw [hget] at h
      cases value with
      | str a =>
          cases h
          exact .one hget
      | arr items =>
          cases htexts : texts? items with
          | none => simp [checkArgs, htexts] at h
          | some texts =>
              obtain rfl : texts = args := by simpa [checkArgs, htexts] using h
              exact .many (by rw [hget, eq_of_texts? htexts])
      | _ => cases h

theorem ofConfig_eq_ok (h : ofConfig (.obj config) = .ok o) :
    o.program = (Entries.get? programKey config).getD default.program ∧
      GivesTimeout config o.timeout ∧ GivesArgs config o.extraArgs := by
  rw [ofConfig_obj] at h
  cases hgiven : givenTimeout config with
  | error e =>
      rw [hgiven] at h
      cases h
  | ok timeout =>
      rw [hgiven] at h
      obtain ⟨hprogram, htimeout, hargs⟩ := check_eq_ok h
      exact ⟨hprogram, givesTimeout_of_givenTimeout hgiven htimeout, givesArgs_of_checkArgs hargs⟩

-- Each option comes from the first layer that gives it: the command line, for the program the
-- environment, the configuration, the default.
structure Layered (s : Cli.Settings) (environment : Option String) (config : Entries Key Setting)
    (o : Options) : Prop where
  program : o.program = (((named s.program).or (named environment)).or
    (Entries.get? programKey config)).getD (.str (Text.of "pandoc"))
  timeout : ∀ d, s.timeout = some d → o.timeout = some (.real d)
  givenTimeout : s.timeout = none → GivesTimeout config o.timeout
  extraArgs : GivesArgs config o.extraArgs

theorem layered_overlay (h : ofConfig (.obj config) = .ok o) :
    Layered s environment config (overlay s environment o) := by
  obtain ⟨hprogram, htimeout, hargs⟩ := ofConfig_eq_ok h
  refine ⟨?_, ?_, ?_, hargs⟩
  · cases hname : (named s.program).or (named environment) with
    | none => simp only [overlay, hname, hprogram]; rfl
    | some name => simp only [overlay, hname]; rfl
  · intro d hd
    simp [overlay, hd]
  · intro hnone
    simpa [overlay, hnone] using htimeout

theorem ofConfig_congr {config' : Entries Key Setting}
    (h : ∀ key ∈ settings, Entries.get? key config' = Entries.get? key config) :
    ofConfig (.obj config') = ofConfig (.obj config) := by
  have hprogram := h programKey (by simp [settings])
  have htimeout := h timeoutKey (by simp [settings])
  have hargs := h argsKey (by simp [settings])
  simp only [ofConfig_obj, givenTimeout, hprogram, htimeout, hargs]

-- There are options for a run exactly if the configuration gives some and the timeout on the
-- command line, if there is one, is not zero or less. They come from the layers, and keys of the
-- configuration other than the three settings make no difference, also not to what goes wrong.
theorem optionsFor_layered (s : Cli.Settings) (environment : Option String)
    (config : Entries Key Setting) :
    ((∃ o, optionsFor s environment config = .ok o) ↔
      (∃ o, ofConfig (.obj config) = .ok o) ∧
        ∀ d, s.timeout = some d → d.Positive ∨ d = .nan) ∧
    (∀ o, optionsFor s environment config = .ok o → Layered s environment config o) ∧
    ∀ config' : Entries Key Setting,
      (∀ key ∈ settings, Entries.get? key config' = Entries.get? key config) →
        optionsFor s environment config' = optionsFor s environment config := by
  simp only [← Double.notPositive_eq_false_iff]
  have hcongr : ∀ config' : Entries Key Setting,
      (∀ key ∈ settings, Entries.get? key config' = Entries.get? key config) →
        optionsFor s environment config' = optionsFor s environment config := by
    intro config' hsame
    simp only [optionsFor, ofConfig_congr hsame]
  obtain ⟨e, hconfig, hoptions⟩ | ⟨o, hconfig, ⟨d, htimeout, hd, hoptions⟩ | ⟨hd, hoptions⟩⟩ :=
    optionsFor_cases s environment config
  · exact ⟨by simp [hconfig, hoptions], by simp [hoptions], hcongr⟩
  · exact ⟨by simp [hconfig, hoptions, htimeout, hd], by simp [hoptions], hcongr⟩
  · refine ⟨by simpa [hconfig, hoptions] using hd, fun o' ho' => ?_, hcongr⟩
    obtain rfl : overlay s environment o = o' := Except.ok.inj (hoptions.symm.trans ho')
    exact layered_overlay hconfig

-- A program in three places, one of them empty, a timeout that is spelled out, one argument, and a
-- key that is no setting.
private def everywhere : Entries Key Setting :=
  [("log_level", .int 3), (timeoutKey, .str (Text.of " 1_0 ")),
    (programKey, .str (Text.of "config")), (argsKey, .str (Text.of "--quiet"))]

private def unnamed : Cli.Settings := { Cli.Settings.default with program := some "" }

theorem optionsFor_layered_everywhere : ∃ o, optionsFor unnamed (some "env") everywhere = .ok o ∧
    Layered unnamed (some "env") everywhere o ∧ o.timeout = some (.real (Double.ofInt 10)) ∧
    optionsFor unnamed (some "env") (Entries.erase "log_level" everywhere) = .ok o ∧
    ¬∃ o, optionsFor { unnamed with timeout := some (Double.ofInt (-1)) } (some "env") everywhere =
      .ok o := by
  have hoptions : optionsFor unnamed (some "env") everywhere =
      .ok ⟨.str (Text.of "env"), some (.real (Double.ofInt 10)), [Text.of "--quiet"]⟩ := by
    decide +kernel
  obtain ⟨-, hlayered, hcongr⟩ := optionsFor_layered unnamed (some "env") everywhere
  obtain ⟨hiff, -, -⟩ := optionsFor_layered
    { unnamed with timeout := some (Double.ofInt (-1)) } (some "env") everywhere
  refine ⟨_, hoptions, hlayered _ hoptions, rfl, ?_, ?_⟩
  · rw [hcongr _ (by decide), hoptions]
  · rw [hiff]
    rintro ⟨-, htimeout⟩
    have haccepted := (Double.notPositive_eq_false_iff _).mpr (htimeout _ rfl)
    exact absurd haccepted (by decide +kernel)

end Dialect.Engine.Options
