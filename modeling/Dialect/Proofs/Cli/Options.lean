import Dialect.Cli.Run
import Dialect.Proofs.Engine.Options

namespace Dialect.Engine.Options

open Cli (override optionsFor)

variable {o : Options} {key : Key} {value : Option Setting} {s : Cli.Settings}
  {environment : Option String} {config : Entries Key Setting}

theorem admitted_override (ho : o.Admitted) : Ensures Admitted (override key value o) := by
  cases value with
  | none => exact .ok ho
  | some v => exact admitted_update o (.obj [(key, v)])

theorem admitted_optionsFor (s : Cli.Settings) (environment : Option String)
    (config : Entries Key Setting) : Ensures Admitted (optionsFor s environment config) := by
  refine .bind (admitted_ofConfig _) fun o ho => ?_
  refine .bind (admitted_override ho) fun o ho => ?_
  exact .bind (admitted_override ho) fun o ho => admitted_override ho

-- The names under which an environment and a command line give a program are texts.
theorem regular_program (name : Option String) :
    ∀ v ∈ Cli.named name, Regular (.obj [(programKey, v)]) := by
  rintro v hv
  obtain ⟨text, -, rfl⟩ := Option.map_eq_some_iff.mp hv
  exact ⟨by simp [Setting.member?, Entries.get?, eq_comm],
    by simp [Setting.member?, Entries.get?]⟩

theorem usual_override (ho : o.Usual) (hvalue : ∀ v ∈ value, Regular (.obj [(key, v)])) :
    Ensures Usual (override key value o) := by
  cases value with
  | none => exact .ok ho
  | some v => exact usual_update ho (hvalue v rfl)

theorem usual_optionsFor (hconfig : Regular (.obj config))
    (htimeout : ∀ d ∈ s.timeout.map Setting.double, Regular (.obj [(timeoutKey, d)])) :
    Ensures Usual (optionsFor s environment config) := by
  refine .bind (usual_ofConfig hconfig) fun o ho => ?_
  refine .bind (usual_override ho (regular_program environment)) fun o ho => ?_
  refine .bind (usual_override ho (regular_program s.program)) fun o ho => ?_
  exact usual_override ho htimeout

-- The ways to come by options, where only some mappings are given: by naming settings, from a
-- configuration, by changing settings of options that one has, and for a run of the program,
-- whose timeout counts as a mapping of its own.
inductive Obtained (given : Setting → Prop) : Options → Prop
  | named {settings : Setting} {o : Options} (h : given settings)
      (made : default.update settings = .ok o) : Obtained given o
  | configured {config : Setting} {o : Options} (h : given config)
      (made : ofConfig config = .ok o) : Obtained given o
  | updated {changes : Setting} {o o' : Options} (before : Obtained given o) (h : given changes)
      (made : o.update changes = .ok o') : Obtained given o'
  | run {s : Cli.Settings} {environment : Option String} {config : Entries Key Setting}
      {o : Options} (h : given (.obj config))
      (timeout : ∀ d ∈ s.timeout.map Setting.double, given (.obj [(timeoutKey, d)]))
      (made : optionsFor s environment config = .ok o) : Obtained given o

theorem Obtained.admitted {given : Setting → Prop} (h : Obtained given o) : o.Admitted := by
  cases h with
  | named h made => exact admitted_update default _ o made
  | configured h made => exact admitted_ofConfig _ o made
  | updated before h made => exact admitted_update _ _ o made
  | run h timeout made => exact admitted_optionsFor _ _ _ o made

theorem Obtained.usual (h : Obtained Regular o) : o.Usual := by
  induction h with
  | named h made => exact usual_update ⟨⟨_, rfl⟩, by simp [default]⟩ h _ made
  | configured h made => exact usual_ofConfig h _ made
  | updated before h made ih => exact usual_update ih h _ made
  | run h timeout made => exact usual_optionsFor h timeout _ made

-- All settings of some options, by their names.
def spelledOut (o : Options) : Setting :=
  .obj [(programKey, o.program), (timeoutKey, (o.timeout.map Setting.Amount.toSetting).getD .null),
    (argsKey, .arr (o.extraArgs.map .str))]

theorem update_spelledOut (h : o.Admitted) : default.update o.spelledOut = .ok o := by
  rw [← check_of_admitted h]
  simp [update, spelledOut, settings, Entries.get?]

theorem toDouble_toSetting_ne_nan {t : Setting.Amount} (h : t ≠ .real .nan) :
    toDouble (Setting.Amount.toSetting t) ≠ .ok .nan := by
  cases t with
  | flag b => simp [Setting.Amount.toSetting, toDouble, Double.ofInt_ne_nan]
  | whole i =>
      simp only [Setting.Amount.toSetting, toDouble]
      split
      · simp
      · simp [Double.ofInt_ne_nan]
  | real d => simpa [Setting.Amount.toSetting, toDouble] using h

theorem regular_spelledOut (h : o.Usual) : Regular o.spelledOut := by
  obtain ⟨program, timeout, extraArgs⟩ := o
  obtain ⟨⟨text, rfl⟩, hnan⟩ := h
  refine ⟨by simp [spelledOut, Setting.member?, Entries.get?, eq_comm], ?_⟩
  intro t ht
  obtain rfl : (timeout.map Setting.Amount.toSetting).getD .null = t := by
    simpa [spelledOut, Setting.member?, Entries.get?] using ht
  cases timeout with
  | none => simp [toDouble]
  | some t => exact toDouble_toSetting_ne_nan fun h => hnan (h ▸ rfl)

-- Options are in order whatever way they were obtained, if no program was given that is no text
-- and no timeout that is not a number; without that, all that is sure is what the checks see to,
-- and nothing more.
theorem obtained_iff (o : Options) : (Obtained Regular o ↔ o.Sound) ∧
    (Obtained (fun _ => True) o ↔ o.program.truthy = true ∧
      ∀ t, o.timeout = some t → t.Positive ∨ t = .real .nan) := by
  refine ⟨⟨fun h => (sound_iff o).mpr ⟨h.admitted, h.usual⟩, fun h => ?_⟩,
    fun h => ⟨h.admitted.program, h.admitted.timeout⟩, fun h => ?_⟩
  · obtain ⟨hadmitted, husual⟩ := (sound_iff o).mp h
    exact .named (regular_spelledOut husual) (update_spelledOut hadmitted)
  · exact .named trivial (update_spelledOut ⟨h.1, h.2⟩)

-- A timeout that is not a number, and a program that is no text.
theorem obtained_irregular :
    (∃ o, ofConfig (.obj [(timeoutKey, .double .nan)]) = .ok o ∧ ¬o.Sound) ∧
    ∃ o, ofConfig (.obj [(programKey, .int 5)]) = .ok o ∧ ¬o.Sound := by
  refine ⟨⟨⟨.str "pandoc", some (.real .nan), []⟩, rfl, fun h => h.timeout _ rfl⟩,
    ⟨⟨.int 5, none, []⟩, rfl, ?_⟩⟩
  rintro ⟨⟨text, h, -⟩, -⟩
  cases h

end Dialect.Engine.Options
