import Dialect.Engine.Options
import Dialect.Proofs.Ensures
import Dialect.Proofs.Number.Rounding

namespace Dialect

namespace Double

-- Greater than zero; what is not a number is not.
def Positive : Double → Prop
  | .finite negative m e => 0 < (if negative then -(m : ℚ) else m) * 2 ^ e
  | .infinite negative => negative = false
  | .nan => False

theorem notPositive_eq_false_iff (d : Double) : d.notPositive = false ↔ d.Positive ∨ d = .nan := by
  cases d with
  | finite negative m e =>
      have hpos := two_zpow_pos e
      cases negative <;> simp [notPositive, Positive, hpos, Nat.pos_iff_ne_zero]
  | infinite negative => simp [notPositive, Positive]
  | nan => simp [notPositive]

theorem ofInt_ne_nan (i : Int) : ofInt i ≠ .nan := by
  unfold ofInt ofRatio
  dsimp only
  split_ifs <;> simp [zero]

end Double

namespace Setting.Amount

-- Greater than zero, with true as one.
def Positive : Amount → Prop
  | .flag b => b = true
  | .whole i => 0 < i
  | .real d => d.Positive

end Setting.Amount

namespace Engine.Options

variable {o : Options} {program timeout args changes config : Setting}

-- The three settings have three names.
@[simp] theorem programKey_ne_timeoutKey : programKey ≠ timeoutKey := by decide
@[simp] theorem programKey_ne_argsKey : programKey ≠ argsKey := by decide
@[simp] theorem timeoutKey_ne_argsKey : timeoutKey ≠ argsKey := by decide

theorem notPositive_eq_false_iff (t : Setting.Amount) :
    notPositive t = false ↔ t.Positive ∨ t = .real .nan := by
  cases t with
  | flag b => simp [notPositive, Setting.Amount.Positive]
  | whole i => simp [notPositive, Setting.Amount.Positive]
  | real d => simp [notPositive, Setting.Amount.Positive, Double.notPositive_eq_false_iff]

theorem amount?_toSetting (t : Setting.Amount) : t.toSetting.amount? = some t := by
  cases t <;> rfl

theorem texts?_map (args : List Text) : texts? (args.map .str) = some args := by
  induction args with
  | nil => rfl
  | cons a rest ih => simp [texts?, ih]

-- What every check sees to: the program counts as true, and the timeout is no number that is
-- zero or less.
structure Admitted (o : Options) : Prop where
  program : o.program.truthy = true
  timeout : ∀ t, o.timeout = some t → t.Positive ∨ t = .real .nan

-- What is promised: the program is a text that is not empty, and the timeout is greater than
-- zero. The arguments are texts by their type.
structure Sound (o : Options) : Prop where
  program : ∃ text, o.program = .str text ∧ text ≠ []
  timeout : ∀ t, o.timeout = some t → t.Positive

-- What a promise needs beyond the checks.
structure Usual (o : Options) : Prop where
  program : ∃ text, o.program = .str text
  timeout : o.timeout ≠ some (.real .nan)

theorem sound_iff (o : Options) : o.Sound ↔ o.Admitted ∧ o.Usual := by
  constructor
  · rintro ⟨⟨text, hprogram, hempty⟩, htimeout⟩
    refine ⟨⟨by simpa [hprogram, Setting.truthy] using hempty, fun t ht => .inl (htimeout t ht)⟩,
      ⟨⟨text, hprogram⟩, fun hnan => htimeout _ hnan⟩⟩
  · rintro ⟨⟨htruthy, htimeout⟩, ⟨text, hprogram⟩, hnan⟩
    refine ⟨⟨text, hprogram, by simpa [hprogram, Setting.truthy] using htruthy⟩, fun t ht => ?_⟩
    exact (htimeout t ht).resolve_right fun h => hnan (h ▸ ht)

theorem checkTimeout_spec (timeout : Setting) : Ensures (fun result => ∀ t, result = some t →
    timeout.amount? = some t ∧ (t.Positive ∨ t = .real .nan)) (checkTimeout timeout) := by
  unfold checkTimeout
  split
  · exact .ok (by simp)
  · split
    · exact .error _
    · rename_i t hamount
      split_ifs with hpositive
      · exact .error _
      · refine .ok ?_
        rintro _ ⟨⟩
        exact ⟨hamount, (notPositive_eq_false_iff t).mp (by simpa using hpositive)⟩

-- All options come from here.
theorem check_spec (program timeout args : Setting) : Ensures (fun o => o.Admitted ∧
    o.program = program ∧ ∀ t, o.timeout = some t → timeout.amount? = some t)
    (check program timeout args) := by
  unfold check
  split_ifs with htruthy
  · exact .error _
  · refine .bind (checkTimeout_spec timeout) fun t ht => ?_
    refine .bind (.trivially _) fun extraArgs _ => .ok ?_
    exact ⟨⟨by simpa using htruthy, fun t' h => (ht t' h).2⟩, rfl, fun t' h => (ht t' h).1⟩

theorem usual_check (hprogram : ∃ text, program = .str text)
    (htimeout : timeout.amount? ≠ some (.real .nan)) :
    Ensures Usual (check program timeout args) :=
  (check_spec program timeout args).imp fun _ ⟨_, hsame, hamount⟩ =>
    ⟨hsame ▸ hprogram, fun hnan => htimeout (hamount _ hnan)⟩

-- Options that are in order pass the check as they are.
theorem check_of_admitted (h : o.Admitted) :
    check o.program ((o.timeout.map Setting.Amount.toSetting).getD .null)
      (.arr (o.extraArgs.map .str)) = .ok o := by
  obtain ⟨program, timeout, extraArgs⟩ := o
  have hprogram : program.truthy = true := h.program
  have hargs : checkArgs (.arr (extraArgs.map .str)) = .ok extraArgs := by
    simp only [checkArgs, texts?_map]
  have htimeout :
      checkTimeout ((timeout.map Setting.Amount.toSetting).getD .null) = .ok timeout := by
    cases timeout with
    | none => rfl
    | some t =>
        have hpositive := (notPositive_eq_false_iff t).mpr (h.timeout t rfl)
        cases t <;> simp_all [checkTimeout, Setting.Amount.toSetting, Setting.amount?]
  simp only [check, hprogram, htimeout, hargs]
  rfl

theorem admitted_update (o : Options) (changes : Setting) :
    Ensures Admitted (o.update changes) := by
  unfold update
  split
  · split_ifs
    · exact .error _
    · exact (check_spec _ _ _).imp fun _ h => h.1
  · exact .error _

-- The timeout that a configuration gives, as a double.
def givenTimeout (entries : List (Key × Setting)) : Except OptionsError Setting :=
  match Entries.get? timeoutKey entries with
  | none => .ok .null
  | some .null => .ok .null
  | some value => (toDouble value).map .double

theorem ofConfig_obj (entries : List (Key × Setting)) : ofConfig (.obj entries) =
    givenTimeout entries >>= fun timeout =>
      check ((Entries.get? programKey entries).getD default.program) timeout
        ((Entries.get? argsKey entries).getD (.arr [])) := by
  unfold ofConfig givenTimeout
  dsimp only
  cases Entries.get? timeoutKey entries with
  | none => rfl
  | some value => cases value <;> rfl

theorem admitted_ofConfig (config : Setting) : Ensures Admitted (ofConfig config) := by
  cases config with
  | obj entries =>
      rw [ofConfig_obj]
      exact .bind (.trivially _) fun timeout _ => (check_spec _ _ _).imp fun _ h => h.1
  | _ => exact .error _

-- A mapping that gives what is meant: a text for the program, if it names one, and for the
-- timeout nothing that comes to what is not a number.
structure Regular (mapping : Setting) : Prop where
  program : ∀ p, mapping.member? programKey = some p → ∃ text, p = .str text
  timeout : ∀ t, mapping.member? timeoutKey = some t → toDouble t ≠ .ok .nan

theorem amount?_ne_nan (h : toDouble timeout ≠ .ok .nan) : timeout.amount? ≠ some (.real .nan) := by
  cases timeout <;> simp_all [toDouble, Setting.amount?]

theorem usual_update (ho : o.Usual) (hchanges : Regular changes) :
    Ensures Usual (o.update changes) := by
  unfold update
  split
  · rename_i entries
    split_ifs
    · exact .error _
    · refine usual_check ?_ ?_
      · cases hprogram : Entries.get? programKey entries with
        | none => exact ho.program
        | some p => exact hchanges.program p hprogram
      · cases htimeout : Entries.get? timeoutKey entries with
        | none =>
            cases hold : o.timeout with
            | none => simp [Setting.amount?]
            | some t =>
                simp only [Option.getD_none, Option.map_some, Option.getD_some, amount?_toSetting]
                exact hold ▸ ho.timeout
        | some t => exact amount?_ne_nan (hchanges.timeout t htimeout)
  · exact .error _

theorem givenTimeout_spec {entries : List (Key × Setting)} (h : Regular (.obj entries)) :
    Ensures (fun timeout => timeout.amount? ≠ some (.real .nan)) (givenTimeout entries) := by
  unfold givenTimeout
  split
  · exact .ok (by simp [Setting.amount?])
  · exact .ok (by simp [Setting.amount?])
  · rename_i value _ hvalue
    refine (Ensures.self _).map fun d hd => ?_
    rintro ⟨⟩
    exact h.timeout value hvalue hd

theorem usual_ofConfig (hconfig : Regular config) : Ensures Usual (ofConfig config) := by
  cases config with
  | obj entries =>
      rw [ofConfig_obj]
      refine .bind (givenTimeout_spec hconfig) fun timeout htimeout => usual_check ?_ htimeout
      cases hprogram : Entries.get? programKey entries with
      | none => exact ⟨_, rfl⟩
      | some p => exact hconfig.program p hprogram
  | _ => exact .error _

end Engine.Options

end Dialect
