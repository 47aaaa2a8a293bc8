import Dialect.Config.File
import Dialect.Proofs.Config.Setting
import Dialect.Proofs.File.Tree

namespace Dialect.Config

-- It fails, and the user is not told so as of a fault of some configuration file.
def Unreported {α : Type} (result : Except LoadError α) : Prop :=
  ∃ e, result = .error e ∧ e.isReported = false

@[simp] theorem not_unreported_ok {α : Type} (a : α) : ¬Unreported (.ok a) := by
  rintro ⟨e, h, -⟩
  cases h

@[simp] theorem unreported_error_iff {α : Type} {e : LoadError} :
    Unreported (.error e : Except LoadError α) ↔ e.isReported = false := by
  simp [Unreported]

@[simp] theorem unreported_map_iff {α β : Type} {f : α → β} {result : Except LoadError α} :
    Unreported (result.map f) ↔ Unreported result := by
  cases result <;> simp [Except.map]

namespace Surroundings

-- What a reader of a format gives up on without a word about the file: bytes that are no text, and
-- a text that the reader of YAML fails on in a way of its own.
inductive Balks (w : Surroundings) : Format → List UInt8 → Prop
  | noText {format : Format} {bytes : List UInt8} :
      (∀ text, bytes ≠ Utf8.encode text) → Balks w format bytes
  | noValue {bytes : List UInt8} {text kind message : String} :
      textOfBytes bytes = .ok text → w.yaml text = .error (.other kind message) →
      Balks w .yaml bytes

variable {w : Surroundings} {path directory : Path} {format : Format} {bytes : List UInt8}

theorem not_balks {text : String} (hformat : format ≠ .yaml) (hbytes : bytes = Utf8.encode text) :
    ¬w.Balks format bytes := by
  intro h
  cases h with
  | noText hno => exact hno text hbytes
  | noValue _ _ => exact hformat rfl

theorem exists_undecodable (w : Surroundings) (format : Format) (path : Path)
    (h : ∀ text, bytes ≠ Utf8.encode text) :
    ∃ e, w.decode format path bytes = .error (.undecodable e) := by
  have hdecode : ∃ e, Utf8.decode bytes = .error e := by
    cases hdecode : Utf8.decode bytes with
    | error e => exact ⟨e, rfl⟩
    | ok text => exact absurd (Utf8.decode_eq_ok_iff.mp hdecode) (h text)
  have htext : ∃ e, textOfBytes bytes = .error e := by
    cases htext : textOfBytes bytes with
    | error e => exact ⟨e, rfl⟩
    | ok text =>
        obtain ⟨raw, hraw⟩ := exists_textOfBytes_iff.mp ⟨text, htext⟩
        exact absurd hraw (h raw)
  obtain ⟨e, hdecode⟩ := hdecode
  obtain ⟨e', htext⟩ := htext
  cases format with
  | toml => exact ⟨e, by simp [decode, hdecode]⟩
  | json => exact ⟨e', by simp [decode, htext]⟩
  | yaml => exact ⟨e', by simp [decode, htext]⟩

theorem unreported_decode_iff :
    Unreported (w.decode format path bytes) ↔ w.Balks format bytes := by
  by_cases hno : ∀ text, bytes ≠ Utf8.encode text
  · obtain ⟨e, he⟩ := w.exists_undecodable format path hno
    exact ⟨fun _ => .noText hno, fun _ => ⟨_, he, rfl⟩⟩
  push Not at hno
  obtain ⟨raw, hraw⟩ := hno
  obtain ⟨text, htext⟩ := exists_textOfBytes_iff.mpr ⟨raw, hraw⟩
  cases format with
  | toml =>
      have hbalks : ¬w.Balks .toml bytes := not_balks (by decide) hraw
      cases hread : Toml.read? raw <;>
        simp [decode, Utf8.decode_eq_ok_iff.mpr hraw, hread, LoadError.isReported, hbalks]
  | json =>
      have hbalks : ¬w.Balks .json bytes := not_balks (by decide) hraw
      cases hread : Json.read (Text.of text) <;>
        simp [decode, htext, hread, LoadError.isReported, hbalks]
  | yaml =>
      have hbalks : w.Balks .yaml bytes ↔
          ∃ kind message, w.yaml text = .error (.other kind message) := by
        constructor
        · intro h
          cases h with
          | noText hno => exact absurd hraw (hno raw)
          | @noValue _ text' kind message htext' hread =>
              obtain rfl : text = text' := Except.ok.inj (htext.symm.trans htext')
              exact ⟨kind, message, hread⟩
        · rintro ⟨kind, message, hread⟩
          exact .noValue htext hread
      rw [hbalks]
      cases hread : w.yaml text with
      | ok content => simp [decode, htext, hread, Except.mapError]
      | error e =>
          cases e <;> simp [decode, htext, hread, Except.mapError, LoadError.isReported]

-- What is at a path is a file. Where nothing can be looked up there is none.
def hasFile (w : Surroundings) (path : Path) : Bool :=
  match w.files.stat w.cwd path with
  | .ok (.file _) => true
  | _ => false

theorem hasFile_iff :
    w.hasFile path = true ↔ ∃ bytes, w.files.stat w.cwd path = .ok (.file bytes) := by
  unfold hasFile
  cases w.files.stat w.cwd path with
  | error e => simp
  | ok node => cases node <;> simp

theorem exists_stat_of_parse {content : Content} (h : w.parse path = .ok content) :
    ∃ bytes, w.files.stat w.cwd path = .ok (.file bytes) := by
  unfold parse at h
  cases hformat : Format.ofSuffix? (Text.lower path.suffix) with
  | none => simp [hformat] at h
  | some format =>
      cases hread : w.files.readBytes w.cwd path with
      | error e => cases e <;> simp [hformat, hread] at h
      | ok bytes => exact ⟨bytes, FileTree.readBytes_eq_ok_iff.mp hread⟩

theorem unreported_parse_iff (hstat : w.files.stat w.cwd path = .ok (.file bytes)) :
    Unreported (w.parse path) ↔
      ∃ format, Format.ofSuffix? (Text.lower path.suffix) = some format ∧ w.Balks format bytes := by
  have hread := FileTree.readBytes_eq_ok_iff.mpr hstat
  cases hformat : Format.ofSuffix? (Text.lower path.suffix) with
  | none => simp [parse, hformat, LoadError.isReported]
  | some format => simp [parse, hformat, hread, unreported_decode_iff]

-- A document whose tools are there, and no table. One that holds itself is as bad, but no project
-- file writes such a one.
def ToolsAmiss : Content → Prop
  | .value document => ∃ tools, document.member? toolKey = some tools ∧ ¬tools.IsMapping
  | .knot _ => True

theorem unreported_projectSection_iff :
    Unreported (w.projectSection path) ↔ Unreported (w.parse path) ∨
      ∃ content, w.parse path = .ok content ∧ ToolsAmiss content := by
  cases hparse : w.parse path with
  | error e => simp [projectSection, hparse, bind, Except.bind]
  | ok content =>
      cases content with
      | knot k =>
          simp [projectSection, hparse, bind, Except.bind, throw, throwThe, MonadExceptOf.throw,
            LoadError.isReported, ToolsAmiss]
      | value document =>
          simp only [projectSection, hparse, bind, Except.bind, not_unreported_ok, false_or,
            Except.ok.injEq, exists_eq_left', ToolsAmiss]
          cases hmember : document.member? toolKey with
          | none => simp [pure, Except.pure, Entries.get?]
          | some tools =>
              cases tools with
              | obj entries =>
                  simp only [Option.getD_some, Option.some.injEq, exists_eq_left',
                    Setting.isMapping_obj, not_true_eq_false, iff_false]
                  cases hsection : Entries.get? sectionKey entries with
                  | none => simp [pure, Except.pure]
                  | some found =>
                      cases found <;>
                        simp [pure, Except.pure, throw, throwThe, MonadExceptOf.throw,
                          LoadError.isReported]
              | _ =>
                  simp [throw, throwThe, MonadExceptOf.throw, LoadError.isReported,
                    Setting.IsMapping]

-- What keeps a file from being loaded without a word about it: it cannot be looked up, though
-- not for want of it; its reader gives up; or it is a project file whose tools are no table.
inductive GivesUp (w : Surroundings) (path : Path) : Prop
  | lookup {e : PathError} : w.files.stat w.cwd path = .error e → e.isAbsent = false →
      GivesUp w path
  | content {bytes : List UInt8} {format : Format} :
      w.files.stat w.cwd path = .ok (.file bytes) →
      Format.ofSuffix? (Text.lower path.suffix) = some format → w.Balks format bytes →
      GivesUp w path
  | tools {content : Content} : Text.lower path.name = projectFile →
      w.parse path = .ok content → ToolsAmiss content → GivesUp w path

theorem GivesUp.of_stat (h : w.GivesUp path) (hstat : w.files.stat w.cwd path = .ok (.file bytes)) :
    (∃ format, Format.ofSuffix? (Text.lower path.suffix) = some format ∧ w.Balks format bytes) ∨
      Text.lower path.name = projectFile ∧
        ∃ content, w.parse path = .ok content ∧ ToolsAmiss content := by
  cases h with
  | lookup hstat' _ => simp [hstat] at hstat'
  | content hstat' hformat hgives =>
      obtain ⟨rfl⟩ : _ = bytes := by simpa using hstat'.symm.trans hstat
      exact .inl ⟨_, hformat, hgives⟩
  | tools hname hparse htools => exact .inr ⟨hname, _, hparse, htools⟩

theorem GivesUp.hasFile_of_not_lookup (h : w.GivesUp path)
    (hlookup : ∀ e, w.files.stat w.cwd path = .error e → e.isAbsent = true) :
    w.hasFile path = true := by
  rw [hasFile_iff]
  cases h with
  | lookup hstat habsent => simp [hlookup _ hstat] at habsent
  | content hstat _ _ => exact ⟨_, hstat⟩
  | tools _ hparse _ => exact exists_stat_of_parse hparse

theorem unreported_load_iff : Unreported (w.load path) ↔ w.GivesUp path := by
  cases hstat : w.files.stat w.cwd path with
  | error e =>
      by_cases habsent : e.isAbsent = true
      · have hgives : ¬w.GivesUp path := by
          intro h
          have hfile := h.hasFile_of_not_lookup (by simp [hstat, habsent])
          simp [hasFile, hstat] at hfile
        simp [load, hstat, habsent, LoadError.isReported, hgives]
      · have hgives : w.GivesUp path := .lookup hstat (by simpa using habsent)
        simp [load, hstat, habsent, LoadError.isReported, hgives]
  | ok node =>
      cases node with
      | directory =>
          have hgives : ¬w.GivesUp path := by
            intro h
            have hfile := h.hasFile_of_not_lookup (by simp [hstat])
            simp [hasFile, hstat] at hfile
          simp [load, hstat, LoadError.isReported, hgives]
      | file bytes =>
          by_cases hname : Text.lower path.name = projectFile
          · simp only [load, hstat, hname, if_true]
            rw [unreported_map_iff, unreported_projectSection_iff, unreported_parse_iff hstat]
            constructor
            · rintro (⟨format, hformat, hgives⟩ | ⟨document, hparse, htools⟩)
              · exact .content hstat hformat hgives
              · exact .tools hname hparse htools
            · intro h
              exact (h.of_stat hstat).imp_right And.right
          · have hparse : Unreported (w.load path) ↔ Unreported (w.parse path) := by
              simp only [load, hstat, hname, if_false]
              cases w.parse path with
              | error e => simp
              | ok content =>
                  cases content with
                  | knot k => simp
                  | value found => cases found <;> simp [LoadError.isReported]
            rw [hparse, unreported_parse_iff hstat]
            constructor
            · rintro ⟨format, hformat, hgives⟩
              exact .content hstat hformat hgives
            · intro h
              exact (h.of_stat hstat).resolve_right fun h => hname h.1

end Surroundings

end Dialect.Config
