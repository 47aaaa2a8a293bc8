import Dialect.Config.File
import Dialect.Proofs.Ensures
import Dialect.Proofs.Config.Setting
import Mathlib.Data.Option.Basic

namespace Dialect

namespace Toml

variable {table table' : Entries Key Setting} {path : Path} {name : Key} {v : Setting}

theorem distinct_within {lists : Bool} {change : Entries Key Setting → Option (Entries Key Setting)}
    (hchange : ∀ t t', (Setting.obj t).Distinct → change t = some t' → (Setting.obj t').Distinct)
    (htable : (Setting.obj table).Distinct) (h : within lists change path table = some table') :
    (Setting.obj table').Distinct := by
  induction path generalizing table table' with
  | nil => exact hchange table table' htable h
  | cons key rest ih =>
      have hput : ∀ {inner t}, (Setting.obj inner).Distinct →
          within lists change rest inner = some t →
          (Setting.obj (Entries.put key (.obj t) table)).Distinct :=
        fun hinner ht => htable.put (ih hinner ht)
      simp only [within] at h
      split at h
      · obtain ⟨t, ht, rfl⟩ := Option.map_eq_some_iff.mp h
        exact hput Setting.distinct_nil ht
      · rename_i inner hinner
        obtain ⟨t, ht, rfl⟩ := Option.map_eq_some_iff.mp h
        exact hput (htable.of_get? hinner) ht
      · split at h
        · obtain ⟨t, -, rfl⟩ := Option.map_eq_some_iff.mp h
          exact htable.put (Setting.distinct_arr _)
        · cases h
      · cases h

theorem distinct_define (hv : v.Distinct) (htable : (Setting.obj table).Distinct)
    (h : define name v table = some table') : (Setting.obj table').Distinct := by
  unfold define at h
  split at h
  · cases h
  · cases h
    exact htable.put hv

theorem distinct_appendTable (htable : (Setting.obj table).Distinct)
    (h : appendTable name table = some table') : (Setting.obj table').Distinct := by
  unfold appendTable at h
  split at h
  · cases h
    exact htable.put (Setting.distinct_arr _)
  · cases h
    exact htable.put (Setting.distinct_arr _)
  · cases h

theorem distinct_assign_inline {d d' : InlineDraft} (hd : (Setting.obj d.table).Distinct)
    (hv : v.Distinct) (h : d.assign path v = some d') : (Setting.obj d'.table).Distinct := by
  unfold InlineDraft.assign at h
  split at h
  · cases h
  · obtain ⟨table, htable, rfl⟩ := Option.map_eq_some_iff.mp h
    exact distinct_within (fun _ _ => distinct_define hv) hd htable

variable {s : List Char} {r : Setting × List Char}

theorem scalar_word? {words : List (String × Setting)} (hwords : ∀ p ∈ words, p.2.Scalar)
    (h : word? words s = some r) : r.1.Scalar := by
  obtain ⟨p, hp, hread⟩ := List.exists_of_findSome?_eq_some h
  obtain ⟨rest, -, rfl⟩ := Option.map_eq_some_iff.mp hread
  exact hwords p hp

theorem scalar_number? (h : number? s = some r) : r.1.Scalar := by
  have hbased : ∀ {base isDigit s r}, based? base isDigit s = some r → r.1.Scalar := by
    intro base isDigit s r h
    unfold based? at h
    split at h <;> cases h
    trivial
  unfold number? at h
  obtain h | ⟨-, h⟩ := (Option.orElse_eq_some _ _ _).mp h
  · split at h
    · exact hbased h
    · exact hbased h
    · exact hbased h
    · cases h
  · unfold decimal? at h
    dsimp only at h
    split at h
    · simp only [List.isEmpty_cons, Bool.false_eq_true, if_false] at h
      split at h <;> cases h <;> trivial
    · split at h
      · cases h
      · split at h <;> cases h <;> trivial

theorem scalar_plain? (h : plain? s = some r) : r.1.Scalar := by
  have hbooleans : ∀ p ∈ booleans, p.2.Scalar := by simp [booleans, Setting.Scalar]
  have hspecial : ∀ p ∈ specialNumbers, p.2.Scalar := by simp [specialNumbers, Setting.Scalar]
  unfold plain? at h
  split at h
  · cases h
    trivial
  · split at h
    · cases h
    · cases h
    · obtain h | ⟨-, h⟩ := (Option.orElse_eq_some _ _ _).mp h
      · exact scalar_word? hbooleans h
      · split at h
        · cases h
          trivial
        · cases h
        · obtain h | ⟨-, h⟩ := (Option.orElse_eq_some _ _ _).mp h
          · exact scalar_number? h
          · exact scalar_word? hspecial h

-- What is read is distinct, whatever the text: by the fuel, since every call spends some.
theorem distinct_value? (fuel : Nat) :
    (∀ {s r}, value? fuel s = some r → r.1.Distinct) ∧
    ∀ {d s r}, (Setting.obj d.table).Distinct → members? fuel d s = some r →
      (Setting.obj r.1).Distinct := by
  induction fuel with
  | zero =>
      refine ⟨?_, ?_⟩ <;> intros <;> rename_i h <;> cases h
  | succ fuel ih =>
      obtain ⟨ihvalue, ihmembers⟩ := ih
      constructor
      · intro s r h
        simp only [value?] at h
        split at h
        · simp only [Option.bind_eq_bind, Option.bind_eq_some_iff] at h
          obtain ⟨rest, -, h⟩ := h
          split at h
          · cases h
            exact Setting.distinct_arr []
          · obtain ⟨items, -, h⟩ := Option.bind_eq_some_iff.mp h
            cases h
            exact Setting.distinct_arr _
        · split at h
          · cases h
            exact Setting.distinct_nil
          · obtain ⟨table, htable, h⟩ := Option.bind_eq_some_iff.mp h
            cases h
            exact ihmembers Setting.distinct_nil htable
        · exact (scalar_plain? h).distinct
      · intro d s r hd h
        simp only [members?, Option.bind_eq_bind, Option.bind_eq_some_iff] at h
        obtain ⟨key, -, h⟩ := h
        split at h
        · obtain ⟨value, hvalue, h⟩ := Option.bind_eq_some_iff.mp h
          obtain ⟨d', hassign, h⟩ := Option.bind_eq_some_iff.mp h
          have hd' := distinct_assign_inline hd (ihvalue hvalue) hassign
          split at h
          · cases h
            exact hd'
          · exact ihmembers hd' h
          · cases h
        · cases h

theorem distinct_statement? {key : Path} {rest : List Char}
    (h : statement? s = some (.assign key v, rest)) : v.Distinct := by
  unfold statement? at h
  split at h
  · cases h
  · cases h
  · cases h
  · obtain ⟨k, -, h⟩ := Option.bind_eq_some_iff.mp h
    dsimp only at h
    split at h <;> cases h
  · obtain ⟨k, -, h⟩ := Option.bind_eq_some_iff.mp h
    dsimp only at h
    split at h <;> cases h
  · obtain ⟨k, -, h⟩ := Option.bind_eq_some_iff.mp h
    dsimp only at h
    split at h
    · obtain ⟨value, hvalue, h⟩ := Option.bind_eq_some_iff.mp h
      cases h
      exact (distinct_value? _).1 hvalue
    · cases h

theorem distinct_apply {d d' : Draft} {statement : Statement} (hd : (Setting.obj d.table).Distinct)
    (hv : ∀ key v, statement = .assign key v → v.Distinct) (h : statement.apply d = some d') :
    (Setting.obj d'.table).Distinct := by
  cases statement with
  | nothing =>
      cases h
      exact hd
  | table key =>
      simp only [Statement.apply, Draft.openTable] at h
      split at h
      · cases h
      · obtain ⟨table, htable, rfl⟩ := Option.map_eq_some_iff.mp h
        refine distinct_within ?_ hd htable
        rintro t _ ht ⟨⟩
        exact ht
  | item key =>
      simp only [Statement.apply, Draft.openItem] at h
      split at h
      · cases h
      · obtain ⟨table, htable, rfl⟩ := Option.map_eq_some_iff.mp h
        exact distinct_within (fun _ _ => distinct_appendTable) hd htable
  | assign key v =>
      simp only [Statement.apply, Draft.assign] at h
      split at h
      · cases h
      · obtain ⟨table, htable, rfl⟩ := Option.map_eq_some_iff.mp h
        exact distinct_within (fun _ _ => distinct_define (hv key v rfl)) hd htable

theorem distinct_lines? {fuel : Nat} {d d' : Draft} {s : List Char}
    (hd : (Setting.obj d.table).Distinct) (h : lines? fuel d s = some d') :
    (Setting.obj d'.table).Distinct := by
  induction fuel generalizing d s with
  | zero =>
      cases h
      exact hd
  | succ fuel ih =>
      simp only [lines?, Option.bind_eq_bind, Option.bind_eq_some_iff] at h
      obtain ⟨⟨statement, r⟩, hstatement, between, happly, rest, -, h⟩ := h
      have hbetween : (Setting.obj between.table).Distinct := by
        refine distinct_apply hd ?_ happly
        rintro key v rfl
        exact distinct_statement? hstatement
      split at h
      · cases h
        exact hbetween
      · exact ih hbetween h
      · cases h

theorem distinct_read? {text : String} (h : read? text = some table) :
    (Setting.obj table).Distinct := by
  obtain ⟨d, hd, rfl⟩ := Option.map_eq_some_iff.mp h
  exact distinct_lines? Setting.distinct_nil hd

end Toml

namespace Config

-- No mapping in what a file writes has a key twice. An object that holds itself is a mapping for
-- the program from the start, and has none twice as such.
def Content.Distinct : Content → Prop
  | .value v => v.Distinct
  | .knot _ => True

def Mapping.Distinct : Mapping → Prop
  | .entries table => (Setting.obj table).Distinct
  | .knot _ => True

namespace Surroundings

-- The reader of YAML makes mappings, in which no key stands twice.
def ReadsMappings (w : Surroundings) : Prop :=
  ∀ text, Ensures Content.Distinct (w.yaml text)

variable {w : Surroundings} (path : Path)

theorem distinct_decode (hyaml : w.ReadsMappings) (format : Format) (bytes : List UInt8) :
    Ensures Content.Distinct (w.decode format path bytes) := by
  cases format with
  | toml =>
      unfold decode
      dsimp only
      split
      · exact .error _
      · split
        · exact .ok (Toml.distinct_read? ‹_›)
        · exact .error _
  | json =>
      unfold decode
      dsimp only
      split
      · exact .error _
      · split
        · rename_i value hvalue
          exact .ok (Setting.distinct_ofJson value (Json.valid_read _ _ hvalue))
        · exact .error _
  | yaml =>
      unfold decode
      dsimp only
      split
      · exact .error _
      · exact (hyaml _).mapError _

theorem distinct_parse (hyaml : w.ReadsMappings) : Ensures Content.Distinct (w.parse path) := by
  unfold parse
  dsimp only
  split
  · exact .error _
  · split
    · exact .error _
    · exact .error _
    · exact distinct_decode path hyaml _ _

theorem distinct_projectSection (hyaml : w.ReadsMappings) :
    Ensures (fun entries => (Setting.obj entries).Distinct) (w.projectSection path) := by
  refine (distinct_parse path hyaml).bind fun content hcontent => ?_
  split
  · rename_i document
    have hdocument : document.Distinct := hcontent
    split
    · rename_i tools htools
      have hdistinct : (Setting.obj tools).Distinct := by
        cases hmember : document.member? toolKey with
        | none =>
            rw [hmember] at htools
            cases htools
            exact Setting.distinct_nil
        | some found =>
            rw [hmember] at htools
            cases htools
            exact hdocument.of_member? hmember
      split
      · exact .ok Setting.distinct_nil
      · exact .ok Setting.distinct_nil
      · rename_i table htable
        exact .ok (hdistinct.of_get? htable)
      · exact .error _
    · exact .error _
  · exact .error _

-- Whatever file a configuration is loaded from, no mapping in it has a key twice.
theorem distinct_load (hyaml : w.ReadsMappings) : Ensures Mapping.Distinct (w.load path) := by
  unfold load
  split
  · exact .error _
  · exact .error _
  · split
    · exact (distinct_projectSection path hyaml).map fun _ h => h
    · have hparse := distinct_parse path hyaml
      split
      · exact .error _
      · exact .ok trivial
      · rename_i entries hentries
        exact .ok (hparse _ hentries)
      · exact .error _

end Surroundings

end Config

end Dialect
