import Dialect.Proofs.Config.Discovery
import Dialect.Proofs.Config.Distinct
import Dialect.Proofs.Config.Merge.Algebra

namespace Dialect.Config

namespace Surroundings

variable {w : Surroundings} {p q path : Path} {table : Entries Key Setting} {content : Content}
  {mapping base upper : Mapping}

-- What is read from a file does not depend on the path in the messages.
theorem decode_eq_ok {format : Format} {bytes : List UInt8}
    (h : w.decode format p bytes = .ok content) (q : Path) :
    w.decode format q bytes = .ok content := by
  cases format with
  | yaml =>
      simp only [decode] at h ⊢
      split at h
      · cases h
      · exact mapError_eq_ok_iff.mpr (mapError_eq_ok_iff.mp h)
  -- of the other readers only an error tells the path
  | _ =>
      simp only [decode] at h ⊢
      split at h
      · cases h
      · split at h
        · exact h
        · cases h

-- Nor on how the path is written, up to its name.
theorem parse_eq_ok (hstat : w.files.stat w.cwd p = w.files.stat w.cwd q) (hname : p.name = q.name)
    (h : w.parse p = .ok content) : w.parse q = .ok content := by
  have hread : w.files.readBytes w.cwd p = w.files.readBytes w.cwd q := by
    rw [FileTree.readBytes, FileTree.readBytes, hstat]
  have hsuffix : p.suffix = q.suffix := by rw [Path.suffix, Path.suffix, hname]
  simp only [parse, hread, hsuffix] at h ⊢
  split at h
  · cases h
  · split at h
    · cases h
    · cases h
    · exact decode_eq_ok h q

theorem projectSection_eq_ok (hstat : w.files.stat w.cwd p = w.files.stat w.cwd q)
    (hname : p.name = q.name) (h : w.projectSection p = .ok table) :
    w.projectSection q = .ok table := by
  cases hparse : w.parse p with
  | error e => simp [projectSection, hparse, bind, Except.bind] at h
  | ok content =>
      simp only [projectSection, hparse, parse_eq_ok hstat hname hparse, bind, Except.bind] at h ⊢
      split at h
      · split at h
        · split at h
          · exact h
          · exact h
          · exact h
          · cases h
        · cases h
      · cases h

-- The mapping that a file writes as a whole.
def Content.IsWhole : Content → Mapping → Prop
  | .value v, .entries table => v = .obj table
  | .knot k, .knot k' => k = k'
  | _, _ => False

-- A file is loaded as a project file, or to the mapping that it is as a whole.
theorem load_eq_ok_iff : w.load p = .ok mapping ↔
    (∃ bytes, w.files.stat w.cwd p = .ok (.file bytes)) ∧
      if Text.lower p.name = projectFile then
        ∃ table, w.projectSection p = .ok table ∧ mapping = .entries table
      else ∃ content, w.parse p = .ok content ∧ Content.IsWhole content mapping := by
  cases hstat : w.files.stat w.cwd p with
  | error e => simp [load, hstat]
  | ok node =>
      cases node with
      | directory => simp [load, hstat]
      | file bytes =>
          by_cases hname : Text.lower p.name = projectFile
          · simp only [load, hstat, hname, if_true, Except.ok.injEq, FileNode.file.injEq,
              exists_eq', true_and]
            cases w.projectSection p <;> simp [Except.map, eq_comm]
          · simp only [load, hstat, hname, if_false, Except.ok.injEq, FileNode.file.injEq,
              exists_eq', true_and]
            cases w.parse p with
            | error e => simp
            | ok content =>
                cases content with
                | knot k => cases mapping <;> simp [Content.IsWhole]
                | value found => cases found <;> cases mapping <;> simp [Content.IsWhole]

theorem load_eq_ok (hstat : w.files.stat w.cwd p = w.files.stat w.cwd q) (hname : p.name = q.name)
    (h : w.load p = .ok mapping) : w.load q = .ok mapping := by
  rw [load_eq_ok_iff, hstat, hname] at h
  rw [load_eq_ok_iff]
  refine ⟨h.1, ?_⟩
  by_cases hproject : Text.lower q.name = projectFile
  · simp only [hproject, if_true] at h ⊢
    obtain ⟨-, table, hsection, hmapping⟩ := h
    exact ⟨table, projectSection_eq_ok hstat hname hsection, hmapping⟩
  · simp only [hproject, if_false] at h ⊢
    obtain ⟨-, content, hparse, hwhole⟩ := h
    exact ⟨content, parse_eq_ok hstat hname hparse, hwhole⟩

theorem parts_ne_nil_of_load (h : w.load p = .ok mapping) : p.parts ≠ [] := by
  intro hnil
  have hname : p.name = "" := by
    rw [Path.name, hnil]
    rfl
  have hsuffix : Format.ofSuffix? (Text.lower p.suffix) = none := by
    rw [Path.suffix, hname]
    decide
  obtain ⟨-, hload⟩ := load_eq_ok_iff.mp h
  rw [if_neg (by rw [hname]; decide)] at hload
  simp [parse, hsuffix] at hload

theorem name_settle_of_file {bytes : List UInt8} (hparts : p.parts ≠ [])
    (hstat : w.files.stat w.cwd p = .ok (.file bytes)) :
    (Path.settle w.cwd p).name = p.name :=
  Path.name_settle w.cwd hparts (FileTree.name_ne_of_stat hstat hparts)

-- A file is loaded to the same mapping by every path that is the same.
theorem load_of_same (hsame : Path.settle w.cwd p = Path.settle w.cwd q) (hparts : q.parts ≠ [])
    (hq : w.hasFile q = true) (h : w.load p = .ok mapping) : w.load q = .ok mapping := by
  obtain ⟨⟨bytes, hstat⟩, -⟩ := load_eq_ok_iff.mp h
  obtain ⟨bytes', hstat'⟩ := hasFile_iff.mp hq
  refine load_eq_ok ?_ ?_ h
  · rw [hstat, hstat', FileTree.stat_of_settle hsame hstat hstat']
  · rw [← name_settle_of_file (parts_ne_nil_of_load h) hstat, hsame,
      name_settle_of_file hparts hstat']

-- What a file writes that is there or not.
def layer (w : Surroundings) : Option Path → Except LoadError Mapping
  | none => .ok (.entries [])
  | some path => w.load path

-- The path that is named is the discovered one, when both are settled.
def Named (w : Surroundings) (chosen : Option String) (discovered : Option Path) : Prop :=
  ∃ c path, chosen = some c ∧ discovered = some path ∧
    Path.settle w.cwd (Path.ofText c) = Path.settle w.cwd path

-- How the configuration comes of the discovered file and the one that is named.
structure Layered (w : Surroundings) (discovered : Option Path) (chosen : Option String)
    (search : Search Mapping) : Prop where
  -- both are loaded, and the named one is laid over the other
  merged : ∀ lower upper, w.layer discovered = .ok (.entries lower) →
    w.layer (chosen.map Path.ofText) = .ok (.entries upper) →
    search.result = .ok (.entries (merge lower upper))
  -- a mapping that holds itself is so too, as far as that comes to an end; of one file alone it
  -- stays as it is
  knotted : ¬w.Named chosen discovered → ∀ lower upper, w.layer discovered = .ok lower →
    w.layer (chosen.map Path.ofText) = .ok upper → search.result = Surroundings.merged lower upper
  alone : w.Named chosen discovered → ∀ upper, w.layer (chosen.map Path.ofText) = .ok upper →
    search.result = .ok upper
  -- they are the same file, however the name is spelled, if it leads to the same place
  spelled : ∀ c path l, chosen = some c → discovered = some path →
    w.files.locate w.cwd (Path.ofText c) = .ok l →
    (w.Named chosen discovered ↔ w.files.locate w.cwd path = .ok l)
  -- the same file is read once, writes the same, and fails as the named one
  once : ∀ c, chosen = some c → w.Named chosen discovered → search.loaded = [Path.ofText c]
  same : w.Named chosen discovered → ∀ upper, w.layer (chosen.map Path.ofText) = .ok upper →
    w.layer discovered = .ok upper
  sameFails : w.Named chosen discovered → ∀ e,
    w.layer (chosen.map Path.ofText) = .error e → search.result = .error e
  -- of two files the discovered one fails first
  lowerFails : ¬w.Named chosen discovered → ∀ e, w.layer discovered = .error e →
    search.result = .error e
  upperFails : ¬w.Named chosen discovered → ∀ lower e, w.layer discovered = .ok lower →
    w.layer (chosen.map Path.ofText) = .error e → search.result = .error e

variable {chosen explicit environment : Option String} {discovered : Option Path}

theorem selected_eq (explicit environment : Option String) : selected explicit environment =
    (explicit.filter (· ≠ "")).or (environment.filter (· ≠ "")) := by
  have hnamed : ∀ s : Option String,
      (s.bind fun s => if s = "" then none else some s) = s.filter (· ≠ "") := by
    intro s
    cases s with
    | none => rfl
    | some s => by_cases hs : s = "" <;> simp [hs, Option.filter]
  simp only [selected, Option.orElse_eq_or, hnamed]

theorem merged_nil (base : Mapping) : merged base (.entries []) = .ok base := by
  cases base with
  | entries table => simp [merged, Mapping.mergeWith, merge, mergeEntries]
  | knot k => rfl

theorem nil_merged (hdistinct : upper.Distinct) : merged (.entries []) upper = .ok upper := by
  cases upper with
  | entries table => simp [merged, Mapping.mergeWith, nil_merge (Setting.Distinct.keys hdistinct)]
  | knot k => rfl

theorem above_eq (base : Mapping) (chosen : Option String) :
    w.above base chosen = (w.layer (chosen.map Path.ofText)).bind (merged base) := by
  cases chosen with
  | none => exact (merged_nil base).symm
  | some c => rfl

theorem isNamed_iff : w.isNamed chosen path = true ↔ w.Named chosen (some path) := by
  cases chosen with
  | none => simp [isNamed, Named]
  | some c => simp [isNamed, Named]

theorem below_of_named (hname : ¬Misnamed chosen discovered) (hpath : ∀ path,
    discovered = some path → path.hasNul = false) (h : w.Named chosen discovered) :
    w.below chosen discovered = .ok (.entries []) := by
  obtain ⟨c, path, rfl, rfl, hsame⟩ := h
  rw [below, sameFile_of_not_misnamed (hpath path rfl) hname,
    isNamed_iff.mpr ⟨c, path, rfl, rfl, hsame⟩]
  rfl

theorem below_of_not_named (hname : ¬Misnamed chosen discovered) (hpath : ∀ path,
    discovered = some path → path.hasNul = false) (h : ¬w.Named chosen discovered) :
    w.below chosen discovered = w.layer discovered := by
  cases discovered with
  | none => rfl
  | some path =>
      have hnot : w.isNamed chosen path = false := by
        rw [Bool.eq_false_iff]
        exact fun hnamed => h (isNamed_iff.mp hnamed)
      rw [below, sameFile_of_not_misnamed (hpath path rfl) hname, hnot]
      rfl

section Loaded

theorem loaded_andThen {α β : Type} {s : Search α} {next : α → Search β} (hs : s.loaded = [])
    (hnext : ∀ a, (next a).loaded = []) : (s.andThen next).loaded = [] := by
  unfold Search.andThen
  split <;> simp [hs, hnext]

-- To look for a file is to load none.
theorem loaded_usableIn (w : Surroundings) (directory : Path) :
    (w.usableIn directory).loaded = [] := by
  refine loaded_andThen rfl fun found => ?_
  cases found with
  | some path => rfl
  | none =>
      refine loaded_andThen rfl fun isFile => ?_
      split
      · split
        · rfl
        · split
          · exact loaded_andThen rfl fun _ => rfl
          · rfl
      · rfl

theorem loaded_firstUsable (w : Surroundings) (directories : List Path) :
    (w.firstUsable directories).loaded = [] := by
  induction directories with
  | nil => rfl
  | cons directory rest ih =>
      refine loaded_andThen (w.loaded_usableIn directory) fun found => ?_
      cases found with
      | some path => rfl
      | none => exact ih

theorem loaded_discover (w : Surroundings) : w.discover.loaded = [] := by
  refine loaded_andThen (loaded_andThen rfl fun _ => w.loaded_firstUsable _) fun found => ?_
  cases found <;> rfl

theorem loaded_bind_of_ok {α β : Type} {s : Search α} {a : α} (hs : s.result = .ok a)
    (next : α → Search β) : (s >>= next).loaded = s.loaded ++ (next a).loaded := by
  simp only [bind, Search.andThen, hs]

theorem loaded_configuration_of_named (h : w.discover.result = .ok discovered)
    {c : String} (hchosen : selected explicit environment = some c)
    (hname : ¬Misnamed (some c) discovered) (hnamed : w.Named (some c) discovered) :
    (w.configuration explicit environment).loaded = [Path.ofText c] := by
  obtain ⟨_, path, ⟨⟩, rfl, hsame⟩ := hnamed
  have hsameFile : (Search.of (w.sameFile (some c) path)).result = .ok true := by
    rw [Search.result_of, sameFile_of_not_misnamed (hasNul_of_hasFile (discovered_file h).2) hname,
      isNamed_iff.mpr ⟨c, path, rfl, rfl, hsame⟩]
  rw [configuration, loaded_bind_of_ok h, loaded_discover, hchosen]
  simp only [List.nil_append]
  rw [loaded_bind_of_ok hsameFile, if_pos rfl, loaded_bind_of_ok (Search.result_pure _)]
  cases hload : w.load (Path.ofText c) <;>
    simp [bind, Search.andThen, Search.note, loading, hload, pure, Search.done, Search.of]

end Loaded

section Result

variable (h : w.discover.result = .ok discovered)
  (hname : ¬Misnamed (selected explicit environment) discovered)

include h

theorem hasNul_discovered : ∀ path, discovered = some path → path.hasNul = false := by
  rintro path rfl
  exact hasNul_of_hasFile (discovered_file h).2

theorem result_configuration_of_misnamed
    (hname : Misnamed (selected explicit environment) discovered) :
    (w.configuration explicit environment).result = .error (.lookup .nulByte) := by
  obtain ⟨c, path, hc, rfl, hnul⟩ := hname
  rw [result_configuration, h, hc]
  simp only [Except.bind, below, sameFile_of_misnamed (w := w) ⟨c, path, rfl, rfl, hnul⟩]

include hname

theorem result_configuration_of_named
    (hnamed : w.Named (selected explicit environment) discovered) :
    (w.configuration explicit environment).result =
      (w.layer ((selected explicit environment).map Path.ofText)).bind (merged (.entries [])) := by
  rw [result_configuration, h, ← above_eq]
  simp only [Except.bind, below_of_named hname (hasNul_discovered h) hnamed]

theorem result_configuration_of_not_named
    (hnamed : ¬w.Named (selected explicit environment) discovered) :
    (w.configuration explicit environment).result = (w.layer discovered).bind fun lower =>
      (w.layer ((selected explicit environment).map Path.ofText)).bind (merged lower) := by
  rw [result_configuration, h]
  simp only [Except.bind, below_of_not_named hname (hasNul_discovered h) hnamed, above_eq]

end Result

-- What the files come to as a configuration: no file can be looked for, or the name of one is
-- none next to a discovered file, or the named one is the discovered one and counts alone, or each
-- is loaded and the named one is laid over the other.
inductive ComesTo (w : Surroundings) (chosen : Option String) : Except LoadError Mapping → Prop
  | lost {e : LoadError} : w.discover.result = .error e → ComesTo w chosen (.error e)
  | misnamed {discovered : Option Path} : w.discover.result = .ok discovered →
      Misnamed chosen discovered → ComesTo w chosen (.error (.lookup .nulByte))
  | named {discovered : Option Path} : w.discover.result = .ok discovered →
      ¬Misnamed chosen discovered → w.Named chosen discovered →
      ComesTo w chosen ((w.layer (chosen.map Path.ofText)).bind (merged (.entries [])))
  | apart {discovered : Option Path} : w.discover.result = .ok discovered →
      ¬Misnamed chosen discovered → ¬w.Named chosen discovered →
      ComesTo w chosen ((w.layer discovered).bind fun lower =>
        (w.layer (chosen.map Path.ofText)).bind (merged lower))

theorem comesTo_iff {result : Except LoadError Mapping} :
    w.ComesTo (selected explicit environment) result ↔
      (w.configuration explicit environment).result = result := by
  constructor
  · intro h
    cases h with
    | lost hlost =>
        rw [result_configuration, hlost]
        rfl
    | misnamed h hname => exact result_configuration_of_misnamed h hname
    | named h hname hnamed => exact result_configuration_of_named h hname hnamed
    | apart h hname hnamed => exact result_configuration_of_not_named h hname hnamed
  · rintro rfl
    cases h : w.discover.result with
    | error e =>
        rw [result_configuration, h]
        exact .lost h
    | ok discovered =>
        by_cases hname : Misnamed (selected explicit environment) discovered
        · rw [result_configuration_of_misnamed h hname]
          exact .misnamed h hname
        · by_cases hnamed : w.Named (selected explicit environment) discovered
          · rw [result_configuration_of_named h hname hnamed]
            exact .named h hname hnamed
          · rw [result_configuration_of_not_named h hname hnamed]
            exact .apart h hname hnamed

theorem distinct_layer (hyaml : w.ReadsMappings) (file : Option Path) :
    Ensures Mapping.Distinct (w.layer file) := by
  cases file with
  | none => exact .ok Setting.distinct_nil
  | some path => exact distinct_load path hyaml

theorem layer_of_named (h : w.discover.result = .ok discovered) (hnamed : w.Named chosen discovered)
    (hupper : w.layer (chosen.map Path.ofText) = .ok mapping) :
    w.layer discovered = .ok mapping := by
  obtain ⟨c, path, rfl, rfl, hsame⟩ := hnamed
  obtain ⟨⟨directory, name, rfl⟩, hfile⟩ := discovered_file h
  exact load_of_same hsame (by simp [Path.child]) hfile hupper

theorem layered (hyaml : w.ReadsMappings) (h : w.discover.result = .ok discovered)
    (hname : ¬Misnamed (selected explicit environment) discovered) :
    w.Layered discovered (selected explicit environment)
      (w.configuration explicit environment) where
  merged lower upper hlower hupper := by
    by_cases hnamed : w.Named (selected explicit environment) discovered
    · obtain rfl : upper = lower := by
        simpa [hlower, eq_comm] using layer_of_named h hnamed hupper
      have hdistinct : (Setting.obj upper).Distinct := distinct_layer hyaml discovered _ hlower
      rw [result_configuration_of_named h hname hnamed, hupper, merge_self hdistinct]
      exact @nil_merged (.entries upper) hdistinct
    · rw [result_configuration_of_not_named h hname hnamed, hlower, hupper]
      rfl
  knotted hnamed lower upper hlower hupper := by
    rw [result_configuration_of_not_named h hname hnamed, hlower, hupper]
    rfl
  alone hnamed upper hupper := by
    rw [result_configuration_of_named h hname hnamed, hupper]
    exact nil_merged (distinct_layer hyaml _ _ hupper)
  spelled c path l hchosen hdiscovered hlocate := by
    obtain ⟨bytes, hstat⟩ := hasFile_iff.mp (discovered_file (hdiscovered ▸ h)).2
    obtain ⟨-, l', hlocate', -⟩ := FileTree.stat_eq_ok_iff.mp hstat
    have hnamed : w.Named (selected explicit environment) discovered ↔
        Path.settle w.cwd (Path.ofText c) = Path.settle w.cwd path := by
      simp [Named, hchosen, hdiscovered]
    rw [hnamed, FileTree.settle_eq_iff hlocate hlocate', hlocate', Except.ok.injEq, eq_comm]
  once c hchosen hnamed :=
    loaded_configuration_of_named h hchosen (hchosen ▸ hname) (hchosen ▸ hnamed)
  same hnamed upper hupper := layer_of_named h hnamed hupper
  sameFails hnamed e he := by
    rw [result_configuration_of_named h hname hnamed, he]
    rfl
  lowerFails hnamed e he := by
    rw [result_configuration_of_not_named h hname hnamed, he]
    rfl
  upperFails hnamed lower e hlower he := by
    rw [result_configuration_of_not_named h hname hnamed, hlower, he]
    rfl

-- The configuration in layers, for every search that ends: the discovered file below, and over it
-- the one that is named, by the explicit name or else by that of the environment. Next to a
-- discovered file a name that the system does not take fails before any file is loaded, and the
-- user is not told of it. With an explicit name that of the environment does not matter.
theorem configuration_layered (hyaml : w.ReadsMappings) (h : w.discover.result = .ok discovered)
    (explicit environment : Option String) :
    (Misnamed ((explicit.filter (· ≠ "")).or (environment.filter (· ≠ ""))) discovered →
      (w.configuration explicit environment).result = .error (.lookup .nulByte)) ∧
    (¬Misnamed ((explicit.filter (· ≠ "")).or (environment.filter (· ≠ ""))) discovered →
      w.Layered discovered ((explicit.filter (· ≠ "")).or (environment.filter (· ≠ "")))
        (w.configuration explicit environment)) ∧
    ∀ c other, c ≠ "" → explicit = some c →
      w.configuration explicit other = w.configuration explicit environment := by
  rw [← selected_eq explicit environment]
  refine ⟨result_configuration_of_misnamed h, layered hyaml h, ?_⟩
  rintro c other hc rfl
  have hselected : ∀ environment, selected (some c) environment = some c := by
    intro environment
    simp [selected_eq, hc, Option.filter]
  simp only [configuration, hselected]

-- A file around the working directory, which is also named in a roundabout way, and another one
-- that changes a setting of it.
private def layeredTree : Surroundings :=
  ⟨⟨[(["work"], .directory),
      (["work", ".panbridge.toml"], .file (Utf8.encode "[engine]\ntimeout = 5\nx = 1\n")),
      (["work", "sub"], .directory),
      (["work", "sub", "own.yaml"], .file (Utf8.encode "engine:\n  timeout: 30\n"))]⟩,
    ⟨"/", ["work", "sub"]⟩, ⟨"/", ["home"]⟩, fun text =>
      if text = "engine:\n  timeout: 30\n" then
        .ok (.value (.obj [("engine", .obj [("timeout", .int 30)])]))
      else .error (.malformed none)⟩

theorem configuration_layered_spelled : layeredTree.ReadsMappings ∧
    layeredTree.discover.result = .ok (some ⟨"/", ["work", ".panbridge.toml"]⟩) ∧
    (layeredTree.configuration (some "../sub/.//../.panbridge.toml") (some "nowhere")).result =
      .ok (.entries [("engine", .obj [("timeout", .int 5), ("x", .int 1)])]) ∧
    (layeredTree.configuration (some "../sub/.//../.panbridge.toml") (some "nowhere")).loaded =
      [Path.ofText "../sub/.//../.panbridge.toml"] ∧
    (layeredTree.configuration none (some "own.yaml")).result =
      .ok (.entries [("engine", .obj [("timeout", .int 30), ("x", .int 1)])]) := by
  have hyaml : layeredTree.ReadsMappings := by
    intro text
    unfold layeredTree
    dsimp only
    split
    · exact .ok (by simp [Content.Distinct, Setting.distinct_obj_iff, Entries.keys,
        Setting.Distinct.value, Setting.IsMapping])
    · exact .error _
  have hdiscover : layeredTree.discover.result = .ok (some ⟨"/", ["work", ".panbridge.toml"]⟩) := by
    decide +kernel
  have hlower : layeredTree.load ⟨"/", ["work", ".panbridge.toml"]⟩ =
      .ok (.entries [("engine", .obj [("timeout", .int 5), ("x", .int 1)])]) := by decide +kernel
  have hspelled : layeredTree.load (Path.ofText "../sub/.//../.panbridge.toml") =
      .ok (.entries [("engine", .obj [("timeout", .int 5), ("x", .int 1)])]) := by decide +kernel
  have hupper : layeredTree.load (Path.ofText "own.yaml") =
      .ok (.entries [("engine", .obj [("timeout", .int 30)])]) := by decide +kernel
  have hnamed : layeredTree.Named (some "../sub/.//../.panbridge.toml")
      (some ⟨"/", ["work", ".panbridge.toml"]⟩) := ⟨_, _, rfl, rfl, by decide +kernel⟩
  have hname : ∀ c, (Path.ofText c).hasNul = false →
      ¬Misnamed (some c) (some ⟨"/", ["work", ".panbridge.toml"]⟩) := by
    rintro c hc ⟨_, _, ⟨⟩, -, hnul⟩
    simp [hc] at hnul
  obtain ⟨-, hsame, -⟩ :=
    configuration_layered hyaml hdiscover (some "../sub/.//../.panbridge.toml") (some "nowhere")
  obtain ⟨-, hother, -⟩ := configuration_layered hyaml hdiscover none (some "own.yaml")
  have hlayered := hsame (hname _ (by decide +kernel))
  refine ⟨hyaml, hdiscover, ?_, hlayered.once _ rfl hnamed, ?_⟩
  · rw [hlayered.merged _ _ hlower hspelled]
    decide
  · rw [(hother (hname _ (by decide +kernel))).merged _ _ hlower hupper]
    decide

-- A name that no file can have is a missing file by itself, but not next to a discovered one.
theorem configuration_layered_misnamed :
    layeredTree.discover.result = .ok (some ⟨"/", ["work", ".panbridge.toml"]⟩) ∧
    (∃ mapping, layeredTree.load ⟨"/", ["work", ".panbridge.toml"]⟩ = .ok mapping) ∧
    layeredTree.load (Path.ofText "a\x00b.toml") = .error (.missing (Path.ofText "a\x00b.toml")) ∧
    (layeredTree.configuration (some "a\x00b.toml") none).result = .error (.lookup .nulByte) := by
  have hlower : layeredTree.load ⟨"/", ["work", ".panbridge.toml"]⟩ =
      .ok (.entries [("engine", .obj [("timeout", .int 5), ("x", .int 1)])]) := by decide +kernel
  refine ⟨?_, ⟨_, hlower⟩, ?_, ?_⟩ <;> decide +kernel

end Surroundings

end Dialect.Config
