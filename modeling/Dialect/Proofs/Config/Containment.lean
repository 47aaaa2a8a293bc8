import Dialect.Config.Discovery
import Dialect.Proofs.Config.Load

namespace Dialect.Config

-- Some things are tried one after the other: one fails, and every one before it lets pass.
inductive Stops {α : Type} (Passes Fails : α → Prop) : List α → Prop
  | here {a : α} {rest : List α} : Fails a → Stops Passes Fails (a :: rest)
  | later {a : α} {rest : List α} : Passes a → Stops Passes Fails rest →
      Stops Passes Fails (a :: rest)

@[simp] theorem not_stops_nil {α : Type} {Passes Fails : α → Prop} :
    ¬Stops Passes Fails [] := by
  intro h
  cases h

@[simp] theorem stops_cons_iff {α : Type} {Passes Fails : α → Prop} {a : α} {rest : List α} :
    Stops Passes Fails (a :: rest) ↔ Fails a ∨ Passes a ∧ Stops Passes Fails rest := by
  constructor
  · intro h
    cases h with
    | here hfails => exact .inl hfails
    | later hpasses hrest => exact .inr ⟨hpasses, hrest⟩
  · rintro (hfails | ⟨hpasses, hrest⟩)
    · exact .here hfails
    · exact .later hpasses hrest

theorem not_stops_of_forall {α : Type} {Passes Fails : α → Prop} {xs : List α}
    (h : ∀ a ∈ xs, ¬Fails a) : ¬Stops Passes Fails xs := by
  induction xs with
  | nil => exact not_stops_nil
  | cons a rest ih =>
      obtain ⟨ha, hrest⟩ := List.forall_mem_cons.mp h
      simp [ha, ih hrest]

namespace Search

variable {α β : Type}

@[simp] theorem result_of (result : Except LoadError α) : (of result).result = result := rfl

@[simp] theorem result_done (a : α) : (done a).result = .ok a := rfl

@[simp] theorem result_note (message : String) : (note message).result = .ok () := rfl

@[simp] theorem result_andThen (s : Search α) (next : α → Search β) :
    (s.andThen next).result = s.result.bind fun a => (next a).result := by
  unfold andThen
  cases s.result <;> rfl

@[simp] theorem result_pure (a : α) : (pure a : Search α).result = .ok a := rfl

@[simp] theorem result_bind (s : Search α) (next : α → Search β) :
    (s >>= next).result = s.result.bind fun a => (next a).result :=
  result_andThen s next

end Search

namespace Surroundings

variable {w : Surroundings} {directory : Path} {name : String}

@[simp] theorem result_loading (path : Path) : (w.loading path).result = w.load path := rfl

-- What is in a directory cannot be asked for: the path with a name in it is too long, or the way
-- to it cannot be followed, though nothing on it is missing.
def Unreachable (w : Surroundings) (directory : Path) : Prop :=
  directory.hasNul = false ∧
    (FileTree.isLong (directory.child ".panbridge.toml") = true ∨
      ∃ e, w.files.locate w.cwd directory = .error e ∧ e.isAbsent = false)

-- A name that is looked for is short, and none is longer than the first.
theorem name_short (h : name ∈ projectFile :: fileNames) :
    FileTree.isTooLong name = false ∧ name.toList.contains (Char.ofNat 0) = false ∧
      name.utf8ByteSize ≤ ".panbridge.toml".utf8ByteSize := by
  revert name
  decide

theorem isLong_child (h : FileTree.isLong (directory.child ".panbridge.toml") = false)
    (hname : name ∈ projectFile :: fileNames) : FileTree.isLong (directory.child name) = false := by
  obtain ⟨-, -, hsize⟩ := name_short hname
  simp only [FileTree.isLong, Path.utf8ByteSize_text_child, decide_eq_false_iff_not] at h ⊢
  omega

theorem hasFile_of_isFile {path : Path} {b : Bool} (h : w.isFile path = .ok b) :
    w.isFile path = .ok (w.hasFile path) := by
  unfold isFile FileTree.isFile hasFile at *
  cases hstat : w.files.stat w.cwd path with
  | error e => by_cases habsent : e.isAbsent = true <;> simp_all [Except.mapError]
  | ok node => cases node <;> rfl

theorem isAbsent_of_stat_child (hreach : ¬w.Unreachable directory)
    (hname : name ∈ projectFile :: fileNames) (e : PathError)
    (h : w.files.stat w.cwd (directory.child name) = .error e) : e.isAbsent = true := by
  obtain ⟨hshort, hnul, -⟩ := name_short hname
  cases e with
  | nulByte => rfl
  | os e =>
      by_contra hnot
      have habsent : e.isAbsent = false := by simpa [PathError.isAbsent] using hnot
      have hchild : (directory.child name).hasNul = false := by
        by_contra hchild
        rw [Bool.not_eq_false] at hchild
        simp [FileTree.stat, FileTree.find, hchild, bind, Except.bind] at h
      refine hreach ⟨by rwa [Path.hasNul_child hnul] at hchild, ?_⟩
      by_cases hlong : FileTree.isLong (directory.child ".panbridge.toml") = true
      · exact .inl hlong
      · rw [FileTree.stat_child_eq_error_iff hshort hchild habsent,
          if_neg (by simp [isLong_child (by simpa using hlong) hname])] at h
        exact .inr ⟨e, h, habsent⟩

theorem isFile_child (hreach : ¬w.Unreachable directory) (hname : name ∈ projectFile :: fileNames) :
    w.isFile (directory.child name) = .ok (w.hasFile (directory.child name)) := by
  cases h : w.files.isFile w.cwd (directory.child name) with
  | error e =>
      obtain ⟨hstat, habsent⟩ := FileTree.isFile_eq_error_iff.mp h
      simp [isAbsent_of_stat_child hreach hname e hstat] at habsent
  | ok b => exact hasFile_of_isFile (by rw [isFile, h]; rfl)

theorem firstFile_eq {paths : List Path}
    (h : ∀ path ∈ paths, w.isFile path = .ok (w.hasFile path)) :
    w.firstFile paths = .ok (paths.find? w.hasFile) := by
  induction paths with
  | nil => rfl
  | cons path rest ih =>
      obtain ⟨hpath, hrest⟩ := List.forall_mem_cons.mp h
      cases hfile : w.hasFile path <;>
        simp [firstFile, hpath, hfile, ih hrest, bind, Except.bind, pure, Except.pure]

theorem firstFile_of_reachable (hreach : ¬w.Unreachable directory) :
    w.firstFile (fileNames.map directory.child) =
      .ok ((fileNames.map directory.child).find? w.hasFile) := by
  refine firstFile_eq fun path hpath => ?_
  obtain ⟨name, hname, rfl⟩ := List.mem_map.mp hpath
  exact isFile_child hreach (List.mem_cons_of_mem _ hname)

theorem firstFile_of_unreachable (hreach : w.Unreachable directory) :
    ∃ e, w.firstFile (fileNames.map directory.child) = .error (.lookup e) := by
  obtain ⟨hdirectory, hcause⟩ := hreach
  obtain ⟨hshort, hname, -⟩ := @name_short ".panbridge.toml" (by decide)
  have hnul : (directory.child ".panbridge.toml").hasNul = false := by
    rw [Path.hasNul_child hname, hdirectory]
  have hstat : ∃ e, w.files.stat w.cwd (directory.child ".panbridge.toml") = .error (.os e) ∧
      e.isAbsent = false := by
    by_cases hlong : FileTree.isLong (directory.child ".panbridge.toml") = true
    · exact ⟨.nameTooLong,
        (FileTree.stat_child_eq_error_iff hshort hnul rfl).mpr (by rw [if_pos hlong]), rfl⟩
    · obtain ⟨e, hlocate, habsent⟩ := hcause.resolve_left hlong
      exact ⟨e, (FileTree.stat_child_eq_error_iff hshort hnul habsent).mpr
        (by rwa [if_neg hlong]), habsent⟩
  obtain ⟨e, hstat, habsent⟩ := hstat
  have hfirst : w.isFile (directory.child ".panbridge.toml") = .error (.lookup (.os e)) := by
    rw [isFile, FileTree.isFile_eq_error_iff.mpr ⟨hstat, habsent⟩]
    rfl
  exact ⟨.os e, by simp [fileNames, firstFile, hfirst, bind, Except.bind]⟩

theorem unreported_firstFile_iff :
    Unreported (w.firstFile (fileNames.map directory.child)) ↔ w.Unreachable directory := by
  by_cases hreach : w.Unreachable directory
  · obtain ⟨e, he⟩ := firstFile_of_unreachable hreach
    simp [he, LoadError.isReported, hreach]
  · simp [firstFile_of_reachable hreach, hreach]

-- A project file is usable if it can be read and has a section of ours that is not empty.
def isUsable (w : Surroundings) (project : Path) : Bool :=
  (w.projectSection project).toOption.any fun section_ => !section_.isEmpty

-- The configuration file that a directory has to offer. A project file that is not usable is
-- none, for whatever reason.
def offered? (w : Surroundings) (directory : Path) : Option Path :=
  ((fileNames.map directory.child).find? w.hasFile).or
    (if w.isUsable (directory.child projectFile) then some (directory.child projectFile) else none)

-- The search does not come past a directory: it cannot be looked into, or no file of our own comes
-- before its project file, and that one cannot be loaded without a word about it.
def Blocked (w : Surroundings) (directory : Path) : Prop :=
  w.Unreachable directory ∨ (fileNames.map directory.child).find? w.hasFile = none ∧
    w.GivesUp (directory.child projectFile)

theorem hasFile_of_isUsable {project : Path} (h : w.isUsable project = true) :
    w.hasFile project = true := by
  cases hparse : w.parse project with
  | error e => simp [isUsable, projectSection, hparse, bind, Except.bind, Except.toOption] at h
  | ok document => exact hasFile_iff.mpr (exists_stat_of_parse hparse)

theorem load_project (hfile : w.hasFile (directory.child projectFile) = true) :
    w.load (directory.child projectFile) =
      (w.projectSection (directory.child projectFile)).map .entries := by
  obtain ⟨bytes, hstat⟩ := hasFile_iff.mp hfile
  have hname : Text.lower (directory.child projectFile).name = projectFile := by
    simp only [Path.name, Path.child, List.getLast?_append, List.getLast?_singleton,
      Option.some_or, Option.getD_some]
    decide
  simp only [load, hstat, hname, if_true]

theorem givesUp_project_iff (hfile : w.hasFile (directory.child projectFile) = true) :
    w.GivesUp (directory.child projectFile) ↔
      Unreported (w.projectSection (directory.child projectFile)) := by
  rw [← unreported_load_iff, load_project hfile, unreported_map_iff]

theorem result_usableProject (hreach : ¬w.Unreachable directory) :
    (w.GivesUp (directory.child projectFile) → Unreported (w.usableProject directory).result) ∧
    (¬w.GivesUp (directory.child projectFile) → (w.usableProject directory).result =
      .ok (if w.isUsable (directory.child projectFile) then some (directory.child projectFile)
        else none)) := by
  have hisFile := isFile_child hreach (@List.mem_cons_self _ projectFile fileNames)
  cases hfile : w.hasFile (directory.child projectFile) with
  | false =>
      have hgives : ¬w.GivesUp (directory.child projectFile) := by
        intro h
        have hthere := h.hasFile_of_not_lookup (isAbsent_of_stat_child hreach List.mem_cons_self)
        simp [hfile] at hthere
      have husable : ¬w.isUsable (directory.child projectFile) = true := by
        intro h
        simp [hasFile_of_isUsable h] at hfile
      refine ⟨fun h => absurd h hgives, fun _ => ?_⟩
      rw [hfile] at hisFile
      simp [usableProject, hisFile, Except.bind, husable]
  | true =>
      rw [hfile] at hisFile
      rw [givesUp_project_iff hfile]
      cases hsection : w.projectSection (directory.child projectFile) with
      | ok section_ =>
          cases hempty : section_.isEmpty <;>
            simp [usableProject, isUsable, hisFile, hsection, hempty, Except.bind, Except.toOption]
      | error e =>
          cases hreported : e.isReported <;>
            simp [usableProject, isUsable, hisFile, hsection, hreported, Except.bind,
              Except.toOption]

theorem result_usableIn :
    (w.Blocked directory → Unreported (w.usableIn directory).result) ∧
    (¬w.Blocked directory → (w.usableIn directory).result = .ok (w.offered? directory)) := by
  by_cases hreach : w.Unreachable directory
  · obtain ⟨e, he⟩ := firstFile_of_unreachable hreach
    refine ⟨fun _ => ?_, fun h => absurd (.inl hreach) h⟩
    simp [usableIn, he, Except.bind, LoadError.isReported]
  · obtain ⟨hgives, hnot⟩ := result_usableProject hreach
    have hfirst := firstFile_of_reachable hreach
    cases hfound : (fileNames.map directory.child).find? w.hasFile with
    | some path => simp [Blocked, usableIn, offered?, hreach, hfirst, hfound, Except.bind]
    | none =>
        rw [hfound] at hfirst
        simpa [Blocked, usableIn, offered?, hreach, hfirst, hfound, Except.bind]
          using ⟨hgives, hnot⟩

-- A search through directories meets one that it does not come past, before one that has
-- something to offer.
def Stuck (w : Surroundings) (directories : List Path) : Prop :=
  Stops (fun directory => w.offered? directory = none) w.Blocked directories

theorem result_firstUsable (directories : List Path) :
    (w.Stuck directories → Unreported (w.firstUsable directories).result) ∧
    (¬w.Stuck directories →
      (w.firstUsable directories).result = .ok (directories.findSome? w.offered?)) := by
  unfold Stuck
  induction directories with
  | nil => simp [firstUsable]
  | cons directory rest ih =>
      obtain ⟨hblocked, hfree⟩ := @result_usableIn w directory
      rw [stops_cons_iff, List.findSome?_cons]
      by_cases h : w.Blocked directory
      · obtain ⟨e, he, hreported⟩ := hblocked h
        refine ⟨fun _ => ?_, fun hstuck => absurd (.inl h) hstuck⟩
        simpa [firstUsable, he, Except.bind] using hreported
      · have hresult := hfree h
        cases hoffered : w.offered? directory with
        | some path => simp [firstUsable, hresult, hoffered, h, Except.bind]
        | none => simpa [firstUsable, hresult, hoffered, h, Except.bind] using ih

theorem resolve_of_hasNul {path : Path} (h : path.hasNul = true) :
    w.resolve path = .error (.lookup .nulByte) :=
  if_pos h

theorem resolve_of_not_hasNul {path : Path} (h : path.hasNul = false) :
    w.resolve path = .ok (Path.settle w.cwd path) :=
  if_neg (by simp [h])

theorem result_findFrom_eq_ok_iff {start : Path} {found : Option Path} :
    (w.findFrom start).result = .ok found ↔
      start.hasNul = false ∧ ¬w.Stuck (Path.settle w.cwd start).upwards ∧
        found = (Path.settle w.cwd start).upwards.findSome? w.offered? := by
  cases hnul : start.hasNul with
  | true => simp [findFrom, resolve_of_hasNul hnul, Except.bind]
  | false =>
      obtain ⟨hstuck, hfree⟩ := w.result_firstUsable (Path.settle w.cwd start).upwards
      by_cases h : w.Stuck (Path.settle w.cwd start).upwards
      · obtain ⟨e, he, -⟩ := hstuck h
        simp [findFrom, resolve_of_not_hasNul hnul, Except.bind, he, h]
      · simp [findFrom, resolve_of_not_hasNul hnul, Except.bind, hfree h, h, eq_comm]

-- The search from the working directory up does not come to an end, or it ends with nothing
-- and the home directory cannot be looked into.
def Lost (w : Surroundings) : Prop :=
  w.cwd.hasNul = true ∨ w.Stuck (Path.settle w.cwd w.cwd).upwards ∨
    (Path.settle w.cwd w.cwd).upwards.findSome? w.offered? = none ∧ w.Unreachable w.home

theorem unreported_discover_iff : Unreported w.discover.result ↔ w.Lost := by
  obtain ⟨hstuck, hfree⟩ := w.result_firstUsable (Path.settle w.cwd w.cwd).upwards
  unfold Lost
  cases hnul : w.cwd.hasNul with
  | true => simp [discover, findFrom, resolve_of_hasNul hnul, Except.bind, LoadError.isReported]
  | false =>
      by_cases h : w.Stuck (Path.settle w.cwd w.cwd).upwards
      · obtain ⟨e, he, hreported⟩ := hstuck h
        simp [discover, findFrom, resolve_of_not_hasNul hnul, he, hreported, h, Except.bind]
      · have hresult := hfree h
        cases hfound : (Path.settle w.cwd w.cwd).upwards.findSome? w.offered? with
        | some path =>
            rw [hfound] at hresult
            simp [discover, findFrom, resolve_of_not_hasNul hnul, hresult, h, Except.bind]
        | none =>
            rw [hfound] at hresult
            simp [discover, findFrom, resolve_of_not_hasNul hnul, hresult, h, Except.bind,
              unreported_firstFile_iff]

theorem firstFile_eq_some {paths : List Path} {path : Path}
    (h : w.firstFile paths = .ok (some path)) : path ∈ paths ∧ w.hasFile path = true := by
  induction paths with
  | nil => cases h
  | cons other rest ih =>
      cases hfile : w.isFile other with
      | error e => simp [firstFile, hfile, bind, Except.bind] at h
      | ok b =>
          have hhas := hasFile_of_isFile hfile
          cases b with
          | false =>
              obtain ⟨hmem, hpath⟩ := ih (by simpa [firstFile, hfile, bind, Except.bind] using h)
              exact ⟨List.mem_cons_of_mem _ hmem, hpath⟩
          | true =>
              obtain rfl : other = path := by
                simpa [firstFile, hfile, bind, Except.bind, pure, Except.pure] using h
              exact ⟨List.mem_cons_self, by simpa [hfile] using hhas.symm⟩

theorem offered?_eq_some {path : Path} (h : w.offered? directory = some path) :
    ∃ name, path = directory.child name ∧ w.hasFile path = true := by
  rw [offered?, Option.or_eq_some_iff] at h
  obtain hdotfile | ⟨-, hproject⟩ := h
  · obtain ⟨name, -, rfl⟩ := List.mem_map.mp (List.mem_of_find?_eq_some hdotfile)
    exact ⟨name, rfl, List.find?_some hdotfile⟩
  · split_ifs at hproject with husable
    obtain rfl := Option.some.inj hproject
    exact ⟨projectFile, rfl, hasFile_of_isUsable husable⟩

-- What is discovered is a file in some directory.
theorem discovered_file {path : Path} (h : w.discover.result = .ok (some path)) :
    (∃ directory name, path = Path.child directory name) ∧ w.hasFile path = true := by
  rw [discover, Search.result_andThen] at h
  cases hfound : (w.findFrom w.cwd).result with
  | error e =>
      rw [hfound] at h
      cases h
  | ok found =>
      rw [hfound] at h
      cases found with
      | some found =>
          obtain rfl : found = path := by simpa [Except.bind] using h
          obtain ⟨-, -, hoffered⟩ := result_findFrom_eq_ok_iff.mp hfound
          obtain ⟨directory, -, hoffered⟩ := List.exists_of_findSome?_eq_some hoffered.symm
          obtain ⟨name, hname, hfile⟩ := offered?_eq_some hoffered
          exact ⟨⟨directory, name, hname⟩, hfile⟩
      | none =>
          obtain ⟨hmem, hfile⟩ := firstFile_eq_some (by simpa [Except.bind] using h)
          obtain ⟨name, -, rfl⟩ := List.mem_map.mp hmem
          exact ⟨⟨w.home, name, rfl⟩, hfile⟩

theorem hasNul_of_hasFile {path : Path} (h : w.hasFile path = true) : path.hasNul = false := by
  obtain ⟨bytes, hstat⟩ := hasFile_iff.mp h
  exact (FileTree.stat_eq_ok_iff.mp hstat).1.1

-- The named file is the discovered one, and so is not loaded twice.
def isNamed (w : Surroundings) (chosen : Option String) (discovered : Path) : Bool :=
  (chosen.map fun c => Path.settle w.cwd (Path.ofText c) == Path.settle w.cwd discovered).getD false

-- A file is named next to a discovered one, and its name is none that the system takes.
def Misnamed (chosen : Option String) (discovered : Option Path) : Prop :=
  ∃ c path, chosen = some c ∧ discovered = some path ∧ (Path.ofText c).hasNul = true

variable {chosen : Option String} {discovered : Option Path} {path : Path}

theorem sameFile_of_misnamed (h : Misnamed chosen (some path)) :
    w.sameFile chosen path = .error (.lookup .nulByte) := by
  obtain ⟨c, _, rfl, ⟨⟩, hnul⟩ := h
  simp [sameFile, resolve_of_hasNul hnul, bind, Except.bind]

theorem sameFile_of_not_misnamed (hpath : path.hasNul = false)
    (h : ¬Misnamed chosen (some path)) : w.sameFile chosen path = .ok (w.isNamed chosen path) := by
  cases chosen with
  | none => rfl
  | some c =>
      have hnul : (Path.ofText c).hasNul = false := by
        by_contra hnul
        exact h ⟨c, path, rfl, rfl, by simpa using hnul⟩
      simp [sameFile, isNamed, resolve_of_not_hasNul hnul, resolve_of_not_hasNul hpath, bind,
        Except.bind, pure, Except.pure]

-- What the discovered file writes, below what is named.
def below (w : Surroundings) (chosen : Option String) : Option Path → Except LoadError Mapping
  | none => .ok (.entries [])
  | some path => (w.sameFile chosen path).bind fun same =>
      if same then .ok (.entries []) else w.load path

-- What the named file writes, laid over a base.
def above (w : Surroundings) (base : Mapping) : Option String → Except LoadError Mapping
  | none => .ok base
  | some c => (w.load (Path.ofText c)).bind (merged base)

theorem result_configuration (w : Surroundings) (explicit environment : Option String) :
    (w.configuration explicit environment).result = w.discover.result.bind fun discovered =>
      (w.below (selected explicit environment) discovered).bind fun base =>
        w.above base (selected explicit environment) := by
  rw [configuration, Search.result_bind]
  congr 1
  funext discovered
  generalize selected explicit environment = chosen
  cases discovered with
  | none => cases chosen <;> simp [below, above, Except.bind]
  | some path =>
      cases hsame : w.sameFile chosen path with
      | error e => simp [below, hsame, Except.bind]
      | ok same => cases same <;> cases chosen <;> simp [below, above, hsame, Except.bind]

-- The files that are loaded, from the lowest up.
def layers (w : Surroundings) (chosen : Option String) (discovered : Option Path) : List Path :=
  (discovered.filter fun path => !w.isNamed chosen path).toList ++ (chosen.map Path.ofText).toList

-- What keeps the files in force from being loaded without a word about them: a name that is none
-- next to a discovered file, a file that cannot be loaded behind those that can, or two mappings
-- of which the merging has no end.
inductive Breaks (w : Surroundings) (chosen : Option String) (discovered : Option Path) : Prop
  | name : Misnamed chosen discovered → Breaks w chosen discovered
  | load : ¬Misnamed chosen discovered →
      Stops (fun path => ∃ mapping, w.load path = .ok mapping) w.GivesUp
        (w.layers chosen discovered) → Breaks w chosen discovered
  | merge {c : String} {path : Path} {base upper : Mapping} : ¬Misnamed chosen discovered →
      w.layers chosen discovered = [path, Path.ofText c] → w.load path = .ok base →
      w.load (Path.ofText c) = .ok upper → base.mergeWith upper = none → Breaks w chosen discovered

theorem nil_mergeWith (upper : Mapping) : (Mapping.entries []).mergeWith upper ≠ none := by
  cases upper <;> simp [Mapping.mergeWith]

theorem unreported_merged_iff {base upper : Mapping} :
    Unreported (merged base upper) ↔ base.mergeWith upper = none := by
  unfold merged
  cases base.mergeWith upper <;> simp [LoadError.isReported]

theorem unreported_above_iff {base : Mapping} : Unreported (w.above base chosen) ↔
    ∃ c, chosen = some c ∧ (w.GivesUp (Path.ofText c) ∨
      ∃ upper, w.load (Path.ofText c) = .ok upper ∧ base.mergeWith upper = none) := by
  cases chosen with
  | none => simp [above]
  | some c =>
      simp only [above, Option.some.injEq, exists_eq_left', ← unreported_load_iff]
      cases w.load (Path.ofText c) <;> simp [Except.bind, unreported_merged_iff]

-- Of one file alone, only the loading of it can break.
theorem breaks_of_alone (h : ¬Misnamed chosen discovered)
    (hlayers : w.layers chosen discovered = (chosen.map Path.ofText).toList) :
    w.Breaks chosen discovered ↔ Unreported (w.above (.entries []) chosen) := by
  simp only [unreported_above_iff, nil_mergeWith, and_false, exists_false, or_false]
  constructor
  · intro hbreaks
    cases hbreaks with
    | name hname => exact absurd hname h
    | load _ hstops => cases chosen <;> simp_all
    | merge _ htwo => cases chosen <;> simp_all
  · rintro ⟨c, rfl, hgives⟩
    exact .load h (by simp [hlayers, hgives])

-- Of two files the lower one breaks, or the upper one, or the merging of both.
theorem breaks_of_two (path : Path) (h : ¬Misnamed chosen discovered)
    (hlayers : w.layers chosen discovered = path :: (chosen.map Path.ofText).toList) :
    w.Breaks chosen discovered ↔ Unreported (w.load path) ∨
      ∃ base, w.load path = .ok base ∧ Unreported (w.above base chosen) := by
  simp only [unreported_above_iff, unreported_load_iff]
  constructor
  · intro hbreaks
    cases hbreaks with
    | name hname => exact absurd hname h
    | load _ hstops =>
        rw [hlayers, stops_cons_iff] at hstops
        refine hstops.imp_right fun ⟨⟨base, hbase⟩, hupper⟩ => ⟨base, hbase, ?_⟩
        cases chosen <;> simp_all
    | merge _ htwo hbase hupper hover =>
        rw [hlayers] at htwo
        cases chosen with
        | none => simp at htwo
        | some c =>
            simp only [Option.map_some, Option.toList_some, List.cons.injEq, and_true] at htwo
            obtain ⟨rfl, hc⟩ := htwo
            exact .inr ⟨_, hbase, c, rfl, .inr ⟨_, hc ▸ hupper, hover⟩⟩
  · rintro (hgives | ⟨base, hbase, c, rfl, hgives | ⟨upper, hupper, hover⟩⟩)
    · exact .load h (by simp [hlayers, hgives])
    · exact .load h (by simp [hlayers, hgives, hbase])
    · exact .merge h hlayers hbase hupper hover

theorem unreported_layered_iff (h : ∀ path, discovered = some path → path.hasNul = false) :
    Unreported ((w.below chosen discovered).bind fun base => w.above base chosen) ↔
      w.Breaks chosen discovered := by
  by_cases hname : Misnamed chosen discovered
  · obtain ⟨c, path, rfl, rfl, hnul⟩ := hname
    have hmisnamed : Misnamed (some c) (some path) := ⟨c, path, rfl, rfl, hnul⟩
    simp [below, sameFile_of_misnamed hmisnamed, Except.bind, LoadError.isReported,
      Breaks.name hmisnamed]
  cases discovered with
  | none =>
      rw [breaks_of_alone hname rfl]
      rfl
  | some path =>
      rw [below, sameFile_of_not_misnamed (h path rfl) hname]
      cases hnamed : w.isNamed chosen path with
      | true =>
          rw [breaks_of_alone hname (by simp [layers, hnamed, Option.filter])]
          rfl
      | false =>
          rw [breaks_of_two path hname (by simp [layers, hnamed, Option.filter])]
          simp only [Except.bind, Bool.false_eq_true, if_false]
          cases w.load path <;> simp

theorem unreported_configuration_iff {explicit environment : Option String} :
    Unreported (w.configuration explicit environment).result ↔
      w.Lost ∨ ∃ discovered, w.discover.result = .ok discovered ∧
        w.Breaks (selected explicit environment) discovered := by
  rw [result_configuration, ← unreported_discover_iff]
  cases hdiscover : w.discover.result with
  | error e => simp [Except.bind]
  | ok discovered =>
      have hnul : ∀ path, discovered = some path → path.hasNul = false := by
        rintro path rfl
        exact hasNul_of_hasFile (discovered_file hdiscover).2
      simpa [Except.bind] using unreported_layered_iff hnul

-- What loading comes to for every tree of files and every reader of YAML. A file is loaded to a
-- mapping or the user is told of its fault, unless it is one of those that `GivesUp` lists. The
-- search for a file finds the first that a directory has to offer, and passes over every project
-- file that is not usable, unless it comes before such a project file or to a directory that it
-- cannot look into; and the whole configuration ends without a word to the user exactly if the
-- search does, or what it does with the files then breaks.
theorem loading_contained (w : Surroundings) :
    (∀ path, Unreported (w.load path) ↔ w.GivesUp path) ∧
    (∀ start found, (w.findFrom start).result = .ok found ↔
      start.hasNul = false ∧ ¬w.Stuck (Path.settle w.cwd start).upwards ∧
        found = (Path.settle w.cwd start).upwards.findSome? w.offered?) ∧
    (∀ explicit environment, Unreported (w.configuration explicit environment).result ↔
      w.Lost ∨ ∃ discovered, w.discover.result = .ok discovered ∧
        w.Breaks (selected explicit environment) discovered) :=
  ⟨fun _ => unreported_load_iff, fun _ _ => result_findFrom_eq_ok_iff,
    fun _ _ => unreported_configuration_iff⟩

-- A project file with a byte that begins no character.
private def garbled : Surroundings :=
  ⟨⟨[(["work"], .directory), (["work", "pyproject.toml"], .file [0xFF])]⟩,
    ⟨"/", ["work"]⟩, ⟨"/", ["home"]⟩, fun _ => .error (.malformed none)⟩

theorem loading_contained_garbled :
    (¬∃ mapping, garbled.load ⟨"/", ["work", "pyproject.toml"]⟩ = .ok mapping) ∧
    Unreported (garbled.load ⟨"/", ["work", "pyproject.toml"]⟩) ∧
    (¬∃ found, (garbled.findFrom garbled.cwd).result = .ok found) ∧
    Unreported (garbled.configuration none none).result := by
  have hload : garbled.load ⟨"/", ["work", "pyproject.toml"]⟩ =
      .error (.undecodable ⟨0, ⟨1, 0xFF, .start⟩⟩) := by decide +kernel
  have hfind : (garbled.findFrom garbled.cwd).result =
      .error (.undecodable ⟨0, ⟨1, 0xFF, .start⟩⟩) := by decide +kernel
  have hconfiguration : (garbled.configuration none none).result =
      .error (.undecodable ⟨0, ⟨1, 0xFF, .start⟩⟩) := by decide +kernel
  rw [hload, hfind, hconfiguration]
  simp [LoadError.isReported]

end Surroundings

end Dialect.Config
