import Dialect.Proofs.Config.Containment
import Dialect.Proofs.Config.Merge.Lemmas
import Dialect.Proofs.File.Location
import Mathlib.Data.List.Find

namespace Dialect.Config

-- The first of some things that has a property; none if none has it.
def IsFirst {α : Type} (P : α → Prop) (xs : List α) : Option α → Prop
  | some a => ∃ front back, xs = front ++ a :: back ∧ P a ∧ ∀ b ∈ front, ¬P b
  | none => ∀ a ∈ xs, ¬P a

theorem isFirst_find? {α : Type} {P : α → Prop} {p : α → Bool} {xs : List α}
    (h : ∀ a ∈ xs, p a = true ↔ P a) : IsFirst P xs (xs.find? p) := by
  cases hfound : xs.find? p with
  | none => exact fun a ha hP => List.find?_eq_none.mp hfound a ha ((h a ha).mpr hP)
  | some a =>
      obtain ⟨hp, front, back, rfl, hfront⟩ := List.find?_eq_some_iff_append.mp hfound
      refine ⟨front, back, rfl, (h a (by simp)).mp hp, fun b hb hP => ?_⟩
      have hno := hfront b hb
      rw [(h b (by simp [hb])).mpr hP] at hno
      cases hno

namespace Surroundings

variable {w : Surroundings} {directory start path : Path} {name : String}

@[simp] theorem name_child (directory : Path) (name : String) :
    (directory.child name).name = name := by
  rw [Path.name, Path.child, List.getLast?_concat, Option.getD_some]

-- Whether a path with a name that is looked for can be used: a project file if it has a section
-- of ours that is not empty, any other one if it is a file, whatever it holds.
def Usable (w : Surroundings) (path : Path) : Prop :=
  if path.name = projectFile then
    ∃ document table, w.parse path = .ok (.value document) ∧
      lookup [toolKey, sectionKey] document = some (.obj table) ∧ table ≠ []
  else ∃ bytes, w.files.stat w.cwd path = .ok (.file bytes)

-- The paths of a directory that are looked at, in this order.
def candidatesIn (directory : Path) : List Path :=
  (fileNames ++ [projectFile]).map directory.child

-- The paths that are looked at from a directory on, up to the root.
def candidates (w : Surroundings) (start : Path) : List Path :=
  (Path.settle w.cwd start).upwards.flatMap candidatesIn

-- A project file that can be read to a document whose tools, if it has any, are a table, or of
-- which the user is told why it cannot be read.
def Orderly (w : Surroundings) (project : Path) : Prop :=
  w.hasFile project = true →
    (∃ document, w.parse project = .ok (.value document) ∧
      ∀ tools, document.member? toolKey = some tools → tools.IsMapping) ∨
    ∃ e, w.parse project = .error e ∧ e.isReported = true

theorem isUsable_iff {project : Path} : w.isUsable project = true ↔
    ∃ document table, w.parse project = .ok (.value document) ∧
      lookup [toolKey, sectionKey] document = some (.obj table) ∧ table ≠ [] := by
  cases hparse : w.parse project with
  | error e => simp [isUsable, projectSection, hparse, bind, Except.bind, Except.toOption]
  | ok content =>
      cases content with
      | knot k =>
          simp [isUsable, projectSection, hparse, bind, Except.bind, Except.toOption, throw,
            throwThe, MonadExceptOf.throw]
      | value document =>
          simp only [isUsable, projectSection, hparse, bind, Except.bind, lookup_eq_member?,
            Except.ok.injEq, Content.value.injEq, exists_and_left, exists_eq_left']
          cases hmember : document.member? toolKey with
          | none => simp [Entries.get?, Except.toOption, pure, Except.pure]
          | some tools =>
              cases tools with
              | obj entries =>
                  cases hsection : Entries.get? sectionKey entries with
                  | none => simp [hsection, Setting.member?, Except.toOption, pure, Except.pure]
                  | some found =>
                      cases found <;>
                        simp [hsection, Setting.member?, lookup, Except.toOption, pure,
                          Except.pure, throw, throwThe, MonadExceptOf.throw]
              | _ =>
                  simp [Setting.member?, Except.toOption, throw, throwThe, MonadExceptOf.throw]

theorem not_givesUp_of_orderly (hreach : ¬w.Unreachable directory)
    (h : w.Orderly (directory.child projectFile)) : ¬w.GivesUp (directory.child projectFile) := by
  intro hgives
  have hfile := hgives.hasFile_of_not_lookup (isAbsent_of_stat_child hreach List.mem_cons_self)
  rw [givesUp_project_iff hfile, unreported_projectSection_iff] at hgives
  obtain ⟨document, hparse, htools⟩ | ⟨e, hparse, hreported⟩ := h hfile
  · obtain hunreported | ⟨content, hparse', hamiss⟩ := hgives
    · simp [hparse] at hunreported
    · obtain rfl : Content.value document = content := by simpa [hparse] using hparse'
      obtain ⟨tools, hmember, hno⟩ := hamiss
      exact hno (htools tools hmember)
  · simp [hparse, hreported] at hgives

-- What a directory has to offer is the first of its paths that can be used.
theorem offered?_eq (directory : Path) : w.offered? directory =
    (candidatesIn directory).find? fun path =>
      if path.name = projectFile then w.isUsable path else w.hasFile path := by
  have hnames : ∀ name ∈ fileNames, name ≠ projectFile := by decide
  have hdotfiles : (fileNames.map directory.child).find? (fun path =>
      if path.name = projectFile then w.isUsable path else w.hasFile path) =
        (fileNames.map directory.child).find? w.hasFile := by
    refine List.find?_congr fun path hpath => ?_
    obtain ⟨name, hname, rfl⟩ := List.mem_map.mp hpath
    rw [name_child, if_neg (hnames name hname)]
  rw [candidatesIn, List.map_append, List.find?_append, hdotfiles, List.map_singleton,
    List.find?_singleton, name_child, if_pos rfl, offered?]

theorem findSome?_offered? (directories : List Path) : directories.findSome? w.offered? =
    (directories.flatMap candidatesIn).find? fun path =>
      if path.name = projectFile then w.isUsable path else w.hasFile path := by
  rw [List.find?_flatMap]
  exact congrArg (directories.findSome? ·) (funext offered?_eq)

-- What keeps those around a directory from being looked into keeps it from that itself.
theorem not_unreachable_of_mem_upwards (hnul : start.hasNul = false)
    (hreach : ¬w.Unreachable start) (h : directory ∈ start.upwards) :
    ¬w.Unreachable directory := by
  rintro ⟨-, hcause⟩
  refine hreach ⟨hnul, hcause.imp (fun hlong => ?_) ?_⟩
  · have hreach := Path.reach_le_of_mem_upwards h
    simp only [FileTree.isLong, Path.utf8ByteSize_text_child, decide_eq_true_eq] at hlong ⊢
    omega
  · rintro ⟨e, hlocate, habsent⟩
    obtain ⟨n, -, rfl⟩ := List.mem_map.mp h
    refine ⟨e, ?_, habsent⟩
    have happend := w.files.locate_append w.cwd start.root
      (start.parts.take (start.parts.length - n)) (start.parts.drop (start.parts.length - n))
    rw [List.take_append_drop, hlocate] at happend
    exact happend

-- A path that leads to something can be looked into, if there is room for a name behind it.
theorem not_unreachable_settle {node : FileNode} (h : w.files.stat w.cwd start = .ok node)
    (hroom : FileTree.isLong ((Path.settle w.cwd start).child ".panbridge.toml") = false) :
    ¬w.Unreachable (Path.settle w.cwd start) := by
  rintro ⟨-, hlong | ⟨e, hlocate, -⟩⟩
  · simp [hlong] at hroom
  · obtain ⟨-, l, hl, -⟩ := FileTree.stat_eq_ok_iff.mp h
    rw [FileTree.locate_settle hl] at hlocate
    cases hlocate

theorem usable_iff (path : Path) :
    (if path.name = projectFile then w.isUsable path else w.hasFile path) = true ↔
      w.Usable path := by
  unfold Usable
  split
  · exact isUsable_iff
  · exact hasFile_iff

-- A search can start at a directory if the system takes its name, as it is given and from the root,
-- what is in it can be asked for, and every project file in it and around it is in order.
structure Searchable (w : Surroundings) (start : Path) : Prop where
  named : start.hasNul = false ∧ (Path.settle w.cwd start).hasNul = false
  reached : ¬w.Unreachable (Path.settle w.cwd start)
  orderly : ∀ directory ∈ (Path.settle w.cwd start).upwards,
    w.Orderly (directory.child projectFile)

theorem result_findFrom (h : w.Searchable start) :
    ∃ found, (w.findFrom start).result = .ok found ∧
      IsFirst w.Usable (w.candidates start) found := by
  have hstuck : ¬w.Stuck (Path.settle w.cwd start).upwards := by
    refine not_stops_of_forall fun directory hdirectory hblocked => ?_
    have hreach := not_unreachable_of_mem_upwards h.named.2 h.reached hdirectory
    exact not_givesUp_of_orderly hreach (h.orderly directory hdirectory)
      (hblocked.resolve_left hreach).2
  refine ⟨_, result_findFrom_eq_ok_iff.mpr ⟨h.named.1, hstuck, rfl⟩, ?_⟩
  rw [findSome?_offered?]
  exact isFirst_find? fun path _ => usable_iff path

theorem result_findFrom_eq_none_iff (h : w.Searchable start) :
    (w.findFrom start).result = .ok none ↔ ∀ path ∈ w.candidates start, ¬w.Usable path := by
  obtain ⟨found, hfound, hfirst⟩ := result_findFrom h
  rw [hfound]
  cases found with
  | none => exact ⟨fun _ => hfirst, fun _ => rfl⟩
  | some path =>
      obtain ⟨front, back, hcandidates, husable, -⟩ := hfirst
      refine ⟨fun h => (nomatch h), fun hnone => absurd husable (hnone path ?_)⟩
      simp [hcandidates]

theorem result_discover (w : Surroundings) : w.discover.result =
    (w.findFrom w.cwd).result.bind fun found =>
      match found with
      | some path => .ok (some path)
      | none => w.firstFile (fileNames.map w.home.child) := by
  rw [discover, Search.result_andThen]
  congr 1
  funext found
  cases found <;> rfl

section Home

-- To look at the files from a directory up, it does not matter which directory is the home.
variable (w : Surroundings) (home : Path)

theorem isFile_home (path : Path) :
    Surroundings.isFile { w with home } path = w.isFile path := rfl

theorem decode_home (format : Format) (path : Path) (bytes : List UInt8) :
    Surroundings.decode { w with home } format path bytes = w.decode format path bytes := by
  cases format <;> rfl

theorem parse_home (path : Path) : Surroundings.parse { w with home } path = w.parse path := by
  simp only [parse, decode_home]

theorem projectSection_home (path : Path) :
    Surroundings.projectSection { w with home } path = w.projectSection path := by
  rw [projectSection, projectSection, parse_home]

theorem usableProject_home (directory : Path) :
    Surroundings.usableProject { w with home } directory = w.usableProject directory := by
  rw [usableProject, usableProject, isFile_home, projectSection_home]

theorem firstFile_home (paths : List Path) :
    Surroundings.firstFile { w with home } paths = w.firstFile paths := by
  induction paths with
  | nil => rfl
  | cons path rest ih => rw [firstFile, firstFile, ih, isFile_home]

theorem firstUsable_home (directories : List Path) :
    Surroundings.firstUsable { w with home } directories = w.firstUsable directories := by
  induction directories with
  | nil => rfl
  | cons directory rest ih =>
      rw [firstUsable, firstUsable, ih, usableIn, usableIn, firstFile_home, usableProject_home]

theorem findFrom_home (start : Path) :
    Surroundings.findFrom { w with home } start = w.findFrom start := by
  have hfirst : ∀ directory : Path, Surroundings.firstUsable { w with home } directory.upwards =
      w.firstUsable directory.upwards := fun directory => firstUsable_home w home _
  unfold findFrom
  simp only [hfirst]
  rfl

end Home

-- Which file is found. From a directory on that can be searched from, it is the first usable one
-- by the order of the directories and in each of them by that of the names, and there is none
-- exactly if none of them is usable. In the home directory a file is looked for only then, by the
-- same order of names.
theorem discovery_order (w : Surroundings) :
    (∀ start, w.Searchable start →
      (∃ found, (w.findFrom start).result = .ok found ∧
        IsFirst w.Usable (w.candidates start) found) ∧
      ((w.findFrom start).result = .ok none ↔ ∀ path ∈ w.candidates start, ¬w.Usable path)) ∧
    ∀ home,
      (∀ path, (w.findFrom w.cwd).result = .ok (some path) →
        (Surroundings.discover { w with home }).result = .ok (some path)) ∧
      ((w.findFrom w.cwd).result = .ok none → ¬w.Unreachable home →
        ∃ found, (Surroundings.discover { w with home }).result = .ok found ∧
          IsFirst (fun path => ∃ bytes, w.files.stat w.cwd path = .ok (.file bytes))
            (fileNames.map home.child) found) := by
  refine ⟨fun start h => ⟨result_findFrom h, result_findFrom_eq_none_iff h⟩, fun home => ⟨?_, ?_⟩⟩
  · intro path hfound
    rw [result_discover, findFrom_home, hfound]
    rfl
  · intro hfound hreach
    refine ⟨(fileNames.map home.child).find? w.hasFile, ?_, isFirst_find? fun _ _ => hasFile_iff⟩
    rw [result_discover, findFrom_home, hfound]
    exact firstFile_of_reachable (w := { w with home }) hreach

-- A directory with the name of a file that is looked for, a project file with nothing of ours,
-- one with settings of ours around it, and a file beyond that one.
private def nested : Surroundings :=
  ⟨⟨[([".panbridge.toml"], .file []), (["home"], .directory),
      (["home", ".panbridge.yml"], .file []), (["work"], .directory),
      (["work", "pyproject.toml"], .file (Utf8.encode "[tool.panbridge]\ntimeout = 5\n")),
      (["work", "sub"], .directory), (["work", "sub", ".panbridge.toml"], .directory),
      (["work", "sub", "pyproject.toml"], .file (Utf8.encode "[tool.other]\n"))]⟩,
    ⟨"/", ["work", "sub"]⟩, ⟨"/", ["home"]⟩, fun _ => .error (.malformed none)⟩

theorem discovery_order_nested : nested.Searchable nested.cwd ∧
    (nested.findFrom nested.cwd).result = .ok (some ⟨"/", ["work", "pyproject.toml"]⟩) ∧
    IsFirst nested.Usable (nested.candidates nested.cwd)
      (some ⟨"/", ["work", "pyproject.toml"]⟩) ∧
    nested.discover.result = .ok (some ⟨"/", ["work", "pyproject.toml"]⟩) := by
  have hinner : nested.parse ⟨"/", ["work", "sub", "pyproject.toml"]⟩ =
      .ok (.value (.obj [("tool", .obj [("other", .obj [])])])) := by decide +kernel
  have houter : nested.parse ⟨"/", ["work", "pyproject.toml"]⟩ =
      .ok (.value (.obj [("tool", .obj [("panbridge", .obj [("timeout", .int 5)])])])) := by
    decide +kernel
  have hroot : nested.hasFile ⟨"/", ["pyproject.toml"]⟩ = false := by decide +kernel
  have hsearchable : nested.Searchable nested.cwd := by
    have hcwd : nested.files.stat nested.cwd nested.cwd = .ok .directory := by decide +kernel
    refine ⟨by decide +kernel, not_unreachable_settle hcwd (by decide +kernel), ?_⟩
    have hupwards : (Path.settle nested.cwd nested.cwd).upwards =
        [⟨"/", ["work", "sub"]⟩, ⟨"/", ["work"]⟩, ⟨"/", []⟩] := by decide +kernel
    rw [hupwards]
    simp only [List.forall_mem_cons, List.not_mem_nil, false_imp_iff, implies_true, and_true]
    refine ⟨fun _ => .inl ⟨_, hinner, ?_⟩, fun _ => .inl ⟨_, houter, ?_⟩, fun h => ?_⟩
    · rintro _ ⟨⟩
      exact Setting.isMapping_obj _
    · rintro _ ⟨⟩
      exact Setting.isMapping_obj _
    · exact absurd (h.symm.trans hroot) (by decide)
  have hfound : (nested.findFrom nested.cwd).result =
      .ok (some ⟨"/", ["work", "pyproject.toml"]⟩) := by decide +kernel
  obtain ⟨hfind, hdiscover⟩ := discovery_order nested
  obtain ⟨⟨found, hresult, hfirst⟩, -⟩ := hfind nested.cwd hsearchable
  obtain rfl : some ⟨"/", ["work", "pyproject.toml"]⟩ = found := by
    simpa [hfound] using hresult
  exact ⟨hsearchable, hfound, hfirst, (hdiscover nested.home).1 _ hfound⟩

end Surroundings

end Dialect.Config
