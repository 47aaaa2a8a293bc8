import Dialect.Proofs.Cli.Job
import Dialect.Proofs.File.Tree
import Dialect.Proofs.Token.Document

namespace Dialect

-- The metadata of a document is an object, and any object with a tag is a token.
theorem Document.metadata_of_ofText {text : Text} {d : Document} (h : ofText text = .ok d) :
    (∃ entries, d.metadata = .map entries) ∨ ∃ tag payload, d.metadata = .token tag payload := by
  unfold ofText at h
  split at h
  · cases h
  · rename_i j hread
    obtain ⟨entries, rfl, -, items, members, -, -, hmetadata⟩ := (ofJson_eq_ok_iff j d).mp h
    by_cases htagged : Value.tagKey ∈ Entries.keys members
    · obtain ⟨tag, payload, hvalue, -⟩ := Value.exists_of_ofJson_tagged htagged hmetadata
      exact .inr ⟨tag, payload, hvalue⟩
    · obtain ⟨values, hvalue, -⟩ := Value.exists_of_ofJson_untagged htagged hmetadata
      exact .inl ⟨values, hvalue⟩

namespace Log.Writer

variable {w : Writer} {r : Record}

-- Nothing is copied to a file.
def OnlyConsole (w : Writer) : Prop :=
  ∀ h ∈ w.setup.handlers, h.sink = .console

theorem files_foldl_handle (handlers : List Handler) (h : ∀ h ∈ handlers, h.sink = .console)
    (w : Writer) : (handlers.foldl (fun w h => w.handle r h) w).files = w.files := by
  induction handlers generalizing w with
  | nil => rfl
  | cons handler rest ih =>
      obtain ⟨hsink, hrest⟩ := List.forall_mem_cons.mp h
      rw [List.foldl_cons, ih hrest, handle, hsink]
      split_ifs <;> rfl

theorem files_log (h : w.OnlyConsole) : (w.log r).files = w.files := by
  unfold log
  split_ifs with hadmits hempty hlevel
  · rfl
  · rfl
  · exact files_foldl_handle _ h w
  · rfl

theorem onlyConsole_configure (level : Level) (layout : Layout) :
    (w.configure level none layout).OnlyConsole := by
  intro h hmem
  obtain rfl := List.mem_singleton.mp hmem
  rfl

end Log.Writer

namespace Cli

-- The document that a command reads, if it reads one.
def Command.source? : Command → Option String
  | .text source => some source
  | .title source => some source
  | _ => none

namespace Machine

variable {m : Machine} {args : List String} {s : Settings} {command : Command} {source : String}
  {config : Entries Key Setting} {o : Engine.Options} {files : FileTree} {d : Document}

-- A run whose command line, configuration, log and options are in order comes down to its
-- command.
theorem run_eq (hparse : parse args = .ok (s, command)) (hconfig : m.configuration s = .ok config)
    (hlog : m.writer.rejects s.logFile = false) (hoptions : optionsFor s m.program config = .ok o) :
    ∃ w, m.run args = Progress.outcome ((Progress.start w).perform (m.runCommand o command)) ∧
      (s.logFile = none → w.files = m.surroundings.files) := by
  simp only [run, hparse, runCommandLine, hconfig, runConfigured, hlog, hoptions]
  refine ⟨_, rfl, fun hfile => ?_⟩
  rw [hfile, Log.Writer.files_log (Log.Writer.onlyConsole_configure _ _)]
  rfl

-- The bytes that a run reads, on the standard input or in a file.
def HasInput (m : Machine) (files : FileTree) (source : String) (bytes : List UInt8) : Prop :=
  if source = "-" then m.input = bytes
  else files.stat m.surroundings.cwd (Path.ofText source) = .ok (.file bytes)

-- They are a text in UTF-8, and it writes a document.
def Offers (m : Machine) (files : FileTree) (source : String) (d : Document) : Prop :=
  ∃ raw, m.HasInput files source (Utf8.encode raw) ∧
    Document.ofText (Text.ofChars (Text.unifyNewlines raw.toList)) = .ok d

-- No file has such a name, since there is a character in it that ends names.
def Unnameable (source : String) : Prop :=
  source ≠ "-" ∧ (Path.ofText source).hasNul = true

theorem document_of_hasInput {bytes : List UInt8} (h : m.HasInput files source bytes) :
    m.document files source = ((textOfBytes bytes).mapError (.undecodable source)).bind fun text =>
      (Document.ofText (Text.of text)).mapError .malformed := by
  unfold HasInput at h
  split_ifs at h with hsource
  · simp only [document, hsource, if_true, h]
    rfl
  · simp only [document, hsource, if_false, FileTree.readBytes_eq_ok_iff.mpr h]
    rfl

theorem not_hasInput_of_unnameable (h : Unnameable source) (bytes : List UInt8) :
    ¬m.HasInput files source bytes := by
  rw [HasInput, if_neg h.1, FileTree.stat_eq_nulByte_iff.mpr h.2]
  simp

theorem document_of_unnameable (h : Unnameable source) :
    m.document files source = .error (.fault .inputName) := by
  simp only [document, h.1, if_false, FileTree.readBytes_eq_nulByte_iff.mpr h.2]
  rfl

theorem document_of_not_hasInput (h : ∀ bytes, ¬m.HasInput files source bytes)
    (hname : ¬Unnameable source) :
    ∃ e, m.document files source = .error (.unreadable (Path.ofText source) e) := by
  unfold HasInput at h
  split_ifs at h with hsource
  · exact absurd rfl (h m.input)
  · cases hread : files.readBytes m.surroundings.cwd (Path.ofText source) with
    | ok bytes => exact absurd (FileTree.readBytes_eq_ok_iff.mp hread) (h bytes)
    | error e =>
        cases e with
        | nulByte => exact absurd ⟨hsource, FileTree.readBytes_eq_nulByte_iff.mp hread⟩ hname
        | os e =>
            refine ⟨e, ?_⟩
            simp only [document, hsource, if_false, hread]
            rfl

theorem document_of_offers (h : m.Offers files source d) : m.document files source = .ok d := by
  obtain ⟨raw, hinput, hread⟩ := h
  rw [document_of_hasInput hinput, textOfBytes_eq_ok_iff.mpr ⟨raw, rfl, rfl⟩]
  simp only [Except.mapError, Except.bind, Text.of, String.toList_ofList, hread]

-- Reading a document either gives what is there or fails with an error that the user is told, if
-- there can be a file of that name at all.
theorem document_cases (m : Machine) (files : FileTree) (source : String) :
    (∃ d, m.document files source = .ok d ∧ m.Offers files source d ∧ ¬Unnameable source) ∨
      (∀ d, ¬m.Offers files source d) ∧
        (Unnameable source ∧ m.document files source = .error (.fault .inputName) ∨
          ¬Unnameable source ∧ ∃ trouble, m.document files source = .error trouble ∧
            trouble.ending = .exit .badInput) := by
  have hno : ∀ trouble, m.document files source = .error trouble →
      ∀ d, ¬m.Offers files source d := by
    intro trouble h d hoffers
    rw [document_of_offers hoffers] at h
    cases h
  by_cases hinput : ∃ bytes, m.HasInput files source bytes
  · obtain ⟨bytes, hinput⟩ := hinput
    have hname : ¬Unnameable source := fun h => not_hasInput_of_unnameable h bytes hinput
    cases htext : textOfBytes bytes with
    | error e =>
        have h : m.document files source = .error (.undecodable source e) := by
          rw [document_of_hasInput hinput, htext]
          rfl
        exact .inr ⟨hno _ h, .inr ⟨hname, _, h, rfl⟩⟩
    | ok text =>
        cases hread : Document.ofText (Text.of text) with
        | error cause =>
            have h : m.document files source = .error (.malformed cause) := by
              simp only [document_of_hasInput hinput, htext, hread, Except.mapError, Except.bind]
            exact .inr ⟨hno _ h, .inr ⟨hname, _, h, rfl⟩⟩
        | ok d =>
            obtain ⟨raw, rfl, rfl⟩ := textOfBytes_eq_ok_iff.mp htext
            rw [Text.of, String.toList_ofList] at hread
            have hoffers : m.Offers files source d := ⟨raw, hinput, hread⟩
            exact .inl ⟨d, document_of_offers hoffers, hoffers, hname⟩
  · by_cases hname : Unnameable source
    · have h := @document_of_unnameable m source files hname
      exact .inr ⟨hno _ h, .inl ⟨hname, h⟩⟩
    · obtain ⟨e, h⟩ := document_of_not_hasInput (not_exists.mp hinput) hname
      exact .inr ⟨hno _ h, .inr ⟨hname, _, h, rfl⟩⟩

theorem Offers.eq_iff (h : m.Offers files source d) (d' : Document) :
    m.Offers files source d' ↔ d' = d := by
  constructor
  · exact fun h' => Except.ok.inj ((document_of_offers h').symm.trans (document_of_offers h))
  · exact fun hd' => hd' ▸ h

-- The lines that a command has to write about a document: one for each block, or the title.
inductive Tells : Command → Document → List Text → Prop
  | text (source : String) (d : Document) :
      Tells (.text source) d (d.roots.map fun block => Token.collectText [block])
  | title {d : Document} {title : Text} (source : String) (h : d.title = .ok title) :
      Tells (.title source) d [title]

theorem Tells.eq_iff {lines : List Text} (h : Tells command d lines) (lines' : List Text) :
    Tells command d lines' ↔ lines' = lines := by
  constructor
  · intro h'
    cases h with
    | text source d =>
        cases h'
        rfl
    | title source htitle =>
        cases h' with
        | title _ htitle' => rw [Except.ok.inj (htitle.symm.trans htitle')]
  · exact fun hlines => hlines ▸ h

-- It has none to write: the title is asked for, and the metadata is a token.
def Baffles (command : Command) (d : Document) : Prop :=
  (∃ source, command = .title source) ∧ ∃ tag payload, d.metadata = .token tag payload

theorem title_of_token {tag : Text} {payload : Value} (h : d.metadata = .token tag payload) :
    d.title = .error .metadataIsToken := by
  simp only [Document.title, h]

theorem Tells.not_baffles {lines : List Text} (h : Tells command d lines) : ¬Baffles command d := by
  rintro ⟨⟨source, rfl⟩, tag, payload, hmetadata⟩
  cases h with
  | title _ htitle =>
      rw [title_of_token hmetadata] at htitle
      cases htitle

-- There is always one or the other.
theorem exists_tells_of_offers (hreads : command.source? = some source)
    (h : m.Offers files source d) (hnot : ¬Baffles command d) : ∃ lines, Tells command d lines := by
  obtain ⟨raw, -, htext⟩ := h
  cases command with
  | text source => exact ⟨_, .text source d⟩
  | title source =>
      obtain ⟨entries, hmetadata⟩ := (Document.metadata_of_ofText htext).resolve_right
        fun htoken => hnot ⟨⟨source, rfl⟩, htoken⟩
      have htitle : ∃ title, d.title = .ok title := by
        simp only [Document.title, hmetadata]
        split
        · split_ifs
          · split <;> exact ⟨_, rfl⟩
          · exact ⟨_, rfl⟩
        · exact ⟨_, rfl⟩
      obtain ⟨title, htitle⟩ := htitle
      exact ⟨_, .title source htitle⟩
  | resolve request view => cases hreads
  | extensions dialect => cases hreads
  | formatWith format first last => cases hreads

section Perform

variable {p : Progress} {lines : List Text} {trouble : Trouble}

theorem perform_readDocument (p : Progress) (source : String) :
    p.perform (m.readDocument source) = (m.document p.writer.files source, p) := by
  rw [readDocument, Progress.perform_bind, Progress.perform_get]
  exact p.perform_lift _

-- A command about a document that is there writes its lines, as far as they can be encoded.
theorem perform_of_tells (hreads : command.source? = some source)
    (hread : m.document p.writer.files source = .ok d) (h : Tells command d lines) :
    p.perform (m.runCommand o command) =
      (if lines.all Text.isPlain then .ok () else .error (.fault .unprintable),
        { p with output := p.output ++ printed lines }) := by
  cases h with
  | text source' =>
      obtain rfl : source' = source := Option.some.inj hreads
      rw [runCommand, runText, Progress.perform_bind, perform_readDocument, hread]
      exact p.perform_prints (fun block => Token.collectText [block]) d.roots
  | title source' htitle =>
      obtain rfl : source' = source := Option.some.inj hreads
      rename_i title
      rw [runCommand, runTitle, Progress.perform_bind, perform_readDocument, hread]
      simp only [htitle, Progress.perform_print, List.all_cons, List.all_nil, Bool.and_true,
        ← Text.isSome_string?, printed]
      cases title.string? <;> simp

theorem perform_of_baffles (hreads : command.source? = some source)
    (hread : m.document p.writer.files source = .ok d) (h : Baffles command d) :
    p.perform (m.runCommand o command) = (.error (.fault (.title .metadataIsToken)), p) := by
  obtain ⟨⟨source', rfl⟩, tag, payload, hmetadata⟩ := h
  obtain rfl : source' = source := Option.some.inj hreads
  rw [runCommand, runTitle, Progress.perform_bind, perform_readDocument, hread]
  simp only [title_of_token hmetadata]
  rfl

theorem perform_of_error (hreads : command.source? = some source)
    (hread : m.document p.writer.files source = .error trouble) :
    p.perform (m.runCommand o command) = (.error trouble, p) := by
  cases command with
  | text source' =>
      obtain rfl : source' = source := Option.some.inj hreads
      rw [runCommand, runText, Progress.perform_bind, perform_readDocument, hread]
  | title source' =>
      obtain rfl : source' = source := Option.some.inj hreads
      rw [runCommand, runTitle, Progress.perform_bind, perform_readDocument, hread]
  | resolve request view => cases hreads
  | extensions dialect => cases hreads
  | formatWith format first last => cases hreads

-- What a command about a document comes to, whatever there is to read.
theorem perform_cases (m : Machine) (p : Progress) (o : Engine.Options)
    (hreads : command.source? = some source) :
    (∃ d lines, m.Offers p.writer.files source d ∧ Tells command d lines ∧ ¬Unnameable source ∧
      p.perform (m.runCommand o command) =
        (if lines.all Text.isPlain then .ok () else .error (.fault .unprintable),
          { p with output := p.output ++ printed lines })) ∨
    (∃ d, m.Offers p.writer.files source d ∧ Baffles command d ∧ ¬Unnameable source ∧
      p.perform (m.runCommand o command) = (.error (.fault (.title .metadataIsToken)), p)) ∨
    (∀ d, ¬m.Offers p.writer.files source d) ∧ ∃ trouble,
      p.perform (m.runCommand o command) = (.error trouble, p) ∧
        (Unnameable source ∧ trouble = .fault .inputName ∨
          ¬Unnameable source ∧ trouble.ending = .exit .badInput) := by
  obtain ⟨d, hread, hoffers, hname⟩ | ⟨hnone, hfails⟩ := m.document_cases p.writer.files source
  · by_cases hbaffles : Baffles command d
    · exact .inr (.inl ⟨d, hoffers, hbaffles, hname, perform_of_baffles hreads hread hbaffles⟩)
    · obtain ⟨lines, htells⟩ := exists_tells_of_offers hreads hoffers hbaffles
      exact .inl ⟨d, lines, hoffers, htells, hname, perform_of_tells hreads hread htells⟩
  · obtain ⟨hname, hread⟩ | ⟨hname, trouble, hread, hending⟩ := hfails
    · exact .inr (.inr ⟨hnone, _, perform_of_error hreads hread, .inl ⟨hname, rfl⟩⟩)
    · exact .inr (.inr ⟨hnone, _, perform_of_error hreads hread, .inr ⟨hname, hending⟩⟩)

-- It writes nothing but output and starts no program.
theorem perform_frame (m : Machine) (p : Progress) (o : Engine.Options)
    (hreads : command.source? = some source) :
    (p.perform (m.runCommand o command)).2.writer = p.writer ∧
      (p.perform (m.runCommand o command)).2.launches = p.launches := by
  obtain ⟨d, lines, -, -, -, h⟩ | ⟨d, -, -, -, h⟩ | ⟨-, trouble, h, -⟩ := m.perform_cases p o hreads
  all_goals
    rw [h]
    exact ⟨rfl, rfl⟩

end Perform

-- Whatever bytes there are to read, or if there are none: a run that asks for the text or the
-- title ends well exactly if they write a document and every line about it can be encoded. It
-- refuses them if they write none, and then it has written nothing. Three more ends are left, with
-- errors that nobody handles: the metadata of which the title is asked for is a token, a line
-- cannot be encoded, or no file can have the name. What is written is all lines up to the first
-- that cannot be encoded. The files are those at the end, which no log changes if none is asked
-- for.
theorem run_document (hparse : parse args = .ok (s, command))
    (hcommand : command = .text source ∨ command = .title source)
    (hconfig : m.configuration s = .ok []) (hlog : m.writer.rejects s.logFile = false)
    (hoptions : optionsFor s m.program [] = .ok o) :
    ((m.run args).ending = .exit .success ↔
      ∃ d lines, m.Offers (m.run args).files source d ∧ Tells command d lines ∧
        ∀ line ∈ lines, line.isPlain = true) ∧
    ((m.run args).ending = .exit .badInput ↔
      (¬∃ d, m.Offers (m.run args).files source d) ∧ ¬Unnameable source) ∧
    ((m.run args).ending = .fault (.title .metadataIsToken) ↔
      ∃ d, m.Offers (m.run args).files source d ∧ Baffles command d) ∧
    ((m.run args).ending = .fault .unprintable ↔
      ∃ d lines, m.Offers (m.run args).files source d ∧ Tells command d lines ∧
        ∃ line ∈ lines, line.isPlain = false) ∧
    ((m.run args).ending = .fault .inputName ↔ Unnameable source) ∧
    (∀ d lines, m.Offers (m.run args).files source d → Tells command d lines →
      (m.run args).output = printed lines) ∧
    ((m.run args).ending ≠ .exit .success → (m.run args).ending ≠ .fault .unprintable →
      (m.run args).output = "") ∧
    (s.logFile = none → (m.run args).files = m.surroundings.files) := by
  have hreads : command.source? = some source := by
    obtain rfl | rfl := hcommand <;> rfl
  obtain ⟨w, hrun, hfiles⟩ := run_eq hparse hconfig hlog hoptions
  have hframe := (m.perform_frame (Progress.start w) o hreads).1
  have hend : (m.run args).files = w.files := by
    rw [hrun, Progress.files_outcome, hframe]
    rfl
  rw [hend]
  obtain ⟨d, lines, hoffers, htells, hname, h⟩ | ⟨d, hoffers, hbaffles, hname, h⟩ |
    ⟨hnone, trouble, h, hwhy⟩ := m.perform_cases (Progress.start w) o hreads
  · have hone : ∀ d', m.Offers w.files source d' ↔ d' = d := hoffers.eq_iff
    have houtput : (m.run args).output = printed lines := by
      rw [hrun, h, Progress.output_outcome]
      exact String.empty_append
    have hwritten : ∀ d' lines', d' = d → Tells command d' lines' →
        printed lines = printed lines' := by
      rintro d' lines' rfl h'
      rw [(htells.eq_iff lines').mp h']
    have hending : (m.run args).ending =
        if lines.all Text.isPlain then .exit .success else .fault .unprintable := by
      rw [hrun, h]
      split_ifs <;> rfl
    rw [hending, houtput]
    cases hall : lines.all Text.isPlain with
    | true =>
        have hplain := List.all_eq_true.mp hall
        simpa [hone, htells.eq_iff, htells.not_baffles, hname] using ⟨hplain, hwritten, hfiles⟩
    | false =>
        have hhalf := List.all_eq_false.mp hall
        simp only [Bool.not_eq_true] at hhalf
        simpa [hone, htells.eq_iff, htells.not_baffles, hname] using ⟨hhalf, hwritten, hfiles⟩
  · have hone : ∀ d', m.Offers w.files source d' ↔ d' = d := hoffers.eq_iff
    have htells : ∀ lines, ¬Tells command d lines := fun lines h' => h'.not_baffles hbaffles
    have houtput : (m.run args).output = "" := by
      rw [hrun, h]
      rfl
    have hwritten : ∀ d' lines, d' = d → Tells command d' lines → printed lines = "" := by
      rintro d' lines rfl h'
      exact absurd h' (htells lines)
    have hending : (m.run args).ending = .fault (.title .metadataIsToken) := by
      rw [hrun, h]
      rfl
    rw [hending, houtput]
    simpa [hone, htells, hbaffles, hname] using ⟨hwritten, hfiles⟩
  · have hoffers : ∀ d, ¬m.Offers w.files source d := hnone
    have houtput : (m.run args).output = "" := by
      rw [hrun, h]
      rfl
    have hending : (m.run args).ending = trouble.ending := by
      rw [hrun, h]
      rfl
    rw [hending, houtput]
    obtain ⟨hname, rfl⟩ | ⟨hname, hbad⟩ := hwhy
    · simpa [hoffers, hname, Trouble.ending] using hfiles
    · simpa [hoffers, hname, hbad] using hfiles

-- The same bytes on the standard input and in a file.
private def reader (content : String) : Machine where
  surroundings :=
    { files := ⟨[(["work"], .directory), (["work", "d.json"], .file (Utf8.encode content))]⟩
      cwd := ⟨"/", ["work"]⟩
      home := ⟨"/", ["home"]⟩
      yaml := fun _ => .error (.malformed none) }
  configPath := none
  program := none
  input := Utf8.encode content
  programs := []
  clock := ""
  alarm := fun _ => ""
  draw := fun _ => none

private def titled : String :=
  "\x7b\"meta\": \x7b\"title\": \x7b\"t\": \"MetaString\", \"c\": \"é\"\x7d\x7d,\r\n" ++
  "\"blocks\": []\x7d"

private def titleArgs : List String := ["--no-config", "--pandoc", "p", "title", "-"]

private def titleSettings : Settings :=
  { Settings.default with noConfig := true, program := some "p" }

theorem run_document_titled :
    parse titleArgs = .ok (titleSettings, .title "-") ∧
    (reader titled).configuration titleSettings = .ok [] ∧
    (reader titled).writer.rejects titleSettings.logFile = false ∧
    optionsFor titleSettings (reader titled).program [] = .ok ⟨.str (Text.of "p"), none, []⟩ ∧
    ((reader titled).run titleArgs).ending = .exit .success ∧
    ((reader titled).run titleArgs).output = "é\n" := by
  have hparse : parse titleArgs = .ok (titleSettings, .title "-") := by decide +kernel
  have hconfig : (reader titled).configuration titleSettings = .ok [] := rfl
  have hoptions : optionsFor titleSettings (reader titled).program [] =
      .ok ⟨.str (Text.of "p"), none, []⟩ := by decide +kernel
  have hread : ∃ d, Document.ofText (Text.ofChars (Text.unifyNewlines titled.toList)) = .ok d ∧
      d.title = .ok (Text.of "é") :=
    ⟨⟨[], [], .map [("title", .token "MetaString" (.str "é"))]⟩, by decide +kernel, rfl⟩
  obtain ⟨d, hread, htitle⟩ := hread
  obtain ⟨hsuccess, -, -, -, -, houtput, -⟩ :=
    run_document hparse (.inr (rfl : _ = Command.title "-")) hconfig rfl hoptions
  have hoffers (files : FileTree) : (reader titled).Offers files "-" d := ⟨titled, rfl, hread⟩
  have htells : Tells (.title "-") d [Text.of "é"] := .title "-" htitle
  exact ⟨hparse, hconfig, rfl, hoptions,
    hsuccess.mpr ⟨d, _, hoffers _, htells, by decide⟩, houtput d _ (hoffers _) htells⟩

-- The metadata has an entry of the name t.
private def tagged : String :=
  "\x7b\"meta\": \x7b\"t\": \"x\"\x7d, \"blocks\": []\x7d"

private def taggedRun : Outcome :=
  (reader tagged).run ["--no-config", "title", "d.json"]

-- The second of two blocks holds half a surrogate pair.
private def halved : String :=
  "\x7b\"blocks\": [\x7b\"t\": \"Str\", \"c\": \"a\"\x7d, " ++
  "\x7b\"t\": \"Str\", \"c\": \"\\ud800\"\x7d]\x7d"

private def halvedRun : Outcome :=
  (reader halved).run ["--no-config", "text", "d.json"]

theorem run_document_tagged :
    ((∃ d, (reader tagged).Offers taggedRun.files "d.json" d) ∧
      taggedRun.ending = .fault (.title .metadataIsToken)) ∧
    (∃ d, (reader halved).Offers halvedRun.files "d.json" d) ∧
      halvedRun.ending = .fault .unprintable ∧ halvedRun.output = "a\n" := by
  have htagged : taggedRun.files.stat (reader tagged).surroundings.cwd (Path.ofText "d.json") =
      .ok (.file (Utf8.encode tagged)) := by decide +kernel
  have hhalved : halvedRun.files.stat (reader halved).surroundings.cwd (Path.ofText "d.json") =
      .ok (.file (Utf8.encode halved)) := by decide +kernel
  have hreadTagged : Document.ofText (Text.ofChars (Text.unifyNewlines tagged.toList)) =
      .ok ⟨[], [], .token "x" .null⟩ := by decide +kernel
  have hreadHalved : Document.ofText (Text.ofChars (Text.unifyNewlines halved.toList)) =
      .ok ⟨[⟨"Str", .str "a"⟩, ⟨"Str", .str [.half 0]⟩], [], .map []⟩ := by decide +kernel
  refine ⟨⟨⟨_, tagged, htagged, hreadTagged⟩, ?_⟩, ⟨_, halved, hhalved, hreadHalved⟩, ?_, ?_⟩
  all_goals decide +kernel

end Machine

end Cli

end Dialect
