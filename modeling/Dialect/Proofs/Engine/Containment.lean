import Dialect.Proofs.Engine.Session
import Dialect.Proofs.Text.Utf8

namespace Dialect.Engine

open Session (inputFault? argumentFault?)

-- The operation that a call is about. Negotiating a format may take more than one.
def Call.operation? : Call → Option Operation
  | .listExtensions _ => some .listExtensions
  | .version => some .version
  | .markdownToAst _ _ _ => some .markdownToAst
  | .astToMarkdown _ _ _ => some .astToMarkdown
  | .resolve _ => none

-- The arguments that the program is started with for a call, behind its own name.
def Call.arguments (o : Options) : Call → List Text
  | .listExtensions dialect => ["--list-extensions=" ++ dialect]
  | .version => ["--version"]
  | .markdownToAst _ format options =>
    ([("--from" : Text), format, "--to", "json"]) ++ o.extraArgs ++ options
  | .astToMarkdown _ format options =>
    ([("--from" : Text), "json", "--to", format]) ++ o.extraArgs ++ options
  | .resolve _ => []

def Call.input : Call → Option Text
  | .markdownToAst markdown _ _ => some markdown
  | .astToMarkdown d _ _ => some (d.text none)
  | _ => none

-- An argument that the system takes: it can be encoded and has no character that would end it.
def Argument (argument : Text) : Prop :=
  (∀ c ∈ argument, Code.isForSystem c = true) ∧ .char (Char.ofNat 0) ∉ argument

-- The input of a program can be encoded, and the time for it can be counted.
def Fed (o : Options) (input : Option Text) : Prop :=
  (∀ text, input = some text → text.isPlain = true) ∧
    ∀ t, o.timeout = some t → Options.isOutOfRange t = false

-- The system takes every argument of a call, and a program that runs can be fed.
def Call.Fits (o : Options) (program : Text) (b : Behaviour) (call : Call) : Prop :=
  (∀ argument ∈ program :: call.arguments o, Argument argument) ∧
    (b.starts = true → Fed o call.input)

-- The failures that a call can have beside those of the program.
inductive Failure.IsFault : Failure → Prop
  | unencodable : IsFault .unencodable
  | nulByte : IsFault .nulByte
  | overflow : IsFault .overflow

-- What goes wrong in a call that does not fit.
def Call.fault? (o : Options) (program : Text) (b : Behaviour) (call : Call) : Option Failure :=
  ((program :: call.arguments o).findSome? argumentFault?).or (b.fault? o call.input)

-- What a call makes of the text that the program wrote: the text itself, the first line of it,
-- or the document that it writes, which is the only case that can fail.
inductive Call.Reads : Call → String → Except Failure Reply → Prop
  | extensions {dialect : Text} {text : String} :
      Reads (.listExtensions dialect) text (.ok (.text text))
  | version {text : String} :
      Reads .version text (.ok (.text (Text.trim (Text.firstLine text))))
  | document {markdown format : Text} {text : String} {options : List Text} {d : Document} :
      Document.ofText (Text.of text) = .ok d →
      Reads (.markdownToAst markdown format options) text (.ok (.document d))
  | noDocument {markdown format : Text} {text : String} {options : List Text} {fault : Malformed} :
      Document.ofText (Text.of text) = .error fault →
      Reads (.markdownToAst markdown format options) text
        (.error (.engine ⟨.markdownToAst, .notDocument fault⟩))
  | markdown {d : Document} {format : Text} {text : String} {options : List Text} :
      Reads (.astToMarkdown d format options) text (.ok (.text text))

theorem Call.Reads.unique {call : Call} {text : String} {result result' : Except Failure Reply}
    (h : call.Reads text result) (h' : call.Reads text result') : result = result' := by
  cases h <;> cases h' <;> simp_all

theorem Call.Reads.exists_engine {call : Call} {operation : Operation} {text : String}
    {failure : Failure} (hcall : call.operation? = some operation)
    (h : call.Reads text (.error failure)) :
    ∃ e, failure = .engine e ∧ e.operation = operation := by
  cases h
  cases hcall
  exact ⟨_, rfl, rfl⟩

-- The program ends with exit code zero, and its output is a text in UTF-8.
def Behaviour.Writes (b : Behaviour) (text : String) : Prop :=
  ∃ complaint, b = .ends (Utf8.encode text) complaint 0

section Answer

variable {o : Options} {program : Text} {operation : Operation} {b : Behaviour}

theorem answer_eq_ok_iff {cancel : Bool} {text : String} :
    b.answer o program operation cancel = .ok text ↔ b.Writes text := by
  unfold Behaviour.Writes
  cases b with
  | fails error => simp [Behaviour.answer]
  | ends output complaint code =>
      by_cases hcode : code = 0
      · have hdecode := @Utf8.decode_eq_ok_iff output text
        subst hcode
        cases h : Utf8.decode output <;> simp_all [Behaviour.answer]
      · simp [Behaviour.answer, hcode]
  | hangs exited vanished =>
      cases cancel <;> cases htime : o.timeout <;> simp [Behaviour.answer, htime]

-- A program that neither ends nor has a time to end in is the only one that nothing is said of.
theorem exists_engine_of_answer {failure : Failure}
    (hends : ∀ exited vanished, b = .hangs exited vanished → o.timeout ≠ none)
    (h : b.answer o program operation false = .error failure) :
    ∃ e, failure = .engine e ∧ e.operation = operation := by
  cases b with
  | fails error =>
      cases h
      exact ⟨_, rfl, rfl⟩
  | ends output complaint code =>
      simp only [Behaviour.answer] at h
      split at h
      · cases h
        exact ⟨_, rfl, rfl⟩
      · cases hdecode : Utf8.decode output with
        | ok text => simp [hdecode] at h
        | error e =>
            simp only [hdecode] at h
            cases h
            exact ⟨_, rfl, rfl⟩
  | hangs exited vanished =>
      cases htime : o.timeout with
      | none => exact absurd htime (hends exited vanished rfl)
      | some t =>
          simp only [Behaviour.answer, htime] at h
          cases h
          exact ⟨_, rfl, rfl⟩

end Answer

section Fault

variable {o : Options} {program argument : Text} {b : Behaviour} {call : Call} {failure : Failure}
  {input : Option Text}

theorem argumentFault?_eq_none_iff : argumentFault? argument = none ↔ Argument argument := by
  unfold argumentFault? Argument
  split_ifs with hsystem hnul
  · simp only [Bool.not_eq_true', List.all_eq_false] at hsystem
    obtain ⟨c, hc, hno⟩ := hsystem
    exact iff_of_false (by simp) fun h => hno (h.1 c hc)
  · exact iff_of_false (by simp) fun h => h.2 (by simpa using hnul)
  · exact iff_of_true rfl ⟨by simpa using hsystem, by simpa using hnul⟩

theorem isFault_of_argumentFault? (h : argumentFault? argument = some failure) :
    failure.IsFault := by
  unfold argumentFault? at h
  split_ifs at h <;> cases h
  · exact .unencodable
  · exact .nulByte

theorem isFault_of_inputFault? {timeout : Option Setting.Amount}
    (h : inputFault? timeout input = some failure) : failure.IsFault := by
  unfold inputFault? at h
  split_ifs at h <;> cases h
  · exact .unencodable
  · exact .overflow

theorem isFault_of_arguments {arguments : List Text}
    (h : arguments.findSome? argumentFault? = some failure) : failure.IsFault := by
  obtain ⟨argument, -, hfault⟩ := List.exists_of_findSome?_eq_some h
  exact isFault_of_argumentFault? hfault

theorem isFault_of_behaviour (h : b.fault? o input = some failure) : failure.IsFault := by
  unfold Behaviour.fault? at h
  split_ifs at h
  exact isFault_of_inputFault? h

theorem isFault_of_fault? (h : call.fault? o program b = some failure) : failure.IsFault := by
  rw [Call.fault?, Option.or_eq_some_iff] at h
  obtain harguments | ⟨-, hinput⟩ := h
  · exact isFault_of_arguments harguments
  · exact isFault_of_behaviour hinput

theorem behaviour_fault?_eq_none_iff :
    b.fault? o input = none ↔ (b.starts = true → Fed o input) := by
  cases hstarts : b.starts with
  | false => simp [Behaviour.fault?, hstarts]
  | true =>
      simp only [Behaviour.fault?, hstarts, if_true, true_imp_iff, inputFault?, Fed]
      cases input <;> cases o.timeout <;> split_ifs <;> simp_all

theorem arguments_fault?_eq_none_iff {arguments : List Text} :
    arguments.findSome? argumentFault? = none ↔ ∀ argument ∈ arguments, Argument argument := by
  simp only [List.findSome?_eq_none_iff, argumentFault?_eq_none_iff]

theorem fault?_eq_none_iff : call.fault? o program b = none ↔ call.Fits o program b := by
  rw [Call.fault?, Option.or_eq_none_iff, arguments_fault?_eq_none_iff,
    behaviour_fault?_eq_none_iff, Call.Fits]

end Fault

namespace Session

variable {s : Session} {program : Text} {call : Call} {operation : Operation}

-- A call runs the program once, and goes on with the text alone.
theorem perform_act (s : Session) (hcall : call.operation? = some operation) (cancel : Bool) :
    ∃ read : String → Except Failure Reply, (∀ text, call.Reads text (read text)) ∧
      s.perform (call.act cancel) =
        ((s.perform (run operation (call.arguments s.options) call.input cancel)).1 >>= read,
          (s.perform (run operation (call.arguments s.options) call.input cancel)).2) := by
  cases call with
  | listExtensions dialect =>
      cases hcall
      refine ⟨fun text => .ok (.text text), fun _ => .extensions, ?_⟩
      simp only [Call.act, perform_map, listExtensions, Call.arguments, Call.input]
      rcases s.perform (run _ _ _ cancel) with ⟨failure | text, after⟩ <;> rfl
  | version =>
      cases hcall
      refine ⟨fun text => .ok (.text (Text.trim (Text.firstLine text))), fun _ => .version, ?_⟩
      simp only [Call.act, perform_map, version, perform_bind, Call.arguments, Call.input]
      rcases s.perform (run _ _ _ cancel) with ⟨failure | text, after⟩ <;> rfl
  | markdownToAst markdown format options =>
      cases hcall
      refine ⟨fun text => ((Document.ofText (Text.of text)).mapError fun fault =>
          .engine ⟨.markdownToAst, .notDocument fault⟩).map .document, fun text => ?_, ?_⟩
      · dsimp only
        cases hread : Document.ofText (Text.of text) with
        | ok d => exact .document hread
        | error fault => exact .noDocument hread
      · rw [Call.act, perform_map, markdownToAst, perform_bind, perform_get, Call.arguments,
          Call.input]
        simp only [perform_bind]
        rcases s.perform (run _ _ _ cancel) with ⟨failure | text, after⟩
        · rfl
        · dsimp only [Except.bind, bind]
          cases Document.ofText (Text.of text) <;> rfl
  | astToMarkdown d format options =>
      cases hcall
      refine ⟨fun text => .ok (.text text), fun _ => .markdown, ?_⟩
      rw [Call.act, perform_map, astToMarkdown, perform_bind, perform_get, Call.arguments,
        Call.input]
      dsimp only
      rcases s.perform (run _ _ _ cancel) with ⟨failure | text, after⟩ <;> rfl
  | resolve request => cases hcall

-- A call with an argument that the system does not take starts nothing.
theorem perform_call_of_fault {failure : Failure} (h : s.options.program = .str program)
    (hcall : call.operation? = some operation)
    (hargs : (program :: call.arguments s.options).findSome? argumentFault? = some failure)
    (cancel : Bool) :
    ∃ records, s.perform (call.act cancel) =
      (.error failure, { s with records := s.records ++ records }) := by
  obtain ⟨read, -, hact⟩ := perform_act s hcall cancel
  obtain ⟨records, hrun⟩ := s.perform_run_of_fault h hargs operation call.input cancel
  exact ⟨records, by rw [hact, hrun]; rfl⟩

theorem perform_call_eq (h : s.options.program = .str program)
    (hcall : call.operation? = some operation)
    (hargs : (program :: call.arguments s.options).findSome? argumentFault? = none)
    (cancel : Bool) :
    ∃ (records : List Log.Record) (read : String → Except Failure Reply),
      (∀ text, call.Reads text (read text)) ∧
      s.perform (call.act cancel) =
        (s.upcoming.outcome s.options program operation cancel call.input >>= read,
          { s with
            programs := s.programs.tail
            launches := s.launches ++
              [s.upcoming.launch s.options cancel call.input (program :: call.arguments s.options)]
            records := s.records ++ records }) := by
  obtain ⟨read, hreads, hact⟩ := perform_act s hcall cancel
  obtain ⟨records, hrun⟩ := s.perform_run h hargs operation call.input cancel
  exact ⟨records, read, hreads, by rw [hact, hrun]⟩

-- What goes wrong beside the program ends the call, and otherwise it fails if the program gives
-- no text.
theorem perform_call (h : s.options.program = .str program)
    (hcall : call.operation? = some operation) (cancel : Bool) :
    (∀ failure, call.fault? s.options program s.upcoming = some failure →
      (s.perform (call.act cancel)).1 = .error failure) ∧
    (call.fault? s.options program s.upcoming = none →
      (∀ failure, s.upcoming.answer s.options program operation cancel = .error failure →
        (s.perform (call.act cancel)).1 = .error failure) ∧
      ∀ text, s.upcoming.answer s.options program operation cancel = .ok text →
        call.Reads text (s.perform (call.act cancel)).1) := by
  unfold Call.fault?
  cases hargs : (program :: call.arguments s.options).findSome? argumentFault? with
  | some fault =>
      obtain ⟨records, hcalled⟩ := perform_call_of_fault h hcall hargs cancel
      simp [hcalled]
  | none =>
      obtain ⟨records, read, hreads, hcalled⟩ := perform_call_eq h hcall hargs cancel
      rw [hcalled, Option.none_or]
      unfold Behaviour.outcome
      cases s.upcoming.fault? s.options call.input with
      | some fault =>
          refine ⟨fun failure hfailure => ?_, fun hnone => nomatch hnone⟩
          cases hfailure
          rfl
      | none =>
          refine ⟨fun failure hnone => (nomatch hnone), fun _ => ⟨fun failure hanswer => ?_,
            fun text hanswer => ?_⟩⟩
          · rw [hanswer]
            rfl
          · rw [hanswer]
            exact hreads text

-- Whatever a program does, save hanging with no time set for it, and whatever bytes it writes: a
-- call that fits comes back with a reply exactly if the program ended with exit code zero and its
-- output is a text in UTF-8 that the call can read; if it fails, then with an error of the
-- engine that names the call's operation. An exit code other than zero is always what is told,
-- with the words on the error channel, whether or not the output is a text. A call that does not
-- fit fails, and with no error of the engine.
theorem call_contained (h : s.options.program = .str program)
    (hcall : call.operation? = some operation)
    (hends : ∀ exited vanished, s.upcoming = .hangs exited vanished → s.options.timeout ≠ none) :
    (call.Fits s.options program s.upcoming →
      (∀ reply, (s.perform (call.act false)).1 = .ok reply ↔
        ∃ text, s.upcoming.Writes text ∧ call.Reads text (.ok reply)) ∧
      (∀ failure, (s.perform (call.act false)).1 = .error failure →
        ∃ e, failure = .engine e ∧ e.operation = operation) ∧
      (∀ output complaint code, s.upcoming = .ends output complaint code → code ≠ 0 →
        ∃ e, (s.perform (call.act false)).1 = .error (.engine e) ∧ e.operation = operation ∧
          e.code? = some code ∧
          e.complaint? = some (Text.trim (Utf8.decodeLossy complaint)))) ∧
    (¬call.Fits s.options program s.upcoming →
      ∃ failure, (s.perform (call.act false)).1 = .error failure ∧ failure.IsFault) := by
  obtain ⟨hfault, hfree⟩ := perform_call h hcall false
  refine ⟨fun hfits => ?_, fun hfits => ?_⟩
  · obtain ⟨hfailed, hread⟩ := hfree (fault?_eq_none_iff.mpr hfits)
    refine ⟨fun reply => ⟨fun hreply => ?_, ?_⟩, fun failure hfailure => ?_, ?_⟩
    · cases hanswer : s.upcoming.answer s.options program operation false with
      | error failure => simp [hfailed failure hanswer] at hreply
      | ok text => exact ⟨text, answer_eq_ok_iff.mp hanswer, hreply ▸ hread text hanswer⟩
    · rintro ⟨text, hwrites, hreads⟩
      exact (hread text (answer_eq_ok_iff.mpr hwrites)).unique hreads
    · cases hanswer : s.upcoming.answer s.options program operation false with
      | error cause =>
          obtain rfl : cause = failure :=
            Except.error.inj ((hfailed cause hanswer).symm.trans hfailure)
          exact exists_engine_of_answer hends hanswer
      | ok text => exact (hfailure ▸ hread text hanswer).exists_engine hcall
    · intro output complaint code hends hcode
      refine ⟨⟨operation, .exited code (Text.trim (Utf8.decodeLossy complaint))⟩, ?_, rfl, rfl,
        rfl⟩
      exact hfailed _ (by rw [hends, Behaviour.answer, if_pos hcode])
  · obtain ⟨failure, hfailure⟩ :=
      Option.ne_none_iff_exists'.mp (fault?_eq_none_iff.not.mpr hfits)
    exact ⟨failure, hfault failure hfailure, isFault_of_fault? hfailure⟩

-- The program complains and leaves half a character on either channel.
private def broken : Session :=
  start ⟨.str (Text.of "pandoc"), some (.whole 5), [Text.of "--quiet"]⟩
    [.ends [0x7B, 0xC3] [0x20, 0x6E, 0x6F, 0xC3, 0x0A] 64]

private def conversion : Call := .markdownToAst "# a" "gfm" ["--wrap=none"]

theorem call_contained_broken : broken.options.program = .str (Text.of "pandoc") ∧
    conversion.operation? = some .markdownToAst ∧
    (∀ exited vanished, broken.upcoming = .hangs exited vanished → broken.options.timeout ≠ none) ∧
    ∃ e, (broken.perform (conversion.act false)).1 = .error (.engine e) ∧
      e.operation = .markdownToAst ∧ e.code? = some 64 ∧ e.complaint? = some "no\uFFFD" := by
  have htime : ∀ exited vanished, broken.upcoming = .hangs exited vanished →
      broken.options.timeout ≠ none := by simp [broken, start]
  have hfits : conversion.Fits broken.options (Text.of "pandoc") broken.upcoming :=
    fault?_eq_none_iff.mp (by decide +kernel)
  obtain ⟨e, he, hoperation, hcode, hcomplaint⟩ :=
    ((@call_contained broken (Text.of "pandoc") conversion .markdownToAst rfl rfl htime).1
      hfits).2.2 _ _ _ rfl (by decide)
  exact ⟨rfl, rfl, htime, e, he, hoperation, hcode, hcomplaint.trans (by decide +kernel)⟩

-- A document with half of a surrogate pair, which no encoding takes.
def halved : Document := ⟨[⟨"Str", .str [.half 0]⟩], [], .map []⟩

-- Reading such a document is no failure, writing it is one, and not one of the engine.
theorem call_contained_halved :
    Document.ofText "\x7b\"blocks\":[\x7b\"t\":\"Str\",\"c\":\"\\ud800\"\x7d]\x7d" = .ok halved ∧
    (broken.perform ((Call.astToMarkdown halved "gfm" []).act false)).1 =
      .error .unencodable := by
  refine ⟨by decide +kernel, ?_⟩
  exact (@perform_call broken (Text.of "pandoc") (.astToMarkdown halved "gfm" []) .astToMarkdown
    rfl rfl false).1 .unencodable (by decide +kernel)

end Session

end Dialect.Engine
