import Dialect.Format.Record
import Dialect.Proofs.Json.Ascii
import Dialect.Proofs.Json.Written

namespace Dialect.Format.Record

-- A text is read as a record: it is JSON, and its value has the form of one.
def Reads (text : Text) (r : Record) : Prop :=
  ∃ data, Json.read text = .ok data ∧ ofJson data = .ok r

-- A record of values that come back from how they are written, with no extension named twice.
structure Restorable (layout : Json.Layout) (r : Record) : Prop where
  baseName : Json.Restorable layout r.baseName
  fullName : Json.Restorable layout r.fullName
  extensions : (Entries.keys r.extensions).Nodup
  names : ∀ e ∈ r.extensions, Json.Restored layout.ascii e.1
  invalidFormat : Json.Restorable layout r.invalidFormat
  invalidOptions : ∀ a ∈ r.invalidOptions, Json.Restorable layout a

variable {layout : Json.Layout}

theorem restored_of (s : String) : Json.Restored layout.ascii (Text.of s) :=
  fun _ => Text.isPlain_of s

theorem restorable_ofResolved {f : Resolved} (h : (Entries.keys f.extensions).Nodup) :
    (ofResolved f).Restorable layout where
  baseName := .str (restored_of _)
  fullName := .str (restored_of _)
  extensions := by
    have hkeys : Entries.keys (ofResolved f).extensions = (Entries.keys f.extensions).map .of := by
      simp [ofResolved, Entries.keys]
    rw [hkeys]
    exact h.map fun _ _ => Text.of_inj.mp
  names := by
    intro e he
    obtain ⟨p, -, rfl⟩ := List.mem_map.mp he
    exact restored_of p.1
  invalidFormat := .str (restored_of _)
  invalidOptions := by
    intro a ha
    obtain ⟨name, -, rfl⟩ := List.mem_map.mp ha
    exact .str (restored_of name)

theorem ofResolved_injective : Function.Injective ofResolved := by
  rintro ⟨base, full, extensions, format, options⟩ ⟨base', full', extensions', format', options'⟩
  intro h
  simp only [ofResolved, mk.injEq, Json.str.injEq, Text.of_inj] at h
  obtain ⟨rfl, rfl, hextensions, rfl, hoptions⟩ := h
  have hname : Function.Injective fun e : String × Bool => (Text.of e.1, e.2) := by
    rintro ⟨a, on⟩ ⟨b, on'⟩ hab
    simpa using hab
  have hstr : Function.Injective fun name : String => Json.str (Text.of name) := by
    intro a b hab
    simpa using hab
  rw [hname.list_map hextensions, hstr.list_map hoptions]

-- Reading undoes writing, whatever values stand in a record.
theorem ofJson_toJson (r : Record) : ofJson r.toJson = .ok r := by
  have hbase : required "baseName" r.toJson = .ok r.baseName := rfl
  have hfull : required "fullName" r.toJson = .ok r.fullName := rfl
  have hextensions : membersOf (r.toJson.member? "extensions") =
      .ok (r.extensions.map fun e => (e.1, Json.bool e.2)) := rfl
  have hwarnings : membersOf (r.toJson.member? "warnings") =
      .ok [("invalidFormat", r.invalidFormat), ("invalidOptions", .arr r.invalidOptions)] := rfl
  have hformat : Entries.get? ("invalidFormat" : Text) [("invalidFormat", r.invalidFormat),
      ("invalidOptions", .arr r.invalidOptions)] = some r.invalidFormat := rfl
  have hoptions : sequenceOf (Entries.get? ("invalidOptions" : Text)
      [("invalidFormat", r.invalidFormat), ("invalidOptions", .arr r.invalidOptions)]) =
      .ok r.invalidOptions := rfl
  have hstates : (r.extensions.map fun e => (e.1, Json.bool e.2)).map
      (fun e => (e.1, e.2.truthy)) = r.extensions := by
    simp [Function.comp_def, Json.truthy]
  simp only [ofJson, hbase, hfull, hextensions, hwarnings, hformat, hoptions, hstates, bind,
    Except.bind]
  rfl

theorem Restorable.toJson {r : Record} (h : r.Restorable layout) :
    Json.Restorable layout r.toJson := by
  have hstates :
      Json.Restorable layout (.obj (r.extensions.map fun e => (e.1, Json.bool e.2))) := by
    refine Json.restorable_obj_iff.mpr ⟨?_, fun p hp => ?_⟩
    · rw [Entries.keys, List.map_map]
      exact h.extensions
    · obtain ⟨e, he, rfl⟩ := List.mem_map.mp hp
      exact ⟨h.names e he, trivial, fun _ => trivial⟩
  have hoptions : Json.Restorable layout (.arr r.invalidOptions) :=
    Json.restorable_arr_iff.mpr h.invalidOptions
  have hwarnings : Json.Restorable layout r.warningsJson := by
    refine Json.restorable_obj_iff.mpr ⟨by simp [Entries.keys], ?_⟩
    simp only [List.forall_mem_cons, restored_of, h.invalidFormat, hoptions, true_and]
    simp
  refine Json.restorable_obj_iff.mpr ⟨by simp [Entries.keys], ?_⟩
  simp only [List.forall_mem_cons, restored_of, h.baseName, h.fullName, hstates, hwarnings,
    true_and]
  simp

section Reading

variable {data : Json}

theorem restorable_of_get? {entries : Entries Text Json} (h : Json.Restorable layout (.obj entries))
    (name : Text) : ∀ v ∈ Entries.get? name entries, Json.Restorable layout v :=
  fun _ hv => ((Json.restorable_obj_iff.mp h).2 _ (Entries.mem_of_get? hv)).2

theorem restorable_required (h : Json.Restorable layout data) (name : Text) :
    Ensures (Json.Restorable layout) (required name data) := by
  unfold required
  split
  · rename_i entries
    split
    · rename_i v hv
      exact .ok (restorable_of_get? h name v hv)
    · exact .error _
  · exact .error _

theorem restorable_membersOf {value : Option Json} (h : ∀ v ∈ value, Json.Restorable layout v) :
    Ensures (fun entries => Json.Restorable layout (.obj entries)) (membersOf value) := by
  unfold membersOf
  split
  · exact .ok (Json.restorable_obj_iff.mpr ⟨List.nodup_nil, by simp⟩)
  · exact .ok (h _ rfl)
  · exact .error _

theorem restorable_sequenceOf {value : Option Json} (h : ∀ v ∈ value, Json.Restorable layout v) :
    Ensures (fun items => ∀ a ∈ items, Json.Restorable layout a) (sequenceOf value) := by
  unfold sequenceOf
  split
  · exact .ok (by simp)
  · exact .ok (Json.restorable_arr_iff.mp (h _ rfl))
  · rename_i s
    refine .ok fun a ha => ?_
    obtain ⟨c, hc, rfl⟩ := List.mem_map.mp ha
    exact .str fun hascii => Text.isPlain_of_mem ((h _ rfl).plain hascii) hc
  · rename_i entries
    refine .ok fun a ha => ?_
    obtain ⟨p, hp, rfl⟩ := List.mem_map.mp ha
    exact .str ((Json.restorable_obj_iff.mp (h _ rfl)).2 p hp).1
  · exact .error _

theorem restorable_of_member? (h : Json.Restorable layout data) (name : Text) :
    ∀ v ∈ data.member? name, Json.Restorable layout v := by
  cases data with
  | obj entries => exact restorable_of_get? h name
  | _ => rintro _ ⟨⟩

-- What is read has the states of its extensions decided and its names made a list, but holds no
-- value that was not there.
theorem restorable_ofJson (h : Json.Restorable layout data) :
    Ensures (Restorable layout) (ofJson data) := by
  refine (restorable_required h "baseName").bind fun base hbase => ?_
  refine (restorable_required h "fullName").bind fun full hfull => ?_
  refine (restorable_membersOf (restorable_of_member? h "extensions")).bind
    fun extensions hextensions => ?_
  refine (restorable_membersOf (restorable_of_member? h "warnings")).bind
    fun warnings hwarnings => ?_
  have hoptions := restorable_sequenceOf (restorable_of_get? hwarnings "invalidOptions")
  obtain ⟨hkeys, hmembers⟩ := Json.restorable_obj_iff.mp hextensions
  refine hoptions.bind fun options hoptions => .ok ⟨hbase, hfull, ?_, fun e he => ?_, ?_, hoptions⟩
  · rw [Entries.keys, List.map_map]
    exact hkeys
  · obtain ⟨p, hp, rfl⟩ := List.mem_map.mp he
    exact (hmembers p hp).1
  · cases hformat : Entries.get? ("invalidFormat" : Text) warnings with
    | none => exact .str (restored_of "")
    | some v => exact restorable_of_get? hwarnings "invalidFormat" v hformat

end Reading

-- The text of a record is JSON, and is read as the record.
theorem Restorable.reads_text {r : Record} {indent : Option Nat}
    (h : r.Restorable ⟨indent, true⟩) : Reads (r.text indent) r :=
  ⟨r.toJson, Json.read_render h.toJson, ofJson_toJson r⟩

-- The text of a record is in ASCII. Halves of characters do no harm here: they are escaped.
theorem Restorable.ascii_text {r : Record} {indent : Option Nat}
    (h : r.Restorable ⟨indent, false⟩) : Json.Ascii (r.text indent) :=
  Json.ascii_render rfl h.toJson.valid

theorem Reads.unique {text : Text} {r s : Record} (hr : Reads text r) (hs : Reads text s) :
    r = s := by
  obtain ⟨data, hread, hr⟩ := hr
  obtain ⟨data', hread', hs⟩ := hs
  rw [hread] at hread'
  cases hread'
  rw [hr] at hs
  exact Except.ok.inj hs

-- A resolved format comes back from its text, in any layout, and no other one does; the text is
-- in ASCII. Whatever value a record was read from, reading the value or the text that it is
-- written as gives that record again. Halves of characters are not told from characters that
-- they make up in a text in ASCII, and so texts with halves do not come back.
theorem reads_written :
    (∀ (f : Resolved) (indent : Option Nat), (Entries.keys f.extensions).Nodup →
      (∀ g, Reads (f.text indent) (ofResolved g) ↔ g = f) ∧
        ∀ c ∈ f.text indent, c.toNat ≤ 0x7F) ∧
    ∀ (data : Json) (r : Record), ofJson data = .ok r → ofJson r.toJson = .ok r ∧
      (data.Valid → ∀ indent, (data.Plain → Reads (r.text indent) r) ∧
        ∀ c ∈ r.text indent, c.toNat ≤ 0x7F) := by
  refine ⟨fun f indent hnames => ?_, fun data r hr => ⟨ofJson_toJson r, fun hdata indent => ?_⟩⟩
  · have hreads : Reads (f.text indent) (ofResolved f) := (restorable_ofResolved hnames).reads_text
    have hascii : Json.Ascii (f.text indent) := (restorable_ofResolved hnames).ascii_text
    refine ⟨fun g => ⟨fun hg => ?_, ?_⟩, fun c hc => Nat.le_of_lt_succ (hascii c hc)⟩
    · exact ofResolved_injective (hg.unique hreads)
    · rintro rfl
      exact hreads
  · refine ⟨fun hplain => ?_, fun c hc => ?_⟩
    · exact (restorable_ofJson ⟨hdata, fun _ => hplain⟩ r hr).reads_text
    · have hascii : Json.Ascii (r.text indent) :=
        (restorable_ofJson ⟨hdata, fun h => by cases h⟩ r hr).ascii_text
      exact Nat.le_of_lt_succ (hascii c hc)

-- Names with what has to be escaped, beyond ASCII and beyond sixteen bits, and an empty one.
private def spiky : Resolved where
  baseName := "mark\"down\\"
  fullName := "\u0000\n\u007f"
  extensions := [("é", true), ("😀", false), ("", true)]
  warnings := ⟨"\u2028", ["'", "😀"]⟩

-- States that are no truth values, a text in the place of a list, and names that are no texts.
private def untidy : Json :=
  .obj [("fullName", .null), ("baseName", .int 5),
    ("extensions", .obj [("b", .str "off"), ("a", .arr []), ("c", .double (.zero true))]),
    ("warnings", .obj [("invalidOptions", .str "é!")])]

private def tightened : Record where
  baseName := .int 5
  fullName := .null
  extensions := [("b", true), ("a", false), ("c", false)]
  invalidFormat := .str ""
  invalidOptions := [.str "é", .str "!"]

theorem reads_written_spiky :
    (Entries.keys spiky.extensions).Nodup ∧ Reads (spiky.text (some 0)) (ofResolved spiky) ∧
    ofJson untidy = .ok tightened ∧ untidy.Valid ∧ untidy.Plain ∧
    ofJson tightened.toJson = .ok tightened ∧ Reads (tightened.text none) tightened := by
  have hnames : (Entries.keys spiky.extensions).Nodup := by decide
  have hread : ofJson untidy = .ok tightened := by decide
  have hvalid : untidy.Valid := by
    simp [untidy, Json.Valid, Json.ValidMembers, Json.ValidItems, Entries.keys, Double.held_zero]
  have hplain : untidy.Plain := by
    simp [untidy, Json.Plain, Json.PlainMembers, Json.PlainItems]
  obtain ⟨hresolved, hrecord⟩ := reads_written
  obtain ⟨hagain, hwritten⟩ := hrecord untidy tightened hread
  exact ⟨hnames, ((hresolved spiky (some 0) hnames).1 spiky).mpr rfl, hread, hvalid, hplain, hagain,
    (hwritten hvalid none).1 hplain⟩

end Dialect.Format.Record
