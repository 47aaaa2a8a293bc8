import Dialect.Proofs.Json.Atom
import Dialect.Proofs.Json.Escape
import Dialect.Proofs.Json.Valid

namespace Dialect.Json

open Numeral (Ends)

variable {layout : Layout} {depth fuel : Nat} {s rest : Text} {c : Code}

section Blanks

variable {blanks : Text}

theorem skipSpace_append (h : ∀ c ∈ blanks, isSpace c = true) (s : Text) :
    skipSpace (blanks ++ s) = skipSpace s :=
  List.dropWhile_append_of_pos h

theorem skipSpace_cons (hc : isSpace c = false) : skipSpace (c :: s) = c :: s :=
  List.dropWhile_cons_of_neg (by simp [hc])

theorem isSpace_lineBreak (layout : Layout) (depth : Nat) :
    ∀ c ∈ lineBreak layout depth, isSpace c = true := by
  unfold lineBreak
  split
  · simp
  · intro c hc
    obtain rfl | hc := List.mem_cons.mp hc
    · rfl
    · rw [List.eq_of_mem_replicate hc]
      rfl

theorem exists_separator (layout : Layout) (depth : Nat) : ∃ blanks,
    separator layout depth = .char ',' :: blanks ∧ ∀ c ∈ blanks, isSpace c = true := by
  unfold separator
  split
  · exact ⟨[.char ' '], rfl, List.forall_mem_singleton.mpr rfl⟩
  · exact ⟨lineBreak layout depth, rfl, isSpace_lineBreak layout depth⟩

theorem ends_cons {c : Char} (hc : Text.isDigit c = false ∧ c ≠ '.' ∧ c ≠ 'e' ∧ c ≠ 'E') :
    Ends (.char c :: rest) := by
  rintro d ⟨⟩
  exact hc

-- Behind a value stand blanks, a comma or a bracket that closes.
theorem ends_lineBreak (h : Ends s) : Ends (lineBreak layout depth ++ s) := by
  unfold lineBreak
  split
  · exact h
  · exact ends_cons (by decide)

theorem ends_separator : Ends (separator layout depth ++ rest) := by
  obtain ⟨blanks, hsep, -⟩ := exists_separator layout depth
  rw [hsep]
  exact ends_cons (by decide)

theorem skipSpace_lineBreak (hc : isSpace c = false) :
    skipSpace (lineBreak layout depth ++ c :: s) = c :: s := by
  rw [skipSpace_append (isSpace_lineBreak layout depth), skipSpace_cons hc]

end Blanks

-- One rule for each way in which the reader goes on.
section Rules

variable {a : Json} {items : List Json} {name : Text} {members : List (Text × Json)}
  {first after more : Text}

theorem readValue_string {ascii : Bool} {text : Text} (h : Restored ascii text) :
    readValue (fuel + 1) (stringText ascii text ++ rest) = .ok (str text, rest) := by
  have hread := stringAt_stringText h rest
  simp only [stringText, List.cons_append] at hread ⊢
  simp only [readValue, hread]
  rfl

theorem readValue_arr (hs : skipSpace s = first) (hopen : first.head? ≠ some (.char ']'))
    (hitems : readItems fuel first = .ok (items, rest)) :
    readValue (fuel + 1) (.char '[' :: s) = .ok (arr items, rest) := by
  simp only [readValue, hs]
  split
  · simp at hopen
  · simp only [hitems]
    rfl

theorem readValue_obj (hs : skipSpace s = first) (hopen : first.head? ≠ some (.char '}'))
    (hmembers : readMembers fuel first = .ok (members, rest))
    (hnames : (Entries.keys members).Nodup) :
    readValue (fuel + 1) (.char '{' :: s) = .ok (obj members, rest) := by
  simp only [readValue, hs]
  split
  · simp at hopen
  · simp only [hmembers, bind, Except.bind, Entries.ofPairs_of_nodup hnames]
    rfl

theorem readItems_last (hvalue : readValue fuel s = .ok (a, after))
    (hafter : skipSpace after = .char ']' :: rest) : readItems (fuel + 1) s = .ok ([a], rest) := by
  simp only [readItems, hvalue, bind, Except.bind, hafter]
  rfl

theorem readItems_more (hvalue : readValue fuel s = .ok (a, after))
    (hafter : skipSpace after = .char ',' :: more)
    (hitems : readItems fuel (skipSpace more) = .ok (items, rest)) :
    readItems (fuel + 1) s = .ok (a :: items, rest) := by
  simp only [readItems, hvalue, bind, Except.bind, hafter, hitems]
  rfl

theorem readMembers_last {ascii : Bool} (hname : Restored ascii name)
    (hvalue : readValue fuel (skipSpace s) = .ok (a, after))
    (hafter : skipSpace after = .char '}' :: rest) :
    readMembers (fuel + 1) (stringText ascii name ++ .char ':' :: s) = .ok ([(name, a)], rest) := by
  have hread := stringAt_stringText hname (.char ':' :: s)
  simp only [stringText, List.cons_append] at hread ⊢
  have hcolon : isSpace (.char ':') = false := rfl
  simp only [readMembers, hread, bind, Except.bind, skipSpace_cons hcolon, hvalue, hafter]
  rfl

theorem readMembers_more {ascii : Bool} (hname : Restored ascii name)
    (hvalue : readValue fuel (skipSpace s) = .ok (a, after))
    (hafter : skipSpace after = .char ',' :: more)
    (hmembers : readMembers fuel (skipSpace more) = .ok (members, rest)) :
    readMembers (fuel + 1) (stringText ascii name ++ .char ':' :: s) =
      .ok ((name, a) :: members, rest) := by
  have hread := stringAt_stringText hname (.char ':' :: s)
  simp only [stringText, List.cons_append] at hread ⊢
  have hcolon : isSpace (.char ':') = false := rfl
  simp only [readMembers, hread, bind, Except.bind, skipSpace_cons hcolon, hvalue, hafter,
    hmembers]
  rfl

end Rules

section Heads

-- A character that a value can open with, wherever it stands.
def Opens (c : Code) : Prop :=
  isSpace c = false ∧ c ≠ ']' ∧ c.toNat < 128

-- A character that opens neither a string nor a container.
def Bare (c : Code) : Prop :=
  c ≠ '"' ∧ c ≠ '[' ∧ c ≠ '{'

instance : DecidablePred Opens := fun _ => inferInstanceAs (Decidable (_ ∧ _))

instance : DecidablePred Bare := fun _ => inferInstanceAs (Decidable (_ ∧ _))

theorem readValue_bare {r : Json × Text} (hs : ∃ c cs, s = c :: cs ∧ Opens c ∧ Bare c)
    (hatom : atom (s ++ rest) = .ok r) : readValue (fuel + 1) (s ++ rest) = .ok r := by
  obtain ⟨c, cs, rfl, -, hquote, harr, hobj⟩ := hs
  simpa [readValue, hquote, harr, hobj] using hatom

theorem opens_digit {c : Char} (hc : Text.isDigit c = true) : Opens c ∧ Bare c := by
  have hrange := (Text.isDigit_iff c).mp hc
  have hne : ∀ d, Text.isDigit d = false → c ≠ d := by
    rintro d hd rfl
    simp [hc] at hd
  refine ⟨⟨?_, ?_, ?_⟩, ?_, ?_, ?_⟩
  · simp [isSpace, hne ' ' rfl, hne '\t' rfl, hne '\n' rfl, hne '\r' rfl]
  · simpa using hne ']' rfl
  · simp only [Code.toNat]
    omega
  · simpa using hne '"' rfl
  · simpa using hne '[' rfl
  · simpa using hne '{' rfl

theorem exists_signed_eq_cons (negative : Bool) (x : Numeral) :
    ∃ c cs, Text.ofChars (x.signed negative) = c :: cs ∧ Opens c ∧ Bare c := by
  cases negative with
  | true => exact ⟨.char '-', Text.ofChars x.chars, rfl, by decide⟩
  | false =>
      obtain ⟨d, ds, hchars, hd⟩ := x.exists_chars_eq_cons
      exact ⟨.char d, Text.ofChars ds, by simp [Numeral.signed, hchars], opens_digit hd⟩

theorem exists_double_eq_cons {d : Double} (hd : d.Held) : ∃ c cs,
    Text.of (Shortest.text numberStyle d) = c :: cs ∧ Opens c ∧ Bare c := by
  cases d with
  | finite negative m e =>
      obtain ⟨x, htext, -⟩ := exists_text_finite numberStyle negative hd
      rw [Text.of, htext]
      exact exists_signed_eq_cons negative x
  | infinite negative =>
      cases negative with
      | true => exact ⟨.char '-', _, rfl, by decide⟩
      | false => exact ⟨.char 'I', _, rfl, by decide⟩
  | nan => exact ⟨.char 'N', _, rfl, by decide⟩

theorem exists_written_eq_cons (layout : Layout) (depth : Nat) {j : Json} (hj : j.Valid) :
    ∃ c cs, written layout depth j = c :: cs ∧ Opens c := by
  cases j with
  | null => exact ⟨.char 'n', _, rfl, by decide⟩
  | bool b =>
      cases b with
      | true => exact ⟨.char 't', _, rfl, by decide⟩
      | false => exact ⟨.char 'f', _, rfl, by decide⟩
  | int i =>
      obtain ⟨c, cs, hcons, hopens, -⟩ :=
        exists_signed_eq_cons (decide (i < 0)) (Numeral.ofNat i.natAbs)
      exact ⟨c, cs, by rw [written, Text.of, toList_toString_int, hcons], hopens⟩
  | double d =>
      obtain ⟨c, cs, hcons, hopens, -⟩ := exists_double_eq_cons hj
      exact ⟨c, cs, by rw [written, hcons], hopens⟩
  | str text => exact ⟨.char '"', _, by rw [written, stringText], by decide⟩
  | arr items =>
      cases items with
      | nil => exact ⟨.char '[', _, rfl, by decide⟩
      | cons a items => exact ⟨.char '[', _, by rw [written], by decide⟩
  | obj entries =>
      cases entries with
      | nil => exact ⟨.char '{', _, rfl, by decide⟩
      | cons p entries => exact ⟨.char '{', _, by rw [written], by decide⟩

end Heads

-- Values that come back from how they are written: valid ones, with nothing but characters in
-- their strings where halves of surrogate pairs become escapes.
structure Restorable (layout : Layout) (j : Json) : Prop where
  valid : j.Valid
  plain : layout.ascii = true → j.Plain

theorem Restorable.str {s : Text} (h : Restored layout.ascii s) : Restorable layout (.str s) :=
  ⟨trivial, h⟩

theorem restorable_arr_iff {items : List Json} :
    Restorable layout (arr items) ↔ ∀ a ∈ items, Restorable layout a := by
  constructor
  · exact fun h a ha => ⟨(validItems_iff items).mp h.valid a ha,
      fun hascii => (plainItems_iff items).mp (h.plain hascii) a ha⟩
  · exact fun h => ⟨(validItems_iff items).mpr fun a ha => (h a ha).valid,
      fun hascii => (plainItems_iff items).mpr fun a ha => (h a ha).plain hascii⟩

theorem restorable_obj_iff {entries : List (Text × Json)} :
    Restorable layout (obj entries) ↔ (Entries.keys entries).Nodup ∧
      ∀ p ∈ entries, Restored layout.ascii p.1 ∧ Restorable layout p.2 := by
  constructor
  · intro h
    refine ⟨h.valid.1, fun p hp => ⟨fun hascii => ?_, ?_, fun hascii => ?_⟩⟩
    · exact ((plainMembers_iff entries).mp (h.plain hascii) p hp).1
    · exact (validMembers_iff entries).mp h.valid.2 p hp
    · exact ((plainMembers_iff entries).mp (h.plain hascii) p hp).2
  · rintro ⟨hkeys, h⟩
    refine ⟨⟨hkeys, (validMembers_iff entries).mpr fun p hp => (h p hp).2.valid⟩, fun hascii => ?_⟩
    exact (plainMembers_iff entries).mpr fun p hp => ⟨(h p hp).1 hascii, (h p hp).2.plain hascii⟩

-- The text between the brackets of an array.
def itemsText (layout : Layout) (depth : Nat) : List Json → Text
  | [] => []
  | a :: rest => written layout depth a ++ writtenItems layout depth rest

def membersText (layout : Layout) (depth : Nat) : List (Text × Json) → Text
  | [] => []
  | (k, a) :: rest => stringText layout.ascii k ++ .char ':' :: .char ' ' ::
      (written layout depth a ++ writtenMembers layout depth rest)

theorem written_arr (items : List Json) (hne : items ≠ []) : written layout depth (arr items) =
    .char '[' :: (lineBreak layout (depth + 1) ++ (itemsText layout (depth + 1) items ++
      (lineBreak layout depth ++ [.char ']']))) := by
  obtain ⟨a, items, rfl⟩ := List.exists_cons_of_ne_nil hne
  simp [written, itemsText]

theorem written_obj (entries : List (Text × Json)) (hne : entries ≠ []) :
    written layout depth (obj entries) =
      .char '{' :: (lineBreak layout (depth + 1) ++ (membersText layout (depth + 1) entries ++
        (lineBreak layout depth ++ [.char '}']))) := by
  obtain ⟨⟨k, a⟩, entries, rfl⟩ := List.exists_cons_of_ne_nil hne
  simp [written, membersText]

theorem writtenItems_eq (items : List Json) (hne : items ≠ []) : writtenItems layout depth items =
    separator layout depth ++ itemsText layout depth items := by
  obtain ⟨a, items, rfl⟩ := List.exists_cons_of_ne_nil hne
  simp [writtenItems, itemsText]

theorem writtenMembers_eq (entries : List (Text × Json)) (hne : entries ≠ []) :
    writtenMembers layout depth entries =
      separator layout depth ++ membersText layout depth entries := by
  obtain ⟨⟨k, a⟩, entries, rfl⟩ := List.exists_cons_of_ne_nil hne
  simp [writtenMembers, membersText]

-- Every value takes a character, so what it takes to read one is not nothing.
theorem exists_fuel {j : Json} (hj : j.Valid)
    (hfuel : 2 * (written layout depth j ++ rest).length ≤ fuel) : ∃ k, fuel = k + 1 := by
  obtain ⟨c, cs, hcons, -⟩ := exists_written_eq_cons layout depth hj
  rw [hcons, List.cons_append, List.length_cons] at hfuel
  exact ⟨fuel - 1, by omega⟩

-- Blanks in front of a value are skipped, and nothing of the value.
theorem skipSpace_opens {blanks : Text} (h : ∀ c ∈ blanks, isSpace c = true)
    (hs : ∃ c cs, s = c :: cs ∧ Opens c) : skipSpace (blanks ++ (s ++ rest)) = s ++ rest := by
  obtain ⟨c, cs, rfl, hc, -⟩ := hs
  rw [skipSpace_append h, List.cons_append, skipSpace_cons hc]

theorem length_separator_pos (layout : Layout) (depth : Nat) :
    0 < (separator layout depth).length := by
  obtain ⟨blanks, hsep, -⟩ := exists_separator layout depth
  simp [hsep]

theorem skipSpace_separator (layout : Layout) (depth : Nat) (rest : Text)
    (hs : ∃ c cs, s = c :: cs ∧ Opens c) : ∃ more,
    skipSpace (separator layout depth ++ (s ++ rest)) = .char ',' :: more ∧
      skipSpace more = s ++ rest := by
  obtain ⟨blanks, hsep, hblanks⟩ := exists_separator layout depth
  exact ⟨blanks ++ (s ++ rest), by rw [hsep, List.cons_append, skipSpace_cons rfl],
    skipSpace_opens hblanks hs⟩

theorem skipSpace_blank_written {a : Json} (ha : a.Valid) :
    skipSpace (.char ' ' :: (written layout depth a ++ rest)) = written layout depth a ++ rest :=
  skipSpace_opens (List.forall_mem_singleton.mpr rfl) (exists_written_eq_cons layout depth ha)

theorem exists_itemsText_eq_cons {items : List Json} (hvalid : ∀ a ∈ items, Restorable layout a)
    (hne : items ≠ []) : ∃ c cs, itemsText layout depth items = c :: cs ∧ Opens c := by
  obtain ⟨a, items, rfl⟩ := List.exists_cons_of_ne_nil hne
  obtain ⟨c, cs, hcons, hopens⟩ :=
    exists_written_eq_cons layout depth (hvalid a List.mem_cons_self).valid
  refine ⟨c, cs ++ writtenItems layout depth items, ?_, hopens⟩
  rw [itemsText, hcons, List.cons_append]

theorem exists_membersText_eq_cons {entries : List (Text × Json)} (hne : entries ≠ []) :
    ∃ c cs, membersText layout depth entries = c :: cs ∧ Opens c ∧ c ≠ '}' := by
  obtain ⟨⟨k, a⟩, entries, rfl⟩ := List.exists_cons_of_ne_nil hne
  exact ⟨.char '"', _, by rw [membersText, stringText, List.cons_append], by decide, by decide⟩

mutual

-- Reading a value takes exactly its text, by recursion over the value. What follows must not go on
-- with a number; twice the length is enough fuel, since an item takes two calls and a character.
theorem readValue_written (layout : Layout) (depth : Nat) : (j : Json) → Restorable layout j →
    ∀ ⦃fuel rest⦄, Ends rest → 2 * (written layout depth j ++ rest).length ≤ fuel →
      readValue fuel (written layout depth j ++ rest) = .ok (j, rest)
  | null, hj, fuel, rest, hrest, hfuel => by
    obtain ⟨fuel, rfl⟩ := exists_fuel hj.valid hfuel
    exact readValue_bare ⟨.char 'n', _, rfl, by decide⟩ rfl
  | bool true, hj, fuel, rest, hrest, hfuel => by
    obtain ⟨fuel, rfl⟩ := exists_fuel hj.valid hfuel
    exact readValue_bare ⟨.char 't', _, rfl, by decide⟩ rfl
  | bool false, hj, fuel, rest, hrest, hfuel => by
    obtain ⟨fuel, rfl⟩ := exists_fuel hj.valid hfuel
    exact readValue_bare ⟨.char 'f', _, rfl, by decide⟩ rfl
  | int i, hj, fuel, rest, hrest, hfuel => by
    obtain ⟨fuel, rfl⟩ := exists_fuel hj.valid hfuel
    rw [written]
    refine readValue_bare ?_ (atom_int i hrest)
    rw [Text.of, toList_toString_int]
    exact exists_signed_eq_cons _ _
  | double d, hj, fuel, rest, hrest, hfuel => by
    obtain ⟨fuel, rfl⟩ := exists_fuel hj.valid hfuel
    rw [written]
    exact readValue_bare (exists_double_eq_cons hj.valid) (atom_double hj.valid hrest)
  | str text, hj, fuel, rest, hrest, hfuel => by
    obtain ⟨fuel, rfl⟩ := exists_fuel hj.valid hfuel
    rw [written]
    exact readValue_string hj.plain
  | arr items, hj, fuel, rest, hrest, hfuel => by
    obtain ⟨fuel, rfl⟩ := exists_fuel hj.valid hfuel
    by_cases hne : items = []
    · subst hne
      rfl
    · obtain ⟨c, cs, hcons, hopens⟩ := exists_itemsText_eq_cons (restorable_arr_iff.mp hj) hne
      simp only [written_arr items hne, List.cons_append, List.append_assoc, List.nil_append,
        List.length_cons] at hfuel ⊢
      refine readValue_arr (skipSpace_opens (isSpace_lineBreak _ _) ⟨c, cs, hcons, hopens⟩) ?_
        (readItems_itemsText layout (depth + 1) depth items (restorable_arr_iff.mp hj) hne ?_)
      · simp [hcons, hopens.2.1]
      · rw [List.length_append] at hfuel
        omega
  | obj entries, hj, fuel, rest, hrest, hfuel => by
    obtain ⟨fuel, rfl⟩ := exists_fuel hj.valid hfuel
    by_cases hne : entries = []
    · subst hne
      rfl
    · obtain ⟨c, cs, hcons, hopens, hclose⟩ := exists_membersText_eq_cons hne
      simp only [written_obj entries hne, List.cons_append, List.append_assoc, List.nil_append,
        List.length_cons] at hfuel ⊢
      refine readValue_obj (skipSpace_opens (isSpace_lineBreak _ _) ⟨c, cs, hcons, hopens⟩) ?_
        (readMembers_membersText layout (depth + 1) depth entries (restorable_obj_iff.mp hj).2 hne ?_)
        hj.valid.1
      · simp [hcons, hclose]
      · rw [List.length_append] at hfuel
        omega

theorem readItems_itemsText (layout : Layout) (depth outer : Nat) : (items : List Json) →
    (∀ a ∈ items, Restorable layout a) → items ≠ [] → ∀ ⦃fuel rest⦄,
      2 * (itemsText layout depth items ++ (lineBreak layout outer ++ .char ']' :: rest)).length <
        fuel →
      readItems fuel (itemsText layout depth items ++
        (lineBreak layout outer ++ .char ']' :: rest)) = .ok (items, rest)
  | [], _, hne, _, _, _ => absurd rfl hne
  | a :: items, hvalid, _, 0, rest, hfuel => absurd hfuel (Nat.not_lt_zero _)
  | a :: items, hvalid, _, fuel + 1, rest, hfuel => by
    simp only [itemsText, List.append_assoc] at hfuel ⊢
    obtain ⟨ha, hitems⟩ := List.forall_mem_cons.mp hvalid
    have hvalue := readValue_written layout depth a ha
    by_cases hne : items = []
    · subst hne
      exact readItems_last (hvalue (ends_lineBreak (ends_cons (by decide))) (by omega))
        (skipSpace_lineBreak rfl)
    · obtain ⟨more, hafter, hmore⟩ := skipSpace_separator layout depth
        (lineBreak layout outer ++ .char ']' :: rest) (exists_itemsText_eq_cons hitems hne)
      have hsep := length_separator_pos layout depth
      rw [writtenItems_eq items hne, List.append_assoc] at hfuel ⊢
      refine readItems_more (hvalue ends_separator (by omega)) hafter (hmore ▸ ?_)
      refine readItems_itemsText layout depth outer items hitems hne ?_
      rw [List.length_append, List.length_append] at hfuel
      omega

theorem readMembers_membersText (layout : Layout) (depth outer : Nat) :
    (entries : List (Text × Json)) →
    (∀ p ∈ entries, Restored layout.ascii p.1 ∧ Restorable layout p.2) → entries ≠ [] →
    ∀ ⦃fuel rest⦄, 2 * (membersText layout depth entries ++
        (lineBreak layout outer ++ .char '}' :: rest)).length < fuel →
      readMembers fuel (membersText layout depth entries ++
        (lineBreak layout outer ++ .char '}' :: rest)) = .ok (entries, rest)
  | [], _, hne, _, _, _ => absurd rfl hne
  | (k, a) :: entries, hvalid, _, 0, rest, hfuel => absurd hfuel (Nat.not_lt_zero _)
  | (k, a) :: entries, hvalid, _, fuel + 1, rest, hfuel => by
    simp only [membersText, List.append_assoc, List.cons_append] at hfuel ⊢
    obtain ⟨⟨hname, ha⟩, hmembers⟩ := List.forall_mem_cons.mp hvalid
    rw [List.length_append, List.length_cons, List.length_cons] at hfuel
    have hvalue : ∀ tail, Ends tail → 2 * (written layout depth a ++ tail).length ≤ fuel →
        readValue fuel (skipSpace (.char ' ' :: (written layout depth a ++ tail))) =
          .ok (a, tail) := by
      intro tail htail hlen
      rw [skipSpace_blank_written ha.valid]
      exact readValue_written layout depth a ha htail hlen
    by_cases hne : entries = []
    · subst hne
      exact readMembers_last hname
        (hvalue _ (ends_lineBreak (ends_cons (by decide))) (by omega)) (skipSpace_lineBreak rfl)
    · obtain ⟨c, cs, hcons, hopens, -⟩ := exists_membersText_eq_cons hne
      obtain ⟨more, hafter, hmore⟩ := skipSpace_separator layout depth
        (lineBreak layout outer ++ .char '}' :: rest) ⟨c, cs, hcons, hopens⟩
      have hsep := length_separator_pos layout depth
      rw [writtenMembers_eq entries hne, List.append_assoc] at hfuel ⊢
      refine readMembers_more hname (hvalue _ ends_separator (by omega)) hafter (hmore ▸ ?_)
      refine readMembers_membersText layout depth outer entries hmembers hne ?_
      rw [List.length_append, List.length_append] at hfuel
      omega

end

-- What the writer makes of a value, the reader makes that value of.
theorem readCodes_written {j : Json} (hj : Restorable layout j) :
    readCodes (written layout 0 j) = .ok j := by
  obtain ⟨c, cs, hcons, hspace, -⟩ := exists_written_eq_cons layout 0 hj.valid
  have hskip : skipSpace (written layout 0 j) = written layout 0 j := by
    rw [hcons, skipSpace_cons hspace]
  have hread : readValue (2 * (written layout 0 j).length + 2) (written layout 0 j ++ []) =
      .ok (j, []) := readValue_written layout 0 j hj (by simp [Ends]) (by simp)
  rw [List.append_nil] at hread
  simp only [readCodes, readWhole, hskip, hread]
  rfl

theorem read_render {j : Json} (hj : Restorable layout j) : read (render layout j) = .ok j := by
  obtain ⟨c, cs, hcons, -, -, hascii⟩ := exists_written_eq_cons layout 0 hj.valid
  have hmark : c.toNat ≠ 0xFEFF := by omega
  have hread := readCodes_written hj
  simp only [read, render]
  rw [hcons] at hread ⊢
  simp only [if_neg hmark, hread]

end Dialect.Json
