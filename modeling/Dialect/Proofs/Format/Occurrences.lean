import Dialect.Proofs.Format.Toggle

namespace Dialect.Format.Toggle

-- The text that toggles are looked for in.
def unbroken (text : String) : List Char :=
  text.toList.filter fun c => !isLineBreak c

-- A toggle begins where a sign stands in front of a name character.
def BeginsAt (s : List Char) (i : Nat) : Prop :=
  s[i]?.any isSign ∧ s[i + 1]?.any isNameChar

instance (s : List Char) : DecidablePred (BeginsAt s) :=
  fun _ => inferInstanceAs (Decidable (_ ∧ _))

-- What a search from the left finds in a text, if it takes a toggle wherever one begins, with the
-- longest name that it can have, and goes on behind that name.
inductive Finds : List Char → List Toggle → Prop
  | nil : Finds [] []
  | skip {c : Char} {rest : List Char} {toggles : List Toggle} (h : ¬BeginsAt (c :: rest) 0)
      (go : Finds rest toggles) : Finds (c :: rest) toggles
  | take {t : Toggle} {rest : List Char} {toggles : List Toggle} (ht : t.Writable)
      (hrest : rest.takeWhile isNameChar = []) (go : Finds rest toggles) :
      Finds (t.signed.toList ++ rest) (t :: toggles)

-- The places where a toggle begins, from left to right.
def places (s : List Char) : List Nat :=
  (List.range s.length).filter fun i => BeginsAt s i

example : places "+1-+a--c_D".toList = [3, 6] := by decide

-- The toggle at a place has the sign that is there, and as its name the longest run of name
-- characters behind that sign.
structure StandsAt (s : List Char) (i : Nat) (t : Toggle) : Prop where
  writable : t.Writable
  sign : s[i]? = some t.sign
  name : (s.drop (i + 1)).takeWhile isNameChar = t.name.toList

theorem beginsAt_zero_iff {c : Char} {rest : List Char} :
    BeginsAt (c :: rest) 0 ↔ isSign c ∧ rest.takeWhile isNameChar ≠ [] := by
  cases rest with
  | nil => simp [BeginsAt]
  | cons d rest =>
      by_cases hd : isNameChar d
      · simp [BeginsAt, hd]
      · simp [BeginsAt, hd]

theorem scan_of_not_begins {c : Char} {rest : List Char} (h : ¬BeginsAt (c :: rest) 0) :
    scan (c :: rest) = scan rest := by
  rw [beginsAt_zero_iff, not_and_not_right] at h
  cases hc : isSign c with
  | false => exact scan_cons_of_not_sign hc rest
  | true => simp [scan, h hc]

-- Where a toggle begins, it can be cut off the front together with its whole name.
theorem exists_of_begins {c : Char} {rest : List Char} (h : BeginsAt (c :: rest) 0) :
    ∃ (t : Toggle) (after : List Char), t.Writable ∧ after.takeWhile isNameChar = [] ∧
      c :: rest = t.signed.toList ++ after := by
  obtain ⟨hsign, hname⟩ := beginsAt_zero_iff.mp h
  have hafter : (rest.dropWhile isNameChar).takeWhile isNameChar = [] :=
    List.takeWhile_eq_nil_iff.mpr (List.dropWhile_get_zero_not isNameChar rest)
  refine ⟨⟨String.ofList (rest.takeWhile isNameChar), c == '+'⟩, rest.dropWhile isNameChar,
    ⟨by simpa using hname, ?_⟩, hafter, ?_⟩
  · intro d hd
    rw [String.toList_ofList] at hd
    exact List.mem_takeWhile_imp hd
  · rw [toList_signed, sign_mk hsign, String.toList_ofList, List.cons_append,
      List.takeWhile_append_dropWhile]

theorem beginsAt_signed {t : Toggle} (ht : t.Writable) (rest : List Char) :
    BeginsAt (t.signed.toList ++ rest) 0 := by
  rw [toList_signed, List.cons_append, beginsAt_zero_iff, List.takeWhile_append_of_pos ht.2]
  exact ⟨t.isSign_sign, by simp [ht.1]⟩

theorem Finds.scan_eq {s : List Char} {toggles : List Toggle} (h : Finds s toggles) :
    scan s = toggles := by
  induction h with
  | nil => rfl
  | skip h _ ih => rw [scan_of_not_begins h, ih]
  | take ht hrest _ ih => rw [scan_signed_append ht hrest, ih]

-- By the length of the text, since the search leaves out a whole name at a time.
theorem finds_scan (s : List Char) : Finds s (scan s) := by
  induction hn : s.length using Nat.strong_induction_on generalizing s with
  | h n ih =>
      cases s with
      | nil => exact .nil
      | cons c rest =>
          by_cases h : BeginsAt (c :: rest) 0
          · obtain ⟨t, after, ht, hafter, hcut⟩ := exists_of_begins h
            rw [hcut] at hn ⊢
            rw [scan_signed_append ht hafter]
            refine .take ht hafter (ih after.length ?_ after rfl)
            rw [← hn, toList_signed, List.cons_append, List.length_cons, List.length_append]
            omega
          · rw [scan_of_not_begins h]
            exact .skip h (ih rest.length (by simp [← hn]) rest rfl)

theorem finds_iff (s : List Char) (toggles : List Toggle) : Finds s toggles ↔ scan s = toggles :=
  ⟨Finds.scan_eq, fun h => h ▸ finds_scan s⟩

theorem places_cons (c : Char) (rest : List Char) : places (c :: rest) =
    (if BeginsAt (c :: rest) 0 then [0] else []) ++ (places rest).map (· + 1) := by
  have htail : ((List.range rest.length).map Nat.succ).filter
      (fun i => BeginsAt (c :: rest) i) = (places rest).map (· + 1) := by
    rw [List.filter_map]
    rfl
  rw [places, List.length_cons, List.range_succ_eq_map, List.filter_cons, htail]
  by_cases h : BeginsAt (c :: rest) 0 <;> simp [h]

-- Inside a name no toggle begins.
theorem places_append {front : List Char} (h : ∀ c ∈ front, isSign c = false) (rest : List Char) :
    places (front ++ rest) = (places rest).map (· + front.length) := by
  induction front with
  | nil => simp
  | cons c front ih =>
      have hc : ¬BeginsAt (c :: (front ++ rest)) 0 := by
        rw [beginsAt_zero_iff, h c (by simp)]
        simp
      rw [List.cons_append, places_cons, if_neg hc, ih fun d hd => h d (List.mem_cons_of_mem c hd),
        List.nil_append, List.map_map]
      refine List.map_congr_left fun i _ => ?_
      simp only [Function.comp_apply, List.length_cons]
      omega

theorem StandsAt.append {rest : List Char} {i : Nat} {t : Toggle} (h : StandsAt rest i t)
    (front : List Char) : StandsAt (front ++ rest) (i + front.length) t where
  writable := h.writable
  sign := by
    rw [List.getElem?_append_right (Nat.le_add_left _ _), Nat.add_sub_cancel]
    exact h.sign
  name := by
    rw [Nat.add_right_comm, Nat.add_comm, List.drop_length_add_append]
    exact h.name

theorem standsAt_signed {t : Toggle} (ht : t.Writable) {rest : List Char}
    (hrest : rest.takeWhile isNameChar = []) : StandsAt (t.signed.toList ++ rest) 0 t where
  writable := ht
  sign := by simp [toList_signed]
  name := by simp [toList_signed, List.takeWhile_append_of_pos ht.2, hrest]

theorem forall₂_standsAt_append {rest : List Char} {is : List Nat} {toggles : List Toggle}
    (h : List.Forall₂ (StandsAt rest) is toggles) (front : List Char) :
    List.Forall₂ (StandsAt (front ++ rest)) (is.map (· + front.length)) toggles := by
  rw [List.forall₂_map_left_iff]
  exact h.imp fun i t ht => ht.append front

-- The search misses no place: what it takes stands at one, and there is none in a name that it
-- goes past.
theorem Finds.forall₂_standsAt {s : List Char} {toggles : List Toggle} (h : Finds s toggles) :
    List.Forall₂ (StandsAt s) (places s) toggles := by
  induction h with
  | nil => exact .nil
  | @skip c rest toggles h _ ih =>
      rw [places_cons, if_neg h]
      exact forall₂_standsAt_append ih [c]
  | @take t rest toggles ht hrest _ ih =>
      have hname : ∀ c ∈ t.name.toList, isSign c = false :=
        fun c hc => isSign_eq_false_of_isNameChar (ht.2 c hc)
      have hplaces : places (t.signed.toList ++ rest) =
          0 :: (places rest).map (· + t.signed.toList.length) := by
        have hbegins := beginsAt_signed ht rest
        rw [toList_signed, List.cons_append] at hbegins ⊢
        rw [places_cons, if_pos hbegins, places_append hname, List.map_map, List.singleton_append]
        refine congrArg _ (List.map_congr_left fun i _ => ?_)
        simp only [Function.comp_apply, List.length_cons]
        omega
      rw [hplaces]
      exact .cons (standsAt_signed ht hrest) (forall₂_standsAt_append ih _)

-- The toggles of a text are what a search from the left finds in it, and that is one for each
-- place where a sign stands in front of a name, in the order of the places. Of a written row they
-- are the toggles that were written.
theorem parse_recognizes :
    (∀ text toggles, parse text = toggles ↔ Finds (unbroken text) toggles) ∧
    (∀ text, List.Forall₂ (StandsAt (unbroken text)) (places (unbroken text)) (parse text)) ∧
      ∀ toggles, (∀ t ∈ toggles, t.Writable) → parse (row toggles) = toggles := by
  refine ⟨fun text toggles => ?_, fun text => ?_, fun toggles h => parse_row h⟩
  · exact (finds_iff (unbroken text) toggles).symm
  · exact (finds_scan (unbroken text)).forall₂_standsAt

-- Names that begin one another, and a toggle that comes twice.
theorem parse_recognizes_nested :
    (∀ t ∈ [⟨"a", true⟩, ⟨"a_b", false⟩, ⟨"a", true⟩], Writable t) ∧
      parse (row [⟨"a", true⟩, ⟨"a_b", false⟩, ⟨"a", true⟩]) =
        [⟨"a", true⟩, ⟨"a_b", false⟩, ⟨"a", true⟩] := by
  have hwritable : ∀ t ∈ [⟨"a", true⟩, ⟨"a_b", false⟩, ⟨"a", true⟩], Writable t := by
    simp [Writable, isNameChar]
  exact ⟨hwritable, parse_recognizes.2.2 _ hwritable⟩

end Dialect.Format.Toggle
