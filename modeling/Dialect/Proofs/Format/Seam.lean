import Dialect.Proofs.Format.Occurrences
import Mathlib.Data.List.DropRight

-- Two texts that are put together: which toggles are read in the whole, and when these are those
-- of the first text with those of the second behind them.

namespace Dialect.Format.Toggle

-- The toggle that begins at a sign, if there is a name behind it.
def begun (sign : Char) (name : List Char) : List Toggle :=
  if name = [] then [] else [⟨String.ofList name, sign == '+'⟩]

theorem begun_inj {sign : Char} {name other : List Char} :
    begun sign name = begun sign other ↔ name = other := by
  unfold begun
  split <;> split <;> simp_all [String.ofList_inj, eq_comm]

theorem sign_of_mem_begun {sign : Char} {name : List Char} {t : Toggle} (hsign : isSign sign)
    (ht : t ∈ begun sign name) : t.sign = sign := by
  unfold begun at ht
  split at ht
  · cases ht
  · rw [List.mem_singleton.mp ht, sign_mk hsign]

theorem scan_cons_of_sign {c : Char} (h : isSign c) (rest : List Char) :
    scan (c :: rest) = begun c (rest.takeWhile isNameChar) ++ scan rest := by
  simp only [scan, h, begun]
  cases rest.takeWhile isNameChar <;> rfl

-- A text behind another one keeps its toggles. In front of them stand those that begin in
-- the first text; the last of these may have a name that runs on into the second.
theorem exists_scan_append (xs ys : List Char) :
    ∃ front, scan (xs ++ ys) = front ++ scan ys ∧ ∀ t ∈ front, t.sign ∈ xs := by
  induction xs with
  | nil => exact ⟨[], rfl, by simp⟩
  | cons c xs ih =>
      obtain ⟨front, hscan, hsign⟩ := ih
      cases hc : isSign c with
      | false =>
          refine ⟨front, ?_, fun t ht => List.mem_cons_of_mem c (hsign t ht)⟩
          rw [List.cons_append, scan_cons_of_not_sign hc, hscan]
      | true =>
          refine ⟨begun c ((xs ++ ys).takeWhile isNameChar) ++ front, ?_, ?_⟩
          · rw [List.cons_append, scan_cons_of_sign hc, hscan, List.append_assoc]
          · intro t ht
            rcases List.mem_append.mp ht with ht | ht
            · simp [sign_of_mem_begun hc ht]
            · exact List.mem_cons_of_mem c (hsign t ht)

-- A text that a name can run on from: it ends in a sign, with name characters behind it or none.
def OpenEnd (s : List Char) : Prop :=
  ∃ front sign name, s = front ++ sign :: name ∧ isSign sign ∧ ∀ c ∈ name, isNameChar c

theorem openEnd_iff (s : List Char) :
    OpenEnd s ↔ (s.rdropWhile isNameChar).getLast?.any isSign := by
  constructor
  · rintro ⟨front, sign, name, rfl, hsign, hname⟩
    have hstop : ¬isNameChar sign := by simp [isNameChar_eq_false_of_isSign hsign]
    have hdrop : (front ++ sign :: name).rdropWhile isNameChar = front ++ [sign] := by
      rw [List.rdropWhile, List.reverse_append, List.reverse_cons, List.append_assoc,
        List.dropWhile_append_of_pos (by simpa using hname), List.singleton_append,
        List.dropWhile_cons_of_neg hstop]
      simp
    simpa [hdrop] using hsign
  · intro h
    obtain ⟨sign, hlast, hsign⟩ := (Option.any_eq_true _ _).mp h
    obtain ⟨front, hfront⟩ := List.getLast?_eq_some_iff.mp hlast
    refine ⟨front, sign, s.rtakeWhile isNameChar, ?_, hsign, fun c => List.mem_rtakeWhile_imp⟩
    have hcut := List.rdropWhile_append_rtakeWhile (p := isNameChar) (l := s)
    rw [hfront] at hcut
    simpa using hcut.symm

instance : DecidablePred OpenEnd :=
  fun s => decidable_of_iff _ (openEnd_iff s).symm

theorem OpenEnd.cons {s : List Char} (h : OpenEnd s) (c : Char) : OpenEnd (c :: s) := by
  obtain ⟨front, sign, name, rfl, hsign, hname⟩ := h
  exact ⟨c :: front, sign, name, rfl, hsign, hname⟩

-- Two texts are read each on its own, unless the first is open and the second goes on with its
-- name. By induction on the first text, since only its last sign can see over the seam.
theorem scan_append_of_stops {xs ys : List Char}
    (h : OpenEnd xs → ys.takeWhile isNameChar = []) : scan (xs ++ ys) = scan xs ++ scan ys := by
  induction xs with
  | nil => rfl
  | cons c xs ih =>
      have hrest := ih fun hopen => h (hopen.cons c)
      cases hc : isSign c with
      | false => rw [List.cons_append, scan_cons_of_not_sign hc, scan_cons_of_not_sign hc, hrest]
      | true =>
          have hname : (xs ++ ys).takeWhile isNameChar = xs.takeWhile isNameChar := by
            rw [List.takeWhile_append]
            split
            · rename_i hlength
              have hall : xs.takeWhile isNameChar = xs :=
                (List.takeWhile_sublist isNameChar).eq_of_length hlength
              have hopen : OpenEnd (c :: xs) :=
                ⟨[], c, xs, rfl, hc, List.takeWhile_eq_self_iff.mp hall⟩
              rw [h hopen, List.append_nil, hall]
            · rfl
          rw [List.cons_append, scan_cons_of_sign hc, scan_cons_of_sign hc, hname, hrest,
            List.append_assoc]

-- What an open end comes to: the toggle that its sign begins takes its name from both sides of
-- the seam.
theorem scan_append_of_open {name : List Char} {sign : Char} (hsign : isSign sign)
    (hname : ∀ c ∈ name, isNameChar c) (front ys : List Char) :
    scan (front ++ sign :: name ++ ys) =
      scan front ++ begun sign (name ++ ys.takeWhile isNameChar) ++ scan ys := by
  have hstops : (sign :: (name ++ ys)).takeWhile isNameChar = [] :=
    takeWhile_eq_nil_of_sign hsign
  have hskip : scan (name ++ ys) = scan ys :=
    scan_append_of_not_sign (fun c hc => isSign_eq_false_of_isNameChar (hname c hc)) ys
  rw [List.append_assoc, List.cons_append, scan_append_of_stops fun _ => hstops,
    scan_cons_of_sign hsign, List.takeWhile_append_of_pos hname, hskip, List.append_assoc]

theorem takeWhile_isNameChar_eq_nil_iff (cs : List Char) :
    cs.takeWhile isNameChar = [] ↔ ¬cs.head?.any isNameChar := by
  cases cs with
  | nil => simp
  | cons c rest => simp [List.takeWhile_cons]

theorem scan_append_iff (xs ys : List Char) : scan (xs ++ ys) = scan xs ++ scan ys ↔
    ¬(ys.head?.any isNameChar ∧ OpenEnd xs) := by
  constructor
  · rintro h ⟨hhead, front, sign, name, rfl, hsign, hname⟩
    have halone : scan (front ++ sign :: name) = scan front ++ begun sign name := by
      simpa [scan] using scan_append_of_open hsign hname front []
    rw [scan_append_of_open hsign hname, halone, List.append_left_inj, List.append_right_inj,
      begun_inj, List.append_right_eq_self, takeWhile_isNameChar_eq_nil_iff] at h
    exact h hhead
  · intro h
    apply scan_append_of_stops
    intro hopen
    rw [takeWhile_isNameChar_eq_nil_iff]
    exact fun hhead => h ⟨hhead, hopen⟩

theorem unbroken_append (first second : String) :
    unbroken (first ++ second) = unbroken first ++ unbroken second := by
  rw [unbroken, String.toList_append, List.filter_append]
  rfl

theorem exists_parse_append (first second : String) :
    ∃ front, parse (first ++ second) = front ++ parse second ∧
      ∀ t ∈ front, t.sign ∈ first.toList := by
  obtain ⟨front, hscan, hsign⟩ := exists_scan_append (unbroken first) (unbroken second)
  rw [← unbroken_append] at hscan
  exact ⟨front, hscan, fun t ht => List.mem_of_mem_filter (hsign t ht)⟩

-- A sign survives the removal of line breaks, so it still stands between the two texts.
theorem parse_append {second : String} (h : second.toList.head?.all isSign) (first : String) :
    parse (first ++ second) = parse first ++ parse second := by
  have hsign : (unbroken second).head?.all isSign := by
    unfold unbroken
    cases hsecond : second.toList with
    | nil => rfl
    | cons c rest =>
        have hc : isSign c := by rwa [hsecond] at h
        have hbreak : isLineBreak c = false := isLineBreak_eq_false_of_isSign hc
        simpa [hbreak] using hc
  have hscan : scan (unbroken first ++ unbroken second) = parse first ++ parse second :=
    scan_append_of_stops fun _ => takeWhile_eq_nil_of_sign hsign
  rwa [← unbroken_append] at hscan

-- Line breaks apart, two texts are read each on its own exactly if it is not so that a name
-- character begins the second and the first is open to it. The toggles of the second are there in
-- any case, behind what the first has come to.
theorem parse_append_iff (first second : String) :
    (parse (first ++ second) = parse first ++ parse second ↔
      ¬((unbroken second).head?.any isNameChar ∧ OpenEnd (unbroken first))) ∧
      parse second <:+ parse (first ++ second) := by
  constructor
  · have hscan := scan_append_iff (unbroken first) (unbroken second)
    rwa [← unbroken_append] at hscan
  · obtain ⟨front, hparse, -⟩ := exists_parse_append first second
    exact ⟨front, hparse.symm⟩

-- A bare sign at the end is open as well, also in front of a line break.
example : OpenEnd (unbroken "a+b-\r\n") ∧ ¬OpenEnd (unbroken "+a+b1") := by decide

example : parse ("-a+" ++ "\nb-c") = [⟨"a", false⟩, ⟨"b", true⟩, ⟨"c", false⟩] := rfl

end Dialect.Format.Toggle
