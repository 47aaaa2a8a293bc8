import Dialect.Proofs.Format.Toggle

-- Switching a list off as a text and switching off the toggles that are read in it.

namespace Dialect.Format.Toggle

-- What disabling a text does to each of its characters, and what comes of a toggle.
def minus (c : Char) : Char :=
  if c = '+' then '-' else c

def off (t : Toggle) : Toggle :=
  { t with enabled := false }

theorem minus_ne_plus (c : Char) : minus c ≠ '+' := by
  unfold minus
  split
  · decide
  · assumption

-- Whatever does not tell a plus from a minus does not see the change.
theorem apply_minus {p : Char → Bool} (hp : p '+' = p '-') (c : Char) : p (minus c) = p c := by
  unfold minus
  split
  · rename_i hc
    rw [hc, hp]
  · rfl

theorem minus_of_isNameChar {c : Char} (h : isNameChar c) : minus c = c := by
  unfold minus
  split
  · rename_i hc
    subst hc
    exact absurd h (by decide)
  · rfl

theorem toList_disable (text : String) : (disable text).toList = text.toList.map minus :=
  String.toList_ofList

theorem plus_notMem_disable (text : String) : '+' ∉ (disable text).toList := by
  rw [toList_disable]
  intro h
  obtain ⟨c, -, hc⟩ := List.mem_map.mp h
  exact minus_ne_plus c hc

-- A name has no sign in it, so it ends where it did and says the same.
theorem takeWhile_map_minus (cs : List Char) :
    (cs.map minus).takeWhile isNameChar = cs.takeWhile isNameChar := by
  have hsame : isNameChar ∘ minus = isNameChar := funext (apply_minus rfl)
  rw [List.takeWhile_map, hsame]
  have hname : ∀ c ∈ cs.takeWhile isNameChar, minus c = id c :=
    fun c hc => minus_of_isNameChar (List.mem_takeWhile_imp hc)
  rw [List.map_congr_left hname, List.map_id]

theorem scan_map_minus (cs : List Char) : scan (cs.map minus) = (scan cs).map off := by
  induction cs with
  | nil => rfl
  | cons c rest ih =>
      have hsign : isSign (minus c) = isSign c := apply_minus rfl c
      have hplus : (minus c == '+') = false := by simp [minus_ne_plus]
      simp only [List.map_cons, scan, takeWhile_map_minus, hsign, hplus, ih]
      split <;> rfl

theorem parse_disable (text : String) : parse (disable text) = (parse text).map off := by
  have hbreak : (fun c => !isLineBreak c) ∘ minus = fun c => !isLineBreak c :=
    funext fun c => congrArg not (apply_minus (p := isLineBreak) rfl c)
  rw [parse, toList_disable, List.filter_map, hbreak, scan_map_minus]
  rfl

theorem states_map_off (toggles : List Toggle) : states (toggles.map off) =
    (Entries.keys (states toggles)).map fun name => (name, false) := by
  have hpairs : (toggles.map off).map (fun t => (t.name, t.enabled)) =
      (toggles.map fun t => (t.name, t.enabled)).map (Prod.map id fun _ => false) := by
    simp [off, Function.comp_def]
  rw [states, hpairs, Entries.ofPairs_map, Entries.keys, List.map_map]
  rfl

-- Every plus of a text turned into a minus switches off each toggle that is read in it, and does
-- nothing else: the names stay, in their order and as often as they came. So do the keys of the
-- states, all of which are off.
theorem disable_switches_off (text : String) :
    parse (disable text) = (parse text).map off ∧
      states (parse (disable text)) =
        (Entries.keys (states (parse text))).map fun name => (name, false) := by
  refine ⟨parse_disable text, ?_⟩
  rw [parse_disable, states_map_off]

end Dialect.Format.Toggle
