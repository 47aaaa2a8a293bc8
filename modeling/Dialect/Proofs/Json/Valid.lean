import Dialect.Json.Bytes
import Dialect.Proofs.Ensures
import Dialect.Proofs.Entries
import Dialect.Proofs.Json.Numeral

namespace Dialect.Json

mutual

-- Values as the reader makes them: the names of an object are distinct, and a double is one
-- that 64 bits hold.
def Valid : Json → Prop
  | .double d => d.Held
  | .arr items => ValidItems items
  | .obj entries => (Entries.keys entries).Nodup ∧ ValidMembers entries
  | _ => True

def ValidItems : List Json → Prop
  | [] => True
  | a :: rest => a.Valid ∧ ValidItems rest

def ValidMembers : List (Text × Json) → Prop
  | [] => True
  | (_, a) :: rest => a.Valid ∧ ValidMembers rest

end

theorem validItems_iff (items : List Json) : ValidItems items ↔ ∀ a ∈ items, a.Valid := by
  induction items with
  | nil => simp [ValidItems]
  | cons a rest ih => simp [ValidItems, ih]

theorem validMembers_iff (entries : List (Text × Json)) :
    ValidMembers entries ↔ ∀ p ∈ entries, p.2.Valid := by
  induction entries with
  | nil => simp [ValidMembers]
  | cons p rest ih => simp [ValidMembers, ih]

mutual

-- Values in whose strings and names no half of a surrogate pair stands on its own.
def Plain : Json → Prop
  | .str s => s.isPlain = true
  | .arr items => PlainItems items
  | .obj entries => PlainMembers entries
  | _ => True

def PlainItems : List Json → Prop
  | [] => True
  | a :: rest => a.Plain ∧ PlainItems rest

def PlainMembers : List (Text × Json) → Prop
  | [] => True
  | (name, a) :: rest => name.isPlain = true ∧ a.Plain ∧ PlainMembers rest

end

theorem plainItems_iff (items : List Json) : PlainItems items ↔ ∀ a ∈ items, a.Plain := by
  induction items with
  | nil => simp [PlainItems]
  | cons a rest ih => simp [PlainItems, ih]

theorem plainMembers_iff (entries : List (Text × Json)) :
    PlainMembers entries ↔ ∀ p ∈ entries, p.1.isPlain = true ∧ p.2.Plain := by
  induction entries with
  | nil => simp [PlainMembers]
  | cons p rest ih => simp [PlainMembers, ih, and_assoc]

theorem validMembers_ofPairs {pairs : List (Text × Json)} (h : ValidMembers pairs) :
    ValidMembers (Entries.ofPairs pairs) := by
  rw [validMembers_iff] at h ⊢
  intro p hp
  cases Entries.mem_putAll hp with
  | inl hp => cases hp
  | inr hp => exact h p hp

theorem valid_number? {negative : Bool} {s : Text} {r : Json × Text}
    (h : number? negative s = some r) : r.1.Valid := by
  unfold number? at h
  dsimp only at h
  split at h
  · cases h
  split at h
  · cases h
    trivial
  · cases h
    exact Double.held_ofDecimal _ _ _
  · cases h
    exact Double.held_ofDecimal _ _ _

theorem valid_of_mem_words {w : Text} {value : Json} (h : (w, value) ∈ words) :
    value.Valid := by
  simp only [words, List.mem_cons, Prod.mk.injEq, List.not_mem_nil, or_false] at h
  obtain ⟨-, rfl⟩ | ⟨-, rfl⟩ | ⟨-, rfl⟩ | ⟨-, rfl⟩ | ⟨-, rfl⟩ | ⟨-, rfl⟩ := h
  all_goals trivial

theorem valid_atom (s : Text) : Ensures (fun r => r.1.Valid) (atom s) := by
  unfold atom
  split
  · rename_i found hfound
    obtain ⟨⟨w, value⟩, hmem, hread⟩ := List.exists_of_findSome?_eq_some hfound
    obtain ⟨rest, -, rfl⟩ := Option.map_eq_some_iff.mp hread
    exact .ok (valid_of_mem_words hmem)
  · dsimp only
    split
    · rename_i read hread
      refine .ok ?_
      split at hread
      · exact valid_number? hread
      · exact valid_number? hread
    · exact .error _

-- What is read is valid, whatever the text: by the fuel, since every call spends some.
theorem valid_readValue (fuel : Nat) (s : Text) :
    Ensures (fun r => r.1.Valid) (readValue fuel s) ∧
    Ensures (fun r => ValidItems r.1) (readItems fuel s) ∧
    Ensures (fun r => ValidMembers r.1) (readMembers fuel s) := by
  induction fuel generalizing s with
  | zero => exact ⟨.error _, .error _, .error _⟩
  | succ fuel ih =>
      refine ⟨?_, ?_, ?_⟩
      · unfold readValue
        split
        · exact .bind (.trivially _) fun _ _ => .ok trivial
        · split
          · exact .ok trivial
          · exact (ih _).2.1.bind fun r hr => .ok hr
        · split
          · exact .ok ⟨List.nodup_nil, trivial⟩
          · exact (ih _).2.2.bind fun r hr =>
              .ok ⟨Entries.nodup_keys_ofPairs r.1, validMembers_ofPairs hr⟩
        · exact valid_atom _
      · unfold readItems
        refine (ih s).1.bind fun first hfirst => ?_
        dsimp only
        split
        · exact .ok ⟨hfirst, trivial⟩
        · exact (ih _).2.1.bind fun r hr => .ok ⟨hfirst, hr⟩
        · exact .error _
      · unfold readMembers
        split
        · refine .bind (.trivially _) fun name _ => ?_
          dsimp only
          split
          · refine (ih _).1.bind fun first hfirst => ?_
            split
            · exact .ok ⟨hfirst, trivial⟩
            · exact (ih _).2.2.bind fun r hr => .ok ⟨hfirst, hr⟩
            · exact .error _
          · exact .error _
        · exact .error _

theorem valid_readWhole (s : Text) : Ensures Valid (readWhole s) := by
  refine (valid_readValue _ _).1.bind fun r hr => ?_
  dsimp only
  split
  · exact .ok hr
  · exact .error _

theorem valid_readCodes (s : Text) : Ensures Valid (readCodes s) :=
  (valid_readWhole s).mapError _

theorem valid_read (text : Text) : Ensures Valid (read text) := by
  unfold read
  split
  · split
    · exact .error _
    · exact valid_readCodes _
  · exact valid_readCodes _

theorem valid_readBytes (bytes : List UInt8) : Ensures Valid (readBytes bytes) := by
  unfold readBytes
  split
  · exact .error _
  · exact (valid_readCodes _).mapError _

end Dialect.Json
