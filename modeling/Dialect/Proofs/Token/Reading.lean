import Dialect.Proofs.Json.Bytes
import Dialect.Proofs.Token.Grammar

namespace Dialect.Document

-- What becomes of a text that was read as JSON, or was not.
def ofReading (reading : Except Json.SyntaxError Json) : Except Malformed Document :=
  match reading with
  | .error e => .error (.unreadable e)
  | .ok data => ofJson data

section Reading

variable {reading : Except Json.SyntaxError Json} {d : Document}

theorem ofReading_eq_ok_iff :
    ofReading reading = .ok d ↔ ∃ entries, reading = .ok (.obj entries) ∧ Writes entries d := by
  cases reading with
  | error e => simp [ofReading]
  | ok j => simp [ofReading, ofJson_eq_ok_iff]

theorem exists_ofReading_eq_error_iff :
    (∃ cause, ofReading reading = .error cause) ↔ ∀ j, reading = .ok j → ¬IsDocument j := by
  cases reading with
  | error e => simp [ofReading]
  | ok j => simp [ofReading, exists_ofJson_eq_error_iff]

end Reading

section Bytes

variable {bytes : List UInt8} {s : Text} {d : Document} {cause : Malformed}

theorem ofBytes_of_decode (h : Json.decode? bytes = some s) :
    ofBytes bytes = (ofReading (Json.readCodes s)).mapError .malformed := by
  unfold ofBytes Json.readBytes
  rw [h]
  cases hread : Json.readCodes s <;> simp [Except.mapError, ofReading, hread]

theorem ofBytes_eq_undecodable_iff :
    ofBytes bytes = .error .undecodable ↔ Json.decode? bytes = none := by
  cases h : Json.decode? bytes with
  | none => simp [ofBytes, Json.readBytes, h]
  | some s =>
      rw [ofBytes_of_decode h]
      cases ofReading (Json.readCodes s) <;> simp [Except.mapError]

-- Bytes that are a text come to what the text comes to.
theorem ofBytes_eq_mapError_iff (outcome : Except Malformed Document) :
    ofBytes bytes = outcome.mapError .malformed ↔
      ∃ s, Json.decode? bytes = some s ∧ ofReading (Json.readCodes s) = outcome := by
  cases h : Json.decode? bytes with
  | none =>
      rw [ofBytes_eq_undecodable_iff.mpr h]
      cases outcome <;> simp [Except.mapError]
  | some s =>
      rw [ofBytes_of_decode h]
      cases hreading : ofReading (Json.readCodes s) <;> cases outcome <;>
        simp [Except.mapError, hreading]

theorem ofBytes_eq_ok_iff : ofBytes bytes = .ok d ↔
    ∃ s, Json.decode? bytes = some s ∧ ofReading (Json.readCodes s) = .ok d :=
  ofBytes_eq_mapError_iff (.ok d)

theorem ofBytes_eq_malformed_iff : ofBytes bytes = .error (.malformed cause) ↔
    ∃ s, Json.decode? bytes = some s ∧ ofReading (Json.readCodes s) = .error cause :=
  ofBytes_eq_mapError_iff (.error cause)

end Bytes

-- Whatever is read, text or bytes: a document comes of it, whose blocks are the tokens that an
-- object writes and whose version is the list of whole numbers that it writes, if there is such
-- an object, and a reported cause if there is none. Bytes that spell no text, in the encoding
-- that they look like, are the only ones that come to another end, and all of them do.
theorem reading_contained (text : Text) (bytes : List UInt8) :
    ((∀ d, ofText text = .ok d ↔
        ∃ entries, Json.read text = .ok (.obj entries) ∧ Writes entries d) ∧
      ((∃ cause, ofText text = .error cause) ↔ ∀ j, Json.read text = .ok j → ¬IsDocument j)) ∧
    (∀ d, ofBytes bytes = .ok d ↔ ∃ s entries, Json.Spells bytes s ∧
      Json.readCodes s = .ok (.obj entries) ∧ Writes entries d) ∧
    ((∃ cause, ofBytes bytes = .error (.malformed cause)) ↔ ∃ s, Json.Spells bytes s ∧
      ∀ j, Json.readCodes s = .ok j → ¬IsDocument j) ∧
    (ofBytes bytes = .error .undecodable ↔ ∀ s, ¬Json.Spells bytes s) := by
  refine ⟨⟨fun d => ?_, ?_⟩, fun d => ?_, ?_, ?_⟩
  · exact ofReading_eq_ok_iff
  · exact exists_ofReading_eq_error_iff
  · simp only [ofBytes_eq_ok_iff, Json.decode?_eq_some_iff, ofReading_eq_ok_iff]
    constructor
    · rintro ⟨s, hspells, entries, hread, hwrites⟩
      exact ⟨s, entries, hspells, hread, hwrites⟩
    · rintro ⟨s, entries, hspells, hread, hwrites⟩
      exact ⟨s, hspells, entries, hread, hwrites⟩
  · simp only [ofBytes_eq_malformed_iff, Json.decode?_eq_some_iff]
    constructor
    · rintro ⟨cause, s, hspells, hcause⟩
      exact ⟨s, hspells, exists_ofReading_eq_error_iff.mp ⟨cause, hcause⟩⟩
    · rintro ⟨s, hspells, hrefused⟩
      obtain ⟨cause, hcause⟩ := exists_ofReading_eq_error_iff.mpr hrefused
      exact ⟨cause, s, hspells, hcause⟩
  · rw [ofBytes_eq_undecodable_iff, Json.decode?_eq_none_iff]

-- A byte that starts no character.
theorem reading_contained_stray : ¬((∃ d, ofBytes [0xFF] = .ok d) ∨
    ∃ cause, ofBytes [0xFF] = .error (.malformed cause)) := by
  have hstray : ofBytes [0xFF] = .error .undecodable := by decide
  simp [hstray]

end Dialect.Document
