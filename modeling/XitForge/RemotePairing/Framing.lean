import XitForge.ByteStream
import XitForge.JsonValue
import XitForge.RustEval

/-!
Reads of an exact length and JSON bodies: what the framed protocols of remote pairing have in
common.
-/
namespace XitForge.RemotePairing

open RustEval ByteStream JsonValue

inductive ReadError where
  | socket
  | unexpectedResponse (message : String)
  | json (message : String)
  | internalError (message : String)
  deriving DecidableEq, Repr

/-- `serde_json::from_slice`, with the text of its error. -/
abbrev Parse := List UInt8 → Except String Value

def fromSlice (parse : Parse) (error : String → ReadError) (body : List UInt8) :
    Eval ReadError Value :=
  match parse body with
  | .error message => .err (error message)
  | .ok response => .ok response

/-- `read_exact` of a stream that gives these bytes and then ends. -/
def AsyncReadExt.readExact (count : ℕ) (unread : List UInt8) :
    Eval ReadError (List UInt8 × List UInt8) :=
  match splitExact count unread with
  | none => .err .socket
  | some front => .ok front

section Lemmas

variable {parse : Parse} {bytes tail : List UInt8}

theorem fromSlice_eq_ok_iff {error : String → ReadError} {response : Value} :
    fromSlice parse error bytes = .ok response ↔ parse bytes = .ok response := by
  unfold fromSlice
  cases parse bytes with
  | error message => exact iff_of_false nofun nofun
  | ok value => exact ⟨fun h => congrArg Except.ok (Eval.ok.inj h), fun h =>
      congrArg Eval.ok (Except.ok.inj h)⟩

theorem AsyncReadExt.readExact_eq_ok_iff {count : ℕ} {front : List UInt8} :
    AsyncReadExt.readExact count bytes = .ok (front, tail) ↔
      bytes = front ++ tail ∧ front.length = count := by
  unfold AsyncReadExt.readExact
  constructor
  · intro h
    split at h
    · cases h
    · rename_i hsplit
      cases h
      exact splitExact_eq_some hsplit
  · intro hgiven
    obtain ⟨rfl, hlength⟩ := hgiven
    rw [splitExact_append hlength]

theorem AsyncReadExt.readExact_returns (count : ℕ) (bytes : List UInt8) :
    (AsyncReadExt.readExact count bytes).Returns fun _ => True := by
  unfold AsyncReadExt.readExact
  split <;> trivial

theorem fromSlice_returns (parse : Parse) (error : String → ReadError) (bytes : List UInt8) :
    (fromSlice parse error bytes).Returns fun _ => True := by
  unfold fromSlice
  split <;> trivial

end Lemmas

end XitForge.RemotePairing
