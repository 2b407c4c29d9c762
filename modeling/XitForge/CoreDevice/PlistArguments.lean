import XitForge.CoreDevice.Invocations
import XitForge.Xpc.FromPlist

/-!
Property lists as arguments of a `CoreDeviceServiceClient`. Each invocation converts its
input before it sends anything, and panics if there is a value inside that the conversion
has no case for.
-/
namespace XitForge.CoreDevice.PlistArguments

open Invocations (Call)
open PropertyList RustEval RustEval.Eval
open Xpc (Convertible XPCObject exists_fromPlist fromPlist fromPlist_panic)

section Values

def UidFree : Value → Prop
  | .uid _ => False
  | _ => True

/-- The conversion returns, and a value without UIDs comes back from `to_plist`. -/
def Survives (value : Value) : Prop :=
  fromPlist value ≠ .panic ∧
    (value.Forall UidFree →
      ∃ object, fromPlist value = .ok object ∧ object.toPlist.toValue = value)

theorem survives_iff_convertible (plist : Plist) :
    Survives plist.value ↔ plist.value.Forall Convertible := by
  constructor
  · intro hsurvives
    by_contra hnot
    exact hsurvives.1 (fromPlist_panic hnot)
  · intro hconvertible
    obtain ⟨object, hobject, hback⟩ := exists_fromPlist plist.wellFormed hconvertible
    refine ⟨?_, fun _ => ⟨object, hobject, hback⟩⟩
    rw [hobject]
    nofun

/-- An integer that is a `u64` only, in an array of the dictionary. -/
def largeInteger : Plist where
  value := .dictionary [("identifiers", .array [.integer (2 ^ 63)])]
  wellFormed := by
    rw [Value.forall_dictionary]
    refine ⟨List.nodup_singleton _, ?_⟩
    rw [List.forall_mem_singleton, Value.forall_array, List.forall_mem_singleton,
      Value.forall_leaf rfl]
    exact ⟨trivial, by unfold WellFormed; decide⟩

theorem not_survives_largeInteger : ¬ Survives largeInteger.value := fun h => h.1 rfl

end Values

section Calls

/-- `to_dictionary`. -/
def toDictionary : XPCObject → Option (List (String × XPCObject))
  | .dictionary dict => some dict
  | _ => none

/-- The input of a call of `invoke_inner`: `into`, then `to_dictionary().unwrap()`. -/
def inputDictionary (input : Dictionary) : Eval Empty (List (String × XPCObject)) := do
  let object ← fromPlist (.dictionary input)
  match toDictionary object with
  | some input => return input
  | none => .panic

def invokeWithPlist (feature : String) (input : Dictionary) : Eval Empty Call := do
  let input ← inputDictionary input
  return .invokeWithPlist feature input

def invokeWithPlistAction (feature : String) (input : Dictionary) (actionIdentifier : String) :
    Eval Empty Call := do
  let input ← inputDictionary input
  return .invokeWithPlistAction feature input actionIdentifier

def invokeActionWithPlist (actionIdentifier : String) (input : Dictionary) : Eval Empty Call := do
  let input ← inputDictionary input
  return .invokeActionWithPlist actionIdentifier input

/-- The first poll of the stream makes the conversion. -/
def invokeStreamingWithPlist (feature : String) (input : Dictionary) : Eval Empty Call := do
  let input ← fromPlist (.dictionary input)
  return .streaming feature input

/-- The functions that take a property list, with their other arguments. -/
inductive Invocation where
  | withPlist (feature : String)
  | withPlistAction (feature actionIdentifier : String)
  | actionWithPlist (actionIdentifier : String)
  | streamingWithPlist (feature : String)

def Invocation.call (input : Dictionary) : Invocation → Eval Empty Call
  | withPlist feature => invokeWithPlist feature input
  | withPlistAction feature actionIdentifier =>
    invokeWithPlistAction feature input actionIdentifier
  | actionWithPlist actionIdentifier => invokeActionWithPlist actionIdentifier input
  | streamingWithPlist feature => invokeStreamingWithPlist feature input

/-- The input in the request of a call. -/
def inputOf : Call → XPCObject
  | .inner _ input _ => .dictionary (input.getD [])
  | .streaming _ input => input

/-- A dictionary is converted to a dictionary, so the `unwrap` is safe. -/
theorem inputDictionary_eq {input : Dictionary} {object : XPCObject}
    (h : fromPlist (.dictionary input) = .ok object) :
    ∃ dict, object = .dictionary dict ∧ inputDictionary input = .ok dict := by
  have hobject := h
  rw [fromPlist, bind_eq_ok] at hobject
  obtain ⟨dict, -, hdict⟩ := hobject
  cases hdict
  refine ⟨dict, rfl, ?_⟩
  rw [inputDictionary, h]
  rfl

/-- An input that is convertible is in the request, and comes back from `to_plist`. -/
theorem exists_call {input : Dictionary} (hformed : (Value.dictionary input).Forall WellFormed)
    (h : (Value.dictionary input).Forall Convertible) (invocation : Invocation) :
    ∃ call, invocation.call input = .ok call ∧
      (inputOf call).toPlist.toValue = .dictionary input := by
  obtain ⟨object, hobject, hback⟩ := exists_fromPlist hformed h
  obtain ⟨dict, rfl, hdict⟩ := inputDictionary_eq hobject
  cases invocation with
  | withPlist feature =>
    refine ⟨.invokeWithPlist feature dict, ?_, hback⟩
    rw [Invocation.call, invokeWithPlist, hdict, ok_bind, pure_eq]
  | withPlistAction feature actionIdentifier =>
    refine ⟨.invokeWithPlistAction feature dict actionIdentifier, ?_, hback⟩
    rw [Invocation.call, invokeWithPlistAction, hdict, ok_bind, pure_eq]
  | actionWithPlist actionIdentifier =>
    refine ⟨.invokeActionWithPlist actionIdentifier dict, ?_, hback⟩
    rw [Invocation.call, invokeActionWithPlist, hdict, ok_bind, pure_eq]
  | streamingWithPlist feature =>
    refine ⟨.streaming feature (.dictionary dict), ?_, hback⟩
    rw [Invocation.call, invokeStreamingWithPlist, hobject, ok_bind, pure_eq]

/-- With any other input, the call panics before it sends anything. -/
theorem call_panic {input : Dictionary} (h : ¬ (Value.dictionary input).Forall Convertible)
    (invocation : Invocation) : invocation.call input = .panic := by
  have hpanic := fromPlist_panic h
  have hinput : inputDictionary input = .panic := by
    rw [inputDictionary, hpanic, panic_bind]
  cases invocation with
  | withPlist feature => rw [Invocation.call, invokeWithPlist, hinput, panic_bind]
  | withPlistAction feature actionIdentifier =>
    rw [Invocation.call, invokeWithPlistAction, hinput, panic_bind]
  | actionWithPlist actionIdentifier =>
    rw [Invocation.call, invokeActionWithPlist, hinput, panic_bind]
  | streamingWithPlist feature =>
    rw [Invocation.call, invokeStreamingWithPlist, hpanic, panic_bind]

end Calls

end XitForge.CoreDevice.PlistArguments
