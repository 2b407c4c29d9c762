import Mathlib.Algebra.Order.Ring.Int
import XitForge.KeyedList

/-!
Property lists. A value has the values of its array or dictionary as children; an
induction goes from the children to the value, and a property of all the values inside
is one of the value and of all those inside its children.
-/
namespace XitForge.PropertyList

/-- A date is in nanoseconds since the Unix epoch, and a real is its bits. -/
inductive Value where
  | array (items : List Value)
  | dictionary (entries : List (String × Value))
  | boolean (value : Bool)
  | data (bytes : List UInt8)
  | date (nanos : ℤ)
  | real (bits : UInt64)
  | integer (value : ℤ)
  | string (text : String)
  | uid (value : UInt64)

abbrev Dictionary := List (String × Value)

namespace Value

def asArray : Value → Option (List Value)
  | array items => some items
  | _ => none

def asString : Value → Option String
  | string text => some text
  | _ => none

def asUnsignedInteger : Value → Option UInt64
  | integer value =>
    if 0 ≤ value ∧ value < 2 ^ 64 then some (UInt64.ofNat value.toNat) else none
  | _ => none

theorem asArray_eq_some {value : Value} {items : List Value} :
    value.asArray = some items ↔ value = array items := by
  cases value <;> simp [asArray]

theorem asUnsignedInteger_eq_some {value : Value} {n : UInt64} :
    value.asUnsignedInteger = some n ↔ value = integer n.toNat := by
  cases value with
  | integer value =>
    rw [asUnsignedInteger, integer.injEq]
    have hn := n.toNat_lt
    constructor
    · intro h
      split at h
      · rename_i hrange
        have hlt : value.toNat < 2 ^ 64 := by omega
        rw [← Option.some.inj h, UInt64.toNat_ofNat_of_lt' hlt]
        omega
      · cases h
    · intro h
      rw [h, if_pos (by omega), Int.toNat_natCast, UInt64.ofNat_toNat]
  | _ => simp [asUnsignedInteger]

def children : Value → List Value
  | array items => items
  | dictionary entries => entries.map Prod.snd
  | _ => []

theorem sizeOf_child_lt {child value : Value} (h : child ∈ value.children) :
    sizeOf child < sizeOf value := by
  cases value with
  | array items =>
    have hsize : sizeOf child < sizeOf items := List.sizeOf_lt_of_mem h
    rw [array.sizeOf_spec]
    omega
  | dictionary entries =>
    obtain ⟨entry, hentry, rfl⟩ := List.mem_map.mp h
    obtain ⟨key, value⟩ := entry
    have hsize := List.sizeOf_lt_of_mem hentry
    rw [Prod.mk.sizeOf_spec] at hsize
    rw [dictionary.sizeOf_spec]
    dsimp only
    omega
  | _ => cases h

theorem induction {P : Value → Prop}
    (step : ∀ value, (∀ child ∈ value.children, P child) → P value) (value : Value) : P value :=
  step value fun child h =>
    have := sizeOf_child_lt h
    induction step child
termination_by sizeOf value

/-- A value, or one inside it at some depth. -/
inductive Within (inner : Value) : Value → Prop where
  | refl : Within inner inner
  | child {child value : Value} : child ∈ value.children → Within inner child → Within inner value

/-- A property of a value and of all values inside it. -/
def Forall (P : Value → Prop) (value : Value) : Prop := ∀ inner, Within inner value → P inner

theorem forall_iff {P : Value → Prop} {value : Value} :
    value.Forall P ↔ P value ∧ ∀ child ∈ value.children, child.Forall P := by
  constructor
  · intro h
    exact ⟨h value .refl, fun child hchild inner hinner => h inner (.child hchild hinner)⟩
  · intro hall inner hinner
    cases hinner with
    | refl => exact hall.1
    | child hchild hinner => exact hall.2 _ hchild inner hinner

theorem forall_array {P : Value → Prop} {items : List Value} :
    (array items).Forall P ↔ P (array items) ∧ ∀ item ∈ items, item.Forall P := forall_iff

theorem forall_dictionary {P : Value → Prop} {entries : Dictionary} :
    (dictionary entries).Forall P ↔
      P (dictionary entries) ∧ ∀ entry ∈ entries, entry.2.Forall P := by
  rw [forall_iff, children, List.forall_mem_map]

theorem forall_leaf {P : Value → Prop} {value : Value} (h : value.children = []) :
    value.Forall P ↔ P value := by
  rw [forall_iff, h]
  simp

end Value

/-- What every value of a property list is like: an integer is an `i64` or a `u64`, and the
keys of a dictionary are different. -/
def WellFormed : Value → Prop
  | .integer value => -2 ^ 63 ≤ value ∧ value < 2 ^ 64
  | .dictionary entries => (entries.map Prod.fst).Nodup
  | _ => True

structure Plist where
  value : Value
  wellFormed : value.Forall WellFormed

end XitForge.PropertyList
