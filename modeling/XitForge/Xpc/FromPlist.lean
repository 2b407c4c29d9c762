import XitForge.PropertyList
import XitForge.Xpc.Channel

/-!
`From<plist::Value> for XPCObject`. Dates and UIDs are `todo!()`, and an integer has to be
an `i64`; what is converted at all comes back from `to_plist` as it was.
-/
namespace XitForge.Xpc

open PropertyList RustEval RustEval.Eval

section Conversion

/-- `as_signed` of an `Integer`. -/
def asSigned (value : ℤ) : Option Int64 :=
  if -2 ^ 63 ≤ value ∧ value < 2 ^ 63 then some (.ofInt value) else none

mutual

/-- `XPCObject::from`. -/
def fromPlist : Value → Eval Empty XPCObject
  | .array items => do
    let items ← fromPlistItems items
    return .array items
  | .dictionary entries => do
    let dict ← fromPlistEntries entries []
    return .dictionary dict
  | .boolean value => .ok (.bool value)
  | .data bytes => .ok (.data bytes)
  -- `todo!()`
  | .date _ => .panic
  | .real bits => .ok (.double bits)
  | .integer value =>
    match asSigned value with
    | some value => .ok (.int64 value)
    | none => .panic
  | .string text => .ok (.string text)
  -- `todo!()`
  | .uid _ => .panic
termination_by structural value => value

def fromPlistItems : List Value → Eval Empty (List XPCObject)
  | [] => .ok []
  | item :: rest => do
    let object ← fromPlist item
    let objects ← fromPlistItems rest
    return object :: objects
termination_by structural items => items

/-- The loop over the entries, with the dictionary made so far. -/
def fromPlistEntries : List (String × Value) → List (String × XPCObject) →
    Eval Empty (List (String × XPCObject))
  | [], dict => .ok dict
  | entry :: rest, dict => do
    let object ← fromPlistEntry entry
    fromPlistEntries rest (insertKey dict entry.1 object)
termination_by structural entries => entries

def fromPlistEntry : String × Value → Eval Empty XPCObject
  | (_, value) => fromPlist value
termination_by structural entry => entry

end

mutual

/-- What `to_plist` makes as a property list: it has no UIDs. -/
def PlistValue.toValue : PlistValue → Value
  | .string value => .string value
  | .boolean value => .boolean value
  | .real bits => .real bits
  | .integer value => .integer value
  | .date nanos => .date nanos
  | .data value => .data value
  | .array items => .array (toValueItems items)
  | .dictionary entries => .dictionary (toValueEntries entries)
termination_by structural value => value

def toValueItems : List PlistValue → List Value
  | [] => []
  | item :: rest => item.toValue :: toValueItems rest
termination_by structural items => items

def toValueEntries : List (String × PlistValue) → List (String × Value)
  | [] => []
  | entry :: rest => toValueEntry entry :: toValueEntries rest
termination_by structural entries => entries

def toValueEntry : String × PlistValue → String × Value
  | (key, value) => (key, value.toValue)
termination_by structural entry => entry

end

end Conversion

section Convertible

/-- What every value of an argument has to be like: no date, no UID, and no integer from
2⁶³ on. -/
def Convertible : Value → Prop
  | .date _ => False
  | .uid _ => False
  | .integer value => value < 2 ^ 63
  | _ => True

/-- `to_plist` gives the value of an object back. -/
def GivesBack (object : XPCObject) (value : Value) : Prop := object.toPlist.toValue = value

theorem asSigned_of_lt {value : ℤ} (h : -2 ^ 63 ≤ value ∧ value < 2 ^ 63) :
    asSigned value = some (.ofInt value) := if_pos h

theorem asSigned_of_le {value : ℤ} (h : 2 ^ 63 ≤ value) : asSigned value = none := by
  apply if_neg
  omega

theorem givesBack_int64 {value : ℤ} (h : -2 ^ 63 ≤ value ∧ value < 2 ^ 63) :
    GivesBack (.int64 (.ofInt value)) (.integer value) := by
  have hint : (Int64.ofInt value).toInt = value := by
    rw [Int64.toInt_ofInt]
    apply Int.bmod_eq_of_le <;> simp only [Int64.size] <;> omega
  unfold GivesBack
  rw [XPCObject.toPlist, hint, PlistValue.toValue]

theorem insertKey_of_notMem {dict : List (String × XPCObject)} {key : String}
    (h : key ∉ dict.map Prod.fst) (object : XPCObject) :
    insertKey dict key object = dict ++ [(key, object)] := by
  unfold insertKey
  apply if_neg
  intro hany
  obtain ⟨entry, hentry, hkey⟩ := List.any_eq_true.mp hany
  rw [beq_iff_eq] at hkey
  exact h (hkey ▸ List.mem_map_of_mem hentry)

theorem fromPlistItems_ok {items : List Value}
    (h : ∀ item ∈ items, ∃ object, fromPlist item = .ok object ∧ GivesBack object item) :
    ∃ objects, fromPlistItems items = .ok objects ∧
      toValueItems (toPlistItems objects) = items := by
  induction items with
  | nil => exact ⟨[], rfl, rfl⟩
  | cons item items ih =>
    obtain ⟨object, hobject, hback⟩ := h item List.mem_cons_self
    obtain ⟨objects, hobjects, hbacks⟩ := ih fun item hitem => h item (List.mem_cons_of_mem _ hitem)
    refine ⟨object :: objects, ?_, ?_⟩
    · rw [fromPlistItems, hobject, hobjects]
      rfl
    · rw [toPlistItems, toValueItems, hback, hbacks]

theorem fromPlistEntries_ok {entries : Dictionary} {dict : List (String × XPCObject)}
    (hkeys : (dict.map Prod.fst ++ entries.map Prod.fst).Nodup)
    (h : ∀ entry ∈ entries, ∃ object, fromPlist entry.2 = .ok object ∧ GivesBack object entry.2) :
    ∃ objects, fromPlistEntries entries dict = .ok (dict ++ objects) ∧
      toValueEntries (toPlistEntries objects) = entries := by
  induction entries generalizing dict with
  | nil =>
    refine ⟨[], ?_, rfl⟩
    rw [fromPlistEntries, List.append_nil]
  | cons entry entries ih =>
    obtain ⟨key, value⟩ := entry
    obtain ⟨object, hobject, hback⟩ := h (key, value) List.mem_cons_self
    rw [List.map_cons, List.append_cons] at hkeys
    have hkey : key ∉ dict.map Prod.fst := by
      intro hmem
      have hnodup := (List.nodup_append.mp hkeys).1
      rw [List.nodup_append] at hnodup
      exact hnodup.2.2 key hmem key (List.mem_singleton_self key) rfl
    have hkeys' : ((dict ++ [(key, object)]).map Prod.fst ++ entries.map Prod.fst).Nodup := by
      rw [List.map_append]
      exact hkeys
    obtain ⟨objects, hobjects, hbacks⟩ :=
      ih hkeys' fun entry hentry => h entry (List.mem_cons_of_mem _ hentry)
    refine ⟨(key, object) :: objects, ?_, ?_⟩
    · rw [fromPlistEntries, fromPlistEntry, hobject, ok_bind, insertKey_of_notMem hkey, hobjects,
        List.append_assoc]
      rfl
    · rw [toPlistEntries, toPlistEntry, toValueEntries, toValueEntry, hback, hbacks]

/-- The round trip, from the values inside to the value itself. -/
theorem exists_fromPlist {value : Value} (hformed : value.Forall WellFormed)
    (h : value.Forall Convertible) :
    ∃ object, fromPlist value = .ok object ∧ GivesBack object value := by
  induction value using Value.induction with
  | step value ih =>
    cases value with
    | array items =>
      rw [Value.forall_array] at hformed h
      have hitems : ∀ item ∈ items, ∃ object, fromPlist item = .ok object ∧ GivesBack object item :=
        fun item hitem => ih item hitem (hformed.2 item hitem) (h.2 item hitem)
      obtain ⟨objects, hobjects, hbacks⟩ := fromPlistItems_ok hitems
      refine ⟨.array objects, ?_, ?_⟩
      · rw [fromPlist, hobjects]
        rfl
      · unfold GivesBack
        rw [XPCObject.toPlist, PlistValue.toValue, hbacks]
    | dictionary entries =>
      rw [Value.forall_dictionary] at hformed h
      have hentries : ∀ entry ∈ entries,
          ∃ object, fromPlist entry.2 = .ok object ∧ GivesBack object entry.2 :=
        fun entry hentry => ih entry.2 (List.mem_map_of_mem hentry) (hformed.2 entry hentry)
          (h.2 entry hentry)
      have hkeys : (([] : List (String × XPCObject)).map Prod.fst ++
          entries.map Prod.fst).Nodup := hformed.1
      obtain ⟨objects, hobjects, hbacks⟩ := fromPlistEntries_ok hkeys hentries
      refine ⟨.dictionary objects, ?_, ?_⟩
      · rw [fromPlist, hobjects]
        rfl
      · unfold GivesBack
        rw [XPCObject.toPlist, PlistValue.toValue, hbacks]
    | integer value =>
      rw [Value.forall_leaf rfl] at hformed h
      have hrange : -2 ^ 63 ≤ value ∧ value < 2 ^ 63 := ⟨hformed.1, h⟩
      refine ⟨.int64 (.ofInt value), ?_, givesBack_int64 hrange⟩
      rw [fromPlist, asSigned_of_lt hrange]
    | boolean value => exact ⟨.bool value, rfl, rfl⟩
    | data bytes => exact ⟨.data bytes, rfl, rfl⟩
    | real bits => exact ⟨.double bits, rfl, rfl⟩
    | string text => exact ⟨.string text, rfl, rfl⟩
    | date nanos => exact ((Value.forall_leaf rfl).mp h).elim
    | uid value => exact ((Value.forall_leaf rfl).mp h).elim

end Convertible

section Panics

/-- The conversion has no errors: nothing comes before a panic. -/
theorem bind_panic {α β : Type} (first : Eval Empty α) :
    (first >>= fun _ => (.panic : Eval Empty β)) = .panic := by
  cases first with
  | ok value => rfl
  | err error => exact error.elim
  | panic => rfl

theorem fromPlistItems_panic {items : List Value} {item : Value} (hitem : item ∈ items)
    (h : fromPlist item = .panic) : fromPlistItems items = .panic := by
  induction items with
  | nil => cases hitem
  | cons first items ih =>
    rw [fromPlistItems]
    rcases List.mem_cons.mp hitem with rfl | hrest
    · rw [h, panic_bind]
    · simp only [ih hrest, panic_bind, bind_panic]

theorem fromPlistEntries_panic {entries : Dictionary} {entry : String × Value}
    (hentry : entry ∈ entries) (h : fromPlist entry.2 = .panic)
    (dict : List (String × XPCObject)) : fromPlistEntries entries dict = .panic := by
  induction entries generalizing dict with
  | nil => cases hentry
  | cons first entries ih =>
    rw [fromPlistEntries, fromPlistEntry]
    rcases List.mem_cons.mp hentry with rfl | hrest
    · rw [h, panic_bind]
    · simp only [ih hrest, bind_panic]

/-- One value that is not convertible is enough, however deep it is. -/
theorem fromPlist_panic {value : Value} (h : ¬ value.Forall Convertible) :
    fromPlist value = .panic := by
  induction value using Value.induction with
  | step value ih =>
    cases value with
    | array items =>
      rw [Value.forall_array, not_and] at h
      obtain ⟨item, hitem, hnot⟩ := not_forall₂.mp (h trivial)
      rw [fromPlist, fromPlistItems_panic hitem (ih item hitem hnot), panic_bind]
    | dictionary entries =>
      rw [Value.forall_dictionary, not_and] at h
      obtain ⟨entry, hentry, hnot⟩ := not_forall₂.mp (h trivial)
      have hpanic := ih entry.2 (List.mem_map_of_mem hentry) hnot
      rw [fromPlist, fromPlistEntries_panic hentry hpanic, panic_bind]
    | integer value =>
      rw [Value.forall_leaf rfl] at h
      rw [fromPlist, asSigned_of_le (Int.not_lt.mp h)]
    | date nanos => rfl
    | uid value => rfl
    | boolean value => exact absurd ((Value.forall_leaf rfl).mpr trivial) h
    | data bytes => exact absurd ((Value.forall_leaf rfl).mpr trivial) h
    | real bits => exact absurd ((Value.forall_leaf rfl).mpr trivial) h
    | string text => exact absurd ((Value.forall_leaf rfl).mpr trivial) h

end Panics

end XitForge.Xpc
