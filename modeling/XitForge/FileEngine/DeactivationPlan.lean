import Mathlib.Data.Rat.Defs
import XitForge.FileEngine.Route
import XitForge.KeyedList

/-!
The plan of a deactivation. The server lists originals by their destination and delete rules
by their option; the destinations are the files of the selected options, each with the app it
is in.
-/
namespace XitForge.FileEngine

open KeyedList Utf16

/-- A value of a row. Only strings and numbers are looked at. -/
inductive PanelValue where
  | string (text : Units)
  | number (value : ℚ)
  | other (tag : ℕ)
  deriving DecidableEq

abbrev Row := List (String × PanelValue)

namespace DeactivationPlan

/-- A value that is a string. -/
def stringOf : Option PanelValue → Option Units
  | some (.string text) => some text
  | _ => none

/-- A value that is a string and not empty. -/
def textOf (value : Option PanelValue) : Option Units := (stringOf value).filter (· ≠ [])

/-- `relativePathForRoute:fileName:error:` of a row, where that is not empty. -/
def pathOf (foundation : Foundation) (row : Row) : Option Units :=
  (relativePath foundation (stringOf (get row "route"))
    (stringOf (get row "fileName"))).toOption.filter (· ≠ [])

/-- What the panel answers, and what is selected. An element that is no dictionary is
`none`. -/
structure Request where
  originals : List (Option Row)
  rules : List (Option Row)
  destinations : List Row
  optionIDs : List ℚ

inductive PlanError where
  | invalidRule
  | invalidDestination
  | uncovered (path : Units)
  | empty
  deriving DecidableEq

def PlanError.text : PlanError → String × Units
  | .invalidRule => ("Una regla de borrado de la opción activa tiene una ruta inválida.", [])
  | .invalidDestination => ("No se pudo identificar la ruta de la opción activa.", [])
  | .uncovered path => ("El panel no tiene original ni regla de borrado para %@.", path)
  | .empty => ("El panel no tiene acciones de desactivación para esta selección.", [])

variable (foundation : Foundation)

def addOriginal (originalByPath : List (Units × Row)) : Option Row → List (Units × Row)
  | none => originalByPath
  | some row =>
    match pathOf foundation row with
    | none => originalByPath
    | some path =>
      if textOf (get row "originalFileUrl") = none then originalByPath
      else insert originalByPath path row

/-- The row is one of a selected option. -/
def isSelected (optionIDs : List ℚ) (row : Row) : Bool :=
  match get row "optionId" with
  | some (.number id) => id ∈ optionIDs
  | _ => false

/-- The loop over the rules, with `deleteByPath` and `deleteOrder`. -/
def collectRules (optionIDs : List ℚ) :
    List (Units × Row) × List Units → List (Option Row) →
      Except PlanError (List (Units × Row) × List Units)
  | deletes, [] => .ok deletes
  | deletes, none :: rest => collectRules optionIDs deletes rest
  | (deleteByPath, deleteOrder), some row :: rest =>
    if isSelected optionIDs row then
      match pathOf foundation row with
      | none => .error .invalidRule
      | some path =>
        collectRules optionIDs (insert deleteByPath path row,
          if get deleteByPath path = none then deleteOrder ++ [path] else deleteOrder) rest
    else collectRules optionIDs (deleteByPath, deleteOrder) rest

/-- A copy of a row, as an action on a path. -/
def makeAction (row : Row) (action : String) (path : Units) (bundle : Option Units) : Row :=
  let copy := insert row "action" (.string (ascii action))
  let copy := insert copy "relativePath" (.string path)
  match bundle with
  | some bundle => insert copy "bundleId" (.string bundle)
  | none => copy

/-- The loop over the destinations, with `actions` and `planned`. -/
def planDestinations (originalByPath deleteByPath : List (Units × Row)) :
    List Row × List Units → List Row → Except PlanError (List Row × List Units)
  | plan, [] => .ok plan
  | (actions, planned), destination :: rest =>
    match pathOf foundation destination with
    | none => .error .invalidDestination
    | some path =>
      if path ∈ planned then
        planDestinations originalByPath deleteByPath (actions, planned) rest
      else
        match (get deleteByPath path).or (get originalByPath path) with
        | none => .error (.uncovered path)
        | some row =>
          let action := makeAction row (if get deleteByPath path = none then "replace" else "delete")
            path (textOf (get destination "bundleId"))
          planDestinations originalByPath deleteByPath (actions ++ [action], planned ++ [path]) rest

/-- The loop over the rules of the selected options that name no destination. -/
def planRules (deleteByPath : List (Units × Row)) :
    List Row × List Units → List Units → List Row × List Units
  | plan, [] => plan
  | (actions, planned), path :: rest =>
    if path ∈ planned then planRules deleteByPath (actions, planned) rest
    else
      let action := makeAction ((get deleteByPath path).getD []) "delete" path none
      planRules deleteByPath (actions ++ [action], planned ++ [path]) rest

/-- `XFPanelDeactivationPlan`. -/
def panelDeactivationPlan (r : Request) : Except PlanError (List Row) := do
  let originalByPath := r.originals.foldl (addOriginal foundation) []
  let (deleteByPath, deleteOrder) ← collectRules foundation r.optionIDs ([], []) r.rules
  let plan ← planDestinations foundation originalByPath deleteByPath ([], []) r.destinations
  let (actions, _) := planRules deleteByPath plan deleteOrder
  if actions = [] then .error .empty else .ok actions

section Selection

/-- A rule of a selected option. -/
def Selected (r : Request) (row : Row) : Prop :=
  some row ∈ r.rules ∧ isSelected r.optionIDs row = true

/-- A selected option names the path in a rule. -/
def Deletes (r : Request) (path : Units) : Prop :=
  ∃ row, Selected r row ∧ pathOf foundation row = some path

def IsOriginal (r : Request) (path : Units) (row : Row) : Prop :=
  some row ∈ r.originals ∧ pathOf foundation row = some path ∧
    textOf (get row "originalFileUrl") ≠ none

/-- A destination has the path. -/
def Named (r : Request) (path : Units) : Prop :=
  ∃ destination ∈ r.destinations, pathOf foundation destination = some path

/-- There is no plan. -/
def Refused (r : Request) : Prop :=
  (∃ destination ∈ r.destinations, pathOf foundation destination = none) ∨
  (∃ row, Selected r row ∧ pathOf foundation row = none) ∨
  (∃ path, Named foundation r path ∧ ¬ Deletes foundation r path ∧
    ∀ row, ¬ IsOriginal foundation r path row) ∨
  ((∀ path, ¬ Named foundation r path) ∧ ∀ path, ¬ Deletes foundation r path)

/-- The last row that meets a condition. -/
def lastRow (condition : Row → Bool) : List (Option Row) → Option Row
  | [] => none
  | none :: rest => lastRow condition rest
  | some row :: rest => (lastRow condition rest).or (if condition row then some row else none)

theorem lastRow_eq_some {condition : Row → Bool} {rows : List (Option Row)} {row : Row}
    (h : lastRow condition rows = some row) : some row ∈ rows ∧ condition row = true := by
  induction rows with
  | nil => cases h
  | cons item rest ih =>
    cases item with
    | none =>
      obtain ⟨hmem, hrow⟩ := ih h
      exact ⟨List.mem_cons_of_mem _ hmem, hrow⟩
    | some first =>
      rw [lastRow, Option.or_eq_some_iff] at h
      rcases h with h | ⟨_, h⟩
      · obtain ⟨hmem, hrow⟩ := ih h
        exact ⟨List.mem_cons_of_mem _ hmem, hrow⟩
      · obtain ⟨hfirst, heq⟩ := Option.ite_none_right_eq_some.mp h
        cases heq
        exact ⟨List.mem_cons_self, hfirst⟩

theorem lastRow_eq_none {condition : Row → Bool} {rows : List (Option Row)}
    (h : lastRow condition rows = none) {row : Row} (hmem : some row ∈ rows) :
    condition row = false := by
  induction rows with
  | nil => cases hmem
  | cons item rest ih =>
    cases item with
    | none =>
      rw [List.mem_cons] at hmem
      rcases hmem with hmem | hmem
      · cases hmem
      · exact ih h hmem
    | some first =>
      rw [lastRow, Option.or_eq_none_iff] at h
      rw [List.mem_cons, Option.some.injEq] at hmem
      rcases hmem with rfl | hmem
      · simpa using h.2
      · exact ih h.1 hmem

def ruleFor (r : Request) (path : Units) : Option Row :=
  lastRow (fun row => isSelected r.optionIDs row && pathOf foundation row == some path) r.rules

def originalFor (r : Request) (path : Units) : Option Row :=
  lastRow (fun row => pathOf foundation row == some path &&
    (textOf (get row "originalFileUrl")).isSome) r.originals

/-- What an action on a path is a copy of. -/
def rowFor (r : Request) (path : Units) : Option Row :=
  (ruleFor foundation r path).or (originalFor foundation r path)

/-- The bundle that the first destination of a path names. -/
def bundleFor (destinations : List Row) (path : Units) : Option Units :=
  (destinations.find? fun destination => pathOf foundation destination == some path).bind
    fun destination => textOf (get destination "bundleId")

def kindFor (r : Request) (path : Units) : String :=
  if ruleFor foundation r path = none then "replace" else "delete"

/-- The action on a path. -/
def actionFor (r : Request) (path : Units) : Row :=
  makeAction ((rowFor foundation r path).getD []) (kindFor foundation r path) path
    (bundleFor foundation r.destinations path)

variable {foundation} {r : Request} {path : Units} {row : Row}

theorem ruleFor_eq_some (h : ruleFor foundation r path = some row) :
    Selected r row ∧ pathOf foundation row = some path := by
  obtain ⟨hmem, hrow⟩ := lastRow_eq_some h
  rw [Bool.and_eq_true, beq_iff_eq] at hrow
  exact ⟨⟨hmem, hrow.1⟩, hrow.2⟩

theorem ruleFor_eq_none : ruleFor foundation r path = none ↔ ¬ Deletes foundation r path := by
  constructor
  · intro h hdeletes
    obtain ⟨row, ⟨hmem, hselected⟩, hpath⟩ := hdeletes
    have hrow := lastRow_eq_none h hmem
    simp [hselected, hpath] at hrow
  · intro h
    cases hrule : ruleFor foundation r path with
    | none => rfl
    | some row => exact absurd ⟨row, ruleFor_eq_some hrule⟩ h

theorem originalFor_eq_some (h : originalFor foundation r path = some row) :
    IsOriginal foundation r path row := by
  obtain ⟨hmem, hrow⟩ := lastRow_eq_some h
  rw [Bool.and_eq_true, beq_iff_eq] at hrow
  exact ⟨hmem, hrow.1, Option.isSome_iff_ne_none.mp hrow.2⟩

theorem originalFor_eq_none :
    originalFor foundation r path = none ↔ ∀ row, ¬ IsOriginal foundation r path row := by
  constructor
  · intro h row horiginal
    obtain ⟨hmem, hpath, hurl⟩ := horiginal
    have hrow := lastRow_eq_none h hmem
    simp [hpath, hurl] at hrow
  · intro h
    cases horiginal : originalFor foundation r path with
    | none => rfl
    | some row => exact absurd (originalFor_eq_some horiginal) (h row)

end Selection

section Actions

variable (row : Row) (action : String) (path : Units) (bundle : Option Units)

theorem get_makeAction_action :
    get (makeAction row action path bundle) "action" = some (.string (ascii action)) := by
  cases bundle <;> simp [makeAction, get_insert]

theorem get_makeAction_path :
    get (makeAction row action path bundle) "relativePath" = some (.string path) := by
  cases bundle <;> simp [makeAction, get_insert]

theorem get_makeAction_bundle : get (makeAction row action path bundle) "bundleId" =
    (bundle.map PanelValue.string).or (get row "bundleId") := by
  cases bundle <;> simp [makeAction, get_insert]

theorem get_makeAction_other {key : String} (haction : key ≠ "action")
    (hpath : key ≠ "relativePath") (hbundle : key ≠ "bundleId") :
    get (makeAction row action path bundle) key = get row key := by
  cases bundle <;> simp [makeAction, get_insert, haction, hpath, hbundle]

end Actions

end DeactivationPlan

end XitForge.FileEngine
