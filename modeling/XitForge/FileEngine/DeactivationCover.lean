import XitForge.FileEngine.DeactivationPlan

/-!
What a deactivation plan covers. The loops are described by what they have put on the plan for
the rows seen so far; a plan has one action for each path, with the bundle of the first
destination of that path.
-/
namespace XitForge.FileEngine.DeactivationPlan

open KeyedList Utf16

variable {foundation : Foundation} {r : Request} {path : Units} {row : Row}

section Originals

/-- The last original of a path is the one that stays. -/
theorem get_originals (rows : List (Option Row)) (entries : List (Units × Row)) (path : Units) :
    get (rows.foldl (addOriginal foundation) entries) path =
      (lastRow (fun row => pathOf foundation row == some path &&
        (textOf (get row "originalFileUrl")).isSome) rows).or (get entries path) := by
  induction rows generalizing entries with
  | nil => rfl
  | cons item rest ih =>
    rw [List.foldl_cons, ih]
    cases item with
    | none => rfl
    | some row =>
      have hadd : get (addOriginal foundation entries (some row)) path =
          (if (pathOf foundation row == some path &&
            (textOf (get row "originalFileUrl")).isSome) = true then some row else none).or
              (get entries path) := by
        unfold addOriginal
        cases hpath : pathOf foundation row with
        | none => simp [hpath]
        | some other =>
          cases hurl : textOf (get row "originalFileUrl") with
          | none => simp [hpath, hurl]
          | some url =>
            by_cases heq : path = other
            · simp [hpath, hurl, get_insert, heq]
            · simp [hpath, hurl, get_insert, heq, Ne.symm heq]
      rw [hadd, lastRow, Option.or_assoc]

end Originals

section Rules

/-- The order has every path with a rule once. -/
def Ordered (deletes : List (Units × Row) × List Units) : Prop :=
  deletes.2.Nodup ∧ ∀ path, path ∈ deletes.2 ↔ get deletes.1 path ≠ none

theorem Ordered.insert {deletes : List (Units × Row) × List Units} (h : Ordered deletes)
    (path : Units) (row : Row) :
    Ordered (KeyedList.insert deletes.1 path row,
      if get deletes.1 path = none then deletes.2 ++ [path] else deletes.2) := by
  obtain ⟨hnodup, hmem⟩ := h
  by_cases hnew : get deletes.1 path = none
  · have hfresh : path ∉ deletes.2 := fun hold => (hmem path).mp hold hnew
    rw [if_pos hnew]
    refine ⟨?_, fun other => ?_⟩
    · rw [List.nodup_append]
      refine ⟨hnodup, List.nodup_singleton path, fun a ha b hb => ?_⟩
      rw [List.mem_singleton.mp hb]
      exact fun heq => hfresh (heq ▸ ha)
    · rw [List.mem_append, List.mem_singleton, hmem, get_insert]
      by_cases heq : other = path
      · simp [heq]
      · simp [heq]
  · rw [if_neg hnew]
    refine ⟨hnodup, fun other => ?_⟩
    rw [hmem, get_insert]
    by_cases heq : other = path
    · simp [heq, hnew]
    · simp [heq]

theorem collectRules_ok {optionIDs : List ℚ} {deletes result : List (Units × Row) × List Units}
    {rows : List (Option Row)}
    (h : collectRules foundation optionIDs deletes rows = .ok result) (hordered : Ordered deletes) :
    Ordered result ∧
    (∀ row, some row ∈ rows → isSelected optionIDs row = true → pathOf foundation row ≠ none) ∧
    ∀ path, get result.1 path =
      (lastRow (fun row => isSelected optionIDs row && pathOf foundation row == some path)
        rows).or (get deletes.1 path) := by
  induction rows generalizing deletes with
  | nil =>
    cases h
    exact ⟨hordered, fun row hmem => absurd hmem List.not_mem_nil, fun path => rfl⟩
  | cons item rest ih =>
    cases item with
    | none =>
      obtain ⟨hresult, hpaths, hget⟩ := ih h hordered
      refine ⟨hresult, fun row hmem => ?_, hget⟩
      rw [List.mem_cons] at hmem
      rcases hmem with hmem | hmem
      · cases hmem
      · exact hpaths row hmem
    | some first =>
      obtain ⟨deleteByPath, deleteOrder⟩ := deletes
      rw [collectRules] at h
      cases hselected : isSelected optionIDs first with
      | false =>
        rw [hselected] at h
        obtain ⟨hresult, hpaths, hget⟩ := ih h hordered
        refine ⟨hresult, fun row hmem hrow => ?_, fun path => ?_⟩
        · rw [List.mem_cons, Option.some.injEq] at hmem
          rcases hmem with rfl | hmem
          · rw [hselected] at hrow
            cases hrow
          · exact hpaths row hmem hrow
        · rw [hget, lastRow, hselected]
          simp
      | true =>
        rw [hselected, if_pos rfl] at h
        cases hfirst : pathOf foundation first with
        | none =>
          rw [hfirst] at h
          cases h
        | some other =>
          rw [hfirst] at h
          obtain ⟨hresult, hpaths, hget⟩ := ih h (hordered.insert other first)
          refine ⟨hresult, fun row hmem hrow => ?_, fun path => ?_⟩
          · rw [List.mem_cons, Option.some.injEq] at hmem
            rcases hmem with rfl | hmem
            · rw [hfirst]
              exact Option.some_ne_none other
            · exact hpaths row hmem hrow
          · rw [hget, lastRow, hselected, hfirst, get_insert, Option.or_assoc]
            by_cases heq : path = other
            · simp [heq]
            · simp [heq, Ne.symm heq]

theorem collectRules_error {optionIDs : List ℚ} {deletes : List (Units × Row) × List Units}
    {rows : List (Option Row)} {e : PlanError}
    (h : collectRules foundation optionIDs deletes rows = .error e) :
    ∃ row, some row ∈ rows ∧ isSelected optionIDs row = true ∧ pathOf foundation row = none := by
  induction rows generalizing deletes with
  | nil => cases h
  | cons item rest ih =>
    cases item with
    | none =>
      obtain ⟨row, hmem, hrow⟩ := ih h
      exact ⟨row, List.mem_cons_of_mem _ hmem, hrow⟩
    | some first =>
      obtain ⟨deleteByPath, deleteOrder⟩ := deletes
      rw [collectRules] at h
      cases hselected : isSelected optionIDs first with
      | false =>
        rw [hselected] at h
        obtain ⟨row, hmem, hrow⟩ := ih h
        exact ⟨row, List.mem_cons_of_mem _ hmem, hrow⟩
      | true =>
        rw [hselected, if_pos rfl] at h
        cases hfirst : pathOf foundation first with
        | none => exact ⟨first, List.mem_cons_self, hselected, hfirst⟩
        | some other =>
          rw [hfirst] at h
          obtain ⟨row, hmem, hrow⟩ := ih h
          exact ⟨row, List.mem_cons_of_mem _ hmem, hrow⟩

end Rules

section Destinations

/-- The action on a path once some destinations are planned. -/
def actionAfter (foundation : Foundation) (r : Request) (done : List Row) (path : Units) : Row :=
  makeAction ((rowFor foundation r path).getD []) (kindFor foundation r path) path
    (bundleFor foundation done path)

/-- What is on the plan for the destinations seen so far. -/
structure Planned (foundation : Foundation) (r : Request) (done : List Row)
    (plan : List Row × List Units) : Prop where
  nodup : plan.2.Nodup
  valid : ∀ destination ∈ done, ∃ path ∈ plan.2, pathOf foundation destination = some path
  named : ∀ path ∈ plan.2, ∃ destination ∈ done, pathOf foundation destination = some path
  rows : ∀ path ∈ plan.2, rowFor foundation r path ≠ none
  actions : plan.1 = plan.2.map (actionAfter foundation r done)

theorem planned_nil : Planned foundation r [] ([], []) where
  nodup := List.nodup_nil
  valid _ h := absurd h List.not_mem_nil
  named _ h := absurd h List.not_mem_nil
  rows _ h := absurd h List.not_mem_nil
  actions := rfl

/-- Another destination does not change the bundle of a path that has one before it. -/
theorem bundleFor_append {done : List Row} {destination : Row}
    (h : ∃ destination ∈ done, pathOf foundation destination = some path) :
    bundleFor foundation (done ++ [destination]) path = bundleFor foundation done path := by
  obtain ⟨before, hmem, hpath⟩ := h
  have hsome : (done.find? fun destination => pathOf foundation destination == some path).isSome := by
    rw [List.find?_isSome]
    exact ⟨before, hmem, beq_iff_eq.mpr hpath⟩
  obtain ⟨found, hfound⟩ := Option.isSome_iff_exists.mp hsome
  unfold bundleFor
  rw [List.find?_append, hfound, Option.some_or]

theorem bundleFor_new {done : List Row} {destination : Row}
    (h : ∀ destination ∈ done, pathOf foundation destination ≠ some path)
    (hpath : pathOf foundation destination = some path) :
    bundleFor foundation (done ++ [destination]) path = textOf (get destination "bundleId") := by
  have hnone : (done.find? fun destination => pathOf foundation destination == some path) = none := by
    rw [List.find?_eq_none]
    intro before hmem
    rw [beq_iff_eq]
    exact h before hmem
  unfold bundleFor
  rw [List.find?_append, hnone, Option.none_or, List.find?_cons, hpath, beq_self_eq_true]
  rfl

theorem Planned.actionAfter_eq {done : List Row} {plan : List Row × List Units}
    (h : Planned foundation r done plan) (destination : Row) (hpath : path ∈ plan.2) :
    actionAfter foundation r (done ++ [destination]) path = actionAfter foundation r done path := by
  unfold actionAfter
  rw [bundleFor_append (h.named path hpath)]

/-- A destination with a path of its own. -/
theorem Planned.add {done : List Row} {plan : List Row × List Units} {destination : Row}
    (h : Planned foundation r done plan) (hpath : pathOf foundation destination = some path)
    (hnew : path ∉ plan.2) (hrow : rowFor foundation r path ≠ none) :
    Planned foundation r (done ++ [destination])
      (plan.1 ++ [makeAction ((rowFor foundation r path).getD []) (kindFor foundation r path) path
        (textOf (get destination "bundleId"))], plan.2 ++ [path]) := by
  have hfresh : ∀ before ∈ done, pathOf foundation before ≠ some path := by
    intro before hmem heq
    obtain ⟨other, hother, hbefore⟩ := h.valid before hmem
    rw [heq, Option.some.injEq] at hbefore
    exact hnew (hbefore ▸ hother)
  refine ⟨?_, fun before hmem => ?_, fun other hmem => ?_, fun other hmem => ?_, ?_⟩
  · rw [List.nodup_append]
    refine ⟨h.nodup, List.nodup_singleton path, fun a ha b hb => ?_⟩
    rw [List.mem_singleton.mp hb]
    exact fun heq => hnew (heq ▸ ha)
  · rcases List.mem_append.mp hmem with hmem | hmem
    · obtain ⟨other, hother, hbefore⟩ := h.valid before hmem
      exact ⟨other, List.mem_append_left _ hother, hbefore⟩
    · rw [List.mem_singleton.mp hmem]
      exact ⟨path, by simp, hpath⟩
  · rcases List.mem_append.mp hmem with hmem | hmem
    · obtain ⟨before, hbefore, hother⟩ := h.named other hmem
      exact ⟨before, List.mem_append_left _ hbefore, hother⟩
    · rw [List.mem_singleton.mp hmem]
      exact ⟨destination, by simp, hpath⟩
  · rcases List.mem_append.mp hmem with hmem | hmem
    · exact h.rows other hmem
    · rw [List.mem_singleton.mp hmem]
      exact hrow
  · have hold : plan.2.map (actionAfter foundation r (done ++ [destination])) =
        plan.2.map (actionAfter foundation r done) :=
      List.map_congr_left fun other hother => h.actionAfter_eq destination hother
    rw [List.map_append, hold, ← h.actions, List.map_singleton, actionAfter,
      bundleFor_new hfresh hpath]

/-- A destination whose path is on the plan. -/
theorem Planned.skip {done : List Row} {plan : List Row × List Units} {destination : Row}
    (h : Planned foundation r done plan) (hpath : pathOf foundation destination = some path)
    (hold : path ∈ plan.2) : Planned foundation r (done ++ [destination]) plan := by
  refine ⟨h.nodup, fun before hmem => ?_, fun other hmem => ?_, h.rows, ?_⟩
  · rcases List.mem_append.mp hmem with hmem | hmem
    · exact h.valid before hmem
    · rw [List.mem_singleton.mp hmem]
      exact ⟨path, hold, hpath⟩
  · obtain ⟨before, hbefore, hother⟩ := h.named other hmem
    exact ⟨before, List.mem_append_left _ hbefore, hother⟩
  · rw [h.actions]
    exact List.map_congr_left fun other hother => (h.actionAfter_eq destination hother).symm

variable {originalByPath deleteByPath : List (Units × Row)}

theorem planDestinations_ok (horiginal : ∀ path, get originalByPath path = originalFor foundation r path)
    (hdelete : ∀ path, get deleteByPath path = ruleFor foundation r path)
    {done rest : List Row} {plan result : List Row × List Units}
    (h : planDestinations foundation originalByPath deleteByPath plan rest = .ok result)
    (hplan : Planned foundation r done plan) : Planned foundation r (done ++ rest) result := by
  induction rest generalizing done plan with
  | nil =>
    cases h
    rw [List.append_nil]
    exact hplan
  | cons destination rest ih =>
    obtain ⟨actions, planned⟩ := plan
    rw [← List.singleton_append, ← List.append_assoc]
    rw [planDestinations] at h
    cases hpath : pathOf foundation destination with
    | none =>
      rw [hpath] at h
      cases h
    | some path =>
      rw [hpath] at h
      dsimp only at h
      by_cases hold : path ∈ planned
      · rw [if_pos hold] at h
        exact ih h (hplan.skip hpath hold)
      · rw [if_neg hold, hdelete, horiginal] at h
        cases hrow : (ruleFor foundation r path).or (originalFor foundation r path) with
        | none =>
          rw [hrow] at h
          cases h
        | some row =>
          rw [hrow] at h
          have hfor : rowFor foundation r path = some row := hrow
          have hadd := hplan.add hpath hold (by simp [hfor])
          rw [hfor] at hadd
          exact ih h hadd

theorem planDestinations_error
    (horiginal : ∀ path, get originalByPath path = originalFor foundation r path)
    (hdelete : ∀ path, get deleteByPath path = ruleFor foundation r path)
    {rest : List Row} {plan : List Row × List Units} {e : PlanError}
    (h : planDestinations foundation originalByPath deleteByPath plan rest = .error e) :
    ∃ destination ∈ rest, pathOf foundation destination = none ∨
      ∃ path, pathOf foundation destination = some path ∧ rowFor foundation r path = none := by
  induction rest generalizing plan with
  | nil => cases h
  | cons destination rest ih =>
    obtain ⟨actions, planned⟩ := plan
    rw [planDestinations] at h
    cases hpath : pathOf foundation destination with
    | none => exact ⟨destination, List.mem_cons_self, .inl hpath⟩
    | some path =>
      rw [hpath] at h
      dsimp only at h
      by_cases hold : path ∈ planned
      · rw [if_pos hold] at h
        obtain ⟨other, hmem, hother⟩ := ih h
        exact ⟨other, List.mem_cons_of_mem _ hmem, hother⟩
      · rw [if_neg hold, hdelete, horiginal] at h
        cases hrow : (ruleFor foundation r path).or (originalFor foundation r path) with
        | none => exact ⟨destination, List.mem_cons_self, .inr ⟨path, hpath, hrow⟩⟩
        | some row =>
          rw [hrow] at h
          obtain ⟨other, hmem, hother⟩ := ih h
          exact ⟨other, List.mem_cons_of_mem _ hmem, hother⟩

/-- The further rules come behind the destinations, in their order. -/
theorem planRules_eq {order : List Units} (hnodup : order.Nodup) (plan : List Row × List Units) :
    (planRules deleteByPath plan order).1 = plan.1 ++ (order.filter (· ∉ plan.2)).map fun path =>
      makeAction ((get deleteByPath path).getD []) "delete" path none := by
  induction order generalizing plan with
  | nil => simp [planRules]
  | cons path rest ih =>
    obtain ⟨actions, planned⟩ := plan
    rw [List.nodup_cons] at hnodup
    rw [planRules]
    by_cases hold : path ∈ planned
    · rw [if_pos hold, ih hnodup.2, List.filter_cons_of_neg (by simp [hold])]
    · have hrest : rest.filter (· ∉ planned ++ [path]) = rest.filter (· ∉ planned) := by
        apply List.filter_congr
        intro other hother
        have hne : other ≠ path := fun heq => hnodup.1 (heq ▸ hother)
        simp [hne]
      rw [if_neg hold, ih hnodup.2, hrest, List.filter_cons_of_pos (by simp [hold])]
      simp

end Destinations

section Plan

theorem rowFor_eq_none : rowFor foundation r path = none ↔
    ¬ Deletes foundation r path ∧ ∀ row, ¬ IsOriginal foundation r path row := by
  unfold rowFor
  rw [Option.or_eq_none_iff, ruleFor_eq_none, originalFor_eq_none]

theorem get_originalByPath (path : Units) :
    get (r.originals.foldl (addOriginal foundation) []) path = originalFor foundation r path := by
  rw [get_originals, get_nil, Option.or_none]
  rfl

theorem ordered_nil : Ordered ([], []) := ⟨List.nodup_nil, by simp⟩

/-- The action on a path that only rules name. -/
theorem actionFor_of_not_named (hdeletes : Deletes foundation r path)
    (hnamed : ¬ Named foundation r path) :
    actionFor foundation r path =
      makeAction ((ruleFor foundation r path).getD []) "delete" path none := by
  have hrule : ruleFor foundation r path ≠ none := fun h => ruleFor_eq_none.mp h hdeletes
  have hbundle : bundleFor foundation r.destinations path = none := by
    unfold bundleFor
    rw [Option.bind_eq_none_iff]
    intro destination hfound
    have hpath := List.find?_some hfound
    rw [beq_iff_eq] at hpath
    exact absurd ⟨destination, List.mem_of_find?_eq_some hfound, hpath⟩ hnamed
  obtain ⟨row, hrow⟩ := Option.ne_none_iff_exists'.mp hrule
  simp [actionFor, rowFor, kindFor, hbundle, hrow]

/-- The plan once the rules are read. -/
theorem panelDeactivationPlan_eq {deletes : List (Units × Row) × List Units}
    (h : collectRules foundation r.optionIDs ([], []) r.rules = .ok deletes) :
    panelDeactivationPlan foundation r =
      planDestinations foundation (r.originals.foldl (addOriginal foundation) []) deletes.1 ([], [])
        r.destinations >>= fun plan =>
          if (planRules deletes.1 plan deletes.2).1 = [] then .error .empty
          else .ok (planRules deletes.1 plan deletes.2).1 := by
  unfold panelDeactivationPlan
  dsimp only
  rw [h]
  rfl

theorem panelDeactivationPlan_planned {deletes : List (Units × Row) × List Units}
    {plan : List Row × List Units}
    (hrules : collectRules foundation r.optionIDs ([], []) r.rules = .ok deletes)
    (hplan : planDestinations foundation (r.originals.foldl (addOriginal foundation) []) deletes.1
      ([], []) r.destinations = .ok plan) :
    panelDeactivationPlan foundation r =
      if (planRules deletes.1 plan deletes.2).1 = [] then .error .empty
      else .ok (planRules deletes.1 plan deletes.2).1 := by
  rw [panelDeactivationPlan_eq hrules, hplan]
  rfl

theorem Planned.mem_iff {plan : List Row × List Units}
    (h : Planned foundation r r.destinations plan) : path ∈ plan.2 ↔ Named foundation r path := by
  constructor
  · exact h.named path
  · intro hnamed
    obtain ⟨destination, hmem, hpath⟩ := hnamed
    obtain ⟨other, hother, hpath'⟩ := h.valid destination hmem
    rw [hpath, Option.some.injEq] at hpath'
    exact hpath' ▸ hother

/-- The two loops put one action on the plan for each path that is named or deleted. -/
theorem exists_paths {deletes : List (Units × Row) × List Units} {plan : List Row × List Units}
    (hordered : Ordered deletes) (hget : ∀ path, get deletes.1 path = ruleFor foundation r path)
    (hplanned : Planned foundation r r.destinations plan) : ∃ paths : List Units, paths.Nodup ∧
      (∀ path, path ∈ paths ↔ Named foundation r path ∨ Deletes foundation r path) ∧
      (planRules deletes.1 plan deletes.2).1 = paths.map (actionFor foundation r) := by
  have hdeletes (path : Units) : path ∈ deletes.2 ↔ Deletes foundation r path := by
    rw [hordered.2, hget]
    exact not_iff_comm.mp ruleFor_eq_none.symm
  refine ⟨plan.2 ++ deletes.2.filter (· ∉ plan.2), ?_, fun path => ?_, ?_⟩
  · rw [List.nodup_append]
    refine ⟨hplanned.nodup, hordered.1.filter _, fun a ha b hb => ?_⟩
    rw [List.mem_filter, decide_eq_true_eq] at hb
    exact fun heq => hb.2 (heq ▸ ha)
  · rw [List.mem_append, List.mem_filter, decide_eq_true_eq, hplanned.mem_iff, hdeletes]
    tauto
  · rw [planRules_eq hordered.1, hplanned.actions, List.map_append]
    congr 1
    apply List.map_congr_left
    intro path hpath
    rw [List.mem_filter, decide_eq_true_eq, hplanned.mem_iff, hdeletes] at hpath
    rw [hget]
    exact (actionFor_of_not_named hpath.1 hpath.2).symm

theorem panelDeactivationPlan_error {e : PlanError}
    (h : panelDeactivationPlan foundation r = .error e) : Refused foundation r := by
  cases hrules : collectRules foundation r.optionIDs ([], []) r.rules with
  | error e =>
    obtain ⟨row, hmem, hselected, hpath⟩ := collectRules_error hrules
    exact .inr (.inl ⟨row, ⟨hmem, hselected⟩, hpath⟩)
  | ok deletes =>
    obtain ⟨hordered, _, hget⟩ := collectRules_ok hrules ordered_nil
    simp only [get_nil, Option.or_none] at hget
    cases hplan : planDestinations foundation (r.originals.foldl (addOriginal foundation) [])
        deletes.1 ([], []) r.destinations with
    | error e =>
      obtain ⟨destination, hmem, hnone | ⟨path, hpath, hrow⟩⟩ :=
        planDestinations_error get_originalByPath hget hplan
      · exact .inl ⟨destination, hmem, hnone⟩
      · obtain ⟨hdeletes, horiginal⟩ := rowFor_eq_none.mp hrow
        exact .inr (.inr (.inl ⟨path, ⟨destination, hmem, hpath⟩, hdeletes, horiginal⟩))
    | ok plan =>
      have hplanned := planDestinations_ok get_originalByPath hget hplan planned_nil
      obtain ⟨paths, _, hmem, hmade⟩ := exists_paths hordered hget hplanned
      rw [panelDeactivationPlan_planned hrules hplan, hmade] at h
      have hempty : paths = [] := by
        by_contra hne
        rw [if_neg (mt List.map_eq_nil_iff.mp hne)] at h
        cases h
      have hnone (path : Units) : ¬ (Named foundation r path ∨ Deletes foundation r path) := by
        rw [← hmem, hempty]
        exact List.not_mem_nil
      exact .inr (.inr (.inr ⟨fun path hnamed => hnone path (.inl hnamed),
        fun path hdeletes => hnone path (.inr hdeletes)⟩))

theorem panelDeactivationPlan_ok {actions : List Row}
    (h : panelDeactivationPlan foundation r = .ok actions) :
    ¬ Refused foundation r ∧ ∃ paths : List Units, paths.Nodup ∧
      (∀ path, path ∈ paths ↔ Named foundation r path ∨ Deletes foundation r path) ∧
      actions = paths.map (actionFor foundation r) := by
  cases hrules : collectRules foundation r.optionIDs ([], []) r.rules with
  | error e =>
    unfold panelDeactivationPlan at h
    dsimp only at h
    rw [hrules] at h
    cases h
  | ok deletes =>
    obtain ⟨hordered, hvalid, hget⟩ := collectRules_ok hrules ordered_nil
    simp only [get_nil, Option.or_none] at hget
    cases hplan : planDestinations foundation (r.originals.foldl (addOriginal foundation) [])
        deletes.1 ([], []) r.destinations with
    | error e =>
      rw [panelDeactivationPlan_eq hrules, hplan] at h
      cases h
    | ok plan =>
      have hplanned := planDestinations_ok get_originalByPath hget hplan planned_nil
      obtain ⟨paths, hnodup, hmem, hmade⟩ := exists_paths hordered hget hplanned
      rw [panelDeactivationPlan_planned hrules hplan, hmade] at h
      split at h
      · cases h
      · rename_i hne
        cases h
        refine ⟨fun hrefused => ?_, paths, hnodup, hmem, rfl⟩
        rcases hrefused with ⟨destination, hdest, hnone⟩ | ⟨row, hrow, hnone⟩ |
          ⟨path, hpath, hnone⟩ | ⟨hnone, hnone'⟩
        · obtain ⟨path, _, hpath⟩ := hplanned.valid destination hdest
          rw [hnone] at hpath
          cases hpath
        · exact hvalid row hrow.1 hrow.2 hnone
        · exact hplanned.rows path (hplanned.mem_iff.mpr hpath) (rowFor_eq_none.mpr hnone)
        · apply hne
          rw [List.map_eq_nil_iff, List.eq_nil_iff_forall_not_mem]
          intro path hpath
          rcases (hmem path).mp hpath with h | h
          · exact hnone path h
          · exact hnone' path h

theorem panelDeactivationPlan_refused :
    (∃ e, panelDeactivationPlan foundation r = .error e) ↔ Refused foundation r := by
  constructor
  · intro h
    obtain ⟨e, he⟩ := h
    exact panelDeactivationPlan_error he
  · intro h
    cases hplan : panelDeactivationPlan foundation r with
    | error e => exact ⟨e, rfl⟩
    | ok actions => exact absurd h (panelDeactivationPlan_ok hplan).1

end Plan

section Cover

/-- An action on a path with the other values of a row. -/
structure CopyOf (row action : Row) (kind : String) (path : Units) : Prop where
  kind : get action "action" = some (.string (ascii kind))
  path : get action "relativePath" = some (.string path)
  other : ∀ key, key ≠ "action" → key ≠ "relativePath" → key ≠ "bundleId" →
    get action key = get row key

/-- What an action may do on a path. -/
inductive ActsOn (foundation : Foundation) (r : Request) (path : Units) (action : Row) : Prop
  | delete (row : Row) (selected : Selected r row) (named : pathOf foundation row = some path)
      (copy : CopyOf row action "delete" path)
  | replace (row : Row) (kept : ¬ Deletes foundation r path)
      (original : originalFor foundation r path = some row)
      (copy : CopyOf row action "replace" path)

/-- The action carries the path, and the bundle where there is one. -/
def carries (path : Units) (bundle : Option Units) (action : Row) : Bool :=
  get action "relativePath" == some (.string path) &&
    bundle.all fun bundle => get action "bundleId" == some (.string bundle)

/-- The actions of a selection. -/
structure Covers (foundation : Foundation) (r : Request) (actions : List Row) : Prop where
  covered : ∀ destination ∈ r.destinations, ∀ path, pathOf foundation destination = some path →
    ∃ action, actions.filter (carries path (textOf (get destination "bundleId"))) = [action] ∧
      ActsOn foundation r path action
  further : ∀ path, Deletes foundation r path → ¬ Named foundation r path →
    ∃ action, actions.filter (carries path none) = [action] ∧ ActsOn foundation r path action ∧
      get action "action" = some (.string (ascii "delete"))
  selected : ∀ action ∈ actions, ∃ path, ActsOn foundation r path action ∧
    (Named foundation r path ∨ Deletes foundation r path)
  distinct : (actions.map fun action => (get action "bundleId", get action "relativePath")).Nodup

/-- The bundle of a destination is the one of the first destination of its path, or the one
of the row where that names none. -/
def SameBundles (foundation : Foundation) (r : Request) : Prop :=
  ∀ destination ∈ r.destinations, ∀ path bundle, pathOf foundation destination = some path →
    textOf (get destination "bundleId") = some bundle →
    bundleFor foundation r.destinations path = some bundle ∨
    bundleFor foundation r.destinations path = none ∧
      ((rowFor foundation r path).bind fun row => get row "bundleId") = some (.string bundle)

theorem copyOf_makeAction (row : Row) (kind : String) (path : Units) (bundle : Option Units) :
    CopyOf row (makeAction row kind path bundle) kind path where
  kind := get_makeAction_action row kind path bundle
  path := get_makeAction_path row kind path bundle
  other _ := get_makeAction_other row kind path bundle

theorem actionFor_actsOn (h : rowFor foundation r path ≠ none) :
    ActsOn foundation r path (actionFor foundation r path) := by
  unfold actionFor rowFor kindFor
  unfold rowFor at h
  cases hrule : ruleFor foundation r path with
  | some row =>
    obtain ⟨hselected, hpath⟩ := ruleFor_eq_some hrule
    exact .delete row hselected hpath (copyOf_makeAction row "delete" path _)
  | none =>
    cases horiginal : originalFor foundation r path with
    | none => simp [hrule, horiginal] at h
    | some row =>
      exact .replace row (ruleFor_eq_none.mp hrule) horiginal
        (copyOf_makeAction row "replace" path _)

theorem get_actionFor_path (path : Units) :
    get (actionFor foundation r path) "relativePath" = some (.string path) :=
  get_makeAction_path _ _ _ _

theorem get_actionFor_action (h : Deletes foundation r path) :
    get (actionFor foundation r path) "action" = some (.string (ascii "delete")) := by
  have hrule : ruleFor foundation r path ≠ none := fun hnone => ruleFor_eq_none.mp hnone h
  unfold actionFor kindFor
  rw [get_makeAction_action, if_neg hrule]

theorem get_actionFor_bundle {bundle : Units} (h : rowFor foundation r path ≠ none) :
    get (actionFor foundation r path) "bundleId" = some (.string bundle) ↔
      bundleFor foundation r.destinations path = some bundle ∨
      bundleFor foundation r.destinations path = none ∧
        ((rowFor foundation r path).bind fun row => get row "bundleId") =
          some (.string bundle) := by
  obtain ⟨row, hrow⟩ := Option.ne_none_iff_exists'.mp h
  unfold actionFor
  rw [get_makeAction_bundle, Option.or_eq_some_iff, Option.map_eq_some_iff, Option.map_eq_none_iff,
    hrow]
  simp

theorem carries_actionFor {bundle : Option Units} {other : Units} :
    carries path bundle (actionFor foundation r other) = true ↔
      other = path ∧ ∀ b, bundle = some b →
        get (actionFor foundation r other) "bundleId" = some (.string b) := by
  unfold carries
  rw [get_actionFor_path]
  cases bundle <;> simp

/-- One of several paths has the one action that carries it. -/
theorem filter_carries {paths : List Units} (hnodup : paths.Nodup) (hpath : path ∈ paths)
    {bundle : Option Units}
    (hbundle : ∀ b, bundle = some b →
      get (actionFor foundation r path) "bundleId" = some (.string b)) :
    (paths.map (actionFor foundation r)).filter (carries path bundle) =
      [actionFor foundation r path] := by
  have hcarries : paths.filter (carries path bundle ∘ actionFor foundation r) =
      paths.filter (· == path) := by
    apply List.filter_congr
    intro other _
    rw [Bool.eq_iff_iff, Function.comp_apply, carries_actionFor, beq_iff_eq]
    constructor
    · exact fun h => h.1
    · intro h
      rw [h]
      exact ⟨rfl, hbundle⟩
  rw [List.filter_map, hcarries, List.filter_beq, List.count_eq_one_of_mem hnodup hpath]
  rfl

theorem rowFor_ne_none (hrefused : ¬ Refused foundation r)
    (h : Named foundation r path ∨ Deletes foundation r path) :
    rowFor foundation r path ≠ none := by
  intro hrow
  obtain ⟨hdeletes, horiginal⟩ := rowFor_eq_none.mp hrow
  rcases h with h | h
  · exact hrefused (.inr (.inr (.inl ⟨path, h, hdeletes, horiginal⟩)))
  · exact hdeletes h

/-- A plan covers the selection where the bundles of a path are the same. -/
theorem covers_of_sameBundles (hsame : SameBundles foundation r) {actions : List Row}
    (h : panelDeactivationPlan foundation r = .ok actions) : Covers foundation r actions := by
  obtain ⟨hrefused, paths, hnodup, hmem, rfl⟩ := panelDeactivationPlan_ok h
  refine ⟨fun destination hdest path hpath => ?_, fun path hdeletes hnamed => ?_,
    fun action haction => ?_, ?_⟩
  · have hnamed : Named foundation r path := ⟨destination, hdest, hpath⟩
    have hrow := rowFor_ne_none hrefused (.inl hnamed)
    refine ⟨_, filter_carries hnodup ((hmem path).mpr (.inl hnamed)) fun bundle hbundle => ?_,
      actionFor_actsOn hrow⟩
    exact (get_actionFor_bundle hrow).mpr (hsame destination hdest path bundle hpath hbundle)
  · have hrow := rowFor_ne_none hrefused (.inr hdeletes)
    refine ⟨_, filter_carries hnodup ((hmem path).mpr (.inr hdeletes)) fun bundle hbundle => ?_,
      actionFor_actsOn hrow, get_actionFor_action hdeletes⟩
    cases hbundle
  · obtain ⟨path, hpath, rfl⟩ := List.mem_map.mp haction
    have hrow := rowFor_ne_none hrefused ((hmem path).mp hpath)
    exact ⟨path, actionFor_actsOn hrow, (hmem path).mp hpath⟩
  · have hpaths : (((paths.map (actionFor foundation r)).map fun action =>
        (get action "bundleId", get action "relativePath")).map Prod.snd) =
          paths.map fun path => some (PanelValue.string path) := by
      rw [List.map_map, List.map_map]
      exact List.map_congr_left fun path _ => get_actionFor_path path
    apply List.Nodup.of_map Prod.snd
    rw [hpaths]
    exact hnodup.map fun a b heq => by simpa using heq

/-- A plan that covers the selection has the bundle of each destination on its path. -/
theorem sameBundles_of_covers {actions : List Row}
    (h : panelDeactivationPlan foundation r = .ok actions) (hcovers : Covers foundation r actions) :
    SameBundles foundation r := by
  obtain ⟨hrefused, paths, _, _, rfl⟩ := panelDeactivationPlan_ok h
  intro destination hdest path bundle hpath hbundle
  obtain ⟨action, hfilter, _⟩ := hcovers.covered destination hdest path hpath
  have haction : action ∈ (paths.map (actionFor foundation r)).filter
      (carries path (textOf (get destination "bundleId"))) := by
    rw [hfilter]
    exact List.mem_singleton_self action
  obtain ⟨hmap, hcarries⟩ := List.mem_filter.mp haction
  obtain ⟨other, _, rfl⟩ := List.mem_map.mp hmap
  obtain ⟨rfl, hcarried⟩ := carries_actionFor.mp hcarries
  have hrow := rowFor_ne_none hrefused (.inl ⟨destination, hdest, hpath⟩)
  exact (get_actionFor_bundle hrow).mp (hcarried bundle hbundle)

/-- The planner is right about a selection unless it has one path in several bundles. -/
theorem panelDeactivationPlan_covers_iff (foundation : Foundation) (r : Request) :
    (((∃ e, panelDeactivationPlan foundation r = .error e) ↔ Refused foundation r) ∧
      ∀ actions, panelDeactivationPlan foundation r = .ok actions →
        Covers foundation r actions) ↔
    Refused foundation r ∨ SameBundles foundation r := by
  constructor
  · intro h
    obtain ⟨_, hcovers⟩ := h
    cases hplan : panelDeactivationPlan foundation r with
    | error e => exact .inl (panelDeactivationPlan_error hplan)
    | ok actions => exact .inr (sameBundles_of_covers hplan (hcovers actions hplan))
  · intro h
    refine ⟨panelDeactivationPlan_refused, fun actions hplan => ?_⟩
    rcases h with hrefused | hsame
    · exact absurd hrefused (panelDeactivationPlan_ok hplan).1
    · exact covers_of_sameBundles hsame hplan

def fileRow (bundle : String) : Row :=
  [("route", .string (ascii "Documents")), ("fileName", .string (ascii "a.txt")),
    ("bundleId", .string (ascii bundle))]

/-- One file in two apps, with one original. -/
def twoApps : Request where
  originals := [some [("route", .string (ascii "Documents")), ("fileName", .string (ascii "a.txt")),
    ("originalFileUrl", .string (ascii "/o/1"))]]
  rules := []
  destinations := [fileRow "app.one", fileRow "app.two"]
  optionIDs := [1, 2]

/-- The second app of two with the same file has no action. -/
theorem panelDeactivationPlan_drops_app :
    ¬ (((∃ e, panelDeactivationPlan asciiFoundation twoApps = .error e) ↔
        Refused asciiFoundation twoApps) ∧
      ∀ actions, panelDeactivationPlan asciiFoundation twoApps = .ok actions →
        Covers asciiFoundation twoApps actions) := by
  intro h
  have hplan : (panelDeactivationPlan asciiFoundation twoApps).toOption.map
      (fun actions => (actions.filter (carries (ascii "Documents/a.txt")
        (some (ascii "app.two")))).length) = some 0 := by decide +kernel
  have hpath : pathOf asciiFoundation (fileRow "app.two") = some (ascii "Documents/a.txt") := by
    decide +kernel
  have hbundle : textOf (get (fileRow "app.two") "bundleId") = some (ascii "app.two") := by
    decide +kernel
  cases hactions : panelDeactivationPlan asciiFoundation twoApps with
  | error e =>
    rw [hactions] at hplan
    cases hplan
  | ok actions =>
    rw [hactions] at hplan
    obtain ⟨action, hfilter, _⟩ := (h.2 actions hactions).covered (fileRow "app.two")
      (List.mem_cons_of_mem _ List.mem_cons_self) _ hpath
    rw [hbundle] at hfilter
    simp [Except.toOption, hfilter] at hplan

end Cover

end XitForge.FileEngine.DeactivationPlan
