import XitForge.KeyedList
import XitForge.Restore.StateMachine

/-!
Requests to the signing server. The entry of a component is its manifest item without the
`Info`, changed by the rules whose conditions the parameters of the device meet.
-/
namespace XitForge.Tss

open KeyedList
open Xpc (PlistValue)
open Restore (Dictionary asBoolean asSignedInteger asUnsignedInteger)

inductive TssError where
  | badBuildManifest
  deriving DecidableEq, Repr

section Code

-- `==` of two plist values
variable (equal : PlistValue → PlistValue → Bool) (parameters : Dictionary)

/-- The parameter that a condition is about. -/
def conditionParameter : String → Option String
  | "ApRawProductionMode" => some "ApProductionMode"
  | "ApCurrentProductionMode" => some "ApProductionMode"
  | "ApRawSecurityMode" => some "ApSecurityMode"
  | "ApRequiresImage4" => some "ApSupportsImg4"
  | "ApDemotionPolicyOverride" => some "DemotionPolicy"
  | "ApInRomDFU" => some "ApInRomDFU"
  | _ => none

/-- The loop over the conditions of a rule, which ends at the first that does not hold. -/
def conditionsFulfilled : Dictionary → Bool
  | [] => true
  | (key, value) :: rest =>
    match (conditionParameter key).bind (get parameters) with
    | some value2 => if equal value2 value then conditionsFulfilled rest else false
    | none => false

/-- One action of a rule; 255 leaves the value as it is. -/
def applyAction (input : Dictionary) (action : String × PlistValue) : Dictionary :=
  if asUnsignedInteger action.2 = some 255 then input
  else if asSignedInteger action.2 = some 255 then input
  else insert (remove input action.1) action.1 action.2

def applyRule (input : Dictionary) (rule : PlistValue) : Dictionary :=
  match rule with
  | .dictionary rule =>
    match get rule "Conditions" with
    | some (.dictionary conditions) =>
      if conditionsFulfilled equal parameters conditions then
        match get rule "Actions" with
        | some (.dictionary actions) => actions.foldl applyAction input
        | _ => input
      else input
    | _ => input
  | _ => input

def applyRestoreRequestRules (input : Dictionary) (rules : List PlistValue) : Dictionary :=
  rules.foldl (applyRule equal parameters) input

def skipKeys : List String :=
  ["BasebandFirmware", "SE,UpdatePayload", "BaseSystem", "Diags", "Ap,ExclaveOS"]

def cryptex : List Char := "Cryptex1,".toList

/-- One item of the manifest in `add_ap_manifest_tags`, if it is not skipped. -/
def apEntry (key : String) (manifestItem : PlistValue) : Option Dictionary :=
  if key ∈ skipKeys ∨ cryptex <+: key.toList then none
  else
    match manifestItem with
    | .dictionary manifestItem =>
      match get manifestItem "Info" with
      | some (.dictionary info) =>
        let supportsImg4 := ((get parameters "ApSupportsImg4").bind asBoolean).getD false
        if supportsImg4 && (get info "RestoreRequestRules").isNone then none
        else if ((get info "IsFTAB").bind asBoolean).getD false then none
        else
          let tssEntry := remove manifestItem "Info"
          let tssEntry :=
            match get info "RestoreRequestRules" with
            | some (.array rules) => applyRestoreRequestRules equal parameters tssEntry rules
            | _ => tssEntry
          let trusted := ((get manifestItem "Trusted").bind asBoolean).getD false
          if trusted && (get tssEntry "Digest").isNone then
            some (insert tssEntry "Digest" (.data []))
          else some tssEntry
      | _ => none
    | _ => none

/-- One item of the manifest in `populate_from_manifest`. -/
def manifestEntry (rulesOverride : Option (List PlistValue)) (manifestItem : PlistValue) :
    Option Dictionary :=
  match manifestItem with
  | .dictionary manifestItem =>
    match get manifestItem "Info" with
    | some (.dictionary info) =>
      match get manifestItem "Trusted" with
      | some (.boolean true) =>
        let tssEntry := remove manifestItem "Info"
        let rules :=
          match rulesOverride with
          | some rules => some rules
          | none =>
            match get info "RestoreRequestRules" with
            | some (.array rules) => some rules
            | _ => none
        let tssEntry :=
          match rules with
          | some rules => applyRestoreRequestRules equal parameters tssEntry rules
          | none => tssEntry
        if (get manifestItem "Digest").isNone then some (insert tssEntry "Digest" (.data []))
        else some tssEntry
      | _ => none
    | _ => none
  | _ => none

/-- `self.insert` of the entry, if the item has one. -/
def insertEntry (entryOf : String → PlistValue → Option Dictionary) (request : Dictionary)
    (item : String × PlistValue) : Dictionary :=
  match entryOf item.1 item.2 with
  | some tssEntry => insert request item.1 (.dictionary tssEntry)
  | none => request

def addApManifestTags (buildIdentity request : Dictionary) : Except TssError Dictionary :=
  match get buildIdentity "Manifest" with
  | some (.dictionary manifest) =>
    .ok (manifest.foldl (insertEntry (apEntry equal parameters)) request)
  | _ => .error .badBuildManifest

def populateFromManifest (rulesOverride : Option (List PlistValue))
    (buildIdentity request : Dictionary) : Except TssError Dictionary :=
  match get buildIdentity "Manifest" with
  | some (.dictionary manifest) =>
    .ok (manifest.foldl (insertEntry fun _ => manifestEntry equal parameters rulesOverride) request)
  | _ => .error .badBuildManifest

end Code

section Distinct

mutual

/-- The keys of every dictionary in the value are different, as `plist::Dictionary` has
them. -/
def DistinctKeys : PlistValue → Prop
  | .array items => DistinctItems items
  | .dictionary entries => (entries.map Prod.fst).Nodup ∧ DistinctEntries entries
  | _ => True
termination_by structural value => value

def DistinctItems : List PlistValue → Prop
  | [] => True
  | item :: rest => DistinctKeys item ∧ DistinctItems rest
termination_by structural items => items

def DistinctEntries : List (String × PlistValue) → Prop
  | [] => True
  | entry :: rest => DistinctEntry entry ∧ DistinctEntries rest
termination_by structural entries => entries

def DistinctEntry : String × PlistValue → Prop
  | (_, value) => DistinctKeys value
termination_by structural entry => entry

end

theorem DistinctItems.mem {items : List PlistValue} {item : PlistValue} (h : DistinctItems items)
    (hitem : item ∈ items) : DistinctKeys item := by
  induction items with
  | nil => exact absurd hitem List.not_mem_nil
  | cons first rest ih =>
    rcases List.mem_cons.mp hitem with rfl | hrest
    · exact h.1
    · exact ih h.2 hrest

theorem DistinctEntries.get {entries : Dictionary} {key : String} {value : PlistValue}
    (h : DistinctEntries entries) (hget : get entries key = some value) : DistinctKeys value := by
  have hmem := mem_of_get hget
  induction entries with
  | nil => exact absurd hmem List.not_mem_nil
  | cons first rest ih =>
    rw [get_cons] at hget
    split at hget
    · cases hget
      obtain ⟨_, value⟩ := first
      exact h.1
    · exact ih h.2 hget (mem_of_get hget)

end Distinct

section Rules

variable (equal : PlistValue → PlistValue → Bool) (parameters : Dictionary)

/-- A parameter that the condition is about is equal to its value. -/
def ConditionHolds (condition : String × PlistValue) : Prop :=
  ∃ name value, conditionParameter condition.1 = some name ∧ get parameters name = some value ∧
    equal value condition.2 = true

theorem conditionsFulfilled_iff (conditions : Dictionary) :
    conditionsFulfilled equal parameters conditions = true ↔
      ∀ condition ∈ conditions, ConditionHolds equal parameters condition := by
  induction conditions with
  | nil => simp [conditionsFulfilled]
  | cons condition rest ih =>
    obtain ⟨key, value⟩ := condition
    rw [List.forall_mem_cons, ← ih, conditionsFulfilled]
    unfold ConditionHolds
    cases hname : conditionParameter key with
    | none => simp
    | some name =>
      cases hvalue : get parameters name with
      | none => simp [hvalue]
      | some value2 => simp [hvalue]

/-- What an action writes; 255 stands for the value that is there. -/
def written : PlistValue → Option PlistValue
  | .integer 255 => none
  | value => some value

/-- The actions of a rule whose conditions all hold. -/
def actionsOf (rule : PlistValue) : Option Dictionary :=
  match rule with
  | .dictionary rule =>
    match get rule "Conditions" with
    | some (.dictionary conditions) =>
      if conditionsFulfilled equal parameters conditions then
        match get rule "Actions" with
        | some (.dictionary actions) => some actions
        | _ => none
      else none
    | _ => none
  | _ => none

/-- The value that a rule writes to a key. -/
def assignment (rule : PlistValue) (key : String) : Option PlistValue :=
  ((actionsOf equal parameters rule).bind (get · key)).bind written

/-- The value of the last rule that writes one to the key. -/
def ruled (rules : List PlistValue) (key : String) : Option PlistValue :=
  rules.reverse.findSome? fun rule => assignment equal parameters rule key

theorem asUnsignedInteger_255 {value : PlistValue} (h : asUnsignedInteger value = some 255) :
    value = .integer 255 := by
  unfold asUnsignedInteger at h
  split at h
  · rename_i n
    split at h
    · have hn : n.toNat = 255 := Option.some.inj h
      have hvalue : n = 255 := by omega
      rw [hvalue]
    · cases h
  · cases h

theorem asSignedInteger_255 {value : PlistValue} (h : asSignedInteger value = some 255) :
    value = .integer 255 := by
  unfold asSignedInteger at h
  split at h
  · split at h
    · rw [Option.some.inj h]
    · cases h
  · cases h

theorem get_applyAction (input : Dictionary) (action : String × PlistValue) (key : String) :
    get (applyAction input action) key =
      if key = action.1 then (written action.2).or (get input key) else get input key := by
  obtain ⟨name, value⟩ := action
  unfold applyAction
  by_cases hkeep : value = .integer 255
  · rw [hkeep]
    show get input key = if key = name then get input key else get input key
    rw [ite_self]
  · have hwritten : written value = some value := by
      unfold written
      split
      · exact absurd rfl hkeep
      · rfl
    rw [if_neg (fun h => hkeep (asUnsignedInteger_255 h)),
      if_neg (fun h => hkeep (asSignedInteger_255 h)), get_insert, get_remove, hwritten]
    split <;> rfl

theorem applyRule_eq (input : Dictionary) (rule : PlistValue) :
    applyRule equal parameters input rule =
      ((actionsOf equal parameters rule).getD []).foldl applyAction input := by
  unfold applyRule actionsOf
  cases rule with
  | dictionary rule =>
    dsimp only
    cases get rule "Conditions" with
    | none => rfl
    | some conditions =>
      cases conditions with
      | dictionary conditions =>
        dsimp only
        split
        · cases get rule "Actions" with
          | none => rfl
          | some actions => cases actions <;> rfl
        · rfl
      | _ => rfl
  | _ => rfl

theorem distinctKeys_actionsOf {rule : PlistValue} {actions : Dictionary} (h : DistinctKeys rule)
    (hactions : actionsOf equal parameters rule = some actions) :
    (actions.map Prod.fst).Nodup := by
  unfold actionsOf at hactions
  split at hactions
  · split at hactions
    · split at hactions
      · split at hactions
        · rename_i hget
          cases hactions
          have hdistinct : DistinctKeys (.dictionary actions) := h.2.get hget
          exact hdistinct.1
        · cases hactions
      · cases hactions
    · cases hactions
  · cases hactions

theorem get_applyRule {rule : PlistValue} (h : DistinctKeys rule) (input : Dictionary)
    (key : String) :
    get (applyRule equal parameters input rule) key =
      (assignment equal parameters rule key).or (get input key) := by
  rw [applyRule_eq, assignment]
  cases hactions : actionsOf equal parameters rule with
  | none => rfl
  | some actions =>
    let change : String → PlistValue → Option PlistValue := fun _ => written
    have hstep : ∀ d entry other, get (applyAction d entry) other =
        if other = entry.1 then (change entry.1 entry.2).or (get d other) else get d other :=
      get_applyAction
    exact get_foldl hstep (distinctKeys_actionsOf equal parameters h hactions) input

/-- After the rules each key has the value of the last rule that writes one, or else the
one it had. -/
theorem get_applyRestoreRequestRules {rules : List PlistValue} (h : DistinctItems rules)
    (input : Dictionary) (key : String) :
    get (applyRestoreRequestRules equal parameters input rules) key =
      (ruled equal parameters rules key).or (get input key) := by
  unfold applyRestoreRequestRules ruled
  induction rules generalizing input with
  | nil => rfl
  | cons rule rest ih =>
    rw [List.foldl_cons, ih h.2, get_applyRule equal parameters h.1, List.reverse_cons,
      List.findSome?_append, List.findSome?_singleton, Option.or_assoc]

end Rules

/-- A component that both builders take up: trusted, with rules, and not skipped. -/
structure Component where
  buildIdentity : Dictionary
  manifest : Dictionary
  key : String
  item : Dictionary
  info : Dictionary
  rules : List PlistValue
  distinct : DistinctKeys (.dictionary buildIdentity)
  manifest_get : get buildIdentity "Manifest" = some (.dictionary manifest)
  item_get : get manifest key = some (.dictionary item)
  info_get : get item "Info" = some (.dictionary info)
  rules_get : get info "RestoreRequestRules" = some (.array rules)
  trusted : get item "Trusted" = some (.boolean true)
  notFtab : get info "IsFTAB" ≠ some (.boolean true)
  notSkipped : key ∉ skipKeys
  notCryptex : ¬ cryptex <+: key.toList

namespace Component

variable (c : Component) (equal : PlistValue → PlistValue → Bool) (parameters : Dictionary)

theorem distinct_manifest : DistinctKeys (.dictionary c.manifest) := c.distinct.2.get c.manifest_get

theorem distinct_rules : DistinctItems c.rules := by
  have hitem : DistinctKeys (.dictionary c.item) := c.distinct_manifest.2.get c.item_get
  have hinfo : DistinctKeys (.dictionary c.info) := hitem.2.get c.info_get
  exact hinfo.2.get c.rules_get

/-- The item without its `Info`, after the rules. -/
def ruledItem : Dictionary :=
  applyRestoreRequestRules equal parameters (remove c.item "Info") c.rules

theorem get_ruledItem (name : String) : get (c.ruledItem equal parameters) name =
    (ruled equal parameters c.rules name).or (if name = "Info" then none else get c.item name) := by
  rw [ruledItem, get_applyRestoreRequestRules equal parameters c.distinct_rules, get_remove]

theorem apEntry_eq : apEntry equal parameters c.key (.dictionary c.item) =
    some (if (get (c.ruledItem equal parameters) "Digest").isNone then
      insert (c.ruledItem equal parameters) "Digest" (.data [])
    else c.ruledItem equal parameters) := by
  have hskip : ¬ (c.key ∈ skipKeys ∨ cryptex <+: c.key.toList) := by
    intro hcase
    rcases hcase with hkey | hkey
    · exact c.notSkipped hkey
    · exact c.notCryptex hkey
  have hftab : ((get c.info "IsFTAB").bind asBoolean).getD false = false := by
    cases hget : get c.info "IsFTAB" with
    | none => rfl
    | some value =>
      cases value with
      | boolean flag =>
        cases flag with
        | true => exact absurd hget c.notFtab
        | false => rfl
      | _ => rfl
  unfold apEntry
  rw [if_neg hskip]
  dsimp only
  rw [c.info_get, c.trusted]
  dsimp only
  rw [c.rules_get, hftab]
  simp only [Option.isNone_some, Bool.and_false, Bool.false_eq_true, if_false, Option.bind_some,
    asBoolean, Option.getD_some, Bool.true_and]
  rw [← ruledItem]
  split <;> rfl

theorem manifestEntry_eq : manifestEntry equal parameters none (.dictionary c.item) =
    some (if (get c.item "Digest").isNone then
      insert (c.ruledItem equal parameters) "Digest" (.data [])
    else c.ruledItem equal parameters) := by
  unfold manifestEntry
  dsimp only
  rw [c.info_get, c.trusted]
  dsimp only
  rw [c.rules_get]
  dsimp only
  rw [← ruledItem]
  split <;> rfl

theorem get_entries {entryOf : String → PlistValue → Option Dictionary} {entry : Dictionary}
    (h : entryOf c.key (.dictionary c.item) = some entry) (request : Dictionary) :
    get (c.manifest.foldl (insertEntry entryOf) request) c.key = some (.dictionary entry) := by
  let change : String → PlistValue → Option PlistValue := fun key item =>
    (entryOf key item).map .dictionary
  have hstep : ∀ d item other, get (insertEntry entryOf d item) other =
      if other = item.1 then (change item.1 item.2).or (get d other) else get d other := by
    intro d item other
    unfold insertEntry
    show _ =
      if other = item.1 then ((entryOf item.1 item.2).map _).or (get d other) else get d other
    cases entryOf item.1 item.2 with
    | none => exact (ite_self _).symm
    | some entry => exact get_insert d item.1 other (.dictionary entry)
  rw [get_foldl hstep c.distinct_manifest.1, c.item_get]
  show ((entryOf c.key (.dictionary c.item)).map _).or _ = _
  rw [h]
  rfl

/-- The entry that the rules ask for. -/
def expected (name : String) : Option PlistValue :=
  if name = "Info" then none
  else if name = "Digest" then
    (ruled equal parameters c.rules name).or ((get c.item name).or (some (.data [])))
  else (ruled equal parameters c.rules name).or (get c.item name)

theorem expected_digest : c.expected equal parameters "Digest" =
    (ruled equal parameters c.rules "Digest").or
      ((get c.item "Digest").or (some (.data []))) := by
  have hne : "Digest" ≠ "Info" := by decide
  rw [expected, if_neg hne, if_pos rfl]

/-- A request has the entry of the component, with the values that the rules ask for. -/
def HasEntry (request : Except TssError Dictionary) : Prop :=
  ∃ entries entry, request = .ok entries ∧ get entries c.key = some (.dictionary entry) ∧
    ∀ name, get entry name = c.expected equal parameters name

theorem get_addApManifestTags (request : Dictionary) :
    addApManifestTags equal parameters c.buildIdentity request =
      .ok (c.manifest.foldl (insertEntry (apEntry equal parameters)) request) := by
  unfold addApManifestTags
  rw [c.manifest_get]

theorem get_populateFromManifest (request : Dictionary) :
    populateFromManifest equal parameters none c.buildIdentity request =
      .ok (c.manifest.foldl (insertEntry fun _ => manifestEntry equal parameters none) request) := by
  unfold populateFromManifest
  rw [c.manifest_get]

/-- A request that has an entry of the component has what the rules ask for exactly if
that entry does. -/
theorem hasEntry_iff {entryOf : String → PlistValue → Option Dictionary} {entry : Dictionary}
    (h : entryOf c.key (.dictionary c.item) = some entry) (request : Dictionary) :
    c.HasEntry equal parameters (.ok (c.manifest.foldl (insertEntry entryOf) request)) ↔
      ∀ name, get entry name = c.expected equal parameters name := by
  have hget := c.get_entries h request
  constructor
  · intro hgiven
    obtain ⟨entries, entry', hentries, hentry, hvalues⟩ := hgiven
    cases hentries
    rw [hget] at hentry
    cases hentry
    exact hvalues
  · exact fun hvalues => ⟨_, entry, rfl, hget, hvalues⟩

/-- A digest is added only if there is none. -/
theorem get_withDigest (entry : Dictionary) (name : String) :
    get (if (get entry "Digest").isNone then insert entry "Digest" (.data []) else entry) name =
      if name = "Digest" then (get entry name).or (some (.data [])) else get entry name := by
  by_cases hname : name = "Digest"
  · rw [if_pos hname, hname]
    cases hget : get entry "Digest" with
    | none =>
      rw [Option.isNone_none, if_pos rfl, get_insert, if_pos rfl]
      rfl
    | some value =>
      rw [Option.isNone_some, if_neg Bool.false_ne_true, hget]
      rfl
  · rw [if_neg hname]
    split
    · rw [get_insert, if_neg hname]
    · rfl

theorem hasEntry_addApManifestTags_iff (request : Dictionary) :
    c.HasEntry equal parameters (addApManifestTags equal parameters c.buildIdentity request) ↔
      ruled equal parameters c.rules "Info" = none := by
  rw [get_addApManifestTags, hasEntry_iff c equal parameters (c.apEntry_eq equal parameters)]
  constructor
  · intro hvalues
    have hinfo := hvalues "Info"
    rw [get_withDigest, if_neg (by decide), get_ruledItem, if_pos rfl, Option.or_none] at hinfo
    exact hinfo
  · intro hruled name
    rw [get_withDigest, get_ruledItem, expected]
    by_cases hinfo : name = "Info"
    · rw [hinfo, if_neg (by decide), if_pos rfl, if_pos rfl, hruled]
      rfl
    · rw [if_neg hinfo, if_neg hinfo, Option.or_assoc]

/-- The digest that is added after the rules is in the way of one that they write. -/
theorem get_manifestEntry (name : String) :
    get (if (get c.item "Digest").isNone then
        insert (c.ruledItem equal parameters) "Digest" (.data [])
      else c.ruledItem equal parameters) name =
      if name = "Digest" ∧ get c.item "Digest" = none then some (.data [])
      else (ruled equal parameters c.rules name).or
        (if name = "Info" then none else get c.item name) := by
  rw [← get_ruledItem]
  cases get c.item "Digest" with
  | none =>
    rw [Option.isNone_none, if_pos rfl, get_insert]
    by_cases hname : name = "Digest"
    · rw [if_pos hname, if_pos ⟨hname, rfl⟩]
    · rw [if_neg hname, if_neg fun h => hname h.1]
  | some digest =>
    rw [Option.isNone_some, if_neg Bool.false_ne_true, if_neg fun h => nomatch h.2]

theorem hasEntry_populateFromManifest_iff (request : Dictionary) :
    c.HasEntry equal parameters
        (populateFromManifest equal parameters none c.buildIdentity request) ↔
      ruled equal parameters c.rules "Info" = none ∧
        (get c.item "Digest" ≠ none ∨ ruled equal parameters c.rules "Digest" = none ∨
          ruled equal parameters c.rules "Digest" = some (.data [])) := by
  rw [get_populateFromManifest,
    hasEntry_iff c equal parameters (c.manifestEntry_eq equal parameters)]
  constructor
  · intro hvalues
    have hinfo := hvalues "Info"
    have hdigest := hvalues "Digest"
    rw [get_manifestEntry, if_neg fun h => absurd h.1 (by decide), if_pos rfl,
      Option.or_none] at hinfo
    rw [get_manifestEntry, expected_digest] at hdigest
    refine ⟨hinfo, ?_⟩
    by_cases hitem : get c.item "Digest" = none
    · rw [if_pos ⟨rfl, hitem⟩, hitem, Option.none_or] at hdigest
      cases hruled : ruled equal parameters c.rules "Digest" with
      | none => exact Or.inr (Or.inl rfl)
      | some digest =>
        rw [hruled, Option.some_or] at hdigest
        exact Or.inr (Or.inr hdigest.symm)
    · exact Or.inl hitem
  · rintro ⟨hruled, hdigest⟩ name
    rw [get_manifestEntry, expected]
    by_cases hinfo : name = "Info"
    · rw [if_neg fun h => absurd (hinfo.symm.trans h.1) (by decide), if_pos hinfo, if_pos hinfo,
        hinfo, hruled]
      rfl
    · rw [if_neg hinfo, if_neg hinfo]
      by_cases hname : name = "Digest"
      · rw [if_pos hname, hname]
        rcases hdigest with hitem | hnone | hempty
        · obtain ⟨digest, hget⟩ := Option.ne_none_iff_exists'.mp hitem
          rw [if_neg fun h => hitem h.2, hget]
          rfl
        · rw [hnone, Option.none_or, Option.none_or]
          cases get c.item "Digest" <;> simp
        · rw [hempty]
          simp
      · rw [if_neg hname, if_neg fun h => hname h.1]

end Component

/-- The builders agree on a component, and on what the rules ask for, exactly if no rule
writes an `Info`, and none a digest in the place of a missing one other than the empty one. -/
theorem builders_agree_iff (equal : PlistValue → PlistValue → Bool) (parameters : Dictionary)
    (c : Component) (request : Dictionary) :
    c.HasEntry equal parameters (addApManifestTags equal parameters c.buildIdentity request) ∧
      c.HasEntry equal parameters
        (populateFromManifest equal parameters none c.buildIdentity request) ↔
      ruled equal parameters c.rules "Info" = none ∧
        (get c.item "Digest" ≠ none ∨ ruled equal parameters c.rules "Digest" = none ∨
          ruled equal parameters c.rules "Digest" = some (.data [])) := by
  rw [c.hasEntry_addApManifestTags_iff, c.hasEntry_populateFromManifest_iff]
  exact and_iff_right_of_imp And.left

/-- A rule that always writes a digest. -/
def digestRule : PlistValue :=
  .dictionary [("Conditions", .dictionary []), ("Actions", .dictionary [("Digest", .data [1])])]

def ruledInfo : Dictionary := [("RestoreRequestRules", .array [digestRule])]

def ruledManifest : Dictionary :=
  [("iBSS", .dictionary [("Trusted", .boolean true), ("Info", .dictionary ruledInfo)])]

/-- A component without a digest, and a rule that gives it one. -/
def Component.ruledDigest : Component where
  buildIdentity := [("Manifest", .dictionary ruledManifest)]
  manifest := ruledManifest
  key := "iBSS"
  item := [("Trusted", .boolean true), ("Info", .dictionary ruledInfo)]
  info := ruledInfo
  rules := [digestRule]
  distinct := by
    simp [ruledManifest, ruledInfo, digestRule, DistinctKeys, DistinctItems, DistinctEntries,
      DistinctEntry]
  manifest_get := rfl
  item_get := rfl
  info_get := rfl
  rules_get := rfl
  trusted := rfl
  notFtab := nofun
  notSkipped := by decide
  notCryptex := by decide

/-- `populate_from_manifest` puts the empty digest in the place of the one of the rule. -/
theorem builders_differ :
    ¬ ∃ equal : PlistValue → PlistValue → Bool,
      Component.ruledDigest.HasEntry equal []
        (addApManifestTags equal [] Component.ruledDigest.buildIdentity []) ∧
      Component.ruledDigest.HasEntry equal []
        (populateFromManifest equal [] none Component.ruledDigest.buildIdentity []) := by
  intro h
  obtain ⟨equal, _, hpopulated⟩ := h
  rw [Component.hasEntry_populateFromManifest_iff] at hpopulated
  obtain ⟨_, hitem | hnone | hempty⟩ := hpopulated
  · exact hitem rfl
  · exact nomatch hnone
  · have hruled : ruled equal [] Component.ruledDigest.rules "Digest" = some (.data [1]) := rfl
    rw [hruled] at hempty
    exact nomatch hempty

end XitForge.Tss
