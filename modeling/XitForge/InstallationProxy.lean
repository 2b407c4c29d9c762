import Mathlib.Data.List.TakeWhile
import XitForge.Idevice.PlistReply

/-!
The loops of an `InstallationProxyClient`. Each reads replies until one ends it: `browse`
goes on as long as there are lists of applications, `watch_completion` as long as nothing
is reported but progress.
-/
namespace XitForge.InstallationProxy

open Idevice (IdeviceError errorOf readPlist readPlist_of_error readPlist_of_none stringAt
  stringAt_remove)
open KeyedList PropertyList

section Loops

/-- What a request returns, and the replies that it leaves to the next one. -/
structure Run (α : Type) where
  result : Except IdeviceError α
  rest : List Dictionary

/-- The loop of `browse`, with the values so far. A read behind the last reply fails. -/
def browseFrom (values : List Value) : List Dictionary → Run (List Value)
  | [] => { result := .error .socket, rest := [] }
  | reply :: rest =>
    match readPlist reply with
    | .error e => { result := .error e, rest := rest }
    | .ok res =>
      match (get res "CurrentList").bind Value.asArray with
      -- "browse didn't contain current list"
      | none => { result := .ok values, rest := rest }
      | some list =>
        if stringAt (remove res "CurrentList") "Status" = some "Complete" then
          { result := .ok (values ++ list), rest := rest }
        else browseFrom (values ++ list) rest

def browse (replies : List Dictionary) : Run (List Value) := browseFrom [] replies

/-- A run with the progress that the callback has got. -/
structure WatchRun extends Run Unit where
  reported : List UInt64

def WatchRun.behind (run : WatchRun) (reported : List UInt64) : WatchRun :=
  { run with reported := reported ++ run.reported }

def watchCompletion : List Dictionary → WatchRun
  | [] => { result := .error .socket, rest := [], reported := [] }
  | reply :: rest =>
    match readPlist reply with
    | .error e => { result := .error e, rest := rest, reported := [] }
    | .ok res =>
      match stringAt res "ErrorDescription" with
      | some e =>
        { result := .error (.installationProxy (.operationFailed e)), rest := rest, reported := [] }
      | none =>
        let res := remove res "ErrorDescription"
        let reported := ((get res "PercentComplete").bind Value.asUnsignedInteger).toList
        let res := remove res "PercentComplete"
        if stringAt res "Status" = some "Complete" then
          { result := .ok (), rest := rest, reported := reported }
        else (watchCompletion rest).behind reported

end Loops

section Replies

def Carries (reply : Dictionary) (key : String) : Prop := get reply key ≠ none

instance (reply : Dictionary) (key : String) : Decidable (Carries reply key) :=
  decidable_of_iff ((get reply key).isSome = true) Option.isSome_iff_ne_none

def Completes (reply : Dictionary) : Prop := stringAt reply "Status" = some "Complete"

instance (reply : Dictionary) : Decidable (Completes reply) :=
  inferInstanceAs (Decidable (_ = _))

def currentList (reply : Dictionary) : Option (List Value) :=
  (get reply "CurrentList").bind Value.asArray

def percentComplete (reply : Dictionary) : Option UInt64 :=
  (get reply "PercentComplete").bind Value.asUnsignedInteger

def valuesOf (key : String) (replies : List Dictionary) : List Value :=
  replies.filterMap fun reply => get reply key

/-- The value of a key, if there is one, is one that the loop has a use for. -/
def Usable {β : Type} (use : Value → Option β) (key : String) (reply : Dictionary) : Prop :=
  ∀ value, get reply key = some value → (use value).isSome

/-- `browse` reads on behind the reply. -/
def browseContinues (reply : Dictionary) : Bool :=
  decide (¬ Carries reply "Error" ∧ (currentList reply).isSome ∧ ¬ Completes reply)

/-- `watch_completion` reads on behind the reply. -/
def watchContinues (reply : Dictionary) : Bool :=
  decide (¬ Carries reply "Error" ∧ stringAt reply "ErrorDescription" = none ∧ ¬ Completes reply)

end Replies

section Runs

/-- The run of `browse` from the reply on that ends it. -/
def browseEnd (values : List Value) : List Dictionary → Run (List Value)
  | [] => { result := .error .socket, rest := [] }
  | last :: rest =>
    match get last "Error" with
    | some e => { result := .error (errorOf last e), rest := rest }
    | none => { result := .ok (values ++ (currentList last).getD []), rest := rest }

theorem browseContinues_iff {reply : Dictionary} : browseContinues reply = true ↔
    get reply "Error" = none ∧ (currentList reply).isSome ∧ ¬ Completes reply := by
  rw [browseContinues, decide_eq_true_iff, Carries, ne_eq, not_not]

theorem watchContinues_iff {reply : Dictionary} : watchContinues reply = true ↔
    get reply "Error" = none ∧ stringAt reply "ErrorDescription" = none ∧ ¬ Completes reply := by
  rw [watchContinues, decide_eq_true_iff, Carries, ne_eq, not_not]

/-- A pass of `browse` over a reply that is no error. -/
theorem browseFrom_cons {reply : Dictionary} (herror : get reply "Error" = none)
    (values : List Value) (rest : List Dictionary) :
    browseFrom values (reply :: rest) =
      if browseContinues reply then browseFrom (values ++ (currentList reply).getD []) rest
      else { result := .ok (values ++ (currentList reply).getD []), rest := rest } := by
  rw [browseFrom, readPlist_of_none herror]
  dsimp only
  rw [stringAt_remove (by decide)]
  cases hlist : currentList reply with
  | none =>
    have hstop : ¬ browseContinues reply = true := by
      rw [browseContinues_iff, hlist]
      simp
    rw [if_neg hstop, Option.getD_none, List.append_nil]
    unfold currentList at hlist
    rw [hlist]
  | some list =>
    have hcontinues : browseContinues reply = true ↔ ¬ Completes reply := by
      rw [browseContinues_iff, herror, hlist]
      simp
    rw [Option.getD_some]
    unfold currentList at hlist
    rw [hlist]
    by_cases hcomplete : Completes reply
    · rw [if_neg (hcontinues.not.mpr (not_not.mpr hcomplete))]
      exact if_pos hcomplete
    · rw [if_pos (hcontinues.mpr hcomplete)]
      exact if_neg hcomplete

theorem browseFrom_eq (values : List Value) (replies : List Dictionary) :
    browseFrom values replies =
      browseEnd (values ++ ((replies.takeWhile browseContinues).filterMap currentList).flatten)
        (replies.dropWhile browseContinues) := by
  induction replies generalizing values with
  | nil => rfl
  | cons reply replies ih =>
    by_cases hcontinues : browseContinues reply = true
    · obtain ⟨herror, hlist, -⟩ := browseContinues_iff.mp hcontinues
      obtain ⟨list, hlist⟩ := Option.isSome_iff_exists.mp hlist
      rw [browseFrom_cons herror, if_pos hcontinues, ih, List.takeWhile_cons_of_pos hcontinues,
        List.dropWhile_cons_of_pos hcontinues, List.filterMap_cons_some hlist, List.flatten_cons,
        hlist, Option.getD_some, List.append_assoc]
    · rw [List.takeWhile_cons_of_neg hcontinues, List.dropWhile_cons_of_neg hcontinues,
        List.filterMap_nil, List.flatten_nil, List.append_nil, browseEnd]
      cases herror : get reply "Error" with
      | some e => rw [browseFrom, readPlist_of_error herror]
      | none => rw [browseFrom_cons herror, if_neg hcontinues]

/-- Without an error at its end, a run of `browse` returns the lists of all it reads. -/
theorem browse_eq_of_drop {replies rest : List Dictionary} {last : Dictionary}
    (hdrop : replies.dropWhile browseContinues = last :: rest) (herror : get last "Error" = none) :
    browse replies =
      { result := .ok ((replies.takeWhile browseContinues ++ [last]).filterMap currentList).flatten,
        rest := rest } := by
  have hlast : ([last].filterMap currentList).flatten = (currentList last).getD [] := by
    cases hlist : currentList last with
    | none => rw [List.filterMap_cons_none hlist, List.filterMap_nil, List.flatten_nil,
        Option.getD_none]
    | some list => rw [List.filterMap_cons_some hlist, List.filterMap_nil, List.flatten_singleton,
        Option.getD_some]
  rw [browse, browseFrom_eq, hdrop, browseEnd, herror, List.filterMap_append, List.flatten_append,
    hlast, List.nil_append]

theorem exists_end_of_browse {replies : List Dictionary} {values : List Value}
    (h : (browse replies).result = .ok values) :
    ∃ last rest, replies.dropWhile browseContinues = last :: rest ∧ get last "Error" = none := by
  rw [browse, browseFrom_eq] at h
  cases hdrop : replies.dropWhile browseContinues with
  | nil =>
    rw [hdrop] at h
    cases h
  | cons last rest =>
    refine ⟨last, rest, rfl, ?_⟩
    rw [hdrop, browseEnd] at h
    cases herror : get last "Error" with
    | none => rfl
    | some e =>
      rw [herror] at h
      cases h

/-- The run of `watch_completion` from the reply on that ends it. -/
def watchEnd : List Dictionary → WatchRun
  | [] => { result := .error .socket, rest := [], reported := [] }
  | last :: rest =>
    match get last "Error" with
    | some e => { result := .error (errorOf last e), rest := rest, reported := [] }
    | none =>
      match stringAt last "ErrorDescription" with
      | some e =>
        { result := .error (.installationProxy (.operationFailed e)), rest := rest, reported := [] }
      | none => { result := .ok (), rest := rest, reported := (percentComplete last).toList }

theorem behind_behind (run : WatchRun) (reported reported' : List UInt64) :
    (run.behind reported).behind reported' = run.behind (reported' ++ reported) := by
  unfold WatchRun.behind
  rw [List.append_assoc]

theorem watchCompletion_cons {reply : Dictionary} (herror : get reply "Error" = none)
    (hdescription : stringAt reply "ErrorDescription" = none) (rest : List Dictionary) :
    watchCompletion (reply :: rest) =
      if watchContinues reply then (watchCompletion rest).behind (percentComplete reply).toList
      else { result := .ok (), rest := rest, reported := (percentComplete reply).toList } := by
  have hcontinues : watchContinues reply = true ↔ ¬ Completes reply := by
    rw [watchContinues_iff, herror, hdescription]
    simp
  have hpercent : get (remove reply "ErrorDescription") "PercentComplete" =
      get reply "PercentComplete" := by
    rw [get_remove, if_neg (by decide)]
  rw [watchCompletion, readPlist_of_none herror]
  dsimp only
  rw [hdescription]
  dsimp only
  rw [hpercent, stringAt_remove (by decide), stringAt_remove (by decide)]
  by_cases hcomplete : Completes reply
  · rw [if_neg (hcontinues.not.mpr (not_not.mpr hcomplete))]
    exact if_pos hcomplete
  · rw [if_pos (hcontinues.mpr hcomplete)]
    exact if_neg hcomplete

theorem watchCompletion_eq (replies : List Dictionary) :
    watchCompletion replies = (watchEnd (replies.dropWhile watchContinues)).behind
      ((replies.takeWhile watchContinues).filterMap percentComplete) := by
  induction replies with
  | nil => rfl
  | cons reply replies ih =>
    by_cases hcontinues : watchContinues reply = true
    · obtain ⟨herror, hdescription, -⟩ := watchContinues_iff.mp hcontinues
      rw [watchCompletion_cons herror hdescription, if_pos hcontinues, ih,
        List.takeWhile_cons_of_pos hcontinues, List.dropWhile_cons_of_pos hcontinues, behind_behind]
      cases hpercent : percentComplete reply with
      | none => rw [List.filterMap_cons_none hpercent, Option.toList_none, List.nil_append]
      | some percent =>
        rw [List.filterMap_cons_some hpercent, Option.toList_some, List.singleton_append]
    · rw [List.takeWhile_cons_of_neg hcontinues, List.dropWhile_cons_of_neg hcontinues,
        List.filterMap_nil, watchEnd]
      cases herror : get reply "Error" with
      | some e =>
        rw [watchCompletion, readPlist_of_error herror]
        rfl
      | none =>
        cases hdescription : stringAt reply "ErrorDescription" with
        | some e =>
          rw [watchCompletion, readPlist_of_none herror]
          dsimp only
          rw [hdescription]
          rfl
        | none =>
          rw [watchCompletion_cons herror hdescription, if_neg hcontinues]
          rfl

theorem watchCompletion_eq_of_drop {replies rest : List Dictionary} {last : Dictionary}
    (hdrop : replies.dropWhile watchContinues = last :: rest) (herror : get last "Error" = none)
    (hdescription : stringAt last "ErrorDescription" = none) :
    watchCompletion replies =
      { result := .ok (), rest := rest,
        reported := (replies.takeWhile watchContinues ++ [last]).filterMap percentComplete } := by
  have hlast : [last].filterMap percentComplete = (percentComplete last).toList := by
    cases hpercent : percentComplete last with
    | none => rw [List.filterMap_cons_none hpercent, List.filterMap_nil, Option.toList_none]
    | some percent =>
      rw [List.filterMap_cons_some hpercent, List.filterMap_nil, Option.toList_some]
  rw [watchCompletion_eq, hdrop, watchEnd, herror, hdescription, WatchRun.behind,
    List.filterMap_append, hlast]

theorem exists_end_of_watch {replies : List Dictionary}
    (h : (watchCompletion replies).result = .ok ()) :
    ∃ last rest, replies.dropWhile watchContinues = last :: rest ∧ get last "Error" = none ∧
      stringAt last "ErrorDescription" = none := by
  rw [watchCompletion_eq] at h
  cases hdrop : replies.dropWhile watchContinues with
  | nil =>
    rw [hdrop] at h
    cases h
  | cons last rest =>
    refine ⟨last, rest, rfl, ?_⟩
    rw [hdrop, watchEnd] at h
    cases herror : get last "Error" with
    | some e =>
      rw [herror] at h
      cases h
    | none =>
      refine ⟨rfl, ?_⟩
      cases hdescription : stringAt last "ErrorDescription" with
      | none => rfl
      | some e =>
        rw [herror, hdescription] at h
        cases h

end Runs

section Errors

variable {continues : Dictionary → Bool} {replies rest read : List Dictionary} {last : Dictionary}

/-- What is read if the rest is left behind the reply that ends the loop. -/
theorem read_eq (hdrop : replies.dropWhile continues = last :: rest) (h : replies = read ++ rest) :
    read = replies.takeWhile continues ++ [last] := by
  have hsplit := List.takeWhile_append_dropWhile (p := continues) (l := replies)
  rw [hdrop, List.append_cons] at hsplit
  exact List.append_cancel_right (h.symm.trans hsplit.symm)

theorem not_continues (hdrop : replies.dropWhile continues = last :: rest) :
    continues last = false := by
  have hhead := List.head?_dropWhile_not continues replies
  rw [hdrop] at hhead
  exact hhead

/-- A run that reads an error ends there, with an error. -/
def FailsAtError {α : Type} (replies : List Dictionary) (run : Run α) : Prop :=
  ∀ before reply after, replies = before ++ reply :: after ++ run.rest →
    Carries reply "Error" → after = [] ∧ ∃ error, run.result = .error error

/-- It does so if it goes on behind no error, and if an error that it stops at is its
result. -/
theorem failsAtError_of {α : Type} {run : Run α} (continues : Dictionary → Bool)
    (hcontinues : ∀ reply, continues reply = true → ¬ Carries reply "Error")
    (hrest : run.rest = (replies.dropWhile continues).tail)
    (hlast : ∀ last rest, replies.dropWhile continues = last :: rest → Carries last "Error" →
      ∃ error, run.result = .error error) : FailsAtError replies run := by
  intro before reply after hreplies herror
  have hnotMem : reply ∉ replies.takeWhile continues := fun hmem =>
    hcontinues reply (List.mem_takeWhile_imp hmem) herror
  cases hdrop : replies.dropWhile continues with
  | nil =>
    have hall : replies.takeWhile continues = replies := by
      rw [List.takeWhile_eq_self_iff, ← List.dropWhile_eq_nil_iff, hdrop]
    rw [hall, hreplies] at hnotMem
    simp at hnotMem
  | cons last rest =>
    rw [hrest, hdrop, List.tail_cons] at hreplies
    have hread := read_eq hdrop hreplies
    rcases List.eq_nil_or_concat after with rfl | ⟨init, final, rfl⟩
    · obtain ⟨-, hreply⟩ := List.append_inj' hread rfl
      rw [(List.cons.inj hreply).1] at herror
      exact ⟨rfl, hlast last rest hdrop herror⟩
    · rw [List.concat_eq_append, ← List.cons_append, ← List.append_assoc] at hread
      rw [← (List.append_inj' hread rfl).1] at hnotMem
      simp at hnotMem

theorem browse_failsAtError (replies : List Dictionary) :
    FailsAtError replies (browse replies) := by
  have hrun := browseFrom_eq [] replies
  refine failsAtError_of browseContinues ?_ ?_ ?_
  · intro reply hcontinues
    exact not_not.mpr (browseContinues_iff.mp hcontinues).1
  · rw [browse, hrun]
    cases replies.dropWhile browseContinues with
    | nil => rfl
    | cons last rest =>
      rw [browseEnd]
      cases get last "Error" <;> rfl
  · intro last rest hdrop herror
    obtain ⟨e, he⟩ := Option.ne_none_iff_exists'.mp herror
    rw [browse, hrun, hdrop, browseEnd, he]
    exact ⟨errorOf last e, rfl⟩

theorem watch_failsAtError (replies : List Dictionary) :
    FailsAtError replies (watchCompletion replies).toRun := by
  have hrun := watchCompletion_eq replies
  refine failsAtError_of watchContinues ?_ ?_ ?_
  · intro reply hcontinues
    exact not_not.mpr (watchContinues_iff.mp hcontinues).1
  · rw [hrun]
    cases replies.dropWhile watchContinues with
    | nil => rfl
    | cons last rest =>
      rw [watchEnd]
      cases get last "Error" with
      | some e => rfl
      | none => cases stringAt last "ErrorDescription" <;> rfl
  · intro last rest hdrop herror
    obtain ⟨e, he⟩ := Option.ne_none_iff_exists'.mp herror
    rw [hrun, hdrop, watchEnd, he]
    exact ⟨errorOf last e, rfl⟩

end Errors

section Values

variable {β : Type} {use : Value → Option β} {make : β → Value} {key : String}
  {replies : List Dictionary}

/-- If all values of a key are usable, they are the ones that the loop uses. -/
theorem valuesOf_of_usable (huse : ∀ value b, use value = some b ↔ value = make b)
    (h : ∀ reply ∈ replies, Usable use key reply) :
    valuesOf key replies =
      (replies.filterMap fun reply => (get reply key).bind use).map make := by
  unfold valuesOf
  rw [List.map_filterMap]
  apply List.filterMap_congr
  intro reply hreply
  cases hvalue : get reply key with
  | none => rfl
  | some value =>
    obtain ⟨b, hb⟩ := Option.isSome_iff_exists.mp (h reply hreply value hvalue)
    rw [Option.bind_some, hb, Option.map_some, (huse value b).mp hb]

theorem usable_of_valuesOf (huse : ∀ value b, use value = some b ↔ value = make b) {bs : List β}
    (h : valuesOf key replies = bs.map make) {reply : Dictionary} (hreply : reply ∈ replies) :
    Usable use key reply := by
  intro value hvalue
  have hmem : value ∈ valuesOf key replies := List.mem_filterMap.mpr ⟨reply, hreply, hvalue⟩
  rw [h] at hmem
  obtain ⟨b, -, hb⟩ := List.mem_map.mp hmem
  rw [(huse value b).mpr hb.symm]
  rfl

end Values

section Outcomes

/-- Neither an error of the device nor one of the service. -/
def Clean (reply : Dictionary) : Prop :=
  ¬ Carries reply "Error" ∧ ¬ Carries reply "ErrorDescription"

/-- An `Ok` of `browse` has all the lists up to a reply that completes, and an error is not
passed over. -/
structure BrowseHonest (replies : List Dictionary) : Prop where
  ok : ∀ values, (browse replies).result = .ok values →
    ∃ before last, replies = before ++ [last] ++ (browse replies).rest ∧ Completes last ∧
      (∀ reply ∈ before ++ [last], Clean reply) ∧
      ∃ lists : List (List Value),
        valuesOf "CurrentList" (before ++ [last]) = lists.map Value.array ∧ values = lists.flatten
  failsAtError : FailsAtError replies (browse replies)

/-- An `Ok` of `watch_completion` is at the first reply that completes, with the progress up
to it, and an error is not passed over. -/
structure WatchHonest (replies : List Dictionary) : Prop where
  ok : (watchCompletion replies).result = .ok () →
    ∃ before last, replies = before ++ [last] ++ (watchCompletion replies).rest ∧
      Completes last ∧ (∀ reply ∈ before, ¬ Completes reply) ∧
      (∀ reply ∈ before ++ [last], Clean reply) ∧
      valuesOf "PercentComplete" (before ++ [last]) =
        (watchCompletion replies).reported.map fun percent => Value.integer percent.toNat
  failsAtError : FailsAtError replies (watchCompletion replies).toRun

/-- The reply that ends `browse` is an error, or it completes, and then there is no other
error in what is read and its list is an array if there is one. -/
def BrowseKept (replies : List Dictionary) : Prop :=
  match replies.dropWhile browseContinues with
  | [] => True
  | last :: _ =>
    Carries last "Error" ∨ Completes last ∧ Usable Value.asArray "CurrentList" last ∧
      ∀ reply ∈ replies.takeWhile browseContinues ++ [last], ¬ Carries reply "ErrorDescription"

/-- The reply that ends `watch_completion` is an error, or all that is read has no error of
another type than a string, and no progress of another type than a `u64`. -/
def WatchKept (replies : List Dictionary) : Prop :=
  match replies.dropWhile watchContinues with
  | [] => True
  | last :: _ =>
    Carries last "Error" ∨ stringAt last "ErrorDescription" ≠ none ∨
      ∀ reply ∈ replies.takeWhile watchContinues ++ [last], ¬ Carries reply "ErrorDescription" ∧
        Usable Value.asUnsignedInteger "PercentComplete" reply

theorem browseKept_of_honest {replies : List Dictionary} (h : BrowseHonest replies) :
    BrowseKept replies := by
  unfold BrowseKept
  cases hdrop : replies.dropWhile browseContinues with
  | nil => trivial
  | cons last rest =>
    by_cases herror : Carries last "Error"
    · exact .inl herror
    · have hrun := browse_eq_of_drop hdrop (not_not.mp herror)
      obtain ⟨before, final, hreplies, hcomplete, hclean, lists, hlists, -⟩ :=
        h.ok _ (congrArg Run.result hrun)
      rw [hrun] at hreplies
      have hread := read_eq hdrop hreplies
      rw [hread] at hclean hlists
      rw [(List.cons.inj (List.append_inj' hread rfl).2).1] at hcomplete
      refine .inr ⟨hcomplete, ?_, fun reply hreply => (hclean reply hreply).2⟩
      exact usable_of_valuesOf (fun _ _ => Value.asArray_eq_some) hlists
        (List.mem_append_right _ (List.mem_singleton_self last))

theorem browseHonest_of_kept {replies : List Dictionary} (h : BrowseKept replies) :
    BrowseHonest replies := by
  refine ⟨?_, browse_failsAtError replies⟩
  intro values hvalues
  obtain ⟨last, rest, hdrop, herror⟩ := exists_end_of_browse hvalues
  have hrun := browse_eq_of_drop hdrop herror
  have hsplit := List.takeWhile_append_dropWhile (p := browseContinues) (l := replies)
  unfold BrowseKept at h
  rw [hdrop] at h hsplit
  rw [hrun] at hvalues ⊢
  obtain ⟨hcomplete, hlist, hdescription⟩ := h.resolve_left (not_not.mpr herror)
  have hbefore : ∀ reply ∈ replies.takeWhile browseContinues,
      ¬ Carries reply "Error" ∧ Usable Value.asArray "CurrentList" reply := by
    intro reply hreply
    obtain ⟨hnone, hsome, -⟩ := browseContinues_iff.mp (List.mem_takeWhile_imp hreply)
    refine ⟨not_not.mpr hnone, fun value hvalue => ?_⟩
    rw [currentList, hvalue] at hsome
    exact hsome
  have hread : ∀ reply ∈ replies.takeWhile browseContinues ++ [last],
      ¬ Carries reply "Error" ∧ Usable Value.asArray "CurrentList" reply :=
    List.forall_mem_append.mpr
      ⟨hbefore, List.forall_mem_singleton.mpr ⟨not_not.mpr herror, hlist⟩⟩
  refine ⟨replies.takeWhile browseContinues, last, ?_, hcomplete, ?_, _, ?_,
    (Except.ok.inj hvalues).symm⟩
  · rw [← List.append_cons]
    exact hsplit.symm
  · exact fun reply hreply => ⟨(hread reply hreply).1, hdescription reply hreply⟩
  · exact valuesOf_of_usable (fun _ _ => Value.asArray_eq_some)
      fun reply hreply => (hread reply hreply).2

theorem watchKept_of_honest {replies : List Dictionary} (h : WatchHonest replies) :
    WatchKept replies := by
  unfold WatchKept
  cases hdrop : replies.dropWhile watchContinues with
  | nil => trivial
  | cons last rest =>
    by_cases herror : Carries last "Error"
    · exact .inl herror
    by_cases hdescription : stringAt last "ErrorDescription" = none
    · have hrun := watchCompletion_eq_of_drop hdrop (not_not.mp herror) hdescription
      have hok : (watchCompletion replies).result = .ok () := by rw [hrun]
      obtain ⟨before, final, hreplies, -, -, hclean, hreported⟩ := h.ok hok
      rw [hrun] at hreplies
      rw [read_eq hdrop hreplies] at hclean hreported
      refine .inr (.inr fun reply hreply => ⟨(hclean reply hreply).2, ?_⟩)
      exact usable_of_valuesOf (fun _ _ => Value.asUnsignedInteger_eq_some) hreported hreply
    · exact .inr (.inl hdescription)

theorem watchHonest_of_kept {replies : List Dictionary} (h : WatchKept replies) :
    WatchHonest replies := by
  refine ⟨?_, watch_failsAtError replies⟩
  intro hok
  obtain ⟨last, rest, hdrop, herror, hdescription⟩ := exists_end_of_watch hok
  have hrun := watchCompletion_eq_of_drop hdrop herror hdescription
  have hsplit := List.takeWhile_append_dropWhile (p := watchContinues) (l := replies)
  unfold WatchKept at h
  rw [hdrop] at h hsplit
  have hkept := (h.resolve_left (not_not.mpr herror)).resolve_left (not_not.mpr hdescription)
  have hcomplete : Completes last := by
    by_contra hnot
    have hgoes := watchContinues_iff.mpr ⟨herror, hdescription, hnot⟩
    rw [not_continues hdrop] at hgoes
    cases hgoes
  have hbefore : ∀ reply ∈ replies.takeWhile watchContinues,
      ¬ Carries reply "Error" ∧ ¬ Completes reply := by
    intro reply hreply
    obtain ⟨hnone, -, hgoes⟩ := watchContinues_iff.mp (List.mem_takeWhile_imp hreply)
    exact ⟨not_not.mpr hnone, hgoes⟩
  have hread : ∀ reply ∈ replies.takeWhile watchContinues ++ [last], ¬ Carries reply "Error" :=
    List.forall_mem_append.mpr ⟨fun reply hreply => (hbefore reply hreply).1,
      List.forall_mem_singleton.mpr (not_not.mpr herror)⟩
  rw [hrun]
  refine ⟨replies.takeWhile watchContinues, last, ?_, hcomplete,
    fun reply hreply => (hbefore reply hreply).2, ?_, ?_⟩
  · rw [← List.append_cons]
    exact hsplit.symm
  · exact fun reply hreply => ⟨hread reply hreply, (hkept reply hreply).1⟩
  · exact valuesOf_of_usable (fun _ _ => Value.asUnsignedInteger_eq_some)
      fun reply hreply => (hkept reply hreply).2

/-- The outcomes are honest exactly where `browse` does not end at a reply without a list, and
neither loop passes over a key that it has no use for. -/
theorem outcomesHonest_iff (browsed watched : List Dictionary) :
    BrowseHonest browsed ∧ WatchHonest watched ↔ BrowseKept browsed ∧ WatchKept watched := by
  constructor
  · intro h
    exact ⟨browseKept_of_honest h.1, watchKept_of_honest h.2⟩
  · intro h
    exact ⟨browseHonest_of_kept h.1, watchHonest_of_kept h.2⟩

/-- The service reports one application, and then that it has failed. -/
def failedBrowse : List Dictionary :=
  [[("CurrentList", .array [.dictionary [("CFBundleIdentifier", .string "com.example.app")]]),
      ("Status", .string "BrowsingApplications")],
    [("ErrorDescription", .string "cannot read the application database")]]

/-- The list that is cut off is returned as the whole one. -/
theorem not_honest_failedBrowse :
    (browse failedBrowse).result =
        .ok [.dictionary [("CFBundleIdentifier", .string "com.example.app")]] ∧
      ¬ BrowseHonest failedBrowse := by
  refine ⟨rfl, fun h => ?_⟩
  have hkept := browseKept_of_honest h
  rcases hkept with herror | ⟨hcomplete, -⟩
  · exact herror rfl
  · cases hcomplete

end Outcomes

end XitForge.InstallationProxy
