import Mathlib.Data.List.Induction
import XitForge.CoreDevice.Hevc

/-!
The parameter sets that `emit_nal` writes again before a key frame. One flag stands for
the three of them: a set that passes by before a key frame keeps the other two from being
written, so what a decoder needs is there exactly when none or all of them passed by.
-/
namespace XitForge.CoreDevice.Hevc

/-- The type of a NAL unit that has a whole header. -/
def typeOf : Bytes → Option UInt8
  | byte :: _ :: _ => some (nalType byte)
  | _ => none

/-- The parameter sets that a decoder needs. -/
inductive ParamSet where
  | vps
  | sps
  | pps
  deriving DecidableEq, Repr

def ParamSet.type : ParamSet → UInt8
  | vps => 32
  | sps => 33
  | pps => 34

def IsParam (set : ParamSet) (nal : Bytes) : Prop := typeOf nal = some set.type

/-- A slice of a picture. -/
def IsSlice (nal : Bytes) : Prop := (typeOf nal).any isVcl = true

/-- A slice of a key frame. -/
def IsKeySlice (nal : Bytes) : Prop := (typeOf nal).any isIrap = true

instance (set : ParamSet) (nal : Bytes) : Decidable (IsParam set nal) :=
  inferInstanceAs (Decidable (typeOf nal = some set.type))

instance (nal : Bytes) : Decidable (IsSlice nal) :=
  inferInstanceAs (Decidable ((typeOf nal).any isVcl = true))

instance (nal : Bytes) : Decidable (IsKeySlice nal) :=
  inferInstanceAs (Decidable ((typeOf nal).any isIrap = true))

theorem isVcl_of_isIrap {t : UInt8} (h : isIrap t = true) : isVcl t = true := by
  simp only [isIrap, isVcl, Bool.and_eq_true, decide_eq_true_eq, UInt8.le_iff_toNat_le] at h ⊢
  exact Nat.le_trans h.2 (by decide)

theorem IsKeySlice.isSlice {nal : Bytes} (h : IsKeySlice nal) : IsSlice nal := by
  obtain ⟨t, ht, hirap⟩ := (Option.any_eq_true ..).mp h
  exact (Option.any_eq_true ..).mpr ⟨t, ht, isVcl_of_isIrap hirap⟩

theorem ParamSet.isVcl_type (set : ParamSet) : isVcl set.type = false := by
  cases set <;> decide

theorem IsParam.not_isSlice {set : ParamSet} {nal : Bytes} (h : IsParam set nal) :
    ¬ IsSlice nal := by
  rw [IsParam] at h
  rw [IsSlice, h, Option.any_some, set.isVcl_type]
  exact Bool.false_ne_true

namespace NalAssembler

/-- The parameter set that was seen last. -/
def seen (s : NalAssembler) : ParamSet → Option Bytes
  | .vps => s.vps
  | .sps => s.sps
  | .pps => s.pps

/-- The NAL units given to `emit_nal` one after the other. -/
def emitAll (s : NalAssembler) (nals : List Bytes) : NalAssembler := nals.foldl emitNal s

/-- The parameter sets that `emit_nal` writes before a NAL unit. -/
def injected (s : NalAssembler) (nal : Bytes) : List Bytes :=
  if IsKeySlice nal ∧ s.paramsEmittedSinceIrap = false then
    s.vps.toList ++ s.sps.toList ++ s.pps.toList
  else []

/-- What `emit_nal` writes of a NAL unit. -/
def written (s : NalAssembler) (nal : Bytes) : List Bytes :=
  if (typeOf nal).isSome then s.injected nal ++ [nal] else []

def writes (s : NalAssembler) : List Bytes → List Bytes
  | [] => []
  | nal :: rest => s.written nal ++ (s.emitNal nal).writes rest

section Emit

variable (s : NalAssembler) (nal : Bytes) (nals : List Bytes)

@[simp] theorem emitAll_nil : s.emitAll [] = s := rfl

@[simp] theorem emitAll_cons : s.emitAll (nal :: nals) = (s.emitNal nal).emitAll nals := rfl

theorem emitAll_append (nals' : List Bytes) :
    s.emitAll (nals ++ nals') = (s.emitAll nals).emitAll nals' := List.foldl_append

theorem writes_append (nals' : List Bytes) :
    s.writes (nals ++ nals') = s.writes nals ++ (s.emitAll nals).writes nals' := by
  induction nals generalizing s with
  | nil => rfl
  | cons nal nals ih => rw [List.cons_append, writes, ih, writes, emitAll_cons, List.append_assoc]

theorem emitNal_short {nal : Bytes} (h : typeOf nal = none) : s.emitNal nal = s := by
  unfold emitNal
  split
  · cases h
  · rfl

theorem emitNal_typed {nal : Bytes} {t : UInt8} (h : typeOf nal = some t) :
    s.emitNal nal = (((s.keepParams nal t).injectParams t).rearm t).writeAnnexb nal := by
  match nal with
  | byte :: _ :: _ =>
    cases h
    rfl
  | [] | [_] => cases h

theorem seen_keepParams (t : UInt8) (set : ParamSet) :
    (s.keepParams nal t).seen set = if t = set.type then some nal else s.seen set := by
  unfold keepParams
  split_ifs with h32 h33 h34 h h h h <;> cases set <;> simp_all [seen, ParamSet.type]

theorem foldl_writeAnnexb (sets : List Bytes) :
    sets.foldl writeAnnexb s =
      { s with out := s.out ++ sets.flatMap (annexbStartCode ++ ·) } := by
  induction sets generalizing s with
  | nil => simp
  | cons set sets ih => simp [ih, writeAnnexb, List.append_assoc]

/-- Nothing is injected once a set was written. -/
theorem injected_of_flag {nal : Bytes} (h : s.paramsEmittedSinceIrap = true) :
    s.injected nal = [] := by
  have hnot : ¬ (IsKeySlice nal ∧ s.paramsEmittedSinceIrap = false) := by
    rw [h]
    exact fun hand => Bool.noConfusion hand.2
  rw [injected, if_neg hnot]

theorem injectParams_eq {nal : Bytes} {t : UInt8} (h : typeOf nal = some t) :
    s.injectParams t =
      { s with out := s.out ++ (s.injected nal).flatMap (annexbStartCode ++ ·)
               paramsEmittedSinceIrap := s.paramsEmittedSinceIrap || isIrap t } := by
  have hkey : IsKeySlice nal ↔ isIrap t = true := by rw [IsKeySlice, h, Option.any_some]
  obtain ⟨_, _, _, _, _, _, flag, _⟩ := s
  unfold injectParams injected
  simp only [hkey, foldl_writeAnnexb]
  cases isIrap t <;> cases flag <;> simp

@[simp] theorem seen_injectParams (t : UInt8) (set : ParamSet) :
    (s.injectParams t).seen set = s.seen set := by
  unfold injectParams
  split_ifs
  · simp only [foldl_writeAnnexb]
    cases set <;> rfl
  · rfl

@[simp] theorem seen_rearm (t : UInt8) (set : ParamSet) : (s.rearm t).seen set = s.seen set := by
  unfold rearm
  split_ifs
  · cases set <;> rfl
  · rfl

@[simp] theorem seen_writeAnnexb (set : ParamSet) : (s.writeAnnexb nal).seen set = s.seen set := by
  cases set <;> rfl

theorem seen_emitNal (set : ParamSet) :
    (s.emitNal nal).seen set = if IsParam set nal then some nal else s.seen set := by
  rcases Option.eq_none_or_eq_some (typeOf nal) with h | ⟨t, h⟩
  · have hparam : ¬ IsParam set nal := by simp [IsParam, h]
    rw [s.emitNal_short h, if_neg hparam]
  · have hparam : IsParam set nal ↔ t = set.type := by rw [IsParam, h, Option.some.injEq]
    rw [s.emitNal_typed h, seen_writeAnnexb, seen_rearm, seen_injectParams, seen_keepParams]
    simp only [hparam]

theorem keepParams_other {t : UInt8} (h : ∀ set : ParamSet, t ≠ set.type) :
    s.keepParams nal t = s := by
  have hvps : t ≠ 32 := h .vps
  have hsps : t ≠ 33 := h .sps
  have hpps : t ≠ 34 := h .pps
  unfold keepParams
  rw [if_neg hvps, if_neg hsps, if_neg hpps]

theorem flag_keepParams (set : ParamSet) :
    (s.keepParams nal set.type).paramsEmittedSinceIrap = true := by
  cases set <;> rfl

variable {nal}

theorem flag_emitNal {t : UInt8} (h : typeOf nal = some t) :
    (s.emitNal nal).paramsEmittedSinceIrap =
      (!(isVcl t && !isIrap t) && ((s.keepParams nal t).paramsEmittedSinceIrap || isIrap t)) := by
  rw [s.emitNal_typed h, injectParams_eq _ h]
  unfold rearm writeAnnexb
  cases isVcl t && !isIrap t <;> simp

/-- A set that passes by stands for all of them. -/
theorem flag_param {set : ParamSet} (h : IsParam set nal) :
    (s.emitNal nal).paramsEmittedSinceIrap = true := by
  rw [s.flag_emitNal h, flag_keepParams, set.isVcl_type]
  rfl

theorem flag_keySlice (h : IsKeySlice nal) : (s.emitNal nal).paramsEmittedSinceIrap = true := by
  obtain ⟨t, ht, hirap⟩ := (Option.any_eq_true ..).mp h
  rw [s.flag_emitNal ht, hirap]
  simp

theorem flag_slice (h : IsSlice nal) (hkey : ¬ IsKeySlice nal) :
    (s.emitNal nal).paramsEmittedSinceIrap = false := by
  obtain ⟨t, ht, hvcl⟩ := (Option.any_eq_true ..).mp h
  have hirap : isIrap t = false := by
    rw [IsKeySlice, ht, Option.any_some] at hkey
    exact Bool.eq_false_iff.mpr hkey
  rw [s.flag_emitNal ht, hvcl, hirap]
  rfl

theorem flag_other (hslice : ¬ IsSlice nal) (hparam : ∀ set, ¬ IsParam set nal) :
    (s.emitNal nal).paramsEmittedSinceIrap = s.paramsEmittedSinceIrap := by
  cases h : typeOf nal with
  | none => rw [s.emitNal_short h]
  | some t =>
    have htype : ∀ set : ParamSet, t ≠ set.type := by
      intro set heq
      subst heq
      exact hparam set h
    have hvcl : isVcl t = false := by
      rw [IsSlice, h, Option.any_some] at hslice
      exact Bool.eq_false_iff.mpr hslice
    have hirap : isIrap t = false := by
      rw [Bool.eq_false_iff]
      intro hirap
      rw [isVcl_of_isIrap hirap] at hvcl
      cases hvcl
    rw [s.flag_emitNal h, keepParams_other _ _ htype, hvcl, hirap]
    simp

theorem injected_keepParams {t : UInt8} (h : typeOf nal = some t) :
    (s.keepParams nal t).injected nal = s.injected nal := by
  by_cases hset : ∃ set : ParamSet, t = set.type
  · obtain ⟨set, rfl⟩ := hset
    have hkey : ¬ IsKeySlice nal := fun hkey => IsParam.not_isSlice h hkey.isSlice
    unfold injected
    rw [if_neg (fun hand => hkey hand.1), if_neg (fun hand => hkey hand.1)]
  · rw [s.keepParams_other _ (not_exists.mp hset)]

theorem out_keepParams (nal : Bytes) (t : UInt8) : (s.keepParams nal t).out = s.out := by
  unfold keepParams
  split_ifs <;> rfl

/-- The output is the NAL units that are written, each behind a start code. -/
theorem out_emitNal (nal : Bytes) :
    (s.emitNal nal).out = s.out ++ (s.written nal).flatMap (annexbStartCode ++ ·) := by
  cases h : typeOf nal with
  | none => rw [s.emitNal_short h, written, h, Option.isSome_none, if_neg (by simp)]; simp
  | some t =>
    rw [s.emitNal_typed h, injectParams_eq _ h, injected_keepParams _ h, out_keepParams, written, h]
    have hrearm (s : NalAssembler) : (s.rearm t).out = s.out := by
      unfold rearm
      split_ifs <;> rfl
    simp [writeAnnexb, hrearm, List.append_assoc]

theorem out_emitAll (nals : List Bytes) :
    (s.emitAll nals).out = s.out ++ (s.writes nals).flatMap (annexbStartCode ++ ·) := by
  induction nals generalizing s with
  | nil => simp [writes]
  | cons nal nals ih =>
    rw [emitAll_cons, ih, out_emitNal, writes, List.flatMap_append, List.append_assoc]

end Emit

section Since

variable {s : NalAssembler} {nals : List Bytes}

/-- Without a key slice every NAL unit is written as it is. -/
theorem writes_of_no_keySlice (h : ∀ nal ∈ nals, ¬ IsKeySlice nal) :
    s.writes nals = nals.filter fun nal => (typeOf nal).isSome := by
  induction nals generalizing s with
  | nil => rfl
  | cons nal nals ih =>
    obtain ⟨hnal, hrest⟩ := List.forall_mem_cons.mp h
    have hnone : s.injected nal = [] := by
      unfold injected
      rw [if_neg (fun hand => hnal hand.1)]
    rw [writes, written, hnone, List.nil_append, ih hrest, List.filter_cons]
    split_ifs <;> rfl

/-- Until the next slice the flag says whether a set passed by. -/
theorem flag_emitAll (h : ∀ nal ∈ nals, ¬ IsSlice nal) :
    (s.emitAll nals).paramsEmittedSinceIrap = true ↔
      s.paramsEmittedSinceIrap = true ∨ ∃ nal ∈ nals, ∃ set, IsParam set nal := by
  induction nals generalizing s with
  | nil => simp
  | cons nal nals ih =>
    obtain ⟨hnal, hrest⟩ := List.forall_mem_cons.mp h
    rw [emitAll_cons, ih hrest]
    by_cases hparam : ∃ set, IsParam set nal
    · obtain ⟨set, hset⟩ := hparam
      constructor
      · intro _
        exact Or.inr ⟨nal, List.mem_cons_self, set, hset⟩
      · intro _
        exact Or.inl (s.flag_param hset)
    · rw [s.flag_other hnal (not_exists.mp hparam)]
      simp [hparam]

end Since

end NalAssembler

section Runs

open NalAssembler

/-- The depacketizer after NAL units, from the start on. -/
def emitted (nals : List Bytes) : NalAssembler := ({} : NalAssembler).emitAll nals

/-- The last one of a kind of parameter set. -/
def latest (set : ParamSet) (nals : List Bytes) : Option Bytes :=
  (nals.filter fun nal => decide (IsParam set nal)).getLast?

theorem seen_emitted (set : ParamSet) (nals : List Bytes) :
    (emitted nals).seen set = latest set nals := by
  induction nals using List.reverseRecOn with
  | nil => cases set <;> rfl
  | append_singleton nals nal ih =>
    unfold emitted latest at ih ⊢
    rw [emitAll_append, emitAll_cons, emitAll_nil, seen_emitNal, ih, List.filter_append]
    by_cases hparam : IsParam set nal <;> simp [hparam]

/-- An IRAP NAL unit starts a key frame: `earlier` ends with the slice before it, which is
not of a key frame, or there is no slice before it. -/
structure StartsKeyFrame (earlier since : List Bytes) (irap : Bytes) : Prop where
  irap : IsKeySlice irap
  since : ∀ nal ∈ since, ¬ IsSlice nal
  earlier : earlier = [] ∨
    ∃ before slice, earlier = before ++ [slice] ∧ IsSlice slice ∧ ¬ IsKeySlice slice

/-- The latest sets are written between the slice before a key frame and its first slice. -/
def SetsInjected (nals : List Bytes) : Prop :=
  ∀ earlier since irap after, nals = earlier ++ since ++ irap :: after →
    StartsKeyFrame earlier since irap →
    (∀ set, (latest set (earlier ++ since)).isSome) →
    ∀ set nal, latest set (earlier ++ since) = some nal →
      nal ∈ (emitted earlier).writes since ++ (emitted (earlier ++ since)).injected irap

/-- From one IRAP NAL unit to the next one only what is given is written. -/
def NoneBetween (nals : List Bytes) : Prop :=
  ∀ earlier irap between irap' after, nals = earlier ++ irap :: between ++ irap' :: after →
    IsKeySlice irap → IsKeySlice irap' → (∀ nal ∈ between, ¬ IsSlice nal) →
    (emitted (earlier ++ [irap])).writes (between ++ [irap']) =
      (between ++ [irap']).filter fun nal => (typeOf nal).isSome

/-- Since the slice before a key frame none of the parameter sets passed by, or all. -/
def NoneOrAllSets (nals : List Bytes) : Prop :=
  ∀ earlier since irap after, nals = earlier ++ since ++ irap :: after →
    StartsKeyFrame earlier since irap →
    (∀ set, (latest set (earlier ++ since)).isSome) →
    earlier = [] ∨ (∀ nal ∈ since, ∀ set, ¬ IsParam set nal) ∨
      ∀ set, ∃ nal ∈ since, IsParam set nal

variable {earlier since nals : List Bytes} {irap : Bytes}

theorem emitted_append (nals nals' : List Bytes) :
    emitted (nals ++ nals') = (emitted nals).emitAll nals' := emitAll_append ..

theorem mem_filter_param {set : ParamSet} {nal : Bytes} :
    nal ∈ nals.filter (fun nal => decide (IsParam set nal)) ↔ nal ∈ nals ∧ IsParam set nal := by
  rw [List.mem_filter, decide_eq_true_eq]

theorem latest_isParam {set : ParamSet} {nal : Bytes} (h : latest set nals = some nal) :
    nal ∈ nals ∧ IsParam set nal := mem_filter_param.mp (List.mem_of_getLast? h)

/-- A set that passed by since is the latest one. -/
theorem latest_mem_since {set : ParamSet} {nal : Bytes}
    (h : latest set (earlier ++ since) = some nal) (hset : ∃ nal ∈ since, IsParam set nal) :
    nal ∈ since := by
  obtain ⟨other, hother, hparam⟩ := hset
  have hne : since.filter (fun nal => decide (IsParam set nal)) ≠ [] :=
    List.ne_nil_of_mem (mem_filter_param.mpr ⟨hother, hparam⟩)
  rw [latest, List.filter_append, List.getLast?_append_of_ne_nil _ hne] at h
  exact (mem_filter_param.mp (List.mem_of_getLast? h)).1

theorem IsParam.isSome {set : ParamSet} {nal : Bytes} (h : IsParam set nal) :
    (typeOf nal).isSome := by
  rw [h]
  rfl

theorem StartsKeyFrame.writes (h : StartsKeyFrame earlier since irap) {set : ParamSet} {nal : Bytes}
    (hparam : IsParam set nal) : nal ∈ (emitted earlier).writes since ↔ nal ∈ since := by
  have hnone : ∀ nal ∈ since, ¬ IsKeySlice nal := fun nal hnal hkey =>
    h.since nal hnal hkey.isSlice
  rw [writes_of_no_keySlice hnone, List.mem_filter, and_iff_left hparam.isSome]

/-- The sets are injected where none of them passed by since the slice before. -/
theorem StartsKeyFrame.mem_injected (h : StartsKeyFrame earlier since irap)
    (hearlier : earlier ≠ []) {set : ParamSet} {nal : Bytes}
    (hlatest : latest set (earlier ++ since) = some nal) :
    nal ∈ (emitted (earlier ++ since)).injected irap ↔
      ∀ nal ∈ since, ∀ set, ¬ IsParam set nal := by
  rcases h.earlier with rfl | ⟨before, slice, rfl, hslice, hkey⟩
  · exact absurd rfl hearlier
  have hfalse : (emitted (before ++ [slice])).paramsEmittedSinceIrap = false := by
    rw [emitted_append]
    exact flag_slice _ hslice hkey
  have hflag : (emitted (before ++ [slice] ++ since)).paramsEmittedSinceIrap = true ↔
      ∃ nal ∈ since, ∃ set, IsParam set nal := by
    rw [emitted_append, flag_emitAll h.since, hfalse]
    simp
  have hseen : (emitted (before ++ [slice] ++ since)).seen set = some nal := by
    rw [seen_emitted, hlatest]
  by_cases hpassed : ∃ nal ∈ since, ∃ set, IsParam set nal
  · rw [injected_of_flag _ (hflag.mpr hpassed)]
    simpa using hpassed
  · have hunset : (emitted (before ++ [slice] ++ since)).paramsEmittedSinceIrap = false :=
      Bool.eq_false_iff.mpr fun htrue => hpassed (hflag.mp htrue)
    rw [injected, if_pos ⟨h.irap, hunset⟩]
    constructor
    · intro _ nal hnal set hparam
      exact hpassed ⟨nal, hnal, set, hparam⟩
    · intro _
      cases set <;> simp_all [seen]

theorem noneBetween (nals : List Bytes) : NoneBetween nals := by
  intro earlier irap between irap' after _ hirap hirap' hbetween
  have hnone : ∀ nal ∈ between, ¬ IsKeySlice nal := fun nal hnal hkey =>
    hbetween nal hnal hkey.isSlice
  have hset : (emitted (earlier ++ [irap])).paramsEmittedSinceIrap = true := by
    rw [emitted_append]
    exact flag_keySlice _ hirap
  have hstays : ((emitted (earlier ++ [irap])).emitAll between).paramsEmittedSinceIrap = true :=
    (flag_emitAll hbetween).mpr (Or.inl hset)
  have hsome : (typeOf irap').isSome := by
    obtain ⟨t, ht, _⟩ := (Option.any_eq_true ..).mp hirap'
    rw [ht]
    rfl
  rw [writes_append, writes_of_no_keySlice hnone, NalAssembler.writes, NalAssembler.writes, written,
    if_pos hsome, injected_of_flag _ hstays]
  simp [List.filter_append, hsome]

/-- Whatever is given to `emit_nal`: every key frame has the latest parameter sets before
it, and none between its slices, exactly when before each of them none of the sets passed
by, or all. -/
theorem paramSets_iff (nals : List Bytes) :
    SetsInjected nals ∧ NoneBetween nals ↔ NoneOrAllSets nals := by
  rw [and_iff_left (noneBetween nals)]
  constructor
  · intro h earlier since irap after hnals hstart hall
    by_cases hearlier : earlier = []
    · exact Or.inl hearlier
    right
    by_cases hnone : ∀ nal ∈ since, ∀ set, ¬ IsParam set nal
    · exact Or.inl hnone
    · right
      intro set
      obtain ⟨nal, hlatest⟩ := Option.isSome_iff_exists.mp (hall set)
      have hparam := (latest_isParam hlatest).2
      rcases List.mem_append.mp (h earlier since irap after hnals hstart hall set nal hlatest)
        with hwritten | hinjected
      · exact ⟨nal, (hstart.writes hparam).mp hwritten, hparam⟩
      · exact absurd ((hstart.mem_injected hearlier hlatest).mp hinjected) hnone
  · intro h earlier since irap after hnals hstart hall set nal hlatest
    obtain ⟨hmem, hparam⟩ := latest_isParam hlatest
    rw [List.mem_append]
    by_cases hearlier : earlier = []
    · rw [hearlier, List.nil_append] at hmem
      exact Or.inl ((hstart.writes hparam).mpr hmem)
    rcases h earlier since irap after hnals hstart hall with hnil | hnone | hevery
    · exact absurd hnil hearlier
    · exact Or.inr ((hstart.mem_injected hearlier hlatest).mpr hnone)
    · exact Or.inl ((hstart.writes hparam).mpr (latest_mem_since hlatest (hevery set)))

/-- A picture parameter set alone passes by before the second key frame. -/
theorem lone_pps_hides_others : ¬ ∀ nals, SetsInjected nals ∧ NoneBetween nals := by
  intro h
  have hmem := (h [[0x40, 1, 0], [0x42, 1, 0], [0x44, 1, 0], [0x26, 1, 0], [0x02, 1, 0],
    [0x44, 1, 1], [0x26, 1, 0]]).1 [[0x40, 1, 0], [0x42, 1, 0], [0x44, 1, 0], [0x26, 1, 0],
    [0x02, 1, 0]] [[0x44, 1, 1]] [0x26, 1, 0] [] rfl ?_ ?_ .vps [0x40, 1, 0] rfl
  · revert hmem
    decide
  · exact ⟨by decide, by decide, Or.inr ⟨[[0x40, 1, 0], [0x42, 1, 0], [0x44, 1, 0],
      [0x26, 1, 0]], [0x02, 1, 0], rfl, by decide, by decide⟩⟩
  · intro set
    cases set <;> rfl

end Runs

end XitForge.CoreDevice.Hevc
