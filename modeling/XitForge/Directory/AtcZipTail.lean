import XitForge.Directory.AtcZip

/-!
The tail of the link as a path. The places where the loops of `XFATCZip.c` find an end are
those between its components: the checks see each component, and the directories are its
prefixes.
-/
namespace XitForge.Directory.AtcZip

open ByteStream

def components (tail : Bytes) : List Bytes := tail.splitOn slash

/-- A component that a tail may have. -/
def Plain (component : Bytes) : Prop :=
  component ≠ [] ∧ component ≠ chars "." ∧ component ≠ chars ".."

instance (component : Bytes) : Decidable (Plain component) :=
  inferInstanceAs (Decidable (_ ∧ _ ∧ _))

/-- The tails that the builder is for. -/
structure Accepted (tail : Bytes) : Prop where
  length : tail.length ≤ 2048
  count : (components tail).length ≤ 64
  plain : ∀ component ∈ components tail, Plain component
  backslash : 92 ∉ tail

/-- The paths that begin the tail and end with a component. -/
def prefixes (components : List Bytes) : List Bytes :=
  (List.range components.length).map fun k => [slash].intercalate (components.take (k + 1))

section Places

variable {base component rest : Bytes}

/-- The components behind `base`, of which one has begun. -/
noncomputable def behind (component rest : Bytes) : List Bytes :=
  rest.splitOnPPrepend (· == slash) component.reverse

theorem behind_nil (component : Bytes) : behind component [] = [component] := by
  unfold behind
  rw [List.splitOnPPrepend_nil, List.reverse_reverse]

theorem behind_slash (component rest : Bytes) :
    behind component (slash :: rest) = component :: behind [] rest := by
  have hends : (slash == slash) = true := beq_self_eq_true slash
  unfold behind
  rw [List.splitOnPPrepend, if_pos hends, List.reverse_reverse]
  rfl

theorem behind_cons {byte : UInt8} (h : byte ≠ slash) (component rest : Bytes) :
    behind component (byte :: rest) = behind (component ++ [byte]) rest := by
  have hends : ¬ (byte == slash) = true := by
    rw [beq_iff_eq]
    exact h
  unfold behind
  rw [List.splitOnPPrepend, if_neg hends, List.reverse_append]
  rfl

theorem components_eq_behind (tail : Bytes) : components tail = behind [] tail := rfl

theorem endsAt_length (tail : Bytes) : EndsAt tail tail.length := .inl rfl

theorem endsAt_cons_iff (before rest : Bytes) (byte : UInt8) :
    EndsAt (before ++ byte :: rest) before.length ↔ byte = slash := by
  unfold EndsAt
  rw [List.getElem?_append_right (Nat.le_refl _), Nat.sub_self, List.getElem?_cons_zero,
    List.length_append, List.length_cons, Option.some.injEq]
  constructor
  · intro hcase
    rcases hcase with hlength | hbyte
    · omega
    · exact hbyte
  · exact .inr

/-- The checks of one component. -/
theorem check_iff (component : Bytes) (count : ℕ) (next : Bool) :
    (if component = [] || component = chars "." || component = chars ".." then false
      else if 64 < count + 1 then false else next) = true ↔
      Plain component ∧ count + 1 ≤ 64 ∧ next = true := by
  unfold Plain
  by_cases hempty : component = []
  · simp [hempty]
  · by_cases hdot : component = chars "."
    · simp [hdot]
    · by_cases hdots : component = chars ".."
      · simp [hdots]
      · simp [hempty, hdot, hdots]

theorem component_between (base component rest : Bytes) :
    ((base ++ component ++ rest).drop base.length).take
      ((base ++ component).length - base.length) = component := by
  rw [List.append_assoc, List.drop_left, List.length_append, Nat.add_sub_cancel_left, List.take_left]

/-- The loop over the components, from the place where `rest` begins. -/
theorem componentsValid_iff (base component rest : Bytes) (count : ℕ) :
    componentsValid (base ++ component ++ rest)
        (List.range' (base ++ component).length (rest.length + 1)) base.length count = true ↔
      (∀ other ∈ behind component rest, Plain other) ∧
        count + (behind component rest).length ≤ 64 := by
  induction rest generalizing base component count with
  | nil =>
    have hends : EndsAt (base ++ component ++ []) (base ++ component).length := by
      rw [List.append_nil]
      exact endsAt_length _
    rw [List.length_nil, List.range'_one, componentsValid, if_pos hends]
    simp only [component_between]
    rw [check_iff, behind_nil]
    simp [componentsValid]
  | cons byte rest ih =>
    rw [List.length_cons, List.range'_succ, componentsValid]
    by_cases hslash : byte = slash
    · have hends := (endsAt_cons_iff (base ++ component) rest byte).mpr hslash
      have hnext := ih (base ++ component ++ [slash]) [] (count + 1)
      simp only [List.append_nil, List.append_assoc, List.singleton_append, List.length_append,
        List.length_singleton, ← Nat.add_assoc] at hnext
      rw [if_pos hends]
      simp only [component_between]
      rw [check_iff, hslash, behind_slash]
      simp only [List.append_assoc, List.length_append, hnext, List.forall_mem_cons, List.length_cons]
      rw [and_assoc]
      refine and_congr_right fun _ => ?_
      constructor
      · intro ⟨_, hothers, hcount⟩
        exact ⟨hothers, by omega⟩
      · intro ⟨hothers, hcount⟩
        exact ⟨by omega, hothers, by omega⟩
    · have hends : ¬ EndsAt (base ++ component ++ byte :: rest) (base ++ component).length :=
        fun hends => hslash ((endsAt_cons_iff (base ++ component) rest byte).mp hends)
      have hnext := ih base (component ++ [byte]) count
      rw [if_neg hends, behind_cons hslash]
      simp only [List.append_assoc, List.singleton_append, List.length_append,
        List.length_singleton] at hnext ⊢
      exact hnext

theorem prefixes_cons (component : Bytes) (others : List Bytes) :
    prefixes (component :: others) =
      component :: (prefixes others).map fun path => component ++ slash :: path := by
  unfold prefixes
  rw [List.length_cons, List.range_succ_eq_map, List.map_cons, List.map_map, List.map_map]
  congr 1
  · exact List.intercalate_singleton
  · refine List.map_congr_left fun k hk => ?_
    have hlt := List.mem_range.mp hk
    have hne : others.take (k + 1) ≠ [] := by
      rw [ne_eq, List.take_eq_nil_iff]
      intro hcase
      rcases hcase with hzero | hnil
      · omega
      · rw [hnil] at hlt
        exact Nat.not_lt_zero k hlt
    show [slash].intercalate ((component :: others).take (k + 1 + 1)) = _
    rw [List.take_succ_cons, List.intercalate_cons_of_ne_nil hne, List.append_assoc,
      Function.comp_apply, List.singleton_append]

/-- The directories behind `base`, from the place where `rest` begins. -/
theorem prefixes_behind (base component rest : Bytes) :
    ((List.range' (base ++ component).length (rest.length + 1)).filter fun i =>
        EndsAt (base ++ component ++ rest) i).map (base ++ component ++ rest).take =
      (prefixes (behind component rest)).map (base ++ ·) := by
  induction rest generalizing base component with
  | nil =>
    have hends : EndsAt (base ++ component) (base ++ component).length := endsAt_length _
    rw [behind_nil, prefixes_cons, List.append_nil, List.length_nil, List.range'_one,
      List.filter_singleton]
    simp only [hends, decide_true, cond_true, List.map_cons, List.map_nil, List.take_length]
    rfl
  | cons byte rest ih =>
    rw [List.length_cons, List.range'_succ]
    by_cases hslash : byte = slash
    · have hends := (endsAt_cons_iff (base ++ component) rest byte).mpr hslash
      have hnext := ih (base ++ component ++ [slash]) []
      simp only [List.append_nil, List.append_assoc, List.singleton_append, List.length_append,
        List.length_singleton, ← Nat.add_assoc] at hnext
      rw [List.filter_cons_of_pos (by simpa using hends), List.map_cons, hslash, behind_slash,
        prefixes_cons, List.map_cons, List.map_map, List.take_left]
      simp only [List.append_assoc, List.length_append]
      rw [hnext]
      rfl
    · have hends : ¬ EndsAt (base ++ component ++ byte :: rest) (base ++ component).length :=
        fun hends => hslash ((endsAt_cons_iff (base ++ component) rest byte).mp hends)
      have hnext := ih base (component ++ [byte])
      rw [List.filter_cons_of_neg (by simpa using hends), behind_cons hslash]
      simp only [List.append_assoc, List.singleton_append, List.length_append,
        List.length_singleton] at hnext ⊢
      exact hnext

/-- A tail that ends with a slash has an empty component. -/
theorem nil_mem_behind_concat (component front : Bytes) :
    [] ∈ behind component (front ++ [slash]) := by
  induction front generalizing component with
  | nil =>
    rw [List.nil_append, behind_slash, behind_nil]
    exact List.mem_cons_of_mem _ List.mem_cons_self
  | cons byte front ih =>
    rw [List.cons_append]
    by_cases hslash : byte = slash
    · rw [hslash, behind_slash]
      exact List.mem_cons_of_mem _ (ih [])
    · rw [behind_cons hslash]
      exact ih _

end Places

section Tails

variable {tail : Bytes}

theorem not_plain_nil : ¬ Plain [] := fun h => h.1 rfl

theorem Accepted.ne_nil (h : Accepted tail) : tail ≠ [] := by
  intro heq
  subst heq
  apply not_plain_nil
  apply h.plain
  rw [components_eq_behind, behind_nil]
  exact List.mem_cons_self

theorem Accepted.head?_ne (h : Accepted tail) : tail.head? ≠ some slash := by
  intro hhead
  obtain ⟨rest, rfl⟩ := List.head?_eq_some_iff.mp hhead
  apply not_plain_nil
  apply h.plain
  rw [components_eq_behind, behind_slash]
  exact List.mem_cons_self

theorem Accepted.getLast?_ne (h : Accepted tail) : tail.getLast? ≠ some slash := by
  intro hlast
  obtain ⟨front, rfl⟩ := List.getLast?_eq_some_iff.mp hlast
  apply not_plain_nil
  apply h.plain
  rw [components_eq_behind]
  exact nil_mem_behind_concat [] front

/-- The checks are passed by these tails, and by no others. -/
theorem tailValid_iff (tail : Bytes) : tailValid tail = true ↔ Accepted tail := by
  have hcomponents := componentsValid_iff [] [] tail 0
  simp only [List.nil_append, List.length_nil, Nat.zero_add, ← List.range_eq_range',
    ← components_eq_behind] at hcomponents
  unfold tailValid
  rw [Bool.and_eq_true, hcomponents]
  constructor
  · intro hgiven
    obtain ⟨hchecks, hplain, hcount⟩ := hgiven
    simp only [Bool.not_eq_true', Bool.or_eq_false_iff, decide_eq_false_iff_not, Nat.not_lt] at hchecks
    obtain ⟨⟨⟨⟨-, hlength⟩, -⟩, -⟩, hbackslash⟩ := hchecks
    exact ⟨hlength, hcount, hplain, hbackslash⟩
  · intro h
    refine ⟨?_, h.plain, h.count⟩
    simp only [Bool.not_eq_true', Bool.or_eq_false_iff, decide_eq_false_iff_not, Nat.not_lt]
    exact ⟨⟨⟨⟨h.ne_nil, h.length⟩, h.head?_ne⟩, h.getLast?_ne⟩, h.backslash⟩

/-- The directories are the prefixes. -/
theorem directories_eq (tail : Bytes) : directories tail =
    (prefixes (components tail)).map fun path => ⟨path ++ [slash], [], directoryMode⟩ := by
  have hprefixes := prefixes_behind [] [] tail
  simp only [List.nil_append, List.length_nil, ← List.range_eq_range', ← components_eq_behind,
    List.map_id'] at hprefixes
  rw [← hprefixes, List.map_map]
  rfl

theorem length_prefixes (components : List Bytes) :
    (prefixes components).length = components.length := by
  rw [prefixes, List.length_map, List.length_range]

theorem length_directories (tail : Bytes) :
    (directories tail).length = (components tail).length := by
  rw [directories_eq, List.length_map, length_prefixes]

end Tails

end XitForge.Directory.AtcZip
