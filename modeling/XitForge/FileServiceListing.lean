import XitForge.RustSlice
import XitForge.Utf8Syntax

/-!
`XFFileServiceListing.h`. The bytes are those up to the length that the caller gives; a read
behind them is a panic, and so is a loop that runs out of the rounds it is given.
-/
namespace XitForge.FileServiceListing

open ByteStream RustEval RustSlice Utf8Syntax

structure ListingPath where
  /-- The pointer: `NULL`, or the bytes it leads to. -/
  name : Option Bytes
  nameLength : ℕ
  directoryByDescendant : Bool
  deriving DecidableEq, Repr

def ListingPath.zeroed : ListingPath := ⟨none, 0, false⟩

section Model

def width (first : ℕ) : Option ℕ :=
  if 0xc2 ≤ first ∧ first ≤ 0xdf then some 2
  else if 0xe0 ≤ first ∧ first ≤ 0xef then some 3
  else if 0xf0 ≤ first ∧ first ≤ 0xf4 then some 4
  else none

/-- The loop over the bytes behind the first one. -/
def continued (text : Bytes) (i : ℕ) : ℕ → Eval Unit Bool
  | 0 => .ok true
  | count + 1 => do
    let next ← index text i
    if next.toNat < 0x80 ∨ 0xbf < next.toNat then .ok false
    else continued text (i + 1) count

/-- The width of the sequence of several bytes at an offset. -/
def sequenceAt (text : Bytes) (offset first : ℕ) : Eval Unit (Option ℕ) :=
  match width first with
  | none => .ok none
  | some width =>
    if text.length - offset < width then .ok none
    else do
      let valid ← continued text (offset + 1) (width - 1)
      if !valid then .ok none
      else do
        let second ← index text (offset + 1)
        if (first = 0xe0 ∧ second.toNat < 0xa0) ∨ (first = 0xed ∧ 0x9f < second.toNat) ∨
            (first = 0xf0 ∧ second.toNat < 0x90) ∨ (first = 0xf4 ∧ 0x8f < second.toNat) then
          .ok none
        else .ok (some width)

def utf8ValidFrom (text : Bytes) : ℕ → ℕ → Eval Unit Bool
  | 0, _ => .panic
  | fuel + 1, offset =>
    if offset < text.length then do
      let first ← index text offset
      if first.toNat = 0 then .ok false
      else if first.toNat < 0x80 then utf8ValidFrom text fuel (offset + 1)
      else do
        match ← sequenceAt text offset first.toNat with
        | none => .ok false
        | some width => utf8ValidFrom text fuel (offset + width)
    else .ok true

/-- `XFFileServiceListingUTF8Valid`. -/
def utf8Valid (text : Bytes) : Eval Unit Bool := utf8ValidFrom text (text.length + 1) 0

/-- The inner loop of the components. -/
def componentEnd (bytes : Bytes) : ℕ → ℕ → Eval Unit ℕ
  | 0, _ => .panic
  | fuel + 1, stop =>
    if stop < bytes.length then do
      let byte ← index bytes stop
      if byte ≠ 0x2f then componentEnd bytes fuel (stop + 1)
      else .ok stop
    else .ok stop

/-- A component that is empty, `.` or `..`. -/
def refused (bytes : Bytes) (start componentLength : ℕ) : Eval Unit Bool :=
  if componentLength = 0 then .ok true
  else if componentLength = 1 then do
    let first ← index bytes start
    .ok (first = 0x2e)
  else if componentLength = 2 then do
    let first ← index bytes start
    if first = 0x2e then do
      let second ← index bytes (start + 1)
      .ok (second = 0x2e)
    else .ok false
  else .ok false

def componentsFrom (bytes : Bytes) : ℕ → ℕ → ℕ → Bool → Eval Unit (Option (ℕ × Bool))
  | 0, _, _, _ => .panic
  | fuel + 1, start, firstLength, descendant => do
    let stop ← componentEnd bytes (bytes.length + 1) start
    let componentLength := stop - start
    let bad ← refused bytes start componentLength
    if bad then .ok none
    else
      let firstLength := if start = 0 then componentLength else firstLength
      if stop = bytes.length then .ok (some (firstLength, descendant))
      else componentsFrom bytes fuel (stop + 1) firstLength true

/-- `XFFileServiceListingParsePath`, with what it leaves in `out`. -/
def parsePath (bytes : Option Bytes) (out : Option ListingPath) :
    Eval Unit (Bool × Option ListingPath) :=
  let out := out.map fun _ => ListingPath.zeroed
  match bytes, out with
  | some bytes, some _ =>
    if bytes.length = 0 then .ok (false, out)
    else do
      let first ← index bytes 0
      if first = 0x2f then .ok (false, out)
      else do
        let valid ← utf8Valid bytes
        if !valid then .ok (false, out)
        else do
          match ← componentsFrom bytes (bytes.length + 1) 0 0 false with
          | none => .ok (false, out)
          | some (firstLength, descendant) =>
            .ok (true, some ⟨some bytes, firstLength, descendant⟩)
  | _, _ => .ok (false, out)

end Model

section Utf8

variable {first : UInt8} {tail : Bytes}

theorem continued_append (front rest : Bytes) (i count : ℕ) :
    continued (front ++ rest) (front.length + i) count = continued rest i count := by
  induction count generalizing i with
  | zero => rfl
  | succ count ih =>
    rw [continued, continued, index_append_right, Nat.add_assoc, ih]

/-- A sequence is looked at where it stands. -/
theorem sequenceAt_append (front rest : Bytes) (first : ℕ) :
    sequenceAt (front ++ rest) front.length first = sequenceAt rest 0 first := by
  have hlength : (front ++ rest).length - front.length = rest.length - 0 := by
    rw [List.length_append]
    omega
  have hcontinued (count : ℕ) : continued (front ++ rest) (front.length + 1) count =
      continued rest (0 + 1) count := continued_append front rest 1 count
  have hindex : (index (front ++ rest) (front.length + 1) : Eval Unit UInt8) =
      index rest (0 + 1) := index_append_right front rest 1
  unfold sequenceAt
  simp only [hlength, hcontinued, hindex]

theorem tail_iff {b : UInt8} : Tail b ↔ ¬ (b.toNat < 0x80 ∨ 0xbf < b.toNat) := by
  unfold Tail
  omega

theorem second_iff {a b : UInt8} (h : Tail b) :
    Second a b ↔ ¬ ((a.toNat = 0xe0 ∧ b.toNat < 0xa0) ∨ (a.toNat = 0xed ∧ 0x9f < b.toNat) ∨
      (a.toNat = 0xf0 ∧ b.toNat < 0x90) ∨ (a.toNat = 0xf4 ∧ 0x8f < b.toNat)) := by
  constructor
  · intro hsecond
    obtain ⟨_, hE0, hED, hF0, hF4⟩ := hsecond
    omega
  · intro hnot
    exact ⟨h, by omega, by omega, by omega, by omega⟩

theorem all_tail_iff {bytes : Bytes} :
    (bytes.all fun b => decide (Tail b)) = true ↔ ∀ b ∈ bytes, Tail b := by
  simp

theorem continued_eq {rest : Bytes} {count : ℕ} (h : count ≤ rest.length) :
    continued rest 0 count = .ok ((rest.take count).all fun b => decide (Tail b)) := by
  induction count generalizing rest with
  | zero => simp [continued]
  | succ count ih =>
    cases rest with
    | nil => simp at h
    | cons b rest =>
      have hindex : (index (b :: rest) 0 : Eval Unit UInt8) = .ok b := rfl
      have hnext : continued (b :: rest) (0 + 1) count = continued rest 0 count :=
        continued_append [b] rest 0 count
      rw [continued, hindex, Eval.ok_bind, hnext, ih (Nat.le_of_succ_le_succ h)]
      by_cases hb : Tail b
      · rw [if_neg (tail_iff.mp hb)]
        simp [hb]
      · rw [if_pos (not_not.mp (mt tail_iff.mpr hb))]
        simp [hb]

/-- The bytes behind the first one of a character that has two and some more. -/
def Continues (first : UInt8) (count : ℕ) (tail : Bytes) : Prop :=
  ∃ b more rest, tail = b :: (more ++ rest) ∧ more.length = count ∧ Second first b ∧
    ∀ c ∈ more, Tail c

theorem sequenceAt_continues {count : ℕ} (hwidth : width first.toNat = some (count + 2))
    (h : Continues first count tail) :
    sequenceAt (first :: tail) 0 first.toNat = .ok (some (count + 2)) := by
  obtain ⟨b, more, rest, rfl, hcount, hb, hmore⟩ := h
  have hindex : (index (first :: b :: (more ++ rest)) (0 + 1) : Eval Unit UInt8) = .ok b := rfl
  have hcontinued : continued (first :: b :: (more ++ rest)) (0 + 1) (count + 2 - 1) = .ok true := by
    have hmove : continued (first :: b :: (more ++ rest)) (0 + 1) (count + 1) =
        continued (b :: (more ++ rest)) 0 (count + 1) :=
      continued_append [first] (b :: (more ++ rest)) 0 (count + 1)
    have hlength : count + 1 ≤ (b :: (more ++ rest)).length := by
      rw [List.length_cons, List.length_append]
      omega
    rw [show count + 2 - 1 = count + 1 from rfl, hmove, continued_eq hlength, ← hcount,
      List.take_succ_cons, List.take_left,
      all_tail_iff.mpr (List.forall_mem_cons.mpr ⟨hb.tail, hmore⟩)]
  unfold sequenceAt
  rw [hwidth]
  dsimp only
  rw [if_neg (by simp only [List.length_cons, List.length_append]; omega), hcontinued,
    Eval.ok_bind, hindex]
  simp only [Bool.not_true, Bool.false_eq_true, if_false, Eval.ok_bind]
  rw [if_neg ((second_iff hb.tail).mp hb)]

theorem sequenceAt_not_continues {count : ℕ} (hwidth : width first.toNat = some (count + 2))
    (h : ¬ Continues first count tail) :
    sequenceAt (first :: tail) 0 first.toNat = .ok none := by
  unfold sequenceAt
  rw [hwidth]
  dsimp only
  by_cases hlength : (first :: tail).length - 0 < count + 2
  · rw [if_pos hlength]
  · rw [if_neg hlength]
    rw [List.length_cons] at hlength
    have hmove : continued (first :: tail) (0 + 1) (count + 1) = continued tail 0 (count + 1) :=
      continued_append [first] tail 0 (count + 1)
    rw [show count + 2 - 1 = count + 1 from rfl, hmove, continued_eq (by omega), Eval.ok_bind]
    by_cases htails : ∀ b ∈ tail.take (count + 1), Tail b
    · cases tail with
      | nil => simp at hlength
      | cons b rest =>
        rw [List.take_succ_cons, List.forall_mem_cons] at htails
        have hindex : (index (first :: b :: rest) (0 + 1) : Eval Unit UInt8) = .ok b := rfl
        have hlonger : count ≤ rest.length := by
          rw [List.length_cons] at hlength
          omega
        have hsecond : ¬ Second first b := fun hsecond => h ⟨b, rest.take count, rest.drop count,
          by rw [List.take_append_drop], List.length_take_of_le hlonger, hsecond, htails.2⟩
        rw [List.take_succ_cons, all_tail_iff.mpr (List.forall_mem_cons.mpr htails), hindex]
        simp only [Bool.not_true, Bool.false_eq_true, if_false, Eval.ok_bind]
        rw [if_pos (not_not.mp (mt (second_iff htails.1).mpr hsecond))]
    · rw [Bool.eq_false_iff.mpr (mt all_tail_iff.mp htails)]
      rfl

/-- The first byte of several tells how many there are. -/
theorem width_cases (first : ℕ) :
    (0xc2 ≤ first ∧ first ≤ 0xdf ∧ width first = some 2) ∨
    (0xe0 ≤ first ∧ first ≤ 0xef ∧ width first = some 3) ∨
    (0xf0 ≤ first ∧ first ≤ 0xf4 ∧ width first = some 4) ∨
    ((first < 0xc2 ∨ 0xf4 < first) ∧ width first = none) := by
  unfold width
  split_ifs with h2 h3 h4
  · exact .inl ⟨h2.1, h2.2, rfl⟩
  · exact .inr (.inl ⟨h3.1, h3.2, rfl⟩)
  · exact .inr (.inr (.inl ⟨h4.1, h4.2, rfl⟩))
  · exact .inr (.inr (.inr ⟨by omega, rfl⟩))

theorem isText_continues {count : ℕ} (h : 0x80 ≤ first.toNat) (htext : IsText (first :: tail))
    (hwidth : width first.toNat = some (count + 2)) : Continues first count tail := by
  rcases htext.forms with _ | ⟨hlow, hhigh, b, rest, rfl, hb⟩ |
    ⟨hlow, hhigh, b, c, rest, rfl, hb, hc⟩ | ⟨hlow, hhigh, b, c, d, rest, rfl, hb, hc, hd⟩
  · omega
  · have hcount : count = 0 := by
      unfold width at hwidth
      rw [if_pos ⟨hlow, hhigh⟩] at hwidth
      cases hwidth
      rfl
    subst hcount
    exact ⟨b, [], rest, rfl, rfl, ⟨hb, by omega, by omega, by omega, by omega⟩, nofun⟩
  · have hcount : count = 1 := by
      unfold width at hwidth
      rw [if_neg (by omega), if_pos ⟨hlow, hhigh⟩] at hwidth
      cases hwidth
      rfl
    subst hcount
    exact ⟨b, [c], rest, rfl, rfl, hb, by simpa using hc⟩
  · have hcount : count = 2 := by
      unfold width at hwidth
      rw [if_neg (by omega), if_neg (by omega), if_pos ⟨hlow, hhigh⟩] at hwidth
      cases hwidth
      rfl
    subst hcount
    exact ⟨b, [c, d], rest, rfl, rfl, hb, by simpa using ⟨hc, hd⟩⟩

theorem sequence_continues {b : UInt8} {more : Bytes} (hb : Second first b)
    (hmore : ∀ c ∈ more, Tail c) (hwidth : width first.toNat = some (more.length + 2)) :
    Sequence (first :: b :: more) := by
  rcases width_cases first.toNat with ⟨hlow, hhigh, h⟩ | ⟨hlow, hhigh, h⟩ | ⟨hlow, hhigh, h⟩ |
    ⟨_, h⟩
  · have hlength : more.length = 0 := by simpa [h] using hwidth.symm
    obtain rfl := List.length_eq_zero_iff.mp hlength
    exact .two hlow hhigh hb.tail
  · have hlength : more.length = 1 := by simpa [h] using hwidth.symm
    obtain ⟨c, rfl⟩ := List.length_eq_one_iff.mp hlength
    exact .three hlow hhigh hb (hmore c (by simp))
  · have hlength : more.length = 2 := by simpa [h] using hwidth.symm
    obtain ⟨c, d, rfl⟩ := List.length_eq_two.mp hlength
    exact .four hlow hhigh hb (hmore c (by simp)) (hmore d (by simp))
  · rw [h] at hwidth
    cases hwidth

/-- Either the bytes of a character stand there, or what stands there is no text. -/
theorem sequenceAt_cases (h : 0x80 ≤ first.toNat) :
    (∃ s rest, Sequence s ∧ first :: tail = s ++ rest ∧
      sequenceAt (first :: tail) 0 first.toNat = .ok (some s.length)) ∨
    (¬ IsText (first :: tail) ∧ sequenceAt (first :: tail) 0 first.toNat = .ok none) := by
  cases hwidth : width first.toNat with
  | none =>
    right
    refine ⟨fun htext => ?_, by simp only [sequenceAt, hwidth]⟩
    have hout := width_cases first.toNat
    simp only [hwidth, reduceCtorEq, and_false, and_true, false_or] at hout
    rcases htext.forms with _ | ⟨_, _, _⟩ | ⟨_, _, _⟩ | ⟨_, _, _⟩ <;> omega
  | some w =>
    obtain ⟨count, rfl⟩ : ∃ count, w = count + 2 := by
      have hcases := width_cases first.toNat
      simp only [hwidth, Option.some.injEq, reduceCtorEq, and_false, or_false] at hcases
      exact ⟨w - 2, by omega⟩
    by_cases hcontinues : Continues first count tail
    · left
      have hread := sequenceAt_continues hwidth hcontinues
      obtain ⟨b, more, rest, rfl, rfl, hb, hmore⟩ := hcontinues
      exact ⟨first :: b :: more, rest, sequence_continues hb hmore hwidth, rfl, hread⟩
    · right
      exact ⟨fun htext => hcontinues (isText_continues h htext hwidth),
        sequenceAt_not_continues hwidth hcontinues⟩

/-- The bytes of a character other than zero are no zeros. -/
theorem zero_notMem_sequence {s rest : Bytes} (hs : Sequence s) (heq : first :: tail = s ++ rest)
    (hfirst : first.toNat ≠ 0) : 0 ∉ s := by
  have hzero : (0 : UInt8).toNat = 0 := rfl
  have hne {b : UInt8} (hb : b.toNat ≠ 0) : 0 ≠ b := fun h => hb (h ▸ hzero)
  cases hs with
  | one _ =>
    cases heq
    simpa using hne hfirst
  | two _ _ hb =>
    cases heq
    obtain ⟨hb, _⟩ := hb
    simpa using ⟨hne hfirst, hne (by omega)⟩
  | three _ _ hb hc =>
    cases heq
    obtain ⟨hb, _⟩ := hb.tail
    obtain ⟨hc, _⟩ := hc
    simpa using ⟨hne hfirst, hne (by omega), hne (by omega)⟩
  | four _ _ hb hc hd =>
    cases heq
    obtain ⟨hb, _⟩ := hb.tail
    obtain ⟨hc, _⟩ := hc
    obtain ⟨hd, _⟩ := hd
    simpa using ⟨hne hfirst, hne (by omega), hne (by omega), hne (by omega)⟩

theorem sequence_ne_nil {s : Bytes} (hs : Sequence s) : 0 < s.length := by
  cases hs <;> simp

/-- A character in front of the rest is passed over. -/
theorem isText_sequence_iff {s rest : Bytes} (hs : Sequence s) (heq : first :: tail = s ++ rest)
    (hfirst : first.toNat ≠ 0) :
    (IsText (first :: tail) ∧ 0 ∉ first :: tail) ↔ IsText rest ∧ 0 ∉ rest := by
  have hzero := zero_notMem_sequence hs heq hfirst
  rw [heq, hs.isText_append_iff, List.mem_append, not_or]
  simp only [hzero, not_false_eq_true, true_and]

theorem utf8ValidFrom_iff {fuel : ℕ} (front rest : Bytes) (hfuel : rest.length < fuel) :
    ∃ valid, utf8ValidFrom (front ++ rest) fuel front.length = .ok valid ∧
      (valid = true ↔ IsText rest ∧ 0 ∉ rest) := by
  induction fuel generalizing front rest with
  | zero => omega
  | succ fuel ih =>
    unfold utf8ValidFrom
    cases rest with
    | nil =>
      refine ⟨true, by simp, ?_⟩
      simpa using isText_nil
    | cons first tail =>
      have hlt : front.length < (front ++ first :: tail).length := by
        rw [List.length_append, List.length_cons]
        omega
      rw [List.length_cons] at hfuel
      rw [if_pos hlt, index_append, Eval.ok_bind]
      by_cases hzero : first.toNat = 0
      · refine ⟨false, by rw [if_pos hzero], ?_⟩
        have hfirst : first = 0 := UInt8.toNat_inj.mp hzero
        simp [hfirst]
      rw [if_neg hzero]
      by_cases hascii : first.toNat < 0x80
      · obtain ⟨valid, hvalid, hiff⟩ := ih (front ++ [first]) tail (by omega)
        rw [List.append_assoc, List.singleton_append, List.length_append,
          List.length_singleton] at hvalid
        rw [if_pos hascii]
        refine ⟨valid, hvalid, hiff.trans ?_⟩
        exact (isText_sequence_iff (.one hascii) rfl hzero).symm
      rw [if_neg hascii, sequenceAt_append]
      rcases sequenceAt_cases (Nat.not_lt.mp hascii) with ⟨s, rest, hs, heq, hread⟩ |
        ⟨hnot, hread⟩
      · have hlength : s.length + rest.length = tail.length + 1 := by
          rw [← List.length_append, ← heq, List.length_cons]
        have hpos := sequence_ne_nil hs
        obtain ⟨valid, hvalid, hiff⟩ := ih (front ++ s) rest (by omega)
        rw [List.append_assoc, ← heq, List.length_append] at hvalid
        rw [hread, Eval.ok_bind]
        exact ⟨valid, hvalid, hiff.trans (isText_sequence_iff hs heq hzero).symm⟩
      · rw [hread, Eval.ok_bind]
        exact ⟨false, rfl, by simp [hnot]⟩

theorem utf8Valid_iff (text : Bytes) :
    ∃ valid, utf8Valid text = .ok valid ∧ (valid = true ↔ IsText text ∧ 0 ∉ text) :=
  utf8ValidFrom_iff [] text (Nat.lt_succ_self _)

end Utf8

section Components

/-- A component that names something in a directory. -/
def Accepted (component : Bytes) : Prop :=
  component ≠ [] ∧ component ≠ [0x2e] ∧ component ≠ [0x2e, 0x2e]

instance (component : Bytes) : Decidable (Accepted component) :=
  inferInstanceAs (Decidable (_ ∧ _))

variable {component rest : Bytes}

theorem componentEnd_eq {fuel : ℕ} (front : Bytes) (hslash : 0x2f ∉ component)
    (hrest : rest = [] ∨ ∃ behind, rest = 0x2f :: behind) (hfuel : component.length < fuel) :
    componentEnd (front ++ (component ++ rest)) fuel front.length =
      .ok (front.length + component.length) := by
  induction fuel generalizing front component with
  | zero => omega
  | succ fuel ih =>
    unfold componentEnd
    cases component with
    | nil =>
      rcases hrest with rfl | ⟨behind, rfl⟩
      · simp
      · rw [List.nil_append, index_append, Eval.ok_bind]
        simp
    | cons byte component =>
      rw [List.mem_cons, not_or] at hslash
      have hlt : front.length < (front ++ (byte :: component ++ rest)).length := by
        simp only [List.length_append, List.length_cons]
        omega
      have hnext := ih (front ++ [byte]) hslash.2 (Nat.lt_of_succ_lt_succ hfuel)
      rw [List.append_assoc, List.singleton_append, List.length_append, List.length_singleton,
        ← List.cons_append] at hnext
      rw [if_pos hlt, List.cons_append, index_append, Eval.ok_bind,
        if_pos (Ne.symm hslash.1), ← List.cons_append, hnext, List.length_cons, Nat.add_assoc,
        Nat.add_comm 1]

theorem refused_eq (front component rest : Bytes) :
    refused (front ++ (component ++ rest)) front.length component.length =
      .ok (decide (¬ Accepted component)) := by
  match component with
  | [] => simp [refused, Accepted]
  | [first] =>
    have hfirst : (index (front ++ ([first] ++ rest)) front.length : Eval Unit UInt8) =
        .ok first := index_append front first rest
    simp only [refused, List.length_singleton, one_ne_zero, if_false, if_true, hfirst,
      Eval.ok_bind]
    simp [Accepted]
  | [first, second] =>
    have hfirst : (index (front ++ ([first, second] ++ rest)) front.length : Eval Unit UInt8) =
        .ok first := index_append front first (second :: rest)
    have hsecond : (index (front ++ ([first, second] ++ rest)) (front.length + 1) :
        Eval Unit UInt8) = .ok second := index_append_right front _ 1
    have hlength : [first, second].length = 2 := rfl
    rw [refused, hlength, if_neg (by decide), if_neg (by decide), if_pos rfl, hfirst,
      Eval.ok_bind, hsecond]
    by_cases hdot : first = 0x2e
    · simp [Accepted, hdot]
    · simp [Accepted, hdot]
  | first :: second :: third :: more => simp [refused, Accepted]

/-- The components from one of them on. -/
theorem componentsFrom_eq {fuel firstLength : ℕ} {descendant : Bool} (front rest : Bytes)
    (hfuel : rest.length < fuel) :
    componentsFrom (front ++ rest) fuel front.length firstLength descendant =
      .ok (if (rest.splitOn 0x2f).all (Accepted ·) then
        some (if front = [] then ((rest.splitOn 0x2f).headD []).length else firstLength,
          descendant || decide (1 < (rest.splitOn 0x2f).length))
      else none) := by
  induction fuel generalizing front rest firstLength descendant with
  | zero => omega
  | succ fuel ih =>
    unfold componentsFrom
    by_cases hmem : 0x2f ∈ rest
    · obtain ⟨component, behind, rfl, hslash⟩ := List.eq_append_cons_of_mem hmem
      have hsplit : (component ++ 0x2f :: behind).splitOn 0x2f =
          component :: behind.splitOn 0x2f := List.splitOn_append_cons_self_of_not_mem hslash _
      have hend := @componentEnd_eq component (0x2f :: behind)
        ((front ++ (component ++ 0x2f :: behind)).length + 1) front hslash (.inr ⟨behind, rfl⟩)
        (by simp only [List.length_append]; omega)
      rw [hend, Eval.ok_bind]
      dsimp only
      rw [Nat.add_sub_cancel_left, refused_eq, Eval.ok_bind, hsplit]
      by_cases haccepted : Accepted component
      · have hne : front.length + component.length ≠
            (front ++ (component ++ 0x2f :: behind)).length := by
          simp only [List.length_append, List.length_cons]
          omega
        have hmany : 0 < (behind.splitOn 0x2f).length :=
          List.length_pos_iff.mpr (List.splitOn_ne_nil _ _)
        rw [List.length_append, List.length_cons] at hfuel
        have hnext := @ih (if front.length = 0 then component.length else firstLength) true
          (front ++ component ++ [0x2f]) behind (by omega)
        simp only [List.append_assoc, List.singleton_append, List.length_append,
          List.length_singleton, ← Nat.add_assoc] at hnext
        rw [decide_eq_false (not_not.mpr haccepted)]
        simp only [Bool.false_eq_true, if_false, hne, hnext]
        simp [haccepted, hmany, List.length_eq_zero_iff]
      · simp [haccepted]
    · have hsplit : rest.splitOn 0x2f = [rest] := List.splitOn_eq_singleton hmem
      have hend := @componentEnd_eq rest [] ((front ++ rest).length + 1) front hmem (.inl rfl)
        (by rw [List.length_append]; omega)
      have hrefused := refused_eq front rest []
      rw [List.append_nil] at hend hrefused
      rw [hend, Eval.ok_bind]
      dsimp only
      rw [Nat.add_sub_cancel_left, hrefused, Eval.ok_bind, hsplit]
      by_cases haccepted : Accepted rest
      · simp [haccepted, List.length_eq_zero_iff]
      · simp [haccepted]

end Components

/-- The paths that a listing may hold. -/
structure IsListingPath (bytes : Bytes) : Prop where
  ne_nil : bytes ≠ []
  text : IsText bytes
  no_zero : 0 ∉ bytes
  relative : bytes.head? ≠ some 0x2f
  components : ∀ c ∈ bytes.splitOn 0x2f, Accepted c

/-- The first component of a path, and whether there is a second one. -/
def firstComponent (bytes : Bytes) : List Bytes → ListingPath
  | [] => .zeroed
  | first :: others => ⟨some bytes, first.length, decide (others ≠ [])⟩

theorem parsePath_cons {first : UInt8} {tail : Bytes} {valid : Bool} (out : ListingPath)
    (hvalid : utf8Valid (first :: tail) = .ok valid) :
    parsePath (some (first :: tail)) (some out) =
      if first ≠ 0x2f ∧ valid = true ∧ ((first :: tail).splitOn 0x2f).all (Accepted ·) then
        .ok (true, some (firstComponent (first :: tail) ((first :: tail).splitOn 0x2f)))
      else .ok (false, some .zeroed) := by
  have hindex : (index (first :: tail) 0 : Eval Unit UInt8) = .ok first := rfl
  have hcomponents := @componentsFrom_eq _ 0 false [] (first :: tail) (Nat.lt_succ_self _)
  rw [List.nil_append, List.length_nil] at hcomponents
  unfold parsePath
  dsimp only [Option.map_some]
  rw [if_neg (by simp), hindex, Eval.ok_bind]
  by_cases hslash : first = 0x2f
  · rw [if_pos hslash, if_neg (by simp [hslash])]
  rw [if_neg hslash, hvalid, Eval.ok_bind]
  cases valid with
  | false => simp
  | true =>
    simp only [Bool.not_true, Bool.false_eq_true, if_false]
    rw [hcomponents, Eval.ok_bind]
    by_cases hall : ((first :: tail).splitOn 0x2f).all (Accepted ·) = true
    · rw [if_pos hall, if_pos rfl, if_pos ⟨hslash, True.intro, hall⟩]
      cases hsplit : (first :: tail).splitOn 0x2f with
      | nil => exact absurd hsplit (List.splitOn_ne_nil _ _)
      | cons head others => simp [firstComponent, List.length_pos_iff]
    · rw [if_neg hall, if_neg fun h => hall h.2.2]

/-- The parser accepts exactly the paths of a listing, and gives their first component. It
reads nothing behind the bytes. -/
theorem parsePath_iff (bytes : Bytes) (out : ListingPath) :
    ∃ accepted result, parsePath (some bytes) (some out) = .ok (accepted, some result) ∧
      (accepted = true ↔ IsListingPath bytes) ∧
      (accepted = true → ∃ first others, bytes.splitOn 0x2f = first :: others ∧
        result = ⟨some bytes, first.length, decide (others ≠ [])⟩) ∧
      (accepted = false → result = .zeroed) := by
  cases bytes with
  | nil => exact ⟨false, .zeroed, rfl, by simpa using fun h => IsListingPath.ne_nil h rfl, nofun,
      fun _ => rfl⟩
  | cons first tail =>
    obtain ⟨valid, hvalid, hiff⟩ := utf8Valid_iff (first :: tail)
    rw [parsePath_cons out hvalid]
    have hcomponents : ((first :: tail).splitOn 0x2f).all (Accepted ·) = true ↔
        ∀ c ∈ (first :: tail).splitOn 0x2f, Accepted c := by simp
    by_cases h : first ≠ 0x2f ∧ valid = true ∧ ((first :: tail).splitOn 0x2f).all (Accepted ·)
    · rw [if_pos h]
      obtain ⟨hslash, htrue, hall⟩ := h
      obtain ⟨htext, hzero⟩ := hiff.mp htrue
      have hpath : IsListingPath (first :: tail) :=
        ⟨List.cons_ne_nil _ _, htext, hzero, by simpa using hslash, hcomponents.mp hall⟩
      refine ⟨true, _, rfl, by simp [hpath], fun _ => ?_, nofun⟩
      cases hsplit : (first :: tail).splitOn 0x2f with
      | nil => exact absurd hsplit (List.splitOn_ne_nil _ _)
      | cons head others => exact ⟨head, others, rfl, rfl⟩
    · rw [if_neg h]
      refine ⟨false, .zeroed, rfl, ?_, nofun, fun _ => rfl⟩
      have hnot : ¬ IsListingPath (first :: tail) := fun hpath =>
        h ⟨by simpa using hpath.relative, hiff.mpr ⟨hpath.text, hpath.no_zero⟩,
          hcomponents.mpr hpath.components⟩
      simp [hnot]

end XitForge.FileServiceListing
