import XitForge.RustText

/-!
Text in units of 16 bits. A unit of the surrogate range stands for a character only together
with the one behind it.
-/
namespace XitForge.Utf16

open RustText

abbrev Units := List UInt16

def isHigh (unit : UInt16) : Bool := 0xD800 ≤ unit.toNat && unit.toNat ≤ 0xDBFF

def isLow (unit : UInt16) : Bool := 0xDC00 ≤ unit.toNat && unit.toNat ≤ 0xDFFF

/-- The character of a pair of surrogates. -/
def pairChar (high low : UInt16) : Char :=
  Char.ofNat (0x10000 + (high.toNat - 0xD800) * 1024 + (low.toNat - 0xDC00))

/-- The characters, and `none` for every surrogate that stands alone. -/
def decode : Units → List (Option Char)
  | [] => []
  | [unit] => if isHigh unit || isLow unit then [none] else [some (Char.ofNat unit.toNat)]
  | unit :: next :: rest =>
    if isHigh unit && isLow next then some (pairChar unit next) :: decode rest
    else if isHigh unit || isLow unit then none :: decode (next :: rest)
    else some (Char.ofNat unit.toNat) :: decode (next :: rest)

/-- `String::from_utf16_lossy`. -/
def lossy (units : Units) : List Char := (decode units).map (·.getD replacement)

/-- The characters of units without a surrogate that stands alone. -/
def toText (units : Units) : Option (List Char) :=
  if none ∈ decode units then none else some ((decode units).filterMap id)

/-- Units of ASCII. -/
def ascii (text : String) : Units := text.toList.map fun c => UInt16.ofNat c.toNat

theorem toNat_pairChar_ne_zero {high low : UInt16} (hhigh : isHigh high = true)
    (hlow : isLow low = true) : (pairChar high low).toNat ≠ 0 := by
  simp only [isHigh, isLow, Bool.and_eq_true, decide_eq_true_eq] at hhigh hlow
  unfold pairChar
  rw [toNat_ofNat_of_valid (by omega)]
  omega

theorem toNat_unit_ne_zero {unit : UInt16} (hne : 0 ≠ unit)
    (hlone : ¬ (isHigh unit || isLow unit) = true) : (Char.ofNat unit.toNat).toNat ≠ 0 := by
  have hlt := unit.toNat_lt
  simp only [isHigh, isLow, Bool.or_eq_true, Bool.and_eq_true, decide_eq_true_eq] at hlone
  rw [toNat_ofNat_of_valid (by omega)]
  exact fun hzero => hne (UInt16.toNat_inj.mp hzero).symm

/-- Units other than zero stand for characters other than zero. -/
theorem ne_zero_of_decode {units : Units} (h : 0 ∉ units) {c : Char}
    (hc : some c ∈ decode units) : c.toNat ≠ 0 := by
  induction units using decode.induct with
  | case1 => simp [decode] at hc
  | case2 unit hlone => simp [decode, hlone] at hc
  | case3 unit hlone =>
    rw [decode, if_neg hlone, List.mem_singleton, Option.some.injEq] at hc
    rw [List.mem_singleton] at h
    rw [hc]
    exact toNat_unit_ne_zero h hlone
  | case4 unit next rest hpair ih =>
    have hrest : 0 ∉ rest := fun hmem =>
      h (List.mem_cons_of_mem _ (List.mem_cons_of_mem _ hmem))
    rw [decode, if_pos hpair, List.mem_cons, Option.some.injEq] at hc
    rw [Bool.and_eq_true] at hpair
    rcases hc with heq | hc
    · rw [heq]
      exact toNat_pairChar_ne_zero hpair.1 hpair.2
    · exact ih hrest hc
  | case5 unit next rest hpair hlone ih =>
    rw [List.mem_cons, not_or] at h
    rw [decode, if_neg hpair, if_pos hlone, List.mem_cons] at hc
    rcases hc with hc | hc
    · cases hc
    · exact ih h.2 hc
  | case6 unit next rest hpair hlone ih =>
    rw [List.mem_cons, not_or] at h
    rw [decode, if_neg hpair, if_neg hlone, List.mem_cons, Option.some.injEq] at hc
    rcases hc with heq | hc
    · rw [heq]
      exact toNat_unit_ne_zero h.1 hlone
    · exact ih h.2 hc

theorem mem_decode_of_toText {units : Units} {text : List Char} (h : toText units = some text)
    {c : Char} (hc : c ∈ text) : some c ∈ decode units := by
  unfold toText at h
  obtain ⟨_, htext⟩ := Option.ite_none_left_eq_some.mp h
  rw [← Option.some.inj htext, List.mem_filterMap] at hc
  obtain ⟨item, hitem, heq⟩ := hc
  rw [id_eq] at heq
  rw [← heq]
  exact hitem

end XitForge.Utf16
