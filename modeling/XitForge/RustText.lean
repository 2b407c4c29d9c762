import Mathlib.Data.List.Basic

/-!
What the Rust standard library makes of text: the components of a Unix path, and
the characters of bytes that need not be UTF-8. Paths are compared component by
component, so a path is the list of its components.
-/
namespace XitForge.RustText

/-- `std::path::Component`, without the prefixes of other systems. -/
inductive Component where
  | rootDir
  | curDir
  | parentDir
  | normal (name : List Char)
  deriving DecidableEq, Repr

abbrev Path := List Component

/-- The component that a piece between two separators stands for. -/
def Component.ofPiece : List Char → Option Component
  | [] => none
  | ['.'] => none
  | ['.', '.'] => some parentDir
  | name => some (normal name)

/-- `Path::new(text).components()`: a `.` counts only where the path starts with it. -/
def components (text : String) : Path :=
  match text.toList.splitOn '/' with
  | [] => []
  | first :: rest =>
    (if first = [] ∧ rest ≠ [] then [.rootDir]
      else if first = ['.'] then [.curDir]
      else (Component.ofPiece first).toList) ++ rest.filterMap Component.ofPiece

/-- `PathBuf::push` of a normal component. -/
def Path.push (path : Path) (name : List Char) : Path := path ++ [.normal name]

/-- `Path::parent`. -/
def Path.parent (path : Path) : Option Path :=
  match path.getLast? with
  | none => none
  | some .rootDir => none
  | some _ => some path.dropLast

/-- A path that leads from `root` down through one name at least. -/
def Path.StrictlyBelow (root path : Path) : Prop :=
  ∃ names : List (List Char), names ≠ [] ∧ path = root ++ names.map Component.normal

example : components "/a//./b/../c." =
    [.rootDir, .normal ['a'], .normal ['b'], .parentDir, .normal ['c', '.']] := by decide

section Whitespace

/-- `White_Space`, which `trim` takes off both ends. -/
def isWhitespace (c : Char) : Bool :=
  (0x09 ≤ c.toNat && c.toNat ≤ 0x0D) || (0x2000 ≤ c.toNat && c.toNat ≤ 0x200A) ||
    [0x20, 0x85, 0xA0, 0x1680, 0x2028, 0x2029, 0x202F, 0x205F, 0x3000].contains c.toNat

def trimEnd (text : List Char) : List Char := (text.reverse.dropWhile isWhitespace).reverse

/-- `str::trim`. -/
def trimText (text : List Char) : List Char := trimEnd (text.dropWhile isWhitespace)

/-- The pieces of `split_whitespace`. -/
def words (text : List Char) : List (List Char) := (text.splitOnP isWhitespace).filter (· ≠ [])

variable {text blank : List Char}

/-- Whitespace before a text is taken off, and so is whitespace behind one. -/
theorem trimText_append_left (h : ∀ c ∈ blank, isWhitespace c = true) (text : List Char) :
    trimText (blank ++ text) = trimText text := by
  unfold trimText
  rw [List.dropWhile_append_of_pos h]

theorem trimEnd_append (h : ∀ c ∈ blank, isWhitespace c = true) (text : List Char) :
    trimEnd (text ++ blank) = trimEnd text := by
  unfold trimEnd
  rw [List.reverse_append, List.dropWhile_append_of_pos]
  exact fun c hc => h c (List.mem_reverse.mp hc)

/-- A text without whitespace is left as it is. -/
theorem dropWhile_solid (h : ∀ c ∈ text, isWhitespace c = false) :
    text.dropWhile isWhitespace = text := by
  cases text with
  | nil => rfl
  | cons c text => exact List.dropWhile_cons_of_neg (by simp [h c List.mem_cons_self])

theorem trimEnd_solid (h : ∀ c ∈ text, isWhitespace c = false) : trimEnd text = text := by
  unfold trimEnd
  rw [dropWhile_solid fun c hc => h c (List.mem_reverse.mp hc), List.reverse_reverse]

theorem trimText_solid (h : ∀ c ∈ text, isWhitespace c = false)
    (hblank : ∀ c ∈ blank, isWhitespace c = true) (hne : text ≠ []) :
    trimText (text ++ blank) = text := by
  cases text with
  | nil => exact absurd rfl hne
  | cons c text =>
    have hdrop : (c :: text ++ blank).dropWhile isWhitespace = c :: text ++ blank :=
      List.dropWhile_cons_of_neg (by simp [h c List.mem_cons_self])
    unfold trimText
    rw [hdrop, trimEnd_append hblank, trimEnd_solid h]

/-- The first word of a text, which ends at a blank. -/
theorem words_append (h : ∀ c ∈ text, isWhitespace c = false) (hne : text ≠ [])
    (rest : List Char) : words (text ++ ' ' :: rest) = text :: words rest := by
  unfold words
  rw [List.splitOnP_append_cons_of_forall_mem h ' ' rfl,
    List.filter_cons_of_pos (by simpa using hne)]

end Whitespace

section Utf8

/-- A continuation byte in a range that narrows the usual one. -/
def between (low high byte : UInt8) : Bool := low ≤ byte && byte ≤ high

def payload (byte : UInt8) : ℕ := byte.toNat % 64

/-- `char::REPLACEMENT_CHARACTER`. -/
def replacement : Char := Char.ofNat 0xFFFD

/-- The range of the second byte of a sequence of three or four bytes. -/
def secondRange (first : UInt8) : UInt8 × UInt8 :=
  if first = 0xE0 then (0xA0, 0xBF)
  else if first = 0xED then (0x80, 0x9F)
  else if first = 0xF0 then (0x90, 0xBF)
  else if first = 0xF4 then (0x80, 0x8F)
  else (0x80, 0xBF)

/-- The character that starts with a byte, or a replacement for the longest start of
one, and how many of the following bytes belong to it. -/
def lossyChar (first : UInt8) (rest : List UInt8) : Char × ℕ :=
  if first < 0x80 then (Char.ofNat first.toNat, 0)
  else if between 0xC2 0xDF first then
    match rest with
    | second :: _ =>
      if between 0x80 0xBF second then
        (Char.ofNat (first.toNat % 32 * 64 + payload second), 1)
      else (replacement, 0)
    | [] => (replacement, 0)
  else if between 0xE0 0xEF first then
    match rest with
    | second :: rest =>
      if between (secondRange first).1 (secondRange first).2 second then
        match rest with
        | third :: _ =>
          if between 0x80 0xBF third then
            (Char.ofNat ((first.toNat % 16 * 64 + payload second) * 64 + payload third), 2)
          else (replacement, 1)
        | [] => (replacement, 1)
      else (replacement, 0)
    | [] => (replacement, 0)
  else if between 0xF0 0xF4 first then
    match rest with
    | second :: rest =>
      if between (secondRange first).1 (secondRange first).2 second then
        match rest with
        | third :: rest =>
          if between 0x80 0xBF third then
            match rest with
            | fourth :: _ =>
              if between 0x80 0xBF fourth then
                (Char.ofNat (((first.toNat % 8 * 64 + payload second) * 64 + payload third) * 64 +
                  payload fourth), 3)
              else (replacement, 2)
            | [] => (replacement, 2)
          else (replacement, 1)
        | [] => (replacement, 1)
      else (replacement, 0)
    | [] => (replacement, 0)
  else (replacement, 0)

def lossyChars : ℕ → List UInt8 → List Char
  | 0, _ => []
  | _ + 1, [] => []
  | fuel + 1, first :: rest =>
    let (c, count) := lossyChar first rest
    c :: lossyChars fuel (rest.drop count)

/-- `String::from_utf8_lossy`. -/
def fromUtf8Lossy (bytes : List UInt8) : String := String.ofList (lossyChars bytes.length bytes)

theorem toNat_bounds (c : Char) : c.toNat < 0xD800 ∨ 0xDFFF < c.toNat ∧ c.toNat < 0x110000 := by
  have h := c.valid
  simpa [UInt32.isValidChar, Nat.isValidChar] using h

theorem toNat_ofNat_of_valid {n : ℕ} (h : n < 0xD800 ∨ 0xDFFF < n ∧ n < 0x110000) :
    (Char.ofNat n).toNat = n := by
  have hvalid : n.isValidChar := h
  unfold Char.ofNat
  rw [dif_pos hvalid]
  rfl

theorem toNat_ofNat_byte {n : ℕ} (h : n < 256) : (UInt8.ofNat n).toNat = n := by
  simpa using Nat.mod_eq_of_lt h

theorem between_eq_true {low high byte : UInt8} (h1 : low.toNat ≤ byte.toNat)
    (h2 : byte.toNat ≤ high.toNat) : between low high byte = true := by
  simp [between, UInt8.le_iff_toNat_le, h1, h2]

theorem between_eq_false {low high byte : UInt8} (h : high.toNat < byte.toNat) :
    between low high byte = false := by
  simp [between, UInt8.le_iff_toNat_le]
  omega

/-- The second byte of an encoded character is in the range that its first byte asks for. -/
theorem between_secondRange {first second : UInt8} (h1 : 0x80 ≤ second.toNat)
    (h2 : second.toNat < 0xC0)
    (hE0 : first.toNat = 0xE0 → 0xA0 ≤ second.toNat)
    (hED : first.toNat = 0xED → second.toNat < 0xA0)
    (hF0 : first.toNat = 0xF0 → 0x90 ≤ second.toNat)
    (hF4 : first.toNat = 0xF4 → second.toNat < 0x90) :
    between (secondRange first).1 (secondRange first).2 second = true := by
  unfold secondRange
  split_ifs with h h h h
  · subst h
    exact between_eq_true (hE0 rfl) (Nat.le_of_lt_succ h2)
  · subst h
    exact between_eq_true h1 (Nat.le_of_lt_succ (hED rfl))
  · subst h
    exact between_eq_true (hF0 rfl) (Nat.le_of_lt_succ h2)
  · subst h
    exact between_eq_true h1 (Nat.le_of_lt_succ (hF4 rfl))
  · exact between_eq_true h1 (Nat.le_of_lt_succ h2)

theorem lossyChar_one {first : UInt8} (h : first.toNat < 0x80) (rest : List UInt8) :
    lossyChar first rest = (Char.ofNat first.toNat, 0) := by
  have hlt : first < 0x80 := UInt8.lt_iff_toNat_lt.mpr h
  unfold lossyChar
  rw [if_pos hlt]

theorem lossyChar_two {first second : UInt8} (h1 : 0xC2 ≤ first.toNat) (h2 : first.toNat ≤ 0xDF)
    (hs : 0x80 ≤ second.toNat) (hs' : second.toNat ≤ 0xBF) (rest : List UInt8) :
    lossyChar first (second :: rest) =
      (Char.ofNat (first.toNat % 32 * 64 + payload second), 1) := by
  have hlt : ¬ first < 0x80 := by
    rw [UInt8.lt_iff_toNat_lt]
    exact Nat.not_lt.mpr (Nat.le_trans (by decide) h1)
  have hf : between 0xC2 0xDF first = true := between_eq_true h1 h2
  have hc : between 0x80 0xBF second = true := between_eq_true hs hs'
  simp only [lossyChar, if_neg hlt, hf, hc, if_true]

theorem lossyChar_three {first second third : UInt8} (h1 : 0xE0 ≤ first.toNat)
    (h2 : first.toNat ≤ 0xEF)
    (hs : between (secondRange first).1 (secondRange first).2 second = true)
    (ht : 0x80 ≤ third.toNat) (ht' : third.toNat ≤ 0xBF) (rest : List UInt8) :
    lossyChar first (second :: third :: rest) =
      (Char.ofNat ((first.toNat % 16 * 64 + payload second) * 64 + payload third), 2) := by
  have hlt : ¬ first < 0x80 := by
    rw [UInt8.lt_iff_toNat_lt]
    exact Nat.not_lt.mpr (Nat.le_trans (by decide) h1)
  have hf2 : between 0xC2 0xDF first = false := between_eq_false (Nat.lt_of_lt_of_le (by decide) h1)
  have hf : between 0xE0 0xEF first = true := between_eq_true h1 h2
  have hc : between 0x80 0xBF third = true := between_eq_true ht ht'
  simp only [lossyChar, if_neg hlt, hf2, hf, hs, hc, if_true, Bool.false_eq_true, if_false]

theorem lossyChar_four {first second third fourth : UInt8} (h1 : 0xF0 ≤ first.toNat)
    (h2 : first.toNat ≤ 0xF4)
    (hs : between (secondRange first).1 (secondRange first).2 second = true)
    (ht : 0x80 ≤ third.toNat) (ht' : third.toNat ≤ 0xBF)
    (hu : 0x80 ≤ fourth.toNat) (hu' : fourth.toNat ≤ 0xBF) (rest : List UInt8) :
    lossyChar first (second :: third :: fourth :: rest) =
      (Char.ofNat (((first.toNat % 8 * 64 + payload second) * 64 + payload third) * 64 +
        payload fourth), 3) := by
  have hlt : ¬ first < 0x80 := by
    rw [UInt8.lt_iff_toNat_lt]
    exact Nat.not_lt.mpr (Nat.le_trans (by decide) h1)
  have hf2 : between 0xC2 0xDF first = false := between_eq_false (Nat.lt_of_lt_of_le (by decide) h1)
  have hf3 : between 0xE0 0xEF first = false := between_eq_false (Nat.lt_of_lt_of_le (by decide) h1)
  have hf : between 0xF0 0xF4 first = true := between_eq_true h1 h2
  have hc : between 0x80 0xBF third = true := between_eq_true ht ht'
  have hd : between 0x80 0xBF fourth = true := between_eq_true hu hu'
  simp only [lossyChar, if_neg hlt, hf2, hf3, hf, hs, hc, hd, if_true, Bool.false_eq_true, if_false]

/-- The bytes of a character are read as that character. -/
theorem lossyChar_encode (c : Char) (rest : List UInt8) :
    ∃ first tail, String.utf8EncodeChar c = first :: tail ∧
      lossyChar first (tail ++ rest) = (c, tail.length) := by
  have hv : c.val.toNat = c.toNat := rfl
  have hbounds := toNat_bounds c
  rcases Nat.lt_or_ge c.toNat 0x80 with h1 | h1
  · refine ⟨UInt8.ofNat c.toNat, [], ?_, ?_⟩
    · simp only [String.utf8EncodeChar, hv]
      rw [if_pos (by omega)]
    · have hn := toNat_ofNat_byte (n := c.toNat) (by omega)
      rw [lossyChar_one (by omega), hn, Char.ofNat_toNat]
      rfl
  rcases Nat.lt_or_ge c.toNat 0x800 with h2 | h2
  · refine ⟨UInt8.ofNat (c.toNat / 64 % 0x20 + 0xc0),
      [UInt8.ofNat (c.toNat % 0x40 + 0x80)], ?_, ?_⟩
    · simp only [String.utf8EncodeChar, hv]
      rw [if_neg (by omega), if_pos (by omega)]
    · have hf := toNat_ofNat_byte (n := c.toNat / 64 % 0x20 + 0xc0) (by omega)
      have hs := toNat_ofNat_byte (n := c.toNat % 0x40 + 0x80) (by omega)
      have hcode : (c.toNat / 64 % 0x20 + 0xc0) % 32 * 64 + (c.toNat % 0x40 + 0x80) % 64 =
          c.toNat := by omega
      rw [List.singleton_append, lossyChar_two (by omega) (by omega) (by omega) (by omega),
        payload, hf, hs, hcode, Char.ofNat_toNat]
      rfl
  rcases Nat.lt_or_ge c.toNat 0x10000 with h3 | h3
  · refine ⟨UInt8.ofNat (c.toNat / 4096 % 0x10 + 0xe0),
      [UInt8.ofNat (c.toNat / 64 % 0x40 + 0x80), UInt8.ofNat (c.toNat % 0x40 + 0x80)], ?_, ?_⟩
    · simp only [String.utf8EncodeChar, hv]
      rw [if_neg (by omega), if_neg (by omega), if_pos (by omega)]
    · have hf := toNat_ofNat_byte (n := c.toNat / 4096 % 0x10 + 0xe0) (by omega)
      have hs := toNat_ofNat_byte (n := c.toNat / 64 % 0x40 + 0x80) (by omega)
      have ht := toNat_ofNat_byte (n := c.toNat % 0x40 + 0x80) (by omega)
      have hcode : ((c.toNat / 4096 % 0x10 + 0xe0) % 16 * 64 +
          (c.toNat / 64 % 0x40 + 0x80) % 64) * 64 + (c.toNat % 0x40 + 0x80) % 64 = c.toNat := by
        omega
      rw [List.cons_append, List.singleton_append, lossyChar_three (by omega) (by omega)
        (between_secondRange (by omega) (by omega) (by omega) (by omega) (by omega) (by omega))
        (by omega) (by omega), payload, payload, hf, hs, ht, hcode, Char.ofNat_toNat]
      rfl
  · refine ⟨UInt8.ofNat (c.toNat / 262144 % 0x08 + 0xf0),
      [UInt8.ofNat (c.toNat / 4096 % 0x40 + 0x80), UInt8.ofNat (c.toNat / 64 % 0x40 + 0x80),
      UInt8.ofNat (c.toNat % 0x40 + 0x80)], ?_, ?_⟩
    · simp only [String.utf8EncodeChar, hv]
      rw [if_neg (by omega), if_neg (by omega), if_neg (by omega)]
    · have hf := toNat_ofNat_byte (n := c.toNat / 262144 % 0x08 + 0xf0) (by omega)
      have hs := toNat_ofNat_byte (n := c.toNat / 4096 % 0x40 + 0x80) (by omega)
      have ht := toNat_ofNat_byte (n := c.toNat / 64 % 0x40 + 0x80) (by omega)
      have hu := toNat_ofNat_byte (n := c.toNat % 0x40 + 0x80) (by omega)
      have hcode : (((c.toNat / 262144 % 0x08 + 0xf0) % 8 * 64 +
          (c.toNat / 4096 % 0x40 + 0x80) % 64) * 64 + (c.toNat / 64 % 0x40 + 0x80) % 64) * 64 +
          (c.toNat % 0x40 + 0x80) % 64 = c.toNat := by
        omega
      rw [List.cons_append, List.cons_append, List.singleton_append,
        lossyChar_four (by omega) (by omega)
        (between_secondRange (by omega) (by omega) (by omega) (by omega) (by omega) (by omega))
        (by omega) (by omega) (by omega) (by omega), payload, payload, payload, hf, hs, ht, hu,
        hcode, Char.ofNat_toNat]
      rfl

theorem lossyChars_encode (text : List Char) : ∀ fuel,
    (text.flatMap String.utf8EncodeChar).length ≤ fuel →
      lossyChars fuel (text.flatMap String.utf8EncodeChar) = text := by
  induction text with
  | nil =>
    intro fuel _
    cases fuel <;> rfl
  | cons c text ih =>
    intro fuel hfuel
    obtain ⟨first, tail, hc, hread⟩ := lossyChar_encode c (text.flatMap String.utf8EncodeChar)
    rw [List.flatMap_cons, hc, List.cons_append] at hfuel ⊢
    cases fuel with
    | zero => simp at hfuel
    | succ fuel =>
      have hle : (text.flatMap String.utf8EncodeChar).length ≤ fuel := by
        simp only [List.length_cons, List.length_append] at hfuel
        omega
      have hrest : (tail ++ text.flatMap String.utf8EncodeChar).drop tail.length =
          text.flatMap String.utf8EncodeChar := List.drop_left
      simp only [lossyChars, hread, hrest, ih fuel hle]

/-- `as_bytes` of a text. -/
def utf8 (text : List Char) : List UInt8 := text.flatMap String.utf8EncodeChar

theorem utf8_append (text rest : List Char) : utf8 (text ++ rest) = utf8 text ++ utf8 rest :=
  List.flatMap_append

/-- `str::from_utf8`. -/
def fromUtf8 (bytes : List UInt8) : Option (List Char) :=
  let text := lossyChars bytes.length bytes
  if utf8 text = bytes then some text else none

theorem fromUtf8_utf8 (text : List Char) : fromUtf8 (utf8 text) = some text := by
  unfold fromUtf8 utf8
  rw [lossyChars_encode text _ (Nat.le_refl _)]
  exact if_pos rfl

theorem utf8_eq_nil {text : List Char} (h : utf8 text = []) : text = [] := by
  have hread := fromUtf8_utf8 text
  rw [h] at hread
  exact (Option.some.inj hread).symm

/-- The bytes of a text are read as that text. -/
theorem fromUtf8Lossy_encode (text : String) :
    fromUtf8Lossy (text.toList.flatMap String.utf8EncodeChar) = text := by
  rw [fromUtf8Lossy, lossyChars_encode _ _ (Nat.le_refl _), String.ofList_toList]

theorem utf8_eq (text : String) :
    text.toUTF8.data.toList = text.toList.flatMap String.utf8EncodeChar := by
  have h : text.toByteArray = text.toList.utf8Encode := (String.utf8Encode_toList).symm
  rw [String.toUTF8, h, List.utf8Encode, List.data_toByteArray]

/-- A zero byte stands for the zero character only. -/
theorem zero_notMem_utf8EncodeChar {c : Char} (h : c.toNat ≠ 0) :
    0 ∉ String.utf8EncodeChar c := by
  have hv : c.val.toNat = c.toNat := rfl
  have hbounds := toNat_bounds c
  have hbyte : ∀ n : ℕ, n < 256 → 0 = UInt8.ofNat n → n = 0 := by
    intro n hn heq
    have h0 : (0 : UInt8).toNat = (UInt8.ofNat n).toNat := congrArg UInt8.toNat heq
    rw [toNat_ofNat_byte hn] at h0
    exact h0.symm
  intro hmem
  simp only [String.utf8EncodeChar, hv] at hmem
  split_ifs at hmem with h1 h2 h3
  all_goals simp only [List.mem_cons, List.not_mem_nil, or_false] at hmem
  · exact h (hbyte _ (by omega) hmem)
  · rcases hmem with heq | heq <;> exact absurd (hbyte _ (by omega) heq) (by omega)
  · rcases hmem with heq | heq | heq <;> exact absurd (hbyte _ (by omega) heq) (by omega)
  · rcases hmem with heq | heq | heq | heq <;> exact absurd (hbyte _ (by omega) heq) (by omega)

theorem utf8EncodeChar_ascii {c : Char} (h : c.toNat < 0x80) :
    String.utf8EncodeChar c = [UInt8.ofNat c.toNat] := by
  have hv : c.val.toNat = c.toNat := rfl
  simp only [String.utf8EncodeChar, hv]
  rw [if_pos (by omega)]

theorem le_of_mem_utf8EncodeChar {c : Char} (h : 0x80 ≤ c.toNat) {byte : UInt8}
    (hbyte : byte ∈ String.utf8EncodeChar c) : 0x80 ≤ byte.toNat := by
  have hv : c.val.toNat = c.toNat := rfl
  have hbounds := toNat_bounds c
  have hcode : ∀ n : ℕ, n < 256 → 0x80 ≤ n → byte = UInt8.ofNat n → 0x80 ≤ byte.toNat := by
    intro n hn hle hsame
    subst hsame
    rw [toNat_ofNat_byte hn]
    exact hle
  simp only [String.utf8EncodeChar, hv] at hbyte
  split_ifs at hbyte with h1 h2 h3
  all_goals simp only [List.mem_cons, List.not_mem_nil, or_false] at hbyte
  · omega
  · rcases hbyte with heq | heq <;> exact hcode _ (by omega) (by omega) heq
  · rcases hbyte with heq | heq | heq <;> exact hcode _ (by omega) (by omega) heq
  · rcases hbyte with heq | heq | heq | heq <;> exact hcode _ (by omega) (by omega) heq

/-- A byte of the first half stands for the character of that code only. -/
theorem exists_of_utf8_append {text : List Char} {front rest : List UInt8} {byte : UInt8}
    (hbyte : byte.toNat < 0x80) (h : utf8 text = front ++ byte :: rest) :
    ∃ before behind, text = before ++ Char.ofNat byte.toNat :: behind ∧
      utf8 before = front ∧ utf8 behind = rest := by
  unfold utf8 at h ⊢
  induction text generalizing front with
  | nil => simp at h
  | cons c text ih =>
    rw [List.flatMap_cons] at h
    rcases List.append_eq_append_iff.mp h with ⟨more, hfront, htext⟩ | ⟨more, hc, hrest⟩
    · obtain ⟨before, behind, rfl, hbefore, hbehind⟩ := ih htext
      exact ⟨c :: before, behind, rfl, by rw [List.flatMap_cons, hbefore, hfront], hbehind⟩
    · cases more with
      | nil =>
        have htext : text.flatMap String.utf8EncodeChar = [] ++ byte :: rest := hrest.symm
        obtain ⟨before, behind, rfl, hbefore, hbehind⟩ := ih htext
        rw [List.append_nil] at hc
        exact ⟨c :: before, behind, rfl, by rw [List.flatMap_cons, hbefore, hc, List.append_nil],
          hbehind⟩
      | cons y more =>
        rw [List.cons_append, List.cons.injEq] at hrest
        obtain ⟨rfl, hrest⟩ := hrest
        have hascii : c.toNat < 0x80 := by
          by_contra hnot
          have hmem : byte ∈ String.utf8EncodeChar c := by simp [hc]
          have hle := le_of_mem_utf8EncodeChar (Nat.not_lt.mp hnot) hmem
          omega
        rw [utf8EncodeChar_ascii hascii] at hc
        rcases List.append_eq_singleton_iff.mp hc.symm with ⟨rfl, hsingle⟩ | ⟨_, hnil⟩
        · rw [List.cons.injEq] at hsingle
          obtain ⟨rfl, rfl⟩ := hsingle
          refine ⟨[], text, ?_, rfl, hrest.symm⟩
          rw [toNat_ofNat_byte (by omega), Char.ofNat_toNat]
          rfl
        · simp at hnil

theorem fromUtf8Lossy_eq_empty {bytes : List UInt8} (h : fromUtf8Lossy bytes = "") :
    bytes = [] := by
  cases bytes with
  | nil => rfl
  | cons first rest => simp [fromUtf8Lossy, lossyChars] at h

end Utf8

end XitForge.RustText
