import XitForge.RustText

/-!
The syntax of UTF-8: which bytes stand for a character, and how the first of them tells the
others.
-/
namespace XitForge.Utf8Syntax

open RustText

/-- A byte behind the first one of a character. -/
def Tail (b : UInt8) : Prop := 0x80 ≤ b.toNat ∧ b.toNat ≤ 0xBF

instance (b : UInt8) : Decidable (Tail b) := inferInstanceAs (Decidable (_ ∧ _))

/-- The second of three or four bytes: the form is the shortest, no surrogate, and at most
U+10FFFF. -/
structure Second (a b : UInt8) : Prop where
  tail : Tail b
  shortest_three : a.toNat = 0xE0 → 0xA0 ≤ b.toNat
  no_surrogate : a.toNat = 0xED → b.toNat ≤ 0x9F
  shortest_four : a.toNat = 0xF0 → 0x90 ≤ b.toNat
  at_most : a.toNat = 0xF4 → b.toNat ≤ 0x8F

/-- The bytes of one character. -/
inductive Sequence : List UInt8 → Prop
  | one {a : UInt8} (h : a.toNat < 0x80) : Sequence [a]
  | two {a b : UInt8} (hlow : 0xC2 ≤ a.toNat) (hhigh : a.toNat ≤ 0xDF) (hb : Tail b) :
      Sequence [a, b]
  | three {a b c : UInt8} (hlow : 0xE0 ≤ a.toNat) (hhigh : a.toNat ≤ 0xEF) (hb : Second a b)
      (hc : Tail c) : Sequence [a, b, c]
  | four {a b c d : UInt8} (hlow : 0xF0 ≤ a.toNat) (hhigh : a.toNat ≤ 0xF4) (hb : Second a b)
      (hc : Tail c) (hd : Tail d) : Sequence [a, b, c, d]

/-- Bytes that are the encoding of some characters. -/
def IsText (bytes : List UInt8) : Prop := ∃ text : List Char, utf8 text = bytes

theorem sequence_encode (c : Char) : Sequence (String.utf8EncodeChar c) := by
  have hv : c.val.toNat = c.toNat := rfl
  have hbounds := toNat_bounds c
  simp only [String.utf8EncodeChar, hv]
  split_ifs with h1 h2 h3
  · have ha := toNat_ofNat_byte (n := c.toNat) (by omega)
    exact .one (by omega)
  · have ha := toNat_ofNat_byte (n := c.toNat / 64 % 0x20 + 0xc0) (by omega)
    have hb := toNat_ofNat_byte (n := c.toNat % 0x40 + 0x80) (by omega)
    exact .two (by omega) (by omega) ⟨by omega, by omega⟩
  · have ha := toNat_ofNat_byte (n := c.toNat / 4096 % 0x10 + 0xe0) (by omega)
    have hb := toNat_ofNat_byte (n := c.toNat / 64 % 0x40 + 0x80) (by omega)
    have hc := toNat_ofNat_byte (n := c.toNat % 0x40 + 0x80) (by omega)
    exact .three (by omega) (by omega)
      ⟨⟨by omega, by omega⟩, by omega, by omega, by omega, by omega⟩ ⟨by omega, by omega⟩
  · have ha := toNat_ofNat_byte (n := c.toNat / 262144 % 0x08 + 0xf0) (by omega)
    have hb := toNat_ofNat_byte (n := c.toNat / 4096 % 0x40 + 0x80) (by omega)
    have hc := toNat_ofNat_byte (n := c.toNat / 64 % 0x40 + 0x80) (by omega)
    have hd := toNat_ofNat_byte (n := c.toNat % 0x40 + 0x80) (by omega)
    exact .four (by omega) (by omega)
      ⟨⟨by omega, by omega⟩, by omega, by omega, by omega, by omega⟩ ⟨by omega, by omega⟩
      ⟨by omega, by omega⟩

theorem ofNat_eq_of_toNat {n : ℕ} (byte : UInt8) (h : n = byte.toNat) : UInt8.ofNat n = byte := by
  rw [h, UInt8.ofNat_toNat]

theorem Sequence.exists_encode {s : List UInt8} (h : Sequence s) :
    ∃ c, String.utf8EncodeChar c = s := by
  cases h with
  | @one a ha =>
    refine ⟨Char.ofNat a.toNat, ?_⟩
    have hcode := toNat_ofNat_of_valid (n := a.toNat) (by omega)
    have hv : (Char.ofNat a.toNat).val.toNat = a.toNat := hcode
    simp only [String.utf8EncodeChar, hv]
    rw [if_pos (by omega), UInt8.ofNat_toNat]
  | @two a b hlow hhigh hb =>
    obtain ⟨hb1, hb2⟩ := hb
    refine ⟨Char.ofNat (a.toNat % 32 * 64 + b.toNat % 64), ?_⟩
    have hv := toNat_ofNat_of_valid (n := a.toNat % 32 * 64 + b.toNat % 64) (by omega)
    change (Char.ofNat (a.toNat % 32 * 64 + b.toNat % 64)).val.toNat = _ at hv
    simp only [String.utf8EncodeChar, hv]
    rw [if_neg (by omega), if_pos (by omega), ofNat_eq_of_toNat a (by omega),
      ofNat_eq_of_toNat b (by omega)]
  | @three a b c hlow hhigh hb hc =>
    obtain ⟨⟨hb1, hb2⟩, hE0, hED, hF0, hF4⟩ := hb
    obtain ⟨hc1, hc2⟩ := hc
    refine ⟨Char.ofNat ((a.toNat % 16 * 64 + b.toNat % 64) * 64 + c.toNat % 64), ?_⟩
    have hv := toNat_ofNat_of_valid
      (n := (a.toNat % 16 * 64 + b.toNat % 64) * 64 + c.toNat % 64) (by omega)
    change (Char.ofNat _).val.toNat = _ at hv
    simp only [String.utf8EncodeChar, hv]
    rw [if_neg (by omega), if_neg (by omega), if_pos (by omega),
      ofNat_eq_of_toNat a (by omega), ofNat_eq_of_toNat b (by omega),
      ofNat_eq_of_toNat c (by omega)]
  | @four a b c d hlow hhigh hb hc hd =>
    obtain ⟨⟨hb1, hb2⟩, hE0, hED, hF0, hF4⟩ := hb
    obtain ⟨hc1, hc2⟩ := hc
    obtain ⟨hd1, hd2⟩ := hd
    refine ⟨Char.ofNat (((a.toNat % 8 * 64 + b.toNat % 64) * 64 + c.toNat % 64) * 64 +
      d.toNat % 64), ?_⟩
    have hv := toNat_ofNat_of_valid (n := ((a.toNat % 8 * 64 + b.toNat % 64) * 64 +
      c.toNat % 64) * 64 + d.toNat % 64) (by omega)
    change (Char.ofNat _).val.toNat = _ at hv
    simp only [String.utf8EncodeChar, hv]
    rw [if_neg (by omega), if_neg (by omega), if_neg (by omega),
      ofNat_eq_of_toNat a (by omega), ofNat_eq_of_toNat b (by omega),
      ofNat_eq_of_toNat c (by omega), ofNat_eq_of_toNat d (by omega)]

/-- Two characters in front of the same bytes are the same. -/
theorem encode_append_inj {c c' : Char} {rest rest' : List UInt8}
    (h : String.utf8EncodeChar c ++ rest = String.utf8EncodeChar c' ++ rest') : c = c' := by
  obtain ⟨first, tail, hc, hread⟩ := lossyChar_encode c rest
  obtain ⟨first', tail', hc', hread'⟩ := lossyChar_encode c' rest'
  rw [hc, hc', List.cons_append, List.cons_append, List.cons.injEq] at h
  obtain ⟨rfl, hrest⟩ := h
  rw [hrest, hread'] at hread
  exact (congrArg Prod.fst hread).symm

theorem isText_nil : IsText [] := ⟨[], rfl⟩

/-- A text that is not empty starts with the bytes of a character. -/
theorem IsText.exists_sequence {first : UInt8} {tail : List UInt8} (h : IsText (first :: tail)) :
    ∃ s rest, Sequence s ∧ first :: tail = s ++ rest := by
  obtain ⟨text, htext⟩ := h
  cases text with
  | nil => cases htext
  | cons c text => exact ⟨String.utf8EncodeChar c, utf8 text, sequence_encode c, htext.symm⟩

/-- What the first byte of a text tells of the others. -/
theorem IsText.forms {first : UInt8} {tail : List UInt8} (h : IsText (first :: tail)) :
    first.toNat < 0x80 ∨
    (0xC2 ≤ first.toNat ∧ first.toNat ≤ 0xDF ∧ ∃ b rest, tail = b :: rest ∧ Tail b) ∨
    (0xE0 ≤ first.toNat ∧ first.toNat ≤ 0xEF ∧
      ∃ b c rest, tail = b :: c :: rest ∧ Second first b ∧ Tail c) ∨
    (0xF0 ≤ first.toNat ∧ first.toNat ≤ 0xF4 ∧
      ∃ b c d rest, tail = b :: c :: d :: rest ∧ Second first b ∧ Tail c ∧ Tail d) := by
  obtain ⟨s, rest, hs, heq⟩ := h.exists_sequence
  cases hs with
  | one hone =>
    cases heq
    exact .inl hone
  | two hlow hhigh hb =>
    cases heq
    exact .inr (.inl ⟨hlow, hhigh, _, _, rfl, hb⟩)
  | three hlow hhigh hb hc =>
    cases heq
    exact .inr (.inr (.inl ⟨hlow, hhigh, _, _, _, rfl, hb, hc⟩))
  | four hlow hhigh hb hc hd =>
    cases heq
    exact .inr (.inr (.inr ⟨hlow, hhigh, _, _, _, _, rfl, hb, hc, hd⟩))

theorem Sequence.isText_append_iff {s : List UInt8} (h : Sequence s) (rest : List UInt8) :
    IsText (s ++ rest) ↔ IsText rest := by
  obtain ⟨c, rfl⟩ := h.exists_encode
  constructor
  · intro htext
    obtain ⟨text, htext⟩ := htext
    cases text with
    | nil =>
      obtain ⟨hnil, _⟩ := List.append_eq_nil_iff.mp htext.symm
      exact absurd hnil (String.utf8EncodeChar_ne_nil)
    | cons c' text =>
      have hsame : c' = c := encode_append_inj htext
      rw [hsame] at htext
      exact ⟨text, List.append_cancel_left htext⟩
  · intro htext
    obtain ⟨text, rfl⟩ := htext
    exact ⟨c :: text, rfl⟩

end XitForge.Utf8Syntax
