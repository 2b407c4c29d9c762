import XitForge.Restore.Img4

/-!
The patch of the code in an IM4P, on bytes that need not be one. Lengths are numbers of
64 bits that a byte string may choose, and the reader adds them to offsets before it
compares the sums with the length of the string.
-/
namespace XitForge.Restore.Im4pPatch

open ByteStream RustEval Img4

/-- The tag of the element at an offset, the length of its content as it is written, and
where the content starts. -/
def header (buf : Bytes) (off : ℕ) : Option (UInt8 × ℕ × ℕ) :=
  match buf.drop off with
  | tag :: first :: rest =>
    if first < 0x80 then some (tag, first.toNat, off + 2)
    else
      let count := (first &&& 0x7f).toNat
      if count = 0 ∨ 8 < count ∨ rest.length < count then none
      else some (tag, beValue (rest.take count), off + 2 + count)
  | _ => none

/-- An element with that tag that the bytes have whole, and what holds of where its content
starts and where it ends. -/
def Whole (buf : Bytes) (expected : UInt8) (post : ℕ → ℕ → Prop) :
    Option (UInt8 × ℕ × ℕ) → Prop
  | some (tag, len, start) => start + len ≤ buf.length → tag = expected → post start (start + len)
  | none => True

/-- Where the content of the second element of the outer sequence starts. -/
def secondContent (buf : Bytes) : Option ℕ := do
  let (_, _, first) ← header buf 0
  let (_, len, start) ← header buf first
  let (_, _, second) ← header buf (start + len)
  return second

/-- What a patch may return: an error, or bytes that differ in the four of the second
element only. -/
def Local (buf : Bytes) (result : Eval String Bytes) : Prop :=
  result.Returns fun out => out.length = buf.length ∧
    ∃ start, secondContent buf = some start ∧
      ∀ i, i < start ∨ start + 4 ≤ i → out[i]? = buf[i]?

section Header

variable {checks : Bool} {buf : Bytes} {off : ℕ}

end Header

section Patch

variable {buf : Bytes} {fourcc : Fourcc}

end Patch

end XitForge.Restore.Im4pPatch
