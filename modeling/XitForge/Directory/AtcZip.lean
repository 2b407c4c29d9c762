import XitForge.Crc
import XitForge.Directory.Names
import XitForge.ZipFormat

/-!
`XFATCZip.c`. The archive holds a symbolic link that leads out of its place, and the
directories down to the target of the link. It is built in two buffers that grow as
allocations allow: the entries, and the central directory that is put behind them.
-/
namespace XitForge.Directory.AtcZip

open ByteStream

section Buffers

/-- `XFZipBuffer`, where `n` is the number of the bytes: they fit into the allocation. -/
structure XFZipBuffer where
  p : Bytes
  cap : ℕ
  failed : Bool
  fits : p.length ≤ cap

def XFZipBuffer.empty : XFZipBuffer := ⟨[], 0, false, Nat.le_refl 0⟩

def XFZipBuffer.fail (b : XFZipBuffer) : XFZipBuffer := { b with failed := true }

def limit : ℕ := 8 * 1024 * 1024

/-- The loop that doubles `cap`, within so many rounds. -/
def grow (need : ℕ) : ℕ → ℕ → ℕ
  | 0, cap => cap
  | rounds + 1, cap => if cap < need then grow need rounds (cap * 2) else cap

/-- The loop has come to its end after `need` rounds. -/
theorem le_grow {need rounds cap : ℕ} (hcap : 0 < cap) (h : need ≤ cap + rounds) :
    need ≤ grow need rounds cap := by
  induction rounds generalizing cap with
  | zero => exact h
  | succ rounds ih =>
    rw [grow]
    split
    · exact ih (by omega) (by omega)
    · omega

/-- The capacity that is doubled. -/
def firstCap (cap : ℕ) : ℕ := if cap = 0 then 4096 else cap

theorem firstCap_pos (cap : ℕ) : 0 < firstCap cap := by
  unfold firstCap
  split <;> omega

-- which of the allocations succeed, by their number
variable (alloc : ℕ → Bool)

/-- `xf_put`, and the number of the allocations so far. -/
def xfPut (b : XFZipBuffer) (allocations : ℕ) (bytes : Bytes) : XFZipBuffer × ℕ :=
  if b.failed || limit < bytes.length || limit - bytes.length < b.p.length then
    (b.fail, allocations)
  else if hfits : b.p.length + bytes.length ≤ b.cap then
    (⟨b.p ++ bytes, b.cap, b.failed, by rw [List.length_append]; exact hfits⟩, allocations)
  else
    let need := b.p.length + bytes.length
    if alloc allocations then
      (⟨b.p ++ bytes, grow need need (firstCap b.cap), b.failed, by
        rw [List.length_append]
        exact le_grow (firstCap_pos b.cap) (Nat.le_add_left _ _)⟩, allocations + 1)
    else (b.fail, allocations + 1)

def xfU16 (v : UInt16) : Bytes := [v.toUInt8, (v >>> 8).toUInt8]

def xfU32 (v : UInt32) : Bytes :=
  [v.toUInt8, (v >>> 8).toUInt8, (v >>> 16).toUInt8, (v >>> 24).toUInt8]

/-- The rounds for one byte of `xf_crc`. -/
def xfCrcRounds : ℕ → UInt32 → UInt32
  | 0, c => c
  | rounds + 1, c => xfCrcRounds rounds ((c >>> 1) ^^^ (0xedb88320 &&& (0 - (c &&& 1))))

def xfCrc (data : Bytes) : UInt32 :=
  ~~~(data.foldl (fun c byte => xfCrcRounds 8 (c ^^^ byte.toUInt32)) 0xffffffff)

end Buffers

section Building

/-- The buffers `l` and `c`, and `count`. -/
structure Builder where
  l : XFZipBuffer
  c : XFZipBuffer
  count : UInt16
  allocations : ℕ

def Builder.new : Builder := ⟨.empty, .empty, 0, 0⟩

/-- What an entry is made of. -/
structure Content where
  name : Bytes
  data : Bytes
  mode : UInt32
  deriving DecidableEq, Repr

variable (alloc : ℕ → Bool)

namespace Builder

def putLocal (b : Builder) (bytes : Bytes) : Builder :=
  let (l, allocations) := xfPut alloc b.l b.allocations bytes
  { b with l := l, allocations := allocations }

def putCentral (b : Builder) (bytes : Bytes) : Builder :=
  let (c, allocations) := xfPut alloc b.c b.allocations bytes
  { b with c := c, allocations := allocations }

/-- `xf_entry`. -/
def xfEntry (b : Builder) (content : Content) : Builder :=
  let nl := content.name.length
  let len := content.data.length
  let crc := xfCrc content.data
  let off := UInt32.ofNat b.l.p.length
  let mode := UInt16.ofNat content.mode.toNat
  if 65535 < nl || 0xffffffff < len then { b with l := b.l.fail }
  else
    let b := [xfU32 0x04034b50, xfU16 20, xfU16 0, xfU16 0, xfU16 0, xfU16 33, xfU32 crc,
      xfU32 (UInt32.ofNat len), xfU32 (UInt32.ofNat len), xfU16 (UInt16.ofNat nl), xfU16 6,
      content.name, xfU16 0x5a53, xfU16 2, xfU16 mode, content.data].foldl (putLocal alloc) b
    [xfU32 0x02014b50, xfU16 20, xfU16 20, xfU16 0, xfU16 0, xfU16 0, xfU16 33, xfU32 crc,
      xfU32 (UInt32.ofNat len), xfU32 (UInt32.ofNat len), xfU16 (UInt16.ofNat nl), xfU16 6,
      xfU16 0, xfU16 0, xfU16 0, xfU32 (content.mode <<< 16), xfU32 off, content.name,
      xfU16 0x5a53, xfU16 2, xfU16 mode].foldl (putCentral alloc) b

/-- An entry, counted. -/
def add (b : Builder) (content : Content) : Builder :=
  let b := b.xfEntry alloc content
  { b with count := b.count + 1 }

/-- The central directory and the end record are put behind the entries. -/
def close (b : Builder) : Builder :=
  let centralOff := UInt32.ofNat b.l.p.length
  let centralLen := UInt32.ofNat b.c.p.length
  [b.c.p, xfU32 0x06054b50, xfU16 0, xfU16 0, xfU16 b.count, xfU16 b.count, xfU32 centralLen,
    xfU32 centralOff, xfU16 0].foldl (putLocal alloc) b

end Builder

/-- A text of one-byte characters. -/
def chars (text : String) : Bytes := text.toList.map fun character => UInt8.ofNat character.toNat

/-- A string that ends with the first NUL. -/
structure CString where
  bytes : Bytes
  noNul : 0 ∉ bytes

def slash : UInt8 := 47

/-- A component ends at this place of the tail. -/
def EndsAt (tail : Bytes) (i : ℕ) : Prop := i = tail.length ∨ tail[i]? = some slash

instance (tail : Bytes) (i : ℕ) : Decidable (EndsAt tail i) := inferInstanceAs (Decidable (_ ∨ _))

/-- The components from one place on, of which one has begun at `start`. -/
def componentsValid (tail : Bytes) : List ℕ → ℕ → ℕ → Bool
  | [], _, _ => true
  | i :: places, start, components =>
    if EndsAt tail i then
      let component := (tail.drop start).take (i - start)
      if component = [] || component = chars "." || component = chars ".." then false
      else if 64 < components + 1 then false
      else componentsValid tail places (i + 1) (components + 1)
    else componentsValid tail places start components

/-- The checks of the tail. -/
def tailValid (tail : Bytes) : Bool :=
  !(tail = [] || 2048 < tail.length || tail.head? = some slash || tail.getLast? = some slash ||
      92 ∈ tail) && componentsValid tail (List.range (tail.length + 1)) 0 0

def directoryMode : UInt32 := 0o40755

def fileMode : UInt32 := 0o100600

def linkMode : UInt32 := 0o120777

/-- The entries before the link. -/
def leading (metadata : Bytes) : List Content :=
  [⟨chars "META-INF/", [], directoryMode⟩,
    ⟨chars "META-INF/com.apple.ZipMetadata.plist", metadata, fileMode⟩,
    ⟨chars "p0/", [], directoryMode⟩, ⟨chars "p0/p1/", [], directoryMode⟩,
    ⟨chars "p0/p1/p2/", [], directoryMode⟩]

def link (tail : Bytes) : Content := ⟨chars "p0/p1/p2/link", chars "../../../" ++ tail, linkMode⟩

/-- The directories, one for each place where a component ends. -/
def directories (tail : Bytes) : List Content :=
  ((List.range (tail.length + 1)).filter fun i => EndsAt tail i).map fun i =>
    ⟨tail.take i ++ [slash], [], directoryMode⟩

def marker : Content := ⟨chars "payload", chars "directory-list", fileMode⟩

/-- `*out` and `*out_len`. -/
structure Outputs where
  out : Option Bytes
  outLen : ℕ
  deriving DecidableEq, Repr

def Outputs.cleared : Outputs := ⟨none, 0⟩

/-- `xf_atc_build_directory_zip`. Null pointers are `none`; `given` tells whether there are
both outputs. -/
def xfAtcBuildDirectoryZip (tail : Option CString) (metadata : Option Bytes) (given : Bool)
    (outputs : Outputs) : ℤ × Outputs :=
  if !given then (-1, outputs)
  else
    match tail, metadata with
    | some tail, some metadata =>
      if metadata = [] || 4096 < metadata.length || !tailValid tail.bytes then (-1, .cleared)
      else
        let b := (leading metadata).foldl (Builder.add alloc) .new
        if !(alloc b.allocations && alloc (b.allocations + 1)) then (-2, .cleared)
        else
          let b := { b with allocations := b.allocations + 2 }
          let b := b.add alloc (link tail.bytes)
          let b := (directories tail.bytes).foldl (Builder.add alloc) b
          let b := b.add alloc marker
          let b := b.close alloc
          if b.l.failed || b.c.failed then (-2, .cleared)
          else (0, ⟨some b.l.p, b.l.p.length⟩)
    | _, _ => (-1, .cleared)

end Building

end XitForge.Directory.AtcZip
