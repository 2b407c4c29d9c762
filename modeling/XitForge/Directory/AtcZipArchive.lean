import XitForge.Directory.AtcZipTail

/-!
What the builder of `XFATCZip.c` builds. While no buffer has failed, the two buffers hold
the entries and the directory of the members so far; closed, they are an archive. Without
a failed allocation nothing else makes a buffer fail, as all entries together stay far
below the limit.
-/
namespace XitForge.Directory.AtcZip

open ByteStream ZipFormat

section Words

theorem leBytes_two (n : ℕ) : leBytes 2 n = [UInt8.ofNat n, UInt8.ofNat (n / 256)] := rfl

theorem leBytes_four (n : ℕ) : leBytes 4 n =
    [UInt8.ofNat n, UInt8.ofNat (n / 256), UInt8.ofNat (n / 256 / 256),
      UInt8.ofNat (n / 256 / 256 / 256)] := rfl

theorem xfU16_ofNat (n : ℕ) : xfU16 (UInt16.ofNat n) = leBytes 2 n := by
  rw [leBytes_two, xfU16]
  simp only [List.cons.injEq, and_true]
  constructor <;> apply UInt8.toNat_inj.mp
  · simp
  · simp [Nat.shiftRight_eq_div_pow]
    omega

theorem xfU16_eq (v : UInt16) : xfU16 v = leBytes 2 v.toNat := by
  rw [← xfU16_ofNat, UInt16.ofNat_toNat]

theorem xfU32_ofNat (n : ℕ) : xfU32 (UInt32.ofNat n) = leBytes 4 n := by
  rw [leBytes_four, xfU32]
  simp only [List.cons.injEq, and_true]
  refine ⟨?_, ?_, ?_, ?_⟩ <;> apply UInt8.toNat_inj.mp
  · simp
  all_goals
    simp [Nat.shiftRight_eq_div_pow]
    omega

theorem xfU32_eq (v : UInt32) : xfU32 v = leBytes 4 v.toNat := by
  rw [← xfU32_ofNat, UInt32.ofNat_toNat]

end Words

section Checksum

theorem toBitVec_round (c : UInt32) :
    ((c >>> 1) ^^^ (0xedb88320 &&& (0 - (c &&& 1)))).toBitVec =
      Crc.shift 0xedb88320#32 c.toBitVec := by
  have hlow : c.toBitVec &&& 1#32 = BitVec.setWidth 32 (BitVec.ofBool (c.toBitVec.getLsbD 0)) :=
    BitVec.and_one_eq_setWidth_ofBool_getLsbD
  show (c.toBitVec >>> 1) ^^^ (0xedb88320#32 &&& (0#32 - (c.toBitVec &&& 1#32))) = _
  unfold Crc.shift
  rw [hlow]
  cases c.toBitVec.getLsbD 0 with
  | false => rfl
  | true => rfl

theorem toBitVec_xfCrcRounds (rounds : ℕ) (c : UInt32) :
    (xfCrcRounds rounds c).toBitVec = Crc.shifts 0xedb88320#32 rounds c.toBitVec := by
  induction rounds generalizing c with
  | zero => rfl
  | succ rounds ih => rw [xfCrcRounds, ih, toBitVec_round, Crc.shifts]

/-- `xf_crc` computes the checksum. -/
theorem isCrc32_xfCrc (data : Bytes) : Crc.IsCrc32 data (xfCrc data) := by
  have hfold (c : UInt32) :
      (data.foldl (fun c byte => xfCrcRounds 8 (c ^^^ byte.toUInt32)) c).toBitVec =
        data.foldl (fun c byte => Crc.shifts 0xedb88320#32 8 (c ^^^ byte.toBitVec.setWidth 32))
          c.toBitVec := by
    induction data generalizing c with
    | nil => rfl
    | cons byte data ih =>
      rw [List.foldl_cons, ih, toBitVec_xfCrcRounds, List.foldl_cons, UInt32.toBitVec_xor]
      rfl
  apply Crc.isCrc32_of_foldl
  rw [xfCrc, UInt32.toBitVec_not, BitVec.not_not, hfold]
  rfl

end Checksum

section Puts

variable (alloc : ℕ → Bool)

theorem xfPut_ok {b : XFZipBuffer} {allocations : ℕ} {bytes : Bytes}
    (h : (xfPut alloc b allocations bytes).1.failed = false) :
    b.failed = false ∧ (xfPut alloc b allocations bytes).1.p = b.p ++ bytes ∧
      (b.p ++ bytes).length ≤ limit := by
  unfold xfPut at h ⊢
  simp only at h ⊢
  split at h
  · cases h
  · rename_i hroom
    simp only [Bool.or_eq_true, decide_eq_true_eq, not_or, Nat.not_lt] at hroom
    have hlength : (b.p ++ bytes).length ≤ limit := by
      rw [List.length_append]
      omega
    have hfailed : b.failed = false := by simpa using hroom.1.1
    rw [if_neg (by simpa [not_or] using hroom)]
    split at h
    · rename_i hfits
      rw [dif_pos hfits]
      exact ⟨hfailed, rfl, hlength⟩
    · rename_i hfits
      rw [dif_neg hfits]
      split at h
      · rename_i halloc
        simp only [halloc, if_true]
        exact ⟨hfailed, trivial, hlength⟩
      · cases h

/-- A buffer with room fails only if an allocation does. -/
theorem xfPut_succeeds {b : XFZipBuffer} {allocations : ℕ} {bytes : Bytes}
    (halloc : ∀ n, alloc n = true) (h : b.failed = false)
    (hroom : b.p.length + bytes.length ≤ limit) :
    (xfPut alloc b allocations bytes).1.failed = false := by
  unfold xfPut
  rw [if_neg (by simp [h]; omega)]
  split
  · exact h
  · simp only [halloc, if_true]
    exact h

/-- Pieces that are put one behind the other. -/
def puts (b : XFZipBuffer × ℕ) (pieces : List Bytes) : XFZipBuffer × ℕ :=
  pieces.foldl (fun b piece => xfPut alloc b.1 b.2 piece) b

theorem puts_ok {b : XFZipBuffer × ℕ} {pieces : List Bytes}
    (h : (puts alloc b pieces).1.failed = false) :
    b.1.failed = false ∧ (puts alloc b pieces).1.p = b.1.p ++ pieces.flatten := by
  induction pieces generalizing b with
  | nil => exact ⟨h, (List.append_nil _).symm⟩
  | cons piece pieces ih =>
    obtain ⟨hfirst, hrest⟩ := ih h
    obtain ⟨hfailed, hp, -⟩ := xfPut_ok alloc hfirst
    refine ⟨hfailed, ?_⟩
    rw [List.flatten_cons, ← List.append_assoc, ← hp]
    exact hrest

theorem puts_succeed {b : XFZipBuffer × ℕ} {pieces : List Bytes} (halloc : ∀ n, alloc n = true)
    (h : b.1.failed = false) (hroom : b.1.p.length + pieces.flatten.length ≤ limit) :
    (puts alloc b pieces).1.failed = false := by
  induction pieces generalizing b with
  | nil => exact h
  | cons piece pieces ih =>
    rw [List.flatten_cons, List.length_append] at hroom
    have hfirst : (xfPut alloc b.1 b.2 piece).1.failed = false :=
      xfPut_succeeds alloc halloc h (by omega)
    obtain ⟨-, hp, -⟩ := xfPut_ok alloc hfirst
    refine ih hfirst ?_
    rw [hp, List.length_append]
    omega

/-- The last piece is put within the limit. -/
theorem puts_length_le {b : XFZipBuffer × ℕ} {pieces : List Bytes} (hpieces : pieces ≠ [])
    (h : (puts alloc b pieces).1.failed = false) : (puts alloc b pieces).1.p.length ≤ limit := by
  obtain ⟨before, last, rfl⟩ := List.eq_nil_or_concat pieces |>.resolve_left hpieces
  unfold puts at h ⊢
  rw [List.concat_eq_append, List.foldl_append] at h ⊢
  obtain ⟨-, hp, hlength⟩ := xfPut_ok alloc h
  rw [← hp] at hlength
  exact hlength

end Puts

section Entries

variable (alloc : ℕ → Bool) {b : Builder}

/-- The member that an entry is written for. -/
def Content.member (content : Content) : Member where
  name := content.name
  extra := fields [(2, 0x5a53), (2, 2), (2, content.mode.toNat)]
  data := content.data
  crc := (xfCrc content.data).toNat
  madeBy := 20
  needed := 20
  time := 0
  date := 33
  internal := 0
  external := (content.mode <<< 16).toNat

def members (contents : List Content) : List Member := contents.map Content.member

/-- The lengths that an entry can say. -/
structure Content.Sized (content : Content) : Prop where
  name : content.name.length ≤ 65535
  data : content.data.length ≤ 0xffffffff

def localPieces (content : Content) : List Bytes :=
  [xfU32 0x04034b50, xfU16 20, xfU16 0, xfU16 0, xfU16 0, xfU16 33, xfU32 (xfCrc content.data),
    xfU32 (UInt32.ofNat content.data.length), xfU32 (UInt32.ofNat content.data.length),
    xfU16 (UInt16.ofNat content.name.length), xfU16 6, content.name, xfU16 0x5a53, xfU16 2,
    xfU16 (UInt16.ofNat content.mode.toNat), content.data]

def centralPieces (content : Content) (offset : ℕ) : List Bytes :=
  [xfU32 0x02014b50, xfU16 20, xfU16 20, xfU16 0, xfU16 0, xfU16 0, xfU16 33,
    xfU32 (xfCrc content.data), xfU32 (UInt32.ofNat content.data.length),
    xfU32 (UInt32.ofNat content.data.length), xfU16 (UInt16.ofNat content.name.length), xfU16 6,
    xfU16 0, xfU16 0, xfU16 0, xfU32 (content.mode <<< 16), xfU32 (UInt32.ofNat offset),
    content.name, xfU16 0x5a53, xfU16 2, xfU16 (UInt16.ofNat content.mode.toNat)]

theorem flatten_localPieces (content : Content) :
    (localPieces content).flatten = content.member.entry.bytes := by
  simp only [localPieces, xfU16_ofNat, xfU32_ofNat, List.flatten_cons, List.flatten_nil,
    List.append_nil]
  simp only [xfU16_eq, xfU32_eq, LocalEntry.bytes, LocalEntry.layout, fields, List.flatMap_cons,
    List.flatMap_nil, List.append_nil, List.append_assoc, Member.entry, Content.member]
  rfl

theorem flatten_centralPieces (content : Content) (offset : ℕ) :
    (centralPieces content offset).flatten = (content.member.record offset).bytes := by
  simp only [centralPieces, xfU16_ofNat, xfU32_ofNat, List.flatten_cons, List.flatten_nil,
    List.append_nil]
  simp only [xfU16_eq, xfU32_eq, CentralRecord.bytes, CentralRecord.layout, fields,
    List.flatMap_cons, List.flatMap_nil, List.append_nil, List.append_assoc, Member.record,
    Content.member]
  rfl

theorem foldl_putLocal (b : Builder) (pieces : List Bytes) :
    pieces.foldl (Builder.putLocal alloc) b =
      { b with
        l := (puts alloc (b.l, b.allocations) pieces).1
        allocations := (puts alloc (b.l, b.allocations) pieces).2 } := by
  induction pieces generalizing b with
  | nil => rfl
  | cons piece pieces ih =>
    rw [List.foldl_cons, ih]
    rfl

theorem foldl_putCentral (b : Builder) (pieces : List Bytes) :
    pieces.foldl (Builder.putCentral alloc) b =
      { b with
        c := (puts alloc (b.c, b.allocations) pieces).1
        allocations := (puts alloc (b.c, b.allocations) pieces).2 } := by
  induction pieces generalizing b with
  | nil => rfl
  | cons piece pieces ih =>
    rw [List.foldl_cons, ih]
    rfl

/-- An entry of lengths that it can say is put into both buffers. -/
theorem xfEntry_of_sized {content : Content} (h : content.Sized) :
    b.xfEntry alloc content =
      (centralPieces content b.l.p.length).foldl (Builder.putCentral alloc)
        ((localPieces content).foldl (Builder.putLocal alloc) b) := by
  unfold Builder.xfEntry
  rw [if_neg]
  · rfl
  · simp only [Bool.or_eq_true, decide_eq_true_eq, not_or, Nat.not_lt]
    exact ⟨h.name, h.data⟩

theorem xfEntry_ok {content : Content} (hl : (b.xfEntry alloc content).l.failed = false)
    (hc : (b.xfEntry alloc content).c.failed = false) :
    content.Sized ∧ b.l.failed = false ∧ b.c.failed = false ∧
      (b.xfEntry alloc content).l.p = b.l.p ++ content.member.entry.bytes ∧
      (b.xfEntry alloc content).c.p =
        b.c.p ++ (content.member.record b.l.p.length).bytes := by
  have hsized : content.Sized := by
    unfold Builder.xfEntry at hl
    simp only at hl
    split at hl
    · cases hl
    · rename_i hlengths
      simp only [Bool.or_eq_true, decide_eq_true_eq, not_or, Nat.not_lt] at hlengths
      exact ⟨hlengths.1, hlengths.2⟩
  rw [xfEntry_of_sized alloc hsized, foldl_putCentral, foldl_putLocal] at hl hc ⊢
  obtain ⟨hlocal, hlp⟩ := puts_ok alloc hl
  obtain ⟨hcentral, hcp⟩ := puts_ok alloc hc
  rw [flatten_localPieces] at hlp
  rw [flatten_centralPieces] at hcp
  exact ⟨hsized, hlocal, hcentral, hlp, hcp⟩

theorem xfEntry_count (content : Content) : (b.xfEntry alloc content).count = b.count := by
  unfold Builder.xfEntry
  simp only
  split
  · rfl
  · rw [foldl_putCentral, foldl_putLocal]

/-- What an entry takes of either buffer, at most. -/
def Content.weight (content : Content) : ℕ := 52 + content.name.length + content.data.length

/-- Neither buffer has failed, and both have room. -/
structure Builder.Room (b : Builder) (room : ℕ) : Prop where
  localFailed : b.l.failed = false
  centralFailed : b.c.failed = false
  localRoom : b.l.p.length + room ≤ limit
  centralRoom : b.c.p.length + room ≤ limit

theorem Builder.Room.of_allocations {room : ℕ} (h : b.Room room) (allocations : ℕ) :
    Builder.Room { b with allocations := allocations } room :=
  ⟨h.localFailed, h.centralFailed, h.localRoom, h.centralRoom⟩

theorem length_entry_bytes_le (content : Content) :
    content.member.entry.bytes.length ≤ content.weight := by
  rw [LocalEntry.length_bytes]
  show 30 + content.name.length + 6 + content.data.length ≤ _
  unfold Content.weight
  omega

theorem length_record_bytes_le (content : Content) (offset : ℕ) :
    (content.member.record offset).bytes.length ≤ content.weight := by
  rw [CentralRecord.length_bytes]
  show 46 + content.name.length + 6 ≤ _
  unfold Content.weight
  omega

/-- An entry that there is room for leaves the rest of the room. -/
theorem add_room {content : Content} {room : ℕ} (halloc : ∀ n, alloc n = true)
    (hsized : content.Sized) (h : b.Room (content.weight + room)) :
    (b.add alloc content).Room room := by
  have hlocal := length_entry_bytes_le content
  have hcentral := length_record_bytes_le content b.l.p.length
  obtain ⟨hl, hc, hlroom, hcroom⟩ := h
  have hlfailed : (b.xfEntry alloc content).l.failed = false := by
    rw [xfEntry_of_sized alloc hsized, foldl_putCentral, foldl_putLocal]
    apply puts_succeed alloc halloc hl
    rw [flatten_localPieces]
    show b.l.p.length + _ ≤ limit
    omega
  have hcfailed : (b.xfEntry alloc content).c.failed = false := by
    rw [xfEntry_of_sized alloc hsized, foldl_putCentral, foldl_putLocal]
    apply puts_succeed alloc halloc hc
    rw [flatten_centralPieces]
    show b.c.p.length + _ ≤ limit
    omega
  obtain ⟨-, -, -, hlp, hcp⟩ := xfEntry_ok alloc hlfailed hcfailed
  refine ⟨hlfailed, hcfailed, ?_, ?_⟩
  · show (b.xfEntry alloc content).l.p.length + room ≤ limit
    rw [hlp, List.length_append]
    omega
  · show (b.xfEntry alloc content).c.p.length + room ≤ limit
    rw [hcp, List.length_append]
    omega

theorem foldl_add_room {contents : List Content} {room : ℕ} (halloc : ∀ n, alloc n = true)
    (hsized : ∀ content ∈ contents, content.Sized)
    (h : b.Room ((contents.map Content.weight).sum + room)) :
    (contents.foldl (Builder.add alloc) b).Room room := by
  induction contents generalizing b with
  | nil =>
    rw [List.map_nil, List.sum_nil, Nat.zero_add] at h
    exact h
  | cons content contents ih =>
    rw [List.map_cons, List.sum_cons, Nat.add_assoc] at h
    exact ih (fun other hother => hsized other (List.mem_cons_of_mem _ hother))
      (add_room alloc halloc (hsized content List.mem_cons_self) h)

/-- While no buffer has failed, the buffers are about these contents. -/
structure Builder.Holds (b : Builder) (contents : List Content) : Prop where
  count : b.count = UInt16.ofNat contents.length
  sized : b.l.failed = false → b.c.failed = false → ∀ content ∈ contents, content.Sized
  entries : b.l.failed = false → b.c.failed = false → b.l.p = entries (members contents)
  directory : b.l.failed = false → b.c.failed = false → b.c.p = directory 0 (members contents)

theorem Builder.Holds.of_allocations {contents : List Content} (h : b.Holds contents)
    (allocations : ℕ) : Builder.Holds { b with allocations := allocations } contents :=
  ⟨h.count, h.sized, h.entries, h.directory⟩

theorem holds_new : Builder.new.Holds [] :=
  ⟨rfl, fun _ _ _ hmem => absurd hmem List.not_mem_nil, fun _ _ => rfl, fun _ _ => rfl⟩

theorem members_concat (contents : List Content) (content : Content) :
    members (contents ++ [content]) = members contents ++ [content.member] := by
  unfold members
  rw [List.map_append, List.map_singleton]

theorem add_holds {contents : List Content} (h : b.Holds contents) (content : Content) :
    (b.add alloc content).Holds (contents ++ [content]) where
  count := by
    show (b.xfEntry alloc content).count + 1 = _
    rw [xfEntry_count, h.count, List.length_append, List.length_singleton, UInt16.ofNat_add]
    rfl
  sized := by
    intro hl hc
    obtain ⟨hsized, hlocal, hcentral, -, -⟩ := xfEntry_ok alloc hl hc
    rw [List.forall_mem_append]
    exact ⟨h.sized hlocal hcentral, List.forall_mem_singleton.mpr hsized⟩
  entries := by
    intro hl hc
    obtain ⟨-, hlocal, hcentral, hlp, -⟩ := xfEntry_ok alloc hl hc
    rw [members_concat, entries_concat, ← h.entries hlocal hcentral]
    exact hlp
  directory := by
    intro hl hc
    obtain ⟨-, hlocal, hcentral, -, hcp⟩ := xfEntry_ok alloc hl hc
    rw [members_concat, directory_concat, ← h.entries hlocal hcentral,
      ← h.directory hlocal hcentral]
    exact hcp

theorem foldl_add_holds {contents : List Content} (h : b.Holds contents) (more : List Content) :
    (more.foldl (Builder.add alloc) b).Holds (contents ++ more) := by
  induction more generalizing b contents with
  | nil =>
    rw [List.append_nil]
    exact h
  | cons content more ih =>
    rw [List.foldl_cons, ← List.singleton_append, ← List.append_assoc]
    exact ih (add_holds alloc h content)

end Entries

section Closing

variable (alloc : ℕ → Bool) {b : Builder} {contents : List Content}

def closingPieces (b : Builder) : List Bytes :=
  [b.c.p, xfU32 0x06054b50, xfU16 0, xfU16 0, xfU16 b.count, xfU16 b.count,
    xfU32 (UInt32.ofNat b.c.p.length), xfU32 (UInt32.ofNat b.l.p.length), xfU16 0]

theorem close_l (b : Builder) :
    (b.close alloc).l = (puts alloc (b.l, b.allocations) (closingPieces b)).1 := by
  show ((closingPieces b).foldl (Builder.putLocal alloc) b).l = _
  rw [foldl_putLocal]

theorem close_c (b : Builder) : (b.close alloc).c = b.c := by
  show ((closingPieces b).foldl (Builder.putLocal alloc) b).c = _
  rw [foldl_putLocal]

theorem length_flatten_closingPieces (b : Builder) :
    (closingPieces b).flatten.length = b.c.p.length + 22 := by
  simp only [closingPieces, xfU16_eq, xfU32_eq, List.length_flatten, List.map_cons, List.map_nil,
    length_leBytes, List.sum_cons, List.sum_nil]
  omega

theorem length_members (contents : List Content) : (members contents).length = contents.length :=
  List.length_map _

/-- The buffers of a builder that has not failed are closed to an archive. -/
theorem close_ok (h : b.Holds contents) (hl : (b.close alloc).l.failed = false)
    (hc : (b.close alloc).c.failed = false) :
    (∀ content ∈ contents, content.Sized) ∧
      (b.close alloc).l.p = archive (members contents) ∧
      (archive (members contents)).length ≤ limit := by
  rw [close_c] at hc
  rw [close_l] at hl
  obtain ⟨hfailed, hp⟩ := puts_ok alloc hl
  have hlength : (puts alloc (b.l, b.allocations) (closingPieces b)).1.p.length ≤ limit :=
    puts_length_le alloc (List.cons_ne_nil _ _) hl
  have hpieces : (closingPieces b).flatten = directory 0 (members contents) ++
      fields (endLayout (members contents).length (directory 0 (members contents)).length
        (entries (members contents)).length) := by
    rw [closingPieces, h.count, h.entries hfailed hc, h.directory hfailed hc, length_members]
    simp only [xfU16_ofNat, xfU32_ofNat, List.flatten_cons, List.flatten_nil, List.append_nil]
    simp only [xfU16_eq, xfU32_eq, endLayout, fields, List.flatMap_cons, List.flatMap_nil,
      List.append_nil]
    rfl
  have harchive : (b.close alloc).l.p = archive (members contents) := by
    rw [close_l, hp, hpieces, h.entries hfailed hc]
    rfl
  rw [← close_l, harchive] at hlength
  exact ⟨h.sized hfailed hc, harchive, hlength⟩

theorem close_succeeds (halloc : ∀ n, alloc n = true) (hl : b.l.failed = false)
    (hc : b.c.failed = false) (hroom : b.l.p.length + b.c.p.length + 22 ≤ limit) :
    (b.close alloc).l.failed = false ∧ (b.close alloc).c.failed = false := by
  rw [close_c, close_l]
  refine ⟨puts_succeed alloc halloc hl ?_, hc⟩
  rw [length_flatten_closingPieces]
  show b.l.p.length + (b.c.p.length + 22) ≤ limit
  omega

theorem Content.Sized.fits {content : Content} (h : content.Sized) : content.member.Fits := by
  have hname : content.name.length < 65536 := Nat.lt_succ_of_le h.name
  have hdata : content.data.length < 4294967296 := Nat.lt_succ_of_le h.data
  have hcrc : (xfCrc content.data).toNat < 4294967296 := UInt32.toNat_lt _
  have hexternal : (content.mode <<< 16).toNat < 4294967296 := UInt32.toNat_lt _
  have hextra : content.member.extra.length = 6 := length_fields _
  constructor
  · simp only [LocalEntry.Fits, LocalEntry.layout, List.forall_mem_cons, Member.entry, hextra]
    simp [Content.member, hname, hdata, hcrc]
  · intro offset hoffset
    simp only [CentralRecord.Fits, CentralRecord.layout, List.forall_mem_cons, Member.record, hextra]
    simp only [Content.member]
    simp [hname, hdata, hcrc, hexternal, -UInt32.toNat_shiftLeft]
    exact hoffset

/-- The archive is read back if its members can be counted. -/
theorem readArchive_members (hsized : ∀ content ∈ contents, content.Sized)
    (hcount : contents.length < 2 ^ 16) (hlength : (archive (members contents)).length ≤ limit) :
    readArchive (archive (members contents)) = some (members contents) := by
  have hlimit : limit < 2 ^ 32 := by decide
  rw [archive, List.length_append, List.length_append] at hlength
  apply readArchive_archive
  · intro member hmember
    obtain ⟨content, hcontent, rfl⟩ := List.mem_map.mp hmember
    exact (hsized content hcontent).fits
  · rw [length_members]
    exact hcount
  · omega
  · omega

end Closing

section Build

variable (alloc : ℕ → Bool) {tail metadata : Bytes}

def contents (tail metadata : Bytes) : List Content :=
  leading metadata ++ (link tail :: (directories tail ++ [marker]))

/-- The builder when all entries are in. -/
def filled (tail metadata : Bytes) : Builder :=
  let b := (leading metadata).foldl (Builder.add alloc) .new
  (link tail :: (directories tail ++ [marker])).foldl (Builder.add alloc)
    { b with allocations := b.allocations + 2 }

theorem filled_holds (tail metadata : Bytes) :
    (filled alloc tail metadata).Holds (contents tail metadata) := by
  have hleading := foldl_add_holds alloc holds_new (leading metadata)
  rw [List.nil_append] at hleading
  exact foldl_add_holds alloc (hleading.of_allocations _) _

theorem length_contents (tail metadata : Bytes) :
    (contents tail metadata).length = (components tail).length + 7 := by
  simp only [contents, leading, List.length_append, List.length_cons, List.length_nil,
    length_directories]
  omega

theorem directory_length_le {content : Content} (h : content ∈ directories tail) :
    content.name.length ≤ tail.length + 1 ∧ content.data.length = 0 := by
  unfold directories at h
  rw [List.mem_map] at h
  obtain ⟨i, -, rfl⟩ := h
  refine ⟨?_, rfl⟩
  rw [List.length_append, List.length_take, List.length_singleton]
  omega

theorem sized_of_accepted (h : Accepted tail) (hmetadata : metadata.length ≤ 4096) :
    ∀ content ∈ contents tail metadata, content.Sized := by
  have hlength := h.length
  have hdirectories : ∀ content ∈ directories tail, content.Sized := by
    intro content hcontent
    obtain ⟨hname, hdata⟩ := directory_length_le hcontent
    exact ⟨by omega, by omega⟩
  have hlink : (link tail).Sized := by
    constructor
    · simp [link, chars]
    · simp [link, chars]
      omega
  have hmarker : marker.Sized := by
    constructor <;> simp [marker, chars]
  have hleading : ∀ content ∈ leading metadata, content.Sized := by
    simp only [leading, List.forall_mem_cons]
    refine ⟨?_, ?_, ?_, ?_, ?_, List.forall_mem_nil _⟩
    all_goals constructor <;> simp [chars]
    omega
  unfold contents
  rw [List.forall_mem_append, List.forall_mem_cons, List.forall_mem_append]
  exact ⟨hleading, hlink, hdirectories, List.forall_mem_singleton.mpr hmarker⟩

/-- All entries together are small. -/
theorem weight_le (h : Accepted tail) (hmetadata : metadata.length ≤ 4096) :
    ((contents tail metadata).map Content.weight).sum ≤ 150000 := by
  have hlength := h.length
  have hdirectories : ((directories tail).map Content.weight).sum ≤ 64 * 2101 := by
    have hle := List.sum_le_card_nsmul ((directories tail).map Content.weight) 2101 (by
      intro weight hweight
      obtain ⟨content, hcontent, rfl⟩ := List.mem_map.mp hweight
      obtain ⟨hname, hdata⟩ := directory_length_le hcontent
      unfold Content.weight
      omega)
    rw [List.length_map, length_directories, smul_eq_mul] at hle
    exact hle.trans (Nat.mul_le_mul_right _ h.count)
  have hleading : ((leading metadata).map Content.weight).sum ≤ 323 + 4096 := by
    simp [leading, Content.weight, chars]
    omega
  have hlink : (link tail).weight ≤ 74 + 2048 := by
    simp [link, Content.weight, chars]
    omega
  have hmarker : marker.weight = 73 := by simp [marker, Content.weight, chars]
  simp only [contents, List.map_append, List.map_cons, List.map_nil, List.sum_append, List.sum_cons,
    List.sum_nil]
  omega

theorem filled_room {room : ℕ} (halloc : ∀ n, alloc n = true) (h : Accepted tail)
    (hmetadata : metadata.length ≤ 4096)
    (hroom : ((contents tail metadata).map Content.weight).sum + room ≤ limit) :
    (filled alloc tail metadata).Room room := by
  have hsized := sized_of_accepted h hmetadata
  unfold contents at hsized hroom
  rw [List.forall_mem_append] at hsized
  rw [List.map_append, List.sum_append, Nat.add_assoc] at hroom
  have hnew : Builder.new.Room (((leading metadata).map Content.weight).sum +
      (((link tail :: (directories tail ++ [marker])).map Content.weight).sum + room)) := by
    refine ⟨rfl, rfl, ?_, ?_⟩
    all_goals
      rw [← Nat.zero_add (_ + _)] at hroom
      exact hroom
  have hleading := foldl_add_room alloc halloc hsized.1 hnew
  exact foldl_add_room alloc halloc hsized.2 (hleading.of_allocations _)

/-- Without a failed allocation the builder is closed. -/
theorem filled_closes (halloc : ∀ n, alloc n = true) (h : Accepted tail)
    (hmetadata : metadata.length ≤ 4096) :
    ((filled alloc tail metadata).close alloc).l.failed = false ∧
      ((filled alloc tail metadata).close alloc).c.failed = false := by
  have hweight := weight_le h hmetadata
  have hlimit : limit = 8388608 := rfl
  have hroom : (filled alloc tail metadata).Room (limit - 150000) :=
    filled_room alloc halloc h hmetadata (by omega)
  obtain ⟨hl, hc, hlroom, hcroom⟩ := hroom
  exact close_succeeds alloc halloc hl hc (by omega)

theorem xfAtcBuildDirectoryZip_eq (tail : CString) (metadata : Bytes) (outputs : Outputs) :
    xfAtcBuildDirectoryZip alloc (some tail) (some metadata) true outputs =
      if metadata = [] || 4096 < metadata.length || !tailValid tail.bytes then (-1, .cleared)
      else
        let b := (leading metadata).foldl (Builder.add alloc) .new
        if !(alloc b.allocations && alloc (b.allocations + 1)) then (-2, .cleared)
        else
          let b := (filled alloc tail.bytes metadata).close alloc
          if b.l.failed || b.c.failed then (-2, .cleared)
          else (0, ⟨some b.l.p, b.l.p.length⟩) := by
  unfold filled
  simp only [List.foldl_cons, List.foldl_append, List.foldl_nil]
  rfl

/-- A member's content; its mode is the upper half of the external attributes. -/
def contentOf (member : Member) : Content :=
  ⟨member.name, member.data, UInt32.ofNat (member.external / 2 ^ 16)⟩

theorem contentOf_member {content : Content} (h : content.mode.toNat < 2 ^ 16) :
    contentOf content.member = content := by
  have hmode : UInt32.ofNat ((content.mode <<< 16).toNat / 2 ^ 16) = content.mode := by
    apply UInt32.toNat_inj.mp
    simp [Nat.shiftLeft_eq]
    omega
  exact congrArg (Content.mk content.name content.data) hmode

theorem mode_lt : ∀ content ∈ contents tail metadata, content.mode.toNat < 2 ^ 16 := by
  have hdirectory : directoryMode.toNat < 2 ^ 16 := by decide
  have hfile : fileMode.toNat < 2 ^ 16 := by decide
  have hlink : linkMode.toNat < 2 ^ 16 := by decide
  have hdirectories : ∀ content ∈ directories tail, content.mode.toNat < 2 ^ 16 := by
    intro content hcontent
    rw [directories_eq, List.mem_map] at hcontent
    obtain ⟨path, -, rfl⟩ := hcontent
    exact hdirectory
  unfold contents leading
  simp only [List.forall_mem_append, List.forall_mem_cons]
  exact ⟨⟨hdirectory, hfile, hdirectory, hdirectory, hdirectory, List.forall_mem_nil _⟩, hlink,
    hdirectories, hfile, List.forall_mem_nil _⟩

/-- The members that the archive for a tail has. -/
structure IsDirectoryZip (tail metadata : Bytes) (members : List Member) : Prop where
  contents : members.map contentOf = leading metadata ++ (link tail ::
    ((prefixes (components tail)).map (fun path => ⟨path ++ [slash], [], directoryMode⟩) ++
      [marker]))
  checksums : ∀ member ∈ members, ∃ crc : UInt32,
    member.crc = crc.toNat ∧ Crc.IsCrc32 member.data crc

theorem isDirectoryZip_members (tail metadata : Bytes) :
    IsDirectoryZip tail metadata (members (contents tail metadata)) where
  contents := by
    rw [← directories_eq, members, List.map_map]
    have hmap : (contents tail metadata).map (contentOf ∘ Content.member) =
        (contents tail metadata).map id :=
      List.map_congr_left fun content hcontent => contentOf_member (mode_lt content hcontent)
    rw [hmap, List.map_id]
    rfl
  checksums := by
    intro member hmember
    obtain ⟨content, -, rfl⟩ := List.mem_map.mp hmember
    exact ⟨xfCrc content.data, rfl, isCrc32_xfCrc content.data⟩

/-- A closed builder holds the archive for the tail. -/
theorem filled_archive (h : Accepted tail)
    (hl : ((filled alloc tail metadata).close alloc).l.failed = false)
    (hc : ((filled alloc tail metadata).close alloc).c.failed = false) :
    readArchive ((filled alloc tail metadata).close alloc).l.p =
      some (members (contents tail metadata)) := by
  obtain ⟨hsized, harchive, hlength⟩ := close_ok alloc (filled_holds alloc tail metadata) hl hc
  rw [harchive]
  apply readArchive_members hsized ?_ hlength
  have hcount := h.count
  rw [length_contents]
  omega

theorem not_refused_iff (tail metadata : Bytes) :
    ¬ (metadata = [] || 4096 < metadata.length || !tailValid tail) = true ↔
      metadata ≠ [] ∧ metadata.length ≤ 4096 ∧ Accepted tail := by
  rw [← tailValid_iff]
  simp [and_assoc]

theorem cleared_of_ne_zero {tail : Option CString} {metadata : Option Bytes} {outputs : Outputs}
    (h : (xfAtcBuildDirectoryZip alloc tail metadata true outputs).1 ≠ 0) :
    (xfAtcBuildDirectoryZip alloc tail metadata true outputs).2 = .cleared := by
  cases tail with
  | none => rfl
  | some tail =>
    cases metadata with
    | none => rfl
    | some metadata =>
      rw [xfAtcBuildDirectoryZip_eq] at h ⊢
      simp only at h ⊢
      split_ifs at h ⊢
      · rfl
      · rfl
      · rfl
      · exact absurd rfl h

theorem archive_of_zero {tail : CString} {metadata : Bytes} {outputs : Outputs}
    (h : (xfAtcBuildDirectoryZip alloc (some tail) (some metadata) true outputs).1 = 0) :
    Accepted tail.bytes ∧ ∃ file members,
      (xfAtcBuildDirectoryZip alloc (some tail) (some metadata) true outputs).2 =
        ⟨some file, file.length⟩ ∧
      readArchive file = some members ∧ IsDirectoryZip tail.bytes metadata members := by
  rw [xfAtcBuildDirectoryZip_eq] at h ⊢
  simp only at h ⊢
  split_ifs at h ⊢ with hrefused halloc hfailed
  · exact absurd h (by decide)
  · exact absurd h (by decide)
  · exact absurd h (by decide)
  · obtain ⟨-, -, haccepted⟩ := (not_refused_iff tail.bytes metadata).mp hrefused
    simp only [Bool.or_eq_true, not_or, Bool.not_eq_true] at hfailed
    exact ⟨haccepted, _, _, rfl, filled_archive alloc haccepted hfailed.1 hfailed.2,
      isDirectoryZip_members tail.bytes metadata⟩

theorem zero_of_accepted {tail : CString} {metadata : Bytes} (outputs : Outputs)
    (halloc : ∀ n, alloc n = true) (hempty : metadata ≠ []) (hmetadata : metadata.length ≤ 4096)
    (h : Accepted tail.bytes) :
    (xfAtcBuildDirectoryZip alloc (some tail) (some metadata) true outputs).1 = 0 := by
  obtain ⟨hl, hc⟩ := filled_closes alloc halloc h hmetadata
  rw [xfAtcBuildDirectoryZip_eq,
    if_neg ((not_refused_iff tail.bytes metadata).mpr ⟨hempty, hmetadata, h⟩)]
  simp only [halloc, hl, hc, Bool.and_self, Bool.not_true, Bool.or_self, Bool.false_eq_true,
    if_false]

/-- The code is 0 with the archive for an accepted tail in the outputs; with another code
they are cleared. Without a failed allocation every accepted tail gets its archive. -/
theorem builds_directory_zip (tail : Option CString) (metadata : Option Bytes) (outputs : Outputs) :
    let result := xfAtcBuildDirectoryZip alloc tail metadata true outputs
    (result.1 = 0 → ∃ text data file members, tail = some text ∧ metadata = some data ∧
      Accepted text.bytes ∧ result.2 = ⟨some file, file.length⟩ ∧
        readArchive file = some members ∧ IsDirectoryZip text.bytes data members) ∧
    (result.1 ≠ 0 → result.2 = .cleared) ∧
    ((∀ n, alloc n = true) → ∀ text data, tail = some text → metadata = some data →
      1 ≤ data.length → data.length ≤ 4096 → (result.1 = 0 ↔ Accepted text.bytes)) := by
  intro result
  refine ⟨?_, cleared_of_ne_zero alloc, ?_⟩
  · intro hzero
    cases tail with
    | none => cases hzero
    | some text =>
      cases metadata with
      | none => cases hzero
      | some data =>
        obtain ⟨haccepted, file, members, hfile⟩ := archive_of_zero alloc hzero
        exact ⟨text, data, file, members, rfl, rfl, haccepted, hfile⟩
  · rintro halloc text data rfl rfl hpos hle
    constructor
    · intro hzero
      exact (archive_of_zero alloc hzero).1
    · exact zero_of_accepted alloc outputs halloc (List.length_pos_iff.mp hpos) hle

theorem builds_directory_zip_single :
    (xfAtcBuildDirectoryZip (fun _ => true) (some ⟨chars "a", by decide⟩) (some [1]) true
      .cleared).1 = 0 :=
  ((builds_directory_zip (fun _ => true) (some ⟨chars "a", by decide⟩) (some [1]) .cleared).2.2
    (fun _ => rfl) _ _ rfl rfl (by decide) (by decide)).mpr
    ⟨by decide, by decide, by decide, by decide⟩

end Build

end XitForge.Directory.AtcZip
