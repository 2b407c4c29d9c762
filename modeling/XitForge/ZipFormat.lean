import XitForge.ByteStream

/-!
ZIP archives of stored members, without comments. The local entries tile the file from its
start. Behind them the central directory has a record of each, and the end record tells
how many there are and where the directory stands.
-/
namespace XitForge.ZipFormat

open ByteStream

/-- A member, with what both of its records say of it. -/
structure Member where
  name : Bytes
  extra : Bytes
  data : Bytes
  crc : ℕ
  madeBy : ℕ
  needed : ℕ
  time : ℕ
  date : ℕ
  internal : ℕ
  external : ℕ
  deriving DecidableEq, Repr

section Records

/-- A local header and the data behind it. -/
structure LocalEntry where
  needed : ℕ
  time : ℕ
  date : ℕ
  crc : ℕ
  name : Bytes
  extra : Bytes
  data : Bytes
  deriving DecidableEq, Repr

/-- A record of the central directory. -/
structure CentralRecord where
  madeBy : ℕ
  needed : ℕ
  time : ℕ
  date : ℕ
  crc : ℕ
  size : ℕ
  internal : ℕ
  external : ℕ
  offset : ℕ
  name : Bytes
  extra : Bytes
  deriving DecidableEq, Repr

namespace LocalEntry

def layout (entry : LocalEntry) : List (ℕ × ℕ) :=
  [(4, 0x04034b50), (2, entry.needed), (2, 0), (2, 0), (2, entry.time), (2, entry.date),
    (4, entry.crc), (4, entry.data.length), (4, entry.data.length), (2, entry.name.length),
    (2, entry.extra.length)]

def bytes (entry : LocalEntry) : Bytes :=
  fields entry.layout ++ (entry.name ++ (entry.extra ++ entry.data))

def size (entry : LocalEntry) : ℕ :=
  30 + entry.name.length + entry.extra.length + entry.data.length

theorem length_bytes (entry : LocalEntry) : entry.bytes.length = entry.size := by
  simp only [bytes, size, layout, List.length_append, length_fields, List.map_cons, List.map_nil,
    List.sum_cons, List.sum_nil]
  omega

def Fits (entry : LocalEntry) : Prop := ∀ field ∈ entry.layout, field.2 < 256 ^ field.1

end LocalEntry

namespace CentralRecord

def layout (record : CentralRecord) : List (ℕ × ℕ) :=
  [(4, 0x02014b50), (2, record.madeBy), (2, record.needed), (2, 0), (2, 0), (2, record.time),
    (2, record.date), (4, record.crc), (4, record.size), (4, record.size), (2, record.name.length),
    (2, record.extra.length), (2, 0), (2, 0), (2, record.internal), (4, record.external),
    (4, record.offset)]

def bytes (record : CentralRecord) : Bytes :=
  fields record.layout ++ (record.name ++ record.extra)

theorem length_bytes (record : CentralRecord) :
    record.bytes.length = 46 + record.name.length + record.extra.length := by
  simp only [bytes, layout, List.length_append, length_fields, List.map_cons, List.map_nil,
    List.sum_cons, List.sum_nil]
  omega

def Fits (record : CentralRecord) : Prop := ∀ field ∈ record.layout, field.2 < 256 ^ field.1

end CentralRecord

/-- The end record, by the number of members and the place of the directory. -/
def endLayout (count size offset : ℕ) : List (ℕ × ℕ) :=
  [(4, 0x06054b50), (2, 0), (2, 0), (2, count), (2, count), (4, size), (4, offset), (2, 0)]

theorem length_endLayout (count size offset : ℕ) :
    (fields (endLayout count size offset)).length = 22 := by
  rw [length_fields]
  rfl

end Records

section Reading

def readLocal (stream : Bytes) : Option (LocalEntry × Bytes) := do
  let (values, rest) ← splitFields [4, 2, 2, 2, 2, 2, 4, 4, 4, 2, 2] stream
  match values with
  | [signature, needed, flags, method, time, date, crc, packed, size, nameLength, extraLength] =>
    if signature = 0x04034b50 ∧ flags = 0 ∧ method = 0 ∧ packed = size then
      let (name, rest) ← splitExact nameLength rest
      let (extra, rest) ← splitExact extraLength rest
      let (data, rest) ← splitExact size rest
      return (⟨needed, time, date, crc, name, extra, data⟩, rest)
    else none
  | _ => none

def readCentral (stream : Bytes) : Option (CentralRecord × Bytes) := do
  let (values, rest) ←
    splitFields [4, 2, 2, 2, 2, 2, 2, 4, 4, 4, 2, 2, 2, 2, 2, 4, 4] stream
  match values with
  | [signature, madeBy, needed, flags, method, time, date, crc, packed, size, nameLength,
      extraLength, commentLength, disk, internal, external, offset] =>
    if signature = 0x02014b50 ∧ flags = 0 ∧ method = 0 ∧ packed = size ∧ commentLength = 0 ∧
        disk = 0 then
      let (name, rest) ← splitExact nameLength rest
      let (extra, rest) ← splitExact extraLength rest
      return (⟨madeBy, needed, time, date, crc, size, internal, external, offset, name, extra⟩, rest)
    else none
  | _ => none

/-- That many records, and nothing behind them. -/
def readAll {R : Type} (read : Bytes → Option (R × Bytes)) : ℕ → Bytes → Option (List R)
  | 0, [] => some []
  | 0, _ :: _ => none
  | count + 1, stream => do
    let (first, rest) ← read stream
    let others ← readAll read count rest
    return first :: others

/-- Each record of the directory says what its local entry says, and where it stands. -/
def join : ℕ → List LocalEntry → List CentralRecord → Option (List Member)
  | _, [], [] => some []
  | position, entry :: entries, record :: records =>
    if record.offset = position ∧ record.name = entry.name ∧ record.extra = entry.extra ∧
        record.crc = entry.crc ∧ record.size = entry.data.length ∧ record.needed = entry.needed ∧
        record.time = entry.time ∧ record.date = entry.date then do
      let members ← join (position + entry.size) entries records
      return ⟨entry.name, entry.extra, entry.data, entry.crc, record.madeBy, entry.needed,
        entry.time, entry.date, record.internal, record.external⟩ :: members
    else none
  | _, _, _ => none

/-- The members of an archive: the entries fill the file up to the directory, and the
directory fills it up to the end record. -/
def readArchive (file : Bytes) : Option (List Member) := do
  let stop := file.length - 22
  let (values, rest) ← splitFields [4, 2, 2, 2, 2, 4, 4, 2] (file.drop stop)
  match values with
  | [signature, disk, directoryDisk, here, count, size, offset, commentLength] =>
    if signature = 0x06054b50 ∧ disk = 0 ∧ directoryDisk = 0 ∧ here = count ∧
        commentLength = 0 ∧ rest = [] ∧ offset + size = stop then
      let entries ← readAll readLocal count (file.take offset)
      let records ← readAll readCentral count ((file.take stop).drop offset)
      join 0 entries records
    else none
  | _ => none

end Reading

section Writing

namespace Member

def entry (member : Member) : LocalEntry where
  needed := member.needed
  time := member.time
  date := member.date
  crc := member.crc
  name := member.name
  extra := member.extra
  data := member.data

def record (member : Member) (offset : ℕ) : CentralRecord where
  madeBy := member.madeBy
  needed := member.needed
  time := member.time
  date := member.date
  crc := member.crc
  size := member.data.length
  internal := member.internal
  external := member.external
  offset := offset
  name := member.name
  extra := member.extra

/-- The fields of a member have room in its records, wherever it stands before 4 GiB. -/
structure Fits (member : Member) : Prop where
  entry : member.entry.Fits
  record : ∀ offset < 2 ^ 32, (member.record offset).Fits

end Member

def entries (members : List Member) : Bytes := members.flatMap fun member => member.entry.bytes

def records : ℕ → List Member → List CentralRecord
  | _, [] => []
  | position, member :: members =>
    member.record position :: records (position + member.entry.size) members

def directory (position : ℕ) (members : List Member) : Bytes :=
  (records position members).flatMap CentralRecord.bytes

/-- The archive of the members. -/
def archive (members : List Member) : Bytes :=
  entries members ++ (directory 0 members ++
    fields (endLayout members.length (directory 0 members).length (entries members).length))

end Writing

section RoundTrip

theorem readLocal_bytes {entry : LocalEntry} (h : entry.Fits) (rest : Bytes) :
    readLocal (entry.bytes ++ rest) = some (entry, rest) := by
  have hfields := splitFields_append entry.layout h (entry.name ++ (entry.extra ++ (entry.data ++ rest)))
  have hname : splitExact entry.name.length (entry.name ++ (entry.extra ++ (entry.data ++ rest))) =
      some (entry.name, entry.extra ++ (entry.data ++ rest)) := splitExact_append rfl _
  have hextra : splitExact entry.extra.length (entry.extra ++ (entry.data ++ rest)) =
      some (entry.extra, entry.data ++ rest) := splitExact_append rfl _
  have hdata : splitExact entry.data.length (entry.data ++ rest) = some (entry.data, rest) :=
    splitExact_append rfl _
  simp only [LocalEntry.layout, List.map_cons, List.map_nil] at hfields
  simp only [readLocal, LocalEntry.bytes, LocalEntry.layout, List.append_assoc, hfields, hname, hextra,
    hdata, Option.bind_eq_bind, Option.bind_some, and_self, if_true]
  rfl

theorem readCentral_bytes {record : CentralRecord} (h : record.Fits) (rest : Bytes) :
    readCentral (record.bytes ++ rest) = some (record, rest) := by
  have hfields := splitFields_append record.layout h (record.name ++ (record.extra ++ rest))
  have hname : splitExact record.name.length (record.name ++ (record.extra ++ rest)) =
      some (record.name, record.extra ++ rest) := splitExact_append rfl _
  have hextra : splitExact record.extra.length (record.extra ++ rest) = some (record.extra, rest) :=
    splitExact_append rfl _
  simp only [CentralRecord.layout, List.map_cons, List.map_nil] at hfields
  simp only [readCentral, CentralRecord.bytes, CentralRecord.layout, List.append_assoc, hfields, hname,
    hextra, Option.bind_eq_bind, Option.bind_some, and_self, if_true]
  rfl

theorem readAll_flatMap {R : Type} {read : Bytes → Option (R × Bytes)} {write : R → Bytes}
    {items : List R} (h : ∀ item ∈ items, ∀ rest, read (write item ++ rest) = some (item, rest)) :
    readAll read items.length (items.flatMap write) = some items := by
  induction items with
  | nil => rfl
  | cons item items ih =>
    have hrest := ih fun other hother => h other (List.mem_cons_of_mem _ hother)
    rw [List.length_cons, readAll, List.flatMap_cons, h item List.mem_cons_self]
    simp only [Option.bind_eq_bind, Option.bind_some, hrest]
    rfl

theorem join_records (position : ℕ) (members : List Member) :
    join position (members.map Member.entry) (records position members) = some members := by
  induction members generalizing position with
  | nil => rfl
  | cons member members ih =>
    rw [List.map_cons, records, join, if_pos ⟨rfl, rfl, rfl, rfl, rfl, rfl, rfl, rfl⟩, ih]
    rfl

theorem length_records (position : ℕ) (members : List Member) :
    (records position members).length = members.length := by
  induction members generalizing position with
  | nil => rfl
  | cons member members ih => rw [records, List.length_cons, ih, List.length_cons]

theorem entries_concat (members : List Member) (member : Member) :
    entries (members ++ [member]) = entries members ++ member.entry.bytes := by
  unfold entries
  rw [List.flatMap_append, List.flatMap_singleton]

theorem records_concat (position : ℕ) (members : List Member) (member : Member) :
    records position (members ++ [member]) =
      records position members ++ [member.record (position + (entries members).length)] := by
  induction members generalizing position with
  | nil => rfl
  | cons first members ih =>
    have hlength : (entries (first :: members)).length =
        first.entry.size + (entries members).length := by
      rw [entries, List.flatMap_cons, List.length_append, LocalEntry.length_bytes]
      rfl
    rw [List.cons_append, records, ih, records, hlength, Nat.add_assoc, List.cons_append]

/-- A further record points at the end of the entries. -/
theorem directory_concat (members : List Member) (member : Member) :
    directory 0 (members ++ [member]) =
      directory 0 members ++ (member.record (entries members).length).bytes := by
  unfold directory
  rw [records_concat, List.flatMap_append, List.flatMap_singleton, Nat.zero_add]

theorem length_entries (members : List Member) :
    (entries members).length = (members.map fun member => member.entry.size).sum := by
  unfold entries
  rw [List.length_flatMap]
  congr 1
  exact List.map_congr_left fun member _ => member.entry.length_bytes

/-- The records fit if the entries end before 4 GiB. -/
theorem fits_of_mem_records {members : List Member} {position : ℕ} {record : CentralRecord}
    (h : ∀ member ∈ members, member.Fits)
    (hlength : position + (members.map fun member => member.entry.size).sum < 2 ^ 32)
    (hrecord : record ∈ records position members) : record.Fits := by
  induction members generalizing position with
  | nil => cases hrecord
  | cons member members ih =>
    rw [List.map_cons, List.sum_cons] at hlength
    rcases List.mem_cons.mp hrecord with rfl | hrecord
    · exact (h member List.mem_cons_self).record position (by omega)
    · exact ih (fun other hother => h other (List.mem_cons_of_mem _ hother)) (by omega) hrecord

/-- An archive is read back. -/
theorem readArchive_archive {members : List Member} (h : ∀ member ∈ members, member.Fits)
    (hcount : members.length < 2 ^ 16) (hentries : (entries members).length < 2 ^ 32)
    (hdirectory : (directory 0 members).length < 2 ^ 32) :
    readArchive (archive members) = some members := by
  have hlength : (archive members).length =
      (entries members).length + (directory 0 members).length + 22 := by
    rw [archive, List.length_append, List.length_append, length_endLayout, Nat.add_assoc]
  have hstop : (archive members).length - 22 =
      (entries members).length + (directory 0 members).length := by omega
  have hsplit : archive members = (entries members ++ directory 0 members) ++
      fields (endLayout members.length (directory 0 members).length (entries members).length) := by
    rw [archive, List.append_assoc]
  have hbefore : (entries members ++ directory 0 members).length =
      (entries members).length + (directory 0 members).length := List.length_append
  have htail := splitFields_append
    (endLayout members.length (directory 0 members).length (entries members).length)
    (by simp [endLayout]; omega) []
  have hlocal : readAll readLocal members.length ((archive members).take (entries members).length) =
      some (members.map Member.entry) := by
    rw [archive, List.take_left]
    have hfits : ∀ item ∈ members.map Member.entry, item.Fits := by
      intro item hitem
      obtain ⟨member, hmember, rfl⟩ := List.mem_map.mp hitem
      exact (h member hmember).entry
    have hread := readAll_flatMap fun item hitem => readLocal_bytes (hfits item hitem)
    rwa [List.length_map, List.flatMap_map] at hread
  have hcentral : readAll readCentral members.length
      (((archive members).take ((entries members).length + (directory 0 members).length)).drop
        (entries members).length) = some (records 0 members) := by
    rw [hsplit, ← hbefore, List.take_left, List.drop_left]
    have hfits : ∀ item ∈ records 0 members, item.Fits := fun item hitem =>
      fits_of_mem_records h (by rw [← length_entries]; omega) hitem
    have hread := readAll_flatMap fun item hitem => readCentral_bytes (hfits item hitem)
    rwa [length_records] at hread
  have hend : (archive members).drop ((entries members).length + (directory 0 members).length) =
      fields (endLayout members.length (directory 0 members).length (entries members).length) := by
    rw [hsplit, ← hbefore, List.drop_left]
  rw [List.append_nil] at htail
  simp only [endLayout, List.map_cons, List.map_nil] at htail hend
  unfold readArchive
  simp only [hstop, hend, htail, Option.bind_eq_bind, Option.bind_some, hlocal, hcentral, and_self,
    if_true]
  exact join_records 0 members

end RoundTrip

end XitForge.ZipFormat
