import Mathlib.Algebra.Ring.Nat
import XitForge.Afc.Client

/-!
Reading and writing a whole file. A device answers a read with as few bytes as it likes;
`read` asks for what is left until it has it, and `write` sends the bytes in pieces of at most
one transfer.
-/
namespace XitForge.Afc

open AfcClient

section Runs

structure Request where
  operation : AfcOpcode
  headerPayload : Bytes
  payload : Bytes
  deriving DecidableEq, Repr

/-- What an operation comes to, the requests that it has made, and the peer behind them. -/
structure Outcome (S α : Type) where
  result : Except Error α
  requests : List Request
  peer : S

variable {S α β : Type} (respond : S → Request → Except Error AfcPacket × S)

/-- An operation with a peer that answers each request before the next one is made. -/
def Task.run : Task α → S → Outcome S α
  | .done value, peer => ⟨.ok value, [], peer⟩
  | .failed error, peer => ⟨.error error, [], peer⟩
  | .exchange operation headerPayload payload next, peer =>
    match respond peer ⟨operation, headerPayload, payload⟩ with
    | (.ok response, peer) =>
      let outcome := Task.run (next response) peer
      { outcome with requests := ⟨operation, headerPayload, payload⟩ :: outcome.requests }
    | (.error error, peer) => ⟨.error error, [⟨operation, headerPayload, payload⟩], peer⟩

/-- The operation returns this value and leaves the peer so. -/
def Task.Gives (task : Task α) (peer : S) (value : α) (peer' : S) : Prop :=
  (task.run respond peer).result = .ok value ∧ (task.run respond peer).peer = peer'

variable {respond} {peer peer' peer'' : S} {task : Task α} {next : α → Task β} {value : α}
  {value' : β}

theorem Task.gives_done : (Task.done value).Gives respond peer value peer := ⟨rfl, rfl⟩

theorem Task.Gives.bind (h : task.Gives respond peer value peer')
    (hnext : (next value).Gives respond peer' value' peer'') :
    (task >>= next).Gives respond peer value' peer'' := by
  induction task generalizing peer with
  | done other =>
    obtain ⟨hvalue, hpeer⟩ := h
    cases hvalue
    cases hpeer
    exact hnext
  | failed error => cases h.1
  | exchange operation headerPayload payload rest ih =>
    obtain ⟨hvalue, hpeer⟩ := h
    unfold Task.run at hvalue hpeer
    show (Task.exchange operation headerPayload payload fun response =>
      (rest response).bind next).Gives respond peer value' peer''
    unfold Task.Gives Task.run
    split at hvalue
    · rename_i response between heq
      rw [heq] at hpeer
      exact ih response ⟨hvalue, hpeer⟩
    · cases hvalue

theorem gives_sendOp {operation : AfcOpcode} {headerPayload payload : Bytes}
    {response : AfcPacket}
    (h : respond peer ⟨operation, headerPayload, payload⟩ = (.ok response, peer')) :
    (sendOp operation headerPayload payload).Gives respond peer response peer' := by
  unfold sendOp Task.Gives Task.run
  rw [h]
  exact ⟨rfl, rfl⟩

theorem gives_ofOption {error : Error} {option : Option α} (h : option = some value) :
    (Task.ofOption error option).Gives respond peer value peer := by
  subst h
  exact ⟨rfl, rfl⟩

end Runs

section Device

/-- Attributes that `get_file_info` accepts, with this size. -/
structure Describes (payload : Bytes) (size : ℕ) : Prop where
  size : (valueOf (parseKvPayload payload) "st_size").bind parseUsize = some size
  blocks : ∃ blocks, (valueOf (parseKvPayload payload) "st_blocks").bind parseUsize = some blocks
  birthtime : ∃ time, (valueOf (parseKvPayload payload) "st_birthtime").bind parseI64 = some time
  mtime : ∃ time, (valueOf (parseKvPayload payload) "st_mtime").bind parseI64 = some time
  nlink : ∃ links, valueOf (parseKvPayload payload) "st_nlink" = some links
  ifmt : ∃ format, valueOf (parseKvPayload payload) "st_ifmt" = some format

/-- A device with an open file: a read gives some of the bytes from the cursor on, as many as
were asked for at most, and none only at the end; the cursor moves behind them. -/
structure FileDevice (fd : ℕ) (path content : Bytes) where
  State : Type
  respond : State → Request → Except Error AfcPacket × State
  cursor : State → ℕ
  tell : ∀ s, ∃ response s', respond s ⟨.fileTell, word fd, []⟩ = (.ok response, s') ∧
    cursor s' = cursor s ∧ 8 ≤ response.headerPayload.length ∧
    Xpc.leAt response.headerPayload 0 8 = cursor s
  info : ∀ s, ∃ response s', respond s ⟨.getFileInfo, path, []⟩ = (.ok response, s') ∧
    cursor s' = cursor s ∧ Describes response.payload content.length
  read : ∀ s n, 0 < n → n ≤ FileDescriptor.maxTransfer → ∃ response s',
    respond s ⟨.read, word fd ++ word n, []⟩ = (.ok response, s') ∧
    cursor s' = cursor s + response.payload.length ∧
    response.payload <+: content.drop (cursor s) ∧ response.payload.length ≤ n ∧
    (response.payload = [] → content.drop (cursor s) = [])

namespace FileDescriptor

variable {fd : ℕ} {path content : Bytes} (device : FileDevice fd path content)

theorem seekTell_gives (s : device.State) : ∃ s',
    (seekTell fd).Gives device.respond s (device.cursor s) s' ∧
      device.cursor s' = device.cursor s := by
  obtain ⟨response, s', hrespond, hcursor, hlength, hposition⟩ := device.tell s
  refine ⟨s', Task.Gives.bind (gives_sendOp hrespond) ?_, hcursor⟩
  rw [if_neg (Nat.not_lt.mpr hlength), hposition]
  exact Task.gives_done

theorem getFileInfo_gives (s : device.State) : ∃ info s',
    (getFileInfo path).Gives device.respond s info s' ∧ info.size = content.length ∧
      device.cursor s' = device.cursor s := by
  obtain ⟨response, s', hrespond, hcursor, hdescribes⟩ := device.info s
  obtain ⟨blocks, hblocks⟩ := hdescribes.blocks
  obtain ⟨birthtime, hbirthtime⟩ := hdescribes.birthtime
  obtain ⟨mtime, hmtime⟩ := hdescribes.mtime
  obtain ⟨nlink, hnlink⟩ := hdescribes.nlink
  obtain ⟨ifmt, hifmt⟩ := hdescribes.ifmt
  refine ⟨{ size := content.length, blocks := blocks, creation := birthtime, modified := mtime,
            stNlink := nlink, stIfmt := ifmt
            stLinkTarget := (valueOf (parseKvPayload response.payload) "LinkTarget").or
              (valueOf (parseKvPayload response.payload) "st_link_target") },
    s', ?_, rfl, hcursor⟩
  refine Task.Gives.bind (Task.Gives.bind (gives_sendOp hrespond) Task.gives_done) ?_
  refine Task.Gives.bind (gives_ofOption hdescribes.size) ?_
  refine Task.Gives.bind (gives_ofOption hblocks) ?_
  refine Task.Gives.bind (gives_ofOption hbirthtime) ?_
  refine Task.Gives.bind (gives_ofOption hmtime) ?_
  refine Task.Gives.bind (gives_ofOption hnlink) ?_
  refine Task.Gives.bind (gives_ofOption hifmt) ?_
  exact Task.gives_done

/-- What a read takes off the front of the rest. -/
theorem drop_of_prefix {cursor : ℕ} {part : Bytes} (h : part <+: content.drop cursor) :
    part ++ content.drop (cursor + part.length) = content.drop cursor := by
  obtain ⟨tail, htail⟩ := h
  rw [← List.drop_drop, ← htail, List.drop_left]

/-- The loop of `read_n`: a front of the rest, of at most as many bytes as are asked for, and
nothing only at the end. -/
theorem readChunks_gives (chunks : List ℕ) (h : ∀ chunk ∈ chunks, 0 < chunk ∧ chunk ≤ maxTransfer)
    (s : device.State) (collected : Bytes) : ∃ part s',
    (readChunks fd chunks collected).Gives device.respond s (collected ++ part) s' ∧
      device.cursor s' = device.cursor s + part.length ∧
      part <+: content.drop (device.cursor s) ∧ part.length ≤ chunks.sum ∧
      (chunks ≠ [] → part = [] → content.drop (device.cursor s) = []) := by
  induction chunks generalizing s collected with
  | nil =>
    refine ⟨[], s, ?_, rfl, List.nil_prefix, Nat.le_refl 0, fun hne => absurd rfl hne⟩
    rw [List.append_nil]
    exact Task.gives_done
  | cons chunk rest ih =>
    obtain ⟨hpos, hle⟩ := h chunk List.mem_cons_self
    obtain ⟨response, s', hrespond, hcursor, hprefix, hlength, hend⟩ :=
      device.read s chunk hpos hle
    by_cases hempty : response.payload = []
    · refine ⟨[], s', Task.Gives.bind (gives_sendOp hrespond) ?_, ?_, List.nil_prefix,
        Nat.zero_le _, fun _ _ => hend hempty⟩
      · rw [if_pos (by rw [hempty]; rfl), List.append_nil]
        exact Task.gives_done
      · rw [hcursor, hempty]
    · obtain ⟨part, s'', hgives, hcursor', hprefix', hlength', -⟩ :=
        ih (fun other hother => h other (List.mem_cons_of_mem _ hother)) s'
          (collected ++ response.payload)
      have hrest := drop_of_prefix hprefix
      refine ⟨response.payload ++ part, s'', Task.Gives.bind (gives_sendOp hrespond) ?_, ?_, ?_,
        ?_, fun _ hnil => absurd (List.append_eq_nil_iff.mp hnil).1 hempty⟩
      · rw [if_neg (by simpa using hempty), ← List.append_assoc]
        exact hgives
      · rw [hcursor', hcursor, List.length_append, Nat.add_assoc]
      · rw [hcursor] at hprefix'
        rw [← hrest]
        exact (List.prefix_append_right_inj _).mpr hprefix'
      · rw [List.length_append, List.sum_cons]
        exact Nat.add_le_add hlength hlength'

/-- A request of one transfer at most is one chunk. -/
theorem chunkNumber_of_le {n : ℕ} (hpos : 0 < n) (hle : n ≤ maxTransfer) : chunkNumber n = [n] := by
  have hrounds : (n + maxTransfer - 1) / maxTransfer = 1 := by
    unfold maxTransfer at hle ⊢
    omega
  unfold chunkNumber starts
  rw [hrounds, List.range_one, List.map_singleton, List.map_singleton, Nat.zero_mul, Nat.sub_zero,
    Nat.min_eq_left hle]

/-- The loop of `read` while it has as many rounds left as there are bytes: all of the rest. -/
theorem readLoop_gives (rounds : ℕ) (s : device.State) (collected : Bytes)
    (hrounds : (content.drop (device.cursor s)).length ≤ rounds) : ∃ s',
    (readLoop fd rounds (content.drop (device.cursor s)).length collected).Gives device.respond s
      (collected ++ content.drop (device.cursor s)) s' := by
  induction rounds generalizing s collected with
  | zero =>
    have hnil := List.length_eq_zero_iff.mp (Nat.le_zero.mp hrounds)
    rw [hnil, List.append_nil]
    exact ⟨s, Task.gives_done⟩
  | succ rounds ih =>
    unfold readLoop
    by_cases hnil : content.drop (device.cursor s) = []
    · rw [if_pos (by rw [hnil]; rfl), hnil, List.append_nil]
      exact ⟨s, Task.gives_done⟩
    · have hpos := List.length_pos_iff.mpr hnil
      have hwant : 0 < min (content.drop (device.cursor s)).length maxTransfer :=
        Nat.lt_min.mpr ⟨hpos, by decide⟩
      rw [if_neg (Nat.ne_of_gt hpos)]
      obtain ⟨part, s', hgives, hcursor, hprefix, hlength, hend⟩ := readChunks_gives device
        [min (content.drop (device.cursor s)).length maxTransfer]
        (List.forall_mem_singleton.mpr ⟨hwant, Nat.min_le_right ..⟩) s []
      have hpart : part ≠ [] := fun hpart => hnil (hend (List.cons_ne_nil _ _) hpart)
      have hrest := drop_of_prefix hprefix
      rw [← hcursor] at hrest
      have hlengths := congrArg List.length hrest
      rw [List.length_append] at hlengths
      have hless := List.length_pos_iff.mpr hpart
      obtain ⟨s'', hloop⟩ := ih s' (collected ++ part) (by omega)
      have hread : (readN fd (min (content.drop (device.cursor s)).length maxTransfer)).Gives
          device.respond s part s' := by
        unfold readN
        rw [chunkNumber_of_le hwant (Nat.min_le_right ..)]
        exact hgives
      have hleft : (content.drop (device.cursor s)).length - part.length =
          (content.drop (device.cursor s')).length := by omega
      refine ⟨s'', Task.Gives.bind hread ?_⟩
      rw [if_neg (by simpa using hpart), hleft, ← hrest, ← List.append_assoc]
      exact hloop

theorem read_gives (s : device.State) : ∃ s',
    (read fd path).Gives device.respond s (content.drop (device.cursor s)) s' := by
  obtain ⟨told, htell, hcursor⟩ := seekTell_gives device s
  obtain ⟨info, informed, hinfo, hsize, hcursor'⟩ := getFileInfo_gives device told
  have hsame : device.cursor informed = device.cursor s := hcursor'.trans hcursor
  have hleft : info.size - device.cursor s = (content.drop (device.cursor informed)).length := by
    rw [hsize, hsame, List.length_drop]
  obtain ⟨s', hloop⟩ := readLoop_gives device _ informed [] (Nat.le_refl _)
  refine ⟨s', Task.Gives.bind htell (Task.Gives.bind hinfo ?_)⟩
  rw [List.nil_append] at hloop
  rw [hleft, ← hsame]
  exact hloop

end FileDescriptor

end Device

section Write

variable {S : Type} (respond : S → Request → Except Error AfcPacket × S)

namespace FileDescriptor

/-- The pieces that `chunks` cuts. -/
def pieces (bytes : Bytes) : List Bytes :=
  (starts bytes.length).map fun start => (bytes.drop start).take maxTransfer

theorem flatten_front (bytes : Bytes) (count : ℕ) :
    (((List.range count).map (· * maxTransfer)).map fun start =>
      (bytes.drop start).take maxTransfer).flatten = bytes.take (count * maxTransfer) := by
  induction count with
  | zero =>
    rw [Nat.zero_mul, List.take_zero]
    rfl
  | succ count ih =>
    rw [List.range_succ, List.map_append, List.map_append, List.flatten_append, ih, Nat.succ_mul,
      List.take_add]
    simp only [List.map_cons, List.map_nil, List.flatten_singleton]

theorem flatten_pieces (bytes : Bytes) : (pieces bytes).flatten = bytes := by
  unfold pieces starts
  rw [flatten_front]
  apply List.take_of_length_le
  unfold maxTransfer
  omega

theorem start_lt {n size k : ℕ} (hsize : 0 < size) (h : k < (n + size - 1) / size) :
    k * size < n := by
  have hrounds := (Nat.le_div_iff_mul_le hsize).mp h
  rw [Nat.succ_mul] at hrounds
  omega

theorem length_of_mem_pieces {bytes piece : Bytes} (h : piece ∈ pieces bytes) :
    0 < piece.length ∧ piece.length ≤ maxTransfer := by
  have htransfer : 0 < maxTransfer := Nat.succ_pos _
  obtain ⟨start, hstart, rfl⟩ := List.mem_map.mp h
  obtain ⟨k, hk, rfl⟩ := List.mem_map.mp hstart
  have hlt := start_lt htransfer (List.mem_range.mp hk)
  rw [List.length_take, List.length_drop]
  exact ⟨Nat.lt_min.mpr ⟨htransfer, Nat.sub_pos_of_lt hlt⟩, Nat.min_le_left ..⟩

def writeRequest (fd : ℕ) (piece : Bytes) : Request := ⟨.write, word fd, piece⟩

/-- A peer that answers each write. -/
def Writable (fd : ℕ) : Prop :=
  ∀ peer payload, ∃ response peer',
    respond peer (writeRequest fd payload) = (.ok response, peer')

/-- The loop of `write`: a request for each piece up to the first that fails. -/
theorem writeChunks_run (fd : ℕ) (chunks : List Bytes) (peer : S) :
    ((writeChunks fd chunks).run respond peer).requests <+: chunks.map (writeRequest fd) ∧
      (((writeChunks fd chunks).run respond peer).result = .ok () →
        ((writeChunks fd chunks).run respond peer).requests = chunks.map (writeRequest fd)) ∧
      (Writable respond fd → ((writeChunks fd chunks).run respond peer).result = .ok ()) := by
  induction chunks generalizing peer with
  | nil => exact ⟨List.nil_prefix, fun _ => rfl, fun _ => rfl⟩
  | cons chunk rest ih =>
    have hrun : (writeChunks fd (chunk :: rest)).run respond peer =
        match respond peer (writeRequest fd chunk) with
        | (.ok _, peer) =>
          { (writeChunks fd rest).run respond peer with
            requests := writeRequest fd chunk :: ((writeChunks fd rest).run respond peer).requests }
        | (.error error, peer) => ⟨.error error, [writeRequest fd chunk], peer⟩ := by
      change
        (Task.exchange .write (word fd) chunk fun _ => writeChunks fd rest).run respond peer = _
      rw [Task.run]
      unfold writeRequest
      obtain ⟨answer, peer'⟩ := respond peer ⟨.write, word fd, chunk⟩
      cases answer <;> rfl
    rw [hrun]
    split
    · rename_i response peer' hrespond
      obtain ⟨hfront, hall, hanswered⟩ := ih peer'
      refine ⟨(List.prefix_cons_inj _).mpr hfront, ?_, hanswered⟩
      exact fun hok => congrArg (writeRequest fd chunk :: ·) (hall hok)
    · rename_i error peer' hrespond
      refine ⟨⟨rest.map (writeRequest fd), rfl⟩, (fun hok => nomatch hok), fun hwritable => ?_⟩
      obtain ⟨response, peer'', hwrite⟩ := hwritable peer chunk
      rw [hrespond] at hwrite
      cases hwrite

/-- `read` gives the bytes from the cursor to the end, however short the reads of the device
are; and `write` makes a request for each of the pieces that the bytes are cut into, of one
byte to one transfer, up to the first that fails if one does. -/
theorem whole_file {fd : ℕ} {path content : Bytes} (device : FileDevice fd path content)
    (s : device.State) (bytes : Bytes) (peer : S) :
    ((read fd path).run device.respond s).result = .ok (content.drop (device.cursor s)) ∧
      ∃ payloads : List Bytes, payloads.flatten = bytes ∧
        (∀ payload ∈ payloads, 1 ≤ payload.length ∧ payload.length ≤ 1024 * 1024) ∧
        ((write fd bytes).run respond peer).requests <+:
          payloads.map (fun payload => ⟨.write, word fd, payload⟩) ∧
        (((write fd bytes).run respond peer).result = .ok () →
          ((write fd bytes).run respond peer).requests =
            payloads.map fun payload => ⟨.write, word fd, payload⟩) ∧
        (Writable respond fd → ((write fd bytes).run respond peer).result = .ok ()) := by
  obtain ⟨s', hread⟩ := read_gives device s
  obtain ⟨hfront, hall, hanswered⟩ := writeChunks_run respond fd (pieces bytes) peer
  exact ⟨hread.1, pieces bytes, flatten_pieces bytes, fun payload => length_of_mem_pieces, hfront,
    hall, hanswered⟩

/-- `st_size` 3, `st_blocks` 1, no times, one link, and a format. -/
def attributes : Bytes :=
  [115, 116, 95, 115, 105, 122, 101, 0, 51, 0,
    115, 116, 95, 98, 108, 111, 99, 107, 115, 0, 49, 0,
    115, 116, 95, 98, 105, 114, 116, 104, 116, 105, 109, 101, 0, 48, 0,
    115, 116, 95, 109, 116, 105, 109, 101, 0, 48, 0,
    115, 116, 95, 110, 108, 105, 110, 107, 0, 49, 0,
    115, 116, 95, 105, 102, 109, 116, 0, 83, 0]

theorem describes_attributes : Describes attributes 3 where
  size := by decide +kernel
  blocks := ⟨1, by decide +kernel⟩
  birthtime := ⟨0, by decide +kernel⟩
  mtime := ⟨0, by decide +kernel⟩
  nlink := ⟨[49], by decide +kernel⟩
  ifmt := ⟨[83], by decide +kernel⟩

def answerWith (headerPayload payload : Bytes) : AfcPacket :=
  ⟨⟨magic, 40 + headerPayload.length + payload.length, 40 + headerPayload.length, 0, .data⟩,
    headerPayload, payload⟩

/-- The bytes 7, 8 and 9 in a file that gives one byte a time. -/
def byteDevice : FileDevice 1 [] [7, 8, 9] where
  State := Fin 4
  respond s request :=
    match request.operation with
    | .fileTell => (.ok (answerWith (word s) []), s)
    | .getFileInfo => (.ok (answerWith [] attributes), s)
    | .read => (.ok (answerWith [] (([7, 8, 9].drop s).take 1)), if s = 3 then 3 else s + 1)
    | _ => (.ok (answerWith [] []), s)
  cursor s := s
  tell s := by
    refine ⟨answerWith (word s) [], s, rfl, rfl, ?_, ?_⟩
    · revert s
      decide
    · revert s
      decide
  info s := ⟨answerWith [] attributes, s, rfl, rfl, describes_attributes⟩
  read s n hpos _ := by
    refine ⟨answerWith [] (([7, 8, 9].drop s).take 1), if s = 3 then 3 else s + 1, rfl, ?_, ?_,
      ?_, ?_⟩
    · revert s
      decide
    · exact List.take_prefix 1 _
    · exact (List.length_take_le 1 _).trans hpos
    · revert s
      decide

/-- One byte in, the other two are read and five are written. -/
theorem whole_file_bytes :
    ((read 1 []).run byteDevice.respond (1 : Fin 4)).result = .ok [8, 9] ∧
      ∃ payloads : List Bytes, payloads.flatten = [1, 2, 3, 4, 5] ∧
        ((write 1 [1, 2, 3, 4, 5]).run byteDevice.respond (3 : Fin 4)).requests =
          payloads.map fun payload => ⟨.write, word 1, payload⟩ := by
  obtain ⟨hread, payloads, hflatten, -, -, hall, hanswered⟩ :=
    whole_file byteDevice.respond byteDevice (1 : Fin 4) [1, 2, 3, 4, 5] (3 : Fin 4)
  exact ⟨hread, payloads, hflatten, hall (hanswered fun peer payload => ⟨_, _, rfl⟩)⟩

end FileDescriptor

end Write

end XitForge.Afc
