import XitForge.RustSlice
import XitForge.RustText
import XitForge.Separators

/-!
The packets of the GDB remote protocol, and the client that writes them in two places and reads
them in one. The reader looks for the end of a packet and leaves its data as they are.
-/
namespace XitForge.DebugProxy

open RustEval RustSlice RustText ByteStream

abbrev Text := List Char

def plus : UInt8 := 0x2B

def dollar : UInt8 := 0x24

def hash : UInt8 := 0x23

def comma : UInt8 := 0x2C

/-- A digit, with the letters from a first one on. -/
def hexDigit (letter : UInt8) (n : ℕ) : UInt8 :=
  if n < 10 then 0x30 + UInt8.ofNat n else letter + UInt8.ofNat (n - 10)

/-- Two digits of a byte. -/
def hexByte (letter byte : UInt8) : Bytes :=
  [hexDigit letter (byte.toNat / 16), hexDigit letter (byte.toNat % 16)]

section Client

/-- `{byte:02X}` of each byte. -/
def hexEncode (bytes : Bytes) : Bytes := bytes.flatMap (hexByte 0x41)

def calculateChecksum (data : Bytes) : Bytes := hexByte 0x61 (data.foldl (· + ·) 0)

structure DebugserverCommand where
  name : Text
  argv : List Text

inductive DebugError where
  | socket
  | invalidArgument
  | utf8
  deriving DecidableEq

/-- What a call returns, what it has written, and what is left to read. -/
structure Outcome (α : Type) where
  result : Except DebugError α
  written : Bytes
  rest : Bytes

/-- Whether there is an acknowledgment, where one is waited for. -/
def readAck (noackMode : Bool) (input : Bytes) : Option (Bool × Bytes) :=
  if noackMode then some (true, input)
  else
    match input with
    | [] => none
    | first :: rest => some (first = plus, rest)

def readResponse (noackMode : Bool) (input : Bytes) : Outcome (Option Text) :=
  match readAck noackMode input with
  | none => ⟨.error .socket, [], []⟩
  | some (false, rest) => ⟨.ok none, [], rest⟩
  | some (true, []) => ⟨.error .socket, [], []⟩
  | some (true, first :: rest) =>
    if first ≠ dollar then ⟨.ok none, [], rest⟩
    else
      match Separators.splitOnce hash rest with
      | none => ⟨.error .socket, [], []⟩
      | some (buffer, rest) =>
        match splitExact 2 rest with
        | none => ⟨.error .socket, [], []⟩
        | some (_, rest) =>
          let ack := if noackMode then [] else [plus]
          match fromUtf8 buffer with
          | some response => ⟨.ok (some response), ack, rest⟩
          | none => ⟨.error .utf8, ack, rest⟩

def sendCommand (noackMode : Bool) (command : DebugserverCommand) (input : Bytes) :
    Outcome (Option Text) :=
  let hexArgs := command.argv.flatMap fun arg => hexEncode (utf8 arg)
  let packetData := utf8 command.name ++ hexArgs
  let checksum := calculateChecksum packetData
  let packet := dollar :: packetData ++ hash :: checksum
  let response := readResponse noackMode input
  { response with written := packet ++ response.written }

def decimal (n : ℕ) : Bytes := utf8 (Nat.repr n).toList

/-- `format!(",{},{},", arg.len() * 2, i)` -/
def argPrefix (i : ℕ) (arg : Bytes) : Bytes :=
  comma :: decimal (arg.length * 2) ++ comma :: decimal i ++ [comma]

/-- The sum over the arguments from one of them on. -/
def packetLength : ℕ → List Bytes → ℕ
  | _, [] => 0
  | i, arg :: rest => (argPrefix i arg).length + arg.length * 2 + packetLength (i + 1) rest

/-- A piece at the place in the packet, and the place behind it. -/
def put (piece : Bytes) (packet : Bytes × ℕ) : Eval DebugError (Bytes × ℕ) := do
  let pkt ← copyInto packet.1 packet.2 piece
  .ok (pkt, packet.2 + piece.length)

def putBytes : Bytes → Bytes × ℕ → Eval DebugError (Bytes × ℕ)
  | [], packet => .ok packet
  | byte :: rest, packet => do
    let packet ← put (hexByte 0x41 byte) packet
    putBytes rest packet

def putArgs : ℕ → List Bytes → Bytes × ℕ → Eval DebugError (Bytes × ℕ)
  | _, [], packet => .ok packet
  | i, arg :: rest, packet => do
    let packet ← put (argPrefix i arg) packet
    let packet ← putBytes arg packet
    putArgs (i + 1) rest packet

/-- What `set_argv` writes. Its answer is whatever a read of sixteen bytes finds. -/
def setArgv (argv : List Text) : Eval DebugError Bytes :=
  if argv = [] then .err .invalidArgument
  else do
    let args := argv.map utf8
    let pkt := List.replicate (packetLength 0 args + 1) 0
    let (pkt, _) ← putArgs 0 args (pkt, 0)
    match pkt with
    | [] => .panic
    | _ :: rest => .ok (0x41 :: rest)

end Client

section Packets

/-- The bytes that data may not have as they are. -/
def reserved (byte : UInt8) : Bool := byte = hash || byte = dollar || byte = 0x7D || byte = 0x2A

/-- The sum of the bytes of data, as two digits. -/
def checksum (data : Bytes) : Bytes :=
  hexByte 0x61 (UInt8.ofNat ((data.map UInt8.toNat).sum % 256))

def packet (data : Bytes) : Bytes := dollar :: data ++ hash :: checksum data

/-- `}` and another byte in the place of one that is reserved. -/
def escape (data : Bytes) : Bytes :=
  data.flatMap fun byte => if reserved byte then [0x7D, byte ^^^ 0x20] else [byte]

/-- One argument, with the number of its digits and its index. -/
def argItem (i : ℕ) (arg : Bytes) : Bytes :=
  decimal (hexEncode arg).length ++ comma :: decimal i ++ comma :: hexEncode arg

/-- `A` and the arguments, with commas between them. -/
def argvData (argv : List Text) : Bytes :=
  0x41 :: List.intercalate [comma] ((argv.map utf8).mapIdx argItem)

theorem calculateChecksum_eq (data : Bytes) : calculateChecksum data = checksum data := by
  have hsum (acc : UInt8) : data.foldl (· + ·) acc =
      UInt8.ofNat ((acc.toNat + (data.map UInt8.toNat).sum) % 256) := by
    induction data generalizing acc with
    | nil =>
      rw [List.map_nil, List.sum_nil, Nat.add_zero, Nat.mod_eq_of_lt acc.toNat_lt]
      exact (UInt8.ofNat_toNat).symm
    | cons byte data ih =>
      rw [List.foldl_cons, ih, List.map_cons, List.sum_cons, UInt8.toNat_add, Nat.mod_add_mod,
        Nat.add_assoc]
  unfold calculateChecksum checksum
  rw [hsum, UInt8.toNat_zero, Nat.zero_add]

end Packets

section Commands

theorem hexDigit_upper {n : ℕ} (h : n < 16) : reserved (hexDigit 0x41 n) = false := by
  have hall : ∀ n < 16, reserved (hexDigit 0x41 n) = false := by decide
  exact hall n h

theorem notReserved_hexEncode {bytes : Bytes} {byte : UInt8} (h : byte ∈ hexEncode bytes) :
    reserved byte = false := by
  obtain ⟨source, _, hbyte⟩ := List.mem_flatMap.mp h
  have hlt := source.toNat_lt
  simp only [hexByte, List.mem_cons, List.not_mem_nil, or_false] at hbyte
  rcases hbyte with rfl | rfl
  · exact hexDigit_upper (by omega)
  · exact hexDigit_upper (by omega)

theorem length_hexEncode (bytes : Bytes) : (hexEncode bytes).length = bytes.length * 2 := by
  induction bytes with
  | nil => rfl
  | cons byte bytes ih =>
    have hcons : hexEncode (byte :: bytes) = hexByte 0x41 byte ++ hexEncode bytes := rfl
    rw [hcons, List.length_append, ih, List.length_cons]
    change 2 + _ = _
    omega

/-- The arguments as they are put into the packet, from one of them on. -/
def argBytes : ℕ → List Bytes → Bytes
  | _, [] => []
  | i, arg :: rest => argPrefix i arg ++ (hexEncode arg ++ argBytes (i + 1) rest)

/-- A piece over as many zeros. -/
theorem put_eq (front piece : Bytes) (count : ℕ) :
    put piece (front ++ List.replicate (piece.length + count) 0, front.length) =
      .ok ((front ++ piece) ++ List.replicate count 0, (front ++ piece).length) := by
  unfold put
  dsimp only
  rw [List.replicate_add, ← List.append_assoc, copyInto_append front _ (by simp), Eval.ok_bind,
    List.length_append]

theorem putBytes_eq (front bytes : Bytes) (count : ℕ) :
    putBytes bytes (front ++ List.replicate (bytes.length * 2 + count) 0, front.length) =
      .ok ((front ++ hexEncode bytes) ++ List.replicate count 0,
        (front ++ hexEncode bytes).length) := by
  induction bytes generalizing front with
  | nil => simp [putBytes, hexEncode]
  | cons byte bytes ih =>
    have hcount : (byte :: bytes).length * 2 + count =
        (hexByte 0x41 byte).length + (bytes.length * 2 + count) := by
      change (bytes.length + 1) * 2 + count = 2 + _
      omega
    have hcons : hexEncode (byte :: bytes) = hexByte 0x41 byte ++ hexEncode bytes := rfl
    rw [putBytes, hcount, put_eq, Eval.ok_bind, ih, hcons, List.append_assoc front]

theorem putArgs_eq (front : Bytes) (i : ℕ) (args : List Bytes) (count : ℕ) :
    putArgs i args (front ++ List.replicate (packetLength i args + count) 0, front.length) =
      .ok ((front ++ argBytes i args) ++ List.replicate count 0,
        (front ++ argBytes i args).length) := by
  induction args generalizing front i with
  | nil => simp [putArgs, argBytes, packetLength]
  | cons arg rest ih =>
    have hcount : packetLength i (arg :: rest) + count = (argPrefix i arg).length +
        (arg.length * 2 + (packetLength (i + 1) rest + count)) := by
      rw [packetLength]
      omega
    rw [putArgs, hcount, put_eq, Eval.ok_bind, putBytes_eq, Eval.ok_bind, ih, argBytes]
    simp only [List.append_assoc]

/-- The commas before the arguments are those between them, and one more. -/
theorem argBytes_eq (i : ℕ) (arg : Bytes) (rest : List Bytes) :
    argBytes i (arg :: rest) = comma :: List.intercalate [comma]
      ((arg :: rest).mapIdx fun index => argItem (i + index)) := by
  induction rest generalizing i arg with
  | nil => simp [argBytes, argPrefix, argItem, length_hexEncode]
  | cons second rest ih =>
    have hindex : (fun index => argItem (i + 1 + index)) = fun index => argItem (i + (index + 1)) := by
      funext index
      rw [Nat.add_assoc, Nat.add_comm 1 index]
    obtain ⟨item, items, hitems⟩ : ∃ item items,
        (second :: rest).mapIdx (fun index => argItem (i + (index + 1))) = item :: items :=
      ⟨_, _, List.mapIdx_cons⟩
    have hcons : (arg :: second :: rest).mapIdx (fun index => argItem (i + index)) =
        argItem i arg :: item :: items := by
      rw [List.mapIdx_cons, hitems, Nat.add_zero]
    rw [argBytes, ih, hindex, hitems, hcons, List.intercalate_cons_cons]
    simp [argPrefix, argItem, length_hexEncode]

/-- The arguments are written as they are documented, with neither the start of a packet nor
its end, and with the zero behind them that the packet was made longer for. -/
theorem setArgv_eq {argv : List Text} (h : argv ≠ []) : setArgv argv = .ok (argvData argv ++ [0]) := by
  obtain ⟨arg, rest, rfl⟩ := List.exists_cons_of_ne_nil h
  have hput := putArgs_eq [] 0 ((arg :: rest).map utf8) 1
  rw [List.map_cons, argBytes_eq] at hput
  simp only [Nat.zero_add, List.nil_append, List.length_nil] at hput
  unfold setArgv argvData
  rw [if_neg h, List.map_cons]
  dsimp only
  rw [hput]
  rfl

theorem sendCommand_written (noackMode : Bool) (command : DebugserverCommand) (input : Bytes) :
    (sendCommand noackMode command input).written =
      packet (utf8 command.name ++ command.argv.flatMap fun arg => hexEncode (utf8 arg)) ++
        (readResponse noackMode input).written := by
  unfold sendCommand packet
  dsimp only
  rw [calculateChecksum_eq]

/-- Behind a command, nothing is written but an acknowledgment. -/
theorem readResponse_written (noackMode : Bool) (input : Bytes) :
    (readResponse noackMode input).written = [] ∨
      (readResponse noackMode input).written = [plus] := by
  unfold readResponse
  repeat' split
  all_goals simp

end Commands

section Replies

variable {noackMode : Bool} {body digits suffix : Bytes}

/-- The acknowledgment in front of a reply, where one is waited for. -/
def ackBytes (noackMode : Bool) : Bytes := if noackMode then [] else [plus]

/-- The reader takes the data up to the end of the packet as they are, and any two digits. -/
theorem readResponse_packet (h : hash ∉ body) (hdigits : digits.length = 2) :
    (readResponse noackMode
      (ackBytes noackMode ++ dollar :: body ++ hash :: digits ++ suffix)).result =
        match fromUtf8 body with
        | some response => .ok (some response)
        | none => .error .utf8 := by
  have hinput : ackBytes noackMode ++ dollar :: body ++ hash :: digits ++ suffix =
      ackBytes noackMode ++ dollar :: (body ++ hash :: (digits ++ suffix)) := by simp
  have hack : readAck noackMode (ackBytes noackMode ++ dollar :: (body ++ hash :: (digits ++ suffix))) =
      some (true, dollar :: (body ++ hash :: (digits ++ suffix))) := by
    cases noackMode <;> rfl
  rw [hinput]
  unfold readResponse
  rw [hack]
  dsimp only
  rw [if_neg (not_not_intro rfl), Separators.splitOnce_append h]
  dsimp only
  rw [splitExact_append hdigits]
  cases fromUtf8 body <;> rfl

theorem hash_notMem_escape (payload : Bytes) : hash ∉ escape payload := by
  intro hmem
  obtain ⟨byte, _, hbyte⟩ := List.mem_flatMap.mp hmem
  split at hbyte
  · rename_i hreserved
    simp only [reserved, Bool.or_eq_true, decide_eq_true_eq] at hreserved
    rcases hreserved with ((rfl | rfl) | rfl) | rfl
    · exact absurd hbyte (by decide)
    · exact absurd hbyte (by decide)
    · exact absurd hbyte (by decide)
    · exact absurd hbyte (by decide)
  · rename_i hplain
    rw [← List.mem_singleton.mp hbyte] at hplain
    exact hplain rfl

theorem escape_eq_self {payload : Bytes} :
    escape payload = payload ↔ ∀ byte ∈ payload, reserved byte = false := by
  have hlong (payload : Bytes) : payload.length ≤ (escape payload).length := by
    induction payload with
    | nil => exact Nat.le_refl _
    | cons byte payload ih =>
      unfold escape at ih ⊢
      rw [List.flatMap_cons, List.length_append, List.length_cons]
      split
      · change _ ≤ 2 + _
        omega
      · change _ ≤ 1 + _
        omega
  induction payload with
  | nil => simp [escape]
  | cons byte payload ih =>
    rw [List.forall_mem_cons, ← propext ih]
    have hrest := hlong payload
    unfold escape at hrest ⊢
    rw [List.flatMap_cons]
    cases hreserved : reserved byte with
    | true =>
      constructor
      · intro h
        have hlength := congrArg List.length h
        rw [if_pos rfl] at hlength
        simp only [List.length_append, List.length_cons, List.length_nil] at hlength
        omega
      · intro h
        exact absurd h.1 (by simp)
    | false => simp

theorem fromUtf8_eq_some {bytes : Bytes} {text : Text} :
    fromUtf8 bytes = some text ↔ utf8 text = bytes := by
  constructor
  · intro h
    unfold fromUtf8 at h
    obtain ⟨heq, htext⟩ := Option.ite_none_right_eq_some.mp h
    rw [← Option.some.inj htext]
    exact heq
  · intro h
    rw [← h]
    exact fromUtf8_utf8 text

end Replies

section Protocol

/-- What is written or read: a command whose name has no reserved byte, arguments, a reply, and
a packet with the digits of another sum. -/
inductive Exchange where
  | command (command : DebugserverCommand)
      (plain : ∀ byte ∈ utf8 command.name, reserved byte = false)
  | argv (argv : List Text) (nonempty : argv ≠ [])
  | reply (payload : Bytes)
  | corrupt (body digits : Bytes) (plain : hash ∉ body) (length : digits.length = 2)
      (mismatch : digits ≠ checksum body)

/-- The exchange is as the protocol has it. -/
def Framed (noackMode : Bool) (input : Bytes) : Exchange → Prop
  | .command command _ =>
    ∃ data ack, data = utf8 command.name ++ (command.argv.flatMap fun arg => hexEncode (utf8 arg)) ∧
      (∀ byte ∈ data, reserved byte = false) ∧ (ack = [] ∨ ack = [plus]) ∧
      (sendCommand noackMode command input).written = packet data ++ ack
  | .argv argv _ => setArgv argv = .ok (packet (argvData argv))
  | .reply payload => ∃ response, utf8 response = payload ∧
      (readResponse noackMode
        (ackBytes noackMode ++ packet (escape payload) ++ input)).result = .ok (some response)
  | .corrupt body digits _ _ _ => ∀ response,
      (readResponse noackMode
        (ackBytes noackMode ++ dollar :: body ++ hash :: digits ++ input)).result ≠ .ok (some response)

/-- A command; never arguments; a reply that is text without a reserved byte; and a packet that
is no text. -/
def Kept : Exchange → Prop
  | .command _ _ => True
  | .argv _ _ => False
  | .reply payload =>
    (∃ response, utf8 response = payload) ∧ ∀ byte ∈ payload, reserved byte = false
  | .corrupt body _ _ _ _ => ¬ ∃ response, utf8 response = body

theorem framed_command (noackMode : Bool) (input : Bytes) (command : DebugserverCommand)
    (plain : ∀ byte ∈ utf8 command.name, reserved byte = false) :
    Framed noackMode input (.command command plain) := by
  refine ⟨_, _, rfl, fun byte hmem => ?_, readResponse_written noackMode input,
    sendCommand_written noackMode command input⟩
  rcases List.mem_append.mp hmem with hmem | hmem
  · exact plain byte hmem
  · obtain ⟨arg, _, hbyte⟩ := List.mem_flatMap.mp hmem
    exact notReserved_hexEncode hbyte

/-- Arguments are written without a frame. -/
theorem not_framed_setArgv (noackMode : Bool) (input : Bytes) {argv : List Text}
    (nonempty : argv ≠ []) : ¬ Framed noackMode input (.argv argv nonempty) := by
  intro h
  rw [Framed] at h
  rw [setArgv_eq nonempty] at h
  have hfirst : some (0x41 : UInt8) = some dollar := congrArg List.head? (Eval.ok.inj h)
  exact absurd hfirst (by decide)

/-- A reply is taken as it stands in the packet. -/
theorem framed_reply_iff (noackMode : Bool) (input payload : Bytes) :
    Framed noackMode input (.reply payload) ↔ Kept (.reply payload) := by
  have hread : (readResponse noackMode
      (ackBytes noackMode ++ packet (escape payload) ++ input)).result =
        match fromUtf8 (escape payload) with
        | some response => .ok (some response)
        | none => .error .utf8 := by
    have hpacket := @readResponse_packet noackMode (escape payload) (checksum (escape payload))
      input (hash_notMem_escape payload) rfl
    unfold packet
    rw [← List.append_assoc]
    exact hpacket
  rw [Framed, Kept, hread, ← escape_eq_self]
  constructor
  · intro h
    obtain ⟨response, rfl, hresponse⟩ := h
    split at hresponse
    · rename_i text htext
      cases hresponse
      exact ⟨⟨response, rfl⟩, (fromUtf8_eq_some.mp htext).symm⟩
    · cases hresponse
  · intro h
    obtain ⟨⟨response, rfl⟩, hescape⟩ := h
    rw [hescape, fromUtf8_utf8]
    exact ⟨response, rfl, rfl⟩

/-- The digits are not compared with the sum. -/
theorem framed_corrupt_iff (noackMode : Bool) (input : Bytes) {body digits : Bytes}
    (plain : hash ∉ body) (length : digits.length = 2) (mismatch : digits ≠ checksum body) :
    Framed noackMode input (.corrupt body digits plain length mismatch) ↔
      Kept (.corrupt body digits plain length mismatch) := by
  rw [Framed, Kept, readResponse_packet plain length]
  constructor
  · intro h hexists
    obtain ⟨response, hresponse⟩ := hexists
    rw [fromUtf8_eq_some.mpr hresponse] at h
    exact h response rfl
  · intro h response hresult
    split at hresult
    · rename_i text htext
      exact h ⟨text, fromUtf8_eq_some.mp htext⟩
    · cases hresult

theorem exchange_framed_iff (noackMode : Bool) (input : Bytes) (exchange : Exchange) :
    Framed noackMode input exchange ↔ Kept exchange := by
  cases exchange with
  | command command plain =>
    exact iff_of_true (framed_command noackMode input command plain) trivial
  | argv argv nonempty => exact iff_of_false (not_framed_setArgv noackMode input nonempty) id
  | reply payload => exact framed_reply_iff noackMode input payload
  | corrupt body digits plain length mismatch =>
    exact framed_corrupt_iff noackMode input plain length mismatch

/-- One argument. -/
theorem not_framed_argv : ¬ Framed true [] (.argv [['x']] (List.cons_ne_nil _ _)) :=
  not_framed_setArgv true [] (List.cons_ne_nil _ _)

end Protocol

end XitForge.DebugProxy
