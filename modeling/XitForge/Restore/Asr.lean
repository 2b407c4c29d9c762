import XitForge.ByteStream
import XitForge.Program

/-!
The ASR client that streams the filesystem image. An image reports a size and is read in
chunks until so many bytes were sent or a read returns none.
-/
namespace XitForge.Restore.Asr

open ByteStream Program Program.Prog

/-- `ASR_PAYLOAD_CHUNK_SIZE`. -/
def asrPayloadChunkSize : ℕ := 0x20000

/-- What `size` reports, and the bytes that are really there. -/
structure FilesystemImage where
  size : UInt64
  data : Bytes

/-- What the image, the handle for cancellation and the socket do, by the number of calls
before; a write that fails may have sent some of its bytes. -/
structure Surroundings where
  readFails : ℕ → Bool
  cancelled : ℕ → Bool
  sendFails : ℕ → Option ℕ
  /-- The build panics on overflow. -/
  checks : Bool

structure Session where
  written : Bytes := []
  reads : ℕ := 0
  questions : ℕ := 0
  sends : ℕ := 0

inductive AsrError where
  | image
  | cancelled
  | socket
  | missingOobOffset
  | missingOobLength
  | shortOobRead (wanted got : ℕ)
  deriving DecidableEq, Repr

section Client

variable (env : Surroundings) (image : FilesystemImage)

/-- As many bytes as requested, or fewer if the data ends there. -/
def readAt (offset len : ℕ) : Prog Session AsrError Bytes := fun s =>
  let s' := { s with reads := s.reads + 1 }
  if env.readFails s.reads then (.failed .image, s')
  else (.done ((image.data.drop offset).take len), s')

def isCancelled : Prog Session AsrError Bool := fun s =>
  (.done (env.cancelled s.questions), { s with questions := s.questions + 1 })

/-- `send_raw`, which counts the parts of the message less one. -/
def sendRaw (message : Bytes) : Prog Session AsrError Unit := fun s =>
  let s' := { s with sends := s.sends + 1 }
  if message = [] ∧ env.checks then (.stopped, s')
  else match env.sendFails s.sends with
    | none => (.done (), { s' with written := s.written ++ message })
    | some count => (.failed .socket, { s' with written := s.written ++ message.take count })

def handleOob (oobOffset oobLength : Option UInt64) : Prog Session AsrError Unit :=
  match oobOffset, oobLength with
  | none, _ => fail .missingOobOffset
  | some _, none => fail .missingOobLength
  | some offset, some length => do
    let data ← readAt env image offset.toNat length.toNat
    if data.length ≠ length.toNat then fail (.shortOobRead length.toNat data.length)
    else sendRaw env data

variable (sha1 : Bytes → Bytes) (checksumChunks : Bool)

/-- `while offset < length`; a read without bytes ends it. -/
def payloadLoop (offset : ℕ) : Prog Session AsrError Unit :=
  if _hlt : offset < image.size.toNat then do
    let cancelled ← isCancelled env
    if cancelled then fail .cancelled
    else do
      let chunk ← readAt env image offset (min asrPayloadChunkSize (image.size.toNat - offset))
      if hchunk : chunk = [] then return ()
      else do
        sendRaw env (chunk ++ if checksumChunks then sha1 chunk else [])
        have _hpos : 0 < chunk.length := List.length_pos_iff.mpr hchunk
        payloadLoop (offset + chunk.length)
  else return ()
termination_by image.size.toNat - offset

def sendPayload : Prog Session AsrError Unit := payloadLoop env image sha1 checksumChunks 0

end Client

section Transfer

/-- Chunks of the size, the last one possibly shorter. -/
def Cut (size : ℕ) : List Bytes → Prop
  | [] => True
  | [last] => 0 < last.length ∧ last.length ≤ size
  | chunk :: rest => chunk.length = size ∧ Cut size rest

/-- The chunks as they are sent. -/
def framed (sha1 : Bytes → Bytes) (checksumChunks : Bool) (chunks : List Bytes) : Bytes :=
  chunks.flatMap fun chunk => chunk ++ if checksumChunks then sha1 chunk else []

/-- As many bytes of the image as it reports were sent in chunks. -/
def Complete (image : FilesystemImage) (sha1 : Bytes → Bytes) (checksumChunks : Bool)
    (written : Bytes) : Prop :=
  ∃ chunks : List Bytes, Cut asrPayloadChunkSize chunks ∧ chunks.flatten <+: image.data ∧
    chunks.flatten.length = image.size.toNat ∧ written = framed sha1 checksumChunks chunks

variable {env : Surroundings} {image : FilesystemImage} {sha1 : Bytes → Bytes}
  {checksumChunks : Bool} {s s' : Session}

theorem readAt_eq_done {offset len : ℕ} {chunk : Bytes}
    (h : readAt env image offset len s = (.done chunk, s')) :
    chunk = (image.data.drop offset).take len ∧ s'.written = s.written := by
  unfold readAt at h
  dsimp only at h
  split at h
  · cases h
  · cases h
    exact ⟨rfl, rfl⟩

theorem sendRaw_eq_done {message : Bytes} (h : sendRaw env message s = (.done (), s')) :
    s'.written = s.written ++ message := by
  unfold sendRaw at h
  dsimp only at h
  split at h
  · cases h
  · split at h
    · cases h
      rfl
    · cases h

/-- What was requested out of band is sent whole, or not at all. -/
theorem handleOob_eq_done {offset length : UInt64}
    (h : handleOob env image (some offset) (some length) s = (.done (), s')) :
    s'.written = s.written ++ (image.data.drop offset.toNat).take length.toNat ∧
      offset.toNat + length.toNat ≤ max offset.toNat image.data.length := by
  obtain ⟨data, s₁, hread, h⟩ := bind_eq_done h
  obtain ⟨hdata, hwritten⟩ := readAt_eq_done hread
  split at h
  · cases h
  · rename_i hlength
    rw [not_not, hdata, List.length_take, List.length_drop] at hlength
    rw [← hwritten, ← hdata]
    exact ⟨sendRaw_eq_done h, by omega⟩

/-- Every chunk that is there in full is sent, and the loop goes on behind it. -/
theorem payloadLoop_eq_done {offset : ℕ} (hsize : image.size.toNat ≤ image.data.length)
    (hoffset : offset ≤ image.size.toNat)
    (h : payloadLoop env image sha1 checksumChunks offset s = (.done (), s')) :
    ∃ chunks : List Bytes, Cut asrPayloadChunkSize chunks ∧
      chunks.flatten = (image.data.drop offset).take (image.size.toNat - offset) ∧
      s'.written = s.written ++ framed sha1 checksumChunks chunks := by
  generalize hleft : image.size.toNat - offset = left
  induction left using Nat.strongRecOn generalizing offset s with
  | ind left ih =>
    rw [payloadLoop] at h
    split at h
    · rename_i hlt
      obtain ⟨cancelled, s₁, hquestion, h⟩ := bind_eq_done h
      cases hquestion
      split at h
      · cases h
      · obtain ⟨chunk, s₂, hread, h⟩ := bind_eq_done h
        obtain ⟨hchunk, hwritten⟩ := readAt_eq_done hread
        have hlength : chunk.length = min asrPayloadChunkSize left := by
          rw [hchunk, List.length_take, List.length_drop, hleft]
          omega
        have hchunkSize : 0 < asrPayloadChunkSize := by decide
        split at h
        · rename_i hnil
          rw [hnil, List.length_nil] at hlength
          omega
        · obtain ⟨_, s₃, hsend, h⟩ := bind_eq_done h
          have hsent := sendRaw_eq_done hsend
          obtain ⟨chunks, hcut, hflatten, hrest⟩ :=
            ih (left - chunk.length) (by omega) (by omega) h (by omega)
          refine ⟨chunk :: chunks, ?_, ?_, ?_⟩
          · cases chunks with
            | nil => exact ⟨by omega, by omega⟩
            | cons next rest =>
              -- bytes are left, so the chunk was not cut short
              refine ⟨?_, hcut⟩
              have hnext : 0 < next.length := by
                cases rest with
                | nil => exact hcut.1
                | cons other rest => rw [hcut.1]; exact hchunkSize
              have hbehind := congrArg List.length hflatten
              rw [List.flatten_cons, List.length_append, List.length_take] at hbehind
              omega
          · have hsplit : left = chunk.length + (left - chunk.length) := by omega
            have hchunk' : chunk = (image.data.drop offset).take chunk.length := by
              rw [hlength, ← hleft]
              exact hchunk
            rw [List.flatten_cons, hflatten, ← List.drop_drop, hsplit, List.take_add, ← hchunk']
            congr 2
            omega
          · rw [hrest, hsent, hwritten]
            simp [framed]
    · rename_i hge
      cases h
      refine ⟨[], trivial, ?_, by simp [framed]⟩
      have hzero : left = 0 := by omega
      rw [hzero, List.take_zero]
      rfl

/-- The surroundings in which nothing goes wrong. -/
def calm : Surroundings where
  readFails _ := false
  cancelled _ := false
  sendFails _ := none
  checks := true

/-- Whatever the image holds, the loop returns `Ok` where nothing goes wrong. -/
theorem payloadLoop_calm (offset : ℕ) :
    ∃ s', payloadLoop calm image sha1 checksumChunks offset s = (.done (), s') := by
  generalize hleft : image.size.toNat - offset = left
  induction left using Nat.strongRecOn generalizing offset s with
  | ind left ih =>
    rw [payloadLoop]
    split
    · rename_i hlt
      generalize hchunk : (image.data.drop offset).take
        (min asrPayloadChunkSize (image.size.toNat - offset)) = chunk
      have hquestion : isCancelled calm s = (.done false, { s with questions := s.questions + 1 }) := rfl
      rw [bind_done hquestion, if_neg Bool.false_ne_true]
      generalize { s with questions := s.questions + 1 } = s₁
      have hread : readAt calm image offset (min asrPayloadChunkSize (image.size.toNat - offset)) s₁ =
          (.done chunk, { s₁ with reads := s₁.reads + 1 }) := by
        rw [← hchunk]
        rfl
      rw [bind_done hread]
      generalize { s₁ with reads := s₁.reads + 1 } = s₂
      split
      · exact ⟨s₂, rfl⟩
      · rename_i hne
        have hpos : 0 < chunk.length := List.length_pos_iff.mpr hne
        have hsend : sendRaw calm (chunk ++ if checksumChunks then sha1 chunk else []) s₂ =
            (.done (), { s₂ with
              sends := s₂.sends + 1
              written := s₂.written ++ (chunk ++ if checksumChunks then sha1 chunk else []) }) := by
          unfold sendRaw
          rw [if_neg (by simp [hne])]
          rfl
        rw [bind_done hsend]
        exact ih (left - chunk.length) (by omega) _ (by omega)
    · exact ⟨s, rfl⟩

/-- A transfer that returns `Ok` sent the whole image, exactly if the image is as long as
it reports. -/
theorem sendPayload_complete_iff (image : FilesystemImage) (sha1 : Bytes → Bytes)
    (checksumChunks : Bool) :
    (∀ env s s', sendPayload env image sha1 checksumChunks s = (.done (), s') →
      ∃ written, s'.written = s.written ++ written ∧
        Complete image sha1 checksumChunks written) ↔
      image.size.toNat ≤ image.data.length := by
  constructor
  · intro h
    obtain ⟨s', hdone⟩ := payloadLoop_calm 0
    obtain ⟨written, -, chunks, -, hfront, hlength, -⟩ := h calm {} s' hdone
    rw [← hlength]
    exact hfront.length_le
  · intro hsize env s s' hdone
    obtain ⟨chunks, hcut, hflatten, hwritten⟩ :=
      payloadLoop_eq_done hsize (Nat.zero_le _) hdone
    rw [List.drop_zero, Nat.sub_zero] at hflatten
    refine ⟨_, hwritten, chunks, hcut, ?_, ?_, rfl⟩
    · rw [hflatten]
      exact List.take_prefix _ _
    · rw [hflatten, List.length_take]
      omega

/-- An image without its only byte is sent as nothing, and the device is told no error. -/
theorem truncated_image_accepted :
    ¬ ∀ (image : FilesystemImage) (sha1 : Bytes → Bytes) (checksumChunks : Bool) (env : Surroundings)
      (s s' : Session), sendPayload env image sha1 checksumChunks s = (.done (), s') →
        ∃ written, s'.written = s.written ++ written ∧
          Complete image sha1 checksumChunks written := by
  intro h
  obtain ⟨s', hdone⟩ := payloadLoop_calm 0
  obtain ⟨written, -, chunks, -, hfront, hlength, -⟩ := h ⟨1, []⟩ id false calm {} s' hdone
  have hle := hfront.length_le
  rw [hlength] at hle
  exact absurd hle (by decide)

end Transfer

end XitForge.Restore.Asr
