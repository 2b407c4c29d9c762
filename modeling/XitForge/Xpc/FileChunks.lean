import XitForge.Xpc.Channel

/-!
Download of a file over its own stream. The device may send a message header
without a body before the content; the reader looks for such a header at the
start of every payload, where the bytes of the file may look like one.
-/
namespace XitForge.Xpc

open RustEval

/-- `strip_xpc_wrapper_prefix`: what is behind the wrapper, and whether there was one. -/
def stripXpcWrapperPrefix (checks : Bool) (buf : List UInt8) :
    Eval IdeviceError (List UInt8 × Bool) :=
  if buf.length < 24 then .ok (buf, false)
  else if leAt buf 0 4 ≠ XPCMessage.magic then .ok (buf, false)
  else do
    let wrapperLen ← add64 checks 24 (leAt buf 8 8)
    if buf.length < wrapperLen then return (buf, false)
    else return (buf.drop wrapperLen, true)

inductive FileEnd where
  | ended
  /-- `read` waits for a payload that does not come. -/
  | waiting
  | panicked
  deriving DecidableEq, Repr

structure FileChunks where
  yielded : List (List UInt8)
  ending : FileEnd
  deriving DecidableEq, Repr

/-- The loop of `iter_file_chunks`, with the payloads that `read` returns. -/
def fileLoop (checks : Bool) (totalSize : ℕ) : ℕ → List (List UInt8) → FileChunks
  | got, payloads =>
    if totalSize ≤ got then ⟨[], .ended⟩
    else
      match payloads with
      | [] => ⟨[], .waiting⟩
      | bytes :: payloads =>
        match stripXpcWrapperPrefix checks bytes with
        | .ok (after, stripped) =>
          if stripped ∧ after.isEmpty then fileLoop checks totalSize got payloads
          else
            let data := if stripped then after else bytes
            if data.isEmpty then fileLoop checks totalSize got payloads
            else
              match (add64 checks got data.length : Eval IdeviceError ℕ) with
              | .ok got =>
                let chunks := fileLoop checks totalSize got payloads
                ⟨data :: chunks.yielded, chunks.ending⟩
              | _ => ⟨[], .panicked⟩
        | _ => ⟨[], .panicked⟩

/-- `iter_file_chunks`. -/
def iterFileChunks (checks : Bool) (totalSize : ℕ) (payloads : List (List UInt8)) : FileChunks :=
  fileLoop checks totalSize 0 payloads

/-- A wrapper without a body. -/
def Bodyless (bytes : List UInt8) : Prop :=
  bytes.length = 24 ∧ leAt bytes 0 4 = XPCMessage.magic ∧ leAt bytes 8 8 = 0

/-- The device sends the content in these payloads, maybe behind a wrapper. -/
def SentIn (content : List UInt8) (payloads : List (List UInt8)) : Prop :=
  ∃ lead, (lead = [] ∨ Bodyless lead) ∧ payloads.flatten = lead ++ content

/-- The chunks are the content, and the stream ends behind it. -/
def Preserved (content : List UInt8) (payloads : List (List UInt8)) : Prop :=
  ∀ checks, (iterFileChunks checks content.length payloads).ending = .ended ∧
    (iterFileChunks checks content.length payloads).yielded.flatten = content

/-- The payload begins like a wrapper whose body is in it or ends past a `usize`. -/
def LooksWrapped (bytes : List UInt8) : Prop :=
  24 ≤ bytes.length ∧ leAt bytes 0 4 = XPCMessage.magic ∧
    (24 + leAt bytes 8 8 ≤ bytes.length ∨ 2 ^ 64 ≤ 24 + leAt bytes 8 8)

/-- The payload begins with a wrapper without a body. -/
def Leads (bytes : List UInt8) : Prop :=
  24 ≤ bytes.length ∧ leAt bytes 0 4 = XPCMessage.magic ∧ leAt bytes 8 8 = 0

/-- No payload looks wrapped up to the end of the content, apart from one with a
wrapper without a body, and without this wrapper the payloads are the content. -/
def Unmistakable (content : List UInt8) (payloads : List (List UInt8)) : Prop :=
  ∃ before after, payloads = before ++ after ∧ (∀ bytes ∈ before, ¬ LooksWrapped bytes) ∧
    (before.flatten = content ∨
      ∃ first rest, after = first :: rest ∧ Leads first ∧ (∀ bytes ∈ rest, ¬ LooksWrapped bytes) ∧
        before.flatten ++ (first.drop 24 ++ rest.flatten) = content)

section Strip

variable {checks : Bool} {bytes : List UInt8}

theorem strip_plain (h : ¬ LooksWrapped bytes) :
    stripXpcWrapperPrefix checks bytes = .ok (bytes, false) := by
  unfold stripXpcWrapperPrefix
  by_cases hlength : bytes.length < 24
  · rw [if_pos hlength]
  rw [if_neg hlength]
  by_cases hmagic : leAt bytes 0 4 = XPCMessage.magic
  · have hbody : ¬ (24 + leAt bytes 8 8 ≤ bytes.length ∨ 2 ^ 64 ≤ 24 + leAt bytes 8 8) :=
      fun hbody => h ⟨Nat.not_lt.mp hlength, hmagic, hbody⟩
    rw [if_neg (not_not.mpr hmagic), add64_of_lt (by omega), Eval.ok_bind, if_pos (by omega)]
    rfl
  · rw [if_pos hmagic]

theorem strip_leads (h : Leads bytes) :
    stripXpcWrapperPrefix checks bytes = .ok (bytes.drop 24, true) := by
  obtain ⟨hlength, hmagic, hbody⟩ := h
  unfold stripXpcWrapperPrefix
  rw [if_neg (by omega), if_neg (not_not.mpr hmagic), hbody, add64_of_lt (by omega), Eval.ok_bind,
    if_neg (by omega)]
  rfl

/-- A build with checks panics, or takes a whole wrapper off. -/
theorem strip_wrapped (h : LooksWrapped bytes) :
    stripXpcWrapperPrefix true bytes = .panic ∨
      24 + leAt bytes 8 8 ≤ bytes.length ∧
        stripXpcWrapperPrefix true bytes = .ok (bytes.drop (24 + leAt bytes 8 8), true) := by
  obtain ⟨hlength, hmagic, hbody⟩ := h
  unfold stripXpcWrapperPrefix
  rw [if_neg (by omega), if_neg (not_not.mpr hmagic)]
  by_cases hfits : 24 + leAt bytes 8 8 < 2 ^ 64
  · have hinside : 24 + leAt bytes 8 8 ≤ bytes.length := by omega
    refine Or.inr ⟨hinside, ?_⟩
    rw [add64_of_lt hfits, Eval.ok_bind, if_neg (by omega)]
    rfl
  · refine Or.inl ?_
    unfold add64
    rw [if_neg hfits, if_pos rfl]
    rfl

end Strip

section Loop

variable {checks : Bool} {totalSize got : ℕ} {bytes : List UInt8} {payloads : List (List UInt8)}

theorem fileLoop_done (h : totalSize ≤ got) :
    fileLoop checks totalSize got payloads = ⟨[], .ended⟩ := by
  unfold fileLoop
  rw [if_pos h]

theorem fileLoop_nil (h : got < totalSize) :
    fileLoop checks totalSize got [] = ⟨[], .waiting⟩ := by
  unfold fileLoop
  rw [if_neg (Nat.not_le.mpr h)]

/-- A payload that is passed over. -/
theorem fileLoop_empty (h : got < totalSize) {stripped : Bool}
    (hstrip : stripXpcWrapperPrefix checks bytes = .ok ([], stripped))
    (hbytes : stripped = false → bytes = []) :
    fileLoop checks totalSize got (bytes :: payloads) = fileLoop checks totalSize got payloads := by
  rw [fileLoop, if_neg (Nat.not_le.mpr h)]
  simp only [hstrip]
  cases stripped with
  | true => simp
  | false => simp [hbytes rfl]

/-- A payload whose data is yielded. -/
theorem fileLoop_data (h : got < totalSize) {after data : List UInt8} {stripped : Bool}
    (hstrip : stripXpcWrapperPrefix checks bytes = .ok (after, stripped))
    (hdata : data = if stripped then after else bytes) (hne : data ≠ [])
    (hsum : got + data.length < 2 ^ 64) :
    fileLoop checks totalSize got (bytes :: payloads) =
      ⟨data :: (fileLoop checks totalSize (got + data.length) payloads).yielded,
        (fileLoop checks totalSize (got + data.length) payloads).ending⟩ := by
  have hempty : data.isEmpty = false := by
    cases data with
    | nil => exact absurd rfl hne
    | cons _ _ => rfl
  have hpure : ¬ (stripped = true ∧ after.isEmpty = true) := by
    intro ⟨hstripped, hafter⟩
    rw [hdata, if_pos hstripped, hafter] at hempty
    cases hempty
  rw [fileLoop, if_neg (Nat.not_le.mpr h)]
  simp only [hstrip, ← hdata, hempty, add64_of_lt hsum]
  rw [if_neg hpure]
  rfl

/-- Payloads that do not look wrapped are yielded as they are. -/
theorem fileLoop_plain {before after : List (List UInt8)} (hplain : ∀ bytes ∈ before, ¬ LooksWrapped bytes)
    (hsum : got + before.flatten.length ≤ totalSize) (htotal : totalSize < 2 ^ 64) :
    (fileLoop checks totalSize got (before ++ after)).ending =
        (fileLoop checks totalSize (got + before.flatten.length) after).ending ∧
      (fileLoop checks totalSize got (before ++ after)).yielded.flatten = before.flatten ++
        (fileLoop checks totalSize (got + before.flatten.length) after).yielded.flatten := by
  induction before generalizing got with
  | nil => simp
  | cons bytes before ih =>
    have hrest : ∀ bytes ∈ before, ¬ LooksWrapped bytes := by
      intro other hother
      exact hplain other (List.mem_cons_of_mem bytes hother)
    rw [List.flatten_cons, List.length_append] at hsum
    rw [List.flatten_cons, List.length_append, List.cons_append]
    by_cases hdone : totalSize ≤ got
    · have hnone : bytes ++ before.flatten = [] := by
        apply List.eq_nil_of_length_eq_zero
        rw [List.length_append]
        omega
      rw [fileLoop_done hdone, fileLoop_done (by omega), hnone]
      exact ⟨rfl, rfl⟩
    have hstrip : stripXpcWrapperPrefix checks bytes = .ok (bytes, false) :=
      strip_plain (hplain bytes List.mem_cons_self)
    by_cases hempty : bytes = []
    · rw [hempty] at hstrip hsum ⊢
      rw [fileLoop_empty (Nat.not_le.mp hdone) hstrip fun _ => rfl]
      simpa using ih hrest (by simpa using hsum)
    · have hdata : bytes = if false = true then bytes else bytes := rfl
      rw [fileLoop_data (Nat.not_le.mp hdone) hstrip hdata hempty (by omega)]
      obtain ⟨hending, hyielded⟩ := @ih (got + bytes.length) hrest (by omega)
      rw [Nat.add_assoc] at hending hyielded
      refine ⟨hending, ?_⟩
      rw [List.flatten_cons, hyielded, List.append_assoc]

theorem fileLoop_overflow (h : got < totalSize) {after data : List UInt8} {stripped : Bool}
    (hstrip : stripXpcWrapperPrefix true bytes = .ok (after, stripped))
    (hdata : data = if stripped then after else bytes) (hne : data ≠ [])
    (hsum : 2 ^ 64 ≤ got + data.length) :
    (fileLoop true totalSize got (bytes :: payloads)).ending = .panicked := by
  have hempty : data.isEmpty = false := by
    cases data with
    | nil => exact absurd rfl hne
    | cons _ _ => rfl
  have hpure : ¬ (stripped = true ∧ after.isEmpty = true) := by
    intro ⟨hstripped, hafter⟩
    rw [hdata, if_pos hstripped, hafter] at hempty
    cases hempty
  have hpanic : (add64 true got data.length : Eval IdeviceError ℕ) = .panic := by
    unfold add64
    rw [if_neg (Nat.not_lt.mpr hsum), if_pos rfl]
  rw [fileLoop, if_neg (Nat.not_le.mpr h)]
  simp only [hstrip, ← hdata, hempty, hpanic]
  rw [if_neg hpure]
  rfl

/-- What a payload adds, if the stream ends behind it. -/
theorem fileLoop_ended_data (h : got < totalSize) {after data : List UInt8} {stripped : Bool}
    (hstrip : stripXpcWrapperPrefix true bytes = .ok (after, stripped))
    (hdata : data = if stripped then after else bytes)
    (hended : (fileLoop true totalSize got (bytes :: payloads)).ending = .ended) :
    (fileLoop true totalSize (got + data.length) payloads).ending = .ended ∧
      (fileLoop true totalSize got (bytes :: payloads)).yielded.flatten =
        data ++ (fileLoop true totalSize (got + data.length) payloads).yielded.flatten := by
  by_cases hempty : data = []
  · have hskip : fileLoop true totalSize got (bytes :: payloads) =
        fileLoop true totalSize got payloads := by
      cases stripped with
      | true =>
        rw [hempty, if_pos rfl] at hdata
        have hnone : stripXpcWrapperPrefix true bytes = .ok ([], true) := by rw [hdata, hstrip]
        exact fileLoop_empty h hnone nofun
      | false =>
        rw [hempty, if_neg nofun] at hdata
        have hafter : after = [] := by
          have hlength : after = bytes := by
            unfold stripXpcWrapperPrefix at hstrip
            split at hstrip
            · cases hstrip
              rfl
            · split at hstrip
              · cases hstrip
                rfl
              · obtain ⟨wrapperLen, -, hrest⟩ := Eval.bind_eq_ok.mp hstrip
                split at hrest
                · cases hrest
                  rfl
                · cases hrest
          rw [hlength, ← hdata]
        rw [hafter] at hstrip
        exact fileLoop_empty h hstrip fun _ => hdata.symm
    rw [hskip] at hended ⊢
    rw [hempty]
    exact ⟨hended, rfl⟩
  · by_cases hsum : got + data.length < 2 ^ 64
    · rw [fileLoop_data h hstrip hdata hempty hsum] at hended ⊢
      exact ⟨hended, List.flatten_cons⟩
    · rw [fileLoop_overflow h hstrip hdata hempty (Nat.not_lt.mp hsum)] at hended
      cases hended

/-- A payload on the way to the end: it is yielded, or what is behind its wrapper. -/
theorem fileLoop_ended (h : got < totalSize)
    (hended : (fileLoop true totalSize got (bytes :: payloads)).ending = .ended) :
    ∃ data, (¬ LooksWrapped bytes ∧ data = bytes ∨
        LooksWrapped bytes ∧ data.length + (24 + leAt bytes 8 8) = bytes.length ∧
          data = bytes.drop (24 + leAt bytes 8 8)) ∧
      (fileLoop true totalSize (got + data.length) payloads).ending = .ended ∧
      (fileLoop true totalSize got (bytes :: payloads)).yielded.flatten =
        data ++ (fileLoop true totalSize (got + data.length) payloads).yielded.flatten := by
  by_cases hlooks : LooksWrapped bytes
  · rcases strip_wrapped hlooks with hpanic | ⟨hinside, hstrip⟩
    · rw [fileLoop, if_neg (Nat.not_le.mpr h)] at hended
      simp only [hpanic] at hended
      cases hended
    · refine ⟨bytes.drop (24 + leAt bytes 8 8), Or.inr ⟨hlooks, ?_, rfl⟩, ?_⟩
      · rw [List.length_drop]
        omega
      · exact fileLoop_ended_data h hstrip rfl hended
  · refine ⟨bytes, Or.inl ⟨hlooks, rfl⟩, ?_⟩
    exact fileLoop_ended_data h (strip_plain hlooks) rfl hended

/-- No more is yielded than there is, and all of it only of payloads that do not
look wrapped. -/
theorem fileLoop_ended_length
    (hended : (fileLoop true totalSize got payloads).ending = .ended) :
    (fileLoop true totalSize got payloads).yielded.flatten.length ≤ payloads.flatten.length ∧
      (payloads.flatten.length ≤ (fileLoop true totalSize got payloads).yielded.flatten.length →
        (∀ bytes ∈ payloads, ¬ LooksWrapped bytes) ∧
          (fileLoop true totalSize got payloads).yielded.flatten = payloads.flatten) := by
  induction payloads generalizing got with
  | nil =>
    by_cases hdone : totalSize ≤ got
    · rw [fileLoop_done hdone]
      simp
    · rw [fileLoop_nil (Nat.not_le.mp hdone)] at hended
      cases hended
  | cons bytes payloads ih =>
    by_cases hdone : totalSize ≤ got
    · rw [fileLoop_done hdone]
      refine ⟨Nat.zero_le _, ?_⟩
      intro hzero
      have hnone : (bytes :: payloads).flatten = [] :=
        List.eq_nil_of_length_eq_zero (Nat.le_zero.mp hzero)
      refine ⟨?_, hnone.symm⟩
      intro other hother hlooks
      have hother' := List.flatten_eq_nil_iff.mp hnone other hother
      rw [hother'] at hlooks
      exact absurd hlooks.1 (by simp)
    · obtain ⟨data, hdata, hrest, hyielded⟩ := fileLoop_ended (Nat.not_le.mp hdone) hended
      obtain ⟨hle, htight⟩ := ih hrest
      rw [hyielded, List.flatten_cons, List.length_append, List.length_append]
      rcases hdata with ⟨hplain, rfl⟩ | ⟨hlooks, hlength, -⟩
      · refine ⟨by omega, ?_⟩
        intro hge
        obtain ⟨hall, heq⟩ := htight (by omega)
        refine ⟨?_, by rw [heq]⟩
        intro other hother
        rcases List.mem_cons.mp hother with rfl | hother
        · exact hplain
        · exact hall other hother
      · exact ⟨by omega, fun hge => by omega⟩

/-- What the payloads must be, if the content comes out of them and they hold no
more than one wrapper besides. -/
theorem unmistakable_of_ended {content : List UInt8}
    (hended : (fileLoop true totalSize got payloads).ending = .ended)
    (hyielded : (fileLoop true totalSize got payloads).yielded.flatten = content)
    (hlength : payloads.flatten.length ≤ content.length + 24) : Unmistakable content payloads := by
  induction payloads generalizing got content with
  | nil =>
    by_cases hdone : totalSize ≤ got
    · rw [fileLoop_done hdone] at hyielded
      exact ⟨[], [], rfl, nofun, Or.inl hyielded⟩
    · rw [fileLoop_nil (Nat.not_le.mp hdone)] at hended
      cases hended
  | cons bytes payloads ih =>
    by_cases hdone : totalSize ≤ got
    · rw [fileLoop_done hdone] at hyielded
      exact ⟨[], bytes :: payloads, rfl, nofun, Or.inl hyielded⟩
    obtain ⟨data, hdata, hrest, heq⟩ := fileLoop_ended (Nat.not_le.mp hdone) hended
    rw [heq] at hyielded
    rw [List.flatten_cons, List.length_append] at hlength
    rw [← hyielded, List.length_append] at hlength
    rcases hdata with ⟨hplain, rfl⟩ | ⟨hlooks, hsize, hdrop⟩
    · obtain ⟨before, after, hsplit, hbefore, hcases⟩ := ih hrest rfl (by omega)
      refine ⟨data :: before, after, by rw [hsplit]; rfl, ?_, ?_⟩
      · intro other hother
        rcases List.mem_cons.mp hother with rfl | hother
        · exact hplain
        · exact hbefore other hother
      · rcases hcases with hall | ⟨first, rest, hafter, hleads, hplains, hall⟩
        · refine Or.inl ?_
          rw [List.flatten_cons, hall, hyielded]
        · refine Or.inr ⟨first, rest, hafter, hleads, hplains, ?_⟩
          rw [List.flatten_cons, List.append_assoc, hall, hyielded]
    · obtain ⟨hle, htight⟩ := fileLoop_ended_length hrest
      obtain ⟨hall, hflat⟩ := htight (by omega)
      have hbody : leAt bytes 8 8 = 0 := by
        rw [hflat] at hlength
        omega
      refine ⟨[], bytes :: payloads, rfl, nofun, Or.inr ⟨bytes, payloads, rfl, ?_, hall, ?_⟩⟩
      · exact ⟨hlooks.1, hlooks.2.1, hbody⟩
      · rw [hbody] at hdrop
        rw [List.flatten_nil, List.nil_append, ← hdrop, ← hflat, hyielded]

/-- Payloads that cannot be mistaken are put together to the content. -/
theorem preserved_of_unmistakable {content : List UInt8} (hcontent : content.length < 2 ^ 64)
    (h : Unmistakable content payloads) : Preserved content payloads := by
  obtain ⟨before, after, rfl, hbefore, hcases⟩ := h
  intro checks
  unfold iterFileChunks
  have hlength : before.flatten.length ≤ content.length := by
    rcases hcases with hall | ⟨first, rest, -, -, -, hall⟩
    · rw [hall]
    · rw [← hall, List.length_append]
      omega
  obtain ⟨hending, hyielded⟩ :=
    @fileLoop_plain checks content.length 0 before after hbefore (by omega) hcontent
  rw [hending, hyielded, Nat.zero_add]
  by_cases hdone : content.length ≤ before.flatten.length
  · rw [fileLoop_done hdone]
    refine ⟨rfl, ?_⟩
    rcases hcases with hall | ⟨first, rest, -, -, -, hall⟩
    · simpa using hall
    · have hnone : first.drop 24 ++ rest.flatten = [] := by
        apply List.eq_nil_of_length_eq_zero
        rw [← hall, List.length_append] at hdone
        omega
      simpa [hnone] using hall
  rcases hcases with hall | ⟨first, rest, rfl, hleads, hrest, hall⟩
  · rw [hall] at hdone
    exact absurd (Nat.le_refl _) hdone
  have hsum : before.flatten.length + ((first.drop 24).length + rest.flatten.length) =
      content.length := by rw [← hall, List.length_append, List.length_append]
  have hplain : (fileLoop checks content.length
        (before.flatten.length + (first.drop 24).length) rest).ending = .ended ∧
      (fileLoop checks content.length
        (before.flatten.length + (first.drop 24).length) rest).yielded.flatten = rest.flatten := by
    obtain ⟨hending, hyielded⟩ := @fileLoop_plain checks content.length
      (before.flatten.length + (first.drop 24).length) rest [] hrest (by omega) hcontent
    have hend : fileLoop checks content.length
        (before.flatten.length + (first.drop 24).length + rest.flatten.length) [] = ⟨[], .ended⟩ :=
      fileLoop_done (by omega)
    rw [List.append_nil, hend] at hending hyielded
    rw [List.flatten_nil, List.append_nil] at hyielded
    exact ⟨hending, hyielded⟩
  by_cases hempty : first.drop 24 = []
  · have hstrip : stripXpcWrapperPrefix checks first = .ok ([], true) := by
      rw [strip_leads hleads, hempty]
    rw [fileLoop_empty (Nat.not_le.mp hdone) hstrip nofun]
    rw [hempty, List.length_nil, Nat.add_zero] at hplain
    rw [hempty] at hall
    exact ⟨hplain.1, by rw [hplain.2]; exact hall⟩
  · have hdata : first.drop 24 = if true = true then first.drop 24 else first := rfl
    rw [fileLoop_data (Nat.not_le.mp hdone) (strip_leads hleads) hdata hempty (by omega)]
    refine ⟨hplain.1, ?_⟩
    rw [List.flatten_cons, hplain.2, hall]

end Loop

/-- The content of a file comes through whole if the payloads cannot be mistaken. -/
theorem fileChunks_preserved_iff (content : List UInt8) (payloads : List (List UInt8))
    (hcontent : content.length < 2 ^ 64) (hsent : SentIn content payloads) :
    Preserved content payloads ↔ Unmistakable content payloads := by
  constructor
  · intro h
    obtain ⟨hending, hyielded⟩ := h true
    apply unmistakable_of_ended hending hyielded
    obtain ⟨lead, hlead, hflat⟩ := hsent
    rw [hflat, List.length_append]
    rcases hlead with rfl | hlead
    · simp
    · have hlength := hlead.1
      omega
  · exact preserved_of_unmistakable hcontent

/-- The header of a message without a body. -/
def bareHeader : List UInt8 := toLEBytes 4 XPCMessage.magic ++ List.replicate 20 0

theorem fileChunks_preserved_iff_text :
    Preserved [104, 105] [bareHeader ++ [104], [105]] ↔
      Unmistakable [104, 105] [bareHeader ++ [104], [105]] := by
  apply fileChunks_preserved_iff
  · decide
  · exact ⟨bareHeader, Or.inr ⟨rfl, rfl, rfl⟩, rfl⟩

/-- A file that is such a header itself is taken for one. -/
theorem bareHeader_lost :
    ¬ ∀ content payloads, content.length < 2 ^ 64 → SentIn content payloads →
      Preserved content payloads := by
  intro h
  have hlost := (h bareHeader [bareHeader] (by decide) ⟨[], Or.inl rfl, rfl⟩ true).1
  have hwaits : (iterFileChunks true bareHeader.length [bareHeader]).ending = .waiting := rfl
  rw [hwaits] at hlost
  cases hlost

end XitForge.Xpc
