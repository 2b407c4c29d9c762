import XitForge.Xpc.Channel

/-!
Decoding of arbitrary bytes. Below the header a reader ends in a value or in an
error: an object leaves no more to read than it was given, and every object
inside another one is given less. The header trusts its own length: the two
additions of 24 to it stay in a `u64` or the call panics.
-/
namespace XitForge.Xpc

open RustEval

theorem readExact_returns (count : ℕ) (cursor : List UInt8) :
    (readExact count cursor).Returns fun read =>
      read.1.length = count ∧ read.2.length + count = cursor.length := by
  unfold readExact
  split
  · exact ⟨by rw [List.length_take]; omega, by rw [List.length_drop]; omega⟩
  · trivial

theorem readUntil_length (cursor : List UInt8) :
    (readUntil cursor).1.length + (readUntil cursor).2.length = cursor.length := by
  induction cursor with
  | nil => rfl
  | cons byte rest ih =>
    unfold readUntil
    split
    · simp only [List.length_cons, List.length_nil]
      omega
    · simp only [List.length_cons]
      omega

theorem consume_length (count : ℕ) (cursor : List UInt8) :
    (consume count cursor).length ≤ cursor.length := by
  unfold consume
  rw [List.length_drop]
  omega

/-- The NUL behind a text is one of the bytes that were read. -/
theorem cString_length {bytes : List UInt8} {text : String} (h : cString bytes = some text) :
    (asBytes text).length + 1 = bytes.length := by
  unfold cString at h
  split at h
  · rename_i hnul
    have hsome : bytes ≠ [] := by
      intro heq
      subst heq
      exact absurd hnul.1 (by simp)
    have htext : asBytes text = bytes.dropLast := by
      unfold String.fromUTF8? at h
      split at h
      · cases h
        rfl
      · cases h
    rw [htext, List.length_dropLast]
    have hpos := List.length_pos_iff.mpr hsome
    omega
  · cases h

section Objects

variable {checks : Bool} {read : ObjectReader} {bound : ℕ}

theorem decodeEntries_returns (hbound : bound < 2 ^ 64)
    (hread : ∀ cursor : List UInt8, cursor.length ≤ bound →
      (read cursor).Returns fun object => object.2.length ≤ cursor.length)
    (count : ℕ) (entries : List (String × XPCObject)) (cursor : List UInt8)
    (hcursor : cursor.length ≤ bound) :
    (decodeEntries checks read count entries cursor).Returns fun result =>
      result.2.length ≤ cursor.length := by
  induction count generalizing entries cursor with
  | zero => exact le_rfl
  | succ count ih =>
    unfold decodeEntries
    have huntil := readUntil_length cursor
    cases hkey : cString (readUntil cursor).1 with
    | none => trivial
    | some key =>
      have hlength := cString_length hkey
      simp only [add64_of_lt (show (asBytes key).length + 1 < 2 ^ 64 by omega), Eval.ok_bind]
      have hrest : (consume (calculatePadding ((asBytes key).length + 1))
          (readUntil cursor).2).length ≤ cursor.length :=
        (consume_length _ _).trans (by omega)
      refine (hread _ (hrest.trans hcursor)).bind fun object hobject => ?_
      exact (ih _ object.2 (hobject.trans (hrest.trans hcursor))).mono
        fun result hresult => hresult.trans (hobject.trans hrest)

theorem decodeItems_returns
    (hread : ∀ cursor : List UInt8, cursor.length ≤ bound →
      (read cursor).Returns fun object => object.2.length ≤ cursor.length)
    (count : ℕ) (items : List XPCObject) (cursor : List UInt8) (hcursor : cursor.length ≤ bound) :
    (decodeItems read count items cursor).Returns fun result =>
      result.2.length ≤ cursor.length := by
  induction count generalizing items cursor with
  | zero => exact le_rfl
  | succ count ih =>
    unfold decodeItems
    refine (hread cursor hcursor).bind fun object hobject => ?_
    exact (ih _ object.2 (hobject.trans hcursor)).mono fun result hresult => hresult.trans hobject

theorem tryFrom_returns (value : ℕ) : (XPCType.tryFrom value).Returns fun _ => True := by
  unfold XPCType.tryFrom
  repeat refine .ite trivial ?_
  trivial

/-- What stands behind a type word is shorter than the object, so the fuel of an
object is enough for those inside it. -/
theorem decodeObject_returns (checks : Bool) (fuel : ℕ) (cursor : List UInt8)
    (hfuel : cursor.length < fuel) (hbound : cursor.length < 2 ^ 64) :
    (decodeObject checks fuel cursor).Returns fun object => object.2.length ≤ cursor.length := by
  induction fuel generalizing cursor with
  | zero => exact absurd hfuel (Nat.not_lt_zero _)
  | succ fuel ih =>
    unfold decodeObject
    refine (readExact_returns 4 cursor).bind fun word hword => ?_
    refine (tryFrom_returns _).bind fun type _ => ?_
    cases type with
    | null => exact (show word.2.length ≤ cursor.length by omega)
    | dictionary =>
      refine (readExact_returns 4 word.2).bind fun size hsize => ?_
      refine (readExact_returns 4 size.2).bind fun count hcount => ?_
      have hread := fun (inner : List UInt8) (hinner : inner.length ≤ count.2.length) =>
        ih inner (by omega) (by omega)
      refine (decodeEntries_returns (by omega) hread _ [] count.2 le_rfl).bind
        fun entries hentries => ?_
      exact (show entries.2.length ≤ cursor.length by omega)
    | array =>
      refine (readExact_returns 4 word.2).bind fun size hsize => ?_
      refine (readExact_returns 4 size.2).bind fun count hcount => ?_
      have hread := fun (inner : List UInt8) (hinner : inner.length ≤ count.2.length) =>
        ih inner (by omega) (by omega)
      refine (decodeItems_returns hread _ [] count.2 le_rfl).bind fun items hitems => ?_
      exact (show items.2.length ≤ cursor.length by omega)
    | int64 =>
      refine (readExact_returns 8 word.2).bind fun bytes hbytes => ?_
      exact (show bytes.2.length ≤ cursor.length by omega)
    | uint64 =>
      refine (readExact_returns 8 word.2).bind fun bytes hbytes => ?_
      exact (show bytes.2.length ≤ cursor.length by omega)
    | double =>
      refine (readExact_returns 8 word.2).bind fun bytes hbytes => ?_
      exact (show bytes.2.length ≤ cursor.length by omega)
    | date =>
      refine (readExact_returns 8 word.2).bind fun bytes hbytes => ?_
      exact (show bytes.2.length ≤ cursor.length by omega)
    | bool =>
      refine (readExact_returns 4 word.2).bind fun bytes hbytes => ?_
      exact (show bytes.2.length ≤ cursor.length by omega)
    | string =>
      refine (readExact_returns 4 word.2).bind fun len hlen => ?_
      refine (readExact_returns _ len.2).bind ?_
      rintro ⟨text, rest⟩ ⟨-, hrest⟩
      have hconsume := consume_length (calculatePadding (fromLEBytes len.1)) rest
      dsimp only at hrest ⊢
      cases cString text with
      | none => trivial
      | some value =>
        simp only [Eval.pure_eq, Eval.returns_ok]
        omega
    | data =>
      refine (readExact_returns 4 word.2).bind fun len hlen => ?_
      refine (readExact_returns _ len.2).bind fun bytes hbytes => ?_
      have hconsume := consume_length (calculatePadding (fromLEBytes len.1)) bytes.2
      exact (show (consume (calculatePadding (fromLEBytes len.1)) bytes.2).length ≤ cursor.length
        by omega)
    | uuid =>
      have hreturns := readExact_returns 16 word.2
      dsimp only
      split
      · rename_i bytes rest hread
        rw [hread] at hreturns
        rw [Eval.returns_ok] at hreturns
        dsimp only at hreturns
        simp only [Eval.pure_eq, Eval.returns_ok]
        omega
      · trivial
      · rename_i hread
        rw [hread] at hreturns
        exact hreturns
    | fileTransfer =>
      refine (readExact_returns 8 word.2).bind fun id hid => ?_
      refine (ih id.2 (by omega) (by omega)).bind fun inner hinner => ?_
      exact (show inner.2.length ≤ cursor.length by omega)

theorem xpcObject_decode_returns (buf : List UInt8) (hbound : buf.length < 2 ^ 64) :
    (XPCObject.decode checks buf).Returns fun _ => True := by
  unfold XPCObject.decode
  split
  · trivial
  · split
    · trivial
    · split
      · trivial
      · have hdrop := List.length_drop (l := buf) (i := 8)
        exact (decodeObject_returns checks buf.length (buf.drop 8) (by omega) (by omega)).bind
          fun _ _ => trivial

end Objects

section Headers

variable {checks : Bool} {data : List UInt8}

theorem bodyLen_lt (data : List UInt8) : leAt data 8 8 < 2 ^ 64 := by
  have hlt := leAt_lt data 8 8
  omega

/-- Without overflow the bounds check is the one that is meant. -/
theorem decode_of_fits (checks : Bool) (hfits : leAt data 8 8 + 24 < 2 ^ 64) :
    (XPCMessage.decode checks data).Returns fun _ => True := by
  unfold XPCMessage.decode
  split
  · trivial
  · split
    · trivial
    · simp only [add64_of_lt hfits, add64_of_lt (show 24 + leAt data 8 8 < 2 ^ 64 by omega),
        Eval.ok_bind]
      split
      · trivial
      · rename_i hheader _ hbody
        split
        · have hslice : (slice data 24 (24 + leAt data 8 8) : Eval IdeviceError (List UInt8)) =
              .ok ((data.take (24 + leAt data 8 8)).drop 24) :=
            if_pos ⟨by omega, by omega⟩
          simp only [hslice, Eval.ok_bind]
          refine (xpcObject_decode_returns _ ?_).bind fun _ _ => trivial
          rw [List.length_drop, List.length_take]
          omega
        · trivial

theorem add64_of_wrap {ε : Type} {a b wrapped : ℕ} (h : a + b = 2 ^ 64 + wrapped)
    (hwrapped : wrapped < 2 ^ 64) :
    (add64 checks a b : Eval ε ℕ) = if checks then .panic else .ok wrapped := by
  unfold add64
  rw [if_neg (by omega), h, Nat.add_mod_left, Nat.mod_eq_of_lt hwrapped]

theorem slice_of_gt {ε : Type} {start stop : ℕ} (h : stop < start) :
    (slice data start stop : Eval ε (List UInt8)) = .panic := by
  unfold slice
  rw [if_neg (by omega)]

/-- The overflow panics by itself, or it wraps to a length below the header's and
the slice of the body ends before it starts. -/
theorem decode_of_overflow (hheader : 24 ≤ data.length) (hmagic : leAt data 0 4 = XPCMessage.magic)
    (hover : 2 ^ 64 ≤ leAt data 8 8 + 24) : XPCMessage.decode checks data = .panic := by
  have hbody := bodyLen_lt data
  obtain ⟨wrapped, hneeded⟩ := Nat.exists_eq_add_of_le hover
  have hstop : 24 + leAt data 8 8 = 2 ^ 64 + wrapped := by omega
  unfold XPCMessage.decode
  rw [if_neg (by omega), if_neg (not_not.mpr hmagic)]
  simp only [add64_of_wrap hneeded (by omega), add64_of_wrap hstop (by omega)]
  cases checks with
  | true => simp only [if_true, Eval.panic_bind]
  | false =>
    simp only [Bool.false_eq_true, if_false, Eval.ok_bind,
      slice_of_gt (show wrapped < 24 by omega), Eval.panic_bind]
    rw [if_neg (by omega), if_pos (by omega)]

/-- The addition of `take_buffered` is the one that `decode` already made. -/
theorem takeBuffered_of_fits (hfits : leAt data 8 8 + 24 < 2 ^ 64) :
    takeBuffered checks data ≠ .panic := by
  have hdecode := (decode_of_fits checks hfits).ne_panic
  unfold takeBuffered xpcBodyLen
  rw [add64_of_lt (by omega)]
  cases hresult : XPCMessage.decode checks data with
  | ok message => exact nofun
  | err error => cases error <;> exact nofun
  | panic => exact absurd hresult hdecode

theorem decode_of_no_header (checks : Bool)
    (h : data.length < 24 ∨ leAt data 0 4 ≠ XPCMessage.magic) :
    ∃ error, XPCMessage.decode checks data = .err error := by
  unfold XPCMessage.decode
  by_cases hlength : data.length < 24
  · exact ⟨_, if_pos hlength⟩
  · rw [if_neg hlength, if_pos (h.resolve_left hlength)]
    exact ⟨_, rfl⟩

theorem takeBuffered_of_err {error : IdeviceError} (h : XPCMessage.decode checks data = .err error) :
    takeBuffered checks data ≠ .panic := by
  unfold takeBuffered
  rw [h]
  cases error <;> exact nofun

/-- Neither function panics unless a whole header announces a body that, with the
header, is longer than a `u64` can say. -/
theorem decode_ne_panic_iff (checks : Bool) (data : List UInt8) :
    (XPCMessage.decode checks data ≠ .panic ∧ takeBuffered checks data ≠ .panic) ↔
      data.length < 24 ∨ leAt data 0 4 ≠ XPCMessage.magic ∨ leAt data 8 8 + 24 < 2 ^ 64 := by
  constructor
  · intro h
    obtain ⟨hdecode, -⟩ := h
    by_contra hover
    rw [not_or, not_or, not_lt, not_not, not_lt] at hover
    exact hdecode (decode_of_overflow hover.1 hover.2.1 hover.2.2)
  · intro hquiet
    by_cases hfits : leAt data 8 8 + 24 < 2 ^ 64
    · exact ⟨(decode_of_fits checks hfits).ne_panic, takeBuffered_of_fits hfits⟩
    · obtain ⟨error, herror⟩ := decode_of_no_header checks
        (hquiet.imp_right fun hmagic => hmagic.resolve_right hfits)
      exact ⟨by rw [herror]; exact nofun, takeBuffered_of_err herror⟩

/-- A header that announces `2 ^ 64 - 1` bytes panics, whether additions are checked or not. -/
theorem decode_panic_longest_body :
    (XPCMessage.decode true ([146, 11, 176, 41, 1, 0, 0, 0] ++ List.replicate 8 255 ++
        List.replicate 8 0) = .panic ∧
      takeBuffered true ([146, 11, 176, 41, 1, 0, 0, 0] ++ List.replicate 8 255 ++
        List.replicate 8 0) = .panic) ∧
      XPCMessage.decode false ([146, 11, 176, 41, 1, 0, 0, 0] ++ List.replicate 8 255 ++
        List.replicate 8 0) = .panic ∧
      takeBuffered false ([146, 11, 176, 41, 1, 0, 0, 0] ++ List.replicate 8 255 ++
        List.replicate 8 0) = .panic :=
  ⟨⟨rfl, rfl⟩, rfl, rfl⟩

end Headers

end XitForge.Xpc
