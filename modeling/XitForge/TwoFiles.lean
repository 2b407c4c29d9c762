import XitForge.ByteStream

/-!
The local copy of a file and the comparison of the two files behind it. The two descriptors of
a comparison have reads of their own, which may cut a file in different ways.
-/
namespace XitForge.TwoFiles

open ByteStream

/-- What a call to `read` or `write` does. One that moves bytes moves at least one, and no
more than there are. -/
inductive Answer where
  | interrupted
  | failed (errno : ℕ)
  | moved (count : ℕ)
  deriving DecidableEq

inductive CopyError where
  | posix (errno : ℕ)
  | emptyPath
  | notRegular
  | sizes
  | contents
  deriving DecidableEq

/-- The code and the text of an error of the domain `XITFORGE_TWO_FILES`. -/
def CopyError.text : CopyError → Option (ℕ × String)
  | .posix _ => none
  | .emptyPath => some (3100, "Ruta de origen o destino vacía.")
  | .notRegular => some (3101, "El destino existente no es un archivo normal.")
  | .sizes => some (3102, "El archivo escrito no coincide en tamaño con la descarga.")
  | .contents => some (3103, "El contenido escrito no coincide con la descarga.")

inductive Entry where
  | regular (content : Bytes)
  | other
  deriving DecidableEq

def ENOENT : ℕ := 2

/-- The size of the buffers. -/
def chunk : ℕ := 16 * 1024

def clamp (requested count : ℕ) : ℕ := max 1 (min count requested)

/-- Reads until one is not interrupted: the bytes, the answers behind it and the content
behind the bytes. All that is asked for is moved when there are no answers left. -/
def readOnce (requested : ℕ) :
    List Answer → Bytes → Except ℕ (Bytes × List Answer × Bytes)
  | [], content => .ok (content.take requested, [], content.drop requested)
  | .interrupted :: rest, content => readOnce requested rest content
  | .failed errno :: _, _ => .error errno
  | .moved count :: rest, content =>
    .ok (content.take (clamp requested count), rest, content.drop (clamp requested count))

/-- The loop over the calls to `write` for one buffer, with the rest of the answers and the
file. -/
def writeBuffer : List Answer → Bytes → Bytes → Except ℕ (List Answer) × Bytes
  | answers, [], out => (.ok answers, out)
  | [], buffer, out => (.ok [], out ++ buffer)
  | .interrupted :: rest, buffer, out => writeBuffer rest buffer out
  | .failed errno :: _, _, out => (.error errno, out)
  | .moved count :: rest, buffer, out =>
    writeBuffer rest (buffer.drop (clamp buffer.length count))
      (out ++ buffer.take (clamp buffer.length count))

theorem readOnce_append {requested : ℕ} {answers answers' : List Answer}
    {content data rest : Bytes} (h : readOnce requested answers content = .ok (data, answers', rest)) :
    data ++ rest = content := by
  induction answers with
  | nil =>
    cases h
    exact List.take_append_drop requested content
  | cons answer answers ih =>
    cases answer with
    | interrupted => exact ih h
    | failed errno => cases h
    | moved count =>
      cases h
      exact List.take_append_drop _ content

theorem length_rest_lt {requested : ℕ} {answers answers' : List Answer} {content data rest : Bytes}
    (h : readOnce requested answers content = .ok (data, answers', rest)) (hdata : data ≠ []) :
    rest.length < content.length := by
  have hlength := List.length_pos_iff.mpr hdata
  rw [← readOnce_append h, List.length_append]
  omega

/-- The loop of `XF2WriteExactFile`, with the content that the file has in the end. -/
def copyLoop (reads writes : List Answer) (content out : Bytes) : Except ℕ Unit × Bytes :=
  match h : readOnce chunk reads content with
  | .error errno => (.error errno, out)
  | .ok (data, reads, rest) =>
    if hdata : data = [] then (.ok (), out)
    else
      have := length_rest_lt h hdata
      match writeBuffer writes data out with
      | (.error errno, out) => (.error errno, out)
      | (.ok writes, out) => copyLoop reads writes rest out
termination_by content.length

/-- The loop of `XF2FilesAreIdentical`. -/
def compareLoop (leftReads rightReads : List Answer) (left right : Bytes) : Except ℕ Bool :=
  match h : readOnce chunk leftReads left with
  | .error errno => .error errno
  | .ok (a, leftReads, left') =>
    match readOnce chunk rightReads right with
    | .error errno => .error errno
    | .ok (b, rightReads, right') =>
      if a.length ≠ b.length then .ok false
      else if ha : a = [] then .ok true
      else if a ≠ b then .ok false
      else
        have := length_rest_lt h ha
        compareLoop leftReads rightReads left' right'
termination_by left.length

/-- A copy: the paths, the files, and how the calls go. The number of a call that may fail is
that of its error. -/
structure Copy where
  sourcePath : List Char
  destinationPath : List Char
  source : Bytes
  lstat : Except ℕ Entry
  openSource : Option ℕ
  openDestination : Option ℕ
  reads : List Answer
  writes : List Answer
  fsync : Option ℕ

/-- `XF2WriteExactFile`, and the destination behind it. -/
def writeExactFile (c : Copy) : Except CopyError Unit × Except ℕ Entry :=
  let write : Except CopyError Unit × Except ℕ Entry :=
    match c.openSource, c.openDestination with
    | some errno, _ => (.error (.posix errno), c.lstat)
    | none, some errno => (.error (.posix errno), c.lstat)
    | none, none =>
      match copyLoop c.reads c.writes c.source [], c.fsync with
      | (.error errno, out), _ => (.error (.posix errno), .ok (.regular out))
      | (.ok (), out), some errno => (.error (.posix errno), .ok (.regular out))
      | (.ok (), out), none => (.ok (), .ok (.regular out))
  if c.sourcePath = [] ∨ c.destinationPath = [] then (.error .emptyPath, c.lstat)
  else
    match c.lstat with
    | .ok .other => (.error .notRegular, c.lstat)
    | .ok (.regular _) => write
    | .error errno => if errno = ENOENT then write else (.error (.posix errno), c.lstat)

/-- A comparison of two files. -/
structure Comparison where
  openLeft : Option ℕ
  openRight : Option ℕ
  fstat : Option ℕ
  left : Entry
  right : Entry
  leftReads : List Answer
  rightReads : List Answer

/-- `XF2FilesAreIdentical`. -/
def filesAreIdentical (v : Comparison) : Except CopyError Unit :=
  match v.openLeft, v.openRight, v.fstat with
  | some errno, _, _ => .error (.posix errno)
  | none, some errno, _ => .error (.posix errno)
  | none, none, some errno => .error (.posix errno)
  | none, none, none =>
    match v.left, v.right with
    | .regular left, .regular right =>
      if left.length ≠ right.length then .error .sizes
      else
        match compareLoop v.leftReads v.rightReads left right with
        | .error errno => .error (.posix errno)
        | .ok identical => if identical then .ok () else .error .contents
    | _, _ => .error .sizes

section Reads

/-- No call fails. -/
def Working (answers : List Answer) : Prop := ∀ errno, .failed errno ∉ answers

theorem Working.tail {answer : Answer} {answers : List Answer} (h : Working (answer :: answers)) :
    Working answers := fun errno hmem => h errno (List.mem_cons_of_mem _ hmem)

/-- A read that works returns nothing only at the end of the file. -/
theorem readOnce_ok {requested : ℕ} (hpos : 0 < requested) {answers : List Answer}
    (h : Working answers) (content : Bytes) :
    ∃ data answers' rest, readOnce requested answers content = .ok (data, answers', rest) ∧
      Working answers' ∧ (data = [] → content = []) := by
  induction answers with
  | nil =>
    refine ⟨_, _, _, rfl, h, fun hnil => ?_⟩
    rw [List.take_eq_nil_iff] at hnil
    exact hnil.resolve_left hpos.ne'
  | cons answer answers ih =>
    cases answer with
    | interrupted => exact ih h.tail
    | failed errno => exact absurd List.mem_cons_self (h errno)
    | moved count =>
      refine ⟨_, _, _, rfl, h.tail, fun hnil => ?_⟩
      rw [List.take_eq_nil_iff] at hnil
      have hclamp : clamp requested count ≠ 0 := by
        unfold clamp
        omega
      exact hnil.resolve_left hclamp

theorem chunk_pos : 0 < chunk := by decide

end Reads

section Writes

/-- A buffer is written as a whole, whatever its writes move. -/
theorem writeBuffer_ok {answers : List Answer} (h : Working answers) (buffer out : Bytes) :
    ∃ answers', writeBuffer answers buffer out = (.ok answers', out ++ buffer) ∧
      Working answers' := by
  induction answers generalizing buffer out with
  | nil =>
    cases buffer with
    | nil => exact ⟨[], by rw [writeBuffer, List.append_nil], h⟩
    | cons byte buffer => exact ⟨[], rfl, h⟩
  | cons answer answers ih =>
    cases buffer with
    | nil => exact ⟨answer :: answers, by rw [writeBuffer, List.append_nil], h⟩
    | cons byte buffer =>
      cases answer with
      | interrupted => exact ih h.tail _ _
      | failed errno => exact absurd List.mem_cons_self (h errno)
      | moved count =>
        obtain ⟨answers', hwrite, hworking⟩ := ih h.tail
          ((byte :: buffer).drop (clamp (byte :: buffer).length count))
          (out ++ (byte :: buffer).take (clamp (byte :: buffer).length count))
        rw [List.append_assoc, List.take_append_drop] at hwrite
        exact ⟨answers', hwrite, hworking⟩

/-- The copy has all of the source, whatever its reads and writes move. -/
theorem copyLoop_ok {reads writes : List Answer} (hreads : Working reads) (hwrites : Working writes)
    (content out : Bytes) : copyLoop reads writes content out = (.ok (), out ++ content) := by
  induction hlength : content.length using Nat.strong_induction_on generalizing reads writes content
    out with
  | _ length ih =>
    obtain ⟨data, reads', rest, hread, hreads', hend⟩ := readOnce_ok chunk_pos hreads content
    have happend := readOnce_append hread
    rw [copyLoop]
    split
    · rename_i errno herror
      rw [hread] at herror
      cases herror
    · rename_i data₁ reads₁ rest₁ hok
      rw [hread] at hok
      cases hok
      by_cases hdata : data = []
      · rw [dif_pos hdata, hend hdata, List.append_nil]
      · obtain ⟨writes', hwrite, hwrites'⟩ := writeBuffer_ok hwrites data out
        have hlt := length_rest_lt hread hdata
        rw [dif_neg hdata, hwrite]
        dsimp only
        rw [ih rest.length (hlength ▸ hlt) hreads' hwrites' rest (out ++ data) rfl,
          List.append_assoc, happend]

end Writes

section Comparisons

/-- The sizes of the reads of a file. -/
def cuts (answers : List Answer) (content : Bytes) : List ℕ :=
  match h : readOnce chunk answers content with
  | .error _ => []
  | .ok (data, answers, rest) =>
    if hdata : data = [] then []
    else
      have := length_rest_lt h hdata
      data.length :: cuts answers rest
termination_by content.length

variable {leftReads rightReads leftReads' rightReads' : List Answer}
  {left right left' right' a b : Bytes}

theorem cuts_eq (h : readOnce chunk leftReads left = .ok (a, leftReads', left')) :
    cuts leftReads left = if a = [] then [] else a.length :: cuts leftReads' left' := by
  rw [cuts]
  split
  · rename_i errno herror
    rw [h] at herror
    cases herror
  · rename_i hok
    rw [h] at hok
    cases hok
    rfl

theorem compareLoop_eq (ha : readOnce chunk leftReads left = .ok (a, leftReads', left'))
    (hb : readOnce chunk rightReads right = .ok (b, rightReads', right')) :
    compareLoop leftReads rightReads left right =
      if a.length ≠ b.length then .ok false
      else if a = [] then .ok true
      else if a ≠ b then .ok false
      else compareLoop leftReads' rightReads' left' right' := by
  rw [compareLoop]
  split
  · rename_i errno herror
    rw [ha] at herror
    cases herror
  · rename_i hok
    rw [ha] at hok
    cases hok
    rw [hb]
    rfl

theorem cuts_ne (ha : readOnce chunk leftReads left = .ok (a, leftReads', left'))
    (hb : readOnce chunk rightReads right = .ok (b, rightReads', right'))
    (hsize : a.length ≠ b.length) : cuts leftReads left ≠ cuts rightReads right := by
  rw [cuts_eq ha, cuts_eq hb]
  intro hcuts
  by_cases hnil : a = []
  · have hnil' : b ≠ [] := by
      intro hb
      exact hsize (by rw [hnil, hb])
    rw [if_pos hnil, if_neg hnil'] at hcuts
    cases hcuts
  · by_cases hnil' : b = []
    · rw [if_neg hnil, if_pos hnil'] at hcuts
      cases hcuts
    · rw [if_neg hnil, if_neg hnil'] at hcuts
      exact hsize (List.cons.inj hcuts).1

/-- Two files pass the comparison when they are equal and cut in the same way. -/
theorem compareLoop_iff (hleft : Working leftReads) (hright : Working rightReads) :
    compareLoop leftReads rightReads left right = .ok true ↔
      left = right ∧ cuts leftReads left = cuts rightReads right := by
  induction hlength : left.length using Nat.strong_induction_on generalizing leftReads rightReads
    left right with
  | _ length ih =>
    obtain ⟨a, leftReads', left', ha, hleft', hleftEnd⟩ := readOnce_ok chunk_pos hleft left
    obtain ⟨b, rightReads', right', hb, hright', hrightEnd⟩ := readOnce_ok chunk_pos hright right
    have haAppend := readOnce_append ha
    have hbAppend := readOnce_append hb
    rw [compareLoop_eq ha hb]
    by_cases hsize : a.length = b.length
    · rw [if_neg (not_not_intro hsize), cuts_eq ha, cuts_eq hb]
      by_cases hnil : a = []
      · have hnil' : b = [] := List.length_eq_zero_iff.mp (by rw [← hsize, hnil]; rfl)
        simp [hnil, hnil', hleftEnd hnil, hrightEnd hnil']
      · have hnil' : b ≠ [] := by
          intro hb
          rw [hb] at hsize
          exact hnil (List.length_eq_zero_iff.mp hsize)
        rw [if_neg hnil, if_neg hnil, if_neg hnil', ← haAppend, ← hbAppend]
        by_cases hdata : a = b
        · have hlt := length_rest_lt ha hnil
          rw [if_neg (not_not_intro hdata), ih left'.length (hlength ▸ hlt) hleft' hright' rfl,
            hdata, List.append_cancel_left_eq, List.cons.injEq, eq_self, true_and]
        · rw [if_pos hdata]
          constructor
          · intro h
            cases h
          · intro h
            exact absurd (List.append_inj_left h.1 hsize) hdata
    · rw [if_pos hsize]
      constructor
      · intro h
        cases h
      · intro h
        exact absurd h.2 (cuts_ne ha hb hsize)

end Comparisons

section Verification

/-- A copy onto a regular file or none, with calls that work. -/
structure Copy.Undisturbed (c : Copy) : Prop where
  sourcePath : c.sourcePath ≠ []
  destinationPath : c.destinationPath ≠ []
  lstat : c.lstat = .error ENOENT ∨ ∃ content, c.lstat = .ok (.regular content)
  openSource : c.openSource = none
  openDestination : c.openDestination = none
  reads : Working c.reads
  writes : Working c.writes
  fsync : c.fsync = none

/-- A comparison of two regular files, with calls that work. -/
structure Comparison.Undisturbed (v : Comparison) (left right : Bytes) : Prop where
  openLeft : v.openLeft = none
  openRight : v.openRight = none
  fstat : v.fstat = none
  left : v.left = .regular left
  right : v.right = .regular right
  leftReads : Working v.leftReads
  rightReads : Working v.rightReads

theorem writeExactFile_ok {c : Copy} (h : c.Undisturbed) :
    writeExactFile c = (.ok (), .ok (.regular c.source)) := by
  have hloop := copyLoop_ok h.reads h.writes c.source []
  rw [List.nil_append] at hloop
  unfold writeExactFile
  simp only [h.sourcePath, h.destinationPath, or_self, if_false, h.openSource, h.openDestination,
    h.fsync, hloop]
  rcases h.lstat with hlstat | ⟨content, hlstat⟩
  · rw [hlstat]
    rfl
  · rw [hlstat]

theorem filesAreIdentical_iff {v : Comparison} {left right : Bytes} (h : v.Undisturbed left right) :
    filesAreIdentical v = .ok () ↔
      left = right ∧ cuts v.leftReads left = cuts v.rightReads right := by
  rw [← compareLoop_iff h.leftReads h.rightReads]
  unfold filesAreIdentical
  simp only [h.openLeft, h.openRight, h.fstat, h.left, h.right]
  by_cases hsize : left.length = right.length
  · rw [if_neg (not_not_intro hsize)]
    cases compareLoop v.leftReads v.rightReads left right with
    | error errno => simp
    | ok identical => cases identical <;> simp
  · have hne : left ≠ right := fun heq => hsize (by rw [heq])
    rw [if_pos hsize, compareLoop_iff h.leftReads h.rightReads]
    simp [hne]

/-- A copy is exact whatever its calls move, and the comparison is, of equal files, only where
it reads both in pieces of the same sizes. -/
theorem copy_verified_iff {c : Copy} {v : Comparison} {left right : Bytes} (hc : c.Undisturbed)
    (hv : v.Undisturbed left right) :
    (writeExactFile c = (.ok (), .ok (.regular c.source)) ∧
      (filesAreIdentical v = .ok () ↔ left = right) ∧
      (left = c.source → writeExactFile c = (.ok (), .ok (.regular right)) →
        filesAreIdentical v = .ok ())) ↔
    (left ≠ right ∨ cuts v.leftReads left = cuts v.rightReads right) := by
  have hwrite := writeExactFile_ok hc
  have hidentical := filesAreIdentical_iff hv
  constructor
  · intro h
    obtain ⟨_, hexact, _⟩ := h
    by_cases heq : left = right
    · exact .inr (hidentical.mp (hexact.mpr heq)).2
    · exact .inl heq
  · intro h
    have hexact : filesAreIdentical v = .ok () ↔ left = right := by
      rw [hidentical]
      constructor
      · exact fun hboth => hboth.1
      · intro heq
        exact ⟨heq, h.resolve_left fun hne => hne heq⟩
    refine ⟨hwrite, hexact, fun hsource hcopy => ?_⟩
    rw [hwrite] at hcopy
    have hright : c.source = right := by simpa using hcopy
    exact hexact.mpr (hsource.trans hright)

def copyOf (source : Bytes) (reads writes : List Answer) : Copy :=
  { sourcePath := ['s'], destinationPath := ['d'], source := source, lstat := .error ENOENT,
    openSource := none, openDestination := none, reads := reads, writes := writes, fsync := none }

def comparisonOf (left right : Bytes) (leftReads rightReads : List Answer) : Comparison :=
  { openLeft := none, openRight := none, fstat := none, left := .regular left,
    right := .regular right, leftReads := leftReads, rightReads := rightReads }

theorem undisturbed_copyOf (source : Bytes) {reads writes : List Answer} (hreads : Working reads)
    (hwrites : Working writes) : (copyOf source reads writes).Undisturbed :=
  ⟨List.cons_ne_nil _ _, List.cons_ne_nil _ _, .inl rfl, rfl, rfl, hreads, hwrites, rfl⟩

theorem undisturbed_comparisonOf (left right : Bytes) {leftReads rightReads : List Answer}
    (hleft : Working leftReads) (hright : Working rightReads) :
    (comparisonOf left right leftReads rightReads).Undisturbed left right :=
  ⟨rfl, rfl, rfl, rfl, rfl, hleft, hright⟩

theorem working_nil : Working [] := fun _ => List.not_mem_nil

/-- A copy of two bytes that the comparison reads in one piece on both sides. -/
theorem copy_verified_whole :
    (writeExactFile (copyOf [1, 2] [.interrupted] [.moved 1]) = (.ok (), .ok (.regular [1, 2])) ∧
      (filesAreIdentical (comparisonOf [1, 2] [1, 2] [] []) = .ok () ↔ ([1, 2] : Bytes) = [1, 2]) ∧
      (([1, 2] : Bytes) = [1, 2] →
        writeExactFile (copyOf [1, 2] [.interrupted] [.moved 1]) =
          (.ok (), .ok (.regular [1, 2])) →
        filesAreIdentical (comparisonOf [1, 2] [1, 2] [] []) = .ok ())) ↔
    (([1, 2] : Bytes) ≠ [1, 2] ∨ cuts [] [1, 2] = cuts [] [1, 2]) :=
  copy_verified_iff
    (undisturbed_copyOf [1, 2] (fun errno hmem => by simp at hmem) fun errno hmem => by simp at hmem)
    (undisturbed_comparisonOf [1, 2] [1, 2] working_nil working_nil)

/-- A copy of two bytes that the comparison reads in two pieces here and in one there. -/
theorem copy_not_verified :
    (copyOf [1, 2] [] []).Undisturbed ∧
    (comparisonOf [1, 2] [1, 2] [.moved 1] []).Undisturbed [1, 2] [1, 2] ∧
    writeExactFile (copyOf [1, 2] [] []) = (.ok (), .ok (.regular [1, 2])) ∧
    ¬ (filesAreIdentical (comparisonOf [1, 2] [1, 2] [.moved 1] []) = .ok () ↔
      ([1, 2] : Bytes) = [1, 2]) := by
  have hleft : Working [.moved 1] := fun errno hmem => by simp at hmem
  have hc := undisturbed_copyOf [1, 2] working_nil working_nil
  have hv := undisturbed_comparisonOf [1, 2] [1, 2] hleft working_nil
  refine ⟨hc, hv, writeExactFile_ok hc, fun h => ?_⟩
  have hcuts := ((filesAreIdentical_iff hv).mp (h.mpr rfl)).2
  have hread : readOnce chunk [.moved 1] [1, 2] = .ok ([1], [], [2]) := by decide +kernel
  have hwhole : readOnce chunk [] [1, 2] = .ok ([1, 2], [], []) := by decide +kernel
  unfold comparisonOf at hcuts
  rw [cuts_eq hread, cuts_eq hwhole] at hcuts
  simp at hcuts

end Verification

end XitForge.TwoFiles
