import XitForge.RemotePairing.OpackRoundTrip

/-!
Which plists OPACK gives back, both ways. Only a collection of 15 elements or more ends
in a terminator, and a reader makes such a collection only of a terminator. Reading a
plist whose count was cut off, it finds fewer of them than it needs.
-/
namespace XitForge.RemotePairing

open Xpc (PlistValue asBytes)

/-- The collections that have too many elements to count them in a tag. -/
def large (lens : List ℕ) : ℕ := lens.countP (15 ≤ ·)

/-- The collections that are written with a terminator. -/
def opened (lens : List ℕ) : ℕ := lens.countP (15 ≤ countOf ·)

/-- A collection whose count is cut off is large and has no terminator. -/
theorem opened_lt_large {lens : List ℕ} {len : ℕ} (hmem : len ∈ lens) (hcut : CutOff len) :
    opened lens < large lens := by
  have hle : ∀ lens : List ℕ, opened lens ≤ large lens := by
    intro lens
    refine List.countP_mono_left fun n _ hn => ?_
    have hmod : countOf n ≤ n := Nat.mod_le ..
    simp only [decide_eq_true_eq] at hn ⊢
    omega
  obtain ⟨before, after, rfl⟩ := List.append_of_mem hmem
  have hbefore := hle before
  have hafter := hle after
  obtain ⟨hlen, hcount⟩ := hcut
  unfold opened large at hbefore hafter ⊢
  rw [List.countP_append, List.countP_append, List.countP_cons_of_neg (by simpa using hcount),
    List.countP_cons_of_pos (by rw [decide_eq_true_eq]; omega)]
  omega

/-- A part of what is to be read. -/
inductive Piece where
  | value (value : PlistValue)
  | terminator

namespace Piece

def bytes : Piece → Bytes
  | .value plist => plistToOpack plist
  | .terminator => [0x03]

def Plain : Piece → Prop
  | .value plist => RemotePairing.Plain plist
  | .terminator => True

def opened : Piece → ℕ
  | .value plist => RemotePairing.opened (collections plist)
  | .terminator => 0

end Piece

def stream (pieces : List Piece) : Bytes := pieces.flatMap Piece.bytes

/-- The terminators that are to be read. -/
def weight (pieces : List Piece) : ℕ := (pieces.map Piece.opened).sum

def AllPlain (pieces : List Piece) : Prop := ∀ piece ∈ pieces, piece.Plain

/-- What is read of the pieces leaves pieces, and took as many terminators as it has
large collections. -/
def Leaves (pieces : List Piece) (taken : ℕ) (rest : Bytes) : Prop :=
  ∃ pieces', rest = stream pieces' ∧ AllPlain pieces' ∧ taken + weight pieces' ≤ weight pieces

/-- A reader that makes no large collection without a terminator. -/
def Accounts (read : Reader PlistValue) : Prop :=
  ∀ pieces objects value rest objects', AllPlain pieces →
    read (stream pieces) objects = .ok (value, rest, objects') →
      Leaves pieces (large (collections value)) rest

theorem bind_eq_ok {α β : Type} {first : Except OpackError α} {next : α → Except OpackError β}
    {result : β} (h : (first >>= next) = .ok result) :
    ∃ value, first = .ok value ∧ next value = .ok result := by
  cases first with
  | error error => cases h
  | ok value => exact ⟨value, rfl, h⟩

theorem Leaves.trans {pieces pieces' : List Piece} {taken taken' : ℕ} {rest : Bytes}
    (hle : taken + weight pieces' ≤ weight pieces) (h : Leaves pieces' taken' rest) :
    Leaves pieces (taken + taken') rest := by
  obtain ⟨pieces'', hrest, hplain, hweight⟩ := h
  exact ⟨pieces'', hrest, hplain, by omega⟩

theorem Leaves.mono {pieces : List Piece} {taken taken' : ℕ} {rest : Bytes}
    (h : Leaves pieces taken rest) (hle : taken' ≤ taken) : Leaves pieces taken' rest := by
  obtain ⟨pieces', hrest, hplain, hweight⟩ := h
  exact ⟨pieces', hrest, hplain, by omega⟩

variable {read : Reader PlistValue}

theorem large_append (lens lens' : List ℕ) : large (lens ++ lens') = large lens + large lens' :=
  List.countP_append ..

theorem collectionsOfItems_snoc (items : List PlistValue) (item : PlistValue) :
    collectionsOfItems (items ++ [item]) = collectionsOfItems items ++ collections item := by
  induction items with
  | nil => simp [collectionsOfItems]
  | cons first items ih => rw [List.cons_append, collectionsOfItems, ih, collectionsOfItems,
      List.append_assoc]

theorem countedItems_leaves (hread : Accounts read) (count : ℕ) {before items : List PlistValue}
    {pieces : List Piece} {objects objects' : Objects} {rest : Bytes} (hplain : AllPlain pieces)
    (h : countedItems read count before (stream pieces) objects = .ok (items, rest, objects')) :
    items.length = before.length + count ∧
      ∃ taken, large (collectionsOfItems items) = large (collectionsOfItems before) + taken ∧
        Leaves pieces taken rest := by
  induction count generalizing before pieces objects with
  | zero =>
    cases h
    exact ⟨rfl, 0, rfl, pieces, rfl, hplain, by omega⟩
  | succ count ih =>
    obtain ⟨⟨item, middle, objects₁⟩, hitem, hrest⟩ := bind_eq_ok h
    obtain ⟨pieces₁, rfl, hplain₁, hweight⟩ := hread pieces objects item middle objects₁ hplain hitem
    obtain ⟨hlength, taken, htaken, hleaves⟩ := ih hplain₁ hrest
    rw [collectionsOfItems_snoc, large_append] at htaken
    rw [List.length_append, List.length_singleton] at hlength
    exact ⟨by omega, large (collections item) + taken, by omega, hleaves.trans hweight⟩

/-- The terminator is a piece of its own. -/
theorem stream_terminator {pieces : List Piece} (hplain : AllPlain pieces)
    (h : (stream pieces).head? = some 0x03) :
    ∃ pieces', pieces = .terminator :: pieces' ∧ (stream pieces).drop 1 = stream pieces' := by
  cases pieces with
  | nil => cases h
  | cons piece pieces =>
    cases piece with
    | value value => exact absurd h (head_ne_terminator (hplain _ (List.mem_cons_self ..)) (stream pieces))
    | terminator => exact ⟨pieces, rfl, rfl⟩

theorem openItems_leaves (hread : Accounts read) (rounds : ℕ) {before items : List PlistValue}
    {pieces : List Piece} {objects objects' : Objects} {rest : Bytes} (hplain : AllPlain pieces)
    (h : openItems read rounds before (stream pieces) objects = .ok (items, rest, objects')) :
    ∃ taken, large (collectionsOfItems items) = large (collectionsOfItems before) + taken ∧
      Leaves pieces taken rest := by
  induction rounds generalizing before pieces objects with
  | zero => cases h
  | succ rounds ih =>
    unfold openItems at h
    split at h
    · rename_i hhead
      obtain ⟨pieces', rfl, hdrop⟩ := stream_terminator hplain hhead
      cases h
      refine ⟨0, rfl, pieces', hdrop, ?_, ?_⟩
      · exact fun piece hpiece => hplain piece (List.mem_cons_of_mem _ hpiece)
      · simp [weight]
    · obtain ⟨⟨item, middle, objects₁⟩, hitem, hrest⟩ := bind_eq_ok h
      obtain ⟨pieces₁, rfl, hplain₁, hweight⟩ := hread pieces objects item middle objects₁ hplain hitem
      obtain ⟨taken, htaken, hleaves⟩ := ih hplain₁ hrest
      rw [collectionsOfItems_snoc, large_append] at htaken
      exact ⟨large (collections item) + taken, by omega, hleaves.trans hweight⟩

theorem collectionsOfEntries_snoc (entries : List (String × PlistValue)) (key : String)
    (value : PlistValue) :
    collectionsOfEntries (entries ++ [(key, value)]) =
      collectionsOfEntries entries ++ collections value := by
  induction entries with
  | nil => simp [collectionsOfEntries, collectionsOfEntry]
  | cons first entries ih => rw [List.cons_append, collectionsOfEntries, ih, collectionsOfEntries,
      List.append_assoc]

/-- The value of one key is put in the place of another. -/
theorem large_replace {entries : List (String × PlistValue)} (hkeys : (entries.map Prod.fst).Nodup)
    (key : String) (value : PlistValue) :
    large (collectionsOfEntries
      (entries.map fun entry => if entry.1 == key then (key, value) else entry)) ≤
        large (collectionsOfEntries entries) + large (collections value) := by
  induction entries with
  | nil => exact Nat.zero_le _
  | cons entry entries ih =>
    obtain ⟨other, old⟩ := entry
    rw [List.map_cons, List.nodup_cons] at hkeys
    by_cases hkey : other = key
    · subst hkey
      have hsame : (entries.map fun entry => if entry.1 == other then (other, value) else entry) =
          entries := by
        rw [List.map_congr_left (g := id), List.map_id]
        intro entry hentry
        rw [if_neg]
        · rfl
        · intro heq
          exact hkeys.1 (List.mem_map.mpr ⟨entry, hentry, beq_iff_eq.mp heq⟩)
      rw [List.map_cons, hsame, if_pos (beq_self_eq_true other)]
      simp only [collectionsOfEntries, collectionsOfEntry, large_append]
      omega
    · have hrest := ih hkeys.2
      rw [List.map_cons, if_neg (by simpa using hkey)]
      simp only [collectionsOfEntries, collectionsOfEntry, large_append]
      omega

theorem insertKey_large {entries : List (String × PlistValue)} (hkeys : (entries.map Prod.fst).Nodup)
    (key : String) (value : PlistValue) :
    ((insertKey entries key value).map Prod.fst).Nodup ∧
      (insertKey entries key value).length ≤ entries.length + 1 ∧
        large (collectionsOfEntries (insertKey entries key value)) ≤
          large (collectionsOfEntries entries) + large (collections value) := by
  by_cases hmem : key ∈ entries.map Prod.fst
  · have hany : entries.any (fun entry => entry.1 == key) = true := by
      obtain ⟨entry, hentry, hkey⟩ := List.mem_map.mp hmem
      exact List.any_eq_true.mpr ⟨entry, hentry, beq_iff_eq.mpr hkey⟩
    have hsame : (entries.map fun entry => if entry.1 == key then (key, value) else entry).map
        Prod.fst = entries.map Prod.fst := by
      rw [List.map_map]
      apply List.map_congr_left
      intro entry _
      by_cases hkey : entry.1 = key
      · simp [hkey]
      · simp [hkey]
    unfold insertKey
    rw [if_pos hany]
    refine ⟨by rwa [hsame], by simp, large_replace hkeys key value⟩
  · rw [insertKey_new value hmem, List.map_append, collectionsOfEntries_snoc, large_append]
    refine ⟨?_, by simp, Nat.le_refl _⟩
    refine List.nodup_append.mpr ⟨hkeys, by simp, ?_⟩
    intro other hother last hlast heq
    rw [List.map_cons, List.map_nil, List.mem_singleton] at hlast
    rw [heq, hlast] at hother
    exact hmem hother

/-- A key and a value, and the dictionary with them. -/
theorem entry_leaves (hread : Accounts read) {before : List (String × PlistValue)}
    (hkeys : (before.map Prod.fst).Nodup) {pieces : List Piece} {objects : Objects}
    (hplain : AllPlain pieces) {α : Type}
    {next : List (String × PlistValue) → Bytes → Objects → Except OpackError α} {result : α}
    (h : (do
      let (key, bytes, objects) ← readDictionaryKey read (stream pieces) objects
      let (value, bytes, objects) ← read bytes objects
      next (insertKey before key value) bytes objects) = .ok result) :
    ∃ after pieces' objects' taken, next after (stream pieces') objects' = .ok result ∧
      AllPlain pieces' ∧ (after.map Prod.fst).Nodup ∧ after.length ≤ before.length + 1 ∧
        large (collectionsOfEntries after) ≤ large (collectionsOfEntries before) + taken ∧
          taken + weight pieces' ≤ weight pieces := by
  obtain ⟨⟨key, middle, objects₁⟩, hkey, h⟩ := bind_eq_ok h
  obtain ⟨⟨value, rest, objects₂⟩, hvalue, h⟩ := bind_eq_ok h
  obtain ⟨⟨name, middle', objects₁'⟩, hname, hkey⟩ := bind_eq_ok hkey
  obtain ⟨pieces₁, hmiddle, hplain₁, hweight₁⟩ := hread pieces objects name middle' objects₁' hplain hname
  have hsame : middle = stream pieces₁ := by
    rw [← hmiddle]
    cases name <;> cases hkey
    rfl
  subst hsame
  obtain ⟨pieces₂, rfl, hplain₂, hweight₂⟩ :=
    hread pieces₁ objects₁ value rest objects₂ hplain₁ hvalue
  obtain ⟨hnodup, hlength, hlarge⟩ := insertKey_large hkeys key value
  exact ⟨insertKey before key value, pieces₂, objects₂, large (collections value), h, hplain₂,
    hnodup, hlength, hlarge, by omega⟩

theorem countedEntries_leaves (hread : Accounts read) (count : ℕ)
    {before entries : List (String × PlistValue)} (hkeys : (before.map Prod.fst).Nodup)
    {pieces : List Piece} {objects objects' : Objects} {rest : Bytes} (hplain : AllPlain pieces)
    (h : countedEntries read count before (stream pieces) objects = .ok (entries, rest, objects')) :
    entries.length ≤ before.length + count ∧
      ∃ taken, large (collectionsOfEntries entries) ≤ large (collectionsOfEntries before) + taken ∧
        Leaves pieces taken rest := by
  induction count generalizing before pieces objects with
  | zero =>
    cases h
    exact ⟨Nat.le_refl _, 0, Nat.le_refl _, pieces, rfl, hplain, by omega⟩
  | succ count ih =>
    obtain ⟨after, pieces₁, objects₁, first, hrest, hplain₁, hnodup, hlength, hlarge, hweight⟩ :=
      entry_leaves hread hkeys hplain h
    obtain ⟨hlength', taken, htaken, hleaves⟩ := ih hnodup hplain₁ hrest
    exact ⟨by omega, first + taken, by omega, hleaves.trans hweight⟩

theorem openEntries_leaves (hread : Accounts read) (rounds : ℕ)
    {before entries : List (String × PlistValue)} (hkeys : (before.map Prod.fst).Nodup)
    {pieces : List Piece} {objects objects' : Objects} {rest : Bytes} (hplain : AllPlain pieces)
    (h : openEntries read rounds before (stream pieces) objects = .ok (entries, rest, objects')) :
    ∃ taken, large (collectionsOfEntries entries) ≤ large (collectionsOfEntries before) + taken ∧
      Leaves pieces taken rest := by
  induction rounds generalizing before pieces objects with
  | zero => cases h
  | succ rounds ih =>
    unfold openEntries at h
    split at h
    · rename_i hhead
      obtain ⟨pieces', rfl, hdrop⟩ := stream_terminator hplain hhead
      cases h
      refine ⟨0, Nat.le_refl _, pieces', hdrop, ?_, ?_⟩
      · exact fun piece hpiece => hplain piece (List.mem_cons_of_mem _ hpiece)
      · simp [weight]
    · obtain ⟨after, pieces₁, objects₁, first, hrest, hplain₁, hnodup, -, hlarge, hweight⟩ :=
        entry_leaves hread hkeys hplain h
      obtain ⟨taken, htaken, hleaves⟩ := ih hnodup hplain₁ hrest
      exact ⟨first + taken, by omega, hleaves.trans hweight⟩

/-- The pieces of a collection behind its tag. -/
theorem stream_items (items : List PlistValue) :
    stream (items.map .value) = encodeItems items ∧
      weight (items.map .value) = opened (collectionsOfItems items) := by
  induction items with
  | nil => exact ⟨rfl, rfl⟩
  | cons item items ih =>
    obtain ⟨hstream, hweight⟩ := ih
    constructor
    · rw [encodeItems, ← hstream]
      rfl
    · show opened (collections item) + weight (items.map .value) = _
      rw [hweight, collectionsOfItems]
      exact List.countP_append.symm

def entryPieces (entries : List (String × PlistValue)) : List Piece :=
  entries.flatMap fun entry => [.value (.string entry.1), .value entry.2]

theorem stream_entries (entries : List (String × PlistValue)) :
    stream (entryPieces entries) = encodeEntries entries ∧
      weight (entryPieces entries) = opened (collectionsOfEntries entries) := by
  induction entries with
  | nil => exact ⟨rfl, rfl⟩
  | cons entry entries ih =>
    obtain ⟨key, value⟩ := entry
    obtain ⟨hstream, hweight⟩ := ih
    constructor
    · rw [encodeEntries, ← hstream, encodeEntry, List.append_assoc]
      rfl
    · show 0 + (opened (collections value) + weight (entryPieces entries)) = _
      rw [hweight, collectionsOfEntries, Nat.zero_add]
      exact List.countP_append.symm

theorem allPlain_items {items : List PlistValue} (h : ∀ item ∈ items, Plain item) :
    AllPlain (items.map .value) := by
  intro piece hpiece
  obtain ⟨item, hitem, rfl⟩ := List.mem_map.mp hpiece
  exact h item hitem

theorem allPlain_entries {entries : List (String × PlistValue)}
    (hlengths : ∀ entry ∈ entries, (asBytes entry.1).length < 2 ^ 64)
    (h : ∀ entry ∈ entries, Plain entry.2) : AllPlain (entryPieces entries) := by
  intro piece hpiece
  obtain ⟨entry, hentry, hmem⟩ := List.mem_flatMap.mp hpiece
  rw [List.mem_cons, List.mem_singleton] at hmem
  rcases hmem with rfl | rfl
  · exact .string _ (hlengths entry hentry)
  · exact h entry hentry

/-- A scalar is the first piece, and the others are left. -/
theorem scalar_leaves {value : PlistValue} (h : ReadsBack value) (hscalar : collections value = [])
    {pieces : List Piece} (hplain : AllPlain pieces) {rounds : ℕ} {objects objects' : Objects}
    {result : PlistValue} {rest : Bytes}
    (hread : opackToPlistInner (rounds + 1) (stream (.value value :: pieces)) objects =
      .ok (result, rest, objects')) :
    Leaves (.value value :: pieces) (large (collections result)) rest := by
  obtain ⟨objects₁, hown⟩ := decodes_of_readsBack h rounds (stream pieces) objects
  have hsame := hread.symm.trans hown
  cases hsame
  refine ⟨pieces, rfl, hplain, ?_⟩
  rw [hscalar]
  show 0 + weight pieces ≤ opened _ + weight pieces
  omega

theorem pieces_append {before after : List Piece} :
    stream (before ++ after) = stream before ++ stream after ∧
      weight (before ++ after) = weight before + weight after := by
  constructor
  · exact List.flatMap_append
  · unfold weight
    rw [List.map_append, List.sum_append]

theorem weight_value {value : PlistValue} {lens : List ℕ} (h : collections value = lens)
    (pieces : List Piece) : weight (.value value :: pieces) = opened lens + weight pieces := by
  rw [← h]
  rfl

section Elements

variable {len : ℕ} {lens : List ℕ} {value : PlistValue} (hvalue : collections value = len :: lens)
  {elements pieces : List Piece} (helements : weight elements = opened lens) {taken : ℕ}
  {rest : Bytes}

include hvalue helements

/-- The elements of a collection in front of the pieces behind it. -/
theorem counted_leaves (hcount : countOf len < 15) (h : Leaves (elements ++ pieces) taken rest) :
    Leaves (.value value :: pieces) taken rest := by
  obtain ⟨pieces', hrest, hplain, hle⟩ := h
  have hopened : opened (len :: lens) = opened lens :=
    List.countP_cons_of_neg (by simpa using hcount)
  have hweight := weight_value hvalue pieces
  rw [pieces_append.2] at hle
  exact ⟨pieces', hrest, hplain, by omega⟩

/-- A terminator is behind the elements. -/
theorem open_leaves (hcount : 15 ≤ countOf len)
    (h : Leaves (elements ++ .terminator :: pieces) taken rest) :
    Leaves (.value value :: pieces) (taken + 1) rest := by
  obtain ⟨pieces', hrest, hplain, hle⟩ := h
  have hopened : opened (len :: lens) = opened lens + 1 :=
    List.countP_cons_of_pos (by simpa using hcount)
  have hweight := weight_value hvalue pieces
  have hterminator : weight (.terminator :: pieces) = weight pieces := Nat.zero_add _
  rw [pieces_append.2, hterminator] at hle
  exact ⟨pieces', hrest, hplain, by omega⟩

end Elements

theorem allPlain_append {before after : List Piece} (hbefore : AllPlain before)
    (hafter : AllPlain after) : AllPlain (before ++ after) := by
  intro piece hpiece
  rcases List.mem_append.mp hpiece with hpiece | hpiece
  · exact hbefore piece hpiece
  · exact hafter piece hpiece

theorem allPlain_terminator {pieces : List Piece} (h : AllPlain pieces) :
    AllPlain (.terminator :: pieces) := by
  intro piece hpiece
  rcases List.mem_cons.mp hpiece with rfl | hpiece
  · trivial
  · exact h piece hpiece

theorem large_cons (len : ℕ) (lens : List ℕ) :
    large (len :: lens) = large lens + if 15 ≤ len then 1 else 0 := by
  unfold large
  rw [List.countP_cons]
  simp

theorem array_leaves {rounds : ℕ} (hread : Accounts (opackToPlistInner rounds))
    {items : List PlistValue} (hitems : ∀ item ∈ items, Plain item) {pieces : List Piece}
    (hplain : AllPlain pieces) {objects objects' : Objects} {result : PlistValue} {rest : Bytes}
    (h : opackToPlistInner (rounds + 1) (stream (.value (.array items) :: pieces)) objects =
      .ok (result, rest, objects')) :
    Leaves (.value (.array items) :: pieces) (large (collections result)) rest := by
  obtain ⟨helements, hweight⟩ := stream_items items
  have hallItems := allPlain_items hitems
  have hcollections : collections (.array items) = items.length :: collectionsOfItems items := by
    rw [collections]
  have hencode : stream (.value (.array items) :: pieces) =
      plistToOpack (.array items) ++ stream pieces := rfl
  rw [hencode, plistToOpack] at h
  unfold blen terminator at h
  by_cases hcount : countOf items.length < 15
  · rw [if_pos hcount, if_neg (by omega), List.append_nil, List.cons_append,
      inner_cons rounds (by omega), parseTag_counted_items rounds hcount, ← helements,
      ← pieces_append.1] at h
    obtain ⟨⟨found, bytes, objects₁⟩, hcounted, h⟩ := bind_eq_ok h
    cases h
    obtain ⟨hlength, taken, htaken, hleaves⟩ :=
      countedItems_leaves hread _ (allPlain_append hallItems hplain) hcounted
    refine counted_leaves hcollections hweight hcount (hleaves.mono ?_)
    have hnil : large (collectionsOfItems []) = 0 := rfl
    rw [List.length_nil] at hlength
    rw [collections, large_cons, if_neg (by omega)]
    omega
  · rw [if_neg hcount, if_pos (by omega), List.cons_append, inner_cons rounds (by omega),
      List.append_assoc, ← helements] at h
    have hstream : stream (items.map .value) ++ ([0x03] ++ stream pieces) =
        stream (items.map .value ++ .terminator :: pieces) := by
      rw [pieces_append.1]
      rfl
    rw [hstream] at h
    have hparse : parseTag (opackToPlistInner rounds) rounds 0xDF = fun bytes objects =>
        openItems (opackToPlistInner rounds) rounds [] bytes objects >>= fun opened =>
          pure (.array opened.1, opened.2) := rfl
    rw [hparse] at h
    obtain ⟨⟨found, bytes, objects₁⟩, hopened, h⟩ := bind_eq_ok h
    change pure (PlistValue.array found, bytes, objects₁) = _ at h
    cases h
    obtain ⟨taken, htaken, hleaves⟩ := openItems_leaves hread _
      (allPlain_append hallItems (allPlain_terminator hplain)) hopened
    refine (open_leaves hcollections hweight (by omega) hleaves).mono ?_
    have hnil : large (collectionsOfItems []) = 0 := rfl
    rw [collections, large_cons]
    split <;> omega

theorem dictionary_leaves {rounds : ℕ} (hread : Accounts (opackToPlistInner rounds))
    {entries : List (String × PlistValue)}
    (hlengths : ∀ entry ∈ entries, (asBytes entry.1).length < 2 ^ 64)
    (hentries : ∀ entry ∈ entries, Plain entry.2) {pieces : List Piece}
    (hplain : AllPlain pieces) {objects objects' : Objects} {result : PlistValue} {rest : Bytes}
    (h : opackToPlistInner (rounds + 1) (stream (.value (.dictionary entries) :: pieces)) objects =
      .ok (result, rest, objects')) :
    Leaves (.value (.dictionary entries) :: pieces) (large (collections result)) rest := by
  obtain ⟨helements, hweight⟩ := stream_entries entries
  have hallEntries := allPlain_entries hlengths hentries
  have hcollections : collections (.dictionary entries) =
      entries.length :: collectionsOfEntries entries := by
    rw [collections]
  have hencode : stream (.value (.dictionary entries) :: pieces) =
      plistToOpack (.dictionary entries) ++ stream pieces := rfl
  have hnodup : (([] : List (String × PlistValue)).map Prod.fst).Nodup := List.nodup_nil
  have hnil : large (collectionsOfEntries []) = 0 := rfl
  rw [hencode, plistToOpack] at h
  unfold blen terminator at h
  by_cases hcount : countOf entries.length < 15
  · rw [if_pos hcount, if_neg (by omega), List.append_nil, List.cons_append,
      inner_cons rounds (by omega), parseTag_counted_entries rounds hcount, ← helements,
      ← pieces_append.1] at h
    obtain ⟨⟨found, bytes, objects₁⟩, hcounted, h⟩ := bind_eq_ok h
    cases h
    obtain ⟨hlength, taken, htaken, hleaves⟩ :=
      countedEntries_leaves hread _ hnodup (allPlain_append hallEntries hplain) hcounted
    refine counted_leaves hcollections hweight hcount (hleaves.mono ?_)
    rw [List.length_nil] at hlength
    rw [collections, large_cons, if_neg (by omega)]
    omega
  · rw [if_neg hcount, if_pos (by omega), List.cons_append, inner_cons rounds (by omega),
      List.append_assoc, ← helements] at h
    have hstream : stream (entryPieces entries) ++ ([0x03] ++ stream pieces) =
        stream (entryPieces entries ++ .terminator :: pieces) := by
      rw [pieces_append.1]
      rfl
    rw [hstream] at h
    have hparse : parseTag (opackToPlistInner rounds) rounds 0xEF = fun bytes objects =>
        openEntries (opackToPlistInner rounds) rounds [] bytes objects >>= fun opened =>
          pure (.dictionary opened.1, opened.2) := rfl
    rw [hparse] at h
    obtain ⟨⟨found, bytes, objects₁⟩, hopened, h⟩ := bind_eq_ok h
    change pure (PlistValue.dictionary found, bytes, objects₁) = _ at h
    cases h
    obtain ⟨taken, htaken, hleaves⟩ := openEntries_leaves hread _ hnodup
      (allPlain_append hallEntries (allPlain_terminator hplain)) hopened
    refine (open_leaves hcollections hweight (by omega) hleaves).mono ?_
    rw [collections, large_cons]
    split <;> omega

/-- No collection of 15 elements or more is read without a terminator. -/
theorem accounts (rounds : ℕ) : Accounts (opackToPlistInner rounds) := by
  induction rounds with
  | zero =>
    intro pieces objects value rest objects' _ h
    cases h
  | succ rounds ih =>
    intro pieces objects value rest objects' hplain h
    cases pieces with
    | nil => cases h
    | cons piece pieces =>
      have hpieces : AllPlain pieces := fun other hother => hplain other (List.mem_cons_of_mem _ hother)
      cases piece with
      | terminator =>
        cases h
      | value first =>
        have hfirst : Plain first := hplain _ (List.mem_cons_self ..)
        cases hfirst with
        | boolean value => exact scalar_leaves (readsBack_boolean value) rfl hpieces h
        | integer value hvalue => exact scalar_leaves (readsBack_integer hvalue) rfl hpieces h
        | real bits => exact scalar_leaves (readsBack_real bits) rfl hpieces h
        | string text htext => exact scalar_leaves (readsBack_string htext) rfl hpieces h
        | data bytes hbytes => exact scalar_leaves (readsBack_data hbytes) rfl hpieces h
        | array items hitems => exact array_leaves ih hitems hpieces h
        | dictionary entries _ hlengths hentries =>
          exact dictionary_leaves ih hlengths hentries hpieces h

/-- OPACK gives a plist back exactly when no collection's count is cut off. -/
theorem opack_roundTrip {value : PlistValue} (h : Plain value) :
    opackToPlist (plistToOpack value) = .ok value ↔ ∀ len ∈ collections value, ¬ CutOff len := by
  constructor
  · intro hread len hmem hcut
    obtain ⟨⟨result, rest, objects⟩, hinner, hend⟩ := bind_eq_ok hread
    have hplain : AllPlain [.value value] := by
      intro piece hpiece
      rw [List.mem_singleton.mp hpiece]
      exact h
    have hstream : stream [.value value] = plistToOpack value := List.append_nil _
    have hsame : result = value := by
      cases rest with
      | nil =>
        cases hend
        rfl
      | cons byte rest => cases hend
    subst hsame
    rw [← hstream] at hinner
    obtain ⟨pieces, -, -, hweight⟩ := accounts _ _ _ _ _ _ hplain hinner
    have hlarge := opened_lt_large hmem hcut
    have hown : weight [.value result] = opened (collections result) + 0 := rfl
    omega
  · intro hcut
    exact opackToPlist_of_plain h hcut

theorem opack_roundTrip_pair :
    opackToPlist (plistToOpack (.dictionary [("name", .string "phone"), ("wired", .boolean true)])) =
      .ok (.dictionary [("name", .string "phone"), ("wired", .boolean true)]) := by
  have hplain : Plain (.dictionary [("name", .string "phone"), ("wired", .boolean true)]) := by
    refine .dictionary _ (by decide) (by decide) ?_
    intro entry hentry
    rw [List.mem_cons, List.mem_singleton] at hentry
    rcases hentry with rfl | rfl
    · exact .string _ (by decide)
    · exact .boolean _
  apply (opack_roundTrip hplain).mpr
  intro len hlen hcut
  have hfew : len ≤ 2 := by
    have hall : ∀ len ∈ collections (.dictionary [("name", .string "phone"), ("wired", .boolean true)]),
        len ≤ 2 := by decide
    exact hall len hlen
  unfold CutOff at hcut
  omega

/-- The tag of an array of 2³² booleans says that it is empty, and they are left over. -/
theorem array_cut_off :
    Plain (.array (List.replicate (2 ^ 32) (.boolean true))) ∧
      opackToPlist (plistToOpack (.array (List.replicate (2 ^ 32) (.boolean true)))) =
        .error (.trailingBytes (2 ^ 32)) := by
  constructor
  · refine .array _ fun item hitem => ?_
    rw [List.eq_of_mem_replicate hitem]
    exact .boolean true
  · have hitems : ∀ count, encodeItems (List.replicate count (.boolean true)) =
        List.replicate count 0x01 := by
      intro count
      induction count with
      | zero => rfl
      | succ count ih =>
        rw [List.replicate_succ, encodeItems, ih]
        rfl
    have hcount : countOf (2 ^ 32) = 0 := rfl
    have hencode : plistToOpack (.array (List.replicate (2 ^ 32) (.boolean true))) =
        UInt8.ofNat 0xD0 :: List.replicate (2 ^ 32) 0x01 := by
      rw [plistToOpack, hitems, List.length_replicate, hcount]
      unfold blen terminator
      rw [if_pos (by omega), if_neg (by omega), List.append_nil]
    unfold opackToPlist
    rw [hencode, List.length_cons, inner_cons _ (by omega)]
    generalize hrest : List.replicate (2 ^ 32) (0x01 : UInt8) = rest
    have hlength : rest.length = 2 ^ 32 := by
      rw [← hrest, List.length_replicate]
    cases rest with
    | nil => cases hlength
    | cons byte rest =>
      show Except.error (OpackError.trailingBytes (byte :: rest).length) = _
      rw [hlength]

end XitForge.RemotePairing
