import XitForge.Afc.Client
import XitForge.RustText
import Mathlib.Data.List.Nodup

/-!
The map that `parse_kv_payload` makes of the texts of a payload. The texts are what
stands between zero bytes, the empty ones are dropped, and only then are they taken two
by two; so the map is the one that was written exactly when no value is empty.
-/
namespace XitForge.Afc

open RustText

namespace AfcClient

/-- The `HashMap` of `parse_kv_payload`: of entries with one key the last one stays. -/
def kvMap (payload : Bytes) (key : String) : Option String :=
  let entries := (parseKvPayload payload).map fun kv => (fromUtf8Lossy kv.1, fromUtf8Lossy kv.2)
  (entries.reverse.find? fun kv => kv.1 == key).map Prod.snd

/-- The bytes of a text, which end with a zero byte. -/
def terminated (text : String) : Bytes := text.toUTF8.data.toList ++ [0]

/-- A payload: key NUL value NUL, one pair after the other. -/
def encodeKvs (kvs : List (String × String)) : Bytes :=
  kvs.flatMap fun kv => terminated kv.1 ++ terminated kv.2

/-- The key/value pairs that a payload can carry. -/
structure KvPairs where
  pairs : List (String × String)
  keys_ne : ∀ kv ∈ pairs, kv.1 ≠ ""
  keys_distinct : (pairs.map Prod.fst).Nodup
  nulFree : ∀ kv ∈ pairs, '\x00' ∉ kv.1.toList ∧ '\x00' ∉ kv.2.toList

/-- The map that the pairs are. -/
def KvPairs.lookup (kvs : KvPairs) (key : String) : Option String :=
  (kvs.pairs.find? fun kv => kv.1 == key).map Prod.snd

section Texts

variable {text : String}

theorem zero_notMem_utf8 (h : '\x00' ∉ text.toList) : 0 ∉ text.toUTF8.data.toList := by
  rw [utf8_eq]
  intro hmem
  obtain ⟨c, hc, hzero⟩ := List.mem_flatMap.mp hmem
  have hnul : c.toNat ≠ 0 := by
    intro h0
    have hchar : c = '\x00' := by rw [← Char.ofNat_toNat c, h0]
    exact h (hchar ▸ hc)
  exact zero_notMem_utf8EncodeChar hnul hzero

theorem utf8_eq_nil_iff : text.toUTF8.data.toList = [] ↔ text = "" := by
  constructor
  · intro h
    rw [utf8_eq] at h
    rw [← fromUtf8Lossy_encode text, h]
    rfl
  · intro heq
    subst heq
    rfl

theorem fromUtf8Lossy_utf8 (text : String) : fromUtf8Lossy text.toUTF8.data.toList = text := by
  rw [utf8_eq, fromUtf8Lossy_encode]

/-- A text without a zero byte is split off whole. -/
theorem splitStrings_terminated (h : '\x00' ∉ text.toList) (rest : Bytes) :
    splitStrings (terminated text ++ rest) =
      if text = "" then splitStrings rest else text.toUTF8.data.toList :: splitStrings rest := by
  have hsplit : (terminated text ++ rest).splitOn 0 =
      text.toUTF8.data.toList :: rest.splitOn 0 := by
    rw [terminated, List.append_assoc, List.singleton_append]
    exact List.splitOn_append_cons_self_of_not_mem (zero_notMem_utf8 h) rest
  rw [splitStrings, hsplit, List.filter_cons]
  by_cases hempty : text = ""
  · rw [if_pos hempty, utf8_eq_nil_iff.mpr hempty]
    rfl
  · have hne : text.toUTF8.data.toList ≠ [] := fun hnil => hempty (utf8_eq_nil_iff.mp hnil)
    rw [if_neg hempty, if_pos (by simpa using hne)]
    rfl

end Texts

/-- Without an empty text the pairs are read as they were written. -/
theorem parseKvPayload_encodeKvs {kvs : List (String × String)}
    (hnul : ∀ kv ∈ kvs, '\x00' ∉ kv.1.toList ∧ '\x00' ∉ kv.2.toList)
    (hkeys : ∀ kv ∈ kvs, kv.1 ≠ "") (hvalues : ∀ kv ∈ kvs, kv.2 ≠ "") :
    parseKvPayload (encodeKvs kvs) =
      kvs.map fun kv => (kv.1.toUTF8.data.toList, kv.2.toUTF8.data.toList) := by
  induction kvs with
  | nil => rfl
  | cons kv kvs ih =>
    obtain ⟨hkey, hrestKeys⟩ := List.forall_mem_cons.mp hkeys
    obtain ⟨hvalue, hrestValues⟩ := List.forall_mem_cons.mp hvalues
    obtain ⟨⟨hnulKey, hnulValue⟩, hrestNul⟩ := List.forall_mem_cons.mp hnul
    have hrest := ih hrestNul hrestKeys hrestValues
    have hcons : encodeKvs (kv :: kvs) =
        terminated kv.1 ++ (terminated kv.2 ++ encodeKvs kvs) := by
      rw [encodeKvs, List.flatMap_cons, List.append_assoc]
      rfl
    rw [parseKvPayload] at hrest ⊢
    rw [hcons, splitStrings_terminated hnulKey, if_neg hkey, splitStrings_terminated hnulValue,
      if_neg hvalue, pairs, hrest, List.map_cons]

theorem ne_nil_of_mem_pairs {payload : Bytes} {kv : Bytes × Bytes}
    (h : kv ∈ parseKvPayload payload) : kv.1 ≠ [] ∧ kv.2 ≠ [] := by
  have hmem : ∀ strings : List Bytes, kv ∈ pairs strings → kv.1 ∈ strings ∧ kv.2 ∈ strings := by
    intro strings
    induction strings using pairs.induct with
    | case1 key value rest ih =>
      rw [pairs, List.mem_cons]
      intro hcase
      rcases hcase with rfl | hrest
      · simp
      · have := ih hrest
        simp [this.1, this.2]
    | case2 strings hshort =>
      intro hkv
      rw [pairs.eq_2 _ hshort] at hkv
      simp at hkv
  obtain ⟨hkey, hvalue⟩ := hmem _ h
  have hne : ∀ string ∈ splitStrings payload, string ≠ [] := by
    intro string hstring
    simpa using (List.mem_filter.mp hstring).2
  exact ⟨hne _ hkey, hne _ hvalue⟩

/-- No value of the map is empty: empty texts are dropped before the texts are paired. -/
theorem kvMap_ne_empty (payload : Bytes) (key : String) : kvMap payload key ≠ some "" := by
  intro h
  obtain ⟨entry, hfind, hvalue⟩ := Option.map_eq_some_iff.mp h
  have hmem := List.mem_reverse.mp (List.mem_of_find?_eq_some hfind)
  obtain ⟨kv, hkv, rfl⟩ := List.mem_map.mp hmem
  exact (ne_nil_of_mem_pairs hkv).2 (fromUtf8Lossy_eq_empty hvalue)

/-- With distinct keys it does not matter from which end an entry is looked for. -/
theorem find?_eq_some_iff_mem {entries : List (String × String)}
    (h : (entries.map Prod.fst).Nodup) {key : String} {entry : String × String} :
    (entries.find? fun kv => kv.1 == key) = some entry ↔ entry ∈ entries ∧ entry.1 = key := by
  constructor
  · intro hfind
    have hkey := List.find?_some hfind
    exact ⟨List.mem_of_find?_eq_some hfind, by simpa using hkey⟩
  · intro hgiven
    obtain ⟨hmem, rfl⟩ := hgiven
    have hsome : (entries.find? fun kv => kv.1 == entry.1).isSome :=
      List.find?_isSome.mpr ⟨entry, hmem, by simp⟩
    obtain ⟨found, hfind⟩ := Option.isSome_iff_exists.mp hsome
    have hkey := List.find?_some hfind
    have hsame := List.inj_on_of_nodup_map h (List.mem_of_find?_eq_some hfind) hmem
      (by simpa using hkey)
    rw [hfind, hsame]

theorem find?_reverse_of_nodup {entries : List (String × String)}
    (h : (entries.map Prod.fst).Nodup) (key : String) :
    (entries.reverse.find? fun kv => kv.1 == key) = entries.find? fun kv => kv.1 == key := by
  have hreverse : (entries.reverse.map Prod.fst).Nodup := by
    rwa [List.map_reverse, List.nodup_reverse]
  ext entry
  rw [find?_eq_some_iff_mem hreverse, find?_eq_some_iff_mem h, List.mem_reverse]

/-- The payload of the pairs is read as the map that they are, exactly when none of the
values is empty. -/
theorem kvMap_encodeKvs_iff (kvs : KvPairs) :
    kvMap (encodeKvs kvs.pairs) = kvs.lookup ↔ ∀ kv ∈ kvs.pairs, kv.2 ≠ "" := by
  constructor
  · intro hmap kv hkv hempty
    have hlookup : kvs.lookup kv.1 = some kv.2 := by
      rw [KvPairs.lookup, (find?_eq_some_iff_mem kvs.keys_distinct).mpr ⟨hkv, rfl⟩, Option.map_some]
    rw [← hmap, hempty] at hlookup
    exact kvMap_ne_empty _ _ hlookup
  · intro hvalues
    funext key
    have hread := parseKvPayload_encodeKvs kvs.nulFree kvs.keys_ne hvalues
    simp only [kvMap, hread, List.map_map, Function.comp_def, fromUtf8Lossy_utf8]
    rw [List.map_id', find?_reverse_of_nodup kvs.keys_distinct]
    rfl

/-- An empty value makes its key and the next key a pair. -/
theorem kvMap_empty_value :
    ¬ ∀ kvs : KvPairs, kvMap (encodeKvs kvs.pairs) = kvs.lookup := by
  intro h
  have hmap := h ⟨[("st_nlink", ""), ("st_ifmt", "S_IFREG")], by decide, by decide, by decide⟩
  have hkey := congrFun hmap "st_nlink"
  revert hkey
  decide

end AfcClient

end XitForge.Afc
