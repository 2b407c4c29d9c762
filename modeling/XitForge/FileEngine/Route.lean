import XitForge.Separators
import XitForge.TrimmedParts
import XitForge.Utf16

/-!
The relative path of a configured route and a file name, and the check of such a path in the
tunnel module. Strings are lists of code units, and searches compare units one by one.
-/
namespace XitForge.FileEngine

open TrimmedParts Utf16

/-- The letters of ASCII in lower case. -/
def asciiLower (unit : UInt16) : UInt16 :=
  if 0x41 ≤ unit.toNat ∧ unit.toNat ≤ 0x5A then unit + 0x20 else unit

/-- What is documented of the functions of Foundation that depend on Unicode. -/
structure Foundation where
  /-- `whitespaceAndNewlineCharacterSet`. -/
  isBlank : UInt16 → Bool
  lowercaseString : Units → Units
  /-- Visible ASCII is no whitespace. -/
  visible : ∀ unit : UInt16, 0x21 ≤ unit.toNat → unit.toNat ≤ 0x7E → isBlank unit = false
  lowercase_ascii : ∀ units : Units, (∀ unit ∈ units, unit.toNat < 0x80) →
    lowercaseString units = units.map asciiLower

def asciiFoundation : Foundation where
  isBlank unit := unit.toNat < 0x21
  lowercaseString := List.map asciiLower
  visible _ h _ := decide_eq_false (Nat.not_lt.mpr h)
  lowercase_ascii _ _ := rfl

def slash : UInt16 := 0x2F

def backslash : UInt16 := 0x5C

/-- Either separator. -/
def isSep (unit : UInt16) : Bool := unit = slash || unit = backslash

inductive RouteError where
  | invalidFileName
  | emptyRoute
  | invalidComponent (component : Units)
  | noFolder
  deriving DecidableEq, Repr

/-- The texts, with the component at the end of the one that has it. -/
def RouteError.text : RouteError → String × Units
  | .invalidFileName => ("El nombre del archivo no es válido.", [])
  | .emptyRoute => ("La ruta configurada está vacía.", [])
  | .invalidComponent component => ("La ruta contiene un componente inválido: ", component)
  | .noFolder => ("La ruta no contiene ninguna carpeta válida.", [])

/-- `isSafeComponent:` of a string, or of anything else. -/
def isSafeComponent : Option Units → Bool
  | none => false
  | some component =>
    if component = [] then false
    else if component = ascii "." ∨ component = ascii ".." then false
    else if slash ∈ component ∨ backslash ∈ component then false
    else 0 ∉ component

def normalizedRootComponent (foundation : Foundation) (component : Units) : Units :=
  let lower := foundation.lowercaseString component
  if lower = ascii "documents" then ascii "Documents"
  else if lower = ascii "library" then ascii "Library"
  else if lower = ascii "systemdata" then ascii "SystemData"
  else if lower = ascii "tmp" then ascii "tmp"
  else component

/-- The loop over the components, from one of them on. -/
def collect (foundation : Foundation) : ℕ → List Units → Except RouteError (List Units)
  | _, [] => .ok []
  | logicalIndex, raw :: rest =>
    let component := trim foundation.isBlank raw
    if component = [] then collect foundation logicalIndex rest
    else
      let component :=
        if logicalIndex = 0 then normalizedRootComponent foundation component else component
      if isSafeComponent (some component) then do
        let parts ← collect foundation (logicalIndex + 1) rest
        .ok (component :: parts)
      else .error (.invalidComponent component)

/-- The route with slashes only, and none at its ends. -/
def cleanRoute (foundation : Foundation) (route : Option Units) : Units :=
  let clean :=
    match route with
    | some route => trim foundation.isBlank route
    | none => []
  let clean := clean.map fun unit => if unit = backslash then slash else unit
  (clean.dropWhile (· = slash)).rdropWhile (· = slash)

/-- `relativePathForRoute:fileName:error:`. Anything but a string is `none`. -/
def relativePath (foundation : Foundation) (route fileName : Option Units) :
    Except RouteError Units :=
  match fileName with
  | none => .error .invalidFileName
  | some name =>
    if isSafeComponent (some name) then
      let clean := cleanRoute foundation route
      if clean = [] then .error .emptyRoute
      else do
        let parts ← collect foundation 0 (clean.splitOn slash)
        if parts = [] then .error .noFolder
        else .ok (List.intercalate [slash] (parts ++ [name]))
    else .error .invalidFileName

example : relativePath asciiFoundation (some (ascii " /library\\\\ x /")) (some (ascii "f")) =
    .ok (ascii "Library/x/f") := by decide +kernel

/-- `validatedKnownFileRelativePath:error:`, with the code and the text of its error. `bytes`
is `NULL` for anything but a string, and for a string that has no UTF-8. -/
def validatedKnownFileRelativePath (path : Option Units) : Except (ℕ × String) Units :=
  let refused : ℕ × String :=
    (1008, "Introduce la ruta relativa completa de un archivo dentro del contenedor de la app.")
  match path, path.bind toText with
  | some path, some text =>
    let bytes := RustText.utf8 text
    if path = [] ∨ 4096 < bytes.length ∨ (bytes.takeWhile (· ≠ 0)).length ≠ bytes.length ∨
        [slash] <+: path ∨ backslash ∈ path then .error refused
    else
      let parts := path.splitOn slash
      if 128 < parts.length then
        .error (1008, "La ruta del archivo contiene demasiadas carpetas.")
      else if parts.any fun part => part = [] || part = ascii "." || part = ascii ".." then
        .error (1008,
          "La ruta debe identificar un archivo y no puede salir del contenedor de la app.")
      else .ok path
  | _, _ => .error refused

section Components

/-- A name that leads to one place below a directory. -/
structure SafeComponent (component : Units) : Prop where
  ne_nil : component ≠ []
  ne_dot : component ≠ ascii "."
  ne_dots : component ≠ ascii ".."
  no_slash : slash ∉ component
  no_backslash : backslash ∉ component
  no_zero : 0 ∉ component

variable {component : Units}

theorem isSafeComponent_iff : isSafeComponent (some component) = true ↔ SafeComponent component := by
  constructor
  · intro h
    simp only [isSafeComponent, Bool.if_false_left, Bool.and_eq_true, Bool.not_eq_true',
      decide_eq_false_iff_not, not_or, decide_eq_true_eq] at h
    exact ⟨h.1, h.2.1.1, h.2.1.2, h.2.2.1.1, h.2.2.1.2, h.2.2.2⟩
  · intro h
    simp [isSafeComponent, h.ne_nil, h.ne_dot, h.ne_dots, h.no_slash, h.no_backslash, h.no_zero]

theorem SafeComponent.no_sep (h : SafeComponent component) :
    ∀ unit ∈ component, isSep unit = false := by
  intro unit hunit
  have hslash : unit ≠ slash := fun heq => h.no_slash (heq ▸ hunit)
  have hbackslash : unit ≠ backslash := fun heq => h.no_backslash (heq ▸ hunit)
  simp [isSep, hslash, hbackslash]

variable (foundation : Foundation)

theorem blank_ne_sep : ∀ unit, foundation.isBlank unit = true → isSep unit = false := by
  intro unit hblank
  have hslash : unit ≠ slash := by
    intro heq
    rw [heq, foundation.visible slash (by decide) (by decide)] at hblank
    cases hblank
  have hbackslash : unit ≠ backslash := by
    intro heq
    rw [heq, foundation.visible backslash (by decide) (by decide)] at hblank
    cases hblank
  simp [isSep, hslash, hbackslash]

/-- The words that a root component is written as. -/
def rootWords : List Units :=
  [ascii "Documents", ascii "Library", ascii "SystemData", ascii "tmp"]

theorem normalizedRootComponent_cases (component : Units) :
    normalizedRootComponent foundation component = component ∨
      normalizedRootComponent foundation component ∈ rootWords := by
  unfold normalizedRootComponent rootWords
  dsimp only
  split_ifs <;> simp

theorem small_of_all {units : Units} (h : units.all (fun unit => decide (unit.toNat < 0x80))) :
    ∀ unit ∈ units, unit.toNat < 0x80 := by
  intro unit hunit
  exact of_decide_eq_true (List.all_eq_true.mp h unit hunit)

theorem normalizedRootComponent_of_mem (h : component ∈ rootWords) :
    normalizedRootComponent foundation component = component := by
  simp only [rootWords, List.mem_cons, List.not_mem_nil, or_false] at h
  unfold normalizedRootComponent
  rcases h with rfl | rfl | rfl | rfl
  · rw [foundation.lowercase_ascii (ascii "Documents") (small_of_all (by decide +kernel))]
    decide +kernel
  · rw [foundation.lowercase_ascii (ascii "Library") (small_of_all (by decide +kernel))]
    decide +kernel
  · rw [foundation.lowercase_ascii (ascii "SystemData") (small_of_all (by decide +kernel))]
    decide +kernel
  · rw [foundation.lowercase_ascii (ascii "tmp") (small_of_all (by decide +kernel))]
    decide +kernel

theorem normalizedRootComponent_idempotent (component : Units) :
    normalizedRootComponent foundation (normalizedRootComponent foundation component) =
      normalizedRootComponent foundation component := by
  rcases normalizedRootComponent_cases foundation component with heq | hmem
  · rw [heq, heq]
  · exact normalizedRootComponent_of_mem foundation hmem

theorem trim_rootWord (h : component ∈ rootWords) :
    trim foundation.isBlank component = component := by
  simp only [rootWords, List.mem_cons, List.not_mem_nil, or_false] at h
  rcases h with rfl | rfl | rfl | rfl
  · exact trim_of_ends (foundation.visible _ (by decide) (by decide))
      (foundation.visible _ (by decide) (by decide)) rfl rfl
  · exact trim_of_ends (foundation.visible _ (by decide) (by decide))
      (foundation.visible _ (by decide) (by decide)) rfl rfl
  · exact trim_of_ends (foundation.visible _ (by decide) (by decide))
      (foundation.visible _ (by decide) (by decide)) rfl rfl
  · exact trim_of_ends (foundation.visible _ (by decide) (by decide))
      (foundation.visible _ (by decide) (by decide)) rfl rfl

end Components

section Canonical

variable (foundation : Foundation)

/-- The parts of a route that are not blank. -/
def kept (route : Option Units) : List Units := parts isSep foundation.isBlank (route.getD [])

/-- The first one as a root component. -/
def rooted : List Units → List Units
  | [] => []
  | first :: rest => normalizedRootComponent foundation first :: rest

/-- The path of the parts and a file name, which are safe. -/
def pathOf (folders : List Units) (fileName : Option Units) : Option Units :=
  fileName.bind fun name =>
    if isSafeComponent (some name) ∧ folders ≠ [] ∧ folders.all (isSafeComponent ∘ some) then
      some (List.intercalate [slash] (folders ++ [name]))
    else none

theorem toOption_bind {ε α β : Type} (first : Except ε α) (next : α → Except ε β) :
    (first >>= next).toOption = first.toOption.bind fun value => (next value).toOption := by
  cases first <;> rfl

/-- Behind the first part, the loop keeps every part as it is. -/
theorem collect_succ (logicalIndex : ℕ) (raws : List Units) :
    (collect foundation (logicalIndex + 1) raws).toOption =
      (fun parts => if parts.all (isSafeComponent ∘ some) then some parts else none)
        ((raws.map (trim foundation.isBlank)).filter (! List.isEmpty ·)) := by
  induction raws generalizing logicalIndex with
  | nil => rfl
  | cons raw rest ih =>
    rw [collect]
    dsimp only
    by_cases hempty : trim foundation.isBlank raw = []
    · rw [if_pos hempty, ih, List.map_cons, List.filter_cons_of_neg (by simp [hempty])]
    · rw [if_neg hempty, if_neg (Nat.succ_ne_zero _), List.map_cons,
        List.filter_cons_of_pos (by simp [hempty])]
      cases hsafe : isSafeComponent (some (trim foundation.isBlank raw)) with
      | false => simp [hsafe, Except.toOption]
      | true =>
        rw [if_pos rfl, toOption_bind, ih]
        dsimp only
        rw [List.all_cons, Function.comp_apply, hsafe, Bool.true_and]
        split <;> rfl

theorem collect_zero (raws : List Units) :
    (collect foundation 0 raws).toOption =
      (fun parts => if parts.all (isSafeComponent ∘ some) then some parts else none)
        (rooted foundation ((raws.map (trim foundation.isBlank)).filter (! List.isEmpty ·))) := by
  induction raws with
  | nil => rfl
  | cons raw rest ih =>
    rw [collect]
    dsimp only
    by_cases hempty : trim foundation.isBlank raw = []
    · rw [if_pos hempty, ih, List.map_cons, List.filter_cons_of_neg (by simp [hempty])]
    · rw [if_neg hempty, if_pos rfl, List.map_cons, List.filter_cons_of_pos (by simp [hempty]),
        rooted]
      cases hsafe : isSafeComponent (some (normalizedRootComponent foundation
          (trim foundation.isBlank raw))) with
      | false => simp [hsafe, Except.toOption]
      | true =>
        rw [if_pos rfl, toOption_bind, collect_succ]
        dsimp only
        rw [List.all_cons, Function.comp_apply, hsafe, Bool.true_and]
        split <;> rfl

/-- Cleaning a route does not change its parts. -/
theorem parts_cleanRoute (route : Option Units) :
    parts (· == slash) foundation.isBlank (cleanRoute foundation route) = kept foundation route := by
  have htrim : trim foundation.isBlank (route.getD []) =
      match route with
      | some route => trim foundation.isBlank route
      | none => [] := by
    cases route <;> rfl
  have hclean : cleanRoute foundation route =
      trim (· == slash) ((trim foundation.isBlank (route.getD [])).map
        fun unit => if unit = backslash then slash else unit) := by
    rw [htrim]
    rfl
  have hsep (unit : UInt16) :
      ((if unit = backslash then slash else unit) == slash) = isSep unit := by
    unfold isSep
    by_cases hbackslash : unit = backslash
    · simp [hbackslash]
    · simp [hbackslash, beq_eq_decide]
  have hkeep (unit : UInt16) (hunit : isSep unit = false) :
      (if unit = backslash then slash else unit) = unit := by
    rw [if_neg]
    intro heq
    rw [heq] at hunit
    cases hunit
  rw [hclean, parts_trim_sep, parts_map hsep hkeep, parts_trim (blank_ne_sep foundation)]
  rfl

/-- The path depends on the parts of the route only. -/
theorem relativePath_eq (route fileName : Option Units) :
    (relativePath foundation route fileName).toOption =
      pathOf (rooted foundation (kept foundation route)) fileName := by
  cases fileName with
  | none => rfl
  | some name =>
    unfold relativePath pathOf
    rw [Option.bind_some]
    cases hsafe : isSafeComponent (some name) with
    | false => simp [hsafe, Except.toOption]
    | true =>
      have hparts := parts_cleanRoute foundation route
      by_cases hclean : cleanRoute foundation route = []
      · rw [hclean, parts_nil] at hparts
        simp [hsafe, hclean, ← hparts, rooted, Except.toOption]
      · have hcollect := collect_zero foundation ((cleanRoute foundation route).splitOn slash)
        have hkept : ((((cleanRoute foundation route).splitOn slash).map
            (trim foundation.isBlank)).filter (! List.isEmpty ·)) = kept foundation route := by
          rw [← hparts]
          rfl
        rw [hkept] at hcollect
        simp only [if_true, hclean, if_false, toOption_bind, hcollect, hsafe, true_and]
        by_cases hall : (rooted foundation (kept foundation route)).all (isSafeComponent ∘ some)
        · by_cases hnil : rooted foundation (kept foundation route) = []
          · simp [hnil, Except.toOption]
          · simp [hall, hnil, Except.toOption]
        · simp [hall]

end Canonical

section Paths

variable {foundation : Foundation} {route fileName : Option Units} {path : Units}

/-- The folders of a path, and its file. -/
structure IsPath (foundation : Foundation) (folders : List Units) (name path : Units) : Prop where
  ne_nil : folders ≠ []
  safe : ∀ component ∈ folders ++ [name], SafeComponent component
  joined : path = List.intercalate [slash] (folders ++ [name])
  trimmed : ∀ component ∈ folders, trim foundation.isBlank component = component
  is_rooted : rooted foundation folders = folders

theorem rooted_rooted (folders : List Units) :
    rooted foundation (rooted foundation folders) = rooted foundation folders := by
  cases folders with
  | nil => rfl
  | cons first rest =>
    simp only [rooted, normalizedRootComponent_idempotent]

theorem trim_of_mem_rooted {component : Units}
    (h : component ∈ rooted foundation (kept foundation route)) :
    trim foundation.isBlank component = component := by
  have hkept : ∀ part ∈ kept foundation route, trim foundation.isBlank part = part := by
    intro part hpart
    unfold kept parts at hpart
    obtain ⟨raw, _, rfl⟩ := List.mem_map.mp (List.mem_of_mem_filter hpart)
    exact trim_trim raw
  cases hparts : kept foundation route with
  | nil =>
    rw [hparts] at h
    cases h
  | cons first rest =>
    rw [hparts, List.forall_mem_cons] at hkept
    rw [hparts, rooted, List.mem_cons] at h
    rcases h with rfl | h
    · rcases normalizedRootComponent_cases foundation first with heq | hmem
      · rw [heq, hkept.1]
      · exact trim_rootWord foundation hmem
    · exact hkept.2 component h

theorem ok_iff_toOption {result : Except RouteError Units} :
    result = .ok path ↔ result.toOption = some path := by
  cases result <;> simp [Except.toOption]

/-- What is returned is the path of safe components that is as good as its route. -/
theorem isPath_of_relativePath (h : relativePath foundation route fileName = .ok path) :
    ∃ folders name, fileName = some name ∧ IsPath foundation folders name path ∧
      folders = rooted foundation (kept foundation route) := by
  rw [ok_iff_toOption, relativePath_eq] at h
  unfold pathOf at h
  obtain ⟨name, rfl, hname⟩ := Option.bind_eq_some_iff.mp h
  obtain ⟨⟨hsafe, hne, hall⟩, hpath⟩ := Option.ite_none_right_eq_some.mp hname
  refine ⟨_, name, rfl, ⟨hne, ?_, (Option.some.inj hpath).symm, fun component hmem =>
    trim_of_mem_rooted hmem, rooted_rooted _⟩, rfl⟩
  intro component hmem
  rcases List.mem_append.mp hmem with hmem | hmem
  · exact isSafeComponent_iff.mp (List.all_eq_true.mp hall component hmem)
  · rw [List.mem_singleton.mp hmem]
    exact isSafeComponent_iff.mp hsafe

variable {folders : List Units} {name : Units}

/-- The directory part of a path has the folders of the path as its parts. -/
theorem IsPath.kept_eq (h : IsPath foundation folders name path) :
    kept foundation (some (List.intercalate [slash] folders)) = folders := by
  have hsafe : ∀ component ∈ folders, SafeComponent component :=
    fun component hmem => h.safe component (List.mem_append_left _ hmem)
  exact parts_intercalate rfl (fun c hc => (hsafe c hc).ne_nil) h.trimmed
    fun c hc => (hsafe c hc).no_sep

theorem IsPath.relativePath_eq (h : IsPath foundation folders name path) :
    relativePath foundation (some (List.intercalate [slash] folders)) (some name) = .ok path := by
  have hname : isSafeComponent (some name) = true :=
    isSafeComponent_iff.mpr (h.safe name (by simp))
  have hall : folders.all (isSafeComponent ∘ some) = true :=
    List.all_eq_true.mpr fun component hmem =>
      isSafeComponent_iff.mpr (h.safe component (List.mem_append_left _ hmem))
  rw [ok_iff_toOption, FileEngine.relativePath_eq, h.kept_eq, h.is_rooted, pathOf,
    Option.bind_some, if_pos ⟨hname, h.ne_nil, hall⟩, ← h.joined]

theorem intercalate_concat {front : List Units} (h : front ≠ []) (last : Units) :
    List.intercalate [slash] (front ++ [last]) =
      List.intercalate [slash] front ++ slash :: last := by
  induction front with
  | nil => exact absurd rfl h
  | cons first rest ih =>
    cases rest with
    | nil => simp
    | cons second rest =>
      have hrest := ih (List.cons_ne_nil _ _)
      simp only [List.cons_append] at hrest ⊢
      rw [List.intercalate_cons_cons, List.intercalate_cons_cons, hrest]
      simp

/-- The path up to its last slash. -/
theorem IsPath.rsplitOnce_eq (h : IsPath foundation folders name path) :
    Separators.rsplitOnce slash path = some (List.intercalate [slash] folders, name) := by
  have hname := (h.safe name (by simp)).no_slash
  rw [h.joined, intercalate_concat h.ne_nil, Separators.rsplitOnce_append hname]

theorem mem_intercalate {components : List Units} {unit : UInt16}
    (h : unit ∈ List.intercalate [slash] components) :
    unit = slash ∨ ∃ component ∈ components, unit ∈ component := by
  induction components with
  | nil => simp at h
  | cons first rest ih =>
    cases rest with
    | nil =>
      rw [List.intercalate_singleton] at h
      exact .inr ⟨first, List.mem_cons_self, h⟩
    | cons second rest =>
      rw [List.intercalate_cons_cons, List.append_assoc, List.singleton_append, List.mem_append,
        List.mem_cons] at h
      rcases h with h | h | h
      · exact .inr ⟨first, List.mem_cons_self, h⟩
      · exact .inl h
      · rcases ih h with hslash | ⟨component, hmem, hunit⟩
        · exact .inl hslash
        · exact .inr ⟨component, List.mem_cons_of_mem _ hmem, hunit⟩

theorem IsPath.splitOn_eq (h : IsPath foundation folders name path) :
    path.splitOn slash = folders ++ [name] := by
  rw [h.joined]
  exact List.splitOn_intercalate slash (fun c hc => (h.safe c hc).no_slash) (by simp)

theorem IsPath.notMem (h : IsPath foundation folders name path) {unit : UInt16}
    (hslash : unit ≠ slash) (hsafe : ∀ component, SafeComponent component → unit ∉ component) :
    unit ∉ path := by
  intro hmem
  rw [h.joined] at hmem
  rcases mem_intercalate hmem with heq | ⟨component, hcomponent, hunit⟩
  · exact hslash heq
  · exact hsafe component (h.safe component hcomponent) hunit

theorem IsPath.not_prefix (h : IsPath foundation folders name path) : ¬ [slash] <+: path := by
  intro hprefix
  have hsplit := h.splitOn_eq
  obtain ⟨rest, rfl⟩ := hprefix
  have hnone : slash ∉ ([] : Units) := by simp
  have hfirst : ([slash] ++ rest).splitOn slash = [] :: rest.splitOn slash :=
    List.splitOn_append_cons_self_of_not_mem hnone rest
  rw [hfirst] at hsplit
  have hmem : [] ∈ folders ++ [name] := by
    rw [← hsplit]
    exact List.mem_cons_self
  exact (h.safe [] hmem).ne_nil rfl

theorem zero_notMem_utf8 {text : List Char} (h : ∀ c ∈ text, c.toNat ≠ 0) :
    0 ∉ RustText.utf8 text := by
  intro hmem
  obtain ⟨c, hc, hbyte⟩ := List.mem_flatMap.mp hmem
  exact RustText.zero_notMem_utf8EncodeChar (h c hc) hbyte

/-- A path that is short enough passes the check of the tunnel module as it is. -/
theorem IsPath.validated (h : IsPath foundation folders name path) {text : List Char}
    (htext : toText path = some text) (hbytes : (RustText.utf8 text).length ≤ 4096)
    (hcount : (path.splitOn slash).length ≤ 128) :
    validatedKnownFileRelativePath (some path) = .ok path := by
  have hzero : 0 ∉ RustText.utf8 text := zero_notMem_utf8 fun c hc =>
    ne_zero_of_decode (h.notMem (by decide) fun _ hsafe => hsafe.no_zero)
      (mem_decode_of_toText htext hc)
  have hlength : (RustText.utf8 text).takeWhile (· ≠ 0) = RustText.utf8 text := by
    rw [List.takeWhile_eq_self_iff]
    intro byte hbyte
    have hne : byte ≠ 0 := fun heq => hzero (heq ▸ hbyte)
    simpa using hne
  have hbackslash : backslash ∉ path := h.notMem (by decide) fun _ hsafe => hsafe.no_backslash
  have hnil : path ≠ [] := by
    intro hempty
    have hsplit := h.splitOn_eq
    rw [hempty, List.splitOn_nil] at hsplit
    have hlast : name = [] := by
      have hlengths := congrArg List.getLast? hsplit
      simpa using hlengths.symm
    exact (h.safe name (by simp)).ne_nil hlast
  have hparts : (path.splitOn slash).any
      (fun part => part = [] || part = ascii "." || part = ascii "..") = false := by
    rw [h.splitOn_eq, List.any_eq_false]
    intro component hmem
    have hsafe := h.safe component hmem
    simp [hsafe.ne_nil, hsafe.ne_dot, hsafe.ne_dots]
  unfold validatedKnownFileRelativePath
  simp only [Option.bind_some, htext]
  rw [hlength, if_neg (by simp [hnil, hbackslash, h.not_prefix, hbytes]),
    if_neg (Nat.not_lt.mpr hcount), hparts]
  rfl

/-- Every result is a path of safe components; it depends only on what the route says, however
that is written; its directory gives it again, and the tunnel module takes it as it is. -/
theorem relativePath_canonical (foundation : Foundation) (route fileName : Option Units) :
    (∀ path, relativePath foundation route fileName = .ok path →
      ∃ folders name, fileName = some name ∧ folders ≠ [] ∧
        path = List.intercalate [slash] (folders ++ [name]) ∧
        ∀ component ∈ folders ++ [name], SafeComponent component) ∧
    (∀ text text', route = some text →
      Relation.EqvGen (Respelled isSep foundation.isBlank) text text' →
      (relativePath foundation (some text') fileName).toOption =
        (relativePath foundation route fileName).toOption) ∧
    (∀ path directory last, relativePath foundation route fileName = .ok path →
      Separators.rsplitOnce slash path = some (directory, last) →
      relativePath foundation (some directory) fileName = .ok path) ∧
    ∀ path text, relativePath foundation route fileName = .ok path → toText path = some text →
      (RustText.utf8 text).length ≤ 4096 → (path.splitOn slash).length ≤ 128 →
      validatedKnownFileRelativePath (some path) = .ok path := by
  refine ⟨fun path h => ?_, fun text text' hroute hsame => ?_, fun path directory last h hlast => ?_,
    fun path text h htext hbytes hcount => ?_⟩
  · obtain ⟨folders, name, hname, hpath, _⟩ := isPath_of_relativePath h
    exact ⟨folders, name, hname, hpath.ne_nil, hpath.joined, hpath.safe⟩
  · have hkept : kept foundation (some text') = kept foundation (some text) :=
      (parts_eq_of_eqvGen (blank_ne_sep foundation) hsame).symm
    rw [hroute, relativePath_eq, relativePath_eq, hkept]
  · obtain ⟨folders, name, rfl, hpath, _⟩ := isPath_of_relativePath h
    rw [hpath.rsplitOnce_eq] at hlast
    cases hlast
    exact hpath.relativePath_eq
  · obtain ⟨folders, name, _, hpath, _⟩ := isPath_of_relativePath h
    exact hpath.validated htext hbytes hcount

end Paths

end XitForge.FileEngine
