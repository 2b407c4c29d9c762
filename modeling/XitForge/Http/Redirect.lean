import XitForge.Numerals
import XitForge.UriReference

/-!
URLs, and the redirects that a response names in its `Location`. A URL keeps its query
and its fragment in the path.
-/
namespace XitForge.Http

open Separators UriReference Numerals

/-- `IdeviceError::Socket` and `IdeviceError::Http`. -/
inductive HttpError where
  | socket (text : String)
  | http (text : String)
  deriving DecidableEq, Repr

structure ParsedUrl where
  https : Bool
  host : Text
  authority : Text
  port : ℕ
  path : Text
  deriving DecidableEq

/-- The scheme of a URL, and what is behind it. -/
def stripScheme (url : Text) : Except String (Bool × Text) :=
  match stripPrefix "http://".toList url with
  | some rest => .ok (false, rest)
  | none =>
    match stripPrefix "https://".toList url with
    | some rest => .ok (true, rest)
    | none => .error "scheme must be http or https"

/-- The host and the text of the port; an IPv6 literal stands in brackets. -/
def splitHost (hostport : Text) : Except String (Text × Option Text) :=
  match stripPrefix ['['] hostport with
  | some after =>
    match splitOnce ']' after with
    | some (host, tail) => .ok (host, stripPrefix [':'] tail)
    | none => .error "unterminated IPv6 literal"
  | none =>
    match rsplitOnce ':' hostport with
    | some (host, port) => .ok (host, some port)
    | none => .ok (hostport, none)

def portOf (https : Bool) : Option Text → Except String ℕ
  | some text =>
    match fromStrRadix 16 10 text with
    | some port => .ok port
    | none => .error "invalid port"
  | none => .ok (if https then 443 else 80)

/-- The path behind an authority. -/
def pathOf (pathPart : Text) : Text :=
  if pathPart = [] ∨ pathPart.head?.any endsPath then '/' :: pathPart else pathPart

def parseParts (url : Text) : Except String ParsedUrl := do
  let (https, rest) ← stripScheme url
  let authority := rest.takeWhile (!endsAuthority ·)
  if authority = [] then .error "missing host"
  else do
    let hostport := behindLast '@' authority
    let (host, portStr) ← splitHost hostport
    if host = [] then .error "missing host"
    else do
      let port ← portOf https portStr
      .ok ⟨https, host, hostport, port, pathOf (rest.dropWhile (!endsAuthority ·))⟩

def parseUrl (url : Text) : Except HttpError ParsedUrl :=
  match parseParts url with
  | .ok parsed => .ok parsed
  | .error m => .error (.http ("invalid URL `" ++ String.ofList url ++ "`: " ++ m))

/-- The scheme that is written for a URL, with what is behind it. -/
def schemeText (https : Bool) : Text := (if https then "https" else "http").toList ++ "://".toList

def resolveRedirect (base location : Text) : Except HttpError Text :=
  if "http://".toList <+: location ∨ "https://".toList <+: location then .ok location
  else do
    let parsed ← parseUrl base
    match stripPrefix ['/'] location with
    | some absPath =>
      .ok (schemeText parsed.https ++ parsed.authority ++ ['/'] ++ absPath)
    | none =>
      let dir := match rsplitOnce '/' parsed.path with
        | some (before, _) => before ++ ['/']
        | none => ['/']
      .ok (schemeText parsed.https ++ parsed.authority ++ dir ++ location)

section Parsing

theorem bind_eq_ok {ε α β : Type} {first : Except ε α} {next : α → Except ε β} {result : β} :
    (first >>= next) = .ok result ↔ ∃ value, first = .ok value ∧ next value = .ok result := by
  cases first with
  | ok value => simp [bind, Except.bind]
  | error error => simp [bind, Except.bind]

variable {url rest : Text} {https : Bool} {parsed : ParsedUrl}

theorem parseUrl_eq_ok : parseUrl url = .ok parsed ↔ parseParts url = .ok parsed := by
  unfold parseUrl
  cases parseParts url with
  | ok value => simp
  | error m => simp

theorem stripScheme_schemeText (https : Bool) (rest : Text) :
    stripScheme (schemeText https ++ rest) = .ok (https, rest) := by
  cases https with
  | false => rfl
  | true => rfl

theorem eq_of_stripScheme (h : stripScheme url = .ok (https, rest)) :
    url = schemeText https ++ rest := by
  unfold stripScheme at h
  cases hhttp : stripPrefix "http://".toList url with
  | some rest' =>
    rw [hhttp] at h
    cases h
    exact eq_append_of_stripPrefix hhttp
  | none =>
    rw [hhttp] at h
    cases hhttps : stripPrefix "https://".toList url with
    | some rest' =>
      rw [hhttps] at h
      cases h
      exact eq_append_of_stripPrefix hhttps
    | none =>
      rw [hhttps] at h
      cases h

/-- What it takes for a URL to be parsed. -/
theorem parseParts_eq_ok : parseParts url = .ok parsed ↔ ∃ rest portStr,
    stripScheme url = .ok (parsed.https, rest) ∧ rest.takeWhile (!endsAuthority ·) ≠ [] ∧
      parsed.authority = behindLast '@' (rest.takeWhile (!endsAuthority ·)) ∧
      splitHost parsed.authority = .ok (parsed.host, portStr) ∧ parsed.host ≠ [] ∧
      portOf parsed.https portStr = .ok parsed.port ∧
      parsed.path = pathOf (rest.dropWhile (!endsAuthority ·)) := by
  unfold parseParts
  simp only [bind_eq_ok]
  constructor
  · intro hgiven
    obtain ⟨⟨https, rest⟩, hscheme, h⟩ := hgiven
    split at h
    · cases h
    · rename_i hauthority
      obtain ⟨⟨host, portStr⟩, hhost, h⟩ := bind_eq_ok.mp h
      split at h
      · cases h
      · rename_i hne
        obtain ⟨port, hport, h⟩ := bind_eq_ok.mp h
        cases h
        exact ⟨rest, portStr, hscheme, hauthority, rfl, hhost, hne, hport, rfl⟩
  · intro hgiven
    obtain ⟨rest, portStr, hscheme, hauthority, hhostport, hhost, hne, hport, hpath⟩ := hgiven
    refine ⟨_, hscheme, ?_⟩
    rw [hhostport] at hhost
    rw [if_neg hauthority, hhost]
    show (if parsed.host = [] then _ else _) = _
    rw [if_neg hne, hport, ← hhostport, ← hpath]
    rfl

/-- The scheme, the authority and the path of a URL that is parsed. -/
theorem exists_of_parseUrl (h : parseUrl url = .ok parsed) : ∃ rest,
    url = schemeText parsed.https ++ rest ∧
      parsed.authority = behindLast '@' (rest.takeWhile (!endsAuthority ·)) ∧
      parsed.path = pathOf (rest.dropWhile (!endsAuthority ·)) := by
  obtain ⟨rest, _, hscheme, _, hauthority, _, _, _, hpath⟩ :=
    parseParts_eq_ok.mp (parseUrl_eq_ok.mp h)
  exact ⟨rest, eq_of_stripScheme hscheme, hauthority, hpath⟩

theorem splitHost_nil : splitHost [] = .ok ([], none) := rfl

theorem authority_ne_nil (h : parseUrl url = .ok parsed) : parsed.authority ≠ [] := by
  obtain ⟨_, _, _, _, _, hhost, hne, _⟩ := parseParts_eq_ok.mp (parseUrl_eq_ok.mp h)
  intro hnil
  rw [hnil, splitHost_nil, Except.ok.injEq, Prod.mk.injEq] at hhost
  exact hne hhost.1.symm

theorem authority_chars (h : parseUrl url = .ok parsed) :
    (∀ c ∈ parsed.authority, (!endsAuthority c) = true) ∧ '@' ∉ parsed.authority := by
  obtain ⟨rest, _, hauthority, _⟩ := exists_of_parseUrl h
  rw [hauthority]
  refine ⟨fun c hc => ?_, notMem_behindLast _ _⟩
  exact List.mem_takeWhile_imp (p := fun c => !endsAuthority c) (behindLast_subset _ _ hc)

/-- What is put together from the scheme and the authority of a URL and some path is
parsed as that. -/
theorem parseUrl_rebuilt (h : parseUrl url = .ok parsed) (tail : Text) :
    parseUrl (schemeText parsed.https ++ parsed.authority ++ '/' :: tail) =
      .ok { parsed with path := '/' :: tail } := by
  obtain ⟨rest, portStr, _, _, _, hhost, hne, hport, _⟩ :=
    parseParts_eq_ok.mp (parseUrl_eq_ok.mp h)
  obtain ⟨hchars, hat⟩ := authority_chars h
  have htake : (parsed.authority ++ '/' :: tail).takeWhile (!endsAuthority ·) =
      parsed.authority := takeWhile_stop hchars rfl tail
  have hdrop : (parsed.authority ++ '/' :: tail).dropWhile (!endsAuthority ·) = '/' :: tail :=
    dropWhile_stop hchars rfl tail
  refine parseUrl_eq_ok.mpr (parseParts_eq_ok.mpr
    ⟨parsed.authority ++ '/' :: tail, portStr, ?_, ?_, ?_, hhost, hne, hport, ?_⟩)
  · rw [List.append_assoc]
    exact stripScheme_schemeText _ _
  · rw [htake]
    exact authority_ne_nil h
  · rw [htake, behindLast_of_notMem hat]
  · rw [hdrop]
    rfl

end Parsing

/-- What is behind the first colon of a URL. -/
def behindScheme (url : Text) : Text := (url.dropWhile (· ≠ ':')).tail

/-- The redirect leads to a URL, and its parts are those of the target. -/
def Resolves (base location : Text) (parsed : ParsedUrl) : Prop :=
  let goal := target (Reference.parse (behindScheme base)) (Reference.parse location)
  ∃ text result, resolveRedirect base location = .ok text ∧ parseUrl text = .ok result ∧
    result.https = parsed.https ∧ some result.authority = goal.1.map (behindLast '@') ∧
    result.path.takeWhile (!endsPath ·) = orSlash goal.2

/-- The location names no authority. Without a path it needs a base whose path ends where
the last slash of the base is, or before it; a path that is merged needs one with no slash
behind its path, or is the last segment of that. -/
def Resolvable (base location : Reference) : Prop :=
  location.authority = none ∧
    if location.path = [] then (orSlash base.path).getLast? = some '/' ∨ '/' ∈ base.suffix
    else location.path.head? = some '/' ∨ '/' ∉ base.suffix ∨
      location.path = behindLast '/' base.path

instance (base location : Reference) : Decidable (Resolvable base location) := by
  unfold Resolvable
  infer_instance

section Resolving

variable {base location : Text} {parsed : ParsedUrl}

theorem behindScheme_schemeText (https : Bool) (rest : Text) :
    behindScheme (schemeText https ++ rest) = '/' :: '/' :: rest := by
  cases https with
  | false => rfl
  | true => rfl

/-- A path of a URL, with what its parser leaves behind it. -/
theorem pathOf_eq (pathPart : Text) :
    pathOf pathPart = orSlash (pathPart.takeWhile (!endsPath ·)) ++
      pathPart.dropWhile (!endsPath ·) := by
  unfold pathOf orSlash
  cases pathPart with
  | nil => rfl
  | cons c rest =>
    cases hc : endsPath c with
    | true => simp [hc]
    | false =>
      simp [hc, List.takeWhile_append_dropWhile]

/-- The parts of a URL that is parsed. -/
structure BaseParts (base : Text) (parsed : ParsedUrl) (reference : Reference) : Prop where
  reference_eq : Reference.parse (behindScheme base) = reference
  authority_eq : reference.authority.map (behindLast '@') = some parsed.authority
  path_eq : parsed.path = orSlash reference.path ++ reference.suffix
  slash : ∃ tail, orSlash reference.path = '/' :: tail
  path_chars : ∀ c ∈ orSlash reference.path, (!endsPath c) = true
  suffix_head : ∀ c tail, reference.suffix = c :: tail → (!endsPath c) = false

theorem exists_baseParts (h : parseUrl base = .ok parsed) :
    ∃ reference, BaseParts base parsed reference := by
  obtain ⟨rest, rfl, hauthority, hpath⟩ := exists_of_parseUrl h
  have hreference : Reference.parse (behindScheme (schemeText parsed.https ++ rest)) =
      .behind (some (rest.takeWhile (!endsAuthority ·))) (rest.dropWhile (!endsAuthority ·)) := by
    rw [behindScheme_schemeText]
    rfl
  refine ⟨_, hreference, congrArg some hauthority.symm, hpath.trans (pathOf_eq _), ?_, ?_, ?_⟩
  · cases hpart : rest.dropWhile (!endsAuthority ·) with
    | nil => exact ⟨[], rfl⟩
    | cons c tail =>
      have hc : (!endsAuthority c) = false :=
        dropWhile_head (p := fun c => !endsAuthority c) hpart
      by_cases hends : endsPath c = true
      · exact ⟨[], by simp [Reference.behind, hends, orSlash]⟩
      · have hslash : c = '/' := by
          simp only [endsAuthority, endsPath] at hc hends
          grind
        subst hslash
        exact ⟨tail.takeWhile (!endsPath ·), rfl⟩
  · intro c hc
    unfold orSlash at hc
    split at hc
    · rw [List.mem_singleton] at hc
      rw [hc]
      rfl
    · exact List.mem_takeWhile_imp (p := fun c => !endsPath c) hc
  · intro c tail hsuffix
    exact dropWhile_head (p := fun c => !endsPath c) hsuffix

/-- A reference without a scheme is not taken for a URL. -/
theorem not_url (h : SchemeLess location) :
    ¬ ("http://".toList <+: location ∨ "https://".toList <+: location) := by
  intro hcase
  rcases hcase with ⟨rest, rfl⟩ | ⟨rest, rfl⟩
  · exact h (by simp [endsAuthority])
  · exact h (by simp [endsAuthority])

theorem resolveRedirect_slash (h : parseUrl base = .ok parsed) {absPath : Text}
    (hscheme : SchemeLess ('/' :: absPath)) :
    resolveRedirect base ('/' :: absPath) =
      .ok (schemeText parsed.https ++ parsed.authority ++ '/' :: absPath) := by
  unfold resolveRedirect
  rw [if_neg (not_url hscheme), h]
  show Except.ok (schemeText parsed.https ++ parsed.authority ++ ['/'] ++ absPath) = _
  rw [List.append_assoc _ ['/'] absPath, List.singleton_append]

/-- A reference that does not start with a slash is put behind the last one of the path. -/
theorem resolveRedirect_relative (h : parseUrl base = .ok parsed) (hpath : '/' ∈ parsed.path)
    (hscheme : SchemeLess location) (hslash : location.head? ≠ some '/') :
    resolveRedirect base location =
      .ok (schemeText parsed.https ++ parsed.authority ++ directory parsed.path ++ location) := by
  have hstrip : stripPrefix ['/'] location = none := by
    cases location with
    | nil => rfl
    | cons c rest =>
      unfold stripPrefix
      rw [if_neg fun heq => hslash (congrArg some heq.symm)]
  obtain ⟨before, behind, hparts⟩ := exists_rsplitOnce hpath
  unfold resolveRedirect directory
  rw [if_neg (not_url hscheme), h, hparts]
  show (match stripPrefix ['/'] location with
    | some absPath => _
    | none => _) = _
  rw [hstrip]
  dsimp only
  rw [hparts]

/-- What is compared, once the text of the redirect is known. -/
theorem resolves_of_text (h : parseUrl base = .ok parsed) {tail : Text}
    (htext : resolveRedirect base location =
      .ok (schemeText parsed.https ++ parsed.authority ++ '/' :: tail)) :
    Resolves base location parsed ↔
      let goal := target (Reference.parse (behindScheme base)) (Reference.parse location)
      some parsed.authority = goal.1.map (behindLast '@') ∧
        ('/' :: tail).takeWhile (!endsPath ·) = orSlash goal.2 := by
  have hparse := parseUrl_rebuilt h tail
  constructor
  · intro hgiven
    obtain ⟨text, result, htext', hresult, _, hauthority, hpath⟩ := hgiven
    rw [htext] at htext'
    cases htext'
    rw [hparse] at hresult
    cases hresult
    exact ⟨hauthority, hpath⟩
  · intro hgiven
    obtain ⟨hauthority, hpath⟩ := hgiven
    exact ⟨_, _, htext, hparse, rfl, hauthority, hpath⟩

/-- Two slashes are kept in the path, which an authority would have ended. -/
theorem not_resolves_network (h : parseUrl base = .ok parsed) {rest : Text}
    (hscheme : SchemeLess ('/' :: '/' :: rest)) : ¬ Resolves base ('/' :: '/' :: rest) parsed := by
  rw [resolves_of_text h (resolveRedirect_slash h hscheme)]
  intro hgiven
  obtain ⟨_, hpath⟩ := hgiven
  have hrest : rest.takeWhile (!endsPath ·) = rest.takeWhile (!endsAuthority ·) ++
      (rest.dropWhile (!endsAuthority ·)).takeWhile (!endsPath ·) := by
    conv_lhs => rw [← List.takeWhile_append_dropWhile (p := (!endsAuthority ·)) (l := rest)]
    rw [List.takeWhile_append_of_pos]
    intro c hc
    have hc' := List.mem_takeWhile_imp (p := fun c => !endsAuthority c) hc
    simp only [endsAuthority, endsPath] at hc' ⊢
    grind
  have hlength := congrArg List.length hpath
  have htake : ('/' :: '/' :: rest).takeWhile (!endsPath ·) =
      '/' :: '/' :: rest.takeWhile (!endsPath ·) := rfl
  have hgoal : (target (Reference.parse (behindScheme base))
      (Reference.parse ('/' :: '/' :: rest))).2 =
      (rest.dropWhile (!endsAuthority ·)).takeWhile (!endsPath ·) := rfl
  rw [htake, hgoal, hrest] at hlength
  unfold orSlash at hlength
  split at hlength
  · simp at hlength
  · simp at hlength
    omega

/-- A path that starts with a slash, behind the authority of the base. -/
theorem resolves_slash (h : parseUrl base = .ok parsed) {absPath : Text}
    (hscheme : SchemeLess ('/' :: absPath))
    (hreference : Reference.parse ('/' :: absPath) = .behind none ('/' :: absPath)) :
    Resolves base ('/' :: absPath) parsed := by
  obtain ⟨reference, hparts⟩ := exists_baseParts h
  rw [resolves_of_text h (resolveRedirect_slash h hscheme), hparts.reference_eq, hreference]
  exact ⟨hparts.authority_eq.symm, rfl⟩

/-- What is put behind the directory of a base is a path up to a suffix, unless that of
the base was reached. -/
theorem takeWhile_directory {reference : Reference} (hparts : BaseParts base parsed reference)
    (location : Text) :
    (directory parsed.path ++ location).takeWhile (!endsPath ·) =
      if '/' ∈ reference.suffix then orSlash reference.path
      else directory (orSlash reference.path) ++ location.takeWhile (!endsPath ·) := by
  obtain ⟨tail, htail⟩ := hparts.slash
  have hmem : '/' ∈ orSlash reference.path := by simp [htail]
  rw [hparts.path_eq]
  split
  · rename_i hsuffix
    obtain ⟨before, hbefore⟩ := exists_directory hsuffix
    have happend := directory_append hsuffix
    rw [directory_append_of_mem hsuffix, hbefore, List.append_assoc, List.append_assoc]
    cases before with
    | nil =>
      rw [hbefore] at happend
      exact absurd (hparts.suffix_head _ _ happend.symm) (by decide)
    | cons c before =>
      rw [hbefore] at happend
      exact takeWhile_stop hparts.path_chars (hparts.suffix_head c _ happend.symm) _
  · rename_i hsuffix
    rw [directory_append_suffix hmem hsuffix, List.takeWhile_append_of_pos]
    intro c hc
    have happend := directory_append hmem
    exact hparts.path_chars c (by rw [← happend]; exact List.mem_append_left _ hc)

/-- The path of the target of a reference that does not start with a slash. -/
theorem orSlash_target {reference : Reference} (hparts : BaseParts base parsed reference)
    (hslash : location.head? ≠ some '/')
    (hlocation : Reference.parse location = .behind none location) :
    orSlash (target reference (Reference.parse location)).2 =
      if location.takeWhile (!endsPath ·) = [] then orSlash reference.path
      else directory (orSlash reference.path) ++ location.takeWhile (!endsPath ·) := by
  have hhead : (location.takeWhile (!endsPath ·)).head? ≠ some '/' := head?_takeWhile_ne hslash
  have hsome : reference.authority.isSome = true := by
    have hauthority := hparts.authority_eq
    cases hcase : reference.authority with
    | none => simp [hcase] at hauthority
    | some authority => rfl
  rw [hlocation]
  unfold target Reference.behind
  dsimp only
  rw [if_neg hhead]
  by_cases hpath : location.takeWhile (!endsPath ·) = []
  · rw [if_pos hpath, if_pos hpath]
  · rw [if_neg hpath, if_neg hpath]
    by_cases hbase : reference.path = []
    · unfold merge
      rw [if_pos ⟨hsome, hbase⟩, hbase]
      rfl
    · have hmerge : merge reference (location.takeWhile (!endsPath ·)) =
          directory reference.path ++ location.takeWhile (!endsPath ·) :=
        if_neg fun hand => hbase hand.2
      have hne : directory reference.path ++ location.takeWhile (!endsPath ·) ≠ [] :=
        List.append_ne_nil_of_right_ne_nil _ hpath
      rw [hmerge]
      unfold orSlash
      rw [if_neg hne, if_neg hbase]

theorem behindLast_orSlash (path : Text) :
    behindLast '/' (orSlash path) = behindLast '/' path := by
  unfold orSlash
  split
  · rename_i hpath
    rw [hpath]
    rfl
  · rfl

/-- A reference that does not start with a slash. -/
theorem resolves_relative (h : parseUrl base = .ok parsed) (hscheme : SchemeLess location)
    (hslash : location.head? ≠ some '/')
    (hlocation : Reference.parse location = .behind none location) :
    Resolves base location parsed ↔
      Resolvable (Reference.parse (behindScheme base)) (Reference.parse location) := by
  obtain ⟨reference, hparts⟩ := exists_baseParts h
  obtain ⟨tail, htail⟩ := hparts.slash
  have hmem : '/' ∈ orSlash reference.path := by simp [htail]
  have hpath : '/' ∈ parsed.path := by simp [hparts.path_eq, htail]
  have happend := directory_append hmem
  have hself := directory_eq_self hmem
  obtain ⟨front, hfront⟩ : ∃ front, directory parsed.path = '/' :: front := by
    rw [hparts.path_eq, htail]
    exact directory_cons _
  have htext := resolveRedirect_relative h hpath hscheme hslash
  rw [List.append_assoc _ (directory parsed.path), hfront, List.cons_append] at htext
  rw [resolves_of_text h htext, ← List.cons_append, ← hfront, takeWhile_directory hparts,
    hparts.reference_eq]
  dsimp only
  rw [orSlash_target hparts hslash hlocation, hlocation]
  have hhead : (location.takeWhile (!endsPath ·)).head? ≠ some '/' := head?_takeWhile_ne hslash
  unfold Resolvable Reference.behind target
  dsimp only
  have hlast : location.takeWhile (!endsPath ·) = behindLast '/' reference.path ↔
      orSlash reference.path =
        directory (orSlash reference.path) ++ location.takeWhile (!endsPath ·) := by
    rw [← behindLast_orSlash]
    conv_rhs => lhs; rw [← happend]
    rw [List.append_cancel_left_eq]
    exact eq_comm
  by_cases hsuffix : '/' ∈ reference.suffix <;>
    by_cases hnone : location.takeWhile (!endsPath ·) = []
  · simp [hsuffix, hnone, hparts.authority_eq]
  · simp [hsuffix, hnone, hparts.authority_eq, hhead, hlast]
  · simp [hsuffix, hnone, hparts.authority_eq, hself]
  · simp [hsuffix, hnone, hparts.authority_eq]

end Resolving

/-- A redirect resolves where the target does not name an authority and the path of the
base is merged. -/
theorem resolves_iff {base location : Text} {parsed : ParsedUrl}
    (hbase : parseUrl base = .ok parsed) (hscheme : SchemeLess location) :
    Resolves base location parsed ↔
      Resolvable (Reference.parse (behindScheme base)) (Reference.parse location) := by
  cases hnetwork : stripPrefix ['/', '/'] location with
  | some rest =>
    obtain rfl := eq_append_of_stripPrefix hnetwork
    have hauthority : (Reference.parse (['/', '/'] ++ rest)).authority =
        some (rest.takeWhile (!endsAuthority ·)) := rfl
    constructor
    · intro h
      exact absurd h (not_resolves_network hbase hscheme)
    · intro hgiven
      obtain ⟨hnone, _⟩ := hgiven
      rw [hauthority] at hnone
      cases hnone
  | none =>
    have hlocation : Reference.parse location = .behind none location := by
      unfold Reference.parse
      rw [hnetwork]
    by_cases hslash : location.head? = some '/'
    · obtain ⟨absPath, rfl⟩ : ∃ absPath, location = '/' :: absPath :=
        ⟨_, (List.head?_eq_some_iff.mp hslash).choose_spec⟩
      refine iff_of_true (resolves_slash hbase hscheme hlocation) ?_
      rw [hlocation]
      exact ⟨rfl, Or.inl rfl⟩
    · exact resolves_relative hbase hscheme hslash hlocation

/-- A relative path behind a base without a query. -/
theorem resolves_relative_page :
    Resolves "https://a.com/dir/page".toList "next".toList
      ⟨true, "a.com".toList, "a.com".toList, 443, "/dir/page".toList⟩ :=
  (resolves_iff rfl (by decide)).mpr (by decide)

/-- A slash in the query of the base is taken for one of its path. -/
theorem not_resolves_query : ¬ ∀ (base location : Text) (parsed : ParsedUrl),
    parseUrl base = .ok parsed → SchemeLess location → Resolves base location parsed := by
  intro hall
  have h := hall "http://a.com/x?next=/y".toList "z".toList
    ⟨false, "a.com".toList, "a.com".toList, 80, "/x?next=/y".toList⟩ rfl (by decide)
  obtain ⟨text, result, htext, hresult, _, _, hpath⟩ := h
  cases htext
  cases hresult
  revert hpath
  decide

end XitForge.Http
