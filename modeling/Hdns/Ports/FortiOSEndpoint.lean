import Hdns.Ports.TaskConfigs
import Hdns.Verified.GoUrl

/-!
# The URL of a CMDB object

`buildFortiOSCMDBPath` escapes the key of an object and joins it to the path;
`fortiOSEndpoint` assigns the result to the path of the URL, and the URL is
escaped again when it is written.  A server unescapes once.  What it reads is
therefore the escaped key, and the key itself only where there was nothing to
escape and `path.Join` found no dots to clean up.

## Main results

* `writtenPath_endpoint` — the path a server is sent.
* `segments_buildPath` — the segments of a CMDB path.
* `cmdb_url_iff` — the keys and hosts for which the server is asked for the
  configured object.
-/

namespace Hdns.Ports.FortiOSEndpoint

open Hdns.Verified
open Hdns.Verified.GoString
open Hdns.Verified.GoEscape
open Hdns.Verified.GoUrl
open Hdns.Verified.GoPath (slash elements Plain)
open Hdns.Verified.GoIP (colon)
open Hdns.Ports.TaskConfigs

/-! ## The code -/

/-- `strings.TrimRight(s, "/")`. -/
def trimSlashes (s : GoString) : GoString := s.rdropWhile (· = slash)

/-- `strings.Trim(s, "/")`. -/
def stripSlashes (s : GoString) : GoString :=
  trimSlashes (s.dropWhile (· = slash))

/-- The errors of `fortiOSEndpoint`. -/
inductive EndpointError where
  /-- `fortios_upload: fortios.host is empty`. -/
  | hostEmpty
  /-- `fortios_upload: invalid fortios.host: %w`. -/
  | invalidHost (err : Error)
  deriving DecidableEq, Repr

/-- `ensureLeadingSlash`. -/
def ensureLeadingSlash (s : GoString) : GoString :=
  if s.hasPrefix "/" then s else slash :: s

/-- The text of the host that is parsed. -/
def hostURL (host : GoString) : GoString :=
  let base := host.trimSpace
  let base :=
    if !base.hasPrefix "http://" && !base.hasPrefix "https://" then
      lit "https://" ++ base
    else base
  trimSlashes base

/-- `fortiOSEndpoint`. -/
def fortiOSEndpoint (cfg : FortiOSConfig) (apiPath : GoString) :
    Except EndpointError GoString :=
  if cfg.host.trimSpace = [] then .error .hostEmpty
  else do
    let u ← (parse (hostURL cfg.host)).mapError .invalidHost
    pure { u with
      path := trimSlashes u.path ++ ensureLeadingSlash apiPath
      rawQuery := (u.query.set "access_token" cfg.accessToken).encode }.string

/-- `buildFortiOSCMDBPath`; `path.Join` does what `filepath.Join` does where
paths have slashes. -/
def buildFortiOSCMDBPath (rawPath mkey : GoString) : GoString :=
  let clean := stripSlashes rawPath.trimSpace
  let apiPath := lit "/api/v2/cmdb/" ++ clean
  if mkey.trimSpace ≠ [] then
    GoPath.join [apiPath, pathEscape mkey.trimSpace]
  else apiPath

example : fortiOSEndpoint
    ⟨"fw:8443/vdom", "t", "c", "vdom", false, false⟩
    (buildFortiOSCMDBPath "vpn.ssl/settings" "main") =
    .ok (lit "https://fw:8443/vdom/api/v2/cmdb/vpn.ssl/settings/main?access_token=t") := by
  decide +kernel

/-! ## The host -/

theorem trimSlashes_append (s : GoString) :
    ∃ n, s = trimSlashes s ++ List.replicate n slash := by
  have hslashes : ∀ c ∈ s.rtakeWhile (· = slash), c = slash := by
    intro c hc
    simpa using List.mem_rtakeWhile_imp hc
  refine ⟨(s.rtakeWhile (· = slash)).length, ?_⟩
  rw [← List.eq_replicate_length.mpr hslashes]
  exact List.rdropWhile_append_rtakeWhile.symm

/-- A text that does not end with a slash. -/
theorem trimSlashes_of_ne {s : GoString} {n : Nat}
    (h : s.getLast? ≠ some slash) :
    trimSlashes (s ++ List.replicate n slash) = s := by
  unfold trimSlashes
  induction n with
  | zero =>
      rw [List.replicate_zero, List.append_nil, List.rdropWhile_eq_self_iff]
      intro hne
      rw [List.getLast?_eq_some_getLast hne, Ne, Option.some.injEq] at h
      simpa using h
  | succ n ih =>
      rw [List.replicate_succ', ← List.append_assoc, List.rdropWhile_concat_pos]
      · exact ih
      · rfl

theorem trimSlashes_getLast (s : GoString) :
    (trimSlashes s).getLast? ≠ some slash := by
  intro hlast
  have hne : trimSlashes s ≠ [] := by
    intro hnil
    rw [hnil] at hlast
    cases hlast
  rw [List.getLast?_eq_some_getLast hne, Option.some.injEq] at hlast
  exact List.rdropWhile_last_not (fun c => decide (c = slash)) s hne
    (decide_eq_true hlast)

/-- The scheme of a FortiGate. -/
inductive Scheme (scheme : GoString) : Prop
  | http (eq : scheme = "http")
  | https (eq : scheme = "https")

/-- What is computed of a scheme, alone and in front of nothing. -/
theorem Scheme.computed {scheme : GoString} (h : Scheme scheme) :
    (scheme ≠ [] ∧ ∀ c ∈ scheme, isLetter c = true) ∧ toLower scheme = scheme ∧
      parse (scheme ++ [colon]) = .ok { Url.zero with scheme } ∧
        writtenPath (scheme ++ [colon]) = [] := by
  have hall : ∀ s ∈ [lit "http", lit "https"],
      (s ≠ [] ∧ ∀ c ∈ s, isLetter c = true) ∧ toLower s = s ∧
        parse (s ++ [colon]) = .ok { Url.zero with scheme := s } ∧
          writtenPath (s ++ [colon]) = [] := by decide +kernel
  cases h with
  | http eq => exact hall scheme (by simp [eq])
  | https eq => exact hall scheme (by simp [eq])

theorem Scheme.letters {scheme : GoString} (h : Scheme scheme) :
    Letters scheme :=
  ⟨h.computed.1.1, h.computed.1.2⟩

theorem Scheme.toLower {scheme : GoString} (h : Scheme scheme) :
    toLower scheme = scheme :=
  h.computed.2.1

/-- **The text that is parsed** has an authority, or nothing behind its
scheme. -/
theorem hostURL_shape (host : GoString) :
    ∃ scheme, Scheme scheme ∧ (hostURL host = scheme ++ [colon] ∨
      ∃ rest, hostURL host = scheme ++ colon :: slash :: slash :: rest) := by
  obtain ⟨scheme, r, hscheme, hbase⟩ : ∃ scheme r, Scheme scheme ∧
      hostURL host = trimSlashes (scheme ++ colon :: slash :: slash :: r) := by
    unfold hostURL
    dsimp only
    split
    · exact ⟨"https", host.trimSpace, .https rfl, rfl⟩
    · next hprefix =>
        rw [Bool.and_eq_true, not_and_or, Bool.not_eq_true', Bool.not_eq_true',
          Bool.not_eq_false, Bool.not_eq_false, hasPrefix_iff,
          hasPrefix_iff] at hprefix
        rcases hprefix with ⟨r, hr⟩ | ⟨r, hr⟩
        · exact ⟨"http", r, .http rfl, by rw [hr]; rfl⟩
        · exact ⟨"https", r, .https rfl, by rw [hr]; rfl⟩
  refine ⟨scheme, hscheme, ?_⟩
  obtain ⟨n, hr⟩ := trimSlashes_append r
  by_cases hnil : trimSlashes r = []
  · left
    have hsplit : scheme ++ colon :: slash :: slash :: r =
        (scheme ++ [colon]) ++ List.replicate (n + 2) slash := by
      rw [hr, hnil]
      simp [List.replicate_succ]
    rw [hbase, hsplit]
    refine trimSlashes_of_ne ?_
    rw [List.getLast?_concat]
    decide
  · right
    have hsplit : scheme ++ colon :: slash :: slash :: r =
        (scheme ++ colon :: slash :: slash :: trimSlashes r) ++
          List.replicate n slash := by
      conv_lhs => rw [hr]
      simp
    refine ⟨trimSlashes r, ?_⟩
    rw [hbase, hsplit]
    refine trimSlashes_of_ne ?_
    rw [show scheme ++ colon :: slash :: slash :: trimSlashes r =
      (scheme ++ [colon, slash, slash]) ++ trimSlashes r by simp,
      List.getLast?_append_of_ne_nil _ hnil]
    exact trimSlashes_getLast r

/-- **What is known of a host that is parsed.** -/
theorem parse_hostURL {host : GoString} {u : Url}
    (hu : parse (hostURL host) = .ok u) :
    Scheme u.scheme ∧ Parsed u.scheme (writtenPath (hostURL host)) u := by
  obtain ⟨scheme, hscheme, hbase | ⟨rest, hbase⟩⟩ := hostURL_shape host
  · rw [hbase] at hu ⊢
    obtain ⟨-, -, hparse, hwritten⟩ := hscheme.computed
    obtain rfl := Except.ok.inj (hparse.symm.trans hu)
    exact ⟨hscheme, hscheme.toLower.symm, rfl, rfl, by rw [hwritten]; rfl,
      .inl rfl⟩
  · rw [hbase] at hu ⊢
    have hparsed := parse_path hscheme.letters hu
    have hsame : u.scheme = scheme := hparsed.scheme.trans hscheme.toLower
    rw [hsame]
    exact ⟨hscheme, hparsed⟩

/-! ## The path of the endpoint -/

theorem writtenPath_head (text : GoString) :
    writtenPath text = [] ∨ (writtenPath text).head? = some slash := by
  cases hpath : writtenPath text with
  | nil => exact .inl rfl
  | cons c s =>
      have hlast := List.head?_dropWhile_not (fun c => decide (c ≠ slash))
        (((text.dropWhile (· ≠ colon)).drop 3).takeWhile fun c =>
          c ≠ question ∧ c ≠ hash)
      rw [show List.dropWhile (fun c => decide (c ≠ slash))
        (((text.dropWhile (· ≠ colon)).drop 3).takeWhile fun c =>
          c ≠ question ∧ c ≠ hash) = c :: s from hpath] at hlast
      right
      simpa using hlast

/-- A path that is unescaped keeps its first slash. -/
theorem head_of_unescape {s p : GoString} (h : unescape .path s = .ok p)
    (hs : s = [] ∨ s.head? = some slash) : p = [] ∨ p.head? = some slash := by
  rcases hs with rfl | hs
  · exact .inl (Except.ok.inj h).symm
  · obtain ⟨rest, rfl⟩ := List.head?_eq_some_iff.mp hs
    obtain ⟨_, db, ha, -, rfl⟩ := (unescape_append_slash rfl [] rest p).mp h
    obtain rfl := Except.ok.inj ha
    exact .inr rfl

theorem head_trimSlashes {s : GoString} (h : s = [] ∨ s.head? = some slash) :
    trimSlashes s = [] ∨ (trimSlashes s).head? = some slash := by
  obtain ⟨n, hs⟩ := trimSlashes_append s
  cases htrim : trimSlashes s with
  | nil => exact .inl rfl
  | cons c t =>
      rw [htrim] at hs
      rw [hs] at h
      simpa using h

theorem head_ensureLeadingSlash (s : GoString) :
    (ensureLeadingSlash s).head? = some slash := by
  unfold ensureLeadingSlash
  split
  · next hprefix =>
      obtain ⟨rest, rfl⟩ := hasPrefix_iff.mp hprefix
      rfl
  · rfl

section Endpoint

variable {cfg : FortiOSConfig} {u : Url} {apiPath : GoString}

/-- A path below the path of the host. -/
theorem head_below (hu : parse (hostURL cfg.host) = .ok u)
    (hrooted : apiPath.head? = some slash) :
    (trimSlashes u.path ++ apiPath).head? = some slash := by
  obtain ⟨-, hparsed⟩ := parse_hostURL hu
  rcases head_trimSlashes (head_of_unescape hparsed.path
    (writtenPath_head _)) with hnil | hsome
  · rw [hnil]
    exact hrooted
  · rw [List.head?_append, hsome]
    rfl

/-- **The endpoint as a URL** has the authority of the host. -/
theorem parse_endpoint (hhost : cfg.host.trimSpace ≠ [])
    (hu : parse (hostURL cfg.host) = .ok u) (apiPath : GoString) :
    ∃ url, fortiOSEndpoint cfg apiPath = .ok url ∧
      (parse url).map Url.host =
        (parseAuthority u.writtenAuthority).map Prod.snd := by
  obtain ⟨hscheme, hparsed⟩ := parse_hostURL hu
  refine ⟨_, by
    rw [fortiOSEndpoint, if_neg hhost, hu]
    rfl, ?_⟩
  refine Rooted.parse_string (u := { u with
    path := trimSlashes u.path ++ ensureLeadingSlash apiPath
    rawQuery := (u.query.set "access_token" cfg.accessToken).encode }) ?_
  refine ⟨hscheme.letters, hparsed.opaquePath, hparsed.omitHost,
    head_below hu (head_ensureLeadingSlash apiPath), ?_, written_encode _⟩
  by_cases hraw : u.rawPath = []
  · exact .inl hraw
  · right
    have hwritten := hparsed.rawPath.resolve_left hraw
    dsimp only
    rw [hwritten] at hraw ⊢
    exact (writtenPath_head _).resolve_left hraw

/-- **The path a server is sent**: what was assigned, escaped once more. -/
theorem writtenPath_endpoint (hhost : cfg.host.trimSpace ≠ [])
    (hu : parse (hostURL cfg.host) = .ok u)
    (hrooted : apiPath.head? = some slash) (hname : ∃ c ∈ apiPath, c ≠ slash) :
    ∃ url, fortiOSEndpoint cfg apiPath = .ok url ∧
      writtenPath url = escape .path (trimSlashes u.path ++ apiPath) := by
  obtain ⟨hscheme, hparsed⟩ := parse_hostURL hu
  obtain ⟨rest, rfl⟩ := List.head?_eq_some_iff.mp hrooted
  have hensure : ensureLeadingSlash (slash :: rest) = slash :: rest :=
    if_pos (show GoString.hasPrefix (slash :: rest) (lit "/") = true by
      simp [hasPrefix, show lit "/" = [slash] by decide])
  refine ⟨_, by
    rw [fortiOSEndpoint, if_neg hhost, hu]
    rfl, ?_⟩
  have hhead := head_below hu hrooted
  rw [hensure]
  refine writtenPath_string hscheme.letters hparsed.opaquePath hparsed.omitHost
    hhead ?_
  have hstar : trimSlashes u.path ++ slash :: rest ≠
      lit "*" := by
    intro heq
    rw [heq] at hhead
    revert hhead
    decide
  have hother : u.rawPath ≠ [] → unescape .path u.rawPath ≠
      .ok (trimSlashes u.path ++ slash :: rest) := by
    intro hraw hsame
    rw [hparsed.rawPath.resolve_left hraw, hparsed.path,
      Except.ok.injEq] at hsame
    obtain ⟨n, hn⟩ := trimSlashes_append u.path
    rw [hn] at hsame
    obtain ⟨c, hc, hne⟩ := hname
    have hsame := List.append_cancel_left (hsame.trans (by
      rw [trimSlashes_of_ne (trimSlashes_getLast u.path)]))
    rw [← hsame] at hc
    exact hne (List.eq_of_mem_replicate hc)
  unfold Url.escapedPath
  dsimp only
  rw [if_neg fun h => hother h.1 h.2.2, if_neg hstar]

end Endpoint

/-! ## Segments -/

/-- The segments of a path, each unescaped once, as a server reads them. -/
def segments (s : GoString) : Except Error (List GoString) :=
  (unescapedElements s).map List.tail

/-- The names in front of an object. -/
def cmdbNames : List GoString := ["api", "v2", "cmdb"]

/-- The segments of a CMDB path. -/
def pathSegments (path : GoString) : List GoString :=
  let clean := stripSlashes path.trimSpace
  if clean = [] then [] else elements clean

/-- A CMDB path of segments that are not empty and no dots. -/
def CMDBPath (path : GoString) : Prop :=
  ∀ s ∈ pathSegments path, s ≠ [] ∧ s ≠ GoPath.dot ∧ s ≠ GoPath.dotDot

theorem elements_append_cons (a b : GoString) :
    elements (a ++ slash :: b) = elements a ++ elements b :=
  List.splitOn_append_cons_self ..

theorem elements_ne_nil (s : GoString) : elements s ≠ [] :=
  List.splitOn_ne_nil _ _

theorem segments_escape (s : GoString) :
    segments (escape .path s) = .ok (elements s).tail := by
  rw [segments, unescapedElements_escape]
  rfl

section Object

variable {path mkey : GoString}

theorem pathSegments_plain (h : CMDBPath path) :
    ∀ s ∈ pathSegments path, Plain s := by
  intro s hs
  obtain ⟨hnil, hdot, hdots⟩ := h s hs
  refine ⟨hnil, hdot, hdots, ?_⟩
  unfold pathSegments at hs
  dsimp only at hs
  split at hs
  · cases hs
  · exact GoPath.slash_not_mem_elements _ s hs

theorem cmdbNames_plain : ∀ s ∈ cmdbNames, Plain s := by
  have h : ∀ s ∈ cmdbNames, s ≠ [] ∧ s ≠ GoPath.dot ∧ s ≠ GoPath.dotDot ∧
      slash ∉ s := by decide +kernel
  exact fun s hs => ⟨(h s hs).1, (h s hs).2.1, (h s hs).2.2.1, (h s hs).2.2.2⟩

/-- What `path.Join` keeps of the path, the last name first. -/
def keptNames (path : GoString) : List GoString :=
  (cmdbNames ++ pathSegments path).reverse

/-- What it keeps when the key is joined. -/
def joinedNames (path key : GoString) : List GoString :=
  (GoPath.cleanStep true (keptNames path) key).reverse

theorem slash_not_mem_pathEscape (s : GoString) : slash ∉ pathEscape s :=
  not_mem_escape (by decide +kernel) (by decide) (by decide) s

theorem keptNames_plain (h : CMDBPath path) :
    ∀ s ∈ keptNames path, Plain s := by
  intro s hs
  rcases List.mem_append.mp (List.mem_reverse.mp hs) with hs | hs
  · exact cmdbNames_plain s hs
  · exact pathSegments_plain h s hs

/-- **The segments of a CMDB path** with a key. -/
theorem segments_buildPath (h : CMDBPath path) (hkey : mkey.trimSpace ≠ []) :
    buildFortiOSCMDBPath path mkey = slash :: GoString.join
      (joinedNames path (pathEscape mkey.trimSpace)) [slash] := by
  have hplain : ∀ s ∈ cmdbNames ++ pathSegments path, Plain s := fun s hs =>
    keptNames_plain h s (List.mem_reverse.mpr hs)
  have hclean : lit "/api/v2/cmdb/" ++ stripSlashes path.trimSpace =
      lit "/api/v2/cmdb" ++ slash :: stripSlashes path.trimSpace := by
    rw [show lit "/api/v2/cmdb/" = lit "/api/v2/cmdb" ++ [slash] by
      decide +kernel, List.append_assoc, List.singleton_append]
  have hnames : elements (lit "/api/v2/cmdb") = [] :: cmdbNames := by
    decide +kernel
  have hkept : (elements (lit "/api/v2/cmdb" ++
      slash :: stripSlashes path.trimSpace)).foldl (GoPath.cleanStep true) [] =
        keptNames path := by
    have hskip : ∀ ks, GoPath.cleanStep true ks [] = ks :=
      fun ks => if_pos (.inl rfl)
    rw [elements_append_cons, hnames, List.cons_append, List.foldl_cons, hskip,
      keptNames, ← List.append_nil (List.reverse _),
      ← GoPath.foldl_cleanStep_plain _ hplain [] trivial, List.foldl_append,
      List.foldl_append]
    unfold pathSegments
    dsimp only
    split
    · next hnil =>
        rw [hnil]
        exact hskip _
    · rfl
  rw [buildFortiOSCMDBPath, if_pos hkey, hclean, GoPath.join_pair
    (List.append_ne_nil_of_right_ne_nil _ (List.cons_ne_nil _ _))
    (slash_not_mem_pathEscape _)]
  have hrooted : GoPath.isRooted (lit "/api/v2/cmdb" ++
      slash :: stripSlashes path.trimSpace) = true := by
    rw [GoPath.isRooted_append _ (by decide +kernel)]
    decide +kernel
  rw [hrooted, hkept]
  rfl

/-- There is a name in front of the key. -/
theorem exists_keptNames (h : CMDBPath path) : ∃ n ns, n ≠ GoPath.dotDot ∧
    keptNames path = n :: ns ∧ ∃ ns', ns = ns' ++ [lit "v2", lit "api"] := by
  have hsplit : keptNames path =
      ((pathSegments path).reverse ++ [lit "cmdb"]) ++ [lit "v2", lit "api"] := by
    rw [keptNames, List.reverse_append, List.append_assoc]
    rfl
  obtain ⟨n, ns', hns'⟩ := List.exists_cons_of_ne_nil
    (show (pathSegments path).reverse ++ [lit "cmdb"] ≠ [] by simp)
  rw [hns'] at hsplit
  refine ⟨n, _, ?_, hsplit, ns', rfl⟩
  exact (keptNames_plain h n (by rw [hsplit]; exact List.mem_cons_self)).ne_dotDot

/-- The first name stays, whatever the key is. -/
theorem joinedNames_head (h : CMDBPath path) {key : GoString} (hkey : key ≠ []) :
    ∃ rest, joinedNames path key = lit "api" :: rest := by
  obtain ⟨n, ns, hn, hkept, ns', rfl⟩ := exists_keptNames h
  rw [joinedNames, hkept, GoPath.cleanStep_cons hn hkey]
  have hlast : ∀ ks : List GoString,
      ∃ rest, (ks ++ [lit "v2", lit "api"]).reverse = lit "api" :: rest :=
    fun ks => ⟨lit "v2" :: ks.reverse, by simp⟩
  split_ifs
  · exact hlast (n :: ns')
  · exact hlast ns'
  · exact hlast (key :: n :: ns')

theorem slash_not_mem_joinedNames (h : CMDBPath path) {key : GoString}
    (hkey : slash ∉ key) : ∀ s ∈ joinedNames path key, slash ∉ s := by
  have hplain := keptNames_plain h
  unfold joinedNames
  generalize keptNames path = names at hplain ⊢
  have hkept : GoPath.Kept true names := GoPath.kept_of_plain hplain
  intro s hs
  exact (GoPath.kept_cleanStep hkept hkey).no_slash s (List.mem_reverse.mp hs)

/-- **The key is one segment more** where nothing is cleaned up. -/
theorem joinedNames_eq_iff (h : CMDBPath path) {key k : GoString}
    (hkey : key ≠ []) :
    joinedNames path key = cmdbNames ++ pathSegments path ++ [k] ↔
      key = k ∧ k ≠ GoPath.dot ∧ k ≠ GoPath.dotDot := by
  have hreverse : joinedNames path key =
        cmdbNames ++ pathSegments path ++ [k] ↔
      GoPath.cleanStep true (keptNames path) key = k :: keptNames path := by
    rw [joinedNames, List.reverse_eq_iff, List.reverse_append,
      List.reverse_singleton, List.singleton_append, ← keptNames]
  obtain ⟨n, ns, hn, hkept, -⟩ := exists_keptNames h
  rw [hreverse, hkept, GoPath.cleanStep_cons hn hkey]
  split_ifs with hdot hdots
  · refine iff_of_false (List.ne_cons_self) ?_
    rintro ⟨rfl, hne, -⟩
    exact hne hdot
  · refine iff_of_false (fun heq => ?_) ?_
    · have hlen := congrArg List.length heq
      simp only [List.length_cons] at hlen
      omega
    · rintro ⟨rfl, -, hne⟩
      exact hne hdots
  · rw [List.cons.injEq, and_iff_left rfl]
    constructor
    · rintro rfl
      exact ⟨rfl, hdot, hdots⟩
    · exact And.left

end Object

/-! ## The base path -/

/-- The segments of the host's own path. -/
def hostSegments (host : GoString) : Except Error (List GoString) :=
  segments (trimSlashes (writtenPath (hostURL host)))

/-- Slashes at the end of a path are unescaped to themselves. -/
theorem unescape_append_slashes (s p : GoString) (n : Nat) :
    unescape .path (s ++ List.replicate n slash) = .ok p ↔
      ∃ q, unescape .path s = .ok q ∧ q ++ List.replicate n slash = p := by
  induction n generalizing p with
  | zero => simp
  | succ n ih =>
      rw [List.replicate_succ', ← List.append_assoc,
        unescape_append_slash rfl]
      simp only [ih]
      constructor
      · rintro ⟨_, db, ⟨q, hq, rfl⟩, hb, rfl⟩
        obtain rfl := Except.ok.inj hb
        exact ⟨q, hq, by simp⟩
      · rintro ⟨q, hq, rfl⟩
        exact ⟨_, [], ⟨q, hq, rfl⟩, rfl, by simp⟩

theorem eq_nil_of_unescape {mode : Mode} {s : GoString}
    (h : unescape mode s = .ok []) : s = [] := by
  induction s using unescape.induct mode with
  | case1 => rfl
  | case2 x y rest hhex ih =>
      rw [unescape, if_pos rfl, if_pos hhex] at h
      cases hrest : unescape mode rest with
      | error err => rw [hrest] at h; cases h
      | ok bytes => rw [hrest] at h; cases h
  | case3 x y rest hhex =>
      rw [unescape, if_pos rfl, if_neg hhex] at h
      cases h
  | case4 rest hshort =>
      obtain ⟨x, y, rest', hrest, -⟩ := unescape_percent_error h
      exact absurd hrest (hshort x y rest')
  | case5 c rest hc hhost =>
      rw [unescape_cons_of_ne mode hc, if_pos hhost] at h
      cases h
  | case6 c rest hc hhost ih =>
      rw [unescape_cons_of_ne mode hc, if_neg hhost] at h
      cases hrest : unescape mode rest with
      | error err => rw [hrest] at h; cases h
      | ok bytes => rw [hrest] at h; cases h

/-- **The segments of the base path**, where no slash is escaped in them. -/
theorem elements_basePath {host : GoString} {u : Url}
    (hu : parse (hostURL host) = .ok u) :
    ∃ base, hostSegments host = .ok base ∧
      ((∀ s ∈ base, slash ∉ s) → (elements (trimSlashes u.path)).tail = base) := by
  obtain ⟨-, hparsed⟩ := parse_hostURL hu
  obtain ⟨n, hwritten⟩ := trimSlashes_append (writtenPath (hostURL host))
  have hhead := head_trimSlashes (writtenPath_head (hostURL host))
  have hlast := trimSlashes_getLast (writtenPath (hostURL host))
  have hpath := hparsed.path
  rw [hwritten, unescape_append_slashes] at hpath
  obtain ⟨q, hq, hpath⟩ := hpath
  unfold hostSegments segments
  generalize trimSlashes (writtenPath (hostURL host)) = w at hhead hlast hq ⊢
  obtain ⟨ds, hds, hjoin, hne⟩ := unescapedElements_of_unescape hq
  refine ⟨ds.tail, by rw [hds]; rfl, fun hslash => ?_⟩
  have hpairs := Prog.except_mapM_eq_ok.mp hds
  -- the text starts with a slash, so its first element is empty
  have hall : ∀ d ∈ ds, slash ∉ d := by
    have hfirst : (elements w).head? = some [] := by
      rcases hhead with rfl | hhead
      · rfl
      · obtain ⟨rest, rfl⟩ := List.head?_eq_some_iff.mp hhead
        rw [elements_cons, if_pos rfl]
        rfl
    obtain ⟨es, hes⟩ := List.head?_eq_some_iff.mp hfirst
    rw [hes] at hpairs
    cases hpairs with
    | cons hd hrest =>
        obtain rfl := Except.ok.inj hd
        rw [List.forall_mem_cons]
        exact ⟨List.not_mem_nil, hslash⟩
  have helements : elements q = ds := by
    rw [← hjoin]
    exact GoPath.elements_join hall hne
  -- and it does not end with one, so neither does what it is unescaped to
  have hend : q.getLast? ≠ some slash := by
    intro hq'
    obtain ⟨q', rfl⟩ := List.getLast?_eq_some_iff.mp hq'
    rw [elements_append_cons, show elements [] = [[]] from rfl] at helements
    rw [← helements, ← List.forall₂_reverse_iff, List.reverse_append] at hpairs
    cases hes : (elements w).reverse with
    | nil =>
        rw [hes] at hpairs
        cases hpairs
    | cons e es =>
        rw [hes] at hpairs
        cases hpairs with
        | cons hd hrest =>
            obtain rfl := eq_nil_of_unescape hd
            have hes' : elements w = es.reverse ++ [[]] := by
              rw [← List.reverse_reverse (elements w), hes]
              exact List.reverse_cons
            have hsome : es.reverse ≠ [] := by
              intro hnil
              rw [List.reverse_eq_nil_iff] at hnil
              rw [hnil] at hrest
              have hnone : (elements q').reverse = [] :=
                List.forall₂_nil_left_iff.mp hrest
              exact List.splitOn_ne_nil _ _ (List.reverse_eq_nil_iff.mp hnone)
            rw [← join_elements w, hes', join_snoc _ hsome,
              List.getLast?_concat] at hlast
            exact hlast rfl
  rw [← hpath, trimSlashes_of_ne hend, helements]

/-! ## The object that is addressed -/

/-- The endpoint of an object is the base path of the host, the CMDB path, and
the trimmed key as one segment more. -/
def AddressesObject (cfg : FortiOSConfig) (path mkey : GoString) : Prop :=
  ∃ url base, fortiOSEndpoint cfg (buildFortiOSCMDBPath path mkey) = .ok url ∧
    hostSegments cfg.host = .ok base ∧
    segments (writtenPath url) =
      .ok (base ++ (cmdbNames ++ pathSegments path ++ [mkey.trimSpace]))

/-- A byte that `url.PathEscape` leaves as it is: a letter, a digit, or one of
`-_.~$&+:=@`. -/
def KeyByte (c : UInt8) : Prop :=
  isAlphanumeric c = true ∨
    c ∈ [0x2D, 0x5F, 0x2E, 0x7E, 0x24, 0x26, 0x2B, 0x3A, 0x3D, 0x40]

instance (c : UInt8) : Decidable (KeyByte c) :=
  inferInstanceAs (Decidable (_ ∨ _))

/-- A key that stands for itself: there is nothing to escape, and it is no step
in a path. -/
structure PlainKey (key : GoString) : Prop where
  bytes : ∀ c ∈ key, KeyByte c
  ne_dot : key ≠ GoPath.dot
  ne_dotDot : key ≠ GoPath.dotDot

/-- No slash is escaped in the host's own path. -/
def PlainBase (host : GoString) : Prop :=
  ∀ base, hostSegments host = .ok base → ∀ s ∈ base, slash ∉ s

theorem shouldEscape_pathSegment (c : UInt8) :
    shouldEscape c .pathSegment = false ↔ KeyByte c := by
  have hlisted : ∀ c ∈ reserved ++ [0x2D, 0x5F, 0x2E, 0x7E],
      shouldEscape c .pathSegment = false ↔ KeyByte c := by decide +kernel
  have hkeys : ∀ c : UInt8,
      c ∈ [0x2D, 0x5F, 0x2E, 0x7E, 0x24, 0x26, 0x2B, 0x3A, 0x3D, 0x40] →
        c ∈ reserved ++ [0x2D, 0x5F, 0x2E, 0x7E] := by decide +kernel
  by_cases hc : c ∈ reserved ++ [0x2D, 0x5F, 0x2E, 0x7E]
  · exact hlisted c hc
  · have hnot := fun h => hc (hkeys c h)
    rw [List.mem_append, not_or] at hc
    have hhost : ¬(Mode.ofHost .pathSegment = true ∧ c ∈ hostBytes) :=
      fun h => absurd h.1 (by decide)
    have hfragment : ¬(Mode.pathSegment = .fragment ∧
        c ∈ [0x21, 0x28, 0x29, 0x2A]) := fun h => absurd h.1 (by decide)
    rw [shouldEscape, if_neg hhost, if_neg hc.2, if_neg hc.1, if_neg hfragment,
      KeyByte, or_iff_left hnot]
    split <;> simp [*]

theorem pathEscape_eq_self_iff (key : GoString) :
    pathEscape key = key ↔ ∀ c ∈ key, KeyByte c := by
  simp only [pathEscape, escape_eq_self_iff (show Mode.pathSegment ≠
    .queryComponent by decide), shouldEscape_pathSegment]

/-- **When the server is asked for the configured object**, for a host that is
a URL and a path without empty segments and dots. -/
theorem cmdb_url_iff {cfg : FortiOSConfig} (hhost : cfg.host.trimSpace ≠ [])
    {u : Url} (hu : parse (hostURL cfg.host) = .ok u) {path : GoString}
    (hpath : CMDBPath path) {mkey : GoString} (hkey : mkey.trimSpace ≠ []) :
    AddressesObject cfg path mkey ↔
      PlainKey mkey.trimSpace ∧ PlainBase cfg.host := by
  have hescaped : pathEscape mkey.trimSpace ≠ [] := by
    intro hnil
    have hlen := length_le_escape .pathSegment mkey.trimSpace
    rw [show escape .pathSegment mkey.trimSpace = [] from hnil] at hlen
    exact hkey (List.length_eq_zero_iff.mp (Nat.le_zero.mp hlen))
  have hnames := slash_not_mem_joinedNames hpath
    (slash_not_mem_pathEscape mkey.trimSpace)
  obtain ⟨rest, hfirst⟩ := joinedNames_head hpath hescaped
  obtain ⟨url, hurl, hwritten⟩ := writtenPath_endpoint hhost hu
    (show (buildFortiOSCMDBPath path mkey).head? = some slash by
      rw [segments_buildPath hpath hkey]
      rfl)
    ⟨0x61, by
      rw [segments_buildPath hpath hkey, hfirst]
      refine List.mem_cons_of_mem _ ?_
      cases rest with
      | nil => exact List.mem_append_left _ (by decide +kernel)
      | cons n ns =>
          rw [join_cons_cons]
          exact List.mem_append_left _ (by decide +kernel), by decide⟩
  have hsegments : segments (writtenPath url) =
      .ok ((elements (trimSlashes u.path)).tail ++
        joinedNames path (pathEscape mkey.trimSpace)) := by
    rw [hwritten, segments_buildPath hpath hkey, segments_escape,
      elements_append_cons, GoPath.elements_join hnames (by simp [hfirst]),
      List.tail_append_of_ne_nil (elements_ne_nil _)]
  obtain ⟨base, hbase, hplain⟩ := elements_basePath hu
  have hclaim : AddressesObject cfg path mkey ↔
      (elements (trimSlashes u.path)).tail ++
          joinedNames path (pathEscape mkey.trimSpace) =
        base ++ (cmdbNames ++ pathSegments path ++ [mkey.trimSpace]) := by
    constructor
    · rintro ⟨url', base', hurl', hbase', hsegments'⟩
      obtain rfl := Except.ok.inj (hurl.symm.trans hurl')
      obtain rfl := Except.ok.inj (hbase.symm.trans hbase')
      exact Except.ok.inj (hsegments.symm.trans hsegments')
    · exact fun heq => ⟨url, base, hurl, hbase, by rw [hsegments, heq]⟩
  rw [hclaim]
  constructor
  · intro heq
    -- no segment that the server reads has a slash
    have hslash : ∀ s ∈ base, slash ∉ s := by
      intro s hs
      have hmem : s ∈ (elements (trimSlashes u.path)).tail ++
          joinedNames path (pathEscape mkey.trimSpace) := by
        rw [heq]
        exact List.mem_append_left _ hs
      rcases List.mem_append.mp hmem with hmem | hmem
      · exact GoPath.slash_not_mem_elements _ s (List.mem_of_mem_tail hmem)
      · exact hnames s hmem
    rw [hplain hslash] at heq
    obtain ⟨hkeep, hdot, hdots⟩ := (joinedNames_eq_iff hpath hescaped).mp
      (List.append_cancel_left heq)
    refine ⟨⟨(pathEscape_eq_self_iff _).mp hkeep, hdot, hdots⟩, ?_⟩
    intro base' hbase'
    obtain rfl := Except.ok.inj (hbase.symm.trans hbase')
    exact hslash
  · rintro ⟨⟨hbytes, hdot, hdots⟩, hbase'⟩
    have hnames := (joinedNames_eq_iff hpath hescaped).mpr
      ⟨(pathEscape_eq_self_iff _).mpr hbytes, hdot, hdots⟩
    rw [hplain (hbase' base hbase), hnames]

/-- A FortiGate behind a name. -/
private def gate : FortiOSConfig := ⟨"fw", "t", "c", "vdom", false, false⟩

/-- The object of a key. -/
private def gateObject (mkey : GoString) : List GoString :=
  cmdbNames ++ pathSegments "vpn.ssl/settings" ++ [mkey.trimSpace]

/-- The URL for a key with a space, and the one for two dots. -/
private def spacedURL : GoString :=
  "https://fw/api/v2/cmdb/vpn.ssl/settings/a%2520b?access_token=t"
private def dottedURL : GoString :=
  "https://fw/api/v2/cmdb/vpn.ssl?access_token=t"

private theorem gate_computed :
    (gate.host.trimSpace ≠ [] ∧ hostSegments gate.host = .ok [] ∧
      parse (hostURL gate.host) =
        .ok { Url.zero with scheme := "https", host := "fw" }) ∧
    ((∀ s ∈ pathSegments "vpn.ssl/settings",
        s ≠ [] ∧ s ≠ GoPath.dot ∧ s ≠ GoPath.dotDot) ∧
      trimSpace " main " ≠ [] ∧ (∀ c ∈ trimSpace " main ", KeyByte c) ∧
      trimSpace " main " ≠ GoPath.dot ∧ trimSpace " main " ≠ GoPath.dotDot) ∧
    (fortiOSEndpoint gate (buildFortiOSCMDBPath "vpn.ssl/settings" "a b") =
        .ok spacedURL ∧
      segments (writtenPath spacedURL) =
        .ok ["api", "v2", "cmdb", "vpn.ssl", "settings", "a%20b"] ∧
      segments (writtenPath spacedURL) ≠ .ok ([] ++ gateObject "a b")) ∧
    fortiOSEndpoint gate (buildFortiOSCMDBPath "vpn.ssl/settings" "..") =
        .ok dottedURL ∧
      segments (writtenPath dottedURL) =
        .ok ["api", "v2", "cmdb", "vpn.ssl"] ∧
      segments (writtenPath dottedURL) ≠ .ok ([] ++ gateObject "..") := by
  decide +kernel

theorem cmdb_url_iff_main :
    AddressesObject gate "vpn.ssl/settings" " main " := by
  obtain ⟨⟨hhost, hbase, hparse⟩, ⟨hpath, hkey, hbytes, hdot, hdots⟩, -⟩ :=
    gate_computed
  refine (cmdb_url_iff hhost hparse hpath hkey).mpr ⟨⟨hbytes, hdot, hdots⟩, ?_⟩
  intro base hbase'
  obtain rfl := Except.ok.inj (hbase.symm.trans hbase')
  simp

/-- A space reaches the server escaped, and two dots take a segment away. -/
theorem other_object_addressed :
    (fortiOSEndpoint gate (buildFortiOSCMDBPath "vpn.ssl/settings" "a b") =
        .ok spacedURL ∧
      segments (writtenPath spacedURL) =
        .ok ["api", "v2", "cmdb", "vpn.ssl", "settings", "a%20b"] ∧
      ¬AddressesObject gate "vpn.ssl/settings" "a b") ∧
    fortiOSEndpoint gate (buildFortiOSCMDBPath "vpn.ssl/settings" "..") =
        .ok dottedURL ∧
      segments (writtenPath dottedURL) =
        .ok ["api", "v2", "cmdb", "vpn.ssl"] ∧
      ¬AddressesObject gate "vpn.ssl/settings" ".." := by
  obtain ⟨⟨-, hhost, -⟩, -, ⟨hspaced, hspacedPath, hspacedOther⟩, hdotted,
    hdottedPath, hdottedOther⟩ := gate_computed
  refine ⟨⟨hspaced, hspacedPath, ?_⟩, hdotted, hdottedPath, ?_⟩
  · rintro ⟨url, base, hurl, hbase, hpath⟩
    obtain rfl := Except.ok.inj (hspaced.symm.trans hurl)
    obtain rfl := Except.ok.inj (hhost.symm.trans hbase)
    exact hspacedOther hpath
  · rintro ⟨url, base, hurl, hbase, hpath⟩
    obtain rfl := Except.ok.inj (hdotted.symm.trans hurl)
    obtain rfl := Except.ok.inj (hhost.symm.trans hbase)
    exact hdottedOther hpath

end Hdns.Ports.FortiOSEndpoint
