import Nebularr.DistinctOn
import Nebularr.Matcher
import Nebularr.PatternSearch
import Nebularr.PythonValues
import Nebularr.TextEncodings

/-!
# External ids from an anime's links

`externals_from_jikan_data`: the links of a Jikan payload in document order, what
`urlparse` makes of each, the five patterns that find an id in one, and the ids
that are left when repeated ones are dropped.

An id is dropped when the same id of the same site came before, not when another
of the site did; the table that the ids go to has one row for each site.
-/

namespace Nebularr

/-! ## `urllib.parse` -/

/-- What `urlparse` and `unquote` rest on: a normal form of texts, the rules for
what stands between brackets, and how bytes that are no UTF-8 are read. -/
structure UrlChecks where
  nfkc : List Char → List Char
  bracketed : List Char → Bool
  lossy : List UInt8 → String

/-- `scheme_chars`. -/
def isSchemeChar (c : Char) : Bool := c.isAlphanum || c == '+' || c == '-' || c == '.'

/-- The scheme in lower case, and what follows its colon. -/
def splitScheme (url : List Char) : List Char × List Char :=
  let scheme := url.takeWhile (· != ':')
  match url.dropWhile (· != ':') with
  | _ :: rest =>
      if scheme.head?.any Char.isAlpha && scheme.all isSchemeChar then
        (scheme.map Char.toLower, rest)
      else ([], url)
  | [] => ([], url)

/-- `_splitnetloc`, after the two slashes. -/
def splitNetloc (rest : List Char) : List Char × List Char :=
  let inNetloc (c : Char) : Bool := c != '/' && c != '?' && c != '#'
  (rest.takeWhile inNetloc, rest.dropWhile inNetloc)

/-- `_checknetloc`. -/
def checkNetloc (checks : UrlChecks) (netloc : List Char) : Bool :=
  if netloc.all fun c => decide (c.toNat < 128) then true
  else
    let n := netloc.filter fun c => c != '@' && c != ':' && c != '#' && c != '?'
    checks.nfkc n == n ||
      (checks.nfkc n).all fun c => c != '/' && c != '?' && c != '#' && c != '@' && c != ':'

/-- `uses_params`. -/
def usesParams : List String :=
  ["", "ftp", "hdl", "prospero", "http", "imap", "https", "shttp", "rtsp", "rtsps", "rtspu", "sip",
    "sips", "mms", "sftp", "tel"]

/-- `_splitparams`: the path without the parameters of its last part. -/
def splitParams (path : List Char) : List Char :=
  let last := (path.reverse.takeWhile (· != '/')).reverse
  path.take (path.length - last.length) ++ last.takeWhile (· != ';')

/-- The `netloc` and `path` of `urlparse(url)`; `none` where it raises. -/
def urlParse (checks : UrlChecks) (url : List Char) : Option (List Char × List Char) :=
  let url := (url.dropWhile fun c => decide (c.toNat ≤ 32)).filter fun c =>
    c != '\t' && c != '\r' && c != '\n'
  let (scheme, rest) := splitScheme url
  let (netloc, rest) :=
    match rest with
    | '/' :: '/' :: rest => splitNetloc rest
    | rest => ([], rest)
  let path := (rest.takeWhile (· != '#')).takeWhile (· != '?')
  if netloc.contains '[' != netloc.contains ']' then none
  else if netloc.contains '[' && !checks.bracketed netloc then none
  else if !checkNetloc checks netloc then none
  else some (netloc, if String.ofList scheme ∈ usesParams then splitParams path else path)

/-- `unquote`. -/
def unquote (checks : UrlChecks) (path : List Char) : List Char :=
  (bytesText checks.lossy (percentDecode (textBytes (String.ofList path)))).toList

/-! ## The patterns -/

/-- The letter that a character is for `re.I`. -/
def foldCase (c : Char) : Char :=
  if c = '\u0130' ∨ c = '\u0131' then 'i' else if c = '\u017f' then 's'
    else if c = '\u212a' then 'k' else c.toLower

/-- A text, in whatever case. -/
def caseless (text : String) : Pattern Char :=
  text.toList.foldr (fun c rest => .seq (.one fun d => foldCase d == c) rest) .nothing

/-- `\d`. -/
def isDecimal (c : Char) : Bool := (decimalValue c).isSome

/-- `\d+`. -/
def digits : Pattern Char := .seq (.one isDecimal) (.run isDecimal)

/-- `.*`. -/
def anything : Pattern Char := .run (· != '\n')

/-- `_SITE_ALIASES`, each pattern before its group and its group. -/
def siteAliases : List (ExternalSite × Pattern Char × Pattern Char) :=
  [(.imdb, caseless "imdb.com/title/", .seq (caseless "tt") digits),
   (.imdb, .seq (caseless "imdb.com/") (.seq anything (caseless "/")), .seq (caseless "tt") digits),
   (.tmdb, .seq (caseless "themoviedb.org/")
     (.seq (.either (caseless "movie") (caseless "tv")) (caseless "/")),
    digits),
   (.tvdb, .seq (caseless "thetvdb.com/")
      (.seq (.either (caseless "dereferrer") (.either (caseless "/") .nothing))
        (caseless "series/")), digits),
   (.tvdb, .seq (caseless "thetvdb.com/")
      (.seq anything (.seq (.one fun c => c == '?' || c == '&') (caseless "id="))), digits)]

/-- What the patterns find in a URL, with their sites; `none` where `urlparse` raises. -/
def matchesOfUrl (checks : UrlChecks) (url : String) : Option (List (ExternalSite × List Char)) :=
  if url = "" then some []
  else
    (urlParse checks url.toList).map fun (netloc, path) =>
      let full := netloc ++ unquote checks path
      siteAliases.filterMap fun (site, before, group) =>
        ((Pattern.search before group full).or (Pattern.search before group url.toList)).map
          fun val => (site, val)

/-- The id of a match. -/
def idOfMatch (found : ExternalSite × List Char) : ExternalSite × String :=
  let val := stripBy isPySpace found.2
  (found.1, String.ofList
    (if found.1 = .imdb ∧ ¬ ['t', 't'] <+: val then 't' :: 't' :: val else val))

/-- `extract_ids_from_url`. -/
def extractIdsFromUrl (checks : UrlChecks) (url : String) : Option (List (ExternalSite × String)) :=
  (matchesOfUrl checks url).map fun found => found.map idOfMatch

/-! ## The payload -/

section Payload

variable {F : Type}

/-- What `_collect_urls` takes of a text: a link's whatever it is, another's if it is a URL. -/
def urlOfText (isLink : Bool) (text : String) : List String :=
  let s := strip text
  if isLink then if s = "" then [] else [s]
  else if "http://".toList <+: s.toList ∨ "https://".toList <+: s.toList then [s] else []

mutual

/-- `_collect_urls`. -/
def collectUrls : PyValue F → List String
  | .obj fields => collectFields fields
  | .arr items => collectItems items
  | .str text => urlOfText false text
  | _ => []

def collectFields : List (String × PyValue F) → List String
  | [] => []
  | (key, .str text) :: fields =>
      urlOfText (key == "url" || key == "link") text ++ collectFields fields
  | (_, nested) :: fields => collectUrls nested ++ collectFields fields

def collectItems : List (PyValue F) → List String
  | [] => []
  | item :: items => collectUrls item ++ collectItems items

end

/-- `found`: the ids of all URLs, in document order. -/
def foundIds (checks : UrlChecks) (data : List (String × PyValue F)) :
    Option (List (ExternalSite × String)) :=
  ((collectUrls (.obj data)).mapM (extractIdsFromUrl checks)).map List.flatten

def siteName : ExternalSite → String
  | .tvdb => "tvdb"
  | .tmdb => "tmdb"
  | .imdb => "imdb"

/-- `f"{site}:{eid}"`. -/
def seenKey (found : ExternalSite × String) : String := siteName found.1 ++ ":" ++ found.2

/-- The loop that de-dupes. -/
def keepFirst : List String → List (ExternalSite × String) → List (ExternalSite × String)
  | _, [] => []
  | seen, found :: rest =>
      if seenKey found ∈ seen then keepFirst seen rest
        else found :: keepFirst (seenKey found :: seen) rest

/-- `externals_from_jikan_data`. -/
def externalsFromJikanData (checks : UrlChecks) (data : List (String × PyValue F)) :
    Option (List (ExternalSite × String)) :=
  (foundIds checks data).map (keepFirst [])

end Payload

/-- `upsert_external_id`, for each id of an anime in turn. -/
def upsertExternalIds (malId : Int) (ids : List (ExternalSite × String)) (table : ExternalIds) :
    ExternalIds :=
  ids.foldl (fun t found => t.upsert (malId, found.1) found.2 fun _ => found.2) table


/-! ## What a match looks like -/

/-- One or more decimal digits. -/
def IsDecimals (text : List Char) : Prop := text ≠ [] ∧ ∀ c ∈ text, isDecimal c = true

/-- What the pattern of digits matches are digits. -/
theorem isDecimals_of_spells {text : List Char} (h : digits.Spells text) : IsDecimals text := by
  unfold digits at h
  cases h with
  | seq hone hrun =>
      cases hone with
      | one hfirst =>
          cases hrun with
          | run hrest => exact ⟨List.cons_ne_nil _ _, List.forall_mem_cons.mpr ⟨hfirst, hrest⟩⟩

/-- The two letters of an imdb id, in whatever case. -/
theorem t_of_foldCase {c : Char} (h : foldCase c = 't') : c = 't' ∨ c = 'T' := by
  unfold foldCase at h
  split at h
  · cases h
  · split at h
    · cases h
    · split at h
      · cases h
      · unfold Char.toLower at h
        by_cases hupper : c.val ≥ 'A'.val ∧ c.val ≤ 'Z'.val
        · rw [dif_pos hupper] at h
          right
          have hlow : 65 ≤ c.toNat := hupper.1
          have hhigh : c.toNat ≤ 90 := hupper.2
          have hval : (c.toNat + 32) % 2 ^ 32 = 116 := congrArg (fun d => d.val.toNat) h
          apply Char.toNat_inj.mp
          change c.toNat = 84
          omega
        · rw [dif_neg hupper] at h
          exact Or.inl h

/-- What the pattern of IMDb matches is `tt` and digits. -/
theorem exists_of_spells_imdb {text : List Char}
    (h : (Pattern.seq (caseless "tt") digits).Spells text) :
    ∃ a b rest, text = a :: b :: rest ∧ (a = 't' ∨ a = 'T') ∧ (b = 't' ∨ b = 'T') ∧
      IsDecimals rest := by
  cases h with
  | seq htt hdigits =>
      change (Pattern.seq (.one fun d => foldCase d == 't')
        (.seq (.one fun d => foldCase d == 't') .nothing)).Spells _
        at htt
      cases htt with
      | seq hfirst hsecond =>
          cases hfirst with
          | one ha =>
              cases hsecond with
              | seq hsecond hend =>
                  cases hsecond with
                  | one hb =>
                      cases hend with
                      | nothing =>
                          exact ⟨_, _, _, rfl, t_of_foldCase (eq_of_beq ha),
                            t_of_foldCase (eq_of_beq hb),
                            isDecimals_of_spells hdigits⟩

/-- The group of a pattern of a site. -/
theorem group_of_mem_siteAliases {site : ExternalSite} {before group : Pattern Char}
    (h : (site, before, group) ∈ siteAliases) :
    group = if site = .imdb then .seq (caseless "tt") digits else digits := by
  unfold siteAliases at h
  simp only [List.mem_cons, List.not_mem_nil, or_false, Prod.mk.injEq] at h
  obtain ⟨rfl, -, rfl⟩ | ⟨rfl, -, rfl⟩ | ⟨rfl, -, rfl⟩ | ⟨rfl, -, rfl⟩ | ⟨rfl, -, rfl⟩ := h
  all_goals rfl

variable {checks : UrlChecks}

/-- What is found in a URL is matched by the pattern of its site. -/
theorem exists_group_of_mem {url : String}
    {found : List (ExternalSite × List Char)} {site : ExternalSite}
    {val : List Char} (h : matchesOfUrl checks url = some found) (hmem : (site, val) ∈ found) :
    (if site = .imdb then Pattern.seq (caseless "tt") digits else digits).Spells val := by
  unfold matchesOfUrl at h
  split at h
  · obtain rfl := Option.some.inj h
    cases hmem
  · obtain ⟨⟨netloc, path⟩, -, rfl⟩ := Option.map_eq_some_iff.mp h
    obtain ⟨⟨site', before, group⟩, halias, hval⟩ := List.mem_filterMap.mp hmem
    obtain ⟨val', hsearch, heq⟩ := Option.map_eq_some_iff.mp hval
    obtain ⟨rfl, rfl⟩ := Prod.mk.inj heq
    rw [← group_of_mem_siteAliases halias]
    obtain hfull | ⟨-, hurl⟩ := Option.or_eq_some_iff.mp hsearch
    · exact Pattern.spells_of_search hfull
    · exact Pattern.spells_of_search hurl

/-- An id as it is to be. -/
def WellFormedId (found : ExternalSite × String) : Prop :=
  if found.1 = .imdb then ∃ number, found.2.toList = 't' :: 't' :: number ∧ IsDecimals number
  else IsDecimals found.2.toList

/-- Digits are no white space. -/
theorem isPySpace_of_isDecimals {text : List Char} (h : IsDecimals text) :
    ∀ c ∈ text, isPySpace c = false :=
  fun c hc => isPySpace_of_isSome_decimalValue (h.2 c hc)

/-- Nothing is stripped off a list without what is stripped off. -/
theorem stripBy_of_forall {α : Type} {p : α → Bool} {l : List α} (h : ∀ a ∈ l, p a = false) :
    stripBy p l = l :=
  stripBy_eq_self_iff.mpr
    ⟨fun a ha => h a (List.mem_of_mem_head? ha), fun a ha => h a (List.mem_of_getLast? ha)⟩

/-- **The id of a match.**  It is the match, and well formed, where an imdb id is in lower case. -/
theorem idOfMatch_spec {site : ExternalSite} {val : List Char}
    (h : (if site = .imdb then Pattern.seq (caseless "tt") digits else digits).Spells val) :
    (WellFormedId (idOfMatch (site, val)) ↔ (site = .imdb → ['t', 't'] <+: val)) ∧
      ((site = .imdb → ['t', 't'] <+: val) →
        idOfMatch (site, val) = (site, String.ofList val)) := by
  by_cases himdb : site = .imdb
  · subst himdb
    rw [if_pos rfl] at h
    obtain ⟨a, b, number, rfl, ha, hb, hnumber⟩ := exists_of_spells_imdb h
    have hletter : ∀ c : Char, c = 't' ∨ c = 'T' → isPySpace c = false := by
      rintro c (rfl | rfl) <;> rfl
    have hstrip : stripBy isPySpace (a :: b :: number) = a :: b :: number := by
      apply stripBy_of_forall
      rw [List.forall_mem_cons, List.forall_mem_cons]
      exact ⟨hletter a ha, hletter b hb, isPySpace_of_isDecimals hnumber⟩
    have hlower : ['t', 't'] <+: a :: b :: number ↔ a = 't' ∧ b = 't' := by
      simp only [List.cons_prefix_cons, List.nil_prefix, and_true]
      exact ⟨fun h => ⟨h.1.symm, h.2.symm⟩, fun h => ⟨h.1.symm, h.2.symm⟩⟩
    unfold WellFormedId idOfMatch
    simp only [hstrip, if_true, true_and, forall_const, hlower]
    by_cases htt : a = 't' ∧ b = 't'
    · obtain ⟨rfl, rfl⟩ := htt
      simp only [and_self, not_true_eq_false, if_false, String.toList_ofList, iff_true]
      exact ⟨⟨number, rfl, hnumber⟩, fun _ => trivial⟩
    · rw [if_pos htt, iff_false_right htt]
      refine ⟨?_, fun h => absurd h htt⟩
      rintro ⟨rest, hrest, hdecimals⟩
      rw [String.toList_ofList, List.cons.injEq, List.cons.injEq] at hrest
      obtain ⟨-, -, rfl⟩ := hrest
      have hfirst := hdecimals.2 a List.mem_cons_self
      obtain rfl | rfl := ha
      · exact absurd hfirst (by decide)
      · exact absurd hfirst (by decide)
  · rw [if_neg himdb] at h
    have hnumber := isDecimals_of_spells h
    have hstrip : stripBy isPySpace val = val := stripBy_of_forall (isPySpace_of_isDecimals hnumber)
    have hid : idOfMatch (site, val) = (site, String.ofList val) := by
      unfold idOfMatch
      simp only [hstrip]
      rw [if_neg fun h => himdb h.1]
    refine ⟨?_, fun _ => hid⟩
    rw [hid, WellFormedId, if_neg himdb, String.toList_ofList]
    exact iff_of_true hnumber fun h => absurd h himdb


/-! ## What is kept -/

/-- The key of an id tells the site and the id. -/
theorem seenKey_inj {found found' : ExternalSite × String} (h : seenKey found = seenKey found') :
    found = found' := by
  obtain ⟨site, id⟩ := found
  obtain ⟨site', id'⟩ := found'
  have hlength : (siteName site).toList.length = (siteName site').toList.length := by
    cases site <;> cases site' <;> rfl
  have hlist := congrArg String.toList h
  simp only [seenKey, String.toList_append, List.append_assoc] at hlist
  obtain ⟨hname, hrest⟩ := List.append_inj hlist hlength
  have hid : id = id' := String.toList_inj.mp (List.append_cancel_left hrest)
  have hsite : site = site' := by
    cases site <;> cases site' <;> first | rfl | exact absurd hname (by decide)
  rw [hid, hsite]

/-- The loop keeps what it has not seen. -/
theorem keepFirst_eq (seen : List String) (l : List (ExternalSite × String)) :
    keepFirst seen l = unseen seenKey seen l := by
  induction l generalizing seen with
  | nil => rfl
  | cons first l ih =>
      rw [keepFirst, ih, ih]
      by_cases hseen : seenKey first ∈ seen
      · rw [if_pos hseen, unseen_cons_of_mem hseen]
      · rw [if_neg hseen, unseen_cons_of_notMem hseen]

/-- An id is kept if it was found and not seen before. -/
theorem mem_keepFirst {seen : List String}
    {l : List (ExternalSite × String)} {found : ExternalSite × String} :
    found ∈ keepFirst seen l ↔ found ∈ l ∧ seenKey found ∉ seen := by
  rw [keepFirst_eq, unseen, List.mem_filter, mem_distinctOn_of_injective fun _ _ => seenKey_inj,
    decide_eq_true_iff]

/-- No id is kept twice. -/
theorem nodup_keepFirst {seen : List String} {l : List (ExternalSite × String)} :
    (keepFirst seen l).Nodup := by
  rw [keepFirst_eq]
  exact (List.Nodup.of_map seenKey (nodup_map_distinctOn seenKey l)).filter _

/-- A list without repetitions whose members are all one. -/
theorem eq_singleton_of_nodup {α : Type} {l : List α} {a : α} (hnodup : l.Nodup)
    (hall : ∀ b ∈ l, b = a)
    (ha : a ∈ l) : l = [a] := by
  obtain ⟨n, hn⟩ : ∃ n, l = List.replicate n a := ⟨l.length, List.eq_replicate_of_mem hall⟩
  subst hn
  rw [List.nodup_replicate] at hnodup
  obtain ⟨hpos, -⟩ := List.mem_replicate.mp ha
  obtain rfl : n = 1 := by omega
  rfl

/-- **One id for each site, the first, is kept** exactly where no site has two. -/
theorem filter_keepFirst_iff {l : List (ExternalSite × String)} {site : ExternalSite} :
    (keepFirst [] l).filter (·.1 = site) = (l.find? (·.1 = site)).toList ↔
      ∀ id id', (site, id) ∈ l → (site, id') ∈ l → id = id' := by
  have hmem : ∀ found : ExternalSite × String,
      found ∈ (keepFirst [] l).filter (·.1 = site) ↔ found ∈ l ∧ found.1 = site := by
    intro found
    rw [List.mem_filter, mem_keepFirst, decide_eq_true_eq]
    simp
  constructor
  · intro h id id' hid hid'
    have hid := (hmem (site, id)).mpr ⟨hid, rfl⟩
    have hid' := (hmem (site, id')).mpr ⟨hid', rfl⟩
    rw [h, Option.mem_toList] at hid hid'
    exact congrArg Prod.snd (Option.some.inj (hid.symm.trans hid'))
  · intro hagree
    cases hfirst : l.find? (·.1 = site) with
    | none =>
        rw [List.find?_eq_none] at hfirst
        rw [Option.toList_none, List.eq_nil_iff_forall_not_mem]
        intro found hfound
        obtain ⟨hin, hsite⟩ := (hmem found).mp hfound
        exact hfirst found hin (decide_eq_true hsite)
    | some first =>
        have hsite : first.1 = site := by simpa using List.find?_some hfirst
        have hin := List.mem_of_find?_eq_some hfirst
        refine eq_singleton_of_nodup (nodup_keepFirst.filter _) (fun found hfound => ?_)
          ((hmem first).mpr ⟨hin, hsite⟩)
        obtain ⟨hfin, hfsite⟩ := (hmem found).mp hfound
        obtain ⟨fsite, fid⟩ := found
        obtain ⟨site', first⟩ := first
        obtain rfl : fsite = site := hfsite
        obtain rfl : site' = fsite := hsite
        rw [hagree fid first hfin hin]

/-! ## What is stored -/

/-- Where all that is found for a site agrees, that is what is stored. -/
theorem row_upsertExternalIds {malId : Int} {site : ExternalSite} {id : String}
    {ids : List (ExternalSite × String)}
    (hagree : ∀ found ∈ ids, found.1 = site → found.2 = id) {table : ExternalIds}
    (h : (∃ found ∈ ids, found.1 = site) ∨ table.row (malId, site) = some id) :
    (upsertExternalIds malId ids table).row (malId, site) = some id := by
  induction ids generalizing table with
  | nil => exact h.resolve_left fun ⟨_, hmem, _⟩ => (nomatch hmem)
  | cons found ids ih =>
      refine ih (fun other hmem => hagree other (List.mem_cons_of_mem _ hmem)) ?_
      by_cases hsite : found.1 = site
      · right
        dsimp only
        rw [hsite, KeyedTable.row_upsert_self, hagree found List.mem_cons_self hsite]
        cases table.row (malId, site) <;> rfl
      · obtain ⟨other, hmem, hother⟩ | hrow := h
        · left
          obtain rfl | hlater := List.mem_cons.mp hmem
          · exact absurd hother hsite
          · exact ⟨other, hlater, hother⟩
        · right
          rw [KeyedTable.row_upsert_of_ne, hrow]
          intro heq
          exact hsite (congrArg Prod.snd heq).symm

/-! ## A payload -/

section Payload

variable {F : Type} {data : List (String × PyValue F)}

/-- What is asked of a payload: one id for each site, the first, well formed, and
stored. -/
structure Settles (checks : UrlChecks) (data : List (String × PyValue F)) (malId : Int)
    (table : ExternalIds)
    (found ids : List (ExternalSite × String)) : Prop where
  found_eq : foundIds checks data = some found
  ids_eq : externalsFromJikanData checks data = some ids
  one : ∀ site, ids.filter (·.1 = site) = (found.find? (·.1 = site)).toList
  wellFormed : ∀ id ∈ ids, WellFormedId id
  stored : ∀ id ∈ ids, (upsertExternalIds malId ids table).row (malId, id.1) = some id.2

/-- A pattern of a site matches in a URL of a payload. -/
def Links (checks : UrlChecks) (data : List (String × PyValue F)) (site : ExternalSite)
    (val : List Char) : Prop :=
  ∃ url ∈ collectUrls (.obj data), ∃ found, matchesOfUrl checks url = some found ∧
    (site, val) ∈ found

/-- Payloads with links that go together. -/
structure IdsAgree (checks : UrlChecks) (data : List (String × PyValue F)) : Prop where
  /-- `urlparse` takes every URL. -/
  parses : ∀ url ∈ collectUrls (.obj data), urlParse checks url.toList ≠ none
  /-- No site has two different ids. -/
  agree : ∀ site val val', Links checks data site val → Links checks data site val' → val = val'
  /-- The ids of imdb are in lower case. -/
  lower : ∀ val, Links checks data .imdb val → ['t', 't'] <+: val

/-- Matching raises at a URL that cannot be parsed. -/
theorem matchesOfUrl_eq_none_iff {url : String} :
    matchesOfUrl checks url = none ↔ urlParse checks url.toList = none := by
  unfold matchesOfUrl
  by_cases hempty : url = ""
  · subst hempty
    rw [if_pos rfl]
    exact iff_of_false (by simp) (by simp [urlParse, splitScheme, checkNetloc])
  · rw [if_neg hempty, Option.map_eq_none_iff]

/-- The search goes through if every URL can be parsed. -/
theorem isSome_foundIds_iff :
    (foundIds checks data).isSome = true ↔
      ∀ url ∈ collectUrls (.obj data), urlParse checks url.toList ≠ none := by
  rw [foundIds, Option.isSome_map, isSome_mapM_iff]
  refine forall₂_congr fun url _ => ?_
  rw [extractIdsFromUrl, Option.isSome_map, Option.isSome_iff_ne_none, Ne, matchesOfUrl_eq_none_iff]

/-- The ids found are those of the links. -/
theorem mem_foundIds {found : List (ExternalSite × String)} (h : foundIds checks data = some found)
    {id : ExternalSite × String} :
    id ∈ found ↔ ∃ site val, Links checks data site val ∧ id = idOfMatch (site, val) := by
  obtain ⟨lists, hlists, rfl⟩ := Option.map_eq_some_iff.mp h
  have hmap := map_of_mapM hlists
  rw [List.mem_flatten]
  constructor
  · intro ⟨ids, hids, hid⟩
    have hmem : some ids ∈ (collectUrls (.obj data)).map (extractIdsFromUrl checks) := by
      rw [hmap]
      exact List.mem_map_of_mem hids
    obtain ⟨url, hurl, hextract⟩ := List.mem_map.mp hmem
    obtain ⟨found, hfound, rfl⟩ := Option.map_eq_some_iff.mp hextract
    obtain ⟨⟨site, val⟩, hval, rfl⟩ := List.mem_map.mp hid
    exact ⟨site, val, ⟨url, hurl, found, hfound, hval⟩, rfl⟩
  · intro ⟨site, val, ⟨url, hurl, found, hfound, hval⟩, hid⟩
    have hmem : extractIdsFromUrl checks url ∈ lists.map some := by
      rw [← hmap]
      exact List.mem_map_of_mem hurl
    obtain ⟨ids, hids, heq⟩ := List.mem_map.mp hmem
    rw [extractIdsFromUrl, hfound, Option.map_some, Option.some.injEq] at heq
    refine ⟨ids, hids, ?_⟩
    rw [heq, hid]
    exact List.mem_map_of_mem hval

/-- What a link's match looks like. -/
theorem Links.spec {site : ExternalSite} {val : List Char} (h : Links checks data site val) :
    (WellFormedId (idOfMatch (site, val)) ↔ (site = .imdb → ['t', 't'] <+: val)) ∧
      ((site = .imdb → ['t', 't'] <+: val) →
        idOfMatch (site, val) = (site, String.ofList val)) := by
  obtain ⟨url, _, found, hfound, hmem⟩ := h
  exact idOfMatch_spec (exists_group_of_mem hfound hmem)

/-- **External ids.** -/
theorem settles_iff {malId : Int} {table : ExternalIds} :
    (∃ found ids, Settles checks data malId table found ids) ↔ IdsAgree checks data := by
  constructor
  · intro ⟨found, ids, hfound, hids, hone, hwell, _⟩
    rw [externalsFromJikanData, hfound, Option.map_some, Option.some.injEq] at hids
    subst hids
    have hkept : ∀ {site val}, Links checks data site val → idOfMatch (site, val) ∈ found :=
      fun hlink =>
      (mem_foundIds hfound).mpr ⟨_, _, hlink, rfl⟩
    have hlower : ∀ {site val}, Links checks data site val → site = .imdb → ['t', 't'] <+: val := by
      intro site val hlink
      apply hlink.spec.1.mp
      exact hwell _ (mem_keepFirst.mpr ⟨hkept hlink, List.not_mem_nil⟩)
    refine ⟨isSome_foundIds_iff.mp (by rw [hfound]; rfl), fun site val val' hlink hlink' => ?_,
      fun val hlink => hlower hlink rfl⟩
    have hid := hkept hlink
    have hid' := hkept hlink'
    rw [hlink.spec.2 (hlower hlink)] at hid
    rw [hlink'.spec.2 (hlower hlink')] at hid'
    exact String.ofList_injective (filter_keepFirst_iff.mp (hone site) _ _ hid hid')
  · intro ⟨hparses, hagree, hlower⟩
    obtain ⟨found, hfound⟩ := Option.isSome_iff_exists.mp (isSome_foundIds_iff.mpr hparses)
    have hlow : ∀ {site val}, Links checks data site val → site = .imdb → ['t', 't'] <+: val := by
      rintro _ val hlink rfl
      exact hlower val hlink
    have hids : ∀ site id id', (site, id) ∈ found → (site, id') ∈ found → id = id' := by
      intro site id id' hid hid'
      obtain ⟨s, val, hlink, heq⟩ := (mem_foundIds hfound).mp hid
      obtain ⟨s', val', hlink', heq'⟩ := (mem_foundIds hfound).mp hid'
      rw [hlink.spec.2 (hlow hlink), Prod.mk.injEq] at heq
      rw [hlink'.spec.2 (hlow hlink'), Prod.mk.injEq] at heq'
      obtain ⟨rfl, rfl⟩ := heq
      obtain ⟨rfl, rfl⟩ := heq'
      rw [hagree _ val val' hlink hlink']
    refine ⟨found, keepFirst [] found, hfound, ?_, fun site =>
      filter_keepFirst_iff.mpr (hids site), ?_, ?_⟩
    · rw [externalsFromJikanData, hfound, Option.map_some]
    · intro id hid
      obtain ⟨site, val, hlink, rfl⟩ := (mem_foundIds hfound).mp (mem_keepFirst.mp hid).1
      exact hlink.spec.1.mpr (hlow hlink)
    · intro id hid
      refine row_upsertExternalIds (fun other hother hsite => ?_) (Or.inl ⟨id, hid, rfl⟩)
      obtain ⟨site, eid⟩ := id
      obtain ⟨site', eid'⟩ := other
      obtain rfl : site' = site := hsite
      exact hids _ _ _ (mem_keepFirst.mp hother).1 (mem_keepFirst.mp hid).1

end Payload

/-! ## An example -/

/-- Nothing is normalized, nothing may stand between brackets. -/
def plainChecks : UrlChecks := ⟨id, fun _ => false, fun _ => "\ufffd"⟩

/-- Two links to imdb. -/
def twoLinks : List (String × PyValue Int) :=
  [("url", .str "https://www.imdb.com/title/tt1/"),
    ("link", .str "https://www.imdb.com/title/tt2/")]

/-- Both ids are returned, and the second is stored. -/
theorem not_settles_twoLinks :
    ¬ ∀ (data : List (String × PyValue Int)) (table : ExternalIds),
      ∃ found ids, Settles plainChecks data 1 table found ids := by
  intro h
  obtain ⟨found, ids, hfound, hids, hone, _⟩ := h twoLinks .empty
  have htwo : externalsFromJikanData plainChecks twoLinks =
      some [(.imdb, "tt1"), (.imdb, "tt2")] := by
    decide +kernel
  rw [htwo, Option.some.injEq] at hids
  subst hids
  have hlength := congrArg List.length (hone .imdb)
  cases hfirst : found.find? (·.1 = ExternalSite.imdb) <;> rw [hfirst] at hlength <;> cases hlength

end Nebularr
