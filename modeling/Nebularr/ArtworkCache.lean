import Mathlib.Data.List.Nodup
import Nebularr.Eviction
import Nebularr.Transitions

/-!
# The artwork cache

`ArtworkService.get` with what it does to the files below the cache's root:
`_cached_path`, `_store`, and every so many writes `enforce_cap`.

A file is named by its key, the `lastWrite` of its cover and its type.  Storing
an image removes the other files of its key, and enforcing the cap removes the
files that were served longest ago; the one that has just been stored may be
among them.
-/

namespace Nebularr

/-! ## Files -/

/-- The keys of `COVER_SIZES`. -/
inductive Cover
  | poster | fanart | banner | clearlogo
deriving DecidableEq, Repr

/-- `_EXT_BY_TYPE`. -/
inductive ImageType
  | jpeg | png | webp | gif
deriving DecidableEq, Repr

def ImageType.ext : ImageType → List Char
  | .jpeg => ['.', 'j', 'p', 'g']
  | .png => ['.', 'p', 'n', 'g']
  | .webp => ['.', 'w', 'e', 'b', 'p']
  | .gif => ['.', 'g', 'i', 'f']

/-- The digits of `hexdigest`. -/
def isHexDigit (c : Char) : Bool := c.isDigit || ('a' ≤ c && c ≤ 'f')

/-- What `cache_key` returns. -/
structure Sha where
  digits : List Char
  length_eq : digits.length = 64
  hex : digits.all isHexDigit = true

/-- `<cover>/<sha[:2]>/<name>`, below the root. -/
structure ArtPath where
  cover : Cover
  shard : List Char
  name : List Char
deriving DecidableEq

/-- `mtime` is when the image was stored or served last. -/
structure ArtFile where
  path : ArtPath
  size : ℕ
  mtime : ℕ
deriving DecidableEq

/-- `PurePath.suffix` of a name. -/
def suffix (name : List Char) : List Char :=
  match name.reverse.span (· != '.') with
  | (c :: tail, _ :: _ :: _) => '.' :: (c :: tail).reverse
  | _ => []

/-- An image of a cover: which one, and in which version. -/
structure ArtKey where
  cover : Cover
  sha : Sha
  lastWrite : List Char

namespace ArtKey

variable (key : ArtKey)

/-- `_cover_dir`, `sha[:2]`. -/
def shard : List Char := key.sha.digits.take 2

/-- The front of the name of all files of a key: `{sha}-`. -/
def stem : List Char := key.sha.digits ++ ['-']

/-- `directory / f"{sha}-{last_write}{ext}"`. -/
def path (type : ImageType) : ArtPath :=
  ⟨key.cover, key.shard, key.stem ++ key.lastWrite ++ type.ext⟩

/-- Whether `directory.glob(f"{sha}-*")` finds a path. -/
def globs (p : ArtPath) : Bool :=
  decide (p.cover = key.cover) && decide (p.shard = key.shard) && key.stem.isPrefixOf p.name

/-- Whether `_cached_path` takes a path: `{sha}-{last_write}.*`, with a suffix of
an image. -/
def serves (p : ArtPath) : Bool :=
  decide (p.cover = key.cover) && decide (p.shard = key.shard) &&
    (key.stem ++ key.lastWrite ++ ['.']).isPrefixOf p.name &&
      [ImageType.jpeg, .png, .webp, .gif].any fun type => decide (suffix p.name = type.ext)

/-- A glob depends on the cover and the digest. -/
theorem globs_congr {key key' : ArtKey}
    (h : key.cover = key'.cover ∧ key.sha.digits = key'.sha.digits) (p : ArtPath) :
    key.globs p = key'.globs p := by
  obtain ⟨cover, ⟨digits, _, _⟩, lastWrite⟩ := key
  obtain ⟨cover', ⟨digits', _, _⟩, lastWrite'⟩ := key'
  obtain ⟨rfl, rfl⟩ := h
  rfl

/-- `glob` finds the names of one key only. -/
theorem sha_eq_of_globs {key key' : ArtKey} {type : ImageType}
    (h : key.globs (key'.path type) = true) :
    key.cover = key'.cover ∧ key.sha.digits = key'.sha.digits := by
  simp only [globs, path, Bool.and_eq_true, List.isPrefixOf_iff_prefix] at h
  obtain ⟨⟨hcover, -⟩, hstem⟩ := h
  refine ⟨(of_decide_eq_true hcover).symm, ?_⟩
  have hlength : key.stem.length = key'.stem.length := by
    simp [stem, key.sha.length_eq, key'.sha.length_eq]
  have hown : key'.stem <+: key'.stem ++ key'.lastWrite ++ type.ext := by
    rw [List.append_assoc]
    exact List.prefix_append _ _
  have hstems :=
    (List.prefix_of_prefix_length_le hstem hown (Nat.le_of_eq hlength)).eq_of_length hlength
  exact List.append_cancel_right hstems

/-- Images are not hidden. -/
theorem path_visible (type : ImageType) : (key.path type).name.head? ≠ some '.' := by
  have hlength := key.sha.length_eq
  have hhex := key.sha.hex
  cases hdigits : key.sha.digits with
  | nil => simp [hdigits] at hlength
  | cons d rest =>
      rw [hdigits, List.all_cons, Bool.and_eq_true] at hhex
      intro hdot
      simp only [path, stem, hdigits, List.cons_append, List.head?_cons, Option.some.injEq] at hdot
      rw [hdot] at hhex
      exact absurd hhex.1 (by decide)

end ArtKey

/-- The files below the root, no two at one path; in no order that means anything. -/
structure ArtCache where
  files : List ArtFile
  distinct : (files.map ArtFile.path).Nodup

namespace ArtCache

/-- `_iter_files`: not the hidden ones. -/
def iterFiles (c : ArtCache) : List ArtFile := c.files.filter fun f => f.path.name.head? != some '.'

/-- `path.unlink(missing_ok=True)` for each of the paths. -/
def unlink (c : ArtCache) (paths : List ArtPath) : ArtCache :=
  ⟨c.files.filter fun f => !paths.contains f.path, c.distinct.sublist (List.filter_sublist.map _)⟩

/-- `os.replace(tmp, final)`. -/
def replace (c : ArtCache) (f : ArtFile) : ArtCache where
  files := (c.unlink [f.path]).files ++ [f]
  distinct := by
    rw [List.map_append, List.map_singleton, List.nodup_append]
    refine ⟨(c.unlink [f.path]).distinct, List.nodup_singleton _, ?_⟩
    intro p hp q hq
    obtain ⟨g, hg, rfl⟩ := List.mem_map.mp hp
    rw [List.mem_singleton.mp hq]
    have hother := (List.mem_filter.mp hg).2
    simpa using hother

/-- `os.utime(path)`. -/
def utime (c : ArtCache) (p : ArtPath) (now : ℕ) : ArtCache where
  files := c.files.map fun f => if f.path = p then { f with mtime := now } else f
  distinct := by
    rw [List.map_map]
    have hsame : (ArtFile.path ∘ fun f : ArtFile =>
        if f.path = p then { f with mtime := now } else f) = ArtFile.path := by
      funext f
      by_cases h : f.path = p <;> simp [h]
    rw [hsame]
    exact c.distinct

/-- `_store`. -/
def store (c : ArtCache) (key : ArtKey) (type : ImageType) (size now : ℕ) : ArtCache :=
  let replaced := c.replace ⟨key.path type, size, now⟩
  let stale := replaced.files.filter fun f => key.globs f.path && f.path != key.path type
  replaced.unlink (stale.map ArtFile.path)

/-- `sorted(files, key=lambda f: f[0])`, for files in the order in which they
were listed. -/
def byLastUse (listed : List ArtFile) : List ArtFile :=
  listed.mergeSort fun f g => decide (f.mtime ≤ g.mtime)

/-- `max_mb * 1024 * 1024`. -/
def limitBytes (maxMb : ℕ) : ℕ := maxMb * 1024 * 1024

/-- The files that `enforce_cap` removes. -/
def overCap (maxMb : ℕ) (listed : List ArtFile) : List ArtFile :=
  if maxMb = 0 then []
  else evictUntil ArtFile.size (limitBytes maxMb) (totalSize ArtFile.size listed) (byLastUse listed)

/-- `enforce_cap`. -/
def enforceCap (c : ArtCache) (maxMb : ℕ) (listed : List ArtFile) : ArtCache :=
  c.unlink ((overCap maxMb listed).map ArtFile.path)

variable {c : ArtCache} {f : ArtFile}

/-- Unlinking takes the listed paths. -/
@[simp] theorem mem_unlink {paths : List ArtPath} :
    f ∈ (c.unlink paths).files ↔ f ∈ c.files ∧ f.path ∉ paths := by
  simp [unlink, List.mem_filter]

/-- A replaced file is the only one at its path. -/
@[simp] theorem mem_replace {g : ArtFile} :
    f ∈ (c.replace g).files ↔ (f ∈ c.files ∧ f.path ≠ g.path) ∨ f = g := by
  simp [replace]

/-- A path has one file. -/
theorem path_inj {g : ArtFile} (hf : f ∈ c.files) (hg : g ∈ c.files) (h : f.path = g.path) :
    f = g :=
  List.inj_on_of_nodup_map c.distinct hf hg h

/-- **What a store leaves**: the image, and the files of other keys. -/
theorem mem_store {key : ArtKey} {type : ImageType} {size now : ℕ} :
    f ∈ (c.store key type size now).files ↔
      f = ⟨key.path type, size, now⟩ ∨
        (f ∈ c.files ∧ f.path ≠ key.path type ∧ key.globs f.path = false) := by
  simp only [store, mem_unlink, mem_replace, List.mem_map, List.mem_filter, Bool.and_eq_true,
    bne_iff_ne]
  constructor
  · rintro ⟨⟨hf, hother⟩ | rfl, hkept⟩
    · refine Or.inr ⟨hf, hother, ?_⟩
      by_contra hglobs
      exact hkept ⟨f, ⟨Or.inl ⟨hf, hother⟩, Bool.of_not_eq_false hglobs, hother⟩, rfl⟩
    · exact Or.inl rfl
  · rintro (rfl | ⟨hf, hother, hglobs⟩)
    · refine ⟨Or.inr rfl, ?_⟩
      rintro ⟨g, ⟨-, -, hne⟩, heq⟩
      exact hne heq
    · refine ⟨Or.inl ⟨hf, hother⟩, ?_⟩
      rintro ⟨g, ⟨-, hg, -⟩, heq⟩
      rw [heq, hglobs] at hg
      cases hg

/-- No file is held twice. -/
theorem nodup_files : c.files.Nodup := c.distinct.of_map _

/-- No file is listed twice. -/
theorem nodup_iterFiles : c.iterFiles.Nodup := nodup_files.filter _

/-- The files listed are those whose name begins with no dot. -/
@[simp] theorem mem_iterFiles : f ∈ c.iterFiles ↔ f ∈ c.files ∧ f.path.name.head? ≠ some '.' := by
  simp [iterFiles]

/-- What is dropped from the front is what is not taken from it. -/
theorem mem_drop_iff {l : List ArtFile} (hl : l.Nodup) {n : ℕ} :
    f ∈ l.drop n ↔ f ∈ l ∧ f ∉ l.take n := by
  have hdisjoint := List.disjoint_take_drop hl (Nat.le_refl n)
  constructor
  · exact fun h => ⟨List.mem_of_mem_drop h, fun htake => hdisjoint htake h⟩
  · intro ⟨hmem, hnot⟩
    rw [← List.take_append_drop n l, List.mem_append] at hmem
    exact hmem.resolve_left hnot

/-- Sorting by use keeps the files. -/
theorem mem_byLastUse {listed : List ArtFile} : f ∈ byLastUse listed ↔ f ∈ listed :=
  List.mem_mergeSort

/-- Sorting by use is a permutation. -/
theorem byLastUse_perm (listed : List ArtFile) : (byLastUse listed).Perm listed :=
  List.mergeSort_perm _ _

/-- What is over the cap was listed. -/
theorem mem_of_mem_overCap {maxMb : ℕ} {listed : List ArtFile} (h : f ∈ overCap maxMb listed) :
    f ∈ listed := by
  unfold overCap at h
  by_cases hcap : maxMb = 0
  · rw [if_pos hcap] at h
    cases h
  · rw [if_neg hcap] at h
    obtain ⟨n, hgone, -⟩ :=
      evictUntil_eq_take ArtFile.size (limitBytes maxMb) (byLastUse listed)
    rw [← totalSize_perm (byLastUse_perm listed), hgone] at h
    exact mem_byLastUse.mp (List.mem_of_mem_take h)

/-- Only what is over the cap goes. -/
theorem mem_enforceCap {maxMb : ℕ} {listed : List ArtFile} (hlisted : listed.Perm c.iterFiles) :
    f ∈ (c.enforceCap maxMb listed).files ↔ f ∈ c.files ∧ f ∉ overCap maxMb listed := by
  rw [enforceCap, mem_unlink]
  refine and_congr_right fun hf => not_congr ⟨fun hpath => ?_, List.mem_map_of_mem⟩
  obtain ⟨g, hg, heq⟩ := List.mem_map.mp hpath
  have hgmem := (mem_iterFiles.mp (hlisted.mem_iff.mp (mem_of_mem_overCap hg))).1
  rw [← path_inj hgmem hf heq]
  exact hg

/-- **Enforcing the cap.**  What goes is a front part of the order by last use,
what stays fits, and nothing goes once it does. -/
theorem enforceCap_spec {maxMb : ℕ} {listed : List ArtFile} (hcap : 0 < maxMb)
    (hlisted : listed.Perm c.iterFiles) :
    totalSize ArtFile.size (c.enforceCap maxMb listed).iterFiles ≤ limitBytes maxMb ∧
      ∃ n, overCap maxMb listed = (byLastUse listed).take n ∧
        ∀ m < n, limitBytes maxMb < totalSize ArtFile.size ((byLastUse listed).drop m) := by
  obtain ⟨n, hgone, hfits, hbefore⟩ :=
    evictUntil_eq_take ArtFile.size (limitBytes maxMb) (byLastUse listed)
  have hover : overCap maxMb listed = (byLastUse listed).take n := by
    rw [overCap, if_neg (Nat.ne_of_gt hcap), ← totalSize_perm (byLastUse_perm listed), hgone]
  refine ⟨?_, n, hover, hbefore⟩
  have hsorted : (byLastUse listed).Nodup :=
    ((byLastUse_perm listed).trans hlisted).nodup_iff.mpr nodup_iterFiles
  have hstays : ((c.enforceCap maxMb listed).iterFiles).Perm ((byLastUse listed).drop n) := by
    rw [List.perm_ext_iff_of_nodup nodup_iterFiles (hsorted.sublist (List.drop_sublist n _))]
    intro f
    rw [mem_drop_iff hsorted, mem_byLastUse, hlisted.mem_iff, ← hover, mem_iterFiles, mem_iterFiles]
    rw [and_right_comm, mem_enforceCap hlisted, and_right_comm]
  rw [totalSize_perm hstays]
  exact hfits

/-- Whether a file fits together with those that sort after it. -/
def FitsFrom (maxMb : ℕ) (listed : List ArtFile) (p : ArtPath) : Prop :=
  totalSize ArtFile.size ((byLastUse listed).dropWhile fun f => f.path != p) ≤ limitBytes maxMb

/-- A search by path finds the file and what follows it. -/
theorem dropWhile_path {before after : List ArtFile}
    (h : ((before ++ f :: after).map ArtFile.path).Nodup) :
    (before ++ f :: after).dropWhile (fun g => g.path != f.path) = f :: after := by
  rw [List.dropWhile_append_of_pos, List.dropWhile_cons_of_neg (by simp)]
  intro g hg
  rw [List.map_append, List.map_cons, List.nodup_append] at h
  rw [bne_iff_ne]
  exact h.2.2 g.path (List.mem_map_of_mem hg) f.path List.mem_cons_self

/-- **Which file survives.** -/
theorem survives_enforceCap_iff {maxMb : ℕ} {listed : List ArtFile} (hcap : 0 < maxMb)
    (hlisted : listed.Perm c.iterFiles) (hf : f ∈ c.iterFiles) :
    f ∈ (c.enforceCap maxMb listed).files ↔ FitsFrom maxMb listed f.path := by
  have hpaths : ((byLastUse listed).map ArtFile.path).Nodup :=
    (((byLastUse_perm listed).trans hlisted).map _).nodup_iff.mpr
      (c.distinct.sublist (List.filter_sublist.map _))
  have hsorted : (byLastUse listed).Nodup :=
    ((byLastUse_perm listed).trans hlisted).nodup_iff.mpr nodup_iterFiles
  have hin : f ∈ byLastUse listed := mem_byLastUse.mpr (hlisted.mem_iff.mpr hf)
  obtain ⟨before, after, hsplit⟩ := List.append_of_mem hin
  have hdrop := dropWhile_path (hsplit ▸ hpaths)
  rw [← hsplit] at hdrop
  rw [mem_enforceCap hlisted, and_iff_right (mem_iterFiles.mp hf).1, FitsFrom, hdrop, ← Nat.not_lt,
    overCap, if_neg (Nat.ne_of_gt hcap), ← totalSize_perm (byLastUse_perm listed), hsplit,
    mem_evictUntil_iff (hsplit ▸ hsorted)]

/-- A file that was used after all others fits if it is not larger than the cap. -/
theorem fitsFrom_iff_of_newest {maxMb : ℕ} {listed : List ArtFile} (hf : f ∈ listed)
    (hdistinct : (listed.map ArtFile.path).Nodup)
    (hnewest : ∀ g ∈ listed, g.path ≠ f.path → g.mtime < f.mtime) :
    FitsFrom maxMb listed f.path ↔ f.size ≤ limitBytes maxMb := by
  have hpaths : ((byLastUse listed).map ArtFile.path).Nodup :=
    ((byLastUse_perm listed).map _).nodup_iff.mpr hdistinct
  have hordered : (byLastUse listed).Pairwise fun f g => decide (f.mtime ≤ g.mtime) = true :=
    List.pairwise_mergeSort (by simp only [decide_eq_true_eq]; omega)
      (by simp only [Bool.or_eq_true, decide_eq_true_eq]; omega) listed
  obtain ⟨before, after, hsplit⟩ := List.append_of_mem (mem_byLastUse.mpr hf)
  have hlast : after = [] := by
    rw [List.eq_nil_iff_forall_not_mem]
    intro g hg
    rw [hsplit] at hpaths hordered
    have hle := (List.pairwise_cons.mp (List.pairwise_append.mp hordered).2.1).1 g hg
    have hne : g.path ≠ f.path := by
      rw [List.map_append, List.map_cons, List.nodup_append] at hpaths
      exact fun heq => (List.nodup_cons.mp hpaths.2.1).1 (heq ▸ List.mem_map_of_mem hg)
    have hgmem : g ∈ listed := by
      rw [← mem_byLastUse, hsplit]
      exact List.mem_append_right _ (List.mem_cons_of_mem f hg)
    have hless := hnewest g hgmem hne
    rw [decide_eq_true_eq] at hle
    omega
  have hdrop := dropWhile_path (hsplit ▸ hpaths)
  rw [← hsplit, hlast] at hdrop
  rw [FitsFrom, hdrop, totalSize_cons, totalSize_nil, Nat.add_zero]

end ArtCache

/-! ## Getting an image -/

/-- `_CAP_CHECK_EVERY_WRITES`. -/
def capCheckEveryWrites : ℕ := 50

/-- The cache and `_writes_since_cap_check`. -/
structure ArtState where
  cache : ArtCache
  writesSinceCapCheck : ℕ

/-- What `get` returns: the path of a file, or the bytes themselves. -/
inductive Artwork
  | file (p : ArtPath)
  | body
deriving DecidableEq

/-- A call of `get` for an image that is known, with what it finds outside: the
order in which its two listings come, what is fetched, whether it is to be
kept, and the time. -/
structure ArtGet where
  key : ArtKey
  globbed : List ArtFile
  fetched : Option (ImageType × ℕ)
  keep : Bool
  cacheMaxMb : ℕ
  listed : List ArtFile
  now : ℕ

namespace ArtState

/-- `_cached_path`. -/
def cachedPath (key : ArtKey) (globbed : List ArtFile) : Option ArtPath :=
  (globbed.find? fun f => key.serves f.path).map ArtFile.path

/-- `_maybe_enforce_cap`. -/
def maybeEnforceCap (s : ArtState) (cacheMaxMb : ℕ) (listed : List ArtFile) : ArtState :=
  if cacheMaxMb = 0 then s
  else if s.writesSinceCapCheck + 1 < capCheckEveryWrites then
    { s with writesSinceCapCheck := s.writesSinceCapCheck + 1 }
  else ⟨s.cache.enforceCap cacheMaxMb listed, 0⟩

/-- `get`. -/
def get (s : ArtState) (r : ArtGet) : ArtState × Option Artwork :=
  match cachedPath r.key r.globbed with
  | some p => ({ s with cache := s.cache.utime p r.now }, some (.file p))
  | none =>
      match r.fetched, r.keep with
      | none, _ => (s, none)
      | some _, false => (s, some .body)
      | some (type, size), true =>
          let stored := { s with cache := s.cache.store r.key type size r.now }
          (stored.maybeEnforceCap r.cacheMaxMb r.listed, some (.file (r.key.path type)))

/-- The listings have the files there are. -/
structure Listed (s : ArtState) (r : ArtGet) : Prop where
  globbed : r.globbed.Perm s.cache.files
  listed : ∀ type size, r.fetched = some (type, size) →
    r.listed.Perm (s.cache.store r.key type size r.now).iterFiles

/-- This write is the one after which the cap is enforced. -/
def CapCheckDue (s : ArtState) (cacheMaxMb : ℕ) : Prop :=
  0 < cacheMaxMb ∧ capCheckEveryWrites ≤ s.writesSinceCapCheck + 1

/-- The image that was stored, after the cap may have been enforced. -/
theorem stored_exists_iff {s : ArtState} {key : ArtKey} {type : ImageType} {size now maxMb : ℕ}
    {listed : List ArtFile} (hlisted : listed.Perm (s.cache.store key type size now).iterFiles) :
    (∃ f ∈ (maybeEnforceCap { s with cache := s.cache.store key type size now } maxMb
      listed).cache.files,
        f.path = key.path type) ↔
      ¬ s.CapCheckDue maxMb ∨ ArtCache.FitsFrom maxMb listed (key.path type) := by
  let image : ArtFile := ⟨key.path type, size, now⟩
  have himage : image ∈ (s.cache.store key type size now).files :=
    ArtCache.mem_store.mpr (Or.inl rfl)
  unfold maybeEnforceCap CapCheckDue
  by_cases hcap : maxMb = 0
  · rw [if_pos hcap]
    exact iff_of_true ⟨image, himage, rfl⟩ (Or.inl fun hdue => by omega)
  · rw [if_neg hcap]
    by_cases hearly : s.writesSinceCapCheck + 1 < capCheckEveryWrites
    · rw [if_pos hearly]
      exact iff_of_true ⟨image, himage, rfl⟩ (Or.inl fun hdue => by omega)
    · rw [if_neg hearly]
      have hvisible : image ∈ (s.cache.store key type size now).iterFiles :=
        ArtCache.mem_iterFiles.mpr ⟨himage, key.path_visible type⟩
      rw [or_iff_right (fun hnot => hnot ⟨by omega, by omega⟩),
        ← ArtCache.survives_enforceCap_iff (by omega) hlisted hvisible]
      constructor
      · rintro ⟨f, hf, hpath⟩
        have hsame : f = image :=
          ArtCache.path_inj ((ArtCache.mem_enforceCap hlisted).mp hf).1 himage hpath
        rw [← hsame]
        exact hf
      · exact fun hf => ⟨image, hf, rfl⟩

/-- **When the file is there.** -/
theorem get_file_exists_iff {s : ArtState} {r : ArtGet} {p : ArtPath} (hlisted : s.Listed r)
    (h : (s.get r).2 = some (.file p)) :
    (∃ f ∈ (s.get r).1.cache.files, f.path = p) ↔
      cachedPath r.key r.globbed = some p ∨ ¬ s.CapCheckDue r.cacheMaxMb ∨
        ArtCache.FitsFrom r.cacheMaxMb r.listed p := by
  unfold get at h ⊢
  cases hcached : cachedPath r.key r.globbed with
  | some q =>
      simp only [hcached, Option.some.injEq, Artwork.file.injEq] at h ⊢
      subst h
      refine iff_of_true ?_ (Or.inl rfl)
      obtain ⟨f, hfind, hpath⟩ := Option.map_eq_some_iff.mp hcached
      have hf := hlisted.globbed.mem_iff.mp (List.mem_of_find?_eq_some hfind)
      exact ⟨{ f with mtime := r.now }, List.mem_map.mpr ⟨f, hf, if_pos hpath⟩, hpath⟩
  | none =>
      simp only [hcached] at h ⊢
      cases hfetched : r.fetched with
      | none => simp [hfetched] at h
      | some image =>
          obtain ⟨type, size⟩ := image
          cases hkeep : r.keep with
          | false => simp [hfetched, hkeep] at h
          | true =>
              simp only [hfetched, hkeep, Option.some.injEq, Artwork.file.injEq] at h ⊢
              subst h
              simp only [reduceCtorEq, false_or]
              exact stored_exists_iff (hlisted.listed type size hfetched)

/-! ## One file for each key -/

/-- No two files of a key. -/
def OneFile (c : ArtCache) (key : ArtKey) : Prop :=
  ∀ f ∈ c.files, ∀ g ∈ c.files, key.globs f.path = true → key.globs g.path = true → f.path = g.path

/-- Fewer files keep one file at most. -/
theorem oneFile_of_subset {c c' : ArtCache} {key : ArtKey} (h : OneFile c key)
    (hsub : ∀ f ∈ c'.files, ∃ g ∈ c.files, g.path = f.path) : OneFile c' key := by
  intro f hf g hg hkf hkg
  obtain ⟨f', hf', hpathf⟩ := hsub f hf
  obtain ⟨g', hg', hpathg⟩ := hsub g hg
  rw [← hpathf, ← hpathg]
  exact h f' hf' g' hg' (hpathf ▸ hkf) (hpathg ▸ hkg)

/-- **A store keeps one file for each key**, and makes it so for its own. -/
theorem oneFile_store {c : ArtCache} {key stored : ArtKey} {type : ImageType} {size now : ℕ}
    (h : OneFile c key ∨ key.cover = stored.cover ∧ key.sha.digits = stored.sha.digits) :
    OneFile (c.store stored type size now) key := by
  -- the files that stay beside the image are not of its key
  have hbeside : ∀ f, key.globs (stored.path type) = true ∨
      key.cover = stored.cover ∧ key.sha.digits = stored.sha.digits →
        stored.globs f = false → key.globs f = false := by
    intro f hsame hnot
    rw [ArtKey.globs_congr (hsame.elim ArtKey.sha_eq_of_globs id)]
    exact hnot
  intro f hf g hg hkf hkg
  rw [ArtCache.mem_store] at hf hg
  obtain rfl | ⟨hf, -, hfother⟩ := hf
  · obtain rfl | ⟨-, -, hgother⟩ := hg
    · rfl
    · rw [hbeside g.path (Or.inl hkf) hgother] at hkg
      cases hkg
  · obtain rfl | ⟨hg, -, -⟩ := hg
    · rw [hbeside f.path (Or.inl hkg) hfother] at hkf
      cases hkf
    · obtain hone | hsame := h
      · exact hone f hf g hg hkf hkg
      · rw [hbeside f.path (Or.inr hsame) hfother] at hkf
        cases hkf

/-- Unlinking keeps one file at most. -/
theorem oneFile_unlink {c : ArtCache} {key : ArtKey} (h : OneFile c key) (paths : List ArtPath) :
    OneFile (c.unlink paths) key :=
  oneFile_of_subset h fun f hf => ⟨f, (ArtCache.mem_unlink.mp hf).1, rfl⟩

/-- Enforcing the cap keeps one file at most. -/
theorem oneFile_maybeEnforceCap {s : ArtState} {key : ArtKey} (h : OneFile s.cache key) (maxMb : ℕ)
    (listed : List ArtFile) : OneFile (s.maybeEnforceCap maxMb listed).cache key := by
  unfold maybeEnforceCap
  split
  · exact h
  · split
    · exact h
    · exact oneFile_unlink h _

/-- A request keeps one file at most. -/
theorem oneFile_get {s : ArtState} {key : ArtKey} (h : OneFile s.cache key) (r : ArtGet) :
    OneFile (s.get r).1.cache key := by
  unfold get
  split
  · refine oneFile_of_subset h fun f hf => ?_
    obtain ⟨g, hg, rfl⟩ := List.mem_map.mp hf
    refine ⟨g, hg, ?_⟩
    split <;> rfl
  · split
    · exact h
    · exact h
    · exact oneFile_maybeEnforceCap (oneFile_store (Or.inl h)) _ _

/-- The image of a key that `get` has stored is the only one. -/
theorem oneFile_stored {s : ArtState} {r : ArtGet} {p : ArtPath}
    (hcached : cachedPath r.key r.globbed = none) (h : (s.get r).2 = some (.file p)) :
    OneFile (s.get r).1.cache r.key := by
  unfold get at h ⊢
  simp only [hcached] at h ⊢
  cases hfetched : r.fetched with
  | none => simp [hfetched] at h
  | some image =>
      cases hkeep : r.keep with
      | false => simp [hfetched, hkeep] at h
      | true => exact oneFile_maybeEnforceCap (oneFile_store (Or.inr ⟨rfl, rfl⟩)) _ _

/-! ## Runs -/

inductive ArtEvent
  | get (r : ArtGet)
  | enforceCap (maxMb : ℕ) (listed : List ArtFile)

def step (s : ArtState) : ArtEvent → Option ArtState
  | .get r => some (s.get r).1
  | .enforceCap maxMb listed => some { s with cache := s.cache.enforceCap maxMb listed }

/-- The listings of an event have the files there are, in any order. -/
def Possible (s : ArtState) : ArtEvent → Prop
  | .get r => s.Listed r
  | .enforceCap _ listed => listed.Perm s.cache.iterFiles

/-- Every run keeps one file at most. -/
theorem oneFile_of_reaches {s t : ArtState} {key : ArtKey} (h : Reaches step Possible s t)
    (hs : OneFile s.cache key) : OneFile t.cache key := by
  induction h with
  | refl => exact hs
  | @tail u v e _ _ hnext ih =>
      cases e with
      | get r =>
          obtain rfl := Option.some.inj hnext
          exact oneFile_get ih r
      | enforceCap maxMb listed =>
          obtain rfl := Option.some.inj hnext
          exact oneFile_unlink ih _

/-- **The artwork cache.**  A file that `get` returns is there exactly if it was
there before, or the cap is not enforced after this write, or it fits together
with the files that sort after it; a key keeps one file over any run and has one
once its image is stored; and enforcing a cap removes a front part of the order
by last use, until the rest fits. -/
theorem artworkCache_invariants (s : ArtState) (r : ArtGet) :
    (∀ p : ArtPath, s.Listed r → (s.get r).2 = some (.file p) →
        ((∃ f ∈ (s.get r).1.cache.files, f.path = p) ↔
          cachedPath r.key r.globbed = some p ∨ ¬ s.CapCheckDue r.cacheMaxMb ∨
            ArtCache.FitsFrom r.cacheMaxMb r.listed p)) ∧
      (∀ (t : ArtState) (key : ArtKey), Reaches step Possible s t → OneFile s.cache key →
        OneFile t.cache key) ∧
      (∀ p : ArtPath, cachedPath r.key r.globbed = none → (s.get r).2 = some (.file p) →
        OneFile (s.get r).1.cache r.key) ∧
      ∀ (maxMb : ℕ) (listed : List ArtFile), 0 < maxMb → listed.Perm s.cache.iterFiles →
        totalSize ArtFile.size (s.cache.enforceCap maxMb listed).iterFiles ≤
          ArtCache.limitBytes maxMb ∧
          ∃ n, (∀ f, f ∈ (s.cache.enforceCap maxMb listed).files ↔
              f ∈ s.cache.files ∧ f ∉ (ArtCache.byLastUse listed).take n) ∧
            ∀ m < n, ArtCache.limitBytes maxMb <
              totalSize ArtFile.size ((ArtCache.byLastUse listed).drop m) := by
  refine ⟨fun p => get_file_exists_iff, fun t key => oneFile_of_reaches, fun p => oneFile_stored,
    fun maxMb listed hcap hlisted => ?_⟩
  obtain ⟨hfits, n, hover, hbefore⟩ := ArtCache.enforceCap_spec hcap hlisted
  refine ⟨hfits, n, fun f => ?_, hbefore⟩
  rw [← hover]
  exact ArtCache.mem_enforceCap hlisted

/-- A key for examples. -/
def posterKey : ArtKey := ⟨.poster, ⟨List.replicate 64 'a', by decide, by decide⟩, ['1']⟩

/-- And two more. -/
def otherKey : ArtKey := { posterKey with sha := ⟨List.replicate 64 'b', by decide, by decide⟩ }

def thirdKey : ArtKey := { posterKey with sha := ⟨List.replicate 64 'c', by decide, by decide⟩ }

/-- An image of 700 KiB. -/
def imageAt (key : ArtKey) (mtime : ℕ) : ArtFile := ⟨key.path .jpeg, 700 * 1024, mtime⟩

/-- Two images, one write before the cap is enforced. -/
def nearlyFull : ArtState := ⟨⟨[imageAt posterKey 0, imageAt otherKey 5], by decide⟩, 49⟩

/-- A third one is stored, in a cache of 1 MiB. -/
def thirdGet : ArtGet :=
  ⟨thirdKey, nearlyFull.cache.files, some (.jpeg, 700 * 1024), true, 1,
    [imageAt posterKey 0, imageAt otherKey 5, imageAt thirdKey 9], 9⟩

/-- The listing of a cache that is nearly full. -/
theorem nearlyFull_listed : nearlyFull.Listed thirdGet := by
  refine ⟨List.Perm.refl _, fun type size hfetched => ?_⟩
  obtain ⟨rfl, rfl⟩ := Prod.mk.inj (Option.some.inj hfetched)
  have hstored : (nearlyFull.cache.store thirdKey .jpeg (700 * 1024) 9).iterFiles =
      thirdGet.listed := by decide
  exact hstored ▸ List.Perm.refl _

/-- It stays, being the newest; its key has one file, and so has the first key
along a run; and a cap of 1 MiB is kept. -/
theorem artworkCache_invariants_nearlyFull :
    (∃ f ∈ (nearlyFull.get thirdGet).1.cache.files, f.path = thirdKey.path .jpeg) ∧
      OneFile (nearlyFull.get thirdGet).1.cache thirdKey ∧
      (∃ t, Reaches step Possible nearlyFull t ∧ OneFile t.cache posterKey) ∧
      totalSize ArtFile.size
          (nearlyFull.cache.enforceCap 1 nearlyFull.cache.iterFiles).iterFiles ≤ 1024 * 1024 := by
  obtain ⟨hexists, hrun, hone, hcap⟩ := artworkCache_invariants nearlyFull thirdGet
  refine ⟨(hexists _ nearlyFull_listed rfl).mpr (Or.inr (Or.inr ?_)), hone _ rfl rfl, ?_,
    (hcap 1 _ (by decide) (List.Perm.refl _)).1⟩
  · have hnewest : ∀ g ∈ thirdGet.listed, g.path ≠ (imageAt thirdKey 9).path → g.mtime < 9 := by
      decide
    have hin : imageAt thirdKey 9 ∈ thirdGet.listed := by decide
    exact (ArtCache.fitsFrom_iff_of_newest hin (by decide) hnewest).mpr (by decide)
  · have hget : Reaches step Possible nearlyFull (nearlyFull.get thirdGet).1 :=
      .tail .refl (a := .get thirdGet) nearlyFull_listed rfl
    have hcapped : Reaches step Possible nearlyFull _ :=
      .tail hget (a := .enforceCap 1 (nearlyFull.get thirdGet).1.cache.iterFiles)
        (List.Perm.refl _) rfl
    refine ⟨_, hcapped, hrun _ posterKey hcapped ?_⟩
    unfold OneFile
    decide

/-- The fiftieth write stores 2 MiB in an empty cache of 1 MiB. -/
theorem not_file_exists_largerThanCap :
    ¬ ∀ (s : ArtState) (r : ArtGet) (p : ArtPath), 0 < r.cacheMaxMb → s.Listed r →
        (s.get r).2 = some (.file p) → ∃ f ∈ (s.get r).1.cache.files, f.path = p := by
  intro hall
  let empty : ArtCache := ⟨[], List.nodup_nil⟩
  let image : ArtFile := ⟨posterKey.path .jpeg, 2 * 1024 * 1024, 0⟩
  let r : ArtGet := ⟨posterKey, [], some (.jpeg, 2 * 1024 * 1024), true, 1, [image], 0⟩
  have hstored : (empty.store posterKey .jpeg (2 * 1024 * 1024) 0).iterFiles = [image] := by
    decide
  have hlisted : (⟨empty, 49⟩ : ArtState).Listed r := by
    refine ⟨List.Perm.refl _, fun type size hfetched => ?_⟩
    obtain ⟨rfl, rfl⟩ := Prod.mk.inj (Option.some.inj hfetched)
    rw [hstored]
  have hexists :=
    (get_file_exists_iff hlisted rfl).mp (hall ⟨empty, 49⟩ r image.path (by decide) hlisted rfl)
  obtain hcached | hnotdue | hfits := hexists
  · cases hcached
  · exact hnotdue ⟨by decide, by decide⟩
  · rw [show r.listed = [image] from rfl,
      ArtCache.fitsFrom_iff_of_newest List.mem_cons_self] at hfits
    · exact absurd hfits (by decide)
    · simp
    · simp

end ArtState

end Nebularr
