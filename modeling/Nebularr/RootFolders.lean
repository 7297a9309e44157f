import Nebularr.Candidates
import Nebularr.PythonText

/-!
# Root folders

The picker cuts the last part off an item's path, `RuleScope` normalizes the
folder that is picked, and the compiled scope compares paths with it and with
its prefix.  The three agree on a path exactly when nothing is stripped from
the folder but separators, and when the separator that follows it in the path
is the one that `folder_separator` reads off the folder alone.
-/

namespace Nebularr

/-! ## The three transformations -/

/-- `[/\\]`. -/
def isSeparator (c : Char) : Bool := c = '/' || c = '\\'

/-- `regexp_replace(path, '[/\\][^/\\]*$', '')`: what stands before the separator
that no other follows. -/
def withoutLastPart : List Char → List Char
  | [] => []
  | c :: rest =>
      if isSeparator c && rest.all fun d => !isSeparator d then [] else c :: withoutLastPart rest

/-- The folder of a path: what the picker makes of it before the fallback. -/
def folderOf (path : String) : String := String.ofList (withoutLastPart path.toList)

/-- `coalesce(nullif(…, ''), '/')`. -/
def pickedFolder (path : String) : String := if folderOf path = "" then "/" else folderOf path

def maxFolderLen : ℕ := 512

/-- `folder.rstrip("/\\")`. -/
def trimSeparators (folder : String) : String :=
  String.ofList (folder.toList.rdropWhile isSeparator)

/-- `trimmed or folder_separator(folder)`. -/
def trimmedFolder (folder : String) : String :=
  if trimSeparators folder = "" then String.ofList [folderSeparator folder]
  else trimSeparators folder

/-- `normalize_root_folder`. -/
def normalizeRootFolder (raw : String) : Except String String :=
  let folder := strip raw
  if folder = "" then .ok ""
  else if maxFolderLen < folder.length then .error "root folder path exceeds 512 characters"
  else .ok (trimmedFolder folder)

/-- `_normalize_root_folders`. -/
def normalizeRootFolders (value : List String) : Except String (List String) :=
  value.foldlM (fun folders raw => do
    let folder ← normalizeRootFolder raw
    return if folder ≠ "" ∧ folder ∉ folders then folders ++ [folder] else folders) []

/-- The fragment for the folders in the scope of a query: none without folders. -/
def rootFolderScope (path : Option String) (folders : List String) : List Truth :=
  if folders ≠ [] then [rootFolderFragment path folders] else []

/-- The folders let a path through. -/
def InRootFolders (folders : List String) (path : String) : Prop :=
  (Truth.all (rootFolderScope (some path) folders)).Holds

/-- A path is a folder, or lies below it. -/
def Within (folder path : String) : Prop :=
  path = trimSeparators folder ∨
    ∃ sep, isSeparator sep = true ∧ (trimSeparators folder).toList ++ [sep] <+: path.toList

/-- The folder picked for a path, normalized, is a scope of the path and of
nothing outside the folder, and is normalized for good. -/
structure PickerAgrees (path : String) (folders : List String) : Prop where
  normalized : normalizeRootFolders [pickedFolder path] = .ok folders
  itself : InRootFolders folders path
  within : ∀ other, InRootFolders folders other → Within (pickedFolder path) other
  again : ∀ folder ∈ folders, normalizeRootFolder folder = .ok folder

/-- The separator that a folder is given, once it is trimmed. -/
def ownSeparator (folder : String) : Char :=
  folderSeparator (if trimSeparators folder = "" then folder else trimSeparators folder)

/-- Nothing but separators is stripped from the folder of a path, and the
separator behind it is its own. -/
structure FolderKept (path : String) : Prop where
  stripped : strip (folderOf path) = folderOf path
  short : (folderOf path).length ≤ maxFolderLen
  trimmed : strip (trimSeparators (folderOf path)) = trimSeparators (folderOf path)
  separator : ∀ c rest, path.toList = (trimSeparators (folderOf path)).toList ++ c :: rest →
    c = ownSeparator (folderOf path)

/-! ## Separators -/

/-- A separator is a slash of either kind. -/
theorem isSeparator_iff {c : Char} : isSeparator c = true ↔ c = '/' ∨ c = '\\' := by
  simp [isSeparator]

/-- A separator is no white space. -/
theorem isPySpace_of_isSeparator {c : Char} (h : isSeparator c = true) : isPySpace c = false := by
  rcases isSeparator_iff.mp h with rfl | rfl <;> decide

/-- A folder's separator is one. -/
theorem isSeparator_folderSeparator (folder : String) :
    isSeparator (folderSeparator folder) = true := by
  unfold folderSeparator
  split <;> decide

/-- A separator alone is its own. -/
theorem folderSeparator_single {c : Char} (h : isSeparator c = true) :
    folderSeparator (String.ofList [c]) = c := by
  rcases isSeparator_iff.mp h with rfl | rfl <;> decide

/-- What is trimmed does not end in a separator. -/
theorem last_trimSeparators {folder : String} {c : Char}
    (h : (trimSeparators folder).toList.getLast? = some c) : isSeparator c = false := by
  rw [trimSeparators, String.toList_ofList] at h
  have hne : folder.toList.rdropWhile isSeparator ≠ [] := by
    intro hnil
    rw [hnil] at h
    cases h
  have hlast := List.rdropWhile_last_not isSeparator folder.toList hne
  rw [List.getLast?_eq_some_getLast hne, Option.some.injEq] at h
  rw [h] at hlast
  exact Bool.eq_false_iff.mpr hlast

/-- A folder is trimmed already if it ends in no separator. -/
theorem trimSeparators_eq_self_iff {folder : String} :
    trimSeparators folder = folder ↔
      ∀ c, folder.toList.getLast? = some c → isSeparator c = false := by
  constructor
  · intro h c hc
    rw [← h] at hc
    exact last_trimSeparators hc
  · intro h
    have hself : folder.toList.rdropWhile isSeparator = folder.toList := by
      rw [List.rdropWhile_eq_self_iff]
      intro hne
      simp [h _ (List.getLast?_eq_some_getLast hne)]
    rw [trimSeparators, hself, String.ofList_toList]

/-- Trimming twice is trimming once. -/
@[simp] theorem trimSeparators_trimSeparators (folder : String) :
    trimSeparators (trimSeparators folder) = trimSeparators folder :=
  trimSeparators_eq_self_iff.mpr fun _ => last_trimSeparators

/-- A trimmed folder is not empty; the root keeps its separator. -/
theorem trimmedFolder_ne_empty (folder : String) : trimmedFolder folder ≠ "" := by
  unfold trimmedFolder
  split
  · simp
  · assumption

/-- **The prefix of a trimmed folder**: the folder and its own separator. -/
theorem rootFolderPrefix_trimmedFolder (folder : String) :
    rootFolderPrefix (trimmedFolder folder) =
      (trimSeparators folder).toList ++ [ownSeparator folder] := by
  unfold trimmedFolder ownSeparator
  by_cases hempty : trimSeparators folder = ""
  · rw [if_pos hempty, if_pos hempty, hempty]
    have hsep := folderSeparator_single (isSeparator_folderSeparator folder)
    simp only [rootFolderPrefix, hsep, String.toList_ofList]
    simp
  · rw [if_neg hempty, if_neg hempty, rootFolderPrefix, if_neg]
    intro hsuffix
    obtain ⟨front, hsplit⟩ := List.isSuffixOf_iff_suffix.mp hsuffix
    have hlast : isSeparator (folderSeparator (trimSeparators folder)) = false :=
      last_trimSeparators (by rw [← hsplit]; simp)
    rw [isSeparator_folderSeparator] at hlast
    cases hlast

/-! ## Normalizing -/

/-- Trimming makes nothing longer. -/
theorem length_trimSeparators_le (folder : String) :
    (trimSeparators folder).length ≤ folder.length := by
  rw [trimSeparators, ← String.length_toList, ← String.length_toList, String.toList_ofList]
  exact (List.rdropWhile_prefix isSeparator _).length_le

/-- A folder that is not too long is stripped and trimmed. -/
theorem normalizeRootFolder_of_short {raw : String} (hne : strip raw ≠ "")
    (hshort : (strip raw).length ≤ maxFolderLen) :
    normalizeRootFolder raw = .ok (trimmedFolder (strip raw)) := by
  simp only [normalizeRootFolder]
  rw [if_neg hne, if_neg (Nat.not_lt.mpr hshort)]

/-- A folder that is its own normal form has no white space around it. -/
theorem strip_of_normalizeRootFolder {folder : String} (hne : folder ≠ "")
    (htrim : trimSeparators folder = folder) (h : normalizeRootFolder folder = .ok folder) :
    strip folder = folder := by
  simp only [normalizeRootFolder] at h
  split at h
  · exact absurd (Except.ok.inj h).symm hne
  · split at h
    · cases h
    · have htrimmed := Except.ok.inj h
      unfold trimmedFolder at htrimmed
      split at htrimmed
      · have hsep := isSeparator_folderSeparator (strip folder)
        have hlast : folder.toList.getLast? = some (folderSeparator (strip folder)) := by
          have hlist := congrArg String.toList htrimmed
          rw [String.toList_ofList] at hlist
          rw [← hlist]
          rfl
        rw [trimSeparators_eq_self_iff.mp htrim _ hlast] at hsep
        cases hsep
      · have hlength := length_trimSeparators_le (strip folder)
        rw [htrimmed, ← String.length_toList, ← String.length_toList] at hlength
        exact String.toList_inj.mp ((strip_sublist folder).eq_of_length_le hlength)

/-- **When normalizing again changes nothing.** -/
theorem normalizeRootFolder_again_iff {folder : String} (hshort : folder.length ≤ maxFolderLen) :
    normalizeRootFolder (trimmedFolder folder) = .ok (trimmedFolder folder) ↔
      strip (trimSeparators folder) = trimSeparators folder := by
  by_cases hempty : trimSeparators folder = ""
  · have hstrip : strip "" = "" := by decide
    have hsep := isSeparator_folderSeparator folder
    have hkept : strip (String.ofList [folderSeparator folder]) =
        String.ofList [folderSeparator folder] := by
      rw [strip_eq_self_iff, String.toList_ofList]
      simp [isPySpace_of_isSeparator hsep]
    have hagain : trimmedFolder (String.ofList [folderSeparator folder]) =
        String.ofList [folderSeparator folder] := by
      rw [trimmedFolder, if_pos, folderSeparator_single hsep]
      rw [trimSeparators, String.toList_ofList, List.rdropWhile_singleton, if_pos hsep]
    rw [trimmedFolder, if_pos hempty, hempty, hstrip, eq_self, iff_true,
      normalizeRootFolder_of_short, hkept, hagain]
    · rw [hkept]
      simp
    · rw [hkept]
      simp [maxFolderLen]
  · have hself : trimmedFolder folder = trimSeparators folder := if_neg hempty
    rw [hself]
    constructor
    · exact strip_of_normalizeRootFolder hempty (trimSeparators_trimSeparators folder)
    · intro h
      rw [normalizeRootFolder_of_short, h, trimmedFolder, trimSeparators_trimSeparators,
        if_neg hempty]
      · rwa [h]
      · rw [h]
        exact (length_trimSeparators_le folder).trans hshort

/-! ## Scopes -/

/-- One folder gives one, or none if it is blank. -/
theorem normalizeRootFolders_single (raw : String) :
    normalizeRootFolders [raw] =
      (normalizeRootFolder raw).map fun folder => if folder = "" then [] else [folder] := by
  cases hnormal : normalizeRootFolder raw with
  | error e => simp [normalizeRootFolders, hnormal, bind, Except.bind, Except.map]
  | ok folder =>
      by_cases hempty : folder = "" <;>
        simp [normalizeRootFolders, hnormal, bind, Except.bind, Except.map, hempty, pure,
          Except.pure]

/-- Without folders every path is in scope. -/
theorem inRootFolders_nil (path : String) : InRootFolders [] path := by
  simp [InRootFolders, rootFolderScope]

/-- A path is in a folder if it is the folder or goes on after its separator. -/
theorem inRootFolders_single {folder path : String} :
    InRootFolders [folder] path ↔ path = folder ∨ rootFolderPrefix folder <+: path.toList := by
  simp [InRootFolders, rootFolderScope, rootFolderFragment]

/-- **The scope of a trimmed folder.** -/
theorem inRootFolders_trimmedFolder {folder path : String} :
    InRootFolders [trimmedFolder folder] path ↔
      path = trimmedFolder folder ∨
        (trimSeparators folder).toList ++ [ownSeparator folder] <+: path.toList := by
  rw [inRootFolders_single, rootFolderPrefix_trimmedFolder]

/-- The separator that a folder is joined with is one. -/
theorem isSeparator_ownSeparator (folder : String) : isSeparator (ownSeparator folder) = true :=
  isSeparator_folderSeparator _

/-- It lets through what lies within the folder. -/
theorem within_of_inRootFolders {folder path : String}
    (h : InRootFolders [trimmedFolder folder] path) : Within folder path := by
  rcases inRootFolders_trimmedFolder.mp h with rfl | hbelow
  · unfold trimmedFolder
    split
    · rename_i hempty
      refine Or.inr ⟨folderSeparator folder, isSeparator_folderSeparator folder, ?_⟩
      rw [hempty, String.toList_ofList, String.toList_ofList]
      exact List.prefix_rfl
    · exact Or.inl rfl
  · exact Or.inr ⟨ownSeparator folder, isSeparator_ownSeparator folder, hbelow⟩

/-- The path of an item goes on from its folder. -/
theorem prefix_withoutLastPart (path : List Char) : withoutLastPart path <+: path := by
  induction path with
  | nil => exact List.prefix_rfl
  | cons c rest ih =>
      unfold withoutLastPart
      split
      · exact List.nil_prefix
      · exact (List.prefix_cons_inj c).mpr ih

/-- The folder of a path begins the path. -/
theorem prefix_folderOf (path : String) : (folderOf path).toList <+: path.toList := by
  rw [folderOf, String.toList_ofList]
  exact prefix_withoutLastPart path.toList

/-- A trimmed folder begins the folder. -/
theorem prefix_trimSeparators (folder : String) :
    (trimSeparators folder).toList <+: folder.toList := by
  rw [trimSeparators, String.toList_ofList]
  exact List.rdropWhile_prefix isSeparator _

/-- What begins a list has its first element. -/
theorem head_of_front {l l' : List Char} {c : Char} (h : l <+: l') (hc : l.head? = some c) :
    l'.head? = some c := by
  obtain ⟨rest, rfl⟩ := h
  rw [List.head?_append, hc]
  rfl

/-- What lies within a folder starts as it does, or with a separator. -/
theorem head_of_within {folder path : String} {c : Char} (h : Within folder path)
    (hc : path.toList.head? = some c) : isSeparator c = true ∨ folder.toList.head? = some c := by
  rcases h with rfl | ⟨sep, hsep, hbelow⟩
  · exact Or.inr (head_of_front (prefix_trimSeparators folder) hc)
  · cases hfolder : (trimSeparators folder).toList with
    | nil =>
        rw [hfolder] at hbelow
        have hhead := head_of_front hbelow (c := sep) rfl
        obtain rfl := Option.some.inj (hc.symm.trans hhead)
        exact Or.inl hsep
    | cons d rest =>
        rw [hfolder] at hbelow
        have hhead := head_of_front hbelow (c := d) rfl
        obtain rfl := Option.some.inj (hc.symm.trans hhead)
        refine Or.inr (head_of_front (prefix_trimSeparators folder) ?_)
        rw [hfolder]
        rfl

/-- **Nothing is stripped from a folder whose scope is that of the folder.** -/
theorem strip_of_within {folder path : String} (hpath : folder.toList <+: path.toList)
    (hitself : InRootFolders [trimmedFolder (strip folder)] path)
    (hwithin : ∀ other, InRootFolders [trimmedFolder (strip folder)] other → Within folder other) :
    strip folder = folder := by
  by_contra hstrip
  have hshorter : (strip folder).length < folder.length := by
    rw [← String.length_toList, ← String.length_toList]
    refine lt_of_le_of_ne (strip_sublist folder).length_le fun hlength => hstrip ?_
    exact String.toList_inj.mp ((strip_sublist folder).eq_of_length hlength)
  refine hstrip (strip_eq_self_iff.mpr ⟨fun c hc => ?_, fun c hc => ?_⟩)
  · rcases head_of_within (within_of_inRootFolders hitself) (head_of_front hpath hc) with
      hsep | hhead
    · exact isPySpace_of_isSeparator hsep
    · exact head_strip hhead
  · -- A folder that ends in white space is longer than the prefix of its scope.
    by_contra hspace
    have hlast : trimSeparators folder = folder := by
      rw [trimSeparators_eq_self_iff]
      intro d hd
      obtain rfl := Option.some.inj (hc.symm.trans hd)
      cases hsep : isSeparator c with
      | false => rfl
      | true => exact absurd (isPySpace_of_isSeparator hsep) hspace
    have hscope := hwithin
      (String.ofList ((trimSeparators (strip folder)).toList ++ [ownSeparator (strip folder)]))
      (inRootFolders_trimmedFolder.mpr (Or.inr (by rw [String.toList_ofList])))
    have hbound := length_trimSeparators_le (strip folder)
    rcases hscope with heq | ⟨sep, _, hbelow⟩
    · rw [hlast] at heq
      rw [← heq, String.toList_ofList, List.getLast?_concat] at hc
      obtain rfl := Option.some.inj hc
      exact hspace (isPySpace_of_isSeparator (isSeparator_ownSeparator _))
    · have hlength := hbelow.length_le
      rw [hlast, String.toList_ofList, List.length_append, List.length_append,
        String.length_toList, String.length_toList] at hlength
      simp only [List.length_singleton] at hlength
      omega

/-! ## Agreement -/

/-- One folder that is not too long, as the rule stores it. -/
theorem normalizeRootFolders_of_short {raw : String} (hne : strip raw ≠ "")
    (hshort : (strip raw).length ≤ maxFolderLen) :
    normalizeRootFolders [raw] = .ok [trimmedFolder (strip raw)] := by
  rw [normalizeRootFolders_single, normalizeRootFolder_of_short hne hshort, Except.map,
    if_neg (trimmedFolder_ne_empty (strip raw))]

/-- A blank folder is dropped, and no scope is left. -/
theorem not_within_of_blank {folder : String} (hblank : strip folder = "") :
    ¬ ∀ other, InRootFolders [] other → Within folder other := by
  intro h
  rcases head_of_within (h "x" (inRootFolders_nil "x")) rfl with hsep | hhead
  · exact absurd hsep (by decide)
  · exact strip_ne_empty hhead (by decide) hblank

/-- What agreement comes to: the folder has a scope, and it is of one piece. -/
theorem scope_of_pickerAgrees {path : String} {folders : List String}
    (h : PickerAgrees path folders) :
    (strip (pickedFolder path)).length ≤ maxFolderLen ∧
      folders = [trimmedFolder (strip (pickedFolder path))] := by
  have hnormalized := h.normalized
  rw [normalizeRootFolders_single] at hnormalized
  by_cases hblank : strip (pickedFolder path) = ""
  · simp only [normalizeRootFolder, hblank, if_true, Except.map] at hnormalized
    obtain rfl := Except.ok.inj hnormalized
    exact absurd h.within (not_within_of_blank hblank)
  · by_cases hlong : maxFolderLen < (strip (pickedFolder path)).length
    · simp [normalizeRootFolder, hblank, hlong, Except.map] at hnormalized
    · have hshort := Nat.not_lt.mp hlong
      have hone := normalizeRootFolders_of_short hblank hshort
      rw [h.normalized] at hone
      exact ⟨hshort, Except.ok.inj hone⟩

/-- A path goes on from a trimmed folder with its own separator. -/
theorem inRootFolders_iff_separator {folder path : String}
    (hfront : (trimSeparators folder).toList <+: path.toList) (hne : path ≠ "") :
    InRootFolders [trimmedFolder folder] path ↔
      ∀ c rest, path.toList = (trimSeparators folder).toList ++ c :: rest →
        c = ownSeparator folder := by
  rw [inRootFolders_trimmedFolder]
  constructor
  · intro h c rest hpath
    rcases h with heq | hbelow
    · unfold trimmedFolder at heq
      split at heq
      · rename_i hempty
        rw [heq, hempty, String.toList_ofList] at hpath
        obtain ⟨rfl, _⟩ := List.cons.inj hpath
        rw [ownSeparator, if_pos hempty]
      · rw [heq] at hpath
        exact absurd (congrArg List.length hpath) (by simp)
    · rw [hpath, List.prefix_append_right_inj] at hbelow
      exact (List.cons_prefix_cons.mp hbelow).1.symm
  · intro h
    obtain ⟨rest, hrest⟩ := hfront
    cases rest with
    | nil =>
        rw [List.append_nil, String.toList_inj] at hrest
        left
        rw [trimmedFolder, if_neg (hrest ▸ hne), hrest]
    | cons c rest =>
        have hc := h c rest hrest.symm
        refine Or.inr ⟨rest, ?_⟩
        rw [← hrest, hc]
        simp

/-- The fallback of the picker makes no difference to what counts. -/
theorem pickedFolder_alike (path : String) :
    trimSeparators (pickedFolder path) = trimSeparators (folderOf path) ∧
      ownSeparator (pickedFolder path) = ownSeparator (folderOf path) ∧
      (strip (pickedFolder path) = pickedFolder path ↔ strip (folderOf path) = folderOf path) ∧
      ((pickedFolder path).length ≤ maxFolderLen ↔ (folderOf path).length ≤ maxFolderLen) := by
  unfold pickedFolder
  split
  · rename_i hroot
    rw [hroot]
    refine ⟨?_, ?_, ?_, ?_⟩ <;> decide
  · exact ⟨rfl, rfl, Iff.rfl, Iff.rfl⟩

/-- A folder that is picked and agrees has no white space around it. -/
theorem strip_pickedFolder {path : String} {folders : List String}
    (h : PickerAgrees path folders) : strip (pickedFolder path) = pickedFolder path := by
  obtain ⟨_, hfolders⟩ := scope_of_pickerAgrees h
  by_cases hroot : folderOf path = ""
  · rw [(pickedFolder_alike path).2.2.1, hroot]
    decide
  · have hpicked : pickedFolder path = folderOf path := if_neg hroot
    have hitself := h.itself
    have hwithin := h.within
    rw [hfolders] at hitself hwithin
    rw [hpicked] at hitself hwithin ⊢
    exact strip_of_within (prefix_folderOf path) hitself hwithin

/-- **When picker, normalizer and scope agree** on the path of an item. -/
theorem pickerAgrees_iff {path : String} (hpath : path ≠ "") :
    (∃ folders, PickerAgrees path folders) ↔ FolderKept path := by
  obtain ⟨htrim, hown, hstrip, hlength⟩ := pickedFolder_alike path
  have hfront : (trimSeparators (pickedFolder path)).toList <+: path.toList := by
    rw [htrim]
    exact (prefix_trimSeparators (folderOf path)).trans (prefix_folderOf path)
  have hseparator := inRootFolders_iff_separator hfront hpath
  rw [htrim, hown] at hseparator
  constructor
  · intro ⟨folders, h⟩
    have hstripped := strip_pickedFolder h
    obtain ⟨hshort, rfl⟩ := scope_of_pickerAgrees h
    rw [hstripped] at hshort
    have hitself := h.itself
    have hagain := h.again _ List.mem_cons_self
    rw [hstripped] at hitself hagain
    rw [normalizeRootFolder_again_iff hshort, htrim] at hagain
    exact ⟨hstrip.mp hstripped, hlength.mp hshort, hagain, hseparator.mp hitself⟩
  · intro ⟨hstripped, hshort, hagain, hnext⟩
    have hsame := hstrip.mpr hstripped
    have hbound := hlength.mpr hshort
    have hne : strip (pickedFolder path) ≠ "" := by
      rw [hsame, pickedFolder]
      split <;> simp_all
    refine ⟨[trimmedFolder (pickedFolder path)], ?_, hseparator.mpr hnext, ?_, ?_⟩
    · rw [normalizeRootFolders_of_short hne (by rwa [hsame]), hsame]
    · exact fun other => within_of_inRootFolders
    · intro folder hfolder
      rw [List.mem_singleton.mp hfolder, normalizeRootFolder_again_iff hbound, htrim]
      exact hagain

/-- **When a normalized folder is normalized for good.** -/
theorem normalizedForGood_iff (raw : String) :
    (∀ folder, normalizeRootFolder raw = .ok folder → normalizeRootFolder folder = .ok folder) ↔
      ((strip raw).length ≤ maxFolderLen →
        strip (trimSeparators (strip raw)) = trimSeparators (strip raw)) := by
  by_cases hblank : strip raw = ""
  · have hempty : normalizeRootFolder "" = .ok "" := by rfl
    have hnormal : normalizeRootFolder raw = .ok "" := by
      simp only [normalizeRootFolder]
      rw [if_pos hblank]
    rw [hnormal, hblank]
    refine iff_of_true (fun folder h => ?_) (fun _ => by decide)
    rw [← Except.ok.inj h]
    exact hempty
  · by_cases hlong : maxFolderLen < (strip raw).length
    · have herror : ∀ folder, normalizeRootFolder raw ≠ .ok folder := by
        intro folder h
        simp only [normalizeRootFolder] at h
        rw [if_neg hblank, if_pos hlong] at h
        cases h
      exact iff_of_true (fun folder h => absurd h (herror folder))
        (fun h => absurd h (Nat.not_le.mpr hlong))
    · have hshort := Nat.not_lt.mp hlong
      have hnormal := normalizeRootFolder_of_short hblank hshort
      have hagain := normalizeRootFolder_again_iff hshort
      constructor
      · exact fun h _ => hagain.mp (h _ hnormal)
      · intro h folder hfolder
        rw [← Except.ok.inj (hnormal.symm.trans hfolder)]
        exact hagain.mpr (h hshort)

/-- **Root folders, exactly**: for the path of an item, and for any folder. -/
theorem rootFolders_agree_iff {path : String} (hpath : path ≠ "") (raw : String) :
    ((∃ folders, PickerAgrees path folders) ↔ FolderKept path) ∧
      ((∀ folder, normalizeRootFolder raw = .ok folder →
          normalizeRootFolder folder = .ok folder) ↔
        ((strip raw).length ≤ maxFolderLen →
          strip (trimSeparators (strip raw)) = trimSeparators (strip raw))) :=
  ⟨pickerAgrees_iff hpath, normalizedForGood_iff raw⟩

/-- The folder of a show. -/
theorem rootFolders_agree_show :
    (∃ folders, PickerAgrees "/media/anime/Show" folders) ↔ FolderKept "/media/anime/Show" :=
  (rootFolders_agree_iff (by decide) "/media/anime").1

/-- The folder of `C:\X` has no backslash left to tell its separator by. -/
theorem not_pickerAgrees_drive : ¬ ∃ folders, PickerAgrees "C:\\X" folders := by
  intro ⟨folders, h⟩
  obtain ⟨_, hfolders⟩ := scope_of_pickerAgrees h
  have hitself := h.itself
  rw [hfolders, inRootFolders_single] at hitself
  revert hitself
  decide

end Nebularr
