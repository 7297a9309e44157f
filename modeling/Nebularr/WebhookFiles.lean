import Nebularr.WebhookJobs

/-!
# Files a webhook write must not lose

One file can cover several episodes, but its row names one of them.  When
`_write_webhook_episodes` reaches that episode and it brings another file,
`tombstone_superseded_episode_files` flags the shared row, although a second
episode of the same list still carries it.  Whether the row survives depends
on which of the two comes last, so the write keeps every carried file in
every order exactly when no such pair is in the list.
-/

namespace Nebularr

/-- What a webhook write of `episodes` owes the warehouse: the files the list
carries are live, the files it replaces are flagged, and the order of the
list does not matter to what is live. -/
structure CarriedFilesKept (inst : String) (tag : WriteTag) (wh : Warehouse)
    (episodes : List EpisodePayload) : Prop where
  carried_live : ∀ f ∈ episodeFilesOf episodes,
    (writeWebhookEpisodes inst tag episodes wh).episodeFile.isLive ⟨f.fileId, inst⟩ = true
  superseded_marked : ∀ fid, fid ∉ (episodeFilesOf episodes).map CarriedFile.fileId →
    FiledUnder (wh.episodeOf inst fid) ((episodeFilesOf episodes).map CarriedFile.ownerId) →
      (writeWebhookEpisodes inst tag episodes wh).episodeFile.isMarked ⟨fid, inst⟩ = true
  order_free : ∀ episodes', episodes.Perm episodes' → ∀ k,
    (writeWebhookEpisodes inst tag episodes' wh).episodeFile.isLive k =
      (writeWebhookEpisodes inst tag episodes wh).episodeFile.isLive k

/-- No carried file is filed under a listed episode that brings another file.
A file without a row counts as filed under the episode that carries it. -/
def Uncontested (inst : String) (wh : Warehouse) (episodes : List EpisodePayload) : Prop :=
  ∀ g ∈ episodeFilesOf episodes, ∀ f ∈ episodeFilesOf episodes,
    (wh.episodeOf inst g.fileId).getD g.ownerId = f.ownerId → f.fileId = g.fileId

instance (inst : String) (wh : Warehouse) (episodes : List EpisodePayload) :
    Decidable (Uncontested inst wh episodes) :=
  inferInstanceAs (Decidable (∀ g ∈ episodeFilesOf episodes, ∀ f ∈ episodeFilesOf episodes,
    (wh.episodeOf inst g.fileId).getD g.ownerId = f.ownerId → f.fileId = g.fileId))

theorem Uncontested.perm {inst : String} {wh : Warehouse} {episodes episodes' : List EpisodePayload}
    (h : Uncontested inst wh episodes) (hperm : episodes.Perm episodes') :
    Uncontested inst wh episodes' := by
  have hfiles : (episodeFilesOf episodes).Perm (episodeFilesOf episodes') := hperm.filterMap _
  intro g hg f hf
  exact h g (hfiles.mem_iff.mpr hg) f (hfiles.mem_iff.mpr hf)

section

variable (inst : String) (tag : WriteTag) (wh : Warehouse) (episodes : List EpisodePayload)

@[simp] theorem episodeFile_writeWebhookEpisodes :
    (writeWebhookEpisodes inst tag episodes wh).episodeFile =
      replaceEpisodeFiles inst tag wh.episodeFile (episodeFilesOf episodes) := by
  rw [writeWebhookEpisodes_eq]

theorem sameElsewhere_writeWebhookEpisodes :
    SameElsewhere inst wh.episodeFile
      (writeWebhookEpisodes inst tag episodes wh).episodeFile := by
  rw [episodeFile_writeWebhookEpisodes]
  exact sameElsewhere_replaceFiles _ _

/-- The files a list does not carry fare the same in every order. -/
theorem isLive_writeWebhookEpisodes_of_notMem {fid : Int}
    (hfid : fid ∉ (episodeFilesOf episodes).map CarriedFile.fileId) :
    (writeWebhookEpisodes inst tag episodes wh).episodeFile.isLive ⟨fid, inst⟩ =
      (wh.episodeFile.isLive ⟨fid, inst⟩ &&
        !decide (FiledUnder (wh.episodeOf inst fid)
          ((episodeFilesOf episodes).map CarriedFile.ownerId))) := by
  rw [episodeFile_writeWebhookEpisodes, replaceEpisodeFiles]
  refine isLive_replaceFiles_of_notMem ?_ ?_ hfid
  · exact fun _ => rfl
  · exact fun _ _ => rfl

/-- An uncontested list keeps every file it carries. -/
theorem Uncontested.carried_live {inst : String} {wh : Warehouse} {episodes : List EpisodePayload}
    (h : Uncontested inst wh episodes) {f : CarriedFile} (hf : f ∈ episodeFilesOf episodes) :
    (writeWebhookEpisodes inst tag episodes wh).episodeFile.isLive ⟨f.fileId, inst⟩ = true := by
  rw [episodeFile_writeWebhookEpisodes, replaceEpisodeFiles]
  refine isLive_replaceFiles ?_ ?_ (Or.inl (List.mem_map_of_mem hf)) ?_
  · exact fun _ => rfl
  · exact fun _ _ => rfl
  intro f' hf' howner
  change (wh.episodeOf inst f.fileId).or _ = _ at howner
  cases hlink : wh.episodeOf inst f.fileId with
  | some eid =>
      rw [hlink, Option.some_or, Option.some.injEq] at howner
      exact h f hf f' hf' (by rw [hlink, Option.getD_some, howner])
  | none =>
      -- a new file is filed under the first episode that carries it
      rw [hlink, Option.none_or, firstOwnerOf, Option.map_eq_some_iff] at howner
      obtain ⟨g, hfind, howner⟩ := howner
      have hg : g.fileId = f.fileId := by simpa using List.find?_some hfind
      have hfiled := h g (List.mem_of_find?_eq_some hfind) f' hf'
      rw [hg, hlink, Option.getD_none] at hfiled
      exact hfiled howner

/-- Whatever the list, the files it replaces end up flagged. -/
theorem superseded_marked_writeWebhookEpisodes {fid : Int}
    (hfid : fid ∉ (episodeFilesOf episodes).map CarriedFile.fileId)
    (hfiled : FiledUnder (wh.episodeOf inst fid)
      ((episodeFilesOf episodes).map CarriedFile.ownerId)) :
    (writeWebhookEpisodes inst tag episodes wh).episodeFile.isMarked ⟨fid, inst⟩ = true := by
  obtain ⟨eid, -, hlink⟩ := id hfiled
  have hafter : parentLink EpisodeFileCols.episodeSourceId
      (writeWebhookEpisodes inst tag episodes wh).episodeFile ⟨fid, inst⟩ = some eid := by
    rw [episodeFile_writeWebhookEpisodes, episodeLink_replaceEpisodeFiles]
    change (wh.episodeOf inst fid).or _ = _
    rw [hlink, Option.some_or]
  obtain ⟨c, hc, -⟩ := Option.map_eq_some_iff.mp hafter
  refine KeyedTable.isMarked_of_isLive_eq_false hc ?_
  rw [isLive_writeWebhookEpisodes_of_notMem inst tag wh episodes hfid, decide_eq_true hfiled,
    Bool.not_true, Bool.and_false]

/-- A contested list loses a carried file in some order. -/
theorem exists_perm_lost_of_contested (h : ¬ Uncontested inst wh episodes) :
    ∃ f ∈ episodeFilesOf episodes, ∃ episodes', episodes.Perm episodes' ∧
      (writeWebhookEpisodes inst tag episodes' wh).episodeFile.isLive ⟨f.fileId, inst⟩ = false := by
  unfold Uncontested at h
  push Not at h
  obtain ⟨g, hg, f, hf, howner, hne⟩ := h
  obtain ⟨e, he, hcarried⟩ := List.mem_filterMap.mp hg
  obtain ⟨e', he', hcarried'⟩ := List.mem_filterMap.mp hf
  have hee' : e' ≠ e := by
    intro heq
    rw [heq, hcarried, Option.some.injEq] at hcarried'
    exact hne (congrArg CarriedFile.fileId hcarried'.symm)
  -- the carrier first, so that a new file is filed there, and the rival last
  let rest := (episodes.erase e).erase e'
  refine ⟨g, hg, e :: rest ++ [e'], ?_, ?_⟩
  · calc episodes.Perm (e :: episodes.erase e) := List.perm_cons_erase he
      _ |>.Perm (e :: e' :: rest) :=
        (List.perm_cons_erase ((List.mem_erase_of_ne hee').mpr he')).cons e
      _ |>.Perm (e :: rest ++ [e']) := (List.perm_append_singleton e' rest).symm.cons e
  · have hfiles : episodeFilesOf (e :: rest ++ [e']) = (g :: episodeFilesOf rest) ++ [f] := by
      simp [episodeFilesOf, List.filterMap_append, hcarried, hcarried']
    rw [episodeFile_writeWebhookEpisodes, hfiles, replaceEpisodeFiles]
    refine isLive_replaceFiles_concat ?_ ?_ (Ne.symm hne) ?_
    · exact fun _ => rfl
    · exact fun _ _ => rfl
    change (wh.episodeOf inst g.fileId).or _ = _
    rw [← howner]
    cases wh.episodeOf inst g.fileId <;> simp [firstOwnerOf]

/-- **Exactly the uncontested lists keep what they carry, in every order.** -/
theorem carriedFilesKept_iff :
    CarriedFilesKept inst tag wh episodes ↔ Uncontested inst wh episodes := by
  constructor
  · intro h
    by_contra hcontested
    obtain ⟨f, hf, episodes', hperm, hlost⟩ :=
      exists_perm_lost_of_contested inst tag wh episodes hcontested
    rw [h.order_free episodes' hperm, h.carried_live f hf] at hlost
    cases hlost
  · intro h
    refine ⟨fun f hf => h.carried_live tag hf, ?_, ?_⟩
    · exact fun fid => superseded_marked_writeWebhookEpisodes inst tag wh episodes
    · intro episodes' hperm k
      have hfiles : (episodeFilesOf episodes).Perm (episodeFilesOf episodes') := hperm.filterMap _
      obtain ⟨fid, name⟩ := k
      by_cases hname : name = inst
      · subst hname
        by_cases hfid : fid ∈ (episodeFilesOf episodes).map CarriedFile.fileId
        · obtain ⟨f, hf, rfl⟩ := List.mem_map.mp hfid
          rw [h.carried_live tag hf, (h.perm hperm).carried_live tag (hfiles.mem_iff.mp hf)]
        · have hfid' := (hfiles.map CarriedFile.fileId).mem_iff.not.mp hfid
          have howners : FiledUnder (wh.episodeOf name fid)
              ((episodeFilesOf episodes').map CarriedFile.ownerId) ↔
                FiledUnder (wh.episodeOf name fid)
                  ((episodeFilesOf episodes).map CarriedFile.ownerId) := by
            simp only [FiledUnder, (hfiles.map CarriedFile.ownerId).mem_iff]
          rw [isLive_writeWebhookEpisodes_of_notMem name tag wh episodes hfid,
            isLive_writeWebhookEpisodes_of_notMem name tag wh episodes' hfid',
            decide_eq_decide.mpr howners]
      · rw [KeyedTable.isLive, KeyedTable.isLive,
          sameElsewhere_writeWebhookEpisodes inst tag wh episodes' _ hname,
          sameElsewhere_writeWebhookEpisodes inst tag wh episodes _ hname]

end

/-- S01E01 has been replaced by file 11; S01E02 still uses the shared file 10. -/
def sharedThenReplaced : List EpisodePayload :=
  [{ id := 2, seriesId := 7, hasFile := some true, episodeFileId := some 10,
     episodeFile := some { id := some 10 } },
   { id := 1, seriesId := 7, hasFile := some true, episodeFileId := some 11,
     episodeFile := some { id := some 11 } }]

/-- File 10 covers both episodes and its row names the first. -/
def sharedOnFile : Warehouse :=
  { Warehouse.empty with
    episodeFile :=
      upsertEpisodeFile KeyedTable.empty "default" 1 10 { id := some 10 }
        ⟨1, "full", String.toLower⟩ }

/-- The write flags the file that S01E02 still carries. -/
theorem not_carriedFilesKept_sharedThenReplaced :
    ¬ CarriedFilesKept "default"
      ⟨2, "webhook", String.toLower⟩ sharedOnFile sharedThenReplaced := by
  intro h
  have hlive := h.carried_live ⟨2, 10, { id := some 10 }⟩ (by decide)
  revert hlive
  decide

end Nebularr
