import Nebularr.PythonText
import Nebularr.Transitions

/-!
# Secrets made at first boot

`get_or_create_secret` as any number of processes run it on one file of the
runtime directory.  Between two file-system steps of a call any other call may
take its own, and a process may be gone for good.

The file is created by one step and written by another.  In between it is there
and blank, and a process that stops there leaves it blank.
-/

namespace Nebularr

/-! ## Keys and the bytes of the file -/

/-- What `bytes.strip` takes off. -/
def isByteSpace (b : UInt8) : Bool := (9 ≤ b && b ≤ 13) || b == 32

/-- The bytes of the URL-safe base64 alphabet, with its padding. -/
def isUrlSafeByte (b : UInt8) : Bool :=
  (65 ≤ b && b ≤ 90) || (97 ≤ b && b ≤ 122) || (48 ≤ b && b ≤ 57) || b == 45 || b == 95 || b == 61

/-- What `Fernet.generate_key` returns: 32 bytes in URL-safe base64. -/
structure FernetKey where
  bytes : List UInt8
  length_eq : bytes.length = 44
  urlSafe : bytes.all isUrlSafeByte = true

/-- What `_read_key_file` makes of the bytes of a file: `raw.strip() or None`. -/
def keyText (raw : List UInt8) : Option (List UInt8) :=
  match stripBy isByteSpace raw with
  | [] => none
  | b :: rest => some (b :: rest)

theorem isByteSpace_of_isUrlSafeByte {b : UInt8} (h : isUrlSafeByte b = true) :
    isByteSpace b = false := by
  simp only [isUrlSafeByte, isByteSpace, UInt8.le_iff_toNat_le, Bool.or_eq_true, Bool.and_eq_true,
    decide_eq_true_eq, beq_iff_eq, ← UInt8.toNat_inj, Bool.or_eq_false_iff, Bool.and_eq_false_iff,
    decide_eq_false_iff_not, beq_eq_false_iff_ne, ne_eq, UInt8.reduceToNat] at h ⊢
  omega

/-- A key that was written is read back as it is. -/
theorem FernetKey.keyText_bytes (key : FernetKey) : keyText key.bytes = some key.bytes := by
  have hclean : ∀ b ∈ key.bytes, isByteSpace b = false := fun b hb =>
    isByteSpace_of_isUrlSafeByte (List.all_eq_true.mp key.urlSafe b hb)
  have hself : stripBy isByteSpace key.bytes = key.bytes :=
    stripBy_eq_self_iff.mpr
      ⟨fun b hb => hclean b (List.mem_of_mem_head? hb), fun b hb =>
        hclean b (List.mem_of_getLast? hb)⟩
  unfold keyText
  rw [hself]
  cases hbytes : key.bytes with
  | nil => exact absurd key.length_eq (by simp [hbytes])
  | cons b rest => rfl

/-- `get_or_create_secret` with nobody else at the file, which can be written:
what is returned and the file afterwards. -/
def getOrCreateSecret (key : FernetKey) (file : Option (List UInt8)) :
    Option (List UInt8) × Option (List UInt8) :=
  match file with
  | none => (some key.bytes, some key.bytes)
  | some raw => (keyText raw, some raw)

/-- A secret that was returned is returned again. -/
theorem getOrCreateSecret_again {key key' : FernetKey} {file : Option (List UInt8)} :
    getOrCreateSecret key' (getOrCreateSecret key file).2 = getOrCreateSecret key file := by
  cases file with
  | none => simp [getOrCreateSecret, key.keyText_bytes]
  | some raw => rfl

/-! ## The steps of a call -/

/-- Where a call of `get_or_create_secret` stands. -/
inductive CallStage
  /-- About to ask `path.is_file()`. -/
  | checking
  /-- About to `path.read_bytes()`. -/
  | reading
  /-- There was no key: about to `Fernet.generate_key()`. -/
  | generating
  /-- About to `os.open(…, O_CREAT | O_EXCL)`. -/
  | creating (key : FernetKey)
  | writing (key : FernetKey)
  /-- The file was there after all: `is_file` and `read_bytes` once more. -/
  | rechecking
  | rereading
  | returned (secret : Option (List UInt8))
  | crashed

/-- A call; `foundFile` is ghost: some step of it found the file existing. -/
structure SecretCall where
  stage : CallStage := .checking
  foundFile : Bool := false

/-- What may happen to a call. -/
inductive SecretEvent
  /-- The next step at the file. -/
  | proceed
  | generate (key : FernetKey)
  | crash
  /-- An `OSError`, with so many bytes of the key written. -/
  | refuse (written : ℕ)

/-- The file, and a call, after an event; `none` where the call does not wait
for it. -/
def callStep (file : Option (List UInt8)) (call : SecretCall) :
    SecretEvent → Option (Option (List UInt8) × SecretCall)
  | .proceed =>
      match call.stage, file with
      | .checking, none => some (none, { call with stage := .generating })
      | .checking, some raw => some (some raw, ⟨.reading, true⟩)
      | .reading, some raw =>
          match keyText raw with
          | some key => some (some raw, { call with stage := .returned (some key) })
          | none => some (some raw, { call with stage := .generating })
      | .creating key, none => some (some [], { call with stage := .writing key })
      | .creating _, some raw => some (some raw, ⟨.rechecking, true⟩)
      | .writing key, _ => some (some key.bytes, { call with stage := .returned (some key.bytes) })
      | .rechecking, none => some (none, { call with stage := .returned none })
      | .rechecking, some raw => some (some raw, ⟨.rereading, true⟩)
      | .rereading, some raw => some (some raw, { call with stage := .returned (keyText raw) })
      | _, _ => none
  | .generate key =>
      match call.stage with
      | .generating => some (file, { call with stage := .creating key })
      | _ => none
  | .crash =>
      match call.stage with
      | .returned _ => none
      | _ => some (file, { call with stage := .crashed })
  | .refuse written =>
      match call.stage with
      | .creating _ => some (file, { call with stage := .returned none })
      | .writing key => some (some (key.bytes.take written), { call with stage := .returned none })
      | _ => none

/-- The file and all calls that are ever made, by number. -/
structure SecretWorld where
  file : Option (List UInt8)
  calls : ℕ → SecretCall

namespace SecretWorld

/-- No call has begun. -/
def boot (file : Option (List UInt8)) : SecretWorld := ⟨file, fun _ => {}⟩

/-- An event of one call. -/
def step (s : SecretWorld) (a : ℕ × SecretEvent) : Option SecretWorld :=
  (callStep s.file (s.calls a.1) a.2).map fun after =>
    ⟨after.1, Function.update s.calls a.1 after.2⟩

theorem step_eq_some {s s' : SecretWorld} {a : ℕ × SecretEvent} (h : s.step a = some s') :
    callStep s.file (s.calls a.1) a.2 = some (s'.file, s'.calls a.1) ∧
      ∀ d, d ≠ a.1 → s'.calls d = s.calls d := by
  obtain ⟨⟨file, call⟩, hcall, hs'⟩ := Option.map_eq_some_iff.mp h
  subst hs'
  refine ⟨?_, ?_⟩
  · rw [hcall]
    simp
  · intro d hd
    exact Function.update_of_ne hd _ _

/-- The events of one call, with nothing in between. -/
theorem reaches_of_replay_call {c : ℕ} {events : List SecretEvent} {s : SecretWorld}
    {after : Option (List UInt8) × SecretCall}
    (h : replay (fun here e => callStep here.1 here.2 e) events (s.file, s.calls c) = some after) :
    ∃ t, Reaches step (fun _ a => a.1 = c) s t ∧ t.file = after.1 ∧ t.calls c = after.2 := by
  induction events generalizing s with
  | nil =>
      obtain rfl := Option.some.inj h
      exact ⟨s, .refl, rfl, rfl⟩
  | cons e rest ih =>
      obtain ⟨here, hfirst, hrest⟩ := Option.bind_eq_some_iff.mp h
      let u : SecretWorld := ⟨here.1, Function.update s.calls c here.2⟩
      have hstep : s.step (c, e) = some u := Option.map_eq_some_iff.mpr ⟨here, hfirst, rfl⟩
      have hreachFirst : Reaches step (fun _ a => a.1 = c) s u := .tail .refl rfl hstep
      have hcall : u.calls c = here.2 := Function.update_self c here.2 s.calls
      have hlater : replay (fun here e => callStep here.1 here.2 e) rest (u.file, u.calls c) =
          some after := by
        rw [hcall]
        exact hrest
      obtain ⟨t, hreach, hfile, ht⟩ := ih hlater
      exact ⟨t, hreachFirst.trans hreach, hfile, ht⟩

/-- **A call by itself** does what `getOrCreateSecret` says. -/
theorem getOrCreateSecret_alone {s : SecretWorld} {c : ℕ} (hc : (s.calls c).stage = .checking)
    (key : FernetKey) :
    ∃ t, Reaches step (fun _ a => a.1 = c) s t ∧ t.file = (getOrCreateSecret key s.file).2 ∧
      (t.calls c).stage = .returned (getOrCreateSecret key s.file).1 := by
  suffices h : ∃ events after, replay (fun here e => callStep here.1 here.2 e) events
      (s.file, s.calls c) = some after ∧ after.1 = (getOrCreateSecret key s.file).2 ∧
        after.2.stage = .returned (getOrCreateSecret key s.file).1 by
    obtain ⟨events, after, hreplay, hfile, hstage⟩ := h
    obtain ⟨t, hreach, htfile, htcall⟩ := reaches_of_replay_call hreplay
    exact ⟨t, hreach, htfile.trans hfile, by rw [htcall, hstage]⟩
  cases hfile : s.file with
  | none =>
      refine ⟨[.proceed, .generate key, .proceed, .proceed], ?_⟩
      simp [replay, callStep, hc, getOrCreateSecret]
  | some raw =>
      cases hkey : keyText raw with
      | none =>
          refine ⟨[.proceed, .proceed, .generate key, .proceed, .proceed, .proceed], ?_⟩
          simp [replay, callStep, hc, getOrCreateSecret, hkey]
      | some secret =>
          refine ⟨[.proceed, .proceed], ?_⟩
          simp [replay, callStep, hc, getOrCreateSecret, hkey]

/-! ## What the file says about the calls -/

/-- What a call at a stage may rely on. -/
def FitsFile (file : Option (List UInt8)) : CallStage → Prop
  | .reading | .rechecking | .rereading => file ≠ none
  | .writing _ => file = some []
  | .returned (some secret) => file.bind keyText = some secret
  | _ => True

/-- The file fits every call, and one call at most is about to write. -/
structure Ordered (s : SecretWorld) : Prop where
  fits : ∀ c, FitsFile s.file (s.calls c).stage
  oneWriter : ∀ c d key key', (s.calls c).stage = .writing key → (s.calls d).stage = .writing key' →
    c = d

theorem ordered_boot (file : Option (List UInt8)) : (boot file).Ordered :=
  ⟨fun _ => trivial, fun _ _ _ _ h => nomatch h⟩

/-- **The three ways of the file.**  It stays, or it is created blank by the
call that is then to write it, or that call writes it. -/
theorem callStep_file {file file' : Option (List UInt8)} {call call' : SecretCall} {e : SecretEvent}
    (h : callStep file call e = some (file', call')) :
    (file' = file ∧ ∀ key, call'.stage ≠ .writing key) ∨
      (file = none ∧ file' = some [] ∧ ∃ key, call'.stage = .writing key) ∨
      (∃ key, call.stage = .writing key) ∧ file' ≠ none ∧ ∀ key, call'.stage ≠ .writing key := by
  revert h
  fun_cases callStep file call e
  all_goals intro h
  all_goals cases h
  all_goals simp_all

/-- What a call relies on, the file still says after the call's own event. -/
theorem fitsFile_callStep
    {file file' : Option (List UInt8)} {call call' : SecretCall} {e : SecretEvent}
    (h : callStep file call e = some (file', call')) (hfit : FitsFile file call.stage) :
    FitsFile file' call'.stage := by
  revert h
  fun_cases callStep file call e
  all_goals intro h
  all_goals cases h
  case case7 key hstage => exact key.keyText_bytes
  case case10 raw hstage =>
      cases hkey : keyText raw with
      | none => trivial
      | some secret => exact hkey
  all_goals simp_all [FitsFile]

/-- What another call relies on, the file still says: it is created where none
relied on it, and written where the one writer is at work. -/
theorem fitsFile_other {file file' : Option (List UInt8)} {stage : CallStage}
    (hfit : FitsFile file stage) (hwriting : ∀ key, stage ≠ .writing key)
    (hfile : file' = file ∨ file' ≠ none ∧ (file = none ∨ file = some [])) :
    FitsFile file' stage := by
  obtain hsame | ⟨hthere, hbefore⟩ := hfile
  · rw [hsame]
    exact hfit
  · have hnokey : file.bind keyText = none := by
      obtain hnone | hblank := hbefore
      · rw [hnone]
        rfl
      · rw [hblank]
        rfl
    cases stage with
    | checking => trivial
    | reading => exact hthere
    | generating => trivial
    | creating key => trivial
    | writing key => exact absurd rfl (hwriting key)
    | rechecking => exact hthere
    | rereading => exact hthere
    | returned secret =>
        cases secret with
        | none => trivial
        | some secret =>
            have hkey : file.bind keyText = some secret := hfit
            rw [hnokey] at hkey
            cases hkey
    | crashed => trivial

/-- **The step lemma.** -/
theorem ordered_step {s s' : SecretWorld} {a : ℕ × SecretEvent} (hs : s.Ordered)
    (h : s.step a = some s') : s'.Ordered := by
  obtain ⟨hcall, hothers⟩ := step_eq_some h
  have hown := fitsFile_callStep hcall (hs.fits a.1)
  obtain ⟨hsame, hnot⟩ | ⟨hnone, hblank, key, hkey⟩ | ⟨⟨key, hkey⟩, hthere, hnot⟩ :=
    callStep_file hcall
  · refine ⟨fun c => ?_, fun c d k l hc hd => ?_⟩
    · by_cases hca : c = a.1
      · exact hca ▸ hown
      · rw [hothers c hca, hsame]
        exact hs.fits c
    · have hca : c ≠ a.1 := fun hca => hnot k (hca ▸ hc)
      have hda : d ≠ a.1 := fun hda => hnot l (hda ▸ hd)
      rw [hothers c hca] at hc
      rw [hothers d hda] at hd
      exact hs.oneWriter c d k l hc hd
  · -- the file was not there, so nobody was writing it
    have hnobody : ∀ c k, (s.calls c).stage ≠ .writing k := by
      intro c k hc
      have hfit := hs.fits c
      rw [hc, hnone] at hfit
      cases hfit
    refine ⟨fun c => ?_, fun c d k l hc hd => ?_⟩
    · by_cases hca : c = a.1
      · exact hca ▸ hown
      · rw [hothers c hca]
        refine fitsFile_other (hs.fits c) (hnobody c) (Or.inr ⟨?_, Or.inl hnone⟩)
        rw [hblank]
        exact Option.some_ne_none _
    · have honly : ∀ c k, (s'.calls c).stage = .writing k → c = a.1 := by
        intro c k hc
        by_cases hca : c = a.1
        · exact hca
        · rw [hothers c hca] at hc
          exact absurd hc (hnobody c k)
      rw [honly c k hc, honly d l hd]
  · have hblank : s.file = some [] := by
      have hfit := hs.fits a.1
      rw [hkey] at hfit
      exact hfit
    have honly : ∀ c k, (s.calls c).stage = .writing k → c = a.1 := fun c k hc =>
      hs.oneWriter c a.1 k key hc hkey
    refine ⟨fun c => ?_, fun c d k l hc _ => ?_⟩
    · by_cases hca : c = a.1
      · exact hca ▸ hown
      · rw [hothers c hca]
        exact fitsFile_other (hs.fits c) (fun k hc => hca (honly c k hc))
          (Or.inr ⟨hthere, Or.inr hblank⟩)
    · have hca : c ≠ a.1 := fun hca => hnot k (hca ▸ hc)
      rw [hothers c hca] at hc
      exact absurd (honly c k hc) hca

theorem ordered_of_reachable {s t : SecretWorld} (h : Reachable step s t) (hs : s.Ordered) :
    t.Ordered :=
  h.invariant hs fun _ _ _ hinv _ hnext => ordered_step hinv hnext

/-! ## What calls return -/

/-- **Agreement.**  Whatever is refused and whoever is gone: two calls that
return a key return the same one, and the file holds it. -/
theorem returned_eq_of_reachable {file : Option (List UInt8)} {s : SecretWorld}
    (h : Reachable step (boot file) s) {c d : ℕ} {key key' : List UInt8}
    (hc : (s.calls c).stage = .returned (some key))
    (hd : (s.calls d).stage = .returned (some key')) :
    key = key' := by
  have hordered := ordered_of_reachable h (ordered_boot file)
  have hkey : s.file.bind keyText = some key := by
    have hfit := hordered.fits c
    rw [hc] at hfit
    exact hfit
  have hkey' : s.file.bind keyText = some key' := by
    have hfit := hordered.fits d
    rw [hd] at hfit
    exact hfit
  exact Option.some.inj (hkey.symm.trans hkey')

/-- All returned keys are the same, and no call that found the file existing
has returned `None`. -/
structure Agrees (s : SecretWorld) : Prop where
  sameKey : ∀ c d key key', (s.calls c).stage = .returned (some key) →
    (s.calls d).stage = .returned (some key') → key = key'
  foundKey : ∀ c, (s.calls c).foundFile = true → (s.calls c).stage ≠ .returned none

/-- The file can be created and written: no `OSError`. -/
def Writable (a : ℕ × SecretEvent) : Prop := ∀ written, a.2 ≠ .refuse written

/-- A call whose exclusive create failed reads the file, and it is blank. -/
def LosesToBlank (s : SecretWorld) (a : ℕ × SecretEvent) : Prop :=
  a.2 = .proceed ∧ (s.calls a.1).stage = .rereading ∧ s.file.bind keyText = none

theorem callStep_returned_none {file file' : Option (List UInt8)} {call call' : SecretCall}
    {e : SecretEvent} (hfit : FitsFile file call.stage)
    (h : callStep file call e = some (file', call')) (hnone : call'.stage = .returned none) :
    (e = .proceed ∧ call.stage = .rereading ∧ file.bind keyText = none) ∨
      ∃ written, e = .refuse written := by
  revert h
  fun_cases callStep file call e
  all_goals intro h
  all_goals cases h
  all_goals simp_all [FitsFile]

/-- A call that lost the race has found the file. -/
def FoundOnceMore (call : SecretCall) : Prop := call.stage = .rereading → call.foundFile = true

theorem foundOnceMore_callStep {file file' : Option (List UInt8)} {call call' : SecretCall}
    {e : SecretEvent} (h : callStep file call e = some (file', call')) : FoundOnceMore call' := by
  revert h
  fun_cases callStep file call e
  all_goals intro h
  all_goals cases h
  all_goals simp [FoundOnceMore]

theorem foundOnceMore_of_reachable {file : Option (List UInt8)} {s : SecretWorld}
    (h : Reachable step (boot file) s) (c : ℕ) : FoundOnceMore (s.calls c) := by
  induction h with
  | refl => exact fun hstage => nomatch hstage
  | @tail t u a _ _ hnext ih =>
      obtain ⟨hcall, hothers⟩ := step_eq_some hnext
      by_cases hca : c = a.1
      · exact hca ▸ foundOnceMore_callStep hcall
      · exact (hothers c hca).symm ▸ ih

/-- A call that has returned takes no further step. -/
theorem call_of_returned {s t : SecretWorld} (h : Reachable step s t) {c : ℕ}
    {secret : Option (List UInt8)} (hc : (s.calls c).stage = .returned secret) :
    t.calls c = s.calls c := by
  induction h with
  | refl => rfl
  | @tail t u a _ _ hnext ih =>
      obtain ⟨hcall, hothers⟩ := step_eq_some hnext
      by_cases hca : c = a.1
      · subst hca
        rw [ih] at hcall
        obtain ⟨c, e⟩ := a
        cases e <;> simp [callStep, hc] at hcall
      · rw [hothers c hca, ih]

/-- A run on a writable file in which nobody loses to a blank file. -/
theorem not_returned_none_of_reaches {file : Option (List UInt8)} {s : SecretWorld}
    (h : Reaches step (fun s a => Writable a ∧ ¬ s.LosesToBlank a) (boot file) s) (c : ℕ) :
    (s.calls c).stage ≠ .returned none := by
  induction h with
  | refl => exact fun hc => nomatch hc
  | @tail t u a hreach hcond hnext ih =>
      intro hc
      obtain ⟨hcall, hothers⟩ := step_eq_some hnext
      have hordered := ordered_of_reachable (hreach.mono fun _ _ _ => trivial) (ordered_boot file)
      by_cases hca : c = a.1
      · subst hca
        obtain hloses | ⟨written, hrefuse⟩ := callStep_returned_none (hordered.fits a.1) hcall hc
        · exact hcond.2 hloses
        · exact hcond.1 written hrefuse
      · rw [hothers c hca] at hc
        exact ih hc

/-- **First boot.**  As long as no call that lost the race reads the file while
it is blank, all keys agree and whoever found the file has a key; and one such
read is enough for that never to be so again. -/
theorem agrees_while_never_losesToBlank (file : Option (List UInt8)) :
    (∀ s, Reaches step (fun s a => Writable a ∧ ¬ s.LosesToBlank a) (boot file) s → s.Agrees) ∧
      ∀ s a s' t, Reachable step (boot file) s → s.LosesToBlank a → s.step a = some s' →
        Reachable step s' t → ¬ t.Agrees := by
  refine ⟨fun s h => ⟨fun c d key key' => ?_, fun c _ => not_returned_none_of_reaches h c⟩, ?_⟩
  · exact returned_eq_of_reachable (h.mono fun _ _ _ => trivial)
  · intro s a s' t hreach ⟨hproceed, hstage, hblank⟩ hnext hlater hagrees
    obtain ⟨hcall, -⟩ := step_eq_some hnext
    have hfound := foundOnceMore_of_reachable hreach a.1 hstage
    have hfit := (ordered_of_reachable hreach (ordered_boot file)).fits a.1
    rw [hstage] at hfit
    obtain ⟨raw, hraw⟩ := Option.ne_none_iff_exists'.mp hfit
    rw [hraw, Option.bind_some] at hblank
    rw [hproceed, hraw] at hcall
    simp only [callStep, hstage, hblank, Option.some.injEq, Prod.mk.injEq] at hcall
    have hreturned : (s'.calls a.1).stage = .returned none := by rw [← hcall.2]
    have hghost : (s'.calls a.1).foundFile = true := by rw [← hcall.2, hfound]
    have hsame := call_of_returned hlater hreturned
    exact hagrees.foundKey a.1 (hsame ▸ hghost) (hsame ▸ hreturned)

/-- A key for examples: 44 times the letter A. -/
def keyOfAs : FernetKey := ⟨List.replicate 44 65, by decide, by decide⟩

/-- And 44 times the letter B. -/
def keyOfBs : FernetKey := ⟨List.replicate 44 66, by decide, by decide⟩

/-- Two processes find no file.  The second one loses, and reads the file again
when the first one has written it. -/
theorem agrees_loserRereads : ∃ s : SecretWorld, s.Agrees ∧
    (s.calls 0).stage = .returned (some keyOfAs.bytes) ∧
      (s.calls 1).stage = .returned (some keyOfAs.bytes) ∧ (s.calls 1).foundFile = true := by
  let C := fun (s : SecretWorld) (a : ℕ × SecretEvent) => Writable a ∧ ¬ s.LosesToBlank a
  have noneThere : Reaches step C (boot none) _ :=
    .tail (.tail .refl (a := (0, .proceed)) ⟨nofun, fun h => nomatch h.2.1⟩ rfl)
      (a := (1, .proceed)) ⟨nofun, fun h => nomatch h.2.1⟩ rfl
  have generated : Reaches step C (boot none) _ :=
    .tail (.tail noneThere (a := (0, .generate keyOfAs)) ⟨nofun, fun h => nomatch h.1⟩ rfl)
      (a := (1, .generate keyOfBs)) ⟨nofun, fun h => nomatch h.1⟩ rfl
  have created : Reaches step C (boot none) _ :=
    .tail generated (a := (0, .proceed)) ⟨nofun, fun h => nomatch h.2.1⟩ rfl
  have lost : Reaches step C (boot none) _ :=
    .tail (.tail created (a := (1, .proceed)) ⟨nofun, fun h => nomatch h.2.1⟩ rfl)
      (a := (1, .proceed)) ⟨nofun, fun h => nomatch h.2.1⟩ rfl
  have written : Reaches step C (boot none) _ :=
    .tail lost (a := (0, .proceed)) ⟨nofun, fun h => nomatch h.2.1⟩ rfl
  have reread : Reaches step C (boot none) _ :=
    .tail written (a := (1, .proceed)) ⟨nofun, fun h => nomatch h.2.2⟩ rfl
  exact ⟨_, (agrees_while_never_losesToBlank none).1 _ reread, rfl, rfl, rfl⟩

/-- One process has created the file and not written it yet when another one
asks for the key. -/
theorem not_agrees_of_race :
    ¬ ∀ file s, Reaches step (fun _ a => Writable a) (boot file) s → s.Agrees := by
  intro hall
  let race : List (ℕ × SecretEvent) :=
    [(0, .proceed), (0, .generate keyOfAs), (0, .proceed), (1, .proceed), (1, .proceed),
      (1, .generate keyOfAs), (1, .proceed), (1, .proceed), (1, .proceed)]
  have hwritable : ∀ a ∈ race, ∀ s : SecretWorld, Writable a := by
    intro a ha s written hrefuse
    simp only [race, List.mem_cons, List.not_mem_nil, or_false] at ha
    rcases ha with rfl | rfl | rfl | rfl | rfl | rfl | rfl | rfl | rfl <;> cases hrefuse
  have hrun : ∃ s, replay step race (boot none) = some s ∧
      (s.calls 1).stage = .returned none ∧ (s.calls 1).foundFile = true := ⟨_, rfl, rfl, rfl⟩
  obtain ⟨s, hs, hreturned, hfound⟩ := hrun
  exact (hall none s (reaches_of_replay hwritable hs)).foundKey 1 hfound hreturned

/-! ## The session key of a process -/

/-- The two globals of the module. -/
structure SigningKeys where
  cached : Option (List UInt8) := none
  ephemeral : Option (List UInt8) := none

/-- `session_signing_key`, with what `get_or_create_secret` returns and the
random bytes it falls back to. -/
def sessionSigningKey (secret : Option (List UInt8)) (random : List UInt8) (keys : SigningKeys) :
    List UInt8 × SigningKeys :=
  match keys.cached, secret, keys.ephemeral with
  | some key, _, _ => (key, keys)
  | none, some key, _ => (key, { keys with cached := some key })
  | none, none, some key => (key, keys)
  | none, none, none => (random, { keys with ephemeral := some random })

/-- Where the calls agree, two processes that found the file sign alike. -/
theorem Agrees.sessionSigningKey_eq {s : SecretWorld} (hs : s.Agrees) {c d : ℕ}
    {secret secret' : Option (List UInt8)} (hc : (s.calls c).stage = .returned secret)
    (hd : (s.calls d).stage = .returned secret') (hfound : (s.calls c).foundFile = true)
    (hfound' : (s.calls d).foundFile = true) (random random' : List UInt8) :
    (sessionSigningKey secret random {}).1 = (sessionSigningKey secret' random' {}).1 := by
  cases secret with
  | none => exact absurd hc (hs.foundKey c hfound)
  | some key =>
      cases secret' with
      | none => exact absurd hd (hs.foundKey d hfound')
      | some key' => exact hs.sameKey c d key key' hc hd

/-! ## A file left blank -/

/-- The file is blank and the call that would write it is gone. -/
structure Abandoned (s : SecretWorld) : Prop where
  blank : s.file ≠ none ∧ s.file.bind keyText = none
  noWriter : ∀ c key, (s.calls c).stage ≠ .writing key

/-- **Gone between create and write.** -/
theorem abandoned_of_crash {s s' : SecretWorld} (hs : s.Ordered) {c : ℕ} {key : FernetKey}
    (hc : (s.calls c).stage = .writing key) (h : s.step (c, .crash) = some s') : s'.Abandoned := by
  obtain ⟨hcall, hothers⟩ := step_eq_some h
  have hblank : s.file = some [] := by
    have hfit := hs.fits c
    rw [hc] at hfit
    exact hfit
  simp only [callStep, hc, Option.some.injEq, Prod.mk.injEq] at hcall
  refine ⟨?_, fun d l hd => ?_⟩
  · rw [← hcall.1, hblank]
    exact ⟨Option.some_ne_none _, rfl⟩
  · by_cases hdc : d = c
    · subst hdc
      rw [← hcall.2] at hd
      cases hd
    · rw [hothers d hdc] at hd
      exact hdc (hs.oneWriter d c l key hd hc)

theorem not_returned_of_blank {file file' : Option (List UInt8)} {call call' : SecretCall}
    {e : SecretEvent} (hthere : file ≠ none) (hblank : file.bind keyText = none)
    (hnot : ∀ key, call.stage ≠ .writing key) (h : callStep file call e = some (file', call'))
    (key : List UInt8) : call'.stage ≠ .returned (some key) := by
  revert h
  fun_cases callStep file call e
  all_goals intro h
  all_goals cases h
  all_goals simp_all

/-- **For ever.**  Once the file is abandoned it stays blank, and no call that
is made from then on returns a key. -/
theorem abandoned_of_reachable {s t : SecretWorld} (h : Reachable step s t) (hs : s.Abandoned) :
    t.Abandoned ∧ ∀ c key, (s.calls c).stage ≠ .returned (some key) →
      (t.calls c).stage ≠ .returned (some key) := by
  induction h with
  | refl => exact ⟨hs, fun _ _ hc => hc⟩
  | @tail t u a _ _ hnext ih =>
      obtain ⟨⟨⟨hthere, hblank⟩, hnobody⟩, hnone⟩ := ih
      obtain ⟨hcall, hothers⟩ := step_eq_some hnext
      obtain ⟨hsame, hnot⟩ | ⟨hfile, -⟩ | ⟨⟨key, hkey⟩, -⟩ := callStep_file hcall
      · refine ⟨⟨hsame ▸ ⟨hthere, hblank⟩, fun c key hc => ?_⟩, fun c key hc hlater => ?_⟩
        · by_cases hca : c = a.1
          · exact hnot key (hca ▸ hc)
          · rw [hothers c hca] at hc
            exact hnobody c key hc
        · by_cases hca : c = a.1
          · subst hca
            exact not_returned_of_blank hthere hblank (hnobody a.1) hcall key hlater
          · rw [hothers c hca] at hlater
            exact hnone c key hc hlater
      · exact absurd hfile hthere
      · exact absurd hkey (hnobody a.1 key)

end SecretWorld

end Nebularr
