import OpenManet.Sysupgrade.Model
/-!
# The staged image

Three things make up a staged image: the file, the record that describes it,
and the flash that reads the file later. An upload renames its file into
place and writes the record two steps after; a discard drops the record and
removes the file a step after; a local upgrade reads the record at its check
and the file when the runner starts. Nothing ties the three together.

`Untangled` says when the file may change: a rename and a removal are each
taken while no record stands, no upload has its file in place and its record
to come, and no upgrade that counts on the preflight is on its way to the
runner. In such runs the record always describes the file, and what is
flashed has passed its own preflight.
-/

namespace OpenManet

namespace Sysupgrade

open State

/-- An upgrade that counts on the preflight is between its check and the
runner. -/
def Job.awaitsFlash : Job → Bool
  | .spawning _ skip => !skip
  | .upgrade (.staged _ skip) g => !skip && g.early
  | _ => false

/-- An upload has its file in place and its record to come. -/
def Job.unrecorded : Job → Bool
  | .upload (.preflight _) | .upload (.record _) => true
  | _ => false

/-- The record says of the bytes what is so: their length, their digest, and
the verdict of a preflight that was run on them. -/
structure Describes (sha256 : Bytes → String) (preflights : List (Bytes × Bool))
    (image : StagedImage) (bytes : Bytes) : Prop where
  size : image.sizeBytes = bytes.length
  digest : image.sha256 = sha256 bytes
  verdict : (bytes, image.preflightOK) ∈ preflights

/-- A staged image describes the bytes at the staged path. -/
def Described (sha256 : Bytes → String) (s : State) : Prop :=
  ∀ image, s.staged = some image →
    ∃ bytes, s.stagedFile = some bytes ∧ Describes sha256 s.preflights image bytes

/-- The bytes at the staged path passed a preflight. -/
def Checked (s : State) : Prop := ∃ bytes, s.stagedFile = some bytes ∧ (bytes, true) ∈ s.preflights

/-- A local upgrade that does not skip the preflight runs sysupgrade on
bytes that passed it. -/
def FlashesChecked (s : State) : Action → Prop
  | .advance i (.run true) =>
    ∀ image, s.jobs i = .upgrade (.staged image false) .launch → Checked s
  | _ => True

/-- The file at the staged path may change. -/
structure Quiet (s : State) : Prop where
  noRecord : s.staged = none
  noneUnrecorded : ∀ k, (s.jobs k).unrecorded = false
  noneAwaits : ∀ k, (s.jobs k).awaitsFlash = false

/-- Renames and removals are taken while the file may change. -/
def Untangled (s : State) : Action → Prop
  | .advance i .ok =>
    ((∃ written, s.jobs i = .upload (.rename written)) ∨ s.jobs i = .discarding) → Quiet s
  | _ => True

/-- What an upload counts on at each point. -/
def UploadOK (sha256 : Bytes → String) (s : State) : Upload → Prop
  | .rename written => s.partialFile = some written
  | .preflight written => s.stagedFile = some written
  | .record image => ∃ bytes, s.stagedFile = some bytes ∧ Describes sha256 s.preflights image bytes
  | _ => True

/-- What holds between the steps. -/
structure Consistent (sha256 : Bytes → String) (s : State) : Prop where
  described : Described sha256 s
  oneUpload : ∀ i j u v, s.jobs i = .upload u → s.jobs j = .upload v → i = j
  inFlight : ∀ i u, s.jobs i = .upload u → s.uploadInFlight = true
  upload : ∀ i u, s.jobs i = .upload u → UploadOK sha256 s u
  checked : ∀ i, (s.jobs i).awaitsFlash = true → Checked s

/-! ## Frames -/

section Frames

variable {sha256 : Bytes → String} {s t : State} {i : ℕ} {j : Job}

/-- The storage is as it was. -/
structure SameStorage (s t : State) : Prop where
  staged : t.staged = s.staged
  uploadInFlight : t.uploadInFlight = s.uploadInFlight
  stagedFile : t.stagedFile = s.stagedFile
  partialFile : t.partialFile = s.partialFile
  preflights : t.preflights = s.preflights

theorem SameStorage.refl (s : State) : SameStorage s s := ⟨rfl, rfl, rfl, rfl, rfl⟩

theorem SameStorage.described (hsame : SameStorage s t) (h : Described sha256 s) :
    Described sha256 t := by
  intro image himage
  rw [hsame.staged] at himage
  rw [hsame.stagedFile, hsame.preflights]
  exact h image himage

theorem SameStorage.uploadOK (hsame : SameStorage s t) {u : Upload} (h : UploadOK sha256 s u) :
    UploadOK sha256 t u := by
  cases u with
  | rename written => exact hsame.partialFile.trans h
  | preflight written => exact hsame.stagedFile.trans h
  | record image =>
      unfold UploadOK
      rw [hsame.stagedFile, hsame.preflights]
      exact h
  | _ => trivial

theorem SameStorage.checked (hsame : SameStorage s t) (h : Checked s) : Checked t := by
  unfold Checked
  rw [hsame.stagedFile, hsame.preflights]
  exact h

/-- **A request without a hand in the storage** moves on. -/
theorem Consistent.setJob_same (h : Consistent sha256 s) (hsame : SameStorage s t)
    (hjobs : t.jobs = s.jobs) (hj : ∀ u, j ≠ .upload u)
    (hawaits : j.awaitsFlash = true → Checked s) : Consistent sha256 (t.setJob i j) := by
  have hframe : SameStorage s (t.setJob i j) :=
    ⟨hsame.staged, hsame.uploadInFlight, hsame.stagedFile, hsame.partialFile, hsame.preflights⟩
  have hother : ∀ k u, (t.setJob i j).jobs k = .upload u → s.jobs k = .upload u := by
    intro k u hk
    by_cases hki : k = i
    · subst hki
      exact absurd (setJob_jobs_self.symm.trans hk) (hj u)
    · rwa [setJob_jobs_of_ne hki, hjobs] at hk
  refine ⟨hframe.described h.described, ?_, ?_, ?_, ?_⟩
  · exact fun k l u v hk hl => h.oneUpload k l u v (hother k u hk) (hother l v hl)
  · exact fun k u hk => hsame.uploadInFlight.trans (h.inFlight k u (hother k u hk))
  · exact fun k u hk => hframe.uploadOK (h.upload k u (hother k u hk))
  · intro k hk
    refine hframe.checked ?_
    by_cases hki : k = i
    · subst hki
      rw [setJob_jobs_self] at hk
      exact hawaits hk
    · rw [setJob_jobs_of_ne hki, hjobs] at hk
      exact h.checked k hk

/-- A goroutine stays out of the storage, and does not come back from the
runner. -/
theorem runUpgrade_storage {g : Goroutine} {o : Outcome} {r : Option Goroutine}
    (h : s.runUpgrade i g o = some (t, r)) :
    SameStorage s t ∧ t.jobs = s.jobs ∧ ∀ g', r = some g' → g'.early = true → g.early = true := by
  cases g <;> cases o <;> simp only [runUpgrade, Option.some.injEq, Prod.mk.injEq,
    Option.ite_none_left_eq_some, reduceCtorEq] at h
  case launch.run child =>
    obtain ⟨-, rfl, rfl⟩ := h
    exact ⟨⟨rfl, rfl, rfl, rfl, rfl⟩, rfl, fun _ _ _ => rfl⟩
  all_goals
    obtain ⟨rfl, rfl⟩ := h
    exact ⟨⟨rfl, rfl, rfl, rfl, rfl⟩, rfl, by simp [Goroutine.early]⟩

end Frames

/-! ## The upload's own steps -/

section Uploads

variable {sha256 : Bytes → String} {s t : State} {i : ℕ}

/-- **An upload moves on.** It is the only one, so the others count on the
file at the staged path at most. -/
theorem Consistent.setJob_upload (h : Consistent sha256 s) {u : Upload}
    {r : Upload ⊕ Option Err} (hjob : s.jobs i = .upload u) (hjobs : t.jobs = s.jobs)
    (hdescribed : Described sha256 t)
    (hnext : ∀ v, r = .inl v → t.uploadInFlight = true ∧ UploadOK sha256 t v)
    (hchecked : ∀ k, (s.jobs k).awaitsFlash = true → Checked t) :
    Consistent sha256 (t.setJob i (.ofUpload r)) := by
  have honly : ∀ k v, (t.setJob i (.ofUpload r)).jobs k = .upload v → k = i ∧ r = .inl v := by
    intro k v hk
    by_cases hki : k = i
    · subst hki
      rw [setJob_jobs_self] at hk
      cases r with
      | inl u' => cases hk; exact ⟨rfl, rfl⟩
      | inr e => cases hk
    · rw [setJob_jobs_of_ne hki, hjobs] at hk
      exact absurd (h.oneUpload k i v u hk hjob) hki
  refine ⟨hdescribed, ?_, ?_, ?_, ?_⟩
  · exact fun k l v w hk hl => (honly k v hk).1.trans (honly l w hl).1.symm
  · exact fun k v hk => (hnext v (honly k v hk).2).1
  · intro k v hk
    exact (⟨rfl, rfl, rfl, rfl, rfl⟩ : SameStorage t (t.setJob i (.ofUpload r))).uploadOK
      (hnext v (honly k v hk).2).2
  · intro k hk
    by_cases hki : k = i
    · subst hki
      rw [setJob_jobs_self] at hk
      cases r <;> cases hk
    · rw [setJob_jobs_of_ne hki, hjobs] at hk
      exact hchecked k hk

/-- A preflight adds its verdict on the file to the log. -/
theorem preflighted_eq {written : Bytes} (hfile : s.stagedFile = some written) (verdict : Bool) :
    s.preflighted verdict = { s with preflights := (written, verdict) :: s.preflights } := by
  simp [preflighted, hfile]

/-- The verdict of a preflight goes into the record. -/
theorem Consistent.preflighted (h : Consistent sha256 s) {written : Bytes}
    (hjob : s.jobs i = .upload (.preflight written)) (verdict : Bool) :
    Consistent sha256 ((s.preflighted verdict).setJob i
      (.ofUpload (.inl (.record ⟨written.length, sha256 written, verdict⟩)))) := by
  have hfile : s.stagedFile = some written := h.upload i _ hjob
  rw [preflighted_eq hfile]
  refine h.setJob_upload hjob rfl ?_ ?_ ?_
  · intro image himage
    obtain ⟨bytes, hb, hd⟩ := h.described image himage
    exact ⟨bytes, hb, hd.size, hd.digest, List.mem_cons_of_mem _ hd.verdict⟩
  · intro v hv
    cases hv
    exact ⟨h.inFlight i _ hjob, written, hfile, rfl, rfl, List.mem_cons_self ..⟩
  · intro k hk
    obtain ⟨bytes, hb, hmem⟩ := h.checked k hk
    exact ⟨bytes, hb, List.mem_cons_of_mem _ hmem⟩

/-- **One step of an upload.** -/
theorem Consistent.runUpload (h : Consistent sha256 s) {u : Upload} {o : Outcome}
    {r : Upload ⊕ Option Err} (hjob : s.jobs i = .upload u)
    (hquiet : ∀ written, u = .rename written → o = .ok → Quiet s)
    (hstep : s.runUpload sha256 u o = some (t, r)) :
    Consistent sha256 (t.setJob i (.ofUpload r)) := by
  have hflight := h.inFlight i u hjob
  -- a point that counts on nothing yet
  have htrivial : ∀ {w : State} {v : Upload}, w.uploadInFlight = true → UploadOK sha256 w v →
      ∀ v', (.inl v : Upload ⊕ Option Err) = .inl v' →
        w.uploadInFlight = true ∧ UploadOK sha256 w v' :=
    fun hf hok v' hv' => by cases hv'; exact ⟨hf, hok⟩
  cases u <;> cases o <;> simp only [State.runUpload, Option.some.injEq, Prod.mk.injEq,
    Option.ite_none_right_eq_some, reduceCtorEq] at hstep
  case preflight.ok =>
    obtain ⟨rfl, rfl⟩ := hstep
    exact h.preflighted hjob true
  case preflight.fail =>
    obtain ⟨rfl, rfl⟩ := hstep
    exact h.preflighted hjob false
  case rename.ok written =>
    obtain ⟨-, rfl, rfl⟩ := hstep
    obtain ⟨hrecord, -, hawaits⟩ := hquiet written rfl rfl
    refine h.setJob_upload hjob rfl ?_ (htrivial hflight (h.upload i _ hjob)) ?_
    · intro image himage
      cases hrecord.symm.trans himage
    · intro k hk
      cases (hawaits k).symm.trans hk
  case copy.copied bytes ok =>
    obtain ⟨-, rfl, rfl⟩ := hstep
    refine h.setJob_upload hjob rfl h.described (htrivial hflight ?_) h.checked
    repeat' split
    all_goals trivial
  case record.ok image =>
    obtain ⟨rfl, rfl⟩ := hstep
    refine h.setJob_upload hjob rfl ?_ (htrivial hflight trivial) h.checked
    intro image' himage
    cases himage
    exact h.upload i _ hjob
  case finish.ok e =>
    obtain ⟨rfl, rfl⟩ := hstep
    exact h.setJob_upload hjob rfl h.described (fun v hv => by cases hv) h.checked
  all_goals
    obtain ⟨rfl, rfl⟩ := hstep
    exact h.setJob_upload hjob rfl h.described (htrivial hflight trivial) h.checked

/-- An upload is let in where none is in flight. -/
theorem Consistent.admitted (h : Consistent sha256 s) (hfree : s.uploadInFlight = false) (i : ℕ) :
    Consistent sha256 ({ s with uploadInFlight := true }.setJob i (.upload .mkdir)) := by
  have honly : ∀ k u, ({ s with uploadInFlight := true }.setJob i (.upload .mkdir)).jobs k =
      .upload u → k = i ∧ u = .mkdir := by
    intro k u hk
    by_cases hki : k = i
    · subst hki
      rw [setJob_jobs_self] at hk
      cases hk
      exact ⟨rfl, rfl⟩
    · rw [setJob_jobs_of_ne hki] at hk
      exact absurd (hfree.symm.trans (h.inFlight k u hk)) nofun
  refine ⟨h.described, ?_, fun _ _ _ => rfl, ?_, ?_⟩
  · exact fun k l u v hk hl => (honly k u hk).1.trans (honly l v hl).1.symm
  · intro k u hk
    rw [(honly k u hk).2]
    trivial
  · intro k hk
    by_cases hki : k = i
    · subst hki
      rw [setJob_jobs_self] at hk
      cases hk
    · rw [setJob_jobs_of_ne hki] at hk
      exact h.checked k hk

/-! ## The discard's own steps -/

/-- The record goes first. -/
theorem Consistent.unrecord (h : Consistent sha256 s) : Consistent sha256 { s with staged := none } :=
  ⟨nofun, h.oneUpload, h.inFlight, h.upload, h.checked⟩

/-- Then the file, on which nobody counts. -/
theorem Consistent.removed (h : Consistent sha256 s) (hquiet : Quiet s) (i : ℕ) :
    Consistent sha256 ({ s with stagedFile := none }.setJob i (.returned none)) := by
  have hgone : Consistent sha256 { s with stagedFile := none } := by
    refine ⟨?_, h.oneUpload, h.inFlight, ?_, ?_⟩
    · exact fun image himage => absurd (hquiet.noRecord.symm.trans himage) nofun
    · intro k u hk
      have hrecorded := hquiet.noneUnrecorded k
      rw [show s.jobs k = .upload u from hk] at hrecorded
      cases u with
      | rename written => exact h.upload k _ hk
      | preflight written | record image => cases hrecorded
      | _ => trivial
    · exact fun k hk => absurd ((hquiet.noneAwaits k).symm.trans hk) nofun
  exact hgone.setJob_same (SameStorage.refl _) rfl nofun nofun

end Uploads

/-! ## One step -/

section Steps

variable {sha256 : Bytes → String} {s t : State} {i : ℕ}

/-- **A step of a request.** -/
theorem Consistent.advance {o : Outcome} (h : Consistent sha256 s)
    (huntangled : Untangled s (.advance i o)) (hstep : s.advance sha256 i o = some t) :
    Consistent sha256 t := by
  unfold State.advance at hstep
  cases hjob : s.jobs i with
  | absent | returned e => simp [hjob] at hstep
  | detail | lookup | matching =>
      rw [hjob] at hstep
      cases o <;> simp only [Option.some.injEq, reduceCtorEq] at hstep
      all_goals
        subst hstep
        exact h.setJob_same ⟨rfl, rfl, rfl, rfl, rfl⟩ rfl nofun nofun
  | spawning image skip =>
      rw [hjob] at hstep
      cases o <;> simp only [Option.some.injEq, reduceCtorEq] at hstep
      subst hstep
      refine h.setJob_same ⟨rfl, rfl, rfl, rfl, rfl⟩ rfl nofun fun hawaits => h.checked i ?_
      rw [hjob]
      simpa [Job.awaitsFlash, Goroutine.early] using hawaits
  | loading l =>
      simp only [hjob] at hstep
      split at hstep
      case h_4 => cases hstep
      all_goals
        rename_i hload
        obtain ⟨p, rfl, -⟩ := loadReleases_eq hload
        obtain rfl := Option.some.inj hstep
        exact h.setJob_same ⟨rfl, rfl, rfl, rfl, rfl⟩ rfl nofun nofun
  | listing l =>
      simp only [hjob] at hstep
      split at hstep
      case h_3 => cases hstep
      all_goals
        rename_i hload
        obtain ⟨p, rfl, -⟩ := loadReleases_eq hload
        obtain rfl := Option.some.inj hstep
        exact h.setJob_same ⟨rfl, rfl, rfl, rfl, rfl⟩ rfl nofun nofun
  | upgrade source g =>
      simp only [hjob] at hstep
      split at hstep
      · rename_i w r hrun
        obtain ⟨hsame, hjobs, hearly⟩ := runUpgrade_storage hrun
        obtain rfl := Option.some.inj hstep
        refine h.setJob_same hsame hjobs ?_ ?_
        · cases r <;> exact nofun
        · intro hawaits
          refine h.checked i ?_
          rw [hjob]
          cases r with
          | none => cases hawaits
          | some g' =>
              cases source with
              | release => cases hawaits
              | staged image skip =>
                  simp only [Job.ofGoroutine, Job.awaitsFlash, Bool.and_eq_true] at hawaits ⊢
                  exact ⟨hawaits.1, hearly g' rfl hawaits.2⟩
      · cases hstep
  | upload u =>
      simp only [hjob] at hstep
      split at hstep
      · rename_i w r hup
        obtain rfl := Option.some.inj hstep
        refine h.runUpload hjob (fun written hu ho => ?_) hup
        subst hu ho
        exact huntangled (.inl ⟨written, hjob⟩)
      · cases hstep
  | discarding =>
      simp only [hjob] at hstep
      split at hstep
      case h_3 => cases hstep
      case h_2 =>
        obtain rfl := Option.some.inj hstep
        exact h.setJob_same (SameStorage.refl s) rfl nofun nofun
      case h_1 =>
        obtain rfl := Option.some.inj hstep
        exact h.removed (huntangled (.inr hjob)) i

/-- **One step.** -/
theorem Consistent.step {a : Action} (h : Consistent sha256 s) (huntangled : Untangled s a)
    (hstep : Sysupgrade.step sha256 s a = some t) : Consistent sha256 t := by
  cases a with
  | startUpgrade i call =>
      obtain ⟨-, rfl⟩ := whenAbsent_eq_some.1 hstep
      unfold startUpgrade
      split <;> exact h.setJob_same ⟨rfl, rfl, rfl, rfl, rfl⟩ rfl nofun nofun
  | startLocalUpgrade i call skip =>
      obtain ⟨-, rfl⟩ := whenAbsent_eq_some.1 hstep
      unfold startLocalUpgrade
      split
      · exact h.setJob_same ⟨rfl, rfl, rfl, rfl, rfl⟩ rfl nofun nofun
      · rename_i image hok
        refine h.setJob_same ⟨rfl, rfl, rfl, rfl, rfl⟩ rfl nofun fun hawaits => ?_
        -- the record it was checked against describes the file
        obtain ⟨-, hstaged, hpre, -⟩ := startLocalUpgradeCheck_eq_ok.1 hok
        obtain ⟨bytes, hb, hd⟩ := h.described image hstaged
        have hpassed : image.preflightOK = true := by
          simp only [Job.awaitsFlash, Bool.not_eq_true'] at hawaits
          rwa [hawaits, Bool.or_false] at hpre
        exact ⟨bytes, hb, hpassed ▸ hd.verdict⟩
  | listAvailableUpdates i force cached =>
      obtain ⟨-, rfl⟩ := whenAbsent_eq_some.1 hstep
      unfold listAvailableUpdates
      split <;> exact h.setJob_same (SameStorage.refl s) rfl nofun nofun
  | storeStagedImage i =>
      obtain ⟨-, rfl⟩ := whenAbsent_eq_some.1 hstep
      unfold storeStagedImage
      split
      · exact h.setJob_same (SameStorage.refl s) rfl nofun nofun
      · rename_i hfree
        exact h.admitted (by simpa using hfree) i
  | discardStagedImage i =>
      obtain ⟨-, rfl⟩ := whenAbsent_eq_some.1 hstep
      unfold discardStagedImage
      split
      · exact h.setJob_same (SameStorage.refl s) rfl nofun nofun
      · exact h.unrecord.setJob_same (SameStorage.refl _) rfl nofun nofun
  | cancelUpgrade =>
      obtain rfl := Option.some.inj hstep
      unfold cancelUpgrade
      split
      · exact ⟨h.described, h.oneUpload, h.inFlight, h.upload, h.checked⟩
      · exact h
  | shutdown =>
      obtain rfl := Option.some.inj hstep
      unfold shutdown
      split
      · exact ⟨h.described, h.oneUpload, h.inFlight, h.upload, h.checked⟩
      · exact h
  | advance i o => exact h.advance huntangled hstep

theorem consistent_newManager : Consistent sha256 newManager :=
  ⟨nofun, nofun, nofun, nofun, nofun⟩

theorem Consistent.flashesChecked {a : Action} (h : Consistent sha256 s) : FlashesChecked s a := by
  cases a with
  | advance i o =>
      cases o with
      | run child =>
          cases child with
          | true => exact fun image hjob => h.checked i (by rw [hjob]; rfl)
          | false => trivial
      | _ => trivial
  | _ => trivial

end Steps

/-! ## Runs -/

/-- **The staged image is what its record says**, in every run whose renames
and removals are taken while the file may change: in the state it reaches a
staged image describes the bytes at the staged path, and on the way every
local upgrade that did not skip the preflight was run on bytes that passed
it. -/
theorem staged_image_consistent (sha256 : Bytes → String) {as : List Action} {s : State}
    (hrun : Run (step sha256) newManager as s)
    (huntangled : Always (step sha256) Untangled newManager as) :
    Described sha256 s ∧ Always (step sha256) FlashesChecked newManager as := by
  have hstep : ∀ u a v, Consistent sha256 u → Untangled u a → step sha256 u a = some v →
      Consistent sha256 v := fun _ _ _ hu hua hv => hu.step hua hv
  exact ⟨(hrun.invariant huntangled consistent_newManager hstep).described,
    huntangled.of_invariant consistent_newManager hstep fun _ _ hu _ => hu.flashesChecked⟩

theorem untangled_of_ne {s : State} {i : ℕ} {o : Outcome}
    (hrename : ∀ written, s.jobs i ≠ .upload (.rename written)) (hdiscard : s.jobs i ≠ .discarding) :
    Untangled s (.advance i o) := by
  cases o with
  | ok =>
      rintro (⟨written, h⟩ | h)
      · exact absurd h (hrename written)
      · exact absurd h hdiscard
  | _ => trivial

/-- Request `i` uploads `bytes`, up to and including the rename. -/
def uploadTo (i : ℕ) (bytes : Bytes) : List Action :=
  [.storeStagedImage i, .advance i .ok, .advance i .ok, .advance i .ok,
    .advance i (.copied bytes true), .advance i .ok]

/-- Request `i` uploads `bytes`, passes the preflight and is done. -/
def uploadDone (i : ℕ) (bytes : Bytes) : List Action :=
  uploadTo i bytes ++ [.advance i .ok, .advance i .ok, .advance i .ok]

/-- Request `i` is a local upgrade, up to the runner. -/
def localToRunner (i : ℕ) : List Action :=
  [.startLocalUpgrade i {} false, .advance i .ok, .advance i .ok, .advance i .ok, .advance i .ok]

/-- One upload, and the local upgrade of what it staged. -/
theorem staged_image_consistent_one_upload :
    ∃ s, Run (step fun _ => "d") newManager
        (uploadDone 0 [1] ++ localToRunner 1 ++ [.advance 1 (.run true)]) s ∧
      s.staged = some ⟨1, "d", true⟩ ∧ s.launched 1 = true ∧ Described (fun _ => "d") s ∧
      Always (step fun _ => "d") FlashesChecked newManager
        (uploadDone 0 [1] ++ localToRunner 1 ++ [.advance 1 (.run true)]) := by
  have hrun : Run (step fun _ => "d") newManager
      (uploadDone 0 [1] ++ localToRunner 1 ++ [.advance 1 (.run true)]) _ := Run.of_foldlM rfl
  have huntangled : Always (step fun _ => "d") Untangled newManager
      (uploadDone 0 [1] ++ localToRunner 1 ++ [.advance 1 (.run true)]) := by
    refine Always.cons trivial rfl ?_
    refine Always.cons (untangled_of_ne nofun nofun) rfl ?_
    refine Always.cons (untangled_of_ne nofun nofun) rfl ?_
    refine Always.cons (untangled_of_ne nofun nofun) rfl ?_
    refine Always.cons trivial rfl ?_
    -- the rename: nothing is staged, and the upload is the only request
    refine Always.cons (fun _ => ⟨rfl, fun k => ?_, fun k => ?_⟩) rfl ?_
    · cases k <;> rfl
    · cases k <;> rfl
    refine Always.cons (untangled_of_ne nofun nofun) rfl ?_
    refine Always.cons (untangled_of_ne nofun nofun) rfl ?_
    refine Always.cons (untangled_of_ne nofun nofun) rfl ?_
    refine Always.cons trivial rfl ?_
    refine Always.cons (untangled_of_ne nofun nofun) rfl ?_
    refine Always.cons (untangled_of_ne nofun nofun) rfl ?_
    refine Always.cons (untangled_of_ne nofun nofun) rfl ?_
    refine Always.cons (untangled_of_ne nofun nofun) rfl ?_
    exact Always.cons trivial rfl trivial
  obtain ⟨hdescribed, hflashes⟩ := staged_image_consistent _ hrun huntangled
  exact ⟨_, hrun, rfl, rfl, hdescribed, hflashes⟩

/-- **A second upload under a staged image.** Its rename puts other bytes
under the record of the first, and under the upgrade that was checked
against it. -/
theorem second_upload_swaps_bytes :
    ∃ s, Run (step fun _ => "d") newManager
        (uploadDone 0 [1] ++ localToRunner 1 ++ uploadTo 2 [2, 3]) s ∧
      ¬ Described (fun _ => "d") s ∧ ¬ FlashesChecked s (.advance 1 (.run true)) := by
  refine ⟨_, Run.of_foldlM rfl, fun hcon => ?_, fun hcon => ?_⟩
  · obtain ⟨bytes, hb, hd⟩ := hcon ⟨1, "d", true⟩ rfl
    cases hb
    exact absurd hd.size (by decide)
  · obtain ⟨bytes, hb, hmem⟩ := hcon ⟨1, "d", true⟩ rfl
    cases hb
    exact absurd hmem (by decide)

end Sysupgrade

end OpenManet
