import OpenManet.Lib.SliceSort
import OpenManet.Sysupgrade.Asset
import OpenManet.Sysupgrade.Version
/-!
# The update list

`ListAvailableUpdates` of `internal/sysupgrade/manager.go`: of the releases
there are, those to which this node can be upgraded, newest first. A release
that the filters drop is left out without a word; the one error is that there
is no release list.

The providers are asked anew at every call, so each call has an answer of its
own here, and the manifest is asked for at every place of the list. An error
of theirs counts for no answer.
-/

namespace OpenManet

namespace Releases

/-- Nanoseconds since the zero `time.Time`. -/
abbrev Instant := ℤ

/-- `Release`. -/
structure Release where
  publishedAt : Instant
  tag : String
  name : String
  body : String
  version : String
  assets : List Asset
  prerelease : Bool
deriving DecidableEq, Repr

/-- `Update`. -/
structure Update where
  matchedAsset : Asset
  release : Release
  newerThanCurrent : Bool
deriving DecidableEq, Repr

/-- What is read of `system.FirmwareInfo`. -/
structure FirmwareInfo where
  openMANETVer : String
  target : String
deriving DecidableEq, Repr

/-- What a call is answered by the code around it. -/
structure Answers where
  /-- `cache.Load`. -/
  cached : Except String (List Release × Instant)
  /-- `releases.FetchReleases`. -/
  fetched : Except String (List Release)
  now : Instant
  /-- `firmware.GetFirmwareInfo`, for the version. -/
  versionInfo : Option FirmwareInfo
  /-- The id in the answer of `board.GetBoard`. -/
  board : Option String
  /-- `firmware.GetFirmwareInfo`, for the target. -/
  targetInfo : Option FirmwareInfo
  /-- `manifest.FetchManifest`, for the release at a place of the list. -/
  fetchManifest : ℕ → Release → Option Manifest

namespace Answers

/-- `loadReleases`, less the phases it publishes. -/
def loadReleases (w : Answers) (forceRefresh : Bool) : Except String (List Release × Instant) :=
  let fetch := w.fetched.map fun releases => (releases, w.now)
  if forceRefresh then fetch
  else
    match w.cached with
    | .ok (releases, fetchedAt) => if releases ≠ [] then .ok (releases, fetchedAt) else fetch
    | .error _ => fetch

/-- The board's id. -/
def boardName (w : Answers) : String := w.board.getD ""

/-- The target. -/
def target (w : Answers) : String := (w.targetInfo.map (·.target)).getD ""

/-- `currentOpenmanetVersion`. -/
def currentVersion (P : Platform) (w : Answers) : Version :=
  match w.versionInfo with
  | none => .zero
  | some fw =>
      if fw.openMANETVer = "" then .zero
      else
        match parseTag P fw.openMANETVer with
        | .error _ => .zero
        | .ok v => v

end Answers

section List

variable (P : Platform) (toLower : Lowering) (S : SliceSort)

/-- What the loop makes of a release, with the manifest it has fetched. -/
def updateOf (w : Answers) (includePrerelease : Bool) (manifest : Option Manifest) (r : Release) :
    Option Update :=
  if r.prerelease && !includePrerelease then none
  else
    match parseTag P r.tag with
    | .error _ => none
    | .ok relV =>
        match matchAsset toLower w.boardName w.target manifest r.assets with
        | .error _ => none
        | .ok asset =>
            let current := w.currentVersion P
            let newer := !current.isZero && decide (0 < compare relV current)
            if !current.isZero && !newer then none else some ⟨asset, r, newer⟩

/-- The version of an update, as the sort reads it from the tag again. -/
def Update.version (u : Update) : Version := ((parseTag P u.release.tag).toOption).getD .zero

/-- The sort's `less`: newest first. -/
def newest (u u' : Update) : Bool := decide (0 < compare (u.version P) (u'.version P))

/-- `ListAvailableUpdates`. -/
def listAvailableUpdates (w : Answers) (forceRefresh includePrerelease : Bool) :
    Except String (List Update × Instant) := do
  let (releases, fetchedAt) ← w.loadReleases forceRefresh
  let updates := releases.zipIdx.filterMap fun p =>
    updateOf P toLower w includePrerelease (w.fetchManifest p.2 p.1) p.1
  .ok (S.sort (newest P) updates, fetchedAt)

end List

/-! ## What is listed -/

/-- A release to offer: it is no prerelease unless those are asked for, its tag
has a version, newer than the current one, and an asset of it is this
board's. -/
structure Offered (P : Platform) (toLower : Lowering) (w : Answers) (includePrerelease : Bool)
    (manifest : Option Manifest) (r : Release) : Prop where
  released : r.prerelease = true → includePrerelease = true
  newer : ∃ v, parseTag P r.tag = .ok v ∧ 0 < compare v (w.currentVersion P)
  asset : ∃ a, matchAsset toLower w.boardName w.target manifest r.assets = .ok a

section Listed

variable {P : Platform} {toLower : Lowering} {w : Answers} {includePrerelease : Bool}
  {manifest : Option Manifest} {r : Release} {u : Update}

/-- What the loop keeps is offered, with its asset. -/
theorem offered_of_updateOf (hknown : (w.currentVersion P).isZero = false)
    (h : updateOf P toLower w includePrerelease manifest r = some u) :
    Offered P toLower w includePrerelease manifest r ∧ u.release = r ∧
      matchAsset toLower w.boardName w.target manifest r.assets = .ok u.matchedAsset ∧
      u.newerThanCurrent = true := by
  unfold updateOf at h
  split_ifs at h with hpre
  split at h
  · cases h
  next v hparse =>
    split at h
    · cases h
    next asset hasset =>
      dsimp only at h
      rw [hknown] at h
      simp only [Bool.not_false, Bool.true_and] at h
      split_ifs at h with hold
      cases h
      have hnewer : decide (0 < compare v (w.currentVersion P)) = true := by simpa using hold
      have hreleased : r.prerelease = true → includePrerelease = true := by
        intro hr
        simpa [hr] using hpre
      exact ⟨⟨hreleased, ⟨v, hparse, of_decide_eq_true hnewer⟩, ⟨asset, hasset⟩⟩, rfl, hasset,
        hnewer⟩

theorem updateOf_of_offered (h : Offered P toLower w includePrerelease manifest r) :
    (updateOf P toLower w includePrerelease manifest r).isSome = true := by
  obtain ⟨hreleased, ⟨v, hparse, hnewer⟩, asset, hasset⟩ := h
  have hpre : ¬ (r.prerelease && !includePrerelease) = true := by
    intro hpre
    rw [Bool.and_eq_true, Bool.not_eq_true'] at hpre
    rw [hreleased hpre.1] at hpre
    cases hpre.2
  unfold updateOf
  rw [if_neg hpre, hparse]
  dsimp only
  rw [hasset]
  simp [hnewer]

/-- **The loop keeps what is offered.** -/
theorem updateOf_isSome_iff (hknown : (w.currentVersion P).isZero = false) :
    (updateOf P toLower w includePrerelease manifest r).isSome = true ↔
      Offered P toLower w includePrerelease manifest r := by
  refine ⟨fun h => ?_, updateOf_of_offered⟩
  obtain ⟨u, hu⟩ := Option.isSome_iff_exists.1 h
  exact (offered_of_updateOf hknown hu).1

/-- The comparison the sort is given is an order. -/
theorem newest_strictWeak : StrictWeak (newest P) :=
  StrictWeak.of_key (fun u => OrderDual.toDual (u.version P).key) fun u u' => by
    unfold newest
    rw [decide_eq_true_eq, compare_pos_iff]
    rfl

end Listed

/-- What is kept of a list, named by where it came from. -/
theorem map_filterMap_eq {α β γ : Type} {f : α → Option β} {g : β → γ} {h : α → γ}
    (hsource : ∀ a b, f a = some b → g b = h a) (l : List α) :
    (l.filterMap f).map g = (l.filter fun a => (f a).isSome).map h := by
  induction l with
  | nil => rfl
  | cons a l ih =>
      cases hf : f a with
      | none =>
          rw [List.filterMap_cons_none hf, List.filter_cons_of_neg (by simp [hf]), ih]
      | some b =>
          rw [List.filterMap_cons_some hf, List.filter_cons_of_pos (by simp [hf]), List.map_cons,
            List.map_cons, ih, hsource a b hf]

open scoped Classical in
/-- **The update list.** The comparison is a total preorder; a canonical form
is read as the version it is of; and where the current version is known, the
list has the releases that are offered, each as often as it stands in the
release list, and no version in it is newer than one before it. -/
theorem update_list (P : Platform) (toLower : Lowering) (S : SliceSort) {w : Answers}
    {forceRefresh includePrerelease : Bool} {releases : List Release} {fetchedAt : Instant}
    (hknown : (w.currentVersion P).isZero = false)
    (hload : w.loadReleases forceRefresh = .ok (releases, fetchedAt)) :
    TotalPreorder compare ∧
    (∀ tag v, parseTag P tag = .ok v → ∃ v', parseTag P v.canonical = .ok v' ∧
      v'.major = v.major ∧ v'.minor = v.minor ∧ v'.patch = v.patch ∧ v'.pre = v.pre) ∧
    ∃ updates,
      listAvailableUpdates P toLower S w forceRefresh includePrerelease = .ok (updates, fetchedAt) ∧
      (updates.map (·.release)).Perm ((releases.zipIdx.filter fun p =>
        Offered P toLower w includePrerelease (w.fetchManifest p.2 p.1) p.1).map Prod.fst) ∧
      (∀ u ∈ updates, u.newerThanCurrent = true ∧ ∃ i, releases[i]? = some u.release ∧
        matchAsset toLower w.boardName w.target (w.fetchManifest i u.release) u.release.assets =
          .ok u.matchedAsset) ∧
      updates.Pairwise fun u u' => compare (u'.version P) (u.version P) ≤ 0 := by
  refine ⟨compare_totalPreorder, fun tag v hparse =>
    ⟨_, parseTag_canonical hparse, rfl, rfl, rfl, rfl⟩, ?_⟩
  refine ⟨S.sort (newest P) (releases.zipIdx.filterMap fun p =>
    updateOf P toLower w includePrerelease (w.fetchManifest p.2 p.1) p.1), ?_, ?_, ?_, ?_⟩
  · unfold listAvailableUpdates
    rw [hload]
    rfl
  · refine ((S.perm _ _).map _).trans (.of_eq ?_)
    rw [map_filterMap_eq (h := Prod.fst) fun p u hu => (offered_of_updateOf hknown hu).2.1]
    congr 1
    refine List.filter_congr fun p _ => ?_
    rw [Bool.eq_iff_iff, updateOf_isSome_iff hknown, decide_eq_true_iff]
  · intro u hu
    obtain ⟨⟨r, i⟩, hp, hupdate⟩ := List.mem_filterMap.1 ((S.perm _ _).mem_iff.1 hu)
    obtain ⟨-, rfl, hasset, hnewer⟩ := offered_of_updateOf hknown hupdate
    exact ⟨hnewer, i, List.mem_zipIdx_iff_getElem?.1 hp, hasset⟩
  · refine (S.sorted _ newest_strictWeak).imp fun {u u'} hle => ?_
    unfold newest at hle
    exact not_lt.1 (of_decide_eq_false hle)

/-- A 64-bit platform, with a `%q` for texts that need no escapes. -/
def Platform.plain : Platform := ⟨9223372036854775807, fun s => "\"" ++ s ++ "\""⟩

/-- A release with the images of two boards. -/
def release180 : Release := ⟨0, "v1.8.0", "1.8.0", "", "1.8.0", [gw7100Image, mm8108Image], false⟩

/-- A node that runs 1.7.0, with one release in its cache. -/
def oneNewer : Answers where
  cached := .ok ([release180], 5)
  fetched := .error "offline"
  now := 7
  versionInfo := some ⟨"1.7.0", "bcm27xx/bcm2711"⟩
  board := some "bcm2711,mm8108-usb"
  targetInfo := some ⟨"1.7.0", "bcm27xx/bcm2711"⟩
  fetchManifest _ _ := none

theorem update_list_oneNewer : ∃ u, listAvailableUpdates .plain .ascii .insertion oneNewer false
    false = .ok ([u], 5) ∧ u.release = release180 ∧ u.matchedAsset = mm8108Image := by
  have hknown : (oneNewer.currentVersion .plain).isZero = false := by decide +kernel
  have hoffered : Offered .plain .ascii oneNewer false none release180 :=
    (updateOf_isSome_iff hknown).1 (by decide +kernel)
  obtain ⟨-, -, updates, hlist, hperm, hall, -⟩ :=
    @update_list .plain .ascii .insertion oneNewer false false [release180] 5 hknown rfl
  have hkept : updates.map (·.release) = [release180] := by
    rw [← List.perm_singleton]
    refine hperm.trans (.of_eq ?_)
    rw [List.filter_eq_self.2]
    · rfl
    · rintro p hp
      cases List.mem_singleton.1 hp
      classical exact decide_eq_true hoffered
  obtain ⟨u, rfl⟩ := List.length_eq_one_iff.1 (by simpa using congrArg List.length hkept)
  have hrelease : u.release = release180 := List.singleton_inj.1 hkept
  obtain ⟨-, i, -, hasset⟩ := hall u List.mem_cons_self
  rw [hrelease] at hasset
  have hmatch : matchAsset .ascii oneNewer.boardName oneNewer.target
      (oneNewer.fetchManifest i release180) release180.assets = .ok mm8108Image := by
    change matchAsset .ascii "bcm2711,mm8108-usb" "bcm27xx/bcm2711" none _ = _
    decide +kernel
  rw [hmatch] at hasset
  exact ⟨u, hlist, hrelease, (Except.ok.inj hasset).symm⟩

end Releases

end OpenManet
