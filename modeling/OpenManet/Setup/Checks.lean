import OpenManet.Setup.Patches
/-!
# What a validated profile promises

The checks of the first phase, read back as facts about the profile and the
tree they were made on: the mesh radio is a HaLow radio, the entries are for
distinct radios that are not, and an entry that is a backhaul is on a listed
radio and carries no access point.
-/

namespace OpenManet

namespace Setup

open Uci Fallible Network

variable {S : Service} {p : MeshNodeProfile} {t : Tree}

theorem bind_ok_iff {x : Except String Unit} {f : Unit → Except String Unit} :
    (x >>= f) = .ok () ↔ x = .ok () ∧ f () = .ok () := by
  cases x with
  | error e => simp [bind, Except.bind]
  | ok _ => simp [bind, Except.bind]

/-- What the checks say of one entry. -/
structure EntryOk (meshRadio : String) (isMorse : String → Bool) (ap : RadioApProfile) : Prop where
  named : ap.radioName ≠ ""
  notMesh : ap.radioName ≠ meshRadio
  notMorse : isMorse ap.radioName = false

theorem validateAPs_ok {meshRadio : String} {isMorse : String → Bool} {seen : List String}
    {aps : List RadioApProfile} (h : validateAPs meshRadio isMorse seen aps = .ok ()) :
    (∀ ap ∈ aps, EntryOk meshRadio isMorse ap ∧ ap.radioName ∉ seen) ∧
      (aps.map (·.radioName)).Nodup := by
  induction aps generalizing seen with
  | nil => exact ⟨fun _ hap => absurd hap List.not_mem_nil, List.nodup_nil⟩
  | cons ap aps ih =>
      simp only [validateAPs] at h
      split_ifs at h with hname hmesh hmorse hseen hen
      all_goals
        -- the entry itself passes, and those behind it see its radio
        have hrest : validateAPs meshRadio isMorse (ap.radioName :: seen) aps = .ok () := by
          first | exact (bind_ok_iff.1 h).2 | exact h
        obtain ⟨hall, hnodup⟩ := ih hrest
        refine ⟨fun x hx => ?_, List.nodup_cons.2 ⟨fun hin => ?_, hnodup⟩⟩
        · rcases List.mem_cons.1 hx with rfl | hx
          · exact ⟨⟨hname, hmesh, by simpa using hmorse⟩, hseen⟩
          · exact ⟨(hall x hx).1, fun hx' => (hall x hx).2 (List.mem_cons_of_mem _ hx')⟩
        · obtain ⟨x, hx, hxname⟩ := List.mem_map.1 hin
          exact (hall x hx).2 (hxname ▸ List.mem_cons_self ..)

/-- What the checks say of the station. -/
theorem validateUplink_ok {meshRadio : String} {aps : List RadioApProfile}
    {isMorse : String → Bool} (h : validateUplink p.uplink meshRadio aps isMorse = .ok ())
    {w : WifiStaProfile} (hw : staOf p = some w) :
    w.radioName ≠ "" ∧ isMorse w.radioName = false := by
  unfold staOf at hw
  unfold validateUplink at h
  cases hu : p.uplink with
  | none => simp [hu] at hw
  | some u =>
      simp only [hu] at hw h
      split_ifs at hw with htype
      rw [if_neg (by simp [htype]), hw] at h
      dsimp only at h
      split_ifs at h with hname hmesh hmorse
      exact ⟨hname, by simpa using hmorse⟩

/-- **What the first phase has checked.** -/
structure Validated (t : Tree) (p : MeshNodeProfile) (mesh : MeshRadioConfig) : Prop where
  isMesh : p.mesh = some mesh
  meshNamed : mesh.radioName ≠ ""
  meshMorse : radioExistsAsMorse t mesh.radioName = true
  entry : ∀ ap ∈ p.aps, EntryOk mesh.radioName (radioExistsAsMorse t) ap
  distinct : (p.aps.map (·.radioName)).Nodup
  sta : ∀ w, staOf p = some w → w.radioName ≠ "" ∧ radioExistsAsMorse t w.radioName = false

theorem validated_of_profile (h : S.validateProfile t p = .ok ()) :
    ∃ mesh, Validated t p mesh := by
  unfold Service.validateProfile at h
  by_cases hhost : (!isHostnameLabel p.hostname) = true
  · rw [if_pos hhost] at h
    cases h
  rw [if_neg hhost] at h
  by_cases hzone : p.timezone ≠ "" ∧ (S.posixTZ p.timezone).isNone = true
  · rw [if_pos hzone] at h
    cases h
  rw [if_neg hzone] at h
  obtain ⟨-, h⟩ := bind_ok_iff.1 h
  cases hm : p.mesh with
  | none => simp [hm] at h
  | some mesh =>
      simp only [hm] at h
      by_cases hname : mesh.radioName = ""
      · rw [if_pos hname] at h
        cases h
      rw [if_neg hname] at h
      by_cases hmorse : (!radioExistsAsMorse t mesh.radioName) = true
      · rw [if_pos hmorse] at h
        cases h
      rw [if_neg hmorse] at h
      obtain ⟨-, h⟩ := bind_ok_iff.1 h
      obtain ⟨-, h⟩ := bind_ok_iff.1 h
      obtain ⟨haps, h⟩ := bind_ok_iff.1 h
      obtain ⟨hup, -⟩ := bind_ok_iff.1 h
      obtain ⟨hall, hnodup⟩ := validateAPs_ok haps
      exact ⟨mesh, hm, hname, by simpa using hmorse, fun ap hap => (hall ap hap).1, hnodup,
        fun w hw => validateUplink_ok hup hw⟩

/-! ## The backhaul -/

theorem findBackhaul_some {x : RadioApProfile × MeshBackhaulProfile} {aps : List RadioApProfile}
    {r : Option (RadioApProfile × MeshBackhaulProfile)} (h : findBackhaul (some x) aps = .ok r) :
    r = some x ∧ ∀ ap ∈ aps, ap.meshBackhaul = none := by
  induction aps with
  | nil => exact ⟨(Except.ok.inj h).symm, fun _ hap => absurd hap List.not_mem_nil⟩
  | cons ap aps ih =>
      unfold findBackhaul at h
      cases hbh : ap.meshBackhaul with
      | none =>
          rw [hbh] at h
          obtain ⟨hr, hall⟩ := ih h
          refine ⟨hr, fun ap' hap' => ?_⟩
          rcases List.mem_cons.1 hap' with rfl | hap'
          · exact hbh
          · exact hall ap' hap'
      | some bh =>
          rw [hbh] at h
          dsimp only at h
          split at h
          · cases h
          · cases h

/-- One entry at most is a backhaul, and it carries no access point. -/
theorem findBackhaul_none {aps : List RadioApProfile}
    {r : Option (RadioApProfile × MeshBackhaulProfile)} (h : findBackhaul none aps = .ok r)
    {ap : RadioApProfile} (hap : ap ∈ aps) {bh : MeshBackhaulProfile}
    (hbh : ap.meshBackhaul = some bh) : r = some (ap, bh) ∧ ap.enabled = false := by
  induction aps with
  | nil => cases hap
  | cons a aps ih =>
      unfold findBackhaul at h
      cases ha : a.meshBackhaul with
      | none =>
          rw [ha] at h
          rcases List.mem_cons.1 hap with rfl | hap
          · rw [hbh] at ha
            cases ha
          · exact ih h hap
      | some bh' =>
          rw [ha] at h
          dsimp only at h
          split at h
          · cases h
          · next hen =>
            obtain ⟨hr, hnone⟩ := findBackhaul_some h
            rcases List.mem_cons.1 hap with rfl | hap
            · obtain rfl : bh' = bh := Option.some.inj (ha.symm.trans hbh)
              exact ⟨hr, by simpa using hen⟩
            · rw [hnone ap hap] at hbh
              cases hbh

/-- A radio that supports a backhaul is listed. -/
theorem listed_of_supports {g g' : Host} {name : String}
    (h : S.radioSupportsMeshBackhaul name g = .ok true g') : name ∈ radioRefs g.tree := by
  obtain ⟨found, g₁, hcollect, hpure⟩ := bind_eq_ok.1 h
  obtain ⟨hany, -⟩ := EStateM.Result.ok.inj hpure
  have hfound : Leaves S.collectSetupRadios g fun l _ => ∀ r ∈ l, r.name ∈ radioRefs g.tree := by
    intro l g' hrun
    obtain ⟨listing, g₂, hlist, hrest⟩ := bind_eq_ok.1 hrun
    cases listing with
    | error e =>
        obtain ⟨rfl, -⟩ := EStateM.Result.ok.inj hrest
        exact fun r hr => absurd hr List.not_mem_nil
    | ok names =>
        obtain ⟨rfl, -⟩ := EStateM.Result.ok.inj hrest
        have hnames : names = radioRefs g.tree := by
          have hread : Leaves (getSections "wireless" "wifi-device") g fun l _ =>
              l = radioRefs g.tree :=
            leaves_getSections fun c _ hmem => (radioRefs_of_mem hmem).symm
          unfold attempt at hlist
          cases hcall : getSections "wireless" "wifi-device" g with
          | error e t =>
              rw [hcall] at hlist
              simp at hlist
          | ok l t =>
              rw [hcall] at hlist
              obtain ⟨hl, -⟩ := EStateM.Result.ok.inj hlist
              obtain rfl := Except.ok.inj hl
              exact hread _ _ hcall
        intro r hr
        obtain ⟨name, hname, rfl⟩ := List.mem_map.1 hr
        rw [← hnames]
        exact hname
  cases hfind : found.find? fun r => r.name = name with
  | none => simp [hfind] at hany
  | some r =>
      have hname : r.name = name := by simpa using List.find?_some hfind
      rw [← hname]
      exact hfound _ _ hcollect r (List.mem_of_find?_eq_some hfind)

theorem validateMeshBackhaul_ok {g g' : Host} (h : S.validateMeshBackhaul p g = .ok () g')
    {ap : RadioApProfile} (hap : ap ∈ p.aps) {bh : MeshBackhaulProfile}
    (hbh : ap.meshBackhaul = some bh) : ap.enabled = false ∧ ap.radioName ∈ radioRefs g.tree := by
  unfold Service.validateMeshBackhaul at h
  cases hfind : findBackhaul none p.aps with
  | error e =>
      rw [hfind] at h
      cases h
  | ok r =>
      obtain ⟨rfl, hen⟩ := findBackhaul_none hfind hap hbh
      rw [hfind] at h
      obtain ⟨supports, g₁, hsupports, hrest⟩ := bind_eq_ok.1 h
      cases supports with
      | false => cases hrest
      | true => exact ⟨hen, listed_of_supports hsupports⟩

theorem check_ok {e : Except String Unit} {g g' : Host} (h : check e g = .ok () g') :
    e = .ok () := by
  unfold check at h
  split at h
  · rfl
  · cases h

theorem validated_of_validate {g g' : Host} (h : S.validate p g = .ok () g') :
    (∃ mesh, Validated g.tree p mesh) ∧ ∀ ap ∈ p.aps, ap.meshBackhaul ≠ none →
      ap.enabled = false ∧ ap.radioName ∈ radioRefs g.tree := by
  obtain ⟨t, g₁, htree, hrest⟩ := bind_eq_ok.1 h
  obtain ⟨_, g₂, hcheck, hbackhaul⟩ := bind_eq_ok.1 hrest
  obtain ⟨rfl, rfl⟩ := EStateM.Result.ok.inj htree
  have hsame : g₂.tree = g.tree := reads_check.ok hcheck
  refine ⟨validated_of_profile (check_ok hcheck), fun ap hap hbh => ?_⟩
  obtain ⟨bh, hbh⟩ := Option.ne_none_iff_exists'.1 hbh
  rw [← hsame]
  exact validateMeshBackhaul_ok hbackhaul hap hbh

end Setup

end OpenManet
