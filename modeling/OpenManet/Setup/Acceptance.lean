import OpenManet.Setup.Status
/-!
# When the first phase accepts a profile

The checks of the first phase, each with the exact condition it passes on.
The profile is accepted when every check passes; a check that fails says
which field it looked at, and nothing is left changed.
-/

namespace OpenManet

namespace Setup

open Uci Fallible Network

variable {S : Service} {p : MeshNodeProfile} {t : Tree} {g : Host}

/-- WPA's length rule. -/
def PassphraseOk (enc : WifiEncryption) (pass : String) : Prop :=
  enc = .none ∨ enc = .owe ∨ 8 ≤ pass.utf8ByteSize ∧ pass.utf8ByteSize ≤ 63

theorem validatePassphrase_eq_ok_iff {enc : WifiEncryption} {pass : String} :
    validatePassphrase enc pass = .ok () ↔ PassphraseOk enc pass := by
  unfold validatePassphrase PassphraseOk
  split_ifs with hopen hlength
  · exact iff_of_true rfl (hopen.imp_right .inl)
  · refine iff_of_false (fun h => by cases h) ?_
    rintro (hnone | howe | hrange)
    · exact hopen (.inl hnone)
    · exact hopen (.inr howe)
    · omega
  · exact iff_of_true rfl (.inr (.inr (by omega)))

theorem under_eq_ok_iff {what : String} {e : Except String Unit} :
    under what e = .ok () ↔ e = .ok () := by
  cases e with
  | error text => exact iff_of_false (fun h => by cases h) (fun h => by cases h)
  | ok _ => exact iff_of_true rfl rfl

theorem validateMeshChannelBandwidth_eq_ok_iff {bandwidthMHz channel : Nat} :
    validateMeshChannelBandwidth bandwidthMHz channel = .ok () ↔
      channel ≠ 0 ∧ bandwidthMHz ∈ [1, 2, 4, 8, 20, 40, 80, 160] := by
  unfold validateMeshChannelBandwidth
  split_ifs with hzero hwidth
  · exact iff_of_false (fun h => by cases h) fun h => h.1 hzero
  · exact iff_of_true rfl ⟨hzero, hwidth⟩
  · exact iff_of_false (fun h => by cases h) fun h => hwidth h.2

theorem validateAPs_eq_ok_iff {meshRadio : String} {isMorse : String → Bool}
    {aps : List RadioApProfile} {seen : List String} :
    validateAPs meshRadio isMorse seen aps = .ok () ↔
      (∀ ap ∈ aps, EntryOk meshRadio isMorse ap ∧ ap.radioName ∉ seen ∧
        (ap.enabled = true → PassphraseOk ap.encryption ap.passphrase)) ∧
      (aps.map (·.radioName)).Nodup := by
  constructor
  · intro h
    obtain ⟨hall, hnodup⟩ := validateAPs_ok h
    refine ⟨fun ap hap => ⟨(hall ap hap).1, (hall ap hap).2, fun hen => ?_⟩, hnodup⟩
    clear hall hnodup
    induction aps generalizing seen with
    | nil => cases hap
    | cons a as ih =>
        simp only [validateAPs] at h
        split_ifs at h with hname hmesh hmorse hseen hen'
        · obtain ⟨hpass, hrest⟩ := bind_ok_iff.1 h
          rcases List.mem_cons.1 hap with rfl | hap
          · exact validatePassphrase_eq_ok_iff.1 (under_eq_ok_iff.1 hpass)
          · exact ih hrest hap
        · rcases List.mem_cons.1 hap with rfl | hap
          · exact absurd hen hen'
          · exact ih h hap
  · rintro ⟨hall, hnodup⟩
    induction aps generalizing seen with
    | nil => rfl
    | cons a as ih =>
        obtain ⟨hnew, hnodup⟩ := List.nodup_cons.1 hnodup
        obtain ⟨⟨hname, hmesh, hmorse⟩, hseen, hpass⟩ := hall a (List.mem_cons_self ..)
        have hrest : validateAPs meshRadio isMorse (a.radioName :: seen) as = .ok () := by
          refine ih (fun ap hap => ?_) hnodup
          obtain ⟨hentry, hout, hkey⟩ := hall ap (List.mem_cons_of_mem _ hap)
          refine ⟨hentry, fun hin => ?_, hkey⟩
          rcases List.mem_cons.1 hin with heq | hin
          · exact hnew (List.mem_map.2 ⟨ap, hap, heq⟩)
          · exact hout hin
        unfold validateAPs
        dsimp only
        rw [if_neg hname, if_neg hmesh, if_neg (by simp [hmorse]), if_neg hseen]
        split_ifs with hen
        · exact bind_ok_iff.2
            ⟨under_eq_ok_iff.2 (validatePassphrase_eq_ok_iff.2 (hpass hen)), hrest⟩
        · exact hrest

theorem validateUplinkClash_eq_ok_iff {radio : String} {aps : List RadioApProfile} :
    validateUplinkClash radio aps = .ok () ↔
      ∀ ap ∈ aps, ap.radioName = radio → ap.enabled = false ∧ ap.meshBackhaul = none := by
  induction aps with
  | nil => exact iff_of_true rfl fun _ hap => absurd hap List.not_mem_nil
  | cons a as ih =>
      rw [List.forall_mem_cons, ← ih, validateUplinkClash]
      split_ifs with hother hen hback
      · exact ⟨fun h => ⟨fun heq => absurd heq hother, h⟩, And.right⟩
      · refine iff_of_false (fun h => by cases h) fun h => ?_
        rw [(h.1 (not_not.1 hother)).1] at hen
        cases hen
      · refine iff_of_false (fun h => by cases h) fun h => ?_
        rw [(h.1 (not_not.1 hother)).2] at hback
        cases hback
      · exact ⟨fun h => ⟨fun _ => ⟨by simpa using hen, by simpa using hback⟩, h⟩, And.right⟩

/-- The station of an uplink can be set up. -/
structure StationOk (meshRadio : String) (isMorse : String → Bool) (aps : List RadioApProfile)
    (w : WifiStaProfile) : Prop where
  named : w.radioName ≠ ""
  notMesh : w.radioName ≠ meshRadio
  notMorse : isMorse w.radioName = false
  free : ∀ ap ∈ aps, ap.radioName = w.radioName → ap.enabled = false ∧ ap.meshBackhaul = none
  key : PassphraseOk w.encryption w.passphrase

theorem validateUplink_eq_ok_iff {u : Uplink} {meshRadio : String} {aps : List RadioApProfile}
    {isMorse : String → Bool} :
    validateUplink (some u) meshRadio aps isMorse = .ok () ↔
      (u.type = .wirelessSta → ∃ w, u.wireless = some w ∧ StationOk meshRadio isMorse aps w) := by
  unfold validateUplink
  dsimp only
  split_ifs with hother
  · exact iff_of_true rfl fun h => absurd h hother
  have hsta : u.type = .wirelessSta := not_not.1 hother
  cases hw : u.wireless with
  | none =>
      refine iff_of_false (fun h => by cases h) fun h => ?_
      obtain ⟨w, hw', -⟩ := h hsta
      cases hw'
  | some w =>
      dsimp only
      split_ifs with hname hmesh hmorse
      · refine iff_of_false (fun h => by cases h) fun h => ?_
        obtain ⟨w', hw', hok⟩ := h hsta
        exact hok.named (Option.some.inj hw' ▸ hname)
      · refine iff_of_false (fun h => by cases h) fun h => ?_
        obtain ⟨w', hw', hok⟩ := h hsta
        exact hok.notMesh (Option.some.inj hw' ▸ hmesh)
      · refine iff_of_false (fun h => by cases h) fun h => ?_
        obtain ⟨w', hw', hok⟩ := h hsta
        rw [Option.some.inj hw', hok.notMorse] at hmorse
        cases hmorse
      · rw [bind_ok_iff, validateUplinkClash_eq_ok_iff, under_eq_ok_iff,
          validatePassphrase_eq_ok_iff]
        constructor
        · rintro ⟨hfree, hkey⟩ -
          exact ⟨w, rfl, hname, hmesh, by simpa using hmorse, hfree, hkey⟩
        · intro h
          obtain ⟨w', hw', hok⟩ := h hsta
          obtain rfl := Option.some.inj hw'
          exact ⟨hok.free, hok.key⟩

/-- The profile's checks, one after the other. -/
theorem validateProfile_eq_ok_iff {mesh : MeshRadioConfig} (hmesh : p.mesh = some mesh) :
    S.validateProfile t p = .ok () ↔
      isHostnameLabel p.hostname = true ∧
      (p.timezone = "" ∨ (S.posixTZ p.timezone).isSome = true) ∧
      validateRole p = .ok () ∧
      mesh.radioName ≠ "" ∧ radioExistsAsMorse t mesh.radioName = true ∧
      (mesh.channel ≠ 0 ∧ mesh.bandwidthMhz ∈ [1, 2, 4, 8, 20, 40, 80, 160]) ∧
      S.validateMeshCountry mesh = .ok () ∧
      validateAPs mesh.radioName (radioExistsAsMorse t) [] p.aps = .ok () ∧
      validateUplink p.uplink mesh.radioName p.aps (radioExistsAsMorse t) = .ok () ∧
      PassphraseOk mesh.encryption mesh.passphrase ∧ 8 ≤ p.adminPassword.utf8ByteSize := by
  unfold Service.validateProfile
  cases hhost : isHostnameLabel p.hostname with
  | false => simp
  | true =>
      rw [Bool.not_true, if_neg Bool.false_ne_true]
      by_cases hzone : p.timezone ≠ "" ∧ (S.posixTZ p.timezone).isNone = true
      · rw [if_pos hzone]
        refine iff_of_false (fun h => by cases h) fun h => ?_
        rcases h.2.1 with hempty | hsome
        · exact hzone.1 hempty
        · rw [Option.isNone_iff_eq_none.1 hzone.2] at hsome
          cases hsome
      have hzone' : p.timezone = "" ∨ (S.posixTZ p.timezone).isSome = true := by
        by_contra hnot
        rw [not_or, Bool.not_eq_true, Option.isSome_eq_false_iff] at hnot
        exact hzone hnot
      rw [if_neg hzone, hmesh]
      simp only [bind_ok_iff, true_and, hzone']
      refine and_congr_right fun _ => ?_
      split_ifs with hname hmorse hshort
      · exact iff_of_false (fun h => by cases h) fun h => h.1 hname
      · refine iff_of_false (fun h => by cases h) fun h => ?_
        rw [h.2.1] at hmorse
        cases hmorse
      · refine iff_of_false (fun h => ?_) fun h => absurd h.2.2.2.2.2.2.2 (Nat.not_le_of_lt hshort)
        simp only [bind_ok_iff] at h
        cases h.2.2.2.2.2
      · simp only [bind_ok_iff, under_eq_ok_iff, validatePassphrase_eq_ok_iff,
          validateMeshChannelBandwidth_eq_ok_iff]
        have hmorse' : radioExistsAsMorse t mesh.radioName = true := by simpa using hmorse
        simp [hname, hmorse', Nat.le_of_not_lt hshort]

/-! ## The backhaul -/

theorem findBackhaul_of_none {found : Option (RadioApProfile × MeshBackhaulProfile)}
    {aps : List RadioApProfile} (h : ∀ ap ∈ aps, ap.meshBackhaul = none) :
    findBackhaul found aps = .ok found := by
  induction aps with
  | nil => rfl
  | cons a as ih =>
      obtain ⟨ha, has⟩ := List.forall_mem_cons.1 h
      unfold findBackhaul
      rw [ha]
      exact ih has

/-- Entries of distinct radios of which one at most is a backhaul, and no
access point, have the one backhaul found. -/
theorem findBackhaul_of_single {aps : List RadioApProfile}
    (hnodup : (aps.map (·.radioName)).Nodup)
    (hsingle : ∀ ap ∈ aps, ∀ ap' ∈ aps, ap.meshBackhaul.isSome = true →
      ap'.meshBackhaul.isSome = true → ap.radioName = ap'.radioName)
    (hapart : ∀ ap ∈ aps, ap.meshBackhaul.isSome = true → ap.enabled = false)
    {ap : RadioApProfile} (hap : ap ∈ aps) {bh : MeshBackhaulProfile}
    (hbh : ap.meshBackhaul = some bh) : findBackhaul none aps = .ok (some (ap, bh)) := by
  induction aps with
  | nil => cases hap
  | cons a as ih =>
      obtain ⟨hnew, hrest⟩ := List.nodup_cons.1 hnodup
      have htail := fun x (hx : x ∈ as) => List.mem_cons_of_mem a hx
      unfold findBackhaul
      rcases List.mem_cons.1 hap with rfl | hap'
      · have hnone : ∀ x ∈ as, x.meshBackhaul = none := by
          intro x hx
          by_contra hsome
          have heq := hsingle ap hap x (htail x hx) (by rw [hbh]; rfl)
            (Option.isSome_iff_ne_none.2 hsome)
          exact hnew (List.mem_map.2 ⟨x, hx, heq.symm⟩)
        have hen : ap.enabled = false := hapart ap hap (by rw [hbh]; rfl)
        rw [hbh]
        dsimp only
        rw [hen, if_neg Bool.false_ne_true]
        exact findBackhaul_of_none hnone
      · have ha : a.meshBackhaul = none := by
          by_contra hsome
          have heq := hsingle a (List.mem_cons_self ..) ap hap
            (Option.isSome_iff_ne_none.2 hsome) (by rw [hbh]; rfl)
          exact hnew (List.mem_map.2 ⟨ap, hap', heq.symm⟩)
        rw [ha]
        exact ih hrest (fun x hx y hy => hsingle x (htail x hx) y (htail y hy))
          (fun x hx => hapart x (htail x hx)) hap'

theorem validateBackhaulRadioTuning_eq_ok_iff {radio : String} {bh : MeshBackhaulProfile} :
    validateBackhaulRadioTuning radio bh = .ok () ↔
      (bh.channel = 0 ↔ bh.bandwidthMhz = 0) ∧
      (bh.channel ≠ 0 → bh.bandwidthMhz ∈ [20, 40] ∧ bh.channel ∈ availableChannels2G) := by
  unfold validateBackhaulRadioTuning
  have hmode : bh.bandwidthMhz ≠ 0 → (secondaryMeshHTMode bh.bandwidthMhz = "" ↔
      bh.bandwidthMhz ∉ [20, 40]) := by
    intro hne
    unfold secondaryMeshHTMode
    split
    · next hzero => exact absurd hzero hne
    · next hforty => simp [hforty, secondaryMeshHTMode2G]
    · next htwenty => simp [htwenty]
    · next _ hforty htwenty =>
      refine iff_of_true rfl fun hin => ?_
      rcases List.mem_pair.1 hin with heq | heq
      · exact htwenty heq
      · exact hforty heq
  split_ifs with hapart hzero hwidth hchannel
  · refine iff_of_false (fun h => by cases h) fun h => hapart (propext h.1)
  · exact iff_of_true rfl ⟨iff_of_eq (not_not.1 hapart), fun hne => absurd hzero hne⟩
  · have hsame := iff_of_eq (not_not.1 hapart)
    refine iff_of_false (fun h => by cases h) fun h => ?_
    exact (hmode fun hw => hzero (hsame.2 hw)).1 hwidth (h.2 hzero).1
  · have hsame := iff_of_eq (not_not.1 hapart)
    refine iff_of_true rfl ⟨hsame, fun _ => ⟨?_, hchannel⟩⟩
    exact not_not.1 fun hout => hwidth ((hmode fun hw => hzero (hsame.2 hw)).2 hout)
  · exact iff_of_false (fun h => by cases h) fun h => hchannel (h.2 hzero).2

/-- **The first phase** is the checks of the profile and those of the
backhaul. -/
theorem validate_succeeds_iff : Fallible.succeeds (S.validate p) g = true ↔
    S.validateProfile g.tree p = .ok () ∧
      Fallible.succeeds (S.validateMeshBackhaul p) g = true := by
  unfold Fallible.succeeds Service.validate
  have htree : tree g = .ok g.tree g := rfl
  rw [bind_of_ok htree]
  cases hprofile : S.validateProfile g.tree p with
  | error text =>
      have hcheck : check (.error text) g = .error ⟨text, false⟩ g := rfl
      rw [bind_of_error hcheck]
      exact iff_of_false Bool.false_ne_true fun h => by cases h.1
  | ok _ =>
      have hcheck : check (.ok ()) g = .ok () g := rfl
      rw [bind_of_ok hcheck]
      simp

end Setup

end OpenManet
