import OpenManet.Frontend.Setup.Pages
import OpenManet.Setup.Acceptance
/-!
# What the wizard sends and the node accepts

Apply is offered when no blocker is left, and the node then checks the
profile again with checks of its own. The pages keep the rules across fields
of their own accord, so what can still be refused is what the last page does
not look at: the form of the hostname, the length of the keys in bytes, the
uplink, the values that are left of a code that was scanned and then edited,
and what the node finds of its zone table, its regulatory database and its
radios when the profile arrives.
-/

namespace OpenManet

namespace Wizard

open Uci Fallible Setup Network

/-! ## What is left to check -/

/-- The station of a wireless uplink: its radio is chosen and used for
nothing else, and its key has a length. -/
structure StationFits (s : State) : Prop where
  named : s.uplink.wireless.radioName ≠ ""
  free : ∀ ap ∈ s.aps, ap.radioName = s.uplink.wireless.radioName →
    ap.enabled = false ∧ ap.meshBackhaul = false
  key : PassphraseOk s.uplink.wireless.encryption s.uplink.wireless.passphrase

/-- **What no blocker covers.** -/
structure Covered (n : Node) (hardware : String → Option String) (v : Host) (s : State) : Prop where
  hostname : isHostnameLabel s.hostname = true
  /-- The zone is one of the table; the node's own zone need not be. -/
  zone : s.timezone = "" ∨ s.timezone ∈ n.zoneNames
  /-- The regulatory database can be read, or is not installed. -/
  table : ∀ text, n.table ≠ .broken text
  tuned : s.mesh.channel ≠ 0 ∧ s.mesh.bandwidthMhz ∈ [1, 2, 4, 8, 20, 40, 80, 160]
  /-- Values that are not held from a code are legal, and so are values that
  are where the database has no country to check them against. -/
  legal : ∀ db, n.table = .installed db → s.mesh.fromScan = false ∨ db.countries = [] →
    db.isLegalChannel s.mesh.countryCode s.mesh.bandwidthMhz s.mesh.channel = true
  meshKey : PassphraseOk s.mesh.encryption s.mesh.passphrase
  apKeys : ∀ ap ∈ s.aps, ap.enabled = true → PassphraseOk ap.encryption ap.passphrase
  uplink : s.role = .meshGate → s.uplink.type ≠ .unspecified
  sta : s.role = .meshGate → s.uplink.type = .wirelessSta → StationFits s
  /-- A backhaul that is not held from a code is tuned to 2.4 GHz. -/
  backhaulTuned : ∀ ap ∈ s.aps, ap.meshBackhaul = true → ap.backhaulFromScan = false →
    ap.backhaulChannel ≠ 0 →
      ap.backhaulBandwidthMhz ∈ backhaulBandwidths ∧ ap.backhaulChannel ∈ backhaulChannels2G
  /-- The radios can be listed again, and the backhaul's is still found to
  be of a chipset the link is run on. -/
  backhaulSeen : ∀ ap ∈ s.aps, ap.meshBackhaul = true →
    Listable v = true ∧ (hardware ap.radioName).any supportsSecondaryMeshLink = true

/-! ## Where both sides stand -/

/-- Apply is offered, and the node reads the wireless config it made the
status from. -/
structure Offered (n : Node) (status : GetSetupStatusResponse) (v : Host) (s : State) : Prop where
  shaped : Shaped status s
  unblocked : Unblocked s status
  inventoried : ∀ r ∈ status.radios, Inventoried v.tree r
  countries : status.countries = n.table.countries

section Inventory

variable {t t' : Tree} {r : SetupRadio}

theorem get_of_mem (h : t'.mem "wireless" = t.mem "wireless") (ref option : String) :
    t'.get "wireless" ref option = t.get "wireless" ref option := by
  unfold Uci.Tree.get
  rw [h]

/-- What is said of a radio is said by the wireless config alone. -/
theorem inventoried_of_mem (h : t'.mem "wireless" = t.mem "wireless") (hr : Inventoried t r) :
    Inventoried t' r := by
  obtain ⟨hlisted, hhalow, hcandidate⟩ := hr
  refine ⟨?_, ?_, fun hsupports => ?_⟩
  · unfold radioRefs radios at hlisted ⊢
    rw [h]
    exact hlisted
  · rw [hhalow, radioExistsAsMorse, radioExistsAsMorse, isMorseDevice_firstValue,
      isMorseDevice_firstValue, firstValue, firstValue, get_of_mem h]
  · have hsame := hcandidate hsupports
    unfold isSecondaryMeshCandidate firstValue at hsame ⊢
    rw [get_of_mem h, get_of_mem h]
    exact hsame

end Inventory

section Checks

variable {n : Node} {status : GetSetupStatusResponse} {v : Host} {s : State}
  {hardware : String → Option String} {ap : RadioAp}

theorem offered_of_status {g g' : Host} (hstatus : n.getSetupStatus g = .ok status g')
    (hs : Reachable status s) (hoffer : applyBlockers s status = [])
    (hsame : v.tree.mem "wireless" = g.tree.mem "wireless") : Offered n status v s := by
  obtain ⟨hradios, -, hcountries⟩ := getSetupStatus_says hstatus
  exact ⟨shaped_of_reachable hs, unblocked_of_blockers hoffer,
    fun r hr => inventoried_of_mem hsame (hradios r hr), hcountries⟩

/-! ## Check by check -/

theorem validateRole_iff (h : Offered n status v s) :
    validateRole (profileToProto s) = .ok () ↔
      (s.role = .meshGate → s.uplink.type ≠ .unspecified) := by
  unfold validateRole profileToProto MeshNodeProfile.meshpointMode MeshNodeProfile.meshgateMode
    MeshNodeProfile.uplinkType
  rcases h.shaped.role with ⟨hrole, hmode⟩ | ⟨hrole, hmode, -⟩
  · simp [hrole, hmode]
  · by_cases htype : s.uplink.type = .unspecified
    · simp [hrole, hmode, htype, uplinkToProto]
    · simp [hrole, hmode, htype, uplinkToProto]

theorem meshRadio_morse (h : Offered n status v s) :
    radioExistsAsMorse v.tree s.mesh.radioName = true := by
  obtain ⟨r, hr, hhalow, hname⟩ := h.shaped.mesh h.unblocked.radio
  rw [← hname, ← (h.inventoried r hr).halow]
  exact hhalow

/-- A name of a radio that is no HaLow radio is fit for an entry. -/
theorem entryOk_of_radio {r : SetupRadio} (h : Offered n status v s) (hr : r ∈ status.radios)
    (hhalow : r.isHalow = false) :
    r.name ≠ "" ∧ r.name ≠ s.mesh.radioName ∧ radioExistsAsMorse v.tree r.name = false := by
  have hinventoried := h.inventoried r hr
  have hmorse : radioExistsAsMorse v.tree r.name = false := hinventoried.halow ▸ hhalow
  refine ⟨ne_empty_of_mem_radioRefs hinventoried.listed, fun heq => ?_, hmorse⟩
  rw [heq, meshRadio_morse h] at hmorse
  cases hmorse

theorem mem_profile_aps {x : RadioApProfile} (hx : x ∈ (profileToProto s).aps) :
    ∃ ap ∈ s.aps, (ap.enabled = true ∨ ap.meshBackhaul = true) ∧ x = apToProto ap := by
  obtain ⟨ap, hap, rfl⟩ := List.mem_map.1 hx
  obtain ⟨hap, hused⟩ := List.mem_filter.1 hap
  exact ⟨ap, hap, (Bool.or_eq_true_iff ..).1 hused, rfl⟩

theorem apToProto_mem (hap : ap ∈ s.aps) (hused : ap.enabled = true ∨ ap.meshBackhaul = true) :
    apToProto ap ∈ (profileToProto s).aps :=
  List.mem_map.2 ⟨ap, List.mem_filter.2 ⟨hap, (Bool.or_eq_true_iff ..).2 hused⟩, rfl⟩

theorem nodup_profile_aps (h : Offered n status v s) :
    ((profileToProto s).aps.map (·.radioName)).Nodup := by
  unfold profileToProto
  rw [List.map_map]
  exact h.shaped.entries.nodup.sublist (List.filter_sublist.map _)

theorem isSome_meshBackhaul : (apToProto ap).meshBackhaul.isSome = ap.meshBackhaul := by
  unfold apToProto
  cases ap.meshBackhaul with
  | false => rfl
  | true => rfl

theorem validateAPs_iff (h : Offered n status v s) :
    validateAPs s.mesh.radioName (radioExistsAsMorse v.tree) [] (profileToProto s).aps = .ok () ↔
      ∀ ap ∈ s.aps, ap.enabled = true → PassphraseOk ap.encryption ap.passphrase := by
  rw [validateAPs_eq_ok_iff]
  constructor
  · rintro ⟨hall, -⟩ ap hap hen
    have hkey := (hall _ (apToProto_mem hap (.inl hen))).2.2 hen
    simp only [apToProto, hen, if_true] at hkey
    exact hkey
  · intro hkeys
    refine ⟨fun x hx => ?_, nodup_profile_aps h⟩
    obtain ⟨ap, hap, -, rfl⟩ := mem_profile_aps hx
    obtain ⟨r, hr, hhalow, hname, -⟩ := (h.shaped.entries.fits ap hap).radio
    obtain ⟨hne, hmesh, hmorse⟩ := entryOk_of_radio h hr hhalow
    rw [hname] at hne hmesh hmorse
    refine ⟨⟨hne, hmesh, hmorse⟩, List.not_mem_nil, fun hen => ?_⟩
    have hen' : ap.enabled = true := hen
    simp only [apToProto, hen', if_true]
    exact hkeys ap hap hen'

theorem validateUplink_iff (h : Offered n status v s) :
    validateUplink (profileToProto s).uplink s.mesh.radioName (profileToProto s).aps
        (radioExistsAsMorse v.tree) = .ok () ↔
      (s.role = .meshGate → s.uplink.type = .wirelessSta → StationFits s) := by
  have huplink : (profileToProto s).uplink =
      if s.role = .meshGate then some (uplinkToProto s.uplink) else none := rfl
  rw [huplink]
  by_cases hgate : s.role = .meshGate
  swap
  · rw [if_neg hgate]
    exact iff_of_true rfl fun hrole => absurd hrole hgate
  rw [if_pos hgate, validateUplink_eq_ok_iff]
  constructor
  · intro hall _ hsta
    obtain ⟨w, hw, hok⟩ := hall hsta
    unfold uplinkToProto at hw
    rw [if_pos hsta] at hw
    obtain rfl := Option.some.inj hw
    refine ⟨hok.named, fun ap hap hname => ?_, hok.key⟩
    by_cases hused : ap.enabled = true ∨ ap.meshBackhaul = true
    · obtain ⟨hen, hback⟩ := hok.free _ (apToProto_mem hap hused) hname
      refine ⟨hen, ?_⟩
      rw [← isSome_meshBackhaul, hback]
      rfl
    · rw [not_or, Bool.not_eq_true, Bool.not_eq_true] at hused
      exact hused
  · intro hall hsta
    obtain ⟨hnamed, hfree, hkey⟩ := hall hgate hsta
    obtain ⟨r, hr, hhalow, hname⟩ := h.shaped.sta hnamed
    obtain ⟨hne, hmesh, hmorse⟩ := entryOk_of_radio h hr hhalow
    rw [hname] at hne hmesh hmorse
    refine ⟨s.uplink.wireless, if_pos hsta, hne, hmesh, hmorse, fun x hx hxname => ?_, hkey⟩
    obtain ⟨ap, hap, hused, rfl⟩ := mem_profile_aps hx
    obtain ⟨hen, hback⟩ := hfree ap hap hxname
    rw [hen, hback] at hused
    rcases hused with hused | hused
    · cases hused
    · cases hused

/-- Values that are held from a code are legal where the database lists a
country. -/
theorem legal_of_held {db : DB} (h : Offered n status v s) (htable : n.table = .installed db)
    (hscan : s.mesh.fromScan = true) (hsome : db.countries ≠ []) :
    db.isLegalChannel s.mesh.countryCode s.mesh.bandwidthMhz s.mesh.channel = true := by
  obtain ⟨hwidth, hchannel, hcountry⟩ := h.unblocked.scanned hscan
  have hcountries : status.countries = db.countries := by rw [h.countries, htable]; rfl
  unfold meshOptions at hwidth hchannel hcountry
  rw [hcountries] at hwidth hchannel hcountry
  dsimp only [meshCreds] at hwidth hchannel hcountry
  have hlisted := hcountry h.unblocked.country (by simpa using hsome)
  obtain ⟨c', hc', hcode'⟩ := List.mem_map.1 hlisted
  obtain ⟨c, hfind⟩ : ∃ c, (db.countries.find? fun c => c.code = s.mesh.countryCode) = some c := by
    rw [← Option.isSome_iff_exists, List.find?_isSome]
    exact ⟨c', hc', by simpa using hcode'⟩
  have hentry : findCountryEntry db.countries s.mesh.countryCode = some c := by
    rw [findCountryEntry, if_neg h.unblocked.country]
    exact hfind
  have hc := db.listed c (List.mem_of_find?_eq_some hfind)
  rw [hentry] at hwidth hchannel
  refine DB.isLegalChannel_of_find hfind ?_
  -- the width is one of the country's, so its channels are not the fallback
  have hwide : bandwidthsForCountry (some c) ≠ [] := by
    obtain ⟨b, bs, hbs⟩ := List.exists_cons_of_ne_nil hc.wide
    refine List.ne_nil_of_mem ((mem_bandwidthsForCountry hc.wide).2 ⟨b, ?_, rfl⟩)
    rw [hbs]
    exact List.mem_cons_self ..
  unfold RadioOptions.widths at hwidth
  rw [if_pos hwide] at hwidth
  obtain ⟨hsame, hne⟩ := channelsForCountryBandwidth_of_mem hc.tuned
    ((mem_bandwidthsForCountry hc.wide).1 hwidth)
  rw [hsame] at hchannel
  exact hchannel hne

theorem validateMeshCountry_iff (h : Offered n status v s) :
    (n.service.seeing hardware).validateMeshCountry (meshToProto s.mesh) = .ok () ↔
      (∀ text, n.table ≠ .broken text) ∧
      ∀ db, n.table = .installed db → s.mesh.fromScan = false ∨ db.countries = [] →
        db.isLegalChannel s.mesh.countryCode s.mesh.bandwidthMhz s.mesh.channel = true := by
  unfold Service.validateMeshCountry Service.seeing
  dsimp only
  rw [n.regDB]
  cases htable : n.table with
  | notInstalled =>
      exact iff_of_true rfl ⟨fun text hbroken => (by cases hbroken), fun db hdb => (by cases hdb)⟩
  | broken text =>
      exact iff_of_false (fun hok => by cases hok) fun hboth => hboth.1 text rfl
  | installed db =>
      have hcountry : (meshToProto s.mesh).countryCode ≠ "" := h.unblocked.country
      unfold RegTable.regDB
      dsimp only
      rw [if_neg hcountry]
      show (if db.isLegalChannel s.mesh.countryCode s.mesh.bandwidthMhz s.mesh.channel = true
        then _ else _) = _ ↔ _
      split_ifs with hlegal
      · refine iff_of_true rfl ⟨fun text hbroken => (by cases hbroken), fun db' hdb _ => ?_⟩
        obtain rfl : db = db' := by injection hdb
        exact hlegal
      · refine iff_of_false (fun hok => by cases hok) fun hboth => hlegal ?_
        by_cases hheld : s.mesh.fromScan = false ∨ db.countries = []
        · exact hboth.2 db rfl hheld
        · rw [not_or, Bool.not_eq_false] at hheld
          exact legal_of_held h htable hheld.1 hheld.2

/-- The tuning of a backhaul that is held from a code is accepted. -/
theorem tuned_of_held (h : Offered n status v s) (hap : ap ∈ s.aps)
    (hback : ap.meshBackhaul = true) (hscan : ap.backhaulFromScan = true)
    (hne : ap.backhaulChannel ≠ 0) :
    ap.backhaulBandwidthMhz ∈ backhaulBandwidths ∧ ap.backhaulChannel ∈ backhaulChannels2G := by
  obtain ⟨hwidth, hchannel, -⟩ := h.unblocked.scannedBackhaul ap hap hback hscan
  have hne' : ap.backhaulBandwidthMhz ≠ 0 :=
    fun hzero => hne ((h.unblocked.together ap hap hback).2 hzero)
  have hchannel := hchannel (List.cons_ne_nil _ _)
  unfold backhaulCreds orElseNat at hwidth hchannel
  dsimp only at hwidth hchannel
  rw [if_neg hne'] at hwidth
  rw [if_neg hne] at hchannel
  exact ⟨hwidth, hchannel⟩

theorem validateBackhaulRadioTuning_iff (h : Offered n status v s) (hap : ap ∈ s.aps)
    (hback : ap.meshBackhaul = true) :
    validateBackhaulRadioTuning ap.radioName (backhaulToProto ap) = .ok () ↔
      (ap.backhaulFromScan = false → ap.backhaulChannel ≠ 0 →
        ap.backhaulBandwidthMhz ∈ backhaulBandwidths ∧
          ap.backhaulChannel ∈ backhaulChannels2G) := by
  rw [validateBackhaulRadioTuning_eq_ok_iff]
  constructor
  · rintro ⟨-, htuned⟩ - hne
    exact htuned hne
  · intro hedited
    refine ⟨h.unblocked.together ap hap hback, fun hne => ?_⟩
    cases hscan : ap.backhaulFromScan with
    | false => exact hedited hscan hne
    | true => exact tuned_of_held h hap hback hscan hne

theorem candidate_of_backhaul (h : Offered n status v s) (hap : ap ∈ s.aps)
    (hback : ap.meshBackhaul = true) :
    ap.radioName ∈ radioRefs v.tree ∧ isSecondaryMeshCandidate v.tree ap.radioName = true := by
  obtain ⟨r, hr, -, hname, hsupports⟩ := (h.shaped.entries.fits ap hap).radio
  have hinventoried := h.inventoried r hr
  rw [← hname]
  exact ⟨hinventoried.listed, hinventoried.candidate (hsupports hback)⟩

theorem validateMeshBackhaul_iff (h : Offered n status v s) :
    Fallible.succeeds
        ((n.service.seeing hardware).validateMeshBackhaul (profileToProto s)) v = true ↔
      ∀ ap ∈ s.aps, ap.meshBackhaul = true →
        (Listable v = true ∧ (hardware ap.radioName).any supportsSecondaryMeshLink = true) ∧
        (ap.backhaulFromScan = false → ap.backhaulChannel ≠ 0 →
          ap.backhaulBandwidthMhz ∈ backhaulBandwidths ∧
            ap.backhaulChannel ∈ backhaulChannels2G) := by
  unfold Service.validateMeshBackhaul
  by_cases hnone : ∀ ap ∈ s.aps, ap.meshBackhaul = false
  · have hprofile : ∀ x ∈ (profileToProto s).aps, x.meshBackhaul = none := by
      intro x hx
      obtain ⟨ap, hap, -, rfl⟩ := mem_profile_aps hx
      unfold apToProto
      rw [hnone ap hap]
      rfl
    rw [findBackhaul_of_none hprofile]
    refine iff_of_true rfl fun ap hap hback => ?_
    rw [hnone ap hap] at hback
    cases hback
  · obtain ⟨ap, hap, hback⟩ : ∃ ap ∈ s.aps, ap.meshBackhaul = true := by
      simpa using hnone
    have hfound : findBackhaul none (profileToProto s).aps =
        .ok (some (apToProto ap, backhaulToProto ap)) := by
      refine findBackhaul_of_single (nodup_profile_aps h) (fun x hx y hy hxs hys => ?_)
        (fun x hx hxs => ?_) (apToProto_mem hap (.inr hback)) (if_pos hback)
      · obtain ⟨a, ha, -, rfl⟩ := mem_profile_aps hx
        obtain ⟨b, hb, -, rfl⟩ := mem_profile_aps hy
        rw [isSome_meshBackhaul] at hxs hys
        exact h.shaped.entries.single a ha b hb hxs hys
      · obtain ⟨a, ha, -, rfl⟩ := mem_profile_aps hx
        rw [isSome_meshBackhaul] at hxs
        exact (h.shaped.entries.fits a ha).apart hxs
    rw [hfound]
    dsimp only
    obtain ⟨v', hsupports⟩ := radioSupportsMeshBackhaul_eq (n.service.seeing hardware) v
      (apToProto ap).radioName
    obtain ⟨hlisted, hcandidate⟩ := candidate_of_backhaul h hap hback
    -- the one backhaul is all there is to check
    have honly : ∀ a ∈ s.aps, a.meshBackhaul = true → a = ap := by
      intro a ha hback'
      exact List.inj_on_of_nodup_map h.shaped.entries.nodup ha hap
        (h.shaped.entries.single a ha ap hap hback' hback)
    have hseen : (n.service.seeing hardware).radioSupportsMeshBackhaul (apToProto ap).radioName v =
        .ok (Listable v && (hardware ap.radioName).any supportsSecondaryMeshLink) v' := by
      have hlisted : (apToProto ap).radioName ∈ radioRefs v.tree := hlisted
      have hcandidate : isSecondaryMeshCandidate v.tree (apToProto ap).radioName = true :=
        hcandidate
      rw [hsupports, decide_eq_true hlisted, hcandidate, Bool.and_true, Bool.and_true]
      rfl
    have htuning : validateBackhaulRadioTuning (apToProto ap).radioName (backhaulToProto ap) =
        .ok () ↔ _ := validateBackhaulRadioTuning_iff h hap hback
    have hall : (∀ a ∈ s.aps, a.meshBackhaul = true →
          (Listable v = true ∧ (hardware a.radioName).any supportsSecondaryMeshLink = true) ∧
          (a.backhaulFromScan = false → a.backhaulChannel ≠ 0 →
            a.backhaulBandwidthMhz ∈ backhaulBandwidths ∧
              a.backhaulChannel ∈ backhaulChannels2G)) ↔
        (Listable v && (hardware ap.radioName).any supportsSecondaryMeshLink) = true ∧
          validateBackhaulRadioTuning (apToProto ap).radioName (backhaulToProto ap) = .ok () := by
      rw [htuning, Bool.and_eq_true_iff]
      constructor
      · exact fun hevery => hevery ap hap hback
      · intro hone a ha hback'
        rw [honly a ha hback']
        exact hone
    rw [hall]
    unfold Fallible.succeeds
    rw [bind_of_ok hseen]
    cases Listable v && (hardware ap.radioName).any supportsSecondaryMeshLink with
    | false => exact iff_of_false Bool.false_ne_true fun hboth => Bool.false_ne_true hboth.1
    | true =>
        rw [if_pos rfl]
        cases validateBackhaulRadioTuning (apToProto ap).radioName (backhaulToProto ap) with
        | error text => exact iff_of_false Bool.false_ne_true fun hboth => by cases hboth.2
        | ok _ => exact iff_of_true rfl ⟨rfl, rfl⟩

/-- **Offered is accepted exactly where what no blocker covers is well.** -/
theorem validate_iff_covered (h : Offered n status v s) :
    Fallible.succeeds ((n.service.seeing hardware).validate (profileToProto s)) v = true ↔
      Covered n hardware v s := by
  have hmesh : (profileToProto s).mesh = some (meshToProto s.mesh) := rfl
  have hzone : ((profileToProto s).timezone = "" ∨
      ((n.service.seeing hardware).posixTZ (profileToProto s).timezone).isSome = true) ↔
        (s.timezone = "" ∨ s.timezone ∈ n.zoneNames) := or_congr_right (n.known _).symm
  have hpassword : 8 ≤ (profileToProto s).adminPassword.utf8ByteSize :=
    Nat.le_trans h.unblocked.password (Utf16.length_le_utf8ByteSize s.adminPassword)
  have hcountry : (n.service.seeing hardware).validateMeshCountry (meshToProto s.mesh) = .ok () ↔ _ :=
    validateMeshCountry_iff h
  have haps := validateAPs_iff h
  have huplink := validateUplink_iff h
  rw [validate_succeeds_iff, validateProfile_eq_ok_iff hmesh, hzone, validateRole_iff h, hcountry,
    validateMeshBackhaul_iff h]
  show (_ ∧ _ ∧ _ ∧ s.mesh.radioName ≠ "" ∧ radioExistsAsMorse v.tree s.mesh.radioName = true ∧ _ ∧
    _ ∧ validateAPs s.mesh.radioName (radioExistsAsMorse v.tree) [] (profileToProto s).aps = .ok () ∧
    validateUplink (profileToProto s).uplink s.mesh.radioName (profileToProto s).aps
      (radioExistsAsMorse v.tree) = .ok () ∧ _) ∧ _ ↔ _
  rw [haps, huplink]
  constructor
  · rintro ⟨⟨hhost, hzone, hrole, -, -, htuned, ⟨htable, hlegal⟩, hkeys, hsta, hkey, -⟩, hback⟩
    exact ⟨hhost, hzone, htable, htuned, hlegal, hkey, hkeys, hrole, hsta,
      fun ap hap hb => (hback ap hap hb).2, fun ap hap hb => (hback ap hap hb).1⟩
  · intro hcov
    exact ⟨⟨hcov.hostname, hcov.zone, hcov.uplink, h.unblocked.radio, meshRadio_morse h,
      hcov.tuned, ⟨hcov.table, hcov.legal⟩, hcov.apKeys, hcov.sta, hcov.meshKey, hpassword⟩,
      fun ap hap hb => ⟨hcov.backhaulSeen ap hap hb, hcov.backhaulTuned ap hap hb⟩⟩

end Checks

/-- **Apply is offered and the profile is accepted exactly where what no
blocker covers is well**, in every state the pages lead to, on whatever the
node finds of its radios when the profile arrives. -/
theorem accepted_iff_covered {n : Node} {g g' v : Host} {status : GetSetupStatusResponse}
    {s : State} {hardware : String → Option String}
    (hstatus : n.getSetupStatus g = .ok status g') (hs : Reachable status s)
    (hoffer : applyBlockers s status = [])
    (hsame : v.tree.mem "wireless" = g.tree.mem "wireless") :
    Fallible.succeeds ((n.service.seeing hardware).validate (profileToProto s)) v = true ↔
      Covered n hardware v s :=
  validate_iff_covered (offered_of_status hstatus hs hoffer hsame)

/-! ## A mesh point -/

/-- A table with one channel. -/
def usTable : DB := DB.parse [⟨"us", "USA", some 2, some 42⟩]

/-- A node of that table. -/
def node : Node where
  service := {
    snapshotter := true
    reloader := true
    passwordSetter := true
    hostnameSetter := true
    interfaces := ["lo", "eth0"]
    radioHardware := fun _ => none
    regDB := .installed usTable.isLegalChannel
    posixTZ := fun _ => none
    multicastForceflood := true
    randomMAC := "F2:00:00:00:00:01"
    randomMeshIP := none
    randomDhcpStart := 255 }
  zoneNames := []
  table := .installed usTable
  known := by simp
  regDB := rfl

/-- Its wireless config: one HaLow radio. -/
def halowConfig : Uci.Config where
  sections := [⟨"wifi-device", "radio0", AList.insert "type" ["morse"] ∅⟩]
  plain := by decide +kernel
  ident := by decide +kernel
  distinct := by decide +kernel

def host : Host where
  tree := {
    mem := fun config => if config = "wireless" then some halowConfig else none
    disk := fun _ => none
    dirty := fun _ => false }
  tick := 0
  fate := ⟨fun _ => false, fun _ _ => true⟩

/-- What it says of itself. -/
def said : GetSetupStatusResponse where
  currentHostname := ""
  radios := [node.service.setupRadio host.tree false "radio0"]
  ethernetPorts := ["eth0"]
  timezones := []
  currentTimezone := ""
  countries := usTable.countries
  currentCountry := ""

theorem node_says : ∃ g', node.getSetupStatus host = .ok said g' := ⟨_, rfl⟩

/-- An operator who has filled in all but the mesh passphrase. -/
def unkeyed : State :=
  [.hydrateFromStatus said "", .setHostname "node", .setAdminPassword "password",
    .setAdminPasswordConfirm "password"].foldl reducer initialState

theorem reachable_unkeyed : Reachable said unkeyed := by
  have hstart : Reachable said initialState := Relation.ReflTransGen.refl
  have hsaid := hstart.tail ⟨_, .hydrated "", rfl⟩
  have hnamed := hsaid.tail ⟨_, .hostname "node", rfl⟩
  have hpassword := hnamed.tail ⟨_, .adminPassword "password", rfl⟩
  exact hpassword.tail ⟨_, .adminPasswordConfirm "password", rfl⟩

/-- And one who has filled it in too. -/
def keyed : State := reducer unkeyed (.setMeshField (.passphrase "meshpass"))

theorem reachable_keyed : Reachable said keyed := by
  have hoffered : (MeshField.passphrase "meshpass").Offered said unkeyed.mesh := trivial
  exact reachable_unkeyed.tail ⟨_, .meshField hoffered, rfl⟩

theorem accepted_iff_covered_keyed :
    Fallible.succeeds ((node.service.seeing fun _ => none).validate (profileToProto keyed)) host =
      true ↔ Covered node (fun _ => none) host keyed := by
  obtain ⟨g', hsaid⟩ := node_says
  exact accepted_iff_covered hsaid reachable_keyed (by decide +kernel) rfl

/-- **Apply is offered without a mesh passphrase, and the profile is
refused.** -/
theorem refused_unkeyed :
    ¬ ∀ (n : Node) (g g' : Host) (status : GetSetupStatusResponse) (s : State),
      n.getSetupStatus g = .ok status g' → Reachable status s → applyBlockers s status = [] →
        Fallible.succeeds (n.service.validate (profileToProto s)) g = true := by
  intro hall
  obtain ⟨g', hsaid⟩ := node_says
  have haccepted := hall node host g' said unkeyed hsaid reachable_unkeyed (by decide +kernel)
  have hrefused : Fallible.succeeds (node.service.validate (profileToProto unkeyed)) host = false := by
    decide +kernel
  rw [hrefused] at haccepted
  cases haccepted

end Wizard

end OpenManet
