import OpenManet.Mgmt.BatMesh1
/-!
# What the boot-time backhaul writes

The file ends as it was, with the interface of the link, or with the link in
service, whichever calls are refused. `Effect` says what either change
leaves to be read, section by section.
-/

namespace OpenManet

namespace Mgmt

open Uci Fallible Network

/-- What a radio is tuned by. -/
def tuning : List String := ["channel", "htmode", "country"]

/-! ## The section of the link -/

section Link

variable {c d : Uci.Config} {link : MeshLink} {radio o : String} {mesh : UCIWirelessIface}

theorem section_linkOf : (linkOf radio mesh).section = "batmesh1_" ++ radio := by
  show "batmesh1" ++ "_" ++ radio = _
  rfl

theorem plain_section (radio : String) (mesh : UCIWirelessIface) :
    Plain (linkOf radio mesh).section := by
  rw [section_linkOf]
  exact plain_append (by decide) (by decide) _

theorem section_ne_empty : (linkOf radio mesh).section ≠ "" := by
  rw [section_linkOf]
  intro hempty
  have hchars := congrArg String.toList hempty
  simp at hchars

theorem linkWrites_linkOf (hr : radio ≠ "") (hm : mesh.meshID ≠ "") :
    linkWrites (linkOf radio mesh) =
      [("device", radio), ("network", "batmesh1"), ("mode", "mesh")] ++
        (if mesh.key = "" then [] else [("key", mesh.key)]) ++
        [("mesh_id", mesh.meshID), ("mesh_fwding", "0"), ("mesh_rssi_threshold", "-80"),
          ("encryption", "sae"), ("mcast_rate", "24000"), ("mesh_nolearn", "1"),
          ("mesh_retry_timeout", "255"), ("mesh_confirm_timeout", "255"),
          ("mesh_holding_timeout", "255")] := by
  by_cases hk : mesh.key = ""
  · simp [linkWrites, written, ifaceOptionFields, linkOf, MeshLink.ifaceConfig,
      UCIWirelessIface.applySecondaryMeshPolicy, batmanSecondaryIface, wifiModeMesh,
      secondaryMeshRSSIThreshold, hr, hm, hk]
  · simp [linkWrites, written, ifaceOptionFields, linkOf, MeshLink.ifaceConfig,
      UCIWirelessIface.applySecondaryMeshPolicy, batmanSecondaryIface, wifiModeMesh,
      secondaryMeshRSSIThreshold, hr, hm, hk]

/-- What the link is written with, by option. -/
theorem lastWrite_linkWrites (hr : radio ≠ "") (hm : mesh.meshID ≠ "") :
    lastWrite (linkWrites (linkOf radio mesh)) "device" = some radio ∧
      lastWrite (linkWrites (linkOf radio mesh)) "mode" = some "mesh" ∧
      lastWrite (linkWrites (linkOf radio mesh)) "mesh_id" = some mesh.meshID ∧
      lastWrite (linkWrites (linkOf radio mesh)) "key" =
        (if mesh.key = "" then none else some mesh.key) := by
  rw [linkWrites_linkOf hr hm]
  by_cases hk : mesh.key = ""
  · simp [lastWrite, hk]
  · simp [lastWrite, hk]

theorem lastWrite_disabled : lastWrite (linkWrites (linkOf radio mesh)) "disabled" = none := by
  cases hlast : lastWrite (linkWrites (linkOf radio mesh)) "disabled" with
  | none => rfl
  | some v =>
      obtain ⟨hmem, hset⟩ := List.mem_filter.1 (mem_of_lastWrite hlast)
      have hempty : (linkOf radio mesh).ifaceConfig.disabled = "" := rfl
      simp [ifaceOptionFields, hempty] at hmem
      simp [hmem] at hset

theorem linkWrites_ne_tuning (ho : o ∈ tuning) : ∀ w ∈ linkWrites link, w.1 ≠ o := by
  intro w hw
  have hmem : w ∈ ifaceOptionFields link.ifaceConfig := (List.mem_filter.1 hw).1
  have hname : w.1 ∈ allWifiIfaceOptions := by
    simp only [ifaceOptionFields, List.mem_cons, List.not_mem_nil, or_false] at hmem
    rcases hmem with rfl | rfl | rfl | rfl | rfl | rfl | rfl | rfl | rfl | rfl | rfl | rfl | rfl
      | rfl | rfl | rfl <;> simp [allWifiIfaceOptions]
  have hapart : ∀ a ∈ tuning, a ∉ allWifiIfaceOptions := by decide
  rintro rfl
  exact hapart _ ho hname

theorem radioWrites_eq : written (deviceOptionFields radioUpdate) =
    [("channel", "8"), ("htmode", "HE40"), ("disabled", "0")] := by
  simp [written, deviceOptionFields, radioUpdate, secondaryMeshChannel2G, secondaryMeshHTMode2G]

/-- No option is written twice. -/
theorem linkWrites_keys (link : MeshLink) : (linkWrites link).Pairwise fun w w' => w.1 ≠ w'.1 := by
  have hkeys : (ifaceOptionFields link.ifaceConfig).map Prod.fst =
      (ifaceOptionFields {}).map Prod.fst := rfl
  have hall : (ifaceOptionFields link.ifaceConfig).Pairwise fun w w' => w.1 ≠ w'.1 := by
    rw [← List.pairwise_map (R := (· ≠ ·)), hkeys]
    decide
  exact List.Pairwise.filter _ hall

end Link

/-! ## What a write changes -/

/-- What may be found in the file once the routine has written. -/
structure Effect (c : Uci.Config) (link : MeshLink) (d : Uci.Config) : Prop where
  listed : d.refs "wifi-iface" =
    c.refs "wifi-iface" ++ if c.find link.section = none then [link.section] else []
  other : ∀ i ∈ c.refs "wifi-iface", i ≠ link.section → ∀ o, d.get i o = c.get i o
  own : ∀ o, o ≠ "disabled" → d.get link.section o =
    ((lastWrite (linkWrites link) o).map fun v => [v]).getD (c.get link.section o)
  disabled : d.get link.section "disabled" = [] ∨
    d.get link.section "disabled" = c.get link.section "disabled"
  elsewhere : ∀ r ∈ c.refs "wifi-device", r ≠ link.radio → ∀ o ∈ tuning, d.get r o = c.get r o
  radio : ∀ o ∈ tuning, d.get link.radio o = c.get link.radio o ∨
    o = "channel" ∧ d.get link.radio o = [secondaryMeshChannel2G] ∨
    o = "htmode" ∧ d.get link.radio o = [secondaryMeshHTMode2G]

section Effects

variable {c d : Uci.Config} {radio o : String} {mesh : UCIWirelessIface}

/-- The section of the link is listed under its type. -/
theorem section_mem_linked (c : Uci.Config) (radio : String) (mesh : UCIWirelessIface) :
    ∃ type, (linkOf radio mesh).section ∈ (linked c (linkOf radio mesh)).refs type := by
  have hfind : ((c.ensure (linkOf radio mesh).section "wifi-iface").find
      (linkOf radio mesh).section).isSome = true :=
    Uci.Config.find_ensure_isSome (plain_section radio mesh) (by decide)
  obtain ⟨s, hs⟩ := Option.isSome_iff_exists.1 hfind
  refine ⟨s.type, ?_⟩
  rw [linked, Uci.Config.refs_writes]
  exact (Uci.Config.name_mem_refs_iff (plain_section radio mesh) section_ne_empty).2 ⟨s, hs, rfl⟩

theorem mem_refs_linked (radio : String) (mesh : UCIWirelessIface) {i type : String}
    (hi : i ∈ c.refs type) :
    i ∈ (linked c (linkOf radio mesh)).refs type := by
  rw [linked, Uci.Config.refs_writes,
    Uci.Config.refs_ensure (plain_section _ _) section_ne_empty (by decide)]
  exact List.mem_append_left _ hi

theorem section_ne_radio : (linkOf radio mesh).section ≠ radio := by
  rw [section_linkOf]
  intro heq
  have hlen := congrArg (fun s => s.toList.length) heq
  simp only [String.toList_append, List.length_append] at hlen
  have hpos : 0 < "batmesh1_".toList.length := by decide
  omega

/-- **The interface is written.** -/
theorem effect_linked (c : Uci.Config) (radio : String) (mesh : UCIWirelessIface) :
    Effect c (linkOf radio mesh) (linked c (linkOf radio mesh)) := by
  obtain ⟨type, hsection⟩ := section_mem_linked c radio mesh
  have hfind : ((c.ensure (linkOf radio mesh).section "wifi-iface").find
      (linkOf radio mesh).section).isSome = true :=
    Uci.Config.find_ensure_isSome (plain_section radio mesh) (by decide)
  have hkeep : ∀ r, ∀ o ∈ tuning, (linked c (linkOf radio mesh)).get r o = c.get r o := by
    intro r o ho
    rw [linked, Uci.Config.get_writes_of_ne (linkWrites_ne_tuning ho), Uci.Config.get_ensure]
  refine ⟨?_, fun i hi hne o => ?_, fun o _ => ?_, .inr ?_, fun r _ _ => hkeep r,
    fun o ho => .inl (hkeep _ o ho)⟩
  · rw [linked, Uci.Config.refs_writes,
      Uci.Config.refs_ensure (plain_section _ _) section_ne_empty (by decide)]
    simp
  · have hi' := mem_refs_linked radio mesh hi
    rw [linked, Uci.Config.refs_writes] at hi' hsection
    rw [linked, Uci.Config.get_writes_of_ne_ref hi' hsection hne, Uci.Config.get_ensure]
  · rw [linked, Uci.Config.get_writes_self hfind, Uci.Config.get_ensure]
  · rw [linked, Uci.Config.get_writes_self hfind, Uci.Config.get_ensure]
    rw [lastWrite_disabled]
    rfl

/-- The radio is there already, and is not added. -/
theorem inService_eq (hradio : radio ∈ c.refs "wifi-device") :
    inService c (linkOf radio mesh) =
      ((linked c (linkOf radio mesh)).update (linkOf radio mesh).section
        fun o => o.erase "disabled").writes radio
          [("channel", secondaryMeshChannel2G), ("htmode", secondaryMeshHTMode2G),
            ("disabled", "0")] := by
  have hradio' : radio ∈ ((linked c (linkOf radio mesh)).update (linkOf radio mesh).section
      fun o => o.erase "disabled").refs "wifi-device" := by
    rw [Uci.Config.refs_update]
    exact mem_refs_linked radio mesh hradio
  obtain ⟨e, he, -, href⟩ := Uci.Config.mem_refs.1 hradio'
  have hfind := Uci.Config.find_ownRef he
  rw [href] at hfind
  show Uci.Config.writes (Uci.Config.ensure _ radio _) radio
    (written (deviceOptionFields radioUpdate)) = _
  rw [radioWrites_eq, Uci.Config.ensure_of_find (by rw [hfind]; rfl)]
  rfl

theorem get_inService_radio (mesh : UCIWirelessIface) (hradio : radio ∈ c.refs "wifi-device") :
    (inService c (linkOf radio mesh)).get radio "channel" = [secondaryMeshChannel2G] ∧
      (inService c (linkOf radio mesh)).get radio "htmode" = [secondaryMeshHTMode2G] ∧
      (inService c (linkOf radio mesh)).get radio "country" = c.get radio "country" := by
  have hfind : (((linked c (linkOf radio mesh)).update (linkOf radio mesh).section
      fun o => o.erase "disabled").find radio).isSome = true := by
    obtain ⟨e, he, -, href⟩ := Uci.Config.mem_refs.1 (mem_refs_linked radio mesh hradio)
    have hthere := Uci.Config.find_ownRef he
    rw [href] at hthere
    rw [Uci.Config.find_update_isSome, hthere]
    rfl
  have hcountry : ((linked c (linkOf radio mesh)).update (linkOf radio mesh).section
      fun o => o.erase "disabled").get radio "country" = c.get radio "country" := by
    rw [Uci.Config.get_update_of_lookup (fun _ => AList.lookup_erase_ne (by decide)), linked,
      Uci.Config.get_writes_of_ne (linkWrites_ne_tuning (by decide)), Uci.Config.get_ensure]
  rw [inService_eq hradio, Uci.Config.get_writes_self hfind, Uci.Config.get_writes_self hfind,
    Uci.Config.get_writes_self hfind, hcountry]
  exact ⟨rfl, rfl, rfl⟩

/-- The last edit, of the radio, is seen at the radio alone. -/
theorem get_inService_of_ne {i type : String} (hradio : radio ∈ c.refs "wifi-device")
    (hi : i ∈ (linked c (linkOf radio mesh)).refs type) (hne : i ≠ radio) :
    (inService c (linkOf radio mesh)).get i o =
      ((linked c (linkOf radio mesh)).update (linkOf radio mesh).section
        fun o => o.erase "disabled").get i o := by
  rw [← Uci.Config.refs_update _ (linkOf radio mesh).section (fun o => o.erase "disabled")] at hi
  have hradio' := mem_refs_linked radio mesh hradio
  rw [← Uci.Config.refs_update _ (linkOf radio mesh).section (fun o => o.erase "disabled")]
    at hradio'
  rw [inService_eq hradio, Uci.Config.get_writes_of_ne_ref hi hradio' hne]

theorem get_inService_disabled (hradio : radio ∈ c.refs "wifi-device") :
    (inService c (linkOf radio mesh)).get (linkOf radio mesh).section "disabled" = [] := by
  obtain ⟨type, hsection⟩ := section_mem_linked c radio mesh
  obtain ⟨e, he, -, href⟩ := Uci.Config.mem_refs.1 hsection
  have hfind := Uci.Config.find_ownRef he
  rw [href] at hfind
  rw [get_inService_of_ne hradio hsection section_ne_radio, Uci.Config.get_update_self hfind,
    AList.lookup_erase]
  rfl

/-- **The link is in service.** -/
theorem effect_inService (mesh : UCIWirelessIface) (hradio : radio ∈ c.refs "wifi-device") :
    Effect c (linkOf radio mesh) (inService c (linkOf radio mesh)) := by
  obtain ⟨type, hsection⟩ := section_mem_linked c radio mesh
  have hwritten := effect_linked c radio mesh
  have hrefs : ∀ t, (inService c (linkOf radio mesh)).refs t =
      (linked c (linkOf radio mesh)).refs t := by
    intro t
    rw [inService_eq hradio, Uci.Config.refs_writes, Uci.Config.refs_update]
  -- away from the radio and the section's own mark, the last two edits are not seen
  have hsame : ∀ i t o, i ∈ (linked c (linkOf radio mesh)).refs t → i ≠ radio →
      o ≠ "disabled" → (inService c (linkOf radio mesh)).get i o =
        (linked c (linkOf radio mesh)).get i o := by
    intro i t o hi hne ho
    rw [get_inService_of_ne hradio hi hne,
      Uci.Config.get_update_of_lookup (fun _ => AList.lookup_erase_ne ho)]
  refine ⟨?_, fun i hi hne o => ?_, fun o ho => ?_, .inl (get_inService_disabled hradio),
    fun r hr hne o ho => ?_, fun o ho => ?_⟩
  · rw [hrefs, hwritten.listed]
  · have hi' := mem_refs_linked radio mesh hi
    have hapart : i ≠ radio := by
      rintro rfl
      exact absurd (Uci.Config.type_of_mem_refs hi hradio) (by decide)
    rw [get_inService_of_ne hradio hi' hapart, Uci.Config.get_update_of_ne_ref hi' hsection hne]
    exact hwritten.other i hi hne o
  · rw [hsame _ type o hsection section_ne_radio ho]
    exact hwritten.own o ho
  · have hdisabled : o ≠ "disabled" := by
      rintro rfl
      exact absurd ho (by decide)
    rw [hsame r "wifi-device" o (mem_refs_linked radio mesh hr) hne hdisabled]
    exact hwritten.elsewhere r hr hne o ho
  · obtain ⟨hchannel, hhtmode, hcountry⟩ := get_inService_radio mesh hradio
    simp only [tuning, List.mem_cons, List.not_mem_nil, or_false] at ho
    rcases ho with rfl | rfl | rfl
    · exact .inr (.inl ⟨rfl, hchannel⟩)
    · exact .inr (.inr ⟨rfl, hhtmode⟩)
    · exact .inl hcountry

/-- What the section of the link reads, whatever it was before. -/
theorem Effect.credentials (he : Effect c (linkOf radio mesh) d) (hr : radio ≠ "")
    (hm : mesh.meshID ≠ "") :
    d.get (linkOf radio mesh).section "device" = [radio] ∧
      firstOf d (linkOf radio mesh).section "mode" = "mesh" ∧
      firstOf d (linkOf radio mesh).section "mesh_id" = mesh.meshID ∧
      firstOf d (linkOf radio mesh).section "key" =
        if mesh.key = "" then firstOf c (linkOf radio mesh).section "key" else mesh.key := by
  obtain ⟨hdevice, hmode, hid, hkey⟩ := lastWrite_linkWrites hr hm
  have hown := he.own
  simp only [firstOf]
  rw [hown "device" (by decide), hown "mode" (by decide), hown "mesh_id" (by decide),
    hown "key" (by decide), hdevice, hmode, hid, hkey]
  refine ⟨rfl, rfl, rfl, ?_⟩
  split <;> rfl

end Effects

/-! ## Whole runs -/

section Runs

variable {w : Radios} {h : Host} {c : Uci.Config} {radio : String} {mesh : UCIWirelessIface}

/-- Ensure, write and commit: the file holds what it held, or what is
meant. -/
theorem ends_setWirelessConfig {name type : String} {fields : List (String × String)}
    {c' : Uci.Config} {v : String × String} {vs : List (String × String)}
    (hthere : ((c'.ensure name type).find name).isSome = true)
    (hfields : written fields = v :: vs) (hs : Staged "wireless" c c' h) :
    Ends "wireless" (setWirelessConfig name type fields) h
      (fun _ h' => Held "wireless" ((c'.ensure name type).writes name (v :: vs)) h')
      fun d => d = c ∨ d = (c'.ensure name type).writes name (v :: vs) := by
  unfold setWirelessConfig
  rw [hfields, ← bind_assoc]
  refine ((hs.ends_put hthere vs).mono (fun _ _ hs' => hs') fun d hd => .inl hd).bind
    fun _ h' hs' => hs'.ends_commit.saying

/-- **The link is written**: the file holds the config as it was, with the
interface of the link, or with the link in service. -/
theorem writeLink_ends (hradio : radio ∈ c.refs "wifi-device") (hm : mesh.meshID ≠ "")
    (hs : Held "wireless" c h) :
    Ends "wireless" (writeLink (linkOf radio mesh)) h
      (fun _ h' => Held "wireless" (inService c (linkOf radio mesh)) h')
      fun d => d = c ∨ d = linked c (linkOf radio mesh) ∨ d = inService c (linkOf radio mesh) := by
  have hr : radio ≠ "" := Uci.Config.ne_empty_of_mem_refs hradio
  obtain ⟨v, vs, hfields⟩ : ∃ v vs, linkWrites (linkOf radio mesh) = v :: vs := by
    rw [linkWrites_linkOf hr hm]
    exact ⟨_, _, rfl⟩
  have hadded : ((c.ensure (linkOf radio mesh).section "wifi-iface").find
      (linkOf radio mesh).section).isSome = true :=
    Uci.Config.find_ensure_isSome (plain_section radio mesh) (by decide)
  have hiface := ends_setWirelessConfig hadded hfields hs
  rw [← hfields] at hiface
  refine (hiface.mono (fun _ _ hs' => hs') ?_).saying.bind fun _ h₁ hs₁ => ?_
  · rintro d (rfl | rfl)
    · exact .inl rfl
    · exact .inr (.inl rfl)
  obtain ⟨type, hsection⟩ := section_mem_linked c radio mesh
  have hfind := Uci.Config.find_of_mem_refs hsection
  have hdel := hs₁.ends_editSection (f := fun o => o.erase "disabled")
    (Option.isSome_iff_ne_none.2 hfind)
  refine (hdel.mono (fun _ _ hs' => hs') ?_).saying.bind fun _ h₂ hs₂ => ?_
  · rintro d rfl
    exact .inr (.inl rfl)
  have hradio' : radio ∈ ((linked c (linkOf radio mesh)).update (linkOf radio mesh).section
      fun o => o.erase "disabled").refs "wifi-device" := by
    rw [Uci.Config.refs_update]
    exact mem_refs_linked radio mesh hradio
  have hthere := Option.isSome_iff_ne_none.2 (Uci.Config.find_of_mem_refs hradio')
  have hensure : ((((linked c (linkOf radio mesh)).update (linkOf radio mesh).section
      fun o => o.erase "disabled").ensure radio "wifi-device").find radio).isSome = true := by
    rw [Uci.Config.ensure_of_find hthere]
    exact hthere
  refine ((ends_setWirelessConfig hensure radioWrites_eq hs₂).mono
    (fun _ _ hs' => ?_) ?_).saying
  · unfold inService
    rw [radioWrites_eq]
    exact hs'
  · rintro d (rfl | rfl)
    · exact .inr (.inl rfl)
    · refine .inr (.inr ?_)
      unfold inService
      rw [radioWrites_eq]
      rfl

theorem guards_setBatMesh1Configured : Within (Guards "wireless" c) setBatMesh1Configured := by
  refine within_bind (within_ignored ?_) fun _ => within_bind (within_saying ?_) fun _ =>
    within_saying guards_commit
  · have hadd : Within (Edits ["openmanetd"] ["openmanetd"])
        (addSection "openmanetd" "config" "openmanet") := within_addSection (by simp) (by simp)
    exact guards_of_edits hadd (by decide)
  · have hset : Within (Edits ["openmanetd"] [])
        (setType "openmanetd" "config" "batmesh1configured" ["1"]) := within_setType (by simp)
    exact guards_of_edits hset (by decide)

theorem Proceeds.mem_refs (hp : Proceeds w h.tree c radio mesh) : radio ∈ c.refs "wifi-device" := by
  obtain ⟨allInfo, status, -, -, hsole⟩ := hp.sole
  have hmem : radio ∈ (c.refs "wifi-device").filter (candidate c status allInfo) := by
    rw [hsole]
    exact List.mem_singleton_self _
  exact (List.mem_filter.1 hmem).1

/-- What the file holds once the routine has ended, under a pattern of
refusals. -/
def fileAfter (w : Radios) (h : Host) (fate : Fate) : Option Uci.Config :=
  (final (setupBatMesh1InterfaceWithDeps w) { h with fate := fate }).tree.disk "wireless"

/-- Where the routine does not get to the link, the file is as it was. -/
theorem fileAfter_of_not (hs : Held "wireless" c h)
    (hp : ∀ radio mesh, ¬ Proceeds w h.tree c radio mesh) (fate : Fate) :
    fileAfter w h fate = some c := by
  have hs' : Held "wireless" c { h with fate := fate } := ⟨hs.mem, hs.disk, .inl rfl⟩
  have hchoose := guards_chooseLink (c := c) w { h with fate := fate } hs'
  unfold fileAfter
  cases hrun : chooseLink w { h with fate := fate } with
  | error e h' =>
      rw [final_of_error hrun] at hchoose
      have hfail : setupBatMesh1InterfaceWithDeps w { h with fate := fate } = .error e h' :=
        bind_of_error hrun
      rw [final_of_error hfail]
      exact hchoose.disk
  | ok r h' =>
      obtain rfl : r = none := chooseLink_leaves hs' hp r h' hrun
      rw [final_of_ok hrun] at hchoose
      have hdone : setupBatMesh1InterfaceWithDeps w { h with fate := fate } = .ok () h' :=
        bind_of_ok hrun
      rw [final_of_ok hdone]
      exact hchoose.disk

/-- Where it does, the file is as it was, has the interface of the link, or
has the link in service; and it has that where no call is refused. -/
theorem fileAfter_of_proceeds (hs : Held "wireless" c h)
    (hp : Proceeds w h.tree c radio mesh) (fate : Fate) :
    ∃ d, fileAfter w h fate = some d ∧
      (d = c ∨ d = linked c (linkOf radio mesh) ∨ d = inService c (linkOf radio mesh)) ∧
      (fate.Smooth → d = inService c (linkOf radio mesh)) := by
  have hradio := hp.mem_refs
  have hs' : Held "wireless" c { h with fate := fate } := ⟨hs.mem, hs.disk, .inl rfl⟩
  rcases (chooseLink_ends hs' hp).cases with ⟨r, h₁, hrun, ⟨rfl, hs₁⟩, hfate⟩ |
    ⟨e, h₁, hrun, hrough, d, hd, rfl⟩
  · have hnext : setupBatMesh1InterfaceWithDeps w { h with fate := fate } =
        (writeLink (linkOf radio mesh) >>= fun _ =>
          saying "mark batmesh1 configured" setBatMesh1Configured) h₁ := bind_of_ok hrun
    unfold fileAfter
    rcases (writeLink_ends hradio hp.named hs₁).cases with ⟨u, h₂, hrun', hs₂, -⟩ |
      ⟨e, h₂, hrun', hrough, d, hd, hR⟩
    · have hguards : Within (Guards "wireless" (inService c (linkOf radio mesh)))
          (saying "mark batmesh1 configured" setBatMesh1Configured) :=
        within_saying guards_setBatMesh1Configured
      have hmark := hguards h₂ hs₂
      refine ⟨inService c (linkOf radio mesh), ?_, .inr (.inr rfl), fun _ => rfl⟩
      rw [← hmark.disk]
      congr 2
      unfold final
      rw [hnext, bind_of_ok hrun']
    · refine ⟨d, ?_, hR, fun hsmooth => absurd (hfate ▸ hsmooth) hrough⟩
      rw [← hd]
      congr 2
      unfold final
      rw [hnext, bind_of_error hrun']
  · refine ⟨d, ?_, .inl rfl, fun hsmooth => absurd hsmooth hrough⟩
    have hfail : setupBatMesh1InterfaceWithDeps w { h with fate := fate } = .error e h₁ :=
      bind_of_error hrun
    unfold fileAfter
    rw [final_of_error hfail]
    exact hd

end Runs

end Mgmt

end OpenManet
