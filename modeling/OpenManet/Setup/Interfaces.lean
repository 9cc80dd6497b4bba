import OpenManet.Setup.Credentials
/-!
# Which interfaces are up

After a run that ends well the HaLow radios carry mesh interfaces only. The
interfaces that are not disabled are those the profile enables, unless a
section of another type bears one of their names: the section is then
written to all the same, and is no interface.
-/

namespace OpenManet

namespace Setup

open Uci Fallible Network

variable {S : Service} {W : World} {p : MeshNodeProfile} {n : String}

/-- The interfaces, as they are listed. -/
def ifaceRefs (t : Tree) : List String :=
  match t.mem "wireless" with
  | some c => c.refs "wifi-iface"
  | none => []

/-- The interface is not disabled. -/
def Up (t : Tree) (ref : String) : Prop :=
  ref ∈ ifaceRefs t ∧ (t.get "wireless" ref "disabled").head? ≠ some "1"

/-- The interfaces on HaLow radios are mesh interfaces. -/
def MeshOnly (t : Tree) : Prop :=
  ∀ ref ∈ ifaceRefs t, ∀ dev ∈ halowRadios t,
    (t.get "wireless" ref "device").head? = some dev →
      (t.get "wireless" ref "mode").head? = some "mesh"

/-- Every interface has a name. -/
def NamedIfaces (t : Tree) : Prop :=
  ∀ c, t.mem "wireless" = some c → ∀ s ∈ c.sections, s.type = "wifi-iface" → s.name ≠ ""

/-! ## Names -/

/-- Where every interface has a name, they are listed by their names. -/
theorem mem_ifaceRefs_iff {t : Tree} (hnamed : NamedIfaces t) :
    n ∈ ifaceRefs t ↔ Plain n ∧ n ≠ "" ∧ t.kind "wireless" n = some "wifi-iface" := by
  unfold ifaceRefs
  cases hmem : t.mem "wireless" with
  | none => simp [Tree.kind, hmem]
  | some c =>
      rw [Tree.kind_of_mem hmem]
      constructor
      · intro hin
        obtain ⟨e, he, htype, hown⟩ := Config.mem_refs.1 hin
        have hname := hnamed c hmem e.2 (Config.mem_of_entries he) htype
        rw [Config.ownRef_of_named hname] at hown
        rw [← hown]
        have hplain := c.plain _ (Config.mem_of_entries he)
        refine ⟨hplain, hname, ?_⟩
        rw [(Config.find_eq_some_iff hplain hname).2 ⟨Config.mem_of_entries he, rfl⟩]
        simp [htype]
      · rintro ⟨hplain, hne, hkind⟩
        rw [Config.name_mem_refs_iff hplain hne]
        simpa using hkind

/-- The bound of programs that make no nameless interface. -/
def Naming : Bound Host where
  rel h h' := NamedIfaces h.tree → NamedIfaces h'.tree
  refl _ h := h
  trans h h' := fun hn => h' (h hn)

theorem naming_getSections {config type : String} : Within Naming (getSections config type) := by
  refine within_call (fun _ _ h => h) fun h tick a t hok => ?_
  obtain ⟨c, -, -, rfl⟩ := getSections_ok hok
  exact fun h => h

theorem naming_editSection {ref : String} {f : Table (List String) → Table (List String)} :
    Within Naming (editSection "wireless" ref f) := by
  refine within_call (fun _ _ h => h) fun h tick a t hok hnamed => ?_
  cases hmem : h.tree.mem "wireless" with
  | none => simp [hmem] at hok
  | some c =>
      simp only [hmem] at hok
      split at hok
      · obtain rfl : h.tree.stage "wireless" (c.update ref f) = t := by simpa using hok
        intro c' hc' s hs
        obtain rfl : c.update ref f = c' := Option.some.inj ((Tree.stage_mem _ _ _).symm.trans hc')
        obtain ⟨e, he, rfl⟩ := List.mem_map.1 hs
        have hold := hnamed c hmem e.2 (Config.mem_of_entries he)
        split
        · exact hold
        · exact hold
      · cases hok

theorem naming_delSection {ref : String} : Within Naming (delSection "wireless" ref) := by
  refine within_call (fun _ _ h => h) fun h tick a t hok hnamed => ?_
  cases hmem : h.tree.mem "wireless" with
  | none => simp [hmem] at hok
  | some c =>
      obtain rfl : h.tree.stage "wireless" (c.erase ref) = t := by simpa [hmem] using hok
      intro c' hc' s hs
      obtain rfl : c.erase ref = c' := Option.some.inj ((Tree.stage_mem _ _ _).symm.trans hc')
      exact hnamed c hmem s (Config.mem_of_mem_erase hs)

theorem naming_addSection {name : String} (hname : name ≠ "") :
    Within Naming (addSection "wireless" name "wifi-iface") := by
  refine within_call (fun _ _ h => h) fun h tick a t hok hnamed => ?_
  simp only at hok
  split at hok
  · split at hok
    · obtain rfl : h.tree = t := by simpa using hok
      exact hnamed
    · cases hok
  · obtain rfl : h.tree.stage "wireless" _ = t := by simpa using hok
    intro c' hc' s hs htype
    obtain rfl := Option.some.inj ((Tree.stage_mem _ _ _).symm.trans hc')
    rcases Config.mem_push hs with hold | hnew
    · cases hmem : h.tree.mem "wireless" with
      | none => simp [hmem, Config.empty] at hold
      | some c =>
          rw [hmem] at hold
          exact hnamed c hmem s hold htype
    · rw [hnew]
      exact hname

theorem naming_resetWireless : Within Naming resetWireless := by
  have hdel : ∀ ref option, option ∉ "type" :: ifaceOptions →
      Within Naming (del "wireless" ref option) := fun _ _ _ => naming_editSection
  have hcull : Within Naming removeNonMeshIfacesOnMorseDevices :=
    within_bind (within_saying naming_getSections) fun _ => within_bind within_tree fun _ =>
      within_ite (within_pure _) (within_bind (within_saying naming_getSections) fun _ =>
        within_forM fun _ => within_bind within_tree fun _ =>
          within_ite (within_saying naming_delSection) (within_pure _))
  have hoff : Within Naming disableAllInterfaces :=
    within_bind (within_saying naming_getSections) fun _ => within_forM fun _ =>
      within_saying naming_editSection
  exact within_bind (within_saying naming_getSections) fun _ =>
    within_bind (within_forM fun dev => within_whitelistDevice hdel dev) fun _ =>
      within_bind hcull fun _ => within_bind (within_saying naming_getSections) fun _ =>
        within_bind (within_forM fun iface => within_whitelistIface hdel iface) fun _ => hoff

theorem naming_writers :
    (∀ p, Within Naming (wirelessMesh p)) ∧ (∀ ap, Within Naming (writeAPIface ap)) ∧
      (∀ radio bh, Within Naming (writeMeshBackhaulIface radio bh)) ∧
      ∀ w, Within Naming (writeSTAIface w) :=
  within_writers (fun _ _ _ => naming_editSection) fun _ hname => naming_addSection hname

theorem naming_perRadioAPSta : Within Naming (perRadioAPSta p) := by
  refine within_bind (within_forM fun ap => within_bind (naming_writers.2.1 ap) fun _ => ?_)
    fun _ => ?_
  · split
    · exact within_pure _
    · exact naming_writers.2.2.1 _ _
  · split
    · exact naming_writers.2.2.2 _
    · exact within_pure _

/-! ## The wireless config at the end -/

theorem radios_congr {t t' : Tree} (h : t'.mem "wireless" = t.mem "wireless") :
    radios t' = radios t := by
  rw [radios, radios, h]

theorem namedIfaces_congr {t t' : Tree} (h : t'.mem "wireless" = t.mem "wireless")
    (hnamed : NamedIfaces t) : NamedIfaces t' := by
  unfold NamedIfaces at *
  rwa [h]

/-- **Every phase keeps the radios**, however it ends. -/
theorem radios_mutationPhases {ph : Phase × String × Prog Unit} (hph : ph ∈ S.mutationPhases p) :
    Within (Looks radios) ph.2.2 := by
  have happart : ∀ {m : Prog Unit}, Within (Looks wirelessConfig) m → Within (Looks radios) m :=
    fun hm h => radios_congr (hm h)
  have hentries : Within (Looks radios) (perRadioAPSta p) := by
    refine within_bind (within_forM fun ap => looks_radios_writeRadio ap) fun _ => ?_
    split
    · exact looks_radios_writers.2.2.2 _
    · exact within_pure _
  obtain ⟨wnet, whost, wtz, wbase, wscen, wbat, wsd⟩ := wireless_apart (S := S) (p := p)
  simp only [Service.mutationPhases, Service.editPhases, List.cons_append, List.nil_append,
    List.mem_cons, List.not_mem_nil, or_false] at hph
  rcases hph with rfl | rfl | rfl | rfl | rfl | rfl | rfl | rfl | rfl | rfl | rfl
  · exact radios_resetWireless
  · exact happart wnet
  · exact happart whost
  · exact happart wtz
  · exact happart wbase
  · exact looks_radios_writers.1 p
  · exact hentries
  · exact happart wscen
  · exact happart wbat
  · exact happart wsd
  · exact happart looks_wireless_commit

theorem radios_of_bodies {h h' : Host} (hrun : bodies (S.mutationPhases p) h = .ok () h') :
    radios h'.tree = radios h.tree := by
  have hall : Within (Looks radios) (bodies (S.mutationPhases p)) :=
    within_forM_of_mem fun ph hph => radios_mutationPhases hph
  exact hall.ok hrun

theorem named_of_bodies {h h' : Host} (hrun : bodies (S.mutationPhases p) h = .ok () h')
    (hnamed : NamedIfaces h.tree) : NamedIfaces h'.tree := by
  obtain ⟨h₁, h₂, h₃, h₄, hreset, hsame, hmesh, hradio, hend⟩ := wireless_of_bodies hrun
  have hstart := naming_resetWireless.ok hreset hnamed
  have hmiddle := (naming_writers.1 p).ok hmesh (namedIfaces_congr hsame hstart)
  exact namedIfaces_congr hend (naming_perRadioAPSta.ok hradio hmiddle)

/-- What a run leaves of a named section: the patches of its name, over what
the reset left of it. -/
structure Landed (p : MeshNodeProfile) (n : String) (t t' : Tree) : Prop where
  options : ∀ o ∈ ifaceOptions, t'.get "wireless" n o = readsAll (patches p) n o (kept t n o)
  kind : t'.kind "wireless" n =
    kindAll (patches p) n (if doomed t n then none else t.kind "wireless" n)
  /-- Of an interface. -/
  disabled : t'.kind "wireless" n = some "wifi-iface" →
    (n ∉ (patches p).map Patch.name → t'.get "wireless" n "disabled" = ["1"]) ∧
    ∀ q ∈ patches p, q.name = n → t'.get "wireless" n "disabled" = q.reads n "disabled" []

theorem landed_of_bodies {mesh : MeshRadioConfig} {t : Tree} (hv : Validated t p mesh) {h h' : Host}
    (hlisted : ∀ ap ∈ p.aps, ap.meshBackhaul ≠ none → ap.radioName ∈ radioRefs h.tree)
    (hrun : bodies (S.mutationPhases p) h = .ok () h') (hn : Plain n) (hne : n ≠ "") :
    Landed p n h.tree h'.tree := by
  obtain ⟨h₁, h₂, hreset, hsame, hmade⟩ := made_of_bodies hv hlisted hrun hn hne
  obtain ⟨hculled, hoff⟩ := leaves_resetWireless hn hne h _ _ hreset
  unfold Culled at hculled
  refine ⟨fun o ho => ?_, ?_, fun hkind => ?_⟩
  · rw [hmade.options o ho, get_congr hsame]
    congr 1
    unfold kept
    by_cases hd : doomed h.tree n = true
    · rw [if_pos hd] at hculled ⊢
      exact Tree.get_of_kind hculled
    · rw [if_neg hd] at hculled ⊢
      exact hculled.1 o ho
  · rw [hmade.kind, kind_congr hsame]
    congr 1
    split at hculled
    · next hd => rw [hculled, if_pos hd]
    · next hd => rw [hculled.2, if_neg hd]
  · have hread := hmade.disabled.resolve_right fun hdev => by
      rw [hkind] at hdev
      exact absurd hdev.2 (by decide)
    refine ⟨fun hfree => ?_, fun q hq hname => ?_⟩
    · rw [hread, readsAll_of_not_mem hfree, get_congr hsame]
      refine hoff ?_
      have hkept := hmade.kind
      rw [kindAll, if_neg hfree, kind_congr hsame] at hkept
      rw [← hkept, hkind]
    · subst hname
      rw [hread, readsAll_of_mem (patches_distinct hv) hq]
      have hdecides : Decides q := decides_patches hq
      exact reads_decided hdecides _ _

/-! ## What is up -/

theorem isMorse_of_halow {t : Tree} {dev : String} (h : dev ∈ halowRadios t) :
    isMorseDevice t dev = true := by
  unfold halowRadios at h
  cases hmem : t.mem "wireless" with
  | none => simp [hmem] at h
  | some c =>
      rw [hmem] at h
      exact (List.mem_filter.1 h).2

/-- The checks keep what is no HaLow radio apart. -/
theorem not_halow {t : Tree} {radio : String} (hname : radio ≠ "")
    (h : radioExistsAsMorse t radio = false) : radio ∉ halowRadios t := by
  intro hin
  rw [radioExistsAsMorse, isMorse_of_halow hin] at h
  simp [hname] at h

theorem mem_patches {q : Patch} (h : q ∈ patches p) :
    q ∈ enabledPatches p ∨ ∃ ap ∈ p.aps, ap.enabled = false ∧ q = apPatch ap := by
  unfold patches at h
  simp only [List.mem_append, Option.mem_toList, Option.map_eq_some_iff, List.mem_flatMap] at h
  rcases h with (⟨mesh, hm, rfl⟩ | ⟨ap, hap, hq⟩) | ⟨w, hw, rfl⟩
  · exact .inl (mem_enabledPatches.2 (.inl ⟨mesh, hm, rfl⟩))
  · rcases mem_radioPatches.1 hq with rfl | ⟨bh, hbh, rfl⟩
    · cases hen : ap.enabled with
      | true => exact .inl (mem_enabledPatches.2 (.inr (.inl ⟨ap, hap, hen, rfl⟩)))
      | false => exact .inr ⟨ap, hap, hen, rfl⟩
    · exact .inl (mem_enabledPatches.2 (.inr (.inr (.inl ⟨ap, hap, bh, hbh, rfl⟩))))
  · exact .inl (mem_enabledPatches.2 (.inr (.inr (.inr ⟨w, hw, rfl⟩))))

/-- A written option reads as it was written. -/
theorem reads_of_write {q : Patch} {o v : String} (hclear : o ∉ q.clears)
    (hwrite : lastWrite q.sets o = some v) (old : List String) : q.reads q.name o old = [v] := by
  unfold Patch.reads
  rw [if_pos rfl, if_neg hclear, hwrite]

/-- An interface of the profile is a mesh interface, or on a radio that is
no HaLow radio. -/
theorem mesh_or_elsewhere {t : Tree} {mesh : MeshRadioConfig} (hv : Validated t p mesh) {q : Patch}
    (hq : q ∈ patches p) :
    (∀ old, q.reads q.name "mode" old = ["mesh"]) ∨
      ∃ radio, radio ∉ halowRadios t ∧ ∀ old, q.reads q.name "device" old = [radio] := by
  have hap : ∀ ap ∈ p.aps, ∃ radio, radio ∉ halowRadios t ∧
      ∀ old, (apPatch ap).reads (apPatch ap).name "device" old = [radio] := by
    intro ap hap
    obtain ⟨hname, -, hmorse⟩ := hv.entry ap hap
    refine ⟨ap.radioName, not_halow hname hmorse, reads_of_write ?_ ?_⟩
    · unfold apPatch
      split <;> simp
    · unfold apPatch
      have hcred : lastWrite (nonEmpty (apCredentialWrites ap)) "device" = none :=
        lastWrite_nonEmpty_none rfl
      split
      · rw [lastWrite_append, hcred]
        rfl
      · rfl
  rcases mem_patches hq with hen | ⟨ap, hin, -, rfl⟩
  · rcases mem_enabledPatches.1 hen with ⟨m, hm, rfl⟩ | ⟨ap, hin, -, rfl⟩ | ⟨ap, -, bh, -, rfl⟩ |
      ⟨w, hw, rfl⟩
    · exact .inl (reads_of_write (by simp [meshPatch]) (lastWrite_nonEmpty (by decide) rfl))
    · exact .inr (hap ap hin)
    · exact .inl (reads_of_write (by simp [backhaulPatch]) rfl)
    · obtain ⟨hname, hmorse⟩ := hv.sta w hw
      exact .inr ⟨w.radioName, not_halow hname hmorse,
        reads_of_write (by simp [staPatch]) (lastWrite_nonEmpty hname rfl)⟩
  · exact .inr (hap ap hin)

theorem meshOnly_of_landed {t t' : Tree} {mesh : MeshRadioConfig} (hv : Validated t p mesh)
    (hnamed : NamedIfaces t') (hradios : halowRadios t' = halowRadios t)
    (hland : ∀ n, Plain n → n ≠ "" → Landed p n t t') : MeshOnly t' := by
  intro ref href dev hdev hon
  obtain ⟨hplain, hne, hkind⟩ := (mem_ifaceRefs_iff hnamed).1 href
  have hl := hland ref hplain hne
  rw [hl.options "device" (by decide)] at hon
  rw [hl.options "mode" (by decide)]
  rw [hradios] at hdev
  by_cases hin : ref ∈ (patches p).map Patch.name
  · obtain ⟨q, hq, rfl⟩ := List.mem_map.1 hin
    rw [readsAll_of_mem (patches_distinct hv) hq] at hon ⊢
    rcases mesh_or_elsewhere hv hq with hmode | ⟨radio, hother, hdevice⟩
    · rw [hmode]
      rfl
    · rw [hdevice] at hon
      obtain rfl : radio = dev := Option.some.inj hon
      exact absurd hdev hother
  · rw [readsAll_of_not_mem hin] at hon ⊢
    have hkept := hl.kind
    rw [kindAll, if_neg hin, hkind] at hkept
    -- an interface that the reset left where it was is a mesh interface
    have hsafe : ¬ doomed t ref = true := by
      intro hd
      rw [if_pos hd] at hkept
      cases hkept
    rw [if_neg hsafe] at hkept
    rw [kept, if_neg hsafe] at hon ⊢
    have hmesh : nonMeshOn (halowRadios t) t ref ≠ true := fun h =>
      hsafe (doomed_iff.2 ⟨hkept.symm, h⟩)
    unfold nonMeshOn at hmesh
    cases hget : t.get "wireless" ref "device" with
    | nil => simp [hget] at hon
    | cons d rest =>
        obtain rfl : d = dev := by simpa [hget] using hon
        simpa [hget, hdev] using hmesh

/-- An interface that is up is one the profile enables. -/
theorem enabled_of_up {t t' : Tree} (hnamed : NamedIfaces t')
    (hland : ∀ n, Plain n → n ≠ "" → Landed p n t t') {ref : String}
    (hup : Up t' ref) : ref ∈ (enabledPatches p).map Patch.name := by
  obtain ⟨hplain, hne, hkind⟩ := (mem_ifaceRefs_iff hnamed).1 hup.1
  obtain ⟨hfree, hpatched⟩ := (hland ref hplain hne).disabled hkind
  by_cases hin : ref ∈ (patches p).map Patch.name
  · obtain ⟨q, hq, rfl⟩ := List.mem_map.1 hin
    rcases mem_patches hq with hen | ⟨ap, -, hen, rfl⟩
    · exact List.mem_map_of_mem hen
    · refine absurd ?_ hup.2
      rw [hpatched _ hq rfl, reads_of_write (v := "1")]
      · rfl
      · simp [apPatch, hen]
      · simp [apPatch, hen, lastWrite_append, lastWrite]
  · refine absurd ?_ hup.2
    rw [hfree hin]
    rfl

theorem up_iff_of_landed {t t' : Tree} (hnamed : NamedIfaces t')
    (hland : ∀ n, Plain n → n ≠ "" → Landed p n t t') {q : Patch}
    (hq : q ∈ enabledPatches p) :
    Up t' q.name ↔ ∀ k, t.kind "wireless" q.name = some k → k = "wifi-iface" := by
  obtain ⟨hplain, hne⟩ := plain_of_enabled hq
  have hl := hland q.name hplain hne
  have hin : q.name ∈ (patches p).map Patch.name :=
    List.mem_map_of_mem (mem_patches_of_enabled hq)
  have hkind := hl.kind
  rw [kindAll, if_pos hin] at hkind
  have hiface : t'.kind "wireless" q.name = some "wifi-iface" ↔
      ∀ k, t.kind "wireless" q.name = some k → k = "wifi-iface" := by
    rw [hkind]
    by_cases hd : doomed t q.name = true
    · have hold := (doomed_iff.1 hd).1
      simp [hd, hold]
    · rw [if_neg hd]
      cases t.kind "wireless" q.name <;> simp
  rw [← hiface]
  constructor
  · intro hup
    exact ((mem_ifaceRefs_iff hnamed).1 hup.1).2.2
  · intro hk
    refine ⟨(mem_ifaceRefs_iff hnamed).2 ⟨hplain, hne, hk⟩, ?_⟩
    rw [(hl.disabled hk).2 q (mem_patches_of_enabled hq) rfl]
    simp [Patch.reads, clears_of_enabled hq]

/-- **Which interfaces are up.** On a device whose interfaces all have names,
a run that ends well leaves mesh interfaces only on the HaLow radios. What is
up is what the profile enables, exactly when no section of another type
bears one of those names. -/
theorem only_profile_ifaces_up_iff {d e : Device} (h : S.applySetup W (some p) d = .ok () e)
    (hnamed : NamedIfaces d.host.tree) :
    (MeshOnly e.host.tree ∧
        ∀ ref, Up e.host.tree ref ↔ ref ∈ (enabledPatches p).map Patch.name) ↔
      ∀ q ∈ enabledPatches p, ∀ k, d.host.tree.kind "wireless" q.name = some k →
        k = "wifi-iface" := by
  obtain ⟨⟨mesh, hv⟩, hlisted, g, g', hg, hbodies, hg'⟩ := bodies_of_applySetup h
  have hland : ∀ n, Plain n → n ≠ "" → Landed p n d.host.tree e.host.tree := by
    intro n hn hne
    have hl := landed_of_bodies hv (fun ap hap hbh => by
      rw [hg]
      exact hlisted ap hap hbh) hbodies hn hne
    rwa [hg, hg'] at hl
  have hend : NamedIfaces e.host.tree := by
    have hn := named_of_bodies hbodies (by rwa [hg])
    rwa [hg'] at hn
  have hradios : halowRadios e.host.tree = halowRadios d.host.tree := by
    have hr := halowRadios_congr (radios_of_bodies hbodies)
    rwa [hg', hg] at hr
  constructor
  · rintro ⟨-, hup⟩ q hq
    exact (up_iff_of_landed hend hland hq).1 ((hup q.name).2 (List.mem_map_of_mem hq))
  · intro hkinds
    refine ⟨meshOnly_of_landed hv hend hradios hland, fun ref => ?_⟩
    constructor
    · exact enabled_of_up hend hland
    · intro hin
      obtain ⟨q, hq, rfl⟩ := List.mem_map.1 hin
      exact (up_iff_of_landed hend hland hq).2 (hkinds q hq)

/-- The device with the access point of an earlier run. -/
theorem only_profile_ifaces_up_used :
    (MeshOnly (final (Bench.service.applySetup Bench.calm
          (some (Bench.withAP "net" "newsecret" .psk2))) Bench.used).host.tree ∧
        ∀ ref, Up (final (Bench.service.applySetup Bench.calm
          (some (Bench.withAP "net" "newsecret" .psk2))) Bench.used).host.tree ref ↔
            ref ∈ (enabledPatches (Bench.withAP "net" "newsecret" .psk2)).map Patch.name) ↔
      ∀ q ∈ enabledPatches (Bench.withAP "net" "newsecret" .psk2), ∀ k,
        Bench.used.host.tree.kind "wireless" q.name = some k → k = "wifi-iface" :=
  only_profile_ifaces_up_iff (ok_of_succeeds (by decide +kernel)) (by
    intro c hc
    obtain rfl := Option.some.inj hc
    decide +kernel)

/-- A HaLow radio, and a section of another type under the name of its mesh
interface. -/
def Bench.misnamed : Device :=
  Bench.device (Bench.files (Bench.config [Bench.sec "wifi-device" "radio1" [("type", "morse")],
    Bench.sec "wifi-vlan" "default_radio1" []] (by decide +kernel)) Bench.network
      (some Config.empty))

/-- The run ends well and leaves no interface at all. -/
theorem misnamed_section_leaves_no_mesh :
    let run := Bench.service.applySetup Bench.calm (some Bench.profile)
    succeeds run Bench.misnamed = true ∧
      "default_radio1" ∈ (enabledPatches Bench.profile).map Patch.name ∧
      ifaceRefs (final run Bench.misnamed).host.tree = [] := by
  decide +kernel

end Setup

end OpenManet
