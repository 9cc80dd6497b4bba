import OpenManet.Setup.Reset
import OpenManet.Setup.Checks
/-!
# Whose credentials an interface ends up with

After a run that ends well, an option of an interface the profile enables
has the value the profile writes. Where the profile writes none it has the
value it had before the run, unless the reset took the section: the writers
skip empty values, and the reset keeps the credentials it finds.
-/

namespace OpenManet

namespace Setup

open Uci Fallible Network

variable {S : Service} {W : World} {p : MeshNodeProfile} {n o : String}

/-! ## The wireless config through a run -/

/-- The reading of the whole wireless config. -/
def wirelessConfig (t : Tree) : Option Config := t.mem "wireless"

theorem looks_wireless_of_edits {m : Prog Unit} {cs born : List String}
    (hm : Within (Edits cs born) m) (hc : "wireless" ∉ cs) : Within (Looks wirelessConfig) m :=
  looks_of_edits hm hc fun _ _ h => h

theorem looks_wireless_commit : Within (Looks wirelessConfig) commit := by
  intro h
  unfold final commit
  cases hrefuse : h.fate.refuses h.tick with
  | true => simp [Looks, Tree.flush, wirelessConfig]
  | false => simp [Looks, Tree.flush, wirelessConfig]

/-- **The phases that leave the wireless config alone.** -/
theorem wireless_apart :
    Within (Looks wirelessConfig) S.resetNetwork ∧
      Within (Looks wirelessConfig) (S.writeHostname p) ∧
      Within (Looks wirelessConfig) (S.setTimezone p) ∧
      Within (Looks wirelessConfig) (S.baseNetwork p) ∧
      Within (Looks wirelessConfig) (S.scenarioTopology p) ∧
      Within (Looks wirelessConfig) (S.batmanAdv p) ∧ Within (Looks wirelessConfig) (mesh11sd p) := by
  exact ⟨looks_wireless_of_edits edits_resetNetwork (by decide), looks_wireless_of_edits edits_writeHostname (by decide),
    looks_wireless_of_edits edits_setTimezone (by decide), looks_wireless_of_edits edits_baseNetwork (by decide),
    looks_wireless_of_edits edits_scenarioTopology (by decide), looks_wireless_of_edits edits_batmanAdv (by decide),
    looks_wireless_of_edits edits_mesh11sd (by decide)⟩

/-- The phases that change the wireless config are three. -/
theorem wireless_of_bodies {h h' : Host} (hrun : bodies (S.mutationPhases p) h = .ok () h') :
    ∃ h₁ h₂ h₃ h₄, resetWireless h = .ok () h₁ ∧ h₂.tree.mem "wireless" = h₁.tree.mem "wireless" ∧
      wirelessMesh p h₂ = .ok () h₃ ∧ perRadioAPSta p h₃ = .ok () h₄ ∧
      h'.tree.mem "wireless" = h₄.tree.mem "wireless" := by
  obtain ⟨a₁, a₂, a₃, a₄, a₅, a₆, a₇, a₈, a₉, a₁₀, hreset, hnet, hhost, htz, hbase, hmesh, hradio,
    hscen, hbat, hsd, hcommit⟩ := states_of_bodies hrun
  obtain ⟨wnet, whost, wtz, wbase, wscen, wbat, wsd⟩ := wireless_apart (S := S) (p := p)
  have hbefore := (Looks wirelessConfig).trans (wnet.ok hnet)
    ((Looks wirelessConfig).trans (whost.ok hhost)
      ((Looks wirelessConfig).trans (wtz.ok htz) (wbase.ok hbase)))
  have hafter := (Looks wirelessConfig).trans (wscen.ok hscen)
    ((Looks wirelessConfig).trans (wbat.ok hbat)
      ((Looks wirelessConfig).trans (wsd.ok hsd) (looks_wireless_commit.ok hcommit)))
  exact ⟨a₁, a₅, a₆, a₇, hreset, hbefore, hmesh, hradio, hafter⟩

/-! ## Names -/

theorem default_ne_sta (r r' : String) : "default_" ++ r ≠ "sta_" ++ r' :=
  Text.append_ne_append (by decide) (by decide) (by decide) r r'

theorem default_ne_backhaul (r r' : String) : "default_" ++ r ≠ backhaulSection r' := by
  unfold backhaulSection
  rw [String.append_assoc]
  exact Text.append_ne_append (by decide) (by decide) (by decide) r _

theorem backhaul_ne_sta (r r' : String) : backhaulSection r ≠ "sta_" ++ r' := by
  unfold backhaulSection
  rw [String.append_assoc]
  exact Text.append_ne_append (by decide) (by decide) (by decide) _ r'

theorem backhaulSection_injective {r r' : String} (h : backhaulSection r = backhaulSection r') :
    r = r' := by
  unfold backhaulSection at h
  exact Text.append_right_injective h

@[simp] theorem apPatch_name (ap : RadioApProfile) : (apPatch ap).name = "default_" ++ ap.radioName := by
  unfold apPatch
  split <;> rfl

theorem mem_radioPatches {ap : RadioApProfile} {q : Patch} :
    q ∈ radioPatches ap ↔ q = apPatch ap ∨
      ∃ bh, ap.meshBackhaul = some bh ∧ q = backhaulPatch ap.radioName bh := by
  unfold radioPatches
  cases ap.meshBackhaul <;> simp

/-- The name of a patch of an entry. -/
theorem name_of_radioPatches {ap : RadioApProfile} {q : Patch} (h : q ∈ radioPatches ap) :
    q.name = "default_" ++ ap.radioName ∨ q.name = backhaulSection ap.radioName := by
  rcases mem_radioPatches.1 h with rfl | ⟨bh, -, rfl⟩
  · exact .inl (apPatch_name ap)
  · exact .inr rfl

/-- **No two patches of a validated profile are for the same section.** -/
theorem patches_distinct {t : Tree} {mesh : MeshRadioConfig} (hv : Validated t p mesh) :
    (patches p).Pairwise fun q q' => q.name ≠ q'.name := by
  have hone : ∀ {α : Type} (f : α → Patch) (x : Option α),
      ((x.map f).toList).Pairwise fun q q' => q.name ≠ q'.name := by
    intro α f x
    cases x <;> simp
  unfold patches
  rw [List.pairwise_append, List.pairwise_append, List.pairwise_flatMap]
  refine ⟨⟨hone meshPatch p.mesh, ⟨fun ap _ => ?_, ?_⟩, ?_⟩, hone staPatch (staOf p), ?_⟩
  · -- the access point of an entry and its backhaul
    unfold radioPatches
    rw [List.pairwise_cons]
    refine ⟨fun q hq => ?_, hone _ _⟩
    obtain ⟨bh, -, rfl⟩ : ∃ bh, ap.meshBackhaul = some bh ∧ backhaulPatch ap.radioName bh = q := by
      simpa using hq
    rw [apPatch_name]
    exact default_ne_backhaul _ _
  · -- two entries
    have hnames := hv.distinct
    rw [List.Nodup, List.pairwise_map] at hnames
    refine hnames.imp fun {ap ap'} hne q hq q' hq' => ?_
    rcases name_of_radioPatches hq with hn | hn <;> rcases name_of_radioPatches hq' with hn' | hn' <;>
      rw [hn, hn']
    · exact fun h => hne (Text.append_right_injective h)
    · exact default_ne_backhaul _ _
    · exact (default_ne_backhaul _ _).symm
    · exact fun h => hne (backhaulSection_injective h)
  · -- the mesh interface and an entry
    intro q hq q' hq'
    obtain ⟨ap, hap, hq'⟩ := List.mem_flatMap.1 hq'
    obtain rfl : q = meshPatch mesh := by simpa [hv.isMesh] using hq
    rcases name_of_radioPatches hq' with hn | hn <;> rw [hn]
    · exact fun h => (hv.entry ap hap).notMesh (Text.append_right_injective h).symm
    · exact default_ne_backhaul _ _
  · -- the station
    intro q hq q' hq'
    obtain ⟨w, -, rfl⟩ : ∃ w, staOf p = some w ∧ staPatch w = q' := by simpa using hq'
    rcases List.mem_append.1 hq with hq | hq
    · obtain rfl : q = meshPatch mesh := by simpa [hv.isMesh] using hq
      exact default_ne_sta _ _
    · obtain ⟨ap, -, hq⟩ := List.mem_flatMap.1 hq
      rcases name_of_radioPatches hq with hn | hn <;> rw [hn]
      · exact default_ne_sta _ _
      · exact backhaul_ne_sta _ _

/-! ## One patch among many -/

/-- A patch among others for other sections decides its own. -/
theorem readsAll_of_mem {qs : List Patch} (hd : qs.Pairwise fun q q' => q.name ≠ q'.name)
    {q : Patch} (hq : q ∈ qs) (old : List String) :
    readsAll qs q.name o old = q.reads q.name o old := by
  induction qs generalizing old with
  | nil => cases hq
  | cons a qs ih =>
      obtain ⟨hfirst, hrest⟩ := List.pairwise_cons.1 hd
      show readsAll qs q.name o (a.reads q.name o old) = q.reads q.name o old
      rcases List.mem_cons.1 hq with rfl | hq
      · refine readsAll_of_not_mem (fun hin => ?_) o _
        obtain ⟨b, hb, hname⟩ := List.mem_map.1 hin
        exact hfirst b hb hname.symm
      · have hskip : a.reads q.name o old = old := if_neg (hfirst q hq).symm
        rw [hskip, ih hrest hq]

/-! ## Interfaces that are up -/

/-- The interfaces a profile enables, each with what is written to it. -/
def enabledPatches (p : MeshNodeProfile) : List Patch :=
  (p.mesh.map meshPatch).toList ++ (p.aps.filter (·.enabled)).map apPatch
    ++ p.aps.filterMap (fun ap => ap.meshBackhaul.map (backhaulPatch ap.radioName))
    ++ ((staOf p).map staPatch).toList

theorem mem_enabledPatches {q : Patch} : q ∈ enabledPatches p ↔
    (∃ mesh, p.mesh = some mesh ∧ q = meshPatch mesh) ∨
      (∃ ap ∈ p.aps, ap.enabled = true ∧ q = apPatch ap) ∨
      (∃ ap ∈ p.aps, ∃ bh, ap.meshBackhaul = some bh ∧ q = backhaulPatch ap.radioName bh) ∨
      ∃ w, staOf p = some w ∧ q = staPatch w := by
  unfold enabledPatches
  simp only [List.mem_append, Option.mem_toList, Option.map_eq_some_iff,
    List.mem_map, List.mem_filter, List.mem_filterMap]
  grind

theorem mem_patches_of_enabled {q : Patch} (h : q ∈ enabledPatches p) : q ∈ patches p := by
  unfold patches
  simp only [List.mem_append, Option.mem_toList, Option.map_eq_some_iff,
    List.mem_flatMap]
  rcases mem_enabledPatches.1 h with ⟨mesh, hm, rfl⟩ | ⟨ap, hap, -, rfl⟩ | ⟨ap, hap, bh, hbh, rfl⟩ |
    ⟨w, hw, rfl⟩
  · exact .inl (.inl ⟨mesh, hm, rfl⟩)
  · exact .inl (.inr ⟨ap, hap, mem_radioPatches.2 (.inl rfl)⟩)
  · exact .inl (.inr ⟨ap, hap, mem_radioPatches.2 (.inr ⟨bh, hbh, rfl⟩)⟩)
  · exact .inr ⟨w, hw, rfl⟩

theorem clears_of_enabled {q : Patch} (h : q ∈ enabledPatches p) : q.clears = ["disabled"] := by
  rcases mem_enabledPatches.1 h with ⟨mesh, -, rfl⟩ | ⟨ap, -, hen, rfl⟩ | ⟨ap, -, bh, -, rfl⟩ |
    ⟨w, -, rfl⟩
  · rfl
  · rw [apPatch, if_pos hen]
  · rfl
  · rfl

theorem plain_of_enabled {q : Patch} (h : q ∈ enabledPatches p) : Plain q.name ∧ q.name ≠ "" := by
  rcases mem_enabledPatches.1 h with ⟨mesh, -, rfl⟩ | ⟨ap, -, hen, rfl⟩ | ⟨ap, -, bh, -, rfl⟩ |
    ⟨w, -, rfl⟩
  · exact ⟨plain_default _, default_ne_empty _⟩
  · rw [apPatch_name]
    exact ⟨plain_default _, default_ne_empty _⟩
  · exact ⟨plain_backhaulSection _, backhaulSection_ne_empty _⟩
  · exact ⟨plain_sta _, sta_ne_empty _⟩

/-- What is to be read of a sectionNames option before the first patch. -/
def kept (t : Tree) (n o : String) : List String :=
  if doomed t n then [] else t.get "wireless" n o

/-- What a run that ends well leaves of an option of an enabled interface. -/
def outcome (q : Patch) (o : String) (old : List String) : List String :=
  match lastWrite q.sets o with
  | some v => [v]
  | none => old

/-- **A run patches what the reset left.** -/
theorem made_of_bodies {t : Tree} {mesh : MeshRadioConfig} (hv : Validated t p mesh)
    {h h' : Host} (hlisted : ∀ ap ∈ p.aps, ap.meshBackhaul ≠ none → ap.radioName ∈ radioRefs h.tree)
    (hrun : bodies (S.mutationPhases p) h = .ok () h') (hn : Plain n) (hne : n ≠ "") :
    ∃ h₁ h₂, resetWireless h = .ok () h₁ ∧ h₂.tree.mem "wireless" = h₁.tree.mem "wireless" ∧
      Patchwork (patches p) n h₂ h' := by
  obtain ⟨h₁, h₂, h₃, h₄, hreset, hsame, hmesh, hradios, hend⟩ := wireless_of_bodies hrun
  have hkeep : radioRefs h₂.tree = radioRefs h.tree := by
    have hradio : radios h₂.tree = radios h₁.tree := by rw [radios, radios, hsame]
    rw [radioRefs, radioRefs, hradio, radios_resetWireless.ok hreset]
  have hmade := made_patches hv.isMesh (fun w hw => (hv.sta w hw).1) (fun ap hap hbh => by
    rw [hkeep]
    exact hlisted ap hap hbh) hmesh hradios n hn hne
  refine ⟨h₁, h₂, hreset, hsame, fun o ho => ?_, ?_, ?_⟩
  · rw [get_congr hend, hmade.options o ho]
  · rw [kind_congr hend, hmade.kind]
  · rw [get_congr hend, kind_congr hend]
    exact hmade.disabled

/-- **The options of an enabled interface after a run.** -/
theorem get_of_bodies {t : Tree} {mesh : MeshRadioConfig} (hv : Validated t p mesh)
    {h h' : Host} (hlisted : ∀ ap ∈ p.aps, ap.meshBackhaul ≠ none → ap.radioName ∈ radioRefs h.tree)
    (hrun : bodies (S.mutationPhases p) h = .ok () h') {q : Patch} (hq : q ∈ enabledPatches p) :
    (∀ o ∈ ifaceOptions,
      h'.tree.get "wireless" q.name o = outcome q o (kept h.tree q.name o)) ∧
      h'.tree.get "wireless" q.name "disabled" = [] := by
  obtain ⟨hplain, hne⟩ := plain_of_enabled hq
  obtain ⟨h₁, h₂, hreset, hsame, hmade⟩ := made_of_bodies hv hlisted hrun hplain hne
  have hculled := (leaves_resetWireless hplain hne h _ _ hreset).1
  have hclears := clears_of_enabled hq
  have hread : ∀ o old, readsAll (patches p) q.name o old = q.reads q.name o old := fun o old =>
    readsAll_of_mem (patches_distinct hv) (mem_patches_of_enabled hq) old
  constructor
  · intro o ho
    have hafter : h₁.tree.get "wireless" q.name o = kept h.tree q.name o := by
      unfold kept
      unfold Culled at hculled
      by_cases hd : doomed h.tree q.name = true
      · rw [if_pos hd] at hculled ⊢
        exact Tree.get_of_kind hculled
      · rw [if_neg hd] at hculled ⊢
        exact hculled.1 o ho
    have hkeep : o ∉ q.clears := by
      rw [hclears, List.mem_singleton]
      rintro rfl
      revert ho
      decide
    have hout : ∀ old, q.reads q.name o old = outcome q o old := fun _ =>
      (if_pos rfl).trans (if_neg hkeep)
    rw [hmade.options o ho, hread, get_congr hsame, hafter, hout]
  · rcases hmade.disabled with hdone | ⟨hdone, -⟩
    · rw [hdone, hread]
      simp [Patch.reads, hclears]
    · exact hdone

/-! ## Two runs -/

/-- The options that let a client in. -/
def credentials : List String := ["ssid", "key", "encryption"]

/-- The interfaces a profile enables read the same in two trees, and carry
no credential but those the profile writes. -/
def CredentialsDecided (p : MeshNodeProfile) (t t' : Tree) : Prop :=
  ∀ q ∈ enabledPatches p,
    (∀ o ∈ allOptions, t.get "wireless" q.name o = t'.get "wireless" q.name o) ∧
    ∀ o ∈ credentials, t.get "wireless" q.name o = outcome q o [] ∧
      t'.get "wireless" q.name o = outcome q o []

/-- Where the profile leaves a credential of an enabled interface unwritten,
neither tree has a value that the reset keeps; where it leaves the mesh ID
unwritten, what the reset keeps is the same in both. -/
def NothingLeft (p : MeshNodeProfile) (t t' : Tree) : Prop :=
  ∀ q ∈ enabledPatches p,
    (∀ o ∈ credentials, lastWrite q.sets o = none → kept t q.name o = [] ∧ kept t' q.name o = []) ∧
    (lastWrite q.sets "mesh_id" = none → kept t q.name "mesh_id" = kept t' q.name "mesh_id")

theorem lastWrite_nonEmpty_none {ws : List (String × String)} (h : lastWrite ws o = none) :
    lastWrite (nonEmpty ws) o = none := by
  induction ws with
  | nil => rfl
  | cons w ws ih =>
      rw [lastWrite, Option.or_eq_none_iff] at h
      unfold nonEmpty at ih ⊢
      rw [List.filter_cons]
      split
      · rw [lastWrite, ih h.1, h.2]
        rfl
      · exact ih h.1

/-- A value that is not empty is written. -/
theorem lastWrite_nonEmpty {ws : List (String × String)} {v : String} (hv : v ≠ "")
    (h : lastWrite ws o = some v) : lastWrite (nonEmpty ws) o = some v := by
  induction ws with
  | nil => cases h
  | cons w ws ih =>
      simp only [lastWrite] at h
      cases hrest : lastWrite ws o with
      | some v' =>
          rw [hrest, Option.some_or] at h
          have hin := ih (hrest.trans h)
          unfold nonEmpty at hin ⊢
          rw [List.filter_cons]
          split
          · rw [lastWrite, hin, Option.some_or]
          · exact hin
      | none =>
          rw [hrest, Option.none_or] at h
          have hnone := lastWrite_nonEmpty_none hrest
          split at h
          · next hw =>
            have hv' : w.2 = v := Option.some.inj h
            unfold nonEmpty at hnone ⊢
            rw [List.filter_cons, if_pos (by simp [hv', hv]), lastWrite, hnone, if_pos hw, hv']
            rfl
          · cases h

/-- The radio, the network and the mode of an interface are always
written. -/
theorem written_of_enabled {t : Tree} {mesh : MeshRadioConfig} (hv : Validated t p mesh) {q : Patch}
    (hq : q ∈ enabledPatches p) (ho : o ∈ ["device", "network", "mode"]) :
    ∃ v, lastWrite q.sets o = some v := by
  simp only [List.mem_cons, List.not_mem_nil, or_false] at ho
  rcases mem_enabledPatches.1 hq with ⟨m, hm, rfl⟩ | ⟨ap, hap, hen, rfl⟩ | ⟨ap, -, bh, -, rfl⟩ |
    ⟨w, hw, rfl⟩
  · obtain rfl : mesh = m := Option.some.inj (hv.isMesh.symm.trans hm)
    rcases ho with rfl | rfl | rfl
    · exact ⟨_, lastWrite_nonEmpty hv.meshNamed rfl⟩
    · exact ⟨"batmesh0", lastWrite_nonEmpty (by decide) rfl⟩
    · exact ⟨"mesh", lastWrite_nonEmpty (by decide) rfl⟩
  · rw [apPatch, if_pos hen]
    dsimp only
    rw [lastWrite_append, ← Option.ne_none_iff_exists']
    rcases ho with rfl | rfl | rfl <;> simp [apBaseWrites, lastWrite]
  · rcases ho with rfl | rfl | rfl
    · exact ⟨ap.radioName, rfl⟩
    · exact ⟨"batmesh1", rfl⟩
    · exact ⟨"mesh", rfl⟩
  · rcases ho with rfl | rfl | rfl
    · exact ⟨_, lastWrite_nonEmpty (hv.sta w hw).1 rfl⟩
    · exact ⟨"lan", lastWrite_nonEmpty (by decide) rfl⟩
    · exact ⟨"sta", lastWrite_nonEmpty (by decide) rfl⟩

theorem outcome_eq_iff {q : Patch} {old old' : List String} :
    outcome q o old = outcome q o old' ↔ (lastWrite q.sets o = none → old = old') := by
  unfold outcome
  cases lastWrite q.sets o <;> simp

/-- A run that ends well ends with the tree its phases made. -/
theorem bodies_of_applySetup {d e : Device} (h : S.applySetup W (some p) d = .ok () e) :
    (∃ mesh, Validated d.host.tree p mesh) ∧
      (∀ ap ∈ p.aps, ap.meshBackhaul ≠ none → ap.radioName ∈ radioRefs d.host.tree) ∧
      ∃ g g', g.tree = d.host.tree ∧ bodies (S.mutationPhases p) g = .ok () g' ∧
        g'.tree = e.host.tree := by
  obtain ⟨_, t, hhead, htail⟩ := bind_eq_ok.1 (show (S.runHead W p >>= fun _ => S.runTail W p) d
    = .ok () e from h)
  obtain ⟨⟨g, g', hg, hvalid⟩, g₁, hg₁, hbodies⟩ := runHead_eq_ok hhead
  have hhost : e.host = t.host := by
    have hsame := runTail_host (S := S) (W := W) (p := p) t
    rwa [final_of_ok htail] at hsame
  obtain ⟨hmesh, hback⟩ := validated_of_validate hvalid
  rw [hg] at hmesh hback
  exact ⟨hmesh, fun ap hap hbh => (hback ap hap hbh).2, g₁, t.host, hg₁, hbodies, by rw [hhost]⟩

/-- What a run that ends well leaves of the interfaces it enables. -/
theorem get_of_applySetup {d e : Device} (h : S.applySetup W (some p) d = .ok () e) {q : Patch}
    (hq : q ∈ enabledPatches p) :
    (∀ o ∈ ifaceOptions,
      e.host.tree.get "wireless" q.name o = outcome q o (kept d.host.tree q.name o)) ∧
      e.host.tree.get "wireless" q.name "disabled" = [] := by
  obtain ⟨⟨mesh, hv⟩, hlisted, g, g', hg, hbodies, hg'⟩ := bodies_of_applySetup h
  have hget := get_of_bodies hv (fun ap hap hbh => by
    rw [hg]
    exact hlisted ap hap hbh) hbodies hq
  rwa [hg', hg] at hget

/-- **Whose credentials.** Of two runs of one profile that end well, the
interfaces the profile enables read the same and carry nothing left over,
exactly when there was nothing left to keep. -/
theorem credentials_decided_iff {S' : Service} {W' : World} {d d' e e' : Device}
    (h : S.applySetup W (some p) d = .ok () e) (h' : S'.applySetup W' (some p) d' = .ok () e') :
    CredentialsDecided p e.host.tree e'.host.tree ↔ NothingLeft p d.host.tree d'.host.tree := by
  obtain ⟨⟨mesh, hv⟩, -, -⟩ := bodies_of_applySetup h
  have hcred : ∀ o ∈ credentials, o ∈ ifaceOptions := by decide
  have hcred' : ∀ o ∈ credentials, o ∈ allOptions := by decide
  refine forall₂_congr fun q hq => ?_
  obtain ⟨hget, hoff⟩ := get_of_applySetup h hq
  obtain ⟨hget', hoff'⟩ := get_of_applySetup h' hq
  constructor
  · rintro ⟨hsame, hclean⟩
    refine ⟨fun o ho hnone => ?_, fun hnone => ?_⟩
    · obtain ⟨hleft, hright⟩ := hclean o ho
      rw [hget o (hcred o ho), outcome_eq_iff] at hleft
      rw [hget' o (hcred o ho), outcome_eq_iff] at hright
      exact ⟨hleft hnone, hright hnone⟩
    · have hmesh := hsame "mesh_id" (by decide)
      rw [hget "mesh_id" (by decide), hget' "mesh_id" (by decide), outcome_eq_iff] at hmesh
      exact hmesh hnone
  · rintro ⟨hnone, hmesh⟩
    have hclean : ∀ o ∈ credentials, e.host.tree.get "wireless" q.name o = outcome q o [] ∧
        e'.host.tree.get "wireless" q.name o = outcome q o [] := by
      intro o ho
      rw [hget o (hcred o ho), hget' o (hcred o ho), outcome_eq_iff, outcome_eq_iff]
      exact ⟨fun hno => (hnone o ho hno).1, fun hno => (hnone o ho hno).2⟩
    refine ⟨fun o ho => ?_, hclean⟩
    have hsplit : o = "disabled" ∨ o = "mesh_id" ∨ o ∈ credentials ∨
        o ∈ ["device", "network", "mode"] := by
      revert o
      decide
    rcases hsplit with rfl | rfl | hc | hwritten
    · rw [hoff, hoff']
    · rw [hget "mesh_id" (by decide), hget' "mesh_id" (by decide), outcome_eq_iff]
      exact hmesh
    · rw [(hclean o hc).1, (hclean o hc).2]
    · have hin : o ∈ ifaceOptions := by
        revert o
        decide
      rw [hget o hin, hget' o hin, outcome_eq_iff]
      intro hno
      obtain ⟨v, hwrite⟩ := written_of_enabled hv hq hwritten
      rw [hno] at hwrite
      cases hwrite

/-- A HaLow radio and another one, with these interfaces on them. -/
def Bench.twoRadios (ifaces : List Section)
    (h : (∀ s ∈ [Bench.sec "wifi-device" "radio1" [("type", "morse")],
        Bench.sec "wifi-device" "radio0" [("type", "mac80211"), ("band", "2g")]] ++ ifaces,
          Plain s.name) ∧
      (∀ s ∈ [Bench.sec "wifi-device" "radio1" [("type", "morse")],
        Bench.sec "wifi-device" "radio0" [("type", "mac80211"), ("band", "2g")]] ++ ifaces,
          '[' ∉ s.type.toList) ∧
      ([Bench.sec "wifi-device" "radio1" [("type", "morse")],
        Bench.sec "wifi-device" "radio0" [("type", "mac80211"), ("band", "2g")]]
          ++ ifaces).Pairwise fun s t => s.name = t.name → s.name = "") : Config :=
  Bench.config _ h

/-- The device before its first run. -/
def Bench.fresh : Device :=
  Bench.device (Bench.files (Bench.twoRadios [] (by decide +kernel)) Bench.network
    (some Config.empty))

/-- The device with the access point of an earlier run. -/
def Bench.used : Device :=
  Bench.device (Bench.files (Bench.twoRadios [Bench.sec "wifi-iface" "default_radio0"
      [("device", "radio0"), ("mode", "ap"), ("network", "ahwlan"), ("ssid", "old"),
        ("key", "oldsecret"), ("encryption", "psk2")]] (by decide +kernel)) Bench.network
    (some Config.empty))

/-- A mesh point with an access point on its second radio. -/
def Bench.withAP (ssid passphrase : String) (encryption : WifiEncryption) : MeshNodeProfile :=
  { Bench.profile with aps := [⟨"radio0", true, ssid, passphrase, encryption, none⟩] }

/-- A profile that writes every credential of its access point, on a fresh
device and on a used one. -/
theorem credentials_decided_full :
    CredentialsDecided (Bench.withAP "net" "newsecret" .psk2)
        (final (Bench.service.applySetup Bench.calm (some (Bench.withAP "net" "newsecret" .psk2)))
          Bench.fresh).host.tree
        (final (Bench.service.applySetup Bench.calm (some (Bench.withAP "net" "newsecret" .psk2)))
          Bench.used).host.tree ↔
      NothingLeft (Bench.withAP "net" "newsecret" .psk2) Bench.fresh.host.tree
        Bench.used.host.tree :=
  credentials_decided_iff (ok_of_succeeds (by decide +kernel)) (ok_of_succeeds (by decide +kernel))

/-- An open access point that leaves its name to the device: on the used
device it comes up under the old name, with the old key. -/
theorem open_access_point_keeps_old_name :
    let p := Bench.withAP "" "" .none
    let run := Bench.service.applySetup Bench.calm (some p)
    succeeds run Bench.fresh = true ∧ succeeds run Bench.used = true ∧
      (final run Bench.fresh).host.tree.get "wireless" "default_radio0" "ssid" = [] ∧
      (final run Bench.used).host.tree.get "wireless" "default_radio0" "ssid" = ["old"] ∧
      (final run Bench.used).host.tree.get "wireless" "default_radio0" "key" = ["oldsecret"] ∧
      (final run Bench.used).host.tree.get "wireless" "default_radio0" "disabled" = [] := by
  decide +kernel

end Setup

end OpenManet
