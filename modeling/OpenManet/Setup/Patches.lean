import OpenManet.Setup.Runs
import OpenManet.Lib.Uci.Views
/-!
# What the wizard writes to the wireless config

Between the reset and the commit, the wireless config is changed by one
patch for each interface of the profile: the mesh interface, an access point
for each entry, the secondary mesh link of an entry that is a backhaul, and
the station of a wireless uplink. The radios are written to as well, but not
in an option that an interface reads.
-/

namespace OpenManet

namespace Setup

open Uci Fallible Network

variable {S : Service} {W : World} {p : MeshNodeProfile}

/-- The options an interface is described by, `disabled` apart. -/
def ifaceOptions : List String :=
  ["device", "network", "mode", "ssid", "mesh_id", "key", "encryption"]

/-- The options an interface is described by. -/
def allOptions : List String := "disabled" :: ifaceOptions

def meshPatch (mesh : MeshRadioConfig) : Patch :=
  ⟨"default_" ++ mesh.radioName, nonEmpty (meshIfaceWrites mesh), ["disabled"]⟩

def apPatch (ap : RadioApProfile) : Patch :=
  if ap.enabled then
    ⟨"default_" ++ ap.radioName, apBaseWrites ap ++ nonEmpty (apCredentialWrites ap), ["disabled"]⟩
  else
    ⟨"default_" ++ ap.radioName, apBaseWrites ap ++ [("disabled", "1")],
      ["ssid", "key", "encryption"]⟩

def backhaulPatch (radio : String) (bh : MeshBackhaulProfile) : Patch :=
  ⟨backhaulSection radio, backhaulIfaceWrites radio bh, ["disabled"]⟩

def staPatch (w : WifiStaProfile) : Patch :=
  ⟨"sta_" ++ w.radioName, nonEmpty (staIfaceWrites w), ["disabled"]⟩

/-- The patches of one entry. -/
def radioPatches (ap : RadioApProfile) : List Patch :=
  apPatch ap :: (ap.meshBackhaul.map (backhaulPatch ap.radioName)).toList

/-- The patches of a profile, in the order they are made. -/
def patches (p : MeshNodeProfile) : List Patch :=
  (p.mesh.map meshPatch).toList ++ p.aps.flatMap radioPatches ++ ((staOf p).map staPatch).toList

theorem plain_default (r : String) : Plain ("default_" ++ r) :=
  plain_append (by decide) (by decide) r

theorem plain_sta (r : String) : Plain ("sta_" ++ r) := plain_append (by decide) (by decide) r

theorem plain_backhaulSection (r : String) : Plain (backhaulSection r) := by
  unfold backhaulSection
  rw [String.append_assoc]
  exact plain_append (by decide) (by decide) _

theorem append_ne_empty {a : String} (ha : a.toList ≠ []) (r : String) : a ++ r ≠ "" := by
  intro h
  have hchars := congrArg String.toList h
  rw [String.toList_append] at hchars
  exact ha (List.append_eq_nil_iff.1 hchars).1

theorem default_ne_empty (r : String) : "default_" ++ r ≠ "" := append_ne_empty (by decide) r

theorem sta_ne_empty (r : String) : "sta_" ++ r ≠ "" := append_ne_empty (by decide) r

theorem backhaulSection_ne_empty (r : String) : backhaulSection r ≠ "" := by
  unfold backhaulSection
  rw [String.append_assoc]
  exact append_ne_empty (by decide) _

/-! ## One patch -/

/-- The wireless config was patched: the options read as the patch leaves
them, and its section is there. -/
def Made (q : Patch) (h h' : Host) : Prop :=
  Patched "wireless" q allOptions h h' ∧ Ensured "wireless" q.name "wifi-iface" h h'

theorem Made.drops {n : String} {a : List (String × String)} {cl cl' : List String} {h h₁ h₂ : Host}
    (hfirst : Made ⟨n, a, cl⟩ h h₁)
    (hget : Patched "wireless" ⟨n, [], cl'⟩ allOptions h₁ h₂)
    (hkind : ∀ m, Plain m → h₂.tree.kind "wireless" m = h₁.tree.kind "wireless" m) :
    Made ⟨n, a, cl ++ cl'⟩ h h₂ :=
  ⟨hfirst.1.drops hget, hfirst.2.before hkind⟩

/-- Options dropped from the section of a patch. -/
theorem Made.clear {n : String} {a : List (String × String)} {cl : List String} {h h₁ h₂ : Host}
    {what : String} {option : String} (hn : Plain n) (hfirst : Made ⟨n, a, cl⟩ h h₁)
    (hrun : saying what (del "wireless" n option) h₁ = .ok () h₂) :
    Made ⟨n, a, cl ++ [option]⟩ h h₂ := by
  refine hfirst.drops (leaves_saying.2 (leaves_del hn h₁ allOptions) _ _ hrun) fun m _ => ?_
  have hkind : Within (Looks fun t => t.kind "wireless" m)
      (saying what (del "wireless" n option)) := within_saying looks_kind_editSection
  exact hkind.ok hrun

/-- The options of a radio are none of an interface's. -/
def radioOptions : List String :=
  ["enable_mcast_whitelist", "enable_mcast_rate_control", "enable_ps", "enable_dynamic_ps_offload",
    "enable_twt", "channel", "htmode", "country"]

theorem mem_radioOptions_of_mesh {mesh : MeshRadioConfig} {w : String × String}
    (hw : w ∈ meshDeviceWrites mesh) : w.1 ∈ radioOptions := by
  simp only [meshDeviceWrites, nonEmpty, List.mem_append, List.mem_filter, List.mem_cons,
    List.not_mem_nil, or_false] at hw
  rcases hw with (hw | hw) | ⟨hw, -⟩
  · rcases hw with rfl | rfl | rfl | rfl | rfl <;> decide
  · split at hw
    · rw [List.mem_singleton.1 hw]
      simp [radioOptions]
    · cases hw
  · rcases hw with rfl | rfl <;> simp [radioOptions]

theorem mem_radioOptions_of_backhaul {bh : MeshBackhaulProfile} {w : String × String}
    (hw : w ∈ backhaulRadioWrites bh) : w.1 ∈ radioOptions := by
  simp only [backhaulRadioWrites, nonEmpty, List.mem_append, List.mem_filter, List.mem_cons,
    List.not_mem_nil, or_false] at hw
  rcases hw with (rfl | rfl) | ⟨rfl, -⟩ <;> simp [radioOptions]

theorem ne_of_radioOptions {o o' : String} (h : o ∈ radioOptions) (h' : o' ∈ allOptions) :
    o ≠ o' := by
  rintro rfl
  revert h h'
  simp only [radioOptions, allOptions, ifaceOptions, List.mem_cons, List.not_mem_nil, or_false]
  rintro (rfl | rfl | rfl | rfl | rfl | rfl | rfl | rfl) <;> decide

theorem made_wirelessMesh {mesh : MeshRadioConfig} (hp : p.mesh = some mesh) (h : Host) :
    Leaves (wirelessMesh p) h fun _ h' => Made (meshPatch mesh) h h' := by
  unfold wirelessMesh
  rw [hp]
  dsimp only
  rw [leaves_ite]
  refine ⟨fun _ => leaves_fail.2 trivial, fun hname => ?_⟩
  intro _ h' hrun
  obtain ⟨_, h₁, hradio, hrun⟩ := bind_eq_ok.1 hrun
  obtain ⟨_, h₂, hadd, hrun⟩ := bind_eq_ok.1 hrun
  obtain ⟨_, h₃, hset, hdel⟩ := bind_eq_ok.1 hrun
  obtain ⟨-, rfl⟩ := EStateM.Result.ok.inj hadd
  have hcons : nonEmpty (meshIfaceWrites mesh) = ("device", mesh.radioName) ::
      nonEmpty (meshIfaceWrites mesh).tail := by
    simp [nonEmpty, meshIfaceWrites, hname]
  rw [hcons] at hset
  have hmade : Made ⟨"default_" ++ mesh.radioName, nonEmpty (meshIfaceWrites mesh), []⟩ h₁ h₃ := by
    rw [hcons]
    exact ensured_of_writes (plain_default _) (by decide) hset allOptions
  have hdone := Made.clear (plain_default _) hmade hdel
  -- the radio's own options are none of an interface's
  have hsame : ∀ n o, o ∈ allOptions → h₁.tree.get "wireless" n o = h.tree.get "wireless" n o := by
    intro n o ho
    exact (looks_get_setOptions fun w hw =>
      ne_of_radioOptions (mem_radioOptions_of_mesh hw) ho).ok hradio
  refine ⟨Patched.after (fun n o _ ho => hsame n o ho) hdone.1, fun m hm => ?_⟩
  have hkind : h₁.tree.kind "wireless" m = h.tree.kind "wireless" m :=
    looks_kind_setOptions.ok hradio
  rw [hdone.2 m hm, hkind]
  rfl

theorem made_writeAPIface (ap : RadioApProfile) (h : Host) :
    Leaves (writeAPIface ap) h fun _ h' => Made (apPatch ap) h h' := by
  intro _ h' hrun
  obtain ⟨_, h₁, hadd, hwrites⟩ := bind_eq_ok.1 hrun
  obtain ⟨_, h₂, hbase, hrest⟩ := bind_eq_ok.1 hwrites
  obtain ⟨-, rfl⟩ := EStateM.Result.ok.inj hadd
  have hmade : Made ⟨"default_" ++ ap.radioName, apBaseWrites ap, []⟩ h h₂ :=
    ensured_of_writes (plain_default _) (by decide) hbase allOptions
  have hmore : ∀ {what : String → String} {ws : List (String × String)} {h₃ : Host},
      setOptions "wireless" ("default_" ++ ap.radioName) what ws h₂ = .ok () h₃ →
      Made ⟨"default_" ++ ap.radioName, apBaseWrites ap ++ ws, []⟩ h h₃ := by
    intro what ws h₃ hset
    refine ⟨hmade.1.writes (leaves_setOptions (plain_default _) ws h₂ allOptions _ _ hset),
      hmade.2.before fun m _ => looks_kind_setOptions.ok hset⟩
  unfold apPatch
  cases hen : ap.enabled with
  | true =>
      rw [if_pos hen] at hrest
      obtain ⟨_, h₃, hcred, hdel⟩ := bind_eq_ok.1 hrest
      exact Made.clear (plain_default _) (hmore hcred) hdel
  | false =>
      rw [if_neg (by simp [hen])] at hrest
      obtain ⟨_, h₃, hoff, hclear⟩ := bind_eq_ok.1 hrest
      refine (hmore hoff).drops (leaves_clear (plain_default _) _ h₃ allOptions _ _ hclear)
        fun m _ => ?_
      have hkind : Within (Looks fun t => t.kind "wireless" m)
          (["ssid", "key", "encryption"].forM fun option =>
            saying ("clearing stale " ++ option ++ " on " ++ ("default_" ++ ap.radioName))
              (del "wireless" ("default_" ++ ap.radioName) option)) :=
        within_forM fun _ => within_saying looks_kind_editSection
      exact hkind.ok hclear

theorem made_writeSTAIface {w : WifiStaProfile} (hname : w.radioName ≠ "") (h : Host) :
    Leaves (writeSTAIface w) h fun _ h' => Made (staPatch w) h h' := by
  intro _ h' hrun
  obtain ⟨_, h₁, hadd, hrun⟩ := bind_eq_ok.1 hrun
  obtain ⟨_, h₂, hset, hdel⟩ := bind_eq_ok.1 hrun
  obtain ⟨-, rfl⟩ := EStateM.Result.ok.inj hadd
  have hcons : nonEmpty (staIfaceWrites w) = ("device", w.radioName) ::
      nonEmpty (staIfaceWrites w).tail := by
    simp [nonEmpty, staIfaceWrites, hname]
  have hmade : Made ⟨"sta_" ++ w.radioName, nonEmpty (staIfaceWrites w), []⟩ h h₂ := by
    rw [hcons] at hset ⊢
    exact ensured_of_writes (plain_sta _) (by decide) hset allOptions
  exact Made.clear (plain_sta _) hmade hdel

/-! ## Radios -/

/-- The `type` of a HaLow radio. -/
def morseType : List String → Bool
  | type :: _ => Text.equalFold type "morse"
  | [] => false

theorem isMorseDevice_eq {t : Tree} {c : Config} (h : t.mem "wireless" = some c) (dev : String) :
    isMorseDevice t dev = morseType (c.get dev "type") := by
  unfold isMorseDevice Uci.Tree.get
  rw [h]
  rfl

/-- The radios, as they are listed, with their `type`. -/
def radios (t : Tree) : List (String × List String) :=
  match t.mem "wireless" with
  | some c => (c.entries.filter fun e => e.2.type = "wifi-device").map fun e =>
      (ownRef e, e.2.get "type")
  | none => []

/-- The radios, as they are listed. -/
def radioRefs (t : Tree) : List String := (radios t).map Prod.fst

theorem radioRefs_of_mem {t : Tree} {c : Config} (h : t.mem "wireless" = some c) :
    radioRefs t = c.refs "wifi-device" := by
  rw [radioRefs, radios, h]
  simp [Config.refs]

theorem radios_update {c : Config} {ref : String} {f : Table (List String) → Table (List String)}
    (hf : ∀ o, (f o).lookup "type" = o.lookup "type") :
    ((c.update ref f).entries.filter fun e => e.2.type = "wifi-device").map
        (fun e => (ownRef e, e.2.get "type"))
      = (c.entries.filter fun e => e.2.type = "wifi-device").map
        fun e => (ownRef e, e.2.get "type") := by
  have hkeep : ∀ e : Nat × Section, ∀ e' : Section,
      e' = (if answers ref e then e.2.edit f else e.2) →
      e'.type = e.2.type ∧ e'.name = e.2.name ∧ e'.get "type" = e.2.get "type" := by
    rintro e _ rfl
    cases answers ref e with
    | false => exact ⟨rfl, rfl, rfl⟩
    | true => exact ⟨rfl, rfl, by simp [Section.get, Section.edit, hf]⟩
  rw [Config.entries_update, List.filter_map, List.map_map]
  congr 1
  · funext e
    obtain ⟨htype, hname, hget⟩ := hkeep e _ rfl
    simp only [Function.comp_apply, ownRef, htype, hname, hget]
  · congr 1
    funext e
    obtain ⟨htype, -, -⟩ := hkeep e _ rfl
    simp only [Function.comp_apply, htype]

theorem looks_radios_editSection {ref : String} {f : Table (List String) → Table (List String)}
    (hf : ∀ o, (f o).lookup "type" = o.lookup "type") :
    Within (Looks radios) (editSection "wireless" ref f) := by
  refine looks_editSection fun t c hmem _ => ?_
  unfold radios
  rw [Tree.stage_mem, hmem]
  exact radios_update hf

theorem looks_radios_addSection {name : String} :
    Within (Looks radios) (addSection "wireless" name "wifi-iface") := by
  have hpush : ∀ c : Config, ((c.push "wifi-iface" name).entries.filter fun e =>
      e.2.type = "wifi-device") = c.entries.filter fun e => e.2.type = "wifi-device" := by
    intro c
    rcases Config.entries_push c "wifi-iface" name with hsame | ⟨i, hi⟩
    · rw [hsame]
    · simp [hi]
  refine looks_addSection fun t _ => ?_
  unfold radios
  rw [Tree.stage_mem]
  dsimp only
  rw [hpush]
  cases t.mem "wireless" with
  | some c => rfl
  | none => rfl

/-! ## What the writers do -/

section Writers

variable {B : Bound Host}

theorem nonEmpty_ne_type {ws : List (String × String)} (h : ∀ w ∈ ws, w.1 ≠ "type") :
    ∀ w ∈ nonEmpty ws, w.1 ≠ "type" := fun w hw => h w (List.mem_filter.1 hw).1

/-- The writers edit options of sections, never the `type` of one, and ask
for interfaces by name. They do nothing else. -/
theorem within_writers
    (hedit : ∀ ref f, (∀ o : Table (List String), (f o).lookup "type" = o.lookup "type") →
      Within B (editSection "wireless" ref f))
    (hadd : ∀ name, name ≠ "" → Within B (addSection "wireless" name "wifi-iface")) :
    (∀ p, Within B (wirelessMesh p)) ∧ (∀ ap, Within B (writeAPIface ap)) ∧
      (∀ radio bh, Within B (writeMeshBackhaulIface radio bh)) ∧ ∀ w, Within B (writeSTAIface w) := by
  have hset : ∀ ref what ws, (∀ w ∈ ws, w.1 ≠ "type") →
      Within B (setOptions "wireless" ref what ws) := fun ref _ _ hws =>
    within_forM_of_mem fun w hw => within_saying
      (hedit ref _ fun _ => AList.lookup_insert_ne (hws w hw).symm)
  have hdel : ∀ what ref option, option ≠ "type" →
      Within B (saying what (del "wireless" ref option)) := fun _ ref _ hne =>
    within_saying (hedit ref _ fun _ => AList.lookup_erase_ne hne.symm)
  have hradio : "type" ∉ radioOptions := by decide
  refine ⟨fun p => ?_, fun ap => ?_, fun radio bh => ?_, fun w => ?_⟩
  · unfold wirelessMesh
    split
    · exact within_fail
    · next mesh _ =>
      refine within_ite within_fail (within_bind (hset _ _ _ fun w hw => ?_) fun _ =>
        within_bind (within_ignored (hadd _ (default_ne_empty _))) fun _ =>
          within_bind (hset _ _ _ (nonEmpty_ne_type ?_)) fun _ => hdel _ _ _ (by decide))
      · exact fun h => hradio (h ▸ mem_radioOptions_of_mesh hw)
      · simp [meshIfaceWrites]
  · refine within_bind (within_ignored (hadd _ (default_ne_empty _))) fun _ =>
      within_bind (hset _ _ _ (by simp [apBaseWrites])) fun _ => within_ite ?_ ?_
    · exact within_bind (hset _ _ _ (nonEmpty_ne_type (by simp [apCredentialWrites]))) fun _ =>
        hdel _ _ _ (by decide)
    · exact within_bind (hset _ _ _ (by simp)) fun _ => within_forM_of_mem fun option hoption =>
        hdel _ _ _ (by
          rintro rfl
          simp at hoption)
  · refine within_bind (within_ignored (hadd _ (backhaulSection_ne_empty _))) fun _ =>
      within_bind (hset _ _ _ (by simp [backhaulIfaceWrites, secondaryMeshPolicyOptions])) fun _ =>
        within_bind (hdel _ _ _ (by decide)) fun _ => within_bind (hset _ _ _ fun w hw => ?_) fun _ =>
          hdel _ _ _ (by decide)
    exact fun h => hradio (h ▸ mem_radioOptions_of_backhaul hw)
  · exact within_bind (within_ignored (hadd _ (sta_ne_empty _))) fun _ =>
      within_bind (hset _ _ _ (nonEmpty_ne_type (by simp [staIfaceWrites]))) fun _ =>
        hdel _ _ _ (by decide)

end Writers

theorem looks_radios_writers :
    (∀ p, Within (Looks radios) (wirelessMesh p)) ∧
      (∀ ap, Within (Looks radios) (writeAPIface ap)) ∧
      (∀ radio bh, Within (Looks radios) (writeMeshBackhaulIface radio bh)) ∧
      ∀ w, Within (Looks radios) (writeSTAIface w) :=
  within_writers (fun _ _ hf => looks_radios_editSection hf) fun _ _ => looks_radios_addSection

/-! ## The secondary link -/

/-- What the writer of a secondary link does to its section. The radio is
brought up as well, which is not seen unless the name is a radio's. -/
structure Linked (q : Patch) (h h' : Host) : Prop where
  options : Patched "wireless" q ifaceOptions h h'
  ensured : Ensured "wireless" q.name "wifi-iface" h h'
  disabled : ∀ n, Plain n → n ≠ "" →
    h'.tree.get "wireless" n "disabled" = q.reads n "disabled" (h.tree.get "wireless" n "disabled") ∨
      h'.tree.get "wireless" n "disabled" = [] ∧ h'.tree.kind "wireless" n = some "wifi-device"

/-- Dropping an option from a listed radio is not seen elsewhere. -/
theorem del_listed {radio n option what : String} {h h' : Host}
    (hlisted : radio ∈ radioRefs h.tree) (hrun : saying what (del "wireless" radio option) h = .ok () h') :
    h'.tree.get "wireless" n option = h.tree.get "wireless" n option ∨
      h'.tree.get "wireless" n option = [] ∧ h'.tree.kind "wireless" n = some "wifi-device" := by
  cases hmem : h.tree.mem "wireless" with
  | none => simp [radioRefs, radios, hmem] at hlisted
  | some c =>
  rw [radioRefs_of_mem hmem] at hlisted
  obtain ⟨e, he, htype, hown⟩ := Config.mem_refs.1 hlisted
  have hstep : Leaves (saying what (del "wireless" radio option)) h fun _ h' =>
      h'.tree.get "wireless" n option = h.tree.get "wireless" n option ∨
        h'.tree.get "wireless" n option = [] ∧ h'.tree.kind "wireless" n = some "wifi-device" := by
    rw [leaves_saying]
    refine leaves_editSection fun c' tick hmem' _ => ?_
    obtain rfl : c = c' := Option.some.inj (hmem.symm.trans hmem')
    rw [Tree.stage_get, Tree.stage_kind, Tree.get_of_mem hmem, Config.get, Config.get,
      Config.find_update, Config.find]
    cases hfind : c.entries.find? (answers n) with
    | none => exact .inl rfl
    | some e' =>
        cases hans : answers radio e' with
        | false => exact .inl (by simp [hans])
        | true =>
            rw [← hown] at hans
            have hsame : e' = e :=
              Config.eq_of_answers he (List.mem_of_find?_eq_some hfind) hans
            subst hsame
            rw [hown] at hans
            exact .inr ⟨by simp [hans, Section.get, Section.edit], by simp [hans, htype]⟩
  exact hstep _ _ hrun

theorem linked_writeMeshBackhaulIface {radio : String} {bh : MeshBackhaulProfile} {h h' : Host}
    (hlisted : radio ∈ radioRefs h.tree)
    (hrun : writeMeshBackhaulIface radio bh h = .ok () h') :
    Linked (backhaulPatch radio bh) h h' := by
  obtain ⟨_, h₁, hadd, hrun₁⟩ := bind_eq_ok.1 hrun
  obtain ⟨_, h₂, hset, hrun₂⟩ := bind_eq_ok.1 hrun₁
  obtain ⟨_, h₃, hdel, hrun₃⟩ := bind_eq_ok.1 hrun₂
  obtain ⟨_, h₄, hradio, hlast⟩ := bind_eq_ok.1 hrun₃
  obtain ⟨-, rfl⟩ := EStateM.Result.ok.inj hadd
  have hmade : Made ⟨backhaulSection radio, backhaulIfaceWrites radio bh, []⟩ h h₂ :=
    ensured_of_writes (plain_backhaulSection _) (by decide) hset allOptions
  have hdone := Made.clear (plain_backhaulSection _) hmade hdel
  -- the radio's own options are none of an interface's
  have hget : ∀ n o, o ∈ allOptions →
      h₄.tree.get "wireless" n o = h₃.tree.get "wireless" n o := fun n o ho =>
    (looks_get_setOptions fun w hw =>
      ne_of_radioOptions (mem_radioOptions_of_backhaul hw) ho).ok hradio
  have hkind : ∀ m, h'.tree.kind "wireless" m = h₃.tree.kind "wireless" m := by
    intro m
    have hfirst : h₄.tree.kind "wireless" m = h₃.tree.kind "wireless" m :=
      looks_kind_setOptions.ok hradio
    have hsecond : h'.tree.kind "wireless" m = h₄.tree.kind "wireless" m :=
      (within_saying looks_kind_editSection).ok hlast
    rw [hsecond, hfirst]
  have hstill : radio ∈ radioRefs h₄.tree := by
    have hwrites : ∀ ref what ws, (∀ w ∈ ws, w.1 ≠ "type") →
        Within (Looks radios) (setOptions "wireless" ref what ws) := fun _ _ _ hws =>
      within_forM_of_mem fun w hw => within_saying
        (looks_radios_editSection fun _ => AList.lookup_insert_ne (hws w hw).symm)
    have hclear : radios h₃.tree = radios h₂.tree := (within_saying (looks_radios_editSection
      fun _ => AList.lookup_erase_ne (by decide))).ok hdel
    have hlink : radios h₂.tree = radios h.tree := (Looks radios).trans (looks_radios_addSection h)
      ((hwrites _ _ _ (by simp [backhaulIfaceWrites, secondaryMeshPolicyOptions])).ok hset)
    have htune : radios h₄.tree = radios h₃.tree := (hwrites _ _ _ fun w hw => by
      have hradio : "type" ∉ radioOptions := by decide
      exact fun h => hradio (h ▸ mem_radioOptions_of_backhaul hw)).ok hradio
    rwa [radioRefs, htune, hclear, hlink]
  refine ⟨fun n o hn ho => ?_, hdone.2.before fun m _ => hkind m, fun n hn _ => ?_⟩
  · have ho' : o ∈ allOptions := List.mem_cons_of_mem _ ho
    have hne : "disabled" ≠ o := by
      rintro rfl
      revert ho
      decide
    have hsecond : h'.tree.get "wireless" n o = h₄.tree.get "wireless" n o :=
      (within_saying (looks_get_del hne)).ok hlast
    rw [hsecond, hget n o ho']
    exact hdone.1 n o hn ho'
  · have hread := hdone.1 n "disabled" hn (by decide)
    rcases del_listed hstill hlast with hsame | hgone
    · left
      rw [hsame, hget n "disabled" (by decide)]
      exact hread
    · exact .inr hgone

/-! ## All of them -/

/-- What is to be read of an option after some patches. -/
def readsAll (qs : List Patch) (n o : String) (old : List String) : List String :=
  qs.foldl (fun v q => q.reads n o v) old

/-- The type of a named section after some patches. -/
def kindAll (qs : List Patch) (n : String) (old : Option String) : Option String :=
  if n ∈ qs.map Patch.name then some (old.getD "wifi-iface") else old

theorem readsAll_append (qs qs' : List Patch) (n o : String) (old : List String) :
    readsAll (qs ++ qs') n o old = readsAll qs' n o (readsAll qs n o old) := List.foldl_append

theorem readsAll_of_not_mem {qs : List Patch} {n : String} (h : n ∉ qs.map Patch.name) (o : String)
    (old : List String) : readsAll qs n o old = old := by
  induction qs with
  | nil => rfl
  | cons q qs ih =>
      rw [List.map_cons, List.mem_cons, not_or] at h
      have hfirst : q.reads n o old = old := if_neg h.1
      show readsAll qs n o (q.reads n o old) = old
      rw [hfirst, ih h.2]

/-- A patch says whether its section is disabled. -/
def Decides (q : Patch) : Prop :=
  "disabled" ∈ q.clears ∨ (lastWrite q.sets "disabled").isSome = true

theorem reads_decided {q : Patch} (hq : Decides q) (v v' : List String) :
    q.reads q.name "disabled" v = q.reads q.name "disabled" v' := by
  unfold Patch.reads
  rw [if_pos rfl, if_pos rfl]
  split
  · rfl
  · next hno =>
    obtain ⟨x, hx⟩ := Option.isSome_iff_exists.1 (hq.resolve_left hno)
    rw [hx]

/-- After a patch that decides, what was there before is of no matter. -/
theorem readsAll_decided {qs : List Patch} (hqs : ∀ q ∈ qs, Decides q) {n : String}
    (hn : n ∈ qs.map Patch.name) (v v' : List String) :
    readsAll qs n "disabled" v = readsAll qs n "disabled" v' := by
  induction qs generalizing v v' with
  | nil => cases hn
  | cons q qs ih =>
      show readsAll qs n "disabled" (q.reads n "disabled" v)
        = readsAll qs n "disabled" (q.reads n "disabled" v')
      by_cases hq : n = q.name
      · rw [hq, reads_decided (hqs q (List.mem_cons_self ..)) v v']
      · refine ih (fun q hq => hqs q (List.mem_cons_of_mem _ hq)) ?_ _ _
        exact (List.mem_cons.1 hn).resolve_left hq

/-- What some patches, one after the other, leave of a named section. -/
structure Patchwork (qs : List Patch) (n : String) (h h' : Host) : Prop where
  options : ∀ o ∈ ifaceOptions,
    h'.tree.get "wireless" n o = readsAll qs n o (h.tree.get "wireless" n o)
  kind : h'.tree.kind "wireless" n = kindAll qs n (h.tree.kind "wireless" n)
  disabled : h'.tree.get "wireless" n "disabled"
      = readsAll qs n "disabled" (h.tree.get "wireless" n "disabled") ∨
    h'.tree.get "wireless" n "disabled" = [] ∧ h'.tree.kind "wireless" n = some "wifi-device"

/-- The wireless config was patched, one patch after the other. -/
def MadeAll (qs : List Patch) (h h' : Host) : Prop :=
  ∀ n, Plain n → n ≠ "" → Patchwork qs n h h'

theorem MadeAll.nil (h : Host) : MadeAll [] h h := fun _ _ _ => ⟨fun _ _ => rfl, rfl, .inl rfl⟩

theorem MadeAll.append {qs qs' : List Patch} {h h₁ h₂ : Host} (hdecides : ∀ q ∈ qs', Decides q)
    (hfirst : MadeAll qs h h₁) (hnext : MadeAll qs' h₁ h₂) : MadeAll (qs ++ qs') h h₂ := by
  intro n hn hne
  have h₁ := hfirst n hn hne
  have h₂ := hnext n hn hne
  refine ⟨fun o ho => ?_, ?_, ?_⟩
  · rw [h₂.options o ho, h₁.options o ho, readsAll_append]
  · rw [h₂.kind, h₁.kind]
    unfold kindAll
    rw [List.map_append]
    grind
  · rcases h₂.disabled with hread | hgone
    · rw [hread, readsAll_append]
      rcases h₁.disabled with hread₁ | ⟨hgone₁, hkind₁⟩
      · exact .inl (by rw [hread₁])
      · by_cases hin : n ∈ qs'.map Patch.name
        · exact .inl (readsAll_decided hdecides hin _ _)
        · rw [readsAll_of_not_mem hin, hgone₁]
          refine .inr ⟨rfl, ?_⟩
          rw [h₂.kind, kindAll, if_neg hin, hkind₁]
    · exact .inr hgone

theorem Made.all {q : Patch} {h h' : Host} (hmade : Made q h h') : MadeAll [q] h h' := by
  intro n hn _
  refine ⟨fun o ho => hmade.1 n o hn (List.mem_cons_of_mem _ ho), ?_,
    .inl (hmade.1 n "disabled" hn (by decide))⟩
  rw [hmade.2 n hn]
  simp [kindAll]

theorem Linked.all {q : Patch} {h h' : Host} (hmade : Linked q h h') : MadeAll [q] h h' := by
  intro n hn hne
  refine ⟨fun o ho => hmade.options n o hn ho, ?_, hmade.disabled n hn hne⟩
  rw [hmade.ensured n hn]
  simp [kindAll]

theorem decides_apPatch (ap : RadioApProfile) : Decides (apPatch ap) := by
  unfold apPatch
  split
  · exact .inl (List.mem_singleton.2 rfl)
  · refine .inr ?_
    rw [lastWrite_append]
    rfl

theorem decides_radioPatches {ap : RadioApProfile} {q : Patch} (hq : q ∈ radioPatches ap) :
    Decides q := by
  unfold radioPatches at hq
  rcases List.mem_cons.1 hq with rfl | hq
  · exact decides_apPatch ap
  · obtain ⟨bh, -, rfl⟩ : ∃ bh, ap.meshBackhaul = some bh ∧ backhaulPatch ap.radioName bh = q := by
      simpa using hq
    exact .inl (List.mem_singleton.2 rfl)

theorem decides_patches {q : Patch} (hq : q ∈ patches p) : Decides q := by
  unfold patches at hq
  simp only [List.mem_append, Option.mem_toList, Option.map_eq_some_iff, List.mem_flatMap] at hq
  rcases hq with (⟨mesh, -, rfl⟩ | ⟨ap, -, hq⟩) | ⟨w, -, rfl⟩
  · exact .inl (List.mem_singleton.2 rfl)
  · exact decides_radioPatches hq
  · exact .inl (List.mem_singleton.2 rfl)

theorem made_writeRadio {ap : RadioApProfile} {h h' : Host}
    (hlisted : ap.meshBackhaul ≠ none → ap.radioName ∈ radioRefs h.tree)
    (hrun : writeRadio ap h = .ok () h') : MadeAll (radioPatches ap) h h' := by
  obtain ⟨_, h₁, hfirst, hrest⟩ := bind_eq_ok.1 hrun
  have hap := made_writeAPIface ap h _ _ hfirst
  have hradios : radios h₁.tree = radios h.tree := (looks_radios_writers.2.1 ap).ok hfirst
  unfold radioPatches
  cases hbh : ap.meshBackhaul with
  | none =>
      rw [hbh] at hrest
      obtain ⟨-, rfl⟩ := EStateM.Result.ok.inj hrest
      exact hap.all
  | some bh =>
      rw [hbh] at hrest
      have hin : ap.radioName ∈ radioRefs h₁.tree := by
        rw [radioRefs, hradios]
        exact hlisted (by simp [hbh])
      refine MadeAll.append (fun q hq => ?_) hap.all
        (linked_writeMeshBackhaulIface hin hrest).all
      rw [List.mem_singleton.1 hq]
      exact .inl (List.mem_singleton.2 rfl)

theorem looks_radios_writeRadio (ap : RadioApProfile) :
    Within (Looks radios) (writeRadio ap) := by
  refine within_bind (looks_radios_writers.2.1 ap) fun _ => ?_
  split
  · exact within_pure _
  · exact looks_radios_writers.2.2.1 _ _

theorem made_writeRadios {aps : List RadioApProfile} {h h' : Host}
    (hlisted : ∀ ap ∈ aps, ap.meshBackhaul ≠ none → ap.radioName ∈ radioRefs h.tree)
    (hrun : aps.forM writeRadio h = .ok () h') : MadeAll (aps.flatMap radioPatches) h h' := by
  induction aps generalizing h with
  | nil =>
      obtain ⟨-, rfl⟩ := EStateM.Result.ok.inj hrun
      exact MadeAll.nil h
  | cons ap aps ih =>
      obtain ⟨_, h₁, hfirst, hrest⟩ := bind_eq_ok.1 (show (writeRadio ap >>= fun _ =>
        aps.forM writeRadio) h = .ok () h' from hrun)
      have hradios : radios h₁.tree = radios h.tree :=
        (looks_radios_writeRadio ap).ok hfirst
      refine MadeAll.append (fun q hq => ?_)
        (made_writeRadio (hlisted ap (List.mem_cons_self ..)) hfirst)
        (ih (fun ap' hap' hbh => ?_) hrest)
      · obtain ⟨ap', -, hq⟩ := List.mem_flatMap.1 hq
        exact decides_radioPatches hq
      · rw [radioRefs, hradios]
        exact hlisted ap' (List.mem_cons_of_mem _ hap') hbh

/-- **The wireless config of a profile is made by its patches.** -/
theorem made_patches {mesh : MeshRadioConfig} {h h₁ h₂ : Host} (hp : p.mesh = some mesh)
    (hsta : ∀ w, staOf p = some w → w.radioName ≠ "")
    (hlisted : ∀ ap ∈ p.aps, ap.meshBackhaul ≠ none → ap.radioName ∈ radioRefs h.tree)
    (hmesh : wirelessMesh p h = .ok () h₁) (hradio : perRadioAPSta p h₁ = .ok () h₂) :
    MadeAll (patches p) h h₂ := by
  obtain ⟨_, h₃, haps, hlast⟩ := bind_eq_ok.1 hradio
  have hradios : radios h₁.tree = radios h.tree := (looks_radios_writers.1 p).ok hmesh
  have hfirst := (made_wirelessMesh hp h _ _ hmesh).all
  have hmiddle := made_writeRadios (fun ap hap hbh => by
    rw [radioRefs, hradios]
    exact hlisted ap hap hbh) haps
  have hboth := MadeAll.append (fun q hq => by
    obtain ⟨ap', -, hq⟩ := List.mem_flatMap.1 hq
    exact decides_radioPatches hq) hfirst hmiddle
  unfold patches
  rw [hp]
  cases hw : staOf p with
  | none =>
      rw [hw] at hlast
      obtain ⟨-, rfl⟩ := EStateM.Result.ok.inj hlast
      simpa using hboth
  | some w =>
      rw [hw] at hlast
      refine MadeAll.append (fun q hq => ?_) hboth (made_writeSTAIface (hsta w hw) h₃ _ _ hlast).all
      rw [List.mem_singleton.1 hq]
      exact .inl (List.mem_singleton.2 rfl)

end Setup

end OpenManet
