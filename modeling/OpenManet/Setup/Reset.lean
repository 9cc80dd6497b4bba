import OpenManet.Setup.Patches
/-!
# What the wireless reset leaves

A named section of the wireless config either goes or stays as it was, in
every option an interface is described by. It goes when it is an interface
that sits on a HaLow radio in a mode other than mesh. Every interface that
stays is disabled.
-/

namespace OpenManet

namespace Setup

open Uci Fallible Network

variable {n o : String} {B : Bound Host}

/-- The HaLow radios, as they are listed. -/
def halowRadios (t : Tree) : List String :=
  match t.mem "wireless" with
  | some c => (c.refs "wifi-device").filter (isMorseDevice t)
  | none => []

/-- The section is an interface that a HaLow radio does not keep. -/
def doomed (t : Tree) (n : String) : Bool :=
  t.kind "wireless" n = some "wifi-iface" && nonMeshOn (halowRadios t) t n

theorem doomed_iff {t : Tree} : doomed t n = true ↔
    t.kind "wireless" n = some "wifi-iface" ∧ nonMeshOn (halowRadios t) t n = true := by
  simp [doomed]

/-! ## Options that are dropped -/

/-- Dropping the options that are not on the list stays within a bound that
dropping each of them does. -/
theorem within_whitelistFields_of {config ref : String} {options allowList : List String}
    (h : ∀ option ∈ options, option ∉ allowList → Within B (del config ref option)) :
    Within B (whitelistFields config ref options allowList) := by
  refine within_forM_of_mem fun option hoption => ?_
  split
  · exact within_pure _
  · next hdrop =>
    exact within_bind within_tree fun t => within_ite (within_saying (h option hoption hdrop))
      (within_pure _)

theorem dropped_from_device : ∀ option ∈ allWifiDeviceOptions, option ∉ wizardWifiDeviceWhitelist →
    option ∉ "type" :: ifaceOptions := by
  decide

theorem dropped_from_iface : ∀ option ∈ allWifiIfaceOptions, option ∉ wizardWifiIfaceWhitelist →
    option ∉ "type" :: ifaceOptions := by
  decide

/-- Both whitelists stay within a bound that every drop of an option outside
the interface's own stays within. -/
theorem within_whitelistDevice (h : ∀ ref option, option ∉ "type" :: ifaceOptions →
    Within B (del "wireless" ref option)) (dev : String) :
    Within B (whitelistDeviceFields dev wizardWifiDeviceWhitelist) :=
  within_ite within_fail (within_whitelistFields_of fun option hoption hdrop =>
    h dev option (dropped_from_device option hoption hdrop))

theorem within_whitelistIface (h : ∀ ref option, option ∉ "type" :: ifaceOptions →
    Within B (del "wireless" ref option)) (iface : String) :
    Within B (whitelistInterfaceFields iface wizardWifiIfaceWhitelist) :=
  within_ite within_fail (within_whitelistFields_of fun option hoption hdrop =>
    h iface option (dropped_from_iface option hoption hdrop))

/-! ## HaLow radios -/

theorem halowRadios_eq (t : Tree) :
    halowRadios t = ((radios t).filter fun r => morseType r.2).map Prod.fst := by
  unfold halowRadios radios
  cases hmem : t.mem "wireless" with
  | none => rfl
  | some c =>
      have htest : ∀ e ∈ c.entries, isMorseDevice t (ownRef e) = morseType (e.2.get "type") := by
        intro e he
        rw [isMorseDevice_eq hmem, Config.get_ownRef he]
      simp only [Config.refs, List.filter_map, List.map_map]
      have hfilter : (c.entries.filter fun e => e.2.type = "wifi-device").filter
            (isMorseDevice t ∘ ownRef)
          = (c.entries.filter fun e => e.2.type = "wifi-device").filter
            ((fun r => morseType r.2) ∘ fun e => (ownRef e, e.2.get "type")) := by
        refine List.filter_congr fun e he => ?_
        exact htest e (List.mem_filter.1 he).1
      rw [hfilter]
      rfl

theorem halowRadios_congr {t t' : Tree} (h : radios t' = radios t) :
    halowRadios t' = halowRadios t := by
  rw [halowRadios_eq, halowRadios_eq, h]

theorem looks_radios_del {ref option : String} (h : option ∉ "type" :: ifaceOptions) :
    Within (Looks radios) (del "wireless" ref option) := by
  have hne : "type" ≠ option := by
    rintro rfl
    exact h (List.mem_cons_self ..)
  exact looks_radios_editSection fun _ => AList.lookup_erase_ne hne

/-- The bound of programs that keep the radios, as long as none of the
listed sections is one. -/
def Spares (l : List String) : Bound Host where
  rel h h' := (∀ i ∈ l, i ∉ radioRefs h.tree) → radios h'.tree = radios h.tree
  refl _ _ := rfl
  trans := by
    intro s t u hst htu hfree
    have hsame := hst hfree
    refine (htu fun i hi => ?_).trans hsame
    rw [radioRefs, hsame]
    exact hfree i hi

theorem spares_delSection {l : List String} {ref : String} (href : ref ∈ l) :
    Within (Spares l) (delSection "wireless" ref) := by
  refine within_call (fun _ _ _ => rfl) fun h tick a t hok hfree => ?_
  cases hmem : h.tree.mem "wireless" with
  | none => simp [hmem] at hok
  | some c =>
      obtain rfl : h.tree.stage "wireless" (c.erase ref) = t := by simpa [hmem] using hok
      have hother := hfree ref href
      rw [radioRefs_of_mem hmem] at hother
      unfold radios
      rw [Tree.stage_mem, hmem]
      dsimp only
      rw [Config.entries_erase_of_type hother]

/-- Deleting interfaces keeps the radios. -/
theorem radios_removeNonMesh : Within (Looks radios) removeNonMeshIfacesOnMorseDevices := by
  refine within_bind (within_saying looks_getSections) fun devices =>
    within_bind within_tree fun t => within_ite (within_pure _) ?_
  have hlisted : ∀ h, Leaves (saying "listing wifi-iface sections"
      (getSections "wireless" "wifi-iface")) h fun l h' =>
        ∃ c, h'.tree.mem "wireless" = some c ∧ l = c.refs "wifi-iface" := by
    intro h
    rw [leaves_saying]
    exact leaves_getSections fun c _ hmem => ⟨c, hmem, rfl⟩
  refine within_bind_of_leaves (within_saying looks_getSections) hlisted ?_
  rintro _ h ⟨c, hmem, rfl⟩
  have hwalk : Within (Spares (c.refs "wifi-iface")) ((c.refs "wifi-iface").forM fun iface => do
      if nonMeshOn (devices.filter (isMorseDevice t)) (← tree) iface then
        saying ("deleting " ++ iface) (delSection "wireless" iface)
      else pure ()) :=
    within_forM_of_mem fun iface hiface => within_bind within_tree fun _ =>
      within_ite (within_saying (spares_delSection hiface)) (within_pure _)
  refine hwalk h fun i hi hradio => ?_
  rw [radioRefs_of_mem hmem] at hradio
  exact absurd (Config.type_of_mem_refs hi hradio) (by decide)

/-! ## One named section -/

/-- A named section reads as it did. -/
def Stays (n : String) (h h' : Host) : Prop :=
  (∀ o ∈ ifaceOptions, h'.tree.get "wireless" n o = h.tree.get "wireless" n o) ∧
    h'.tree.kind "wireless" n = h.tree.kind "wireless" n

/-- The bound of programs that leave a named section to be read as it
was. -/
def Staying (n : String) : Bound Host where
  rel := Stays n
  refl _ := ⟨fun _ _ => rfl, rfl⟩
  trans h h' := ⟨fun o ho => (h'.1 o ho).trans (h.1 o ho), h'.2.trans h.2⟩

theorem staying_getSections {config type : String} :
    Within (Staying n) (getSections config type) :=
  fun h => ⟨fun _ _ => looks_getSections (v := fun t => t.get "wireless" n _) h,
    looks_getSections (v := fun t => t.kind "wireless" n) h⟩

theorem staying_del {ref option : String} (hoption : option ∉ "type" :: ifaceOptions) :
    Within (Staying n) (del "wireless" ref option) := by
  intro h
  refine ⟨fun o ho => looks_get_del ?_ h, looks_kind_editSection h⟩
  rintro rfl
  exact hoption (List.mem_cons_of_mem _ ho)

theorem staying_disable {ref : String} {values : List String} :
    Within (Staying n) (setType "wireless" ref "disabled" values) := by
  intro h
  refine ⟨fun o ho => looks_get_setType ?_ h, looks_kind_editSection h⟩
  rintro rfl
  revert ho
  decide

theorem nonMeshOn_congr {morse : List String} {h h' : Host} (hstays : Stays n h h') :
    nonMeshOn morse h'.tree n = nonMeshOn morse h.tree n := by
  unfold nonMeshOn
  rw [hstays.1 "device" (by decide), hstays.1 "mode" (by decide)]

/-- A deletion takes the section that is listed so, and no other. -/
theorem delSection_named (hn : Plain n) (hne : n ≠ "") (ref : String) (h : Host) :
    Leaves (delSection "wireless" ref) h fun _ h' =>
      if n = ref then h'.tree.kind "wireless" n = none else Stays n h h' := by
  refine leaves_delSection fun c tick hmem => ?_
  split
  · next heq =>
    rw [Tree.stage_kind, Config.find_erase hn hne, if_pos heq]
    rfl
  · next hother =>
    refine ⟨fun o _ => ?_, ?_⟩
    · rw [Tree.stage_get, Config.get_erase hn hne, if_neg hother, Tree.get_of_mem hmem]
    · rw [Tree.stage_kind, Config.find_erase hn hne, if_neg hother, Tree.kind_of_mem hmem]

/-- What the walk over the interfaces has done to a named section, with some
of them still to come. -/
def Walked (n : String) (morse ifaces : List String) (h : Host) (l : List String) (h' : Host) :
    Prop :=
  (Stays n h h' ∧ (n ∈ ifaces → nonMeshOn morse h.tree n = true → n ∈ l)) ∨
    ((n ∈ ifaces ∧ nonMeshOn morse h.tree n = true) ∧ h'.tree.kind "wireless" n = none)

theorem walked_round (hn : Plain n) (hne : n ≠ "") {morse ifaces : List String} {h : Host}
    (iface : String) (l : List String) (hsub : iface ∈ ifaces) (h' : Host)
    (hw : Walked n morse ifaces h (iface :: l) h') :
    Leaves (do
      if nonMeshOn morse (← tree) iface then
        saying ("deleting " ++ iface) (delSection "wireless" iface)
      else pure () : Prog Unit) h' fun _ h'' => Walked n morse ifaces h l h'' := by
  rw [leaves_bind, leaves_tree, leaves_ite, leaves_saying, leaves_pure]
  constructor
  · intro htest
    refine (delSection_named hn hne iface h').mono fun _ h'' hstep => ?_
    rcases hw with ⟨hstays, hleft⟩ | ⟨hdoom, hgone⟩
    · split at hstep
      · next heq =>
        subst heq
        rw [nonMeshOn_congr hstays] at htest
        exact .inr ⟨⟨hsub, htest⟩, hstep⟩
      · next hother =>
        refine .inl ⟨(Staying n).trans hstays hstep, fun hin hmesh => ?_⟩
        exact (List.mem_cons.1 (hleft hin hmesh)).resolve_left hother
    · refine .inr ⟨hdoom, ?_⟩
      split at hstep
      · exact hstep
      · rw [hstep.2, hgone]
  · intro htest
    rcases hw with ⟨hstays, hleft⟩ | hgone
    · refine .inl ⟨hstays, fun hin hmesh => ?_⟩
      refine (List.mem_cons.1 (hleft hin hmesh)).resolve_left ?_
      rintro rfl
      rw [nonMeshOn_congr hstays] at htest
      exact htest hmesh
    · exact .inr hgone

/-- A named section is gone where it was doomed, and stays otherwise. -/
def Culled (n : String) (h h' : Host) : Prop :=
  if doomed h.tree n then h'.tree.kind "wireless" n = none else Stays n h h'

theorem culled_removeNonMesh (hn : Plain n) (hne : n ≠ "") (h : Host) :
    Leaves removeNonMeshIfacesOnMorseDevices h fun _ h' => Culled n h h' := by
  unfold removeNonMeshIfacesOnMorseDevices
  rw [leaves_bind, leaves_saying]
  refine leaves_getSections fun c tick hmem => ?_
  rw [leaves_bind, leaves_tree]
  have hradios : halowRadios h.tree = (c.refs "wifi-device").filter (isMorseDevice h.tree) := by
    rw [halowRadios, hmem]
  rw [← hradios, leaves_ite]
  constructor
  · intro hnone
    refine (leaves_pure _).2 ?_
    have hsafe : doomed h.tree n = false := by
      unfold doomed nonMeshOn
      rw [hnone]
      split <;> simp
    unfold Culled
    rw [hsafe]
    exact (Staying n).refl h
  · intro _
    rw [leaves_bind, leaves_saying]
    refine leaves_getSections fun c' tick' hmem' => ?_
    obtain rfl : c = c' := Option.some.inj (hmem.symm.trans hmem')
    have hlisted : n ∈ c.refs "wifi-iface" ↔ h.tree.kind "wireless" n = some "wifi-iface" := by
      rw [Config.name_mem_refs_iff hn hne, Tree.kind_of_mem hmem]
      simp
    have hloop := leaves_forM
      (I := fun l h' => (∀ i ∈ l, i ∈ c.refs "wifi-iface") ∧
        Walked n (halowRadios h.tree) (c.refs "wifi-iface") h l h')
      (fun iface l h' hI => by
        refine (walked_round hn hne iface l (hI.1 iface (List.mem_cons_self ..)) h' hI.2).mono
          fun _ h'' hw => ⟨fun i hi => hI.1 i (List.mem_cons_of_mem _ hi), hw⟩)
      (c.refs "wifi-iface") { h with tick := tick' }
      ⟨fun _ hi => hi, .inl ⟨(Staying n).refl h, fun hin _ => hin⟩⟩
    refine hloop.mono fun _ h' hend => ?_
    unfold Culled
    rcases hend.2 with ⟨hstays, hleft⟩ | ⟨⟨hin, hmesh⟩, hgone⟩
    · rw [if_neg fun hdoom => ?_]
      · exact hstays
      · obtain ⟨hkind, hmesh⟩ := doomed_iff.1 hdoom
        exact List.not_mem_nil (hleft (hlisted.2 hkind) hmesh)
    · rw [if_pos (doomed_iff.2 ⟨hlisted.1 hin, hmesh⟩)]
      exact hgone

/-! ## The whole reset -/

theorem disabled_disableAll (hn : Plain n) (hne : n ≠ "") (h : Host) :
    Leaves disableAllInterfaces h fun _ h' =>
      Stays n h h' ∧
        (h.tree.kind "wireless" n = some "wifi-iface" →
          h'.tree.get "wireless" n "disabled" = ["1"]) := by
  unfold disableAllInterfaces
  rw [leaves_bind, leaves_saying]
  refine leaves_getSections fun c tick hmem => ?_
  have hlisted : h.tree.kind "wireless" n = some "wifi-iface" → n ∈ c.refs "wifi-iface" := by
    rw [Config.name_mem_refs_iff hn hne, Tree.kind_of_mem hmem]
    simp
  have hloop := leaves_forM
    (f := fun s => saying ("disabling " ++ s) (setType "wireless" s "disabled" ["1"]))
    (I := fun l h' => Stays n h h' ∧
      (n ∈ c.refs "wifi-iface" → n ∈ l ∨ h'.tree.get "wireless" n "disabled" = ["1"]))
    (fun s l h' hI => by
      rw [leaves_saying]
      intro _ h'' hrun
      have hstep : Stays n h' h'' := staying_disable.ok hrun
      refine ⟨(Staying n).trans hI.1 hstep, fun hin => ?_⟩
      have hset : Leaves (setType "wireless" s "disabled" ["1"]) h' fun _ h'' =>
          (s = n ∨ h'.tree.get "wireless" n "disabled" = ["1"]) →
            h''.tree.get "wireless" n "disabled" = ["1"] := by
        refine leaves_editSection fun c' _ hmem' hfind hcase => ?_
        rw [Tree.stage_get]
        rcases hcase with rfl | hold
        · exact Config.get_update_insert hfind
        · rw [Tree.get_of_mem hmem'] at hold
          rcases Config.get_update_cases c' s n "disabled" fun o => o.insert "disabled" ["1"] with
            hkeep | ⟨s', -, hnew⟩
          · rw [hkeep, hold]
          · rw [hnew, AList.lookup_insert]
            rfl
      rcases hI.2 hin with hleft | hold
      · rcases List.mem_cons.1 hleft with rfl | hleft
        · exact .inr (hset _ _ hrun (.inl rfl))
        · exact .inl hleft
      · exact .inr (hset _ _ hrun (.inr hold)))
    (c.refs "wifi-iface") { h with tick := tick } ⟨(Staying n).refl h, fun hin => .inl hin⟩
  refine hloop.mono fun _ h' hend => ⟨hend.1, fun hkind => ?_⟩
  exact (hend.2 (hlisted hkind)).resolve_left List.not_mem_nil

theorem doomed_congr {h h' : Host} (hstays : Stays n h h')
    (hradios : halowRadios h'.tree = halowRadios h.tree) : doomed h'.tree n = doomed h.tree n := by
  unfold doomed
  rw [hstays.2, hradios, nonMeshOn_congr hstays]

/-- **What the reset leaves of a named section.** -/
theorem leaves_resetWireless (hn : Plain n) (hne : n ≠ "") (h : Host) :
    Leaves resetWireless h fun _ h' =>
      Culled n h h' ∧ (h'.tree.kind "wireless" n = some "wifi-iface" →
        h'.tree.get "wireless" n "disabled" = ["1"]) := by
  intro _ h' hrun
  obtain ⟨devices, h₁, hlist, hrest⟩ := bind_eq_ok.1 hrun
  obtain ⟨_, h₂, hdevices, hrest₂⟩ := bind_eq_ok.1 hrest
  obtain ⟨_, h₃, hcull, hrest₃⟩ := bind_eq_ok.1 hrest₂
  obtain ⟨ifaces, h₄, hlist', hrest₄⟩ := bind_eq_ok.1 hrest₃
  obtain ⟨_, h₅, hifaces, hdisable⟩ := bind_eq_ok.1 hrest₄
  have hstart : Stays n h h₂ :=
    (Staying n).trans ((within_saying staying_getSections).ok hlist)
      ((within_forM fun dev => within_whitelistDevice (fun _ _ => staying_del) dev).ok hdevices)
  have hradios : halowRadios h₂.tree = halowRadios h.tree :=
    halowRadios_congr ((Looks radios).trans ((within_saying looks_getSections).ok hlist)
      ((within_forM fun dev => within_whitelistDevice (fun _ _ => looks_radios_del) dev).ok hdevices))
  have hculled := culled_removeNonMesh hn hne h₂ _ _ hcull
  have hmiddle : Stays n h₃ h₅ :=
    (Staying n).trans ((within_saying staying_getSections).ok hlist')
      ((within_forM fun iface => within_whitelistIface (fun _ _ => staying_del) iface).ok hifaces)
  obtain ⟨hend, hoff⟩ := disabled_disableAll hn hne h₅ _ _ hdisable
  have hafter : Stays n h₃ h' := (Staying n).trans hmiddle hend
  constructor
  · unfold Culled at hculled ⊢
    rw [doomed_congr hstart hradios] at hculled
    split
    · next hdoom =>
      rw [if_pos hdoom] at hculled
      rw [hafter.2, hculled]
    · next hsafe =>
      rw [if_neg hsafe] at hculled
      exact (Staying n).trans hstart ((Staying n).trans hculled hafter)
  · intro hkind
    exact hoff (by rw [← hend.2, hkind])

/-- **The reset keeps the radios**, however it ends. -/
theorem radios_resetWireless : Within (Looks radios) resetWireless := by
  have hdel : ∀ ref option, option ∉ "type" :: ifaceOptions →
      Within (Looks radios) (del "wireless" ref option) := fun _ _ => looks_radios_del
  have hoff : Within (Looks radios) disableAllInterfaces :=
    within_bind (within_saying looks_getSections) fun _ => within_forM fun _ =>
      within_saying (looks_radios_editSection fun _ => AList.lookup_insert_ne (by decide))
  exact within_bind (within_saying looks_getSections) fun _ =>
    within_bind (within_forM fun dev => within_whitelistDevice hdel dev) fun _ =>
      within_bind radios_removeNonMesh fun _ => within_bind (within_saying looks_getSections)
        fun _ => within_bind (within_forM fun iface => within_whitelistIface hdel iface) fun _ => hoff

end Setup

end OpenManet
