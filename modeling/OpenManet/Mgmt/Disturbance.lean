import OpenManet.Mgmt.Link
/-!
# What the boot-time backhaul disturbs

A radio is in use where an enabled access point or station sits on it, under
whatever section name. The routine looks for one such section only, the one
named after the radio, and takes its credentials from the first mesh
interface, enabled or not. So it leaves the radios in use alone, and its
link has the credentials of an enabled mesh interface, exactly where the
link it is about to write is `Harmless`.
-/

namespace OpenManet

namespace Mgmt

open Uci Fallible Network

/-! ## What must not change -/

/-- The interfaces of a radio, in file order. -/
def onRadio (c : Uci.Config) (radio : String) : List String :=
  (c.refs "wifi-iface").filter fun i => (c.get i "device").head? = some radio

/-- An enabled access point or station. -/
def Operates (c : Uci.Config) (i : String) : Prop :=
  (firstOf c i "mode" = "ap" ∨ firstOf c i "mode" = "sta") ∧ firstOf c i "disabled" ≠ "1"

/-- The radio carries an enabled access point or station. -/
def InUse (c : Uci.Config) (radio : String) : Prop := ∃ i ∈ onRadio c radio, Operates c i

/-- **The radios in use are as they were**, with all their interfaces. -/
structure Undisturbed (c d : Uci.Config) : Prop where
  tuned : ∀ r ∈ c.refs "wifi-device", InUse c r → ∀ o ∈ tuning, d.get r o = c.get r o
  ifaces : ∀ r ∈ c.refs "wifi-device", InUse c r → onRadio d r = onRadio c r
  options : ∀ r ∈ c.refs "wifi-device", InUse c r → ∀ i ∈ onRadio c r, ∀ o,
    d.get i o = c.get i o

/-- An enabled mesh interface with these credentials. -/
def HasMesh (c : Uci.Config) (meshID key : String) : Prop :=
  ∃ j ∈ c.refs "wifi-iface", firstOf c j "mode" = "mesh" ∧ firstOf c j "disabled" ≠ "1" ∧
    firstOf c j "mesh_id" = meshID ∧ firstOf c j "key" = key

/-- **A mesh interface that is new, or not what it was, has the credentials
of an enabled one.** -/
def Sourced (c d : Uci.Config) : Prop :=
  ∀ i ∈ d.refs "wifi-iface", firstOf d i "mode" = "mesh" →
    (i ∈ c.refs "wifi-iface" → ∃ o, d.get i o ≠ c.get i o) →
    HasMesh c (firstOf d i "mesh_id") (firstOf d i "key")

/-! ## When a link is harmless -/

/-- The section of the link is there, and is not an interface. -/
def Foreign (c : Uci.Config) (link : MeshLink) : Prop :=
  (c.find link.section).isSome = true ∧ link.section ∉ c.refs "wifi-iface"

/-- The interface of the link is there, and is what would be written. -/
def InPlace (c : Uci.Config) (link : MeshLink) : Prop :=
  link.section ∈ c.refs "wifi-iface" ∧ (∀ w ∈ linkWrites link, c.get link.section w.1 = [w.2]) ∧
    c.get link.section "disabled" = []

/-- **The link changes nothing that must not change**: its radio is not in
use, or has the link and its tuning already; its section is not an interface
of another radio in use; and its credentials — the key the section has where
the first mesh interface has none — are those of an enabled mesh
interface. -/
structure Harmless (c : Uci.Config) (link : MeshLink) : Prop where
  radio : InUse c link.radio → c.get link.radio "channel" = [secondaryMeshChannel2G] ∧
    c.get link.radio "htmode" = [secondaryMeshHTMode2G] ∧ (Foreign c link ∨ InPlace c link)
  elsewhere : ∀ r ∈ c.refs "wifi-device", link.section ∈ onRadio c r → r ≠ link.radio →
    ¬ InUse c r
  sourced : Foreign c link ∨ InPlace c link ∨
    HasMesh c link.meshID (if link.key = "" then firstOf c link.section "key" else link.key)

/-! ## Harmless links -/

section Harmless

variable {c d : Uci.Config} {radio : String} {mesh : UCIWirelessIface}

/-- What is in place stays so. -/
theorem Effect.of_inPlace (he : Effect c (linkOf radio mesh) d)
    (hplace : InPlace c (linkOf radio mesh)) (o : String) :
    d.get (linkOf radio mesh).section o = c.get (linkOf radio mesh).section o := by
  obtain ⟨-, hwrites, hdisabled⟩ := hplace
  by_cases ho : o = "disabled"
  · subst ho
    rcases he.disabled with hnone | hsame
    · rw [hnone, hdisabled]
    · exact hsame
  · rw [he.own o ho]
    cases hlast : lastWrite (linkWrites (linkOf radio mesh)) o with
    | none => rfl
    | some v => exact (hwrites _ (mem_of_lastWrite hlast)).symm

/-- The section of the link is not added to a config that has it. -/
theorem Effect.listed_of_find (he : Effect c (linkOf radio mesh) d)
    (hfind : c.find (linkOf radio mesh).section ≠ none) :
    d.refs "wifi-iface" = c.refs "wifi-iface" := by
  rw [he.listed, if_neg hfind, List.append_nil]

theorem Effect.onRadio (he : Effect c (linkOf radio mesh) d) (hr : radio ≠ "")
    (hm : mesh.meshID ≠ "") (hh : Harmless c (linkOf radio mesh)) {r : String}
    (hdev : r ∈ c.refs "wifi-device") (huse : InUse c r) :
    onRadio d r = Mgmt.onRadio c r := by
  obtain ⟨hdevice, -⟩ := he.credentials hr hm
  have hold : (c.refs "wifi-iface").filter (fun i => (d.get i "device").head? = some r) =
      (c.refs "wifi-iface").filter fun i => (c.get i "device").head? = some r := by
    refine List.filter_congr fun i hi => ?_
    by_cases hne : i = (linkOf radio mesh).section
    · subst hne
      by_cases hsame : r = radio
      · subst hsame
        obtain ⟨-, -, hforeign | hplace⟩ := hh.radio huse
        · exact absurd hi hforeign.2
        · rw [he.of_inPlace hplace]
      · have hthere : ¬ (c.get (linkOf radio mesh).section "device").head? = some r := fun hthere =>
          hh.elsewhere r hdev (List.mem_filter.2 ⟨hi, by simpa using hthere⟩) hsame huse
        rw [decide_eq_decide, hdevice]
        exact iff_of_false (fun h => hsame (Option.some.inj h).symm) hthere
    · rw [he.other i hi hne]
  unfold Mgmt.onRadio
  rw [he.listed, List.filter_append, hold]
  split
  · next hnone =>
    have hnew : ¬ some radio = some r := by
      intro heq
      obtain rfl : radio = r := Option.some.inj heq
      obtain ⟨-, -, hforeign | hplace⟩ := hh.radio huse
      · exact absurd hforeign.1 (by simp [hnone])
      · exact Uci.Config.find_of_mem_refs hplace.1 hnone
    simp [hdevice, hnew]
  · simp

theorem Effect.undisturbed (he : Effect c (linkOf radio mesh) d) (hr : radio ≠ "")
    (hm : mesh.meshID ≠ "") (hh : Harmless c (linkOf radio mesh)) : Undisturbed c d where
  tuned := by
    intro r hdev huse o ho
    by_cases hsame : r = radio
    · subst hsame
      obtain ⟨hchannel, hhtmode, -⟩ := hh.radio huse
      rcases he.radio o ho with hkeep | ⟨rfl, hset⟩ | ⟨rfl, hset⟩
      · exact hkeep
      · exact hset.trans hchannel.symm
      · exact hset.trans hhtmode.symm
    · exact he.elsewhere r hdev hsame o ho
  ifaces := fun r hdev huse => he.onRadio hr hm hh hdev huse
  options := by
    intro r hdev huse i hi o
    obtain ⟨hmem, hthere⟩ := List.mem_filter.1 hi
    by_cases hne : i = (linkOf radio mesh).section
    · subst hne
      by_cases hsame : r = radio
      · subst hsame
        obtain ⟨-, -, hforeign | hplace⟩ := hh.radio huse
        · exact absurd hmem hforeign.2
        · exact he.of_inPlace hplace o
      · exact absurd huse (hh.elsewhere r hdev hi hsame)
    · exact he.other i hmem hne o

theorem Effect.sourced (he : Effect c (linkOf radio mesh) d) (hr : radio ≠ "")
    (hm : mesh.meshID ≠ "") (hh : Harmless c (linkOf radio mesh)) : Sourced c d := by
  intro i hi hmode hchanged
  have hsection : i = (linkOf radio mesh).section := by
    by_contra hne
    have hmem : i ∈ c.refs "wifi-iface" := by
      rw [he.listed, List.mem_append] at hi
      rcases hi with hi | hi
      · exact hi
      · split at hi
        · exact absurd (List.mem_singleton.1 hi) hne
        · cases hi
    obtain ⟨o, ho⟩ := hchanged hmem
    exact ho (he.other i hmem hne o)
  subst hsection
  obtain ⟨-, -, hid, hkey⟩ := he.credentials hr hm
  rcases hh.sourced with hforeign | hplace | hmesh
  · have hthere : c.find (linkOf radio mesh).section ≠ none := by
      intro hnone
      exact absurd hforeign.1 (by simp [hnone])
    rw [he.listed_of_find hthere] at hi
    exact absurd hi hforeign.2
  · obtain ⟨o, ho⟩ := hchanged hplace.1
    exact absurd (he.of_inPlace hplace o) ho
  · rw [hid, hkey]
    exact hmesh

/-- **A link that changes nothing that must not change is harmless.** -/
theorem harmless_of_undisturbed (hradio : radio ∈ c.refs "wifi-device") (hm : mesh.meshID ≠ "")
    (hkeep : Undisturbed c (inService c (linkOf radio mesh)))
    (hsrc : Sourced c (inService c (linkOf radio mesh))) : Harmless c (linkOf radio mesh) := by
  have hr : radio ≠ "" := Uci.Config.ne_empty_of_mem_refs hradio
  have he := effect_inService mesh hradio
  obtain ⟨hdevice, hmode, hid, hkey⟩ := he.credentials hr hm
  -- the section of the link, unless it is foreign, is an interface afterwards
  have hlisted : ¬ Foreign c (linkOf radio mesh) →
      (linkOf radio mesh).section ∈ (inService c (linkOf radio mesh)).refs "wifi-iface" := by
    intro hforeign
    rw [he.listed, List.mem_append]
    by_cases hmem : (linkOf radio mesh).section ∈ c.refs "wifi-iface"
    · exact .inl hmem
    · have hnone : c.find (linkOf radio mesh).section = none := by
        by_contra hsome
        exact hforeign ⟨Option.isSome_iff_ne_none.2 hsome, hmem⟩
      exact .inr (by simp [hnone])
  -- where no option of it changed, it was in place
  have hplace : (linkOf radio mesh).section ∈ c.refs "wifi-iface" →
      (∀ o, (inService c (linkOf radio mesh)).get (linkOf radio mesh).section o =
        c.get (linkOf radio mesh).section o) → InPlace c (linkOf radio mesh) := by
    intro hmem hsame
    refine ⟨hmem, fun w hw => ?_, ?_⟩
    · have hlast := lastWrite_of_mem (linkWrites_keys _) hw
      have hdisabled : w.1 ≠ "disabled" := by
        intro hname
        rw [hname, lastWrite_disabled] at hlast
        cases hlast
      rw [← hsame, he.own w.1 hdisabled, hlast]
      rfl
    · rw [← hsame]
      exact get_inService_disabled hradio
  refine ⟨fun huse => ?_, fun r hdev hon hne huse => ?_, ?_⟩
  · obtain ⟨hchannel, hhtmode, -⟩ := get_inService_radio mesh hradio
    refine ⟨?_, ?_, ?_⟩
    · exact (hkeep.tuned radio hradio huse "channel" (by decide)).symm.trans hchannel
    · exact (hkeep.tuned radio hradio huse "htmode" (by decide)).symm.trans hhtmode
    · by_cases hforeign : Foreign c (linkOf radio mesh)
      · exact .inl hforeign
      · have hon : (linkOf radio mesh).section ∈ onRadio c radio := by
          rw [← hkeep.ifaces radio hradio huse]
          exact List.mem_filter.2 ⟨hlisted hforeign, by simp [hdevice]⟩
        exact .inr (hplace (List.mem_filter.1 hon).1 (hkeep.options radio hradio huse _ hon))
  · have hon' : (linkOf radio mesh).section ∈ onRadio (inService c (linkOf radio mesh)) r := by
      rw [hkeep.ifaces r hdev huse]
      exact hon
    have hthere := (List.mem_filter.1 hon').2
    rw [hdevice] at hthere
    exact hne (by simpa [eq_comm] using hthere : radio = r).symm
  · by_cases hforeign : Foreign c (linkOf radio mesh)
    · exact .inl hforeign
    · by_cases hin : InPlace c (linkOf radio mesh)
      · exact .inr (.inl hin)
      · refine .inr (.inr ?_)
        have hmesh := hsrc _ (hlisted hforeign) hmode fun hmem => by
          by_contra hsame
          push Not at hsame
          exact hin (hplace hmem hsame)
        rwa [hid, hkey] at hmesh

end Harmless

/-! ## A node -/

/-- A section with one value an option. -/
def sectionOf (type name : String) (options : List (String × String)) : Section where
  type := type
  name := name
  options := options.foldr (fun w t => t.insert w.1 [w.2]) ∅

/-- A node with a 2.4 GHz radio, and a HaLow radio with the mesh; what is on
the 2.4 GHz radio besides is for the operator to say. -/
def nodeSections (more : List Section) : List Section :=
  [sectionOf "wifi-device" "radio0" [("band", "2g"), ("channel", "1"), ("htmode", "HE20")],
    sectionOf "wifi-device" "radio1" [("type", "morse"), ("band", "s1g"), ("channel", "28")],
    sectionOf "wifi-iface" "default_radio0"
      [("device", "radio0"), ("mode", "ap"), ("ssid", "OpenMANET"), ("disabled", "1")],
    sectionOf "wifi-iface" "default_radio1"
      [("device", "radio1"), ("mode", "mesh"), ("mesh_id", "mesh"), ("key", "passphrase")]] ++ more

/-- The node as it comes. -/
def plainNode : Uci.Config where
  sections := nodeSections []
  plain := by decide +kernel
  ident := by decide +kernel
  distinct := by decide +kernel

/-- The node with an access point of its operator's. -/
def guestNode : Uci.Config where
  sections := nodeSections
    [sectionOf "wifi-iface" "guest" [("device", "radio0"), ("mode", "ap"), ("ssid", "guest")]]
  plain := by decide +kernel
  ident := by decide +kernel
  distinct := by decide +kernel

/-- The host at boot, with the wireless config alone. -/
def bootHost (c : Uci.Config) : Host where
  tree :=
    { mem := fun config => if config = "wireless" then some c else none
      disk := fun config => if config = "wireless" then some c else none
      dirty := fun _ => false }
  tick := 0
  fate := { refuses := fun _ => false, flushes := fun _ _ => false }

theorem held_bootHost (c : Uci.Config) : Held "wireless" c (bootHost c) := ⟨rfl, rfl, .inl rfl⟩

/-- The 2.4 GHz radio has a supported chipset. -/
def mediatek : Radios where
  iwinfo := .ok fun ifname => if ifname = "wlan0" then some "MediaTek MT7916AN" else none
  status := .ok fun radio => if radio = "radio0" then some ["wlan0"] else none

/-- The mesh interface of the node. -/
def nodeMesh : UCIWirelessIface :=
  { device := "radio1", mode := "mesh", meshID := "mesh", key := "passphrase" }

theorem proceeds_guestNode :
    Proceeds mediatek (bootHost guestNode).tree guestNode "radio0" nodeMesh where
  unmarked := by decide +kernel
  sole := ⟨_, _, rfl, rfl, by decide +kernel⟩
  free := by decide +kernel
  first := by rfl
  named := by decide

/-! ## The claim of the routine -/

/-- The radios in use are as they were, and a link has the credentials of an
enabled mesh interface. -/
def Respected (c : Uci.Config) (file : Option Uci.Config) : Prop :=
  ∀ d, file = some d → Undisturbed c d ∧ Sourced c d

theorem respected_self (c : Uci.Config) : Respected c (some c) := by
  rintro d ⟨⟩
  refine ⟨⟨fun _ _ _ _ _ => rfl, fun _ _ _ => rfl, fun _ _ _ _ _ _ => rfl⟩, ?_⟩
  intro i hi _ hchanged
  obtain ⟨o, ho⟩ := hchanged hi
  exact absurd rfl ho

section Claim

variable {w : Radios} {h : Host} {c : Uci.Config}

/-- A run that is refused no call shows what the link does. -/
theorem harmless_of_respected (hs : Held "wireless" c h) {radio : String}
    {mesh : UCIWirelessIface} (hp : Proceeds w h.tree c radio mesh)
    (hall : ∀ fate, Respected c (fileAfter w h fate)) : Harmless c (linkOf radio mesh) := by
  let fate : Fate := { refuses := fun _ => false, flushes := fun _ _ => false }
  obtain ⟨d, hd, -, hsmooth⟩ := fileAfter_of_proceeds hs hp fate
  obtain rfl := hsmooth fun _ => rfl
  obtain ⟨hkeep, hsrc⟩ := hall fate _ hd
  exact harmless_of_undisturbed hp.mem_refs hp.named hkeep hsrc

/-- **The boot-time backhaul respects the operator's radios, whatever calls
are refused, exactly where the link it gets to is harmless.** -/
theorem respected_iff (hs : Held "wireless" c h) :
    (∀ fate, Respected c (fileAfter w h fate)) ↔
      ∀ radio mesh, Proceeds w h.tree c radio mesh → Harmless c (linkOf radio mesh) := by
  constructor
  · intro hall radio mesh hp
    exact harmless_of_respected hs hp hall
  · intro hharmless fate
    by_cases hp : ∃ radio mesh, Proceeds w h.tree c radio mesh
    · obtain ⟨radio, mesh, hp⟩ := hp
      have hh := hharmless radio mesh hp
      have hr := Uci.Config.ne_empty_of_mem_refs hp.mem_refs
      obtain ⟨d, hd, hcases, -⟩ := fileAfter_of_proceeds hs hp fate
      rw [hd]
      rcases hcases with rfl | rfl | rfl
      · exact respected_self _
      · rintro d ⟨⟩
        have he := effect_linked c radio mesh
        exact ⟨he.undisturbed hr hp.named hh, he.sourced hr hp.named hh⟩
      · rintro d ⟨⟩
        have he := effect_inService mesh hp.mem_refs
        exact ⟨he.undisturbed hr hp.named hh, he.sourced hr hp.named hh⟩
    · push Not at hp
      rw [fileAfter_of_not hs hp]
      exact respected_self _

end Claim

/-- On the node as it comes, no radio is in use, and the mesh is enabled. -/
theorem respected_plainNode :
    Respected plainNode (fileAfter mediatek (bootHost plainNode) (bootHost plainNode).fate) := by
  refine (respected_iff (held_bootHost plainNode)).2 (fun radio mesh hp => ?_) _
  obtain ⟨allInfo, status, hinfo, hstatus, hsole⟩ := hp.sole
  obtain rfl := Except.ok.inj hinfo
  obtain rfl := Except.ok.inj hstatus
  obtain rfl : "radio0" = radio := List.head_eq_of_cons_eq hsole
  obtain rfl : nodeMesh = mesh := Option.some.inj hp.first
  refine ⟨fun ⟨i, hi, hop⟩ => ?_, fun r _ hon => ?_, .inr (.inr ?_)⟩
  · have hall : ∀ i ∈ onRadio plainNode "radio0", firstOf plainNode i "disabled" = "1" := by
      decide +kernel
    exact absurd (hall i hi) hop.2
  · have hmem := (List.mem_filter.1 hon).1
    exact absurd hmem (by decide +kernel)
  · exact ⟨"default_radio1", by decide +kernel, by decide +kernel, by decide +kernel,
      by decide +kernel, by decide +kernel⟩

/-! ## A second access point -/

/-- The operator's access point is moved to the channel of the link. -/
theorem guest_disturbed :
    ¬ ∀ (w : Radios) (h : Host) (c : Uci.Config), Held "wireless" c h →
      ∀ fate, Respected c (fileAfter w h fate) := by
  intro hall
  have hharmless := harmless_of_respected (held_bootHost guestNode) proceeds_guestNode
    (hall mediatek _ _ (held_bootHost guestNode))
  have huse : InUse guestNode "radio0" :=
    ⟨"guest", by decide +kernel, .inl (by decide +kernel), by decide +kernel⟩
  exact absurd (hharmless.radio huse).1 (by decide +kernel)

end Mgmt

end OpenManet
