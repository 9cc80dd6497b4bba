import OpenManet.Wifi.Refusals
import Mathlib.Data.List.Find
/-!
# What a radio's section says

A mesh section carries a mesh ID and no network name; an access point or a
station carries nothing that means something on a mesh only; and no two
interfaces are on one hardif network. Staging a radio keeps this up. What a
section is bound to is read as the handlers read it, by the first value of
its `network` option.

The last part follows a section that was set to mesh: it is on a hardif
network that the network config has as an interface. One the config had
before stays as it was, whatever it is.
-/

namespace OpenManet

namespace Wifi

open Uci Fallible Network
open Setup (firstValue)

variable {f g : Files} {S : WifiConfigService} {u : RadioSettingsUpdate} {st : RadioSettings}
  {cfg : UCIWirelessIface} {c : Uci.Config} {sec other radioName batmesh o v : String}

/-! ## Sections -/

/-- The name is that of a hardif network. -/
def IsBatmesh (name : String) : Prop := Text.hasPrefix name "batmesh" = true

instance (name : String) : Decidable (IsBatmesh name) := inferInstanceAs (Decidable (_ = true))

/-- The section carries what its mode has, and nothing its mode does not. -/
structure Pure (c : Uci.Config) (sec : String) : Prop where
  mesh : firstOf c sec "mode" = "mesh" → firstOf c sec "mesh_id" ≠ "" ∧ c.get sec "ssid" = []
  access : firstOf c sec "mode" = "ap" ∨ firstOf c sec "mode" = "sta" →
    ∀ o ∈ "mesh_id" :: meshOnlyOptions, c.get sec o = []

instance (c : Uci.Config) (sec : String) : Decidable (Pure c sec) :=
  decidable_of_iff ((firstOf c sec "mode" = "mesh" →
      firstOf c sec "mesh_id" ≠ "" ∧ c.get sec "ssid" = []) ∧
    (firstOf c sec "mode" = "ap" ∨ firstOf c sec "mode" = "sta" →
      ∀ o ∈ "mesh_id" :: meshOnlyOptions, c.get sec o = []))
    ⟨fun hboth => ⟨hboth.1, hboth.2⟩, fun hp => ⟨hp.mesh, hp.access⟩⟩

/-- **The wireless config is sound.** -/
structure Sound (c : Uci.Config) : Prop where
  apart : ∀ sec ∈ c.refs "wifi-iface", ∀ other ∈ c.refs "wifi-iface", sec ≠ other →
    IsBatmesh (firstOf c sec "network") → firstOf c other "network" ≠ firstOf c sec "network"
  pure : ∀ sec ∈ c.refs "wifi-iface", Pure c sec

instance (c : Uci.Config) : Decidable (Sound c) :=
  decidable_of_iff ((∀ sec ∈ c.refs "wifi-iface", ∀ other ∈ c.refs "wifi-iface", sec ≠ other →
      IsBatmesh (firstOf c sec "network") →
        firstOf c other "network" ≠ firstOf c sec "network") ∧
    ∀ sec ∈ c.refs "wifi-iface", Pure c sec)
    ⟨fun hboth => ⟨hboth.1, hboth.2⟩, fun hs => ⟨hs.apart, hs.pure⟩⟩

/-- The options an interface is read for here. -/
def watched : List String := ["device", "network", "mode", "mesh_id", "ssid"] ++ meshOnlyOptions

theorem Pure.congr {d : Uci.Config} (hp : Pure c sec)
    (hget : ∀ o ∈ watched, d.get sec o = c.get sec o) : Pure d sec := by
  have hfirst : ∀ o ∈ watched, firstOf d sec o = firstOf c sec o := by
    intro o ho
    rw [firstOf, firstOf, hget o ho]
  have hmode := hfirst "mode" (by decide)
  constructor
  · rw [hmode, hfirst "mesh_id" (by decide), hget "ssid" (by decide)]
    exact hp.mesh
  · rw [hmode]
    intro haccess o ho
    have hin : o ∈ watched := by
      rcases List.mem_cons.1 ho with rfl | ho
      · decide
      · exact List.mem_append_right _ ho
    rw [hget o hin]
    exact hp.access haccess o ho

/-- **One section changed.** Where it is pure again, and on the network it was
on or on one that is no other's hardif, the config is sound again. -/
theorem Sound.moved {d : Uci.Config} (hs : Sound c)
    (hrefs : d.refs "wifi-iface" = c.refs "wifi-iface")
    (hget : ∀ other ∈ c.refs "wifi-iface", other ≠ sec → ∀ o ∈ watched,
      d.get other o = c.get other o) (hpure : Pure d sec)
    (hnet : firstOf d sec "network" = firstOf c sec "network" ∨
      ∀ other ∈ c.refs "wifi-iface", other ≠ sec → IsBatmesh (firstOf c other "network") →
        firstOf c other "network" ≠ firstOf d sec "network") : Sound d := by
  have hkeep : ∀ other ∈ c.refs "wifi-iface", other ≠ sec →
      firstOf d other "network" = firstOf c other "network" := by
    intro other hother hne
    rw [firstOf, firstOf, hget other hother hne _ (by decide)]
  refine ⟨fun a ha b hb hab hbat heq => ?_, fun a ha => ?_⟩
  · rw [hrefs] at ha hb
    by_cases has : a = sec
    · subst has
      rw [hkeep b hb (Ne.symm hab)] at heq
      rcases hnet with hsame | hfree
      · rw [hsame] at hbat heq
        exact hs.apart a ha b hb hab hbat heq
      · rw [← heq] at hbat
        exact hfree b hb (Ne.symm hab) hbat heq
    · rw [hkeep a ha has] at hbat heq
      by_cases hbs : b = sec
      · subst hbs
        rcases hnet with hsame | hfree
        · rw [hsame] at heq
          exact hs.apart a ha b hb hab hbat heq
        · exact hfree a ha hab hbat heq.symm
      · rw [hkeep b hb hbs] at heq
        exact hs.apart a ha b hb hab hbat heq
  · rw [hrefs] at ha
    by_cases has : a = sec
    · subst has
      exact hpure
    · exact (hs.pure a ha).congr (hget a ha has)

/-! ## The options of a request -/

theorem deviceWrites_keys_mem {w : String × String} (hw : w ∈ st.deviceWrites) :
    w.1 ∈ ["channel", "htmode", "country", "txpower"] := by
  obtain ⟨hmem, hval⟩ := List.mem_filter.1 hw
  simp only [deviceOptionFields, List.mem_cons, List.not_mem_nil, or_false] at hmem
  rcases hmem with rfl | rfl | rfl | rfl | rfl | rfl | rfl | rfl | rfl | rfl | rfl | rfl | rfl
    | rfl | rfl | rfl | rfl <;> simp [RadioSettings.devCfg] at hval ⊢

/-- A device option means nothing on an interface. -/
theorem get_device (radioName : String) (st : RadioSettings) (sec : String) (ho : o ∈ watched) :
    (f.device radioName st).wireless.get sec o = f.wireless.get sec o := by
  have hapart : ∀ o ∈ watched, o ∉ ["channel", "htmode", "country", "txpower"] := by decide
  have hother : ∀ w ∈ st.deviceWrites, w.1 ≠ o := by
    rintro w hw rfl
    exact hapart _ ho (deviceWrites_keys_mem hw)
  show ((f.wireless.ensure radioName "wifi-device").writes radioName _).get sec o = _
  rw [Config.get_writes_of_ne hother, Config.get_ensure]

theorem refs_device (radioName : String) (st : RadioSettings) :
    (f.device radioName st).wireless.refs "wifi-iface" = f.wireless.refs "wifi-iface" := by
  show ((f.wireless.ensure radioName "wifi-device").writes radioName _).refs _ = _
  rw [Config.refs_writes, Config.refs_ensure_of_ne (by decide)]

/-- No interface option is written twice. -/
theorem ifaceOptionFields_keys (cfg : UCIWirelessIface) :
    (ifaceOptionFields cfg).Pairwise fun w w' => w.1 ≠ w'.1 := by
  have hkeys : (ifaceOptionFields cfg).map Prod.fst = (ifaceOptionFields {}).map Prod.fst := rfl
  rw [← List.pairwise_map (R := (· ≠ ·)), hkeys]
  decide

/-- What is written of a field is its value, and nothing where that is
empty. -/
theorem lastWrite_written {fields : List (String × String)}
    (hkeys : fields.Pairwise fun w w' => w.1 ≠ w'.1) (hmem : (o, v) ∈ fields) :
    lastWrite (written fields) o = if v = "" then none else some v := by
  by_cases hv : v = ""
  · rw [if_pos hv]
    cases hlast : lastWrite (written fields) o with
    | none => rfl
    | some v' =>
        obtain ⟨hmem', hval⟩ := List.mem_filter.1 (mem_of_lastWrite hlast)
        have hsame : (o, v') = (o, v) := by
          by_contra hdiff
          have hsymm : Std.Symm fun w w' : String × String => w.1 ≠ w'.1 :=
            ⟨fun _ _ hne => Ne.symm hne⟩
          exact hkeys.forall hmem' hmem hdiff rfl
        obtain ⟨-, rfl⟩ := Prod.mk.inj hsame
        simp [hv] at hval
  · rw [if_neg hv]
    have hin : (o, v) ∈ written fields := List.mem_filter.2 ⟨hmem, by simpa using hv⟩
    exact lastWrite_of_mem (List.Pairwise.filter _ hkeys) hin

/-! ## The interface -/

/-- What an interface clears. -/
def Files.cleared (f : Files) (sec : String) (cfg : UCIWirelessIface) : List String :=
  modeClears cfg.mode ++ identityClears (effectiveIfaceMode f.tree sec cfg.mode)

theorem refs_iface (radioName sec : String) (st : RadioSettings) (cfg : UCIWirelessIface) :
    (f.iface radioName sec st cfg).wireless.refs "wifi-iface" = f.wireless.refs "wifi-iface" := by
  show ((f.wireless.drops sec _).writes sec _).refs _ = _
  rw [Config.refs_writes, Config.refs_drops]

/-- **Another section reads as before.** -/
theorem get_iface_of_ne (hsec : sec ∈ f.wireless.refs "wifi-iface")
    (hother : other ∈ f.wireless.refs "wifi-iface") (hne : other ≠ sec) :
    (f.iface radioName sec st cfg).wireless.get other o = f.wireless.get other o := by
  show ((f.wireless.drops sec _).writes sec _).get other o = _
  rw [Config.get_writes_of_ne_ref (by rwa [Config.refs_drops]) (by rwa [Config.refs_drops]) hne,
    Config.get_drops_of_ne_ref hother hsec hne]

/-- **The section reads as written**, else as cleared, else as before. -/
theorem get_iface (hsec : sec ∈ f.wireless.refs "wifi-iface")
    (hmem : (o, v) ∈ ifaceOptionFields (f.ifaceCfg radioName sec st cfg)) :
    (f.iface radioName sec st cfg).wireless.get sec o =
      if v = "" then (if o ∈ f.cleared sec cfg then [] else f.wireless.get sec o) else [v] := by
  have hfind := Config.find_of_mem_refs hsec
  have hthere := Option.isSome_iff_ne_none.2 hfind
  show ((f.wireless.drops sec (f.cleared sec cfg)).writes sec _).get sec o = _
  rw [Config.get_writes_self (by rwa [Config.find_drops_isSome]),
    lastWrite_written (ifaceOptionFields_keys _) hmem, Config.get_drops_self hfind]
  split <;> rfl

theorem not_mem_cleared (ho : o ∉ ["mesh_id", "ssid"] ++ meshOnlyOptions) :
    o ∉ f.cleared sec cfg := by
  simp only [List.mem_append, List.mem_cons, List.not_mem_nil, or_false, not_or] at ho
  obtain ⟨⟨hmeshId, hssid⟩, hown⟩ := ho
  unfold Files.cleared modeClears identityClears
  simp only [List.mem_append, not_or]
  constructor
  · split
    · exact hown
    · exact List.not_mem_nil
  · split
    · simpa using hssid
    · split
      · simpa using hmeshId
      · exact List.not_mem_nil

@[simp] theorem identityOf_device (mode : String) :
    (identityOf mode st cfg).device = cfg.device := by
  unfold identityOf
  split
  · rfl
  · split <;> rfl

@[simp] theorem identityOf_network (mode : String) :
    (identityOf mode st cfg).network = cfg.network := by
  unfold identityOf
  split
  · rfl
  · split <;> rfl

@[simp] theorem identityOf_mode (mode : String) : (identityOf mode st cfg).mode = cfg.mode := by
  unfold identityOf
  split
  · rfl
  · split <;> rfl

theorem effectiveIfaceMode_tree (f : Files) (sec mode : String) :
    effectiveIfaceMode f.tree sec mode =
      if mode = "" then firstOf f.wireless sec "mode" else mode := by
  unfold effectiveIfaceMode firstValue firstOf
  rw [Files.tree_get]
  by_cases hmode : mode = ""
  · rw [if_pos hmode, if_neg (not_not.2 hmode)]
  · rw [if_neg hmode, if_pos hmode]

/-- A field that is never cleared: its value, or the old one where it is
empty. -/
theorem firstOf_iface (hsec : sec ∈ f.wireless.refs "wifi-iface")
    (hmem : (o, v) ∈ ifaceOptionFields (f.ifaceCfg radioName sec st cfg))
    (ho : o ∉ ["mesh_id", "ssid"] ++ meshOnlyOptions) :
    firstOf (f.iface radioName sec st cfg).wireless sec o =
      if v = "" then firstOf f.wireless sec o else v := by
  rw [firstOf, get_iface hsec hmem, if_neg (not_mem_cleared ho)]
  by_cases hv : v = ""
  · rw [if_pos hv, if_pos hv]
    rfl
  · rw [if_neg hv, if_neg hv]
    rfl

theorem get_iface_device (hsec : sec ∈ f.wireless.refs "wifi-iface") (hdev : cfg.device = "") :
    (f.iface radioName sec st cfg).wireless.get sec "device" = f.wireless.get sec "device" := by
  have hmem : ("device", cfg.device) ∈ ifaceOptionFields (f.ifaceCfg radioName sec st cfg) := by
    simp [ifaceOptionFields, Files.ifaceCfg]
  rw [get_iface hsec hmem, if_pos hdev, if_neg (not_mem_cleared (by decide))]

theorem firstOf_iface_network (hsec : sec ∈ f.wireless.refs "wifi-iface") :
    firstOf (f.iface radioName sec st cfg).wireless sec "network" =
      if cfg.network = "" then firstOf f.wireless sec "network" else cfg.network := by
  refine firstOf_iface hsec ?_ (by decide)
  simp [ifaceOptionFields, Files.ifaceCfg]

/-- **The mode of the section** is the effective one. -/
theorem firstOf_iface_mode (hsec : sec ∈ f.wireless.refs "wifi-iface") :
    firstOf (f.iface radioName sec st cfg).wireless sec "mode" =
      effectiveIfaceMode f.tree sec cfg.mode := by
  rw [effectiveIfaceMode_tree]
  refine firstOf_iface hsec ?_ (by decide)
  simp [ifaceOptionFields, Files.ifaceCfg]

/-- A mesh has a mesh ID and no network name. -/
theorem mesh_iface (hsec : sec ∈ f.wireless.refs "wifi-iface") (hssid : cfg.ssid = "")
    (hnamed : st.ssid ≠ "") (hmode : effectiveIfaceMode f.tree sec cfg.mode = "mesh") :
    firstOf (f.iface radioName sec st cfg).wireless sec "mesh_id" ≠ "" ∧
      (f.iface radioName sec st cfg).wireless.get sec "ssid" = [] := by
  have hid : (if st.getMeshId = "" then st.ssid else st.getMeshId) ≠ "" := by
    split
    · exact hnamed
    · assumption
  have hmemId : ("mesh_id", if st.getMeshId = "" then st.ssid else st.getMeshId) ∈
      ifaceOptionFields (f.ifaceCfg radioName sec st cfg) := by
    simp [ifaceOptionFields, Files.ifaceCfg, identityOf, hmode]
  have hmemSsid : ("ssid", "") ∈ ifaceOptionFields (f.ifaceCfg radioName sec st cfg) := by
    simp [ifaceOptionFields, Files.ifaceCfg, identityOf, hmode, hssid]
  have hcleared : "ssid" ∈ f.cleared sec cfg := by
    simp [Files.cleared, identityClears, hmode]
  constructor
  · rw [firstOf, get_iface hsec hmemId, if_neg hid]
    exact hid
  · rw [get_iface hsec hmemSsid, if_pos rfl, if_pos hcleared]

/-- An access point or a station has nothing of a mesh. It is not read from
the section that it is one, or the section had nothing of a mesh before. -/
theorem access_iface (hsec : sec ∈ f.wireless.refs "wifi-iface") (hpure : Pure f.wireless sec)
    {network : String} (hcfg : cfg = { st.baseIface with network := network })
    (hmode : effectiveIfaceMode f.tree sec cfg.mode = "ap" ∨
      effectiveIfaceMode f.tree sec cfg.mode = "sta") :
    ∀ o ∈ "mesh_id" :: meshOnlyOptions,
      (f.iface radioName sec st cfg).wireless.get sec o = [] := by
  intro o ho
  have hcfgMode : cfg.mode = st.baseIface.mode := by rw [hcfg]
  have hcleared : ¬ cfg.mode = "" → o ∈ f.cleared sec cfg := by
    intro hnew
    rw [effectiveIfaceMode_tree, if_neg hnew] at hmode
    have hno : cfg.mode ≠ "mesh" := by
      rcases hmode with h | h <;> simp [h]
    unfold Files.cleared modeClears identityClears
    simp only [effectiveIfaceMode_tree, if_neg hnew]
    rw [if_pos hmode, if_neg hno, if_pos hmode]
    rcases List.mem_cons.1 ho with rfl | ho
    · simp
    · exact List.mem_append_left _ ho
  rw [hcfgMode] at hmode
  have hnoMesh : effectiveIfaceMode f.tree sec st.baseIface.mode ≠ "mesh" := by
    rcases hmode with h | h <;> simp [h]
  have hfloor : admissionFloor f.tree radioName
      (effectiveIfaceMode f.tree sec st.baseIface.mode) st = "" := by
    unfold admissionFloor
    cases st.meshRssiThreshold with
    | none => rfl
    | some v => simp [hnoMesh]
  have hmem : (o, "") ∈ ifaceOptionFields (f.ifaceCfg radioName sec st cfg) := by
    simp only [Files.ifaceCfg, identityOf, if_neg hnoMesh, if_pos hmode, hfloor, hcfg]
    simp only [meshOnlyOptions, secondaryMeshPolicyOptions, List.map_cons, List.map_nil,
      List.cons_append, List.nil_append, List.mem_cons, List.not_mem_nil, or_false] at ho
    rcases ho with rfl | rfl | rfl | rfl | rfl | rfl | rfl | rfl <;>
      simp [ifaceOptionFields, RadioSettings.baseIface]
  rw [get_iface hsec hmem, if_pos rfl]
  by_cases hold : cfg.mode = ""
  · rw [← hcfgMode, effectiveIfaceMode_tree, if_pos hold] at hmode
    rw [hpure.access hmode o ho]
    exact ite_self _
  · exact if_pos (hcleared hold)

/-! ## The network -/

/-- The proto of an interface of the network config, none where there is no
such interface. -/
def interfaceProto (network : Option Uci.Config) (name : String) : Option (List String) :=
  match network with
  | some c => if name ∈ c.refs "interface" then some (c.get name "proto") else none
  | none => none

theorem batmanInterfaceExists_tree (f : Files) (name : String) :
    batmanInterfaceExists f.tree name = (interfaceProto f.network name).isSome := by
  unfold batmanInterfaceExists listing interfaceProto
  have hmem : f.tree.mem "network" = f.network := by simp [Files.tree, wirelessConfig]
  rw [hmem]
  cases f.network with
  | none => rfl
  | some c =>
      by_cases hin : name ∈ c.refs "interface"
      · simp [hin]
      · simp [hin]

/-- **The hardif is there afterwards**, new where there was no such interface,
and no other interface is new or changed. -/
theorem interfaceProto_hardif (hplain : Plain batmesh) (hne : batmesh ≠ "")
    (hok : f.hardif batmesh = some g) (name : String) :
    interfaceProto g.network name =
      if name = batmesh ∧ interfaceProto f.network name = none then some ["batadv_hardif"]
      else interfaceProto f.network name := by
  unfold Files.hardif at hok
  rw [batmanInterfaceExists_tree] at hok
  cases hold : interfaceProto f.network batmesh with
  | some proto =>
      rw [hold] at hok
      obtain rfl := Option.some.inj hok
      rw [if_neg]
      rintro ⟨rfl, hnone⟩
      rw [hold] at hnone
      cases hnone
  | none =>
      rw [hold] at hok
      simp only [Option.isSome_none, Bool.false_eq_true, if_false] at hok
      obtain ⟨n, hn⟩ : ∃ n, f.network.getD Config.empty = n := ⟨_, rfl⟩
      have hbefore : ∀ name, interfaceProto f.network name =
          if name ∈ n.refs "interface" then some (n.get name "proto") else none := by
        intro name
        subst hn
        cases f.network with
        | none => exact (if_neg List.not_mem_nil).symm
        | some c => rfl
      rw [hn] at hok
      cases hfind : n.find batmesh with
      | some s => simp [hfind] at hok
      | none =>
          simp only [hfind, Option.isSome_none, Bool.false_eq_true, if_false] at hok
          obtain rfl := Option.some.inj hok
          have hpush : n.push "interface" batmesh = n.ensure batmesh "interface" := by
            simp [Config.ensure, hfind]
          have hrefs : (n.push "interface" batmesh).refs "interface" =
              n.refs "interface" ++ [batmesh] := by
            rw [hpush, Config.refs_ensure hplain hne (by decide), if_pos ⟨hfind, rfl⟩]
          have hnew : batmesh ∈ (n.push "interface" batmesh).refs "interface" := by
            simp [hrefs]
          simp only [hbefore]
          simp only [interfaceProto, Config.refs_writes, hrefs, List.mem_append,
            List.mem_singleton]
          by_cases hname : name = batmesh
          · subst hname
            have hout : name ∉ n.refs "interface" := fun hin => Config.find_of_mem_refs hin hfind
            rw [if_pos (.inr rfl), if_pos ⟨rfl, if_neg hout⟩, Config.get_writes_self
              (Option.isSome_iff_ne_none.2 (Config.find_of_mem_refs hnew))]
            rfl
          · rw [if_neg (show ¬ (name = batmesh ∧ _) from fun hno => hname hno.1)]
            by_cases hin : name ∈ n.refs "interface"
            · rw [if_pos (.inl hin), if_pos hin, Config.get_writes_of_ne_ref
                (by rw [hrefs]; exact List.mem_append_left _ hin) hnew hname, Config.get_push]
            · rw [if_neg (not_or.2 ⟨hin, hname⟩), if_neg hin]

/-- **The hardif an interface is given** is the one it is on, or a free
one. -/
theorem meshNetwork_ok {network : String}
    (hok : meshNetwork f.tree sec = .ok (network, batmesh)) :
    IsBatmesh batmesh ∧ (network = "" ∧ firstOf f.wireless sec "network" = batmesh ∨
      network = batmesh ∧ ∀ other ∈ f.wireless.refs "wifi-iface", other ≠ sec →
        firstOf f.wireless other "network" ≠ batmesh) := by
  have hparts : ∀ {a b : String},
      (Except.ok (a, b) : Except ConnectError (String × String)) = .ok (network, batmesh) →
        a = network ∧ b = batmesh := fun heq => Prod.mk.inj (Except.ok.inj heq)
  unfold meshNetwork at hok
  dsimp only at hok
  split at hok
  · next hstarts =>
    obtain ⟨rfl, rfl⟩ := hparts hok
    refine ⟨hstarts, .inl ⟨rfl, ?_⟩⟩
    rw [firstOf, firstValue, f.tree_get]
  · split at hok
    · cases hok
    · next unused hunused =>
      obtain ⟨rfl, rfl⟩ := hparts hok
      unfold findUnusedBatmesh at hunused
      rw [f.listing_wireless] at hunused
      dsimp only at hunused
      split at hunused
      · next hfound =>
        obtain rfl := Except.ok.inj hunused
        have hmem := List.mem_of_find?_eq_some hfound
        have hfree := List.find?_some hfound
        simp only [f.tree_get, Bool.not_eq_true', List.contains_eq_mem, decide_eq_false_iff_not,
          List.mem_filterMap, List.mem_filter, not_exists, not_and] at hfree
        have hname : ∀ name ∈ [batmanPrimaryIface, batmanSecondaryIface],
            IsBatmesh name ∧ name ≠ "" := by
          decide
        refine ⟨(hname _ hmem).1, .inr ⟨rfl, fun other hother hne heq => ?_⟩⟩
        -- another section on it would have been seen
        refine hfree other ⟨hother, by simpa using hne⟩ ?_
        unfold firstOf at heq
        cases hhead : (f.wireless.get other "network").head? with
        | none =>
            rw [hhead] at heq
            exact absurd heq.symm (hname _ hmem).2
        | some v =>
            rw [hhead] at heq
            exact congrArg some heq
      · cases hunused

/-! ## One radio -/

/-- **How an interface is placed**, as a mesh or else. -/
theorem place_staged (hok : f.place S radioName sec st = .staged g) :
    (st.mode = .mesh ∧ ∃ network batmesh f' cfg, meshNetwork f.tree sec = .ok (network, batmesh) ∧
      f.hardif batmesh = some f' ∧ cfg.mode = "mesh" ∧ cfg.network = network ∧
      cfg.device = "" ∧ cfg.ssid = "" ∧ g = f'.iface radioName sec st cfg) ∨
    st.mode ≠ .mesh ∧ ∃ network, (network = "" ∨
        network = wifiNetworkAhwlan ∧ (st.baseIface.mode = "ap" ∨ st.baseIface.mode = "sta")) ∧
      g = f.iface radioName sec st { st.baseIface with network := network } := by
  unfold Files.place at hok
  dsimp only at hok
  have hmode : st.baseIface.mode = "mesh" ↔ st.mode = .mesh := by
    cases hm : st.mode <;> simp [RadioSettings.baseIface, protoToWifiMode, hm]
  split at hok
  · next hmesh =>
    refine .inl ⟨hmode.1 hmesh, ?_⟩
    split at hok
    · cases hok
    · next network batmesh hnet =>
      split at hok
      · cases hok
      · next f' hf' =>
        obtain rfl := Outcome.staged.inj hok
        refine ⟨network, batmesh, f', _, hnet, hf', ?_, ?_, ?_, ?_, rfl⟩ <;>
          unfold WifiConfigService.stageSecondaryMeshPolicy <;> split
        · exact hmesh
        · exact hmesh
        · rfl
        · rfl
        · rfl
        · rfl
        · rfl
        · rfl
  · next hno =>
    refine .inr ⟨mt hmode.2 hno, ?_⟩
    split at hok
    · next haccess => exact ⟨_, .inr ⟨rfl, haccess⟩, (Outcome.staged.inj hok).symm⟩
    · exact ⟨_, .inl rfl, (Outcome.staged.inj hok).symm⟩

/-- The files a radio that passes its checks is staged to. Its device section
may be missing, where nothing is written to it. -/
def Stepped (S : WifiConfigService) (f : Files) (u : RadioSettingsUpdate) (g : Files) : Prop :=
  ∃ st sec, checkRadio f.tree u.radioName u.settings = .ok (st, sec) ∧
    ((f.device u.radioName st).place S u.radioName sec st = .staged g ∨
      f.place S u.radioName sec st = .staged g)

/-- What every interface but one has kept, and the one has too of its link. -/
structure Kept (sec : String) (c d : Uci.Config) : Prop where
  refs : d.refs "wifi-iface" = c.refs "wifi-iface"
  others : ∀ other ∈ c.refs "wifi-iface", other ≠ sec → ∀ o ∈ watched, d.get other o = c.get other o
  device : d.get sec "device" = c.get sec "device"

theorem kept_iface (hsec : sec ∈ f.wireless.refs "wifi-iface") (hdev : cfg.device = "") :
    Kept sec f.wireless (f.iface radioName sec st cfg).wireless where
  refs := refs_iface ..
  others := fun _ hother hne _ _ => get_iface_of_ne hsec hother hne
  device := get_iface_device hsec hdev

theorem hardif_wireless (hok : f.hardif batmesh = some g) : g.wireless = f.wireless := by
  unfold Files.hardif at hok
  split at hok
  · rw [Option.some.inj hok]
  · dsimp only at hok
    split at hok
    · cases hok
    · rw [← Option.some.inj hok]

/-- What placing an interface leaves: the section in its mode, and bound where
that is mesh. -/
structure Placed (sec : String) (m : WifiMode) (f g : Files) : Prop where
  kept : Kept sec f.wireless g.wireless
  sound : Sound g.wireless
  mode : firstOf g.wireless sec "mode" =
    if protoToWifiMode m = "" then firstOf f.wireless sec "mode" else protoToWifiMode m
  bound : m = .mesh → IsBatmesh (firstOf g.wireless sec "network") ∧
    (interfaceProto g.network (firstOf g.wireless sec "network")).isSome = true
  unbound : protoToWifiMode m = "" →
    firstOf g.wireless sec "network" = firstOf f.wireless sec "network"
  network : ∀ name, interfaceProto g.network name = interfaceProto f.network name ∨
    interfaceProto f.network name = none ∧ interfaceProto g.network name = some ["batadv_hardif"]

/-- **A placed interface keeps the config sound.** -/
theorem placed (hs : Sound f.wireless) (hsec : sec ∈ f.wireless.refs "wifi-iface")
    (hnamed : st.ssid ≠ "") (hok : f.place S radioName sec st = .staged g) :
    Placed sec st.mode f g := by
  rcases place_staged hok with ⟨hmesh, network, batmesh, f', cfg, hnet, hhardif, hmode, hnetwork,
    hdev, hssid, rfl⟩ | ⟨hno, network, hnetwork, rfl⟩
  · -- a mesh, on the hardif it has or on a free one
    have hsame := hardif_wireless hhardif
    have hsec' : sec ∈ f'.wireless.refs "wifi-iface" := by rwa [hsame]
    obtain ⟨hbatmesh, hslot⟩ := meshNetwork_ok hnet
    obtain ⟨hplain, hne⟩ := plain_of_meshNetwork hnet
    have heff : effectiveIfaceMode f'.tree sec cfg.mode = "mesh" := by
      rw [effectiveIfaceMode_tree, hmode]
      exact if_neg (by decide)
    have hgiven : firstOf (f'.iface radioName sec st cfg).wireless sec "network" = batmesh := by
      rw [firstOf_iface_network hsec', hnetwork, hsame]
      rcases hslot with ⟨rfl, hold⟩ | ⟨rfl, -⟩
      · rw [if_pos rfl, hold]
      · exact if_neg hne
    have hkept : Kept sec f.wireless (f'.iface radioName sec st cfg).wireless := by
      rw [← hsame]
      exact kept_iface hsec' hdev
    have hnew : firstOf (f'.iface radioName sec st cfg).wireless sec "mode" = "mesh" := by
      rw [firstOf_iface_mode hsec', heff]
    have hpure : Pure (f'.iface radioName sec st cfg).wireless sec := by
      refine ⟨fun _ => mesh_iface hsec' hssid hnamed heff, fun haccess => ?_⟩
      rw [hnew] at haccess
      simp at haccess
    have hproto := interfaceProto_hardif hplain hne hhardif
    refine ⟨hkept, hs.moved hkept.refs hkept.others hpure ?_, ?_, fun _ => ⟨?_, ?_⟩, ?_, ?_⟩
    · rw [hgiven]
      rcases hslot with ⟨-, hold⟩ | ⟨-, hfree⟩
      · exact .inl hold.symm
      · exact .inr fun other hother hother' _ => hfree other hother hother'
    · rw [hnew, hmesh]
      rfl
    · rw [hgiven]
      exact hbatmesh
    · rw [hgiven]
      show (interfaceProto f'.network batmesh).isSome = true
      rw [hproto]
      cases hold : interfaceProto f.network batmesh with
      | none => rw [if_pos ⟨rfl, rfl⟩]; rfl
      | some proto => rw [if_neg fun hno => by cases hno.2]; rfl
    · rw [hmesh]
      exact fun hno => absurd hno (by decide)
    · intro name
      show interfaceProto f'.network name = _ ∨ _ ∧ interfaceProto f'.network name = _
      rw [hproto]
      by_cases hold : name = batmesh ∧ interfaceProto f.network name = none
      · rw [if_pos hold]
        exact .inr ⟨hold.2, rfl⟩
      · rw [if_neg hold]
        exact .inl rfl
  · -- no mesh is asked for: the bridge, or the network the section has
    obtain ⟨cfg, hcfg⟩ : ∃ cfg, cfg = { st.baseIface with network := network } := ⟨_, rfl⟩
    have hcfgMode : cfg.mode = st.baseIface.mode := by rw [hcfg]
    have hcfgNetwork : cfg.network = network := by rw [hcfg]
    have hcfgDevice : cfg.device = "" := by rw [hcfg]; rfl
    have hcfgSsid : cfg.ssid = "" := by rw [hcfg]; rfl
    rw [← hcfg]
    have hkept : Kept sec f.wireless (f.iface radioName sec st cfg).wireless :=
      kept_iface hsec hcfgDevice
    have hmode : firstOf (f.iface radioName sec st cfg).wireless sec "mode" =
        effectiveIfaceMode f.tree sec st.baseIface.mode := by
      rw [firstOf_iface_mode hsec, hcfgMode]
    have hgiven : firstOf (f.iface radioName sec st cfg).wireless sec "network" =
        if network = "" then firstOf f.wireless sec "network" else network := by
      rw [firstOf_iface_network hsec, hcfgNetwork]
    have hpure : Pure (f.iface radioName sec st cfg).wireless sec := by
      constructor
      · rw [hmode, ← hcfgMode]
        exact mesh_iface hsec hcfgSsid hnamed
      · rw [hmode, ← hcfgMode]
        exact access_iface hsec (hs.pure sec hsec) hcfg
    refine ⟨hkept, hs.moved hkept.refs hkept.others hpure ?_, ?_, fun hmesh => absurd hmesh hno,
      ?_, fun name => .inl rfl⟩
    · rw [hgiven]
      rcases hnetwork with rfl | ⟨rfl, -⟩
      · exact .inl (if_pos rfl)
      · refine .inr fun other _ _ hbatmesh heq => ?_
        rw [heq, if_neg (show ¬ wifiNetworkAhwlan = "" by decide)] at hbatmesh
        exact absurd hbatmesh (by decide)
    · rw [hmode, effectiveIfaceMode_tree]
      rfl
    · intro hkeep
      rw [hgiven]
      rcases hnetwork with rfl | ⟨rfl, hap⟩
      · exact if_pos rfl
      · have hbase : st.baseIface.mode = "" := hkeep
        rw [hbase] at hap
        simp at hap

/-- Every interface is linked to the radio it was linked to. -/
theorem linkedIface_congr {f' : Files}
    (hrefs : g.wireless.refs "wifi-iface" = f'.wireless.refs "wifi-iface")
    (hdevice : ∀ sec ∈ f'.wireless.refs "wifi-iface",
      g.wireless.get sec "device" = f'.wireless.get sec "device") (radioName : String) :
    linkedIface g.tree radioName = linkedIface f'.tree radioName := by
  have hfind : findLinkedIface radioName (f'.wireless.refs "wifi-iface") g.tree =
      findLinkedIface radioName (f'.wireless.refs "wifi-iface") f'.tree := by
    unfold findLinkedIface
    refine congrArg (Option.getD · "") (List.find?_congr fun sec hsec => ?_)
    rw [g.tree_get, f'.tree_get, hdevice sec hsec]
  unfold linkedIface
  rw [g.listing_wireless, f'.listing_wireless, hrefs]
  dsimp only
  rw [hfind]

theorem Kept.get_device {c d : Uci.Config} (hk : Kept sec c d) {other : String}
    (hother : other ∈ c.refs "wifi-iface") : d.get other "device" = c.get other "device" := by
  by_cases hsec : other = sec
  · subst hsec
    exact hk.device
  · exact hk.others other hother hsec _ (by decide)

end Wifi

end OpenManet
