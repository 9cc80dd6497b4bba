import OpenManet.Network.Frame
import OpenManet.Lib.Uci.Walk
/-!
# Bridges and the devices of interfaces

What the network config says about which port goes where: the bridges with
their ports, and the `device` of an interface. Most edits leave both to be
read as before; what is said here is what the others do.
-/

namespace OpenManet

namespace Network

open Uci Fallible

variable {ref n type option name : String} {values : List String} {cs born : List String}
  {α : Type}

/-! ## The bridges of a config -/

/-- A section that makes a bridge. -/
def bridging (s : Section) : Bool := s.type = "device" && (s.get "type").head? == some "bridge"

/-- A bridge, with the name of its section: empty when that is anonymous. -/
structure Bridge where
  sectionName : String
  name : List String
  ports : List String
deriving DecidableEq

def bridgeOf (s : Section) : Bridge := ⟨s.name, s.get "name", s.get "ports"⟩

def bridgesAmong (l : List Section) : List Bridge := (l.filter bridging).map bridgeOf

/-- The bridges of a tree, in file order. -/
def bridges (t : Tree) : List Bridge :=
  match t.mem "network" with
  | some c => bridgesAmong c.sections
  | none => []

/-- The bridge bears the name. -/
def Bridge.isCalled (name : String) (x : Bridge) : Bool := x.name.head? == some name

theorem bridges_of_mem {t : Tree} {c : Config} (h : t.mem "network" = some c) :
    bridges t = bridgesAmong c.sections := by
  rw [bridges, h]

@[simp] theorem bridgesAmong_append (a b : List Section) :
    bridgesAmong (a ++ b) = bridgesAmong a ++ bridgesAmong b := by
  simp [bridgesAmong]

theorem bridgesAmong_cons (s : Section) (l : List Section) :
    bridgesAmong (s :: l) = bridgesAmong [s] ++ bridgesAmong l := bridgesAmong_append [s] l

theorem bridgesAmong_single (s : Section) :
    bridgesAmong [s] = if bridging s = true then [bridgeOf s] else [] := by
  unfold bridgesAmong
  cases h : bridging s <;> simp [h]

theorem mem_bridgesAmong {x : Bridge} {l : List Section} :
    x ∈ bridgesAmong l ↔ ∃ s ∈ l, bridging s = true ∧ bridgeOf s = x := by
  simp [bridgesAmong, and_assoc]

/-- The options that make a bridge what it is. -/
def bridgeOptions : List String := ["type", "name", "ports"]

/-- An edit that leaves some options alone. -/
def Leaving (os : List String) (f : Table (List String) → Table (List String)) : Prop :=
  ∀ o ∈ os, ∀ t, (f t).lookup o = t.lookup o

variable {os : List String} {f : Table (List String) → Table (List String)}

theorem leaving_insert (h : option ∉ os) : Leaving os fun o => o.insert option values := by
  intro o ho t
  refine AList.lookup_insert_ne ?_
  rintro rfl
  exact h ho

theorem leaving_erase (h : option ∉ os) : Leaving os fun o => o.erase option := by
  intro o ho t
  refine AList.lookup_erase_ne ?_
  rintro rfl
  exact h ho

theorem Leaving.get (hf : Leaving os f) (s : Section) {o : String} (ho : o ∈ os) :
    (s.edit f).get o = s.get o := by
  simp only [Section.get, Section.edit, hf o ho]

theorem bridging_edit (hf : Leaving bridgeOptions f) (s : Section) :
    bridging (s.edit f) = bridging s := by
  unfold Network.bridging
  rw [hf.get s (o := "type") (by decide), Section.edit_type]

theorem bridgeOf_edit (hf : Leaving bridgeOptions f) (s : Section) :
    bridgeOf (s.edit f) = bridgeOf s := by
  simp only [Network.bridgeOf, hf.get s (o := "name") (by decide),
    hf.get s (o := "ports") (by decide), Section.edit_name]

/-- Sections whose edit is not seen make the same bridges. -/
theorem bridgesAmong_map {g : Nat × Section → Section} {l : List (Nat × Section)}
    (hb : ∀ e ∈ l, bridging (g e) = bridging e.2)
    (ho : ∀ e ∈ l, bridging e.2 = true → bridgeOf (g e) = bridgeOf e.2) :
    bridgesAmong (l.map g) = bridgesAmong (l.map Prod.snd) := by
  induction l with
  | nil => rfl
  | cons e l ih =>
      have hrest := ih (fun e he => hb e (List.mem_cons_of_mem _ he))
        fun e he => ho e (List.mem_cons_of_mem _ he)
      simp only [List.map_cons]
      rw [bridgesAmong_cons, hrest, bridgesAmong_cons e.2, bridgesAmong_single, bridgesAmong_single,
        hb e (List.mem_cons_self ..)]
      cases hbr : bridging e.2 with
      | false => rfl
      | true => rw [if_pos rfl, if_pos rfl, ho e (List.mem_cons_self ..) hbr]

theorem bridgesAmong_update (hf : Leaving bridgeOptions f) (c : Config) (ref : String) :
    bridgesAmong (c.update ref f).sections = bridgesAmong c.sections := by
  rw [← Config.entries_snd c]
  refine bridgesAmong_map (fun e _ => ?_) fun e _ _ => ?_
  · split
    · exact bridging_edit hf e.2
    · rfl
  · split
    · exact bridgeOf_edit hf e.2
    · rfl

/-- A new section is no bridge yet. -/
theorem bridgesAmong_push (c : Config) (type name : String) :
    bridgesAmong (c.push type name).sections = bridgesAmong c.sections := by
  rcases Config.entries_push c type name with hsame | ⟨i, hi⟩
  · rw [hsame]
  · rw [← Config.entries_snd, hi, List.map_append, Config.entries_snd, bridgesAmong_append]
    have hnew : bridging ⟨type, name, ∅⟩ = false := by simp [bridging, Section.get]
    simp [bridgesAmong, hnew]

/-- The sections of devices are all that counts. -/
theorem bridgesAmong_devices (c : Config) : bridgesAmong c.sections =
    bridgesAmong ((c.entries.filter fun e => e.2.type = "device").map Prod.snd) := by
  have hsome : ∀ l : List (Nat × Section), bridgesAmong (l.map Prod.snd) =
      bridgesAmong ((l.filter fun e => e.2.type = "device").map Prod.snd) := by
    intro l
    induction l with
    | nil => rfl
    | cons e l ih =>
        rw [List.map_cons, bridgesAmong_cons, ih, List.filter_cons]
        by_cases htype : e.2.type = "device"
        · rw [if_pos (by simpa using htype)]
          exact (bridgesAmong_cons e.2 _).symm
        · have hno : bridging e.2 = false := by simp [bridging, htype]
          rw [if_neg (by simpa using htype), bridgesAmong_single, if_neg (by simp [hno])]
          rfl
  rw [← Config.entries_snd c, hsome]

/-! ## Programs that leave the wiring alone -/

/-- The section of a bridge the wizard makes. -/
def wizardBridge (name : String) : String := "wizard_bridge_" ++ sanitizeUCIName name

/-- The ports of that section before it is made a bridge. -/
def staleSection (name : String) (t : Tree) : List String :=
  if t.kind "network" (wizardBridge name) = some "device" then
    t.get "network" (wizardBridge name) "ports"
  else []

/-- The interfaces that may lead upstream. -/
def uplinkNames : List String := ["lan", "wan", "wan6"]

/-- The bound of programs that leave the bridges, the devices of those
interfaces and what may become a bridge to be read as before. -/
def Wired : Bound Host where
  rel h h' := bridges h'.tree = bridges h.tree ∧
    (∀ n ∈ uplinkNames, h'.tree.get "network" n "device" = h.tree.get "network" n "device") ∧
    ∀ name, staleSection name h'.tree = staleSection name h.tree
  refl _ := ⟨rfl, fun _ _ => rfl, fun _ => rfl⟩
  trans h h' := ⟨h'.1.trans h.1, fun n hn => (h'.2.1 n hn).trans (h.2.1 n hn),
    fun name => (h'.2.2 name).trans (h.2.2 name)⟩

/-- The options an edit has to leave alone for that. -/
def wiring : List String := "device" :: bridgeOptions

theorem wired_of_edits {m : Prog α} (hm : Within (Edits cs born) m) (hc : "network" ∉ cs) :
    Within Wired m := by
  intro h
  have hmem := ((hm h).2.1 "network" hc).1
  refine ⟨?_, fun n _ => get_congr hmem, fun name => ?_⟩
  · rw [bridges, bridges, hmem]
  · rw [staleSection, staleSection, kind_congr hmem, get_congr hmem]

theorem wired_getSections {config : String} : Within Wired (getSections config type) := by
  have hm : Within (Edits [] []) (getSections config type) := within_getSections
  exact wired_of_edits hm List.not_mem_nil

theorem looks_bridges_editSection (hf : Leaving bridgeOptions f) :
    Within (Looks bridges) (editSection "network" ref f) := by
  refine looks_editSection fun t c hmem hfind => ?_
  rw [bridges_of_mem (Tree.stage_mem _ _ _), bridges_of_mem hmem, bridgesAmong_update hf]

theorem looks_stale_editSection (hf : Leaving bridgeOptions f) :
    Within (Looks (staleSection name)) (editSection "network" ref f) := by
  intro h
  have hkind : Within (Looks fun t => t.kind "network" (wizardBridge name))
      (editSection "network" ref f) := looks_kind_editSection
  have hports : Within (Looks fun t => t.get "network" (wizardBridge name) "ports")
      (editSection "network" ref f) := looks_get_of_lookup (hf "ports" (by decide))
  have hkind' : (final (editSection "network" ref f) h).tree.kind "network" (wizardBridge name)
      = h.tree.kind "network" (wizardBridge name) := hkind h
  have hports' : (final (editSection "network" ref f) h).tree.get "network" (wizardBridge name) "ports"
      = h.tree.get "network" (wizardBridge name) "ports" := hports h
  show staleSection name _ = staleSection name _
  rw [staleSection, staleSection, hkind', hports']

theorem wired_editSection (hf : Leaving wiring f) :
    Within Wired (editSection "network" ref f) := by
  intro h
  have hbr : Leaving bridgeOptions f := fun o ho => hf o (List.mem_cons_of_mem _ ho)
  exact ⟨looks_bridges_editSection hbr h,
    fun _ _ => looks_get_of_lookup (hf "device" (List.mem_cons_self ..)) h,
    fun _ => looks_stale_editSection hbr h⟩

theorem wired_setType (h : option ∉ wiring) :
    Within Wired (setType "network" ref option values) := wired_editSection (leaving_insert h)

theorem wired_del (h : option ∉ wiring) : Within Wired (del "network" ref option) :=
  wired_editSection (leaving_erase h)

theorem wired_setOptions {what : String → String} {ws : List (String × String)}
    (h : ∀ w ∈ ws, w.1 ∉ wiring) : Within Wired (setOptions "network" ref what ws) :=
  within_forM_of_mem fun w hw => within_saying (wired_setType (h w hw))

theorem wired_addSection : Within Wired (addSection "network" name type) := by
  intro h
  have hlook : Within (Looks bridges) (addSection "network" name type) := by
    refine looks_addSection fun t _ => ?_
    rw [bridges_of_mem (Tree.stage_mem _ _ _), bridgesAmong_push]
    cases hmem : t.mem "network" with
    | some c => rw [bridges_of_mem hmem, Option.getD_some]
    | none => rw [bridges, hmem, Option.getD_none]; rfl
  have hstale : ∀ m, Within (Looks (staleSection m)) (addSection "network" name type) := by
    intro m
    refine looks_addSection fun t hnew => ?_
    have hget : ∀ o, (t.stage "network" (((t.mem "network").getD Config.empty).push type name)).get
        "network" (wizardBridge m) o = t.get "network" (wizardBridge m) o := by
      intro o
      rw [Tree.stage_get, Config.get_push, Uci.Tree.get]
      cases t.mem "network" <;> rfl
    rw [staleSection, staleSection, hget]
    by_cases hm : wizardBridge m = name
    · -- where there was no section there were no ports
      have hnone : t.kind "network" (wizardBridge m) = none := by
        unfold Tree.kind
        cases hmem : t.mem "network" with
        | none => rfl
        | some c =>
            rw [hmem, Option.getD_some] at hnew
            simp [hm, hnew]
      rw [hnone, Tree.get_of_kind hnone, ite_self, ite_self]
    · have hkind : (t.stage "network" (((t.mem "network").getD Config.empty).push type name)).kind
          "network" (wizardBridge m) = t.kind "network" (wizardBridge m) := by
        have hplain : Plain (wizardBridge m) := plain_append (by decide) (by decide) _
        rw [Tree.stage_kind, Config.find_push_ne hplain hm, Tree.kind]
        cases t.mem "network" <;> rfl
      rw [hkind]
  exact ⟨hlook h, fun n _ => looks_get_addSection h, fun m => hstale m h⟩

theorem wired_ensureInterface {what : String} : Within Wired (ensureInterface n what) := by
  refine within_bind ?_ fun found => within_ite (within_pure _) (within_saying wired_addSection)
  refine within_bind (within_attempt wired_getSections) fun r => ?_
  cases r with
  | ok sections => exact within_pure _
  | error e => exact within_pure _

theorem wired_ensureUplinkInterface {proto : String} :
    Within Wired (ensureUplinkInterface n proto) :=
  within_bind wired_ensureInterface fun _ => wired_setType (by decide)

theorem wired_setupBatmanDevice {gwMode deviceName multicastMode : String} :
    Within Wired (setupBatmanDeviceOnNetwork gwMode deviceName multicastMode) := by
  refine within_bind wired_ensureInterface fun _ => wired_setOptions ?_
  simp [batmanDeviceOptions, wiring, bridgeOptions]

theorem wired_setupBatmanInterface {deviceName : String} :
    Within Wired (setupBatmanInterfaceOnDevice deviceName) := by
  refine within_forM fun n => within_bind wired_ensureInterface fun _ => wired_setOptions ?_
  simp [wiring, bridgeOptions]

/-- The mesh interface is bound to its bridge, and no other is. -/
theorem wired_setupAhwlanInterface {ipaddr : String} :
    Within Wired (setupAhwlanInterface ipaddr) := by
  have hbind : Within Wired (setType "network" "ahwlan" "device" ["br-ahwlan"]) := by
    intro h
    refine ⟨looks_bridges_editSection (leaving_insert (by decide)) h, fun n hn => ?_,
      fun _ => looks_stale_editSection (leaving_insert (by decide)) h⟩
    have hname : Plain n ∧ n ≠ "ahwlan" := by
      revert hn
      simp only [uplinkNames, List.mem_cons, List.not_mem_nil, or_false]
      rintro (rfl | rfl | rfl) <;> decide
    exact looks_get_of_ne (by decide) hname.1 hname.2 h
  refine within_bind wired_ensureInterface fun _ => within_bind ?_ fun _ =>
    within_bind (within_saying (wired_setType (by decide))) fun _ =>
      within_ite (within_pure _) (within_bind (within_saying (wired_setType (by decide))) fun _ =>
        within_saying (wired_setType (by decide)))
  refine within_forM_of_mem fun w hw => within_saying ?_
  simp only [List.mem_cons, List.not_mem_nil, or_false] at hw
  rcases hw with rfl | rfl | rfl | rfl | rfl
  · exact wired_setType (by decide)
  · exact wired_setType (by decide)
  · exact wired_setType (by decide)
  · exact wired_setType (by decide)
  · exact hbind

/-- An edit of a named section that is no bridge. -/
theorem bridgesAmong_update_named {c : Config} (hn : Plain n)
    (hno : ∀ x ∈ bridgesAmong c.sections, x.sectionName ≠ n) (hf : Leaving ["type"] f) :
    bridgesAmong (c.update n f).sections = bridgesAmong c.sections := by
  have hout : ∀ e ∈ c.entries, answers n e = true → bridging e.2 = false := by
    intro e he hans
    rw [Config.answers_plain hn, decide_eq_true_iff] at hans
    rw [Bool.eq_false_iff]
    exact fun hbr => hno (bridgeOf e.2)
      (mem_bridgesAmong.2 ⟨e.2, Config.mem_of_entries he, hbr, rfl⟩) hans
  rw [← Config.entries_snd c]
  refine bridgesAmong_map (fun e he => ?_) fun e he hbr => ?_
  · split
    · unfold bridging
      rw [hf.get e.2 (o := "type") (by decide), Section.edit_type]
    · rfl
  · split
    · next hans =>
      rw [hout e he hans] at hbr
      cases hbr
    · rfl

/-! ## Walks -/

/-- **A walk deletes what it finds at the addresses it listed.** -/
theorem leaves_deleteSections {config what : String} {doomed : Tree → String → Bool}
    {sel : Config → String → Bool}
    (hsel : ∀ t c ref, t.mem config = some c → doomed t ref = sel c ref) (h : Host) :
    Leaves (deleteSections config type what doomed) h fun _ h' =>
      ∃ c, h.tree.mem config = some c ∧
        h'.tree.mem config = some (c.walk sel (c.refs type)) := by
  unfold deleteSections
  rw [leaves_bind, leaves_saying]
  refine leaves_getSections fun c tick hmem => ?_
  refine (leaves_walk (fun ref c' g hmem' => leaves_walk_turn hsel hmem') _ c
    { h with tick := tick } hmem).mono fun _ h' hmem' => ?_
  exact ⟨c, hmem, hmem'⟩

/-- The rules are walked over from the last to the first, and none is spared. -/
theorem walks_removeAllRules (h : Host) :
    Leaves removeAllRules h fun _ h' => ∃ c, h.tree.mem "firewall" = some c ∧
      h'.tree.mem "firewall" = some (c.walk (fun _ _ => true) (c.refs "rule").reverse) := by
  unfold removeAllRules
  rw [leaves_bind, leaves_saying]
  refine leaves_getSections fun c tick hmem => ?_
  refine (leaves_walk (fun ref c' g hmem' => ?_) _ c { h with tick := tick } hmem).mono
    fun _ h' hmem' => ⟨c, hmem, hmem'⟩
  rw [leaves_saying]
  refine leaves_delSection fun c'' tick hmem'' => ?_
  obtain rfl : c' = c'' := Option.some.inj (hmem'.symm.trans hmem'')
  exact Tree.stage_mem _ _ _

/-- The section at an address is of type bridge. -/
def bridgeAt (c : Config) (ref : String) : Bool := (c.get ref "type").head? == some "bridge"

/-- The config once the old bridges were walked over. -/
def sweep (c : Config) : Config := c.walk bridgeAt (c.refs "device")

theorem leaves_removeAllBridgeDevices (h : Host) :
    Leaves removeAllBridgeDevices h fun _ h' =>
      ∃ c, h.tree.mem "network" = some c ∧ h'.tree.mem "network" = some (sweep c) := by
  refine leaves_deleteSections (fun t c ref hmem => ?_) h
  unfold isBridge bridgeAt
  rw [Tree.get_of_mem hmem]

/-- **The bridges passed over have no name of their own.** -/
theorem section_of_swept {c : Config} {x : Bridge} (hx : x ∈ bridgesAmong (sweep c).sections) :
    x.sectionName = "" := by
  obtain ⟨s, hs, hbr, rfl⟩ := mem_bridgesAmong.1 hx
  by_contra hne
  have hne' : s.name ≠ "" := hne
  have hplain : Plain s.name := (sweep c).plain s hs
  simp only [bridging, Bool.and_eq_true, decide_eq_true_iff] at hbr
  have hfind : c.find s.name = some s :=
    (Config.find_eq_some_iff hplain hne').2 ⟨Config.mem_of_mem_walk hs, rfl⟩
  have hgone : (sweep c).find s.name ≠ some s := by
    refine Config.doomed_of_mem_walk hplain hne'
      ((Config.name_mem_refs_iff hplain hne').2 ⟨s, hfind, hbr.1⟩) fun c' hc' => ?_
    rw [bridgeAt, Config.get, hc']
    exact hbr.2
  exact hgone ((Config.find_eq_some_iff hplain hne').2 ⟨hs, rfl⟩)

/-- A deletion that takes no bridge. -/
theorem bridgesAmong_erase {c : Config} (h : ∀ e ∈ c.entries, bridging e.2 = true → ownRef e ≠ ref) :
    bridgesAmong (c.erase ref).sections = bridgesAmong c.sections := by
  have hkeep : ∀ l : List (Nat × Section), (∀ e ∈ l, e ∈ c.entries) →
      bridgesAmong ((l.filter fun e => ownRef e ≠ ref).map Prod.snd)
        = bridgesAmong (l.map Prod.snd) := by
    intro l hl
    induction l with
    | nil => rfl
    | cons e l ih =>
        have hrest := ih fun e' he' => hl e' (List.mem_cons_of_mem _ he')
        rw [List.map_cons, bridgesAmong_cons, ← hrest, List.filter_cons]
        by_cases hown : ownRef e = ref
        · have hno : ¬ bridging e.2 = true := fun hbr => h e (hl e (List.mem_cons_self ..)) hbr hown
          rw [if_neg (by simpa using hown), bridgesAmong_single, if_neg hno]
          rfl
        · rw [if_pos (by simpa using hown)]
          exact bridgesAmong_cons e.2 _
  rw [← Config.entries_snd c]
  exact hkeep c.entries fun _ he => he

/-- Sections with a name are no bridge the walk has passed over. -/
theorem bridgesAmong_erase_named {c : Config} (hanon : ∀ x ∈ bridgesAmong c.sections, x.sectionName = "")
    (hn : Plain n) : bridgesAmong (c.erase n).sections = bridgesAmong c.sections := by
  refine bridgesAmong_erase fun e he hbr hown => ?_
  have hname : e.2.name = "" :=
    hanon (bridgeOf e.2) (mem_bridgesAmong.2 ⟨e.2, Config.mem_of_entries he, hbr, rfl⟩)
  rw [Config.ownRef_of_anonymous hname] at hown
  exact hn.ne_anonRef _ _ hown.symm

/-- Interfaces are no bridges. -/
theorem bridgesAmong_walk_interfaces (sel : Config → String → Bool) (c : Config) :
    bridgesAmong (c.walk sel (c.refs "interface")).sections = bridgesAmong c.sections := by
  rw [bridgesAmong_devices, bridgesAmong_devices c, Config.entries_walk_of_type]
  intro ref hi hd
  exact absurd (Config.type_of_mem_refs hi hd) (by decide)

/-! ## What the reset leaves of an interface -/

/-- What is to be read of a named section: its type, its device and its
ports. -/
def standing (n : String) (t : Tree) : Option String × List String × List String :=
  (t.kind "network" n, t.get "network" n "device", t.get "network" n "ports")

theorem standing_eq {t t' : Tree} (hkind : t'.kind "network" n = t.kind "network" n)
    (hget : ∀ o, t'.get "network" n o = t.get "network" n o) : standing n t' = standing n t := by
  rw [standing, standing, hkind, hget, hget]

theorem steady_del (hd : option ≠ "device") (hp : option ≠ "ports") :
    Within (Looks (standing n)) (del "network" ref option) := by
  intro h
  have hkind : Within (Looks fun t => t.kind "network" n) (del "network" ref option) :=
    looks_kind_editSection
  have hdev : Within (Looks fun t => t.get "network" n "device") (del "network" ref option) :=
    looks_get_del hd
  have hports : Within (Looks fun t => t.get "network" n "ports") (del "network" ref option) :=
    looks_get_del hp
  exact Prod.ext (hkind h) (Prod.ext (hdev h) (hports h))

theorem steady_delSection (hn : Plain n) (hne : n ≠ "") (href : n ≠ ref) :
    Within (Looks (standing n)) (delSection "network" ref) := by
  refine within_call (fun _ _ => rfl) fun h tick a t hok => ?_
  cases hmem : h.tree.mem "network" with
  | none => simp [hmem] at hok
  | some c =>
      obtain rfl : h.tree.stage "network" (c.erase ref) = t := by simpa [hmem] using hok
      refine standing_eq ?_ fun o => ?_
      · rw [Tree.stage_kind, Config.find_erase hn hne, if_neg href, Tree.kind_of_mem hmem]
      · rw [Tree.stage_get, Config.get_erase hn hne, if_neg href, Tree.get_of_mem hmem]

/-- The MTUs are cleared without touching a named section. -/
theorem steady_unsetDeviceMTU (hn : Plain n) (hne : n ≠ "")
    (hstarts : Text.hasPrefix n wizardDeviceSectionPrefix = false) (names : List String) :
    Within (Looks (standing n)) (unsetDeviceMTU names) := by
  refine within_bind (within_saying looks_getSections) fun sections =>
    within_bind (within_forM fun s => within_ite (within_pure _) ?_) fun _ => ?_
  · refine within_bind within_tree fun t => ?_
    split
    · exact within_ite (within_saying (steady_del (by decide) (by decide))) (within_pure _)
    · exact within_pure _
  · refine within_bind (within_saying looks_getSections) fun l => within_forM fun s =>
      within_bind within_tree fun t => ?_
    split
    · next hs =>
      refine within_saying (steady_delSection hn hne ?_)
      rintro rfl
      exact Bool.false_ne_true (hstarts.symm.trans hs)
    · exact within_pure _

/-- The MTUs are cleared without touching the bridges that were passed
over. -/
theorem bridges_unsetDeviceMTU (names : List String) (h : Host)
    (hanon : ∀ x ∈ bridges h.tree, x.sectionName = "") :
    Leaves (unsetDeviceMTU names) h fun _ h' => bridges h'.tree = bridges h.tree := by
  have hstarts : ∀ n, Text.hasPrefix n wizardDeviceSectionPrefix = true → Plain n := by
    intro n hn
    obtain ⟨r, hr⟩ := List.isPrefixOf_iff_prefix.1 hn
    unfold Plain
    rw [← hr]
    exact (by decide : (wizardDeviceSectionPrefix.toList ++ []).head? ≠ some '@')
  have hdrop : ∀ (l : List String) (c : Config), (∀ x ∈ bridgesAmong c.sections, x.sectionName = "") →
      bridgesAmong (c.walk (fun _ s => Text.hasPrefix s wizardDeviceSectionPrefix) l).sections
        = bridgesAmong c.sections := by
    intro l
    induction l with
    | nil => exact fun _ _ => rfl
    | cons ref l ih =>
        intro c hc
        rw [Config.walk]
        split
        · next hsel =>
          have hsame := bridgesAmong_erase_named hc (hstarts ref hsel)
          rw [ih _ (by rwa [hsame]), hsame]
        · exact ih c hc
  refine (leaves_bind).2 ?_
  rw [leaves_saying]
  refine leaves_getSections fun c tick hmem => ?_
  rw [leaves_bind]
  intro _ h₁ hrun
  have hsame : (Looks bridges).rel { h with tick := tick } h₁ := by
    refine Within.ok (within_forM fun s => ?_) hrun
    refine within_ite (within_pure _) (within_bind within_tree fun t => ?_)
    split
    · exact within_ite (within_saying (looks_bridges_editSection (leaving_erase (by decide))))
        (within_pure _)
    · exact within_pure _
  have hsame : bridges h₁.tree = bridges h.tree := hsame
  have hsel : ∀ (t : Tree) (c : Config) (ref : String), t.mem "network" = some c →
      (fun _ s => Text.hasPrefix s wizardDeviceSectionPrefix : Tree → String → Bool) t ref =
        (fun _ s => Text.hasPrefix s wizardDeviceSectionPrefix : Config → String → Bool) c ref :=
    fun _ _ _ _ => rfl
  refine (leaves_deleteSections hsel h₁).mono ?_
  rintro _ h₂ ⟨c₁, hmem₁, hmem₂⟩
  rw [bridges_of_mem hmem₂, hdrop, ← bridges_of_mem hmem₁, hsame]
  rw [← bridges_of_mem hmem₁, hsame]
  exact hanon

/-- An interface whose device was unset, the loopback's apart. -/
def Unset (device : List String) : Prop := device.head? = none ∨ device.head? = some "lo"

/-- What the reset makes of a named section: an interface loses its
device. -/
def Freed (n : String) (t t' : Tree) : Prop :=
  if t.kind "network" n = some "interface" then Unset (t'.get "network" n "device")
  else t'.get "network" n "device" = t.get "network" n "device"

/-- The section at an address is of the mesh protocol. -/
def batadvAt (c : Config) (ref : String) : Bool :=
  match c.get ref "proto" with
  | proto :: _ => proto == "batadv" || proto == "batadv_hardif"
  | [] => false

theorem batadv_reset (hn : Plain n) (hne : n ≠ "") (h : Host) :
    Leaves removeAllBatadvInterfaces h fun _ h' => bridges h'.tree = bridges h.tree ∧
      (standing n h'.tree = standing n h.tree ∨
        h.tree.kind "network" n = some "interface" ∧ h'.tree.kind "network" n = none) := by
  have hsel : ∀ t c ref, t.mem "network" = some c → isBatadv t ref = batadvAt c ref := by
    intro t c ref hmem
    cases hproto : c.get ref "proto" with
    | nil => simp [isBatadv, batadvAt, Tree.get_of_mem hmem, hproto]
    | cons p ps => simp [isBatadv, batadvAt, Tree.get_of_mem hmem, hproto]
  refine (leaves_deleteSections hsel h).mono ?_
  · rintro _ h' ⟨c, hmem, hmem'⟩
    refine ⟨?_, ?_⟩
    · rw [bridges_of_mem hmem', bridgesAmong_walk_interfaces, bridges_of_mem hmem]
    · have hkeep : (c.walk batadvAt (c.refs "interface")).find n = c.find n →
          standing n h'.tree = standing n h.tree := by
        intro hsame
        refine standing_eq ?_ fun o => ?_
        · rw [Tree.kind_of_mem hmem, Tree.kind_of_mem hmem', hsame]
        · rw [Tree.get_of_mem hmem, Tree.get_of_mem hmem', Config.get, Config.get, hsame]
      by_cases hlisted : n ∈ c.refs "interface"
      · obtain ⟨s, hs, htype⟩ := (Config.name_mem_refs_iff hn hne).1 hlisted
        rcases Config.find_walk_cases (c := c) hn hne (c.refs "interface") with hnone | hsame
        · refine .inr ⟨?_, ?_⟩
          · rw [Tree.kind_of_mem hmem, hs, ← htype]
            rfl
          · rw [Tree.kind_of_mem hmem', hnone]
            rfl
        · exact .inl (hkeep hsame)
      · exact .inl (hkeep (Config.find_walk_of_not_mem hn hne hlisted))

/-- An option of a listed interface is dropped. -/
theorem leaves_del_interface {c : Config} {h : Host} (hmem : h.tree.mem "network" = some c)
    (href : ref ∈ c.refs "interface") (ho : option ∉ bridgeOptions) (n : String) :
    Leaves (del "network" ref option) h fun _ h' => bridges h'.tree = bridges h.tree ∧
      (∃ c', h'.tree.mem "network" = some c' ∧ c'.refs "interface" = c.refs "interface") ∧
      h'.tree.kind "network" n = h.tree.kind "network" n ∧
      (h'.tree.get "network" n "device" = h.tree.get "network" n "device" ∨
        h.tree.kind "network" n = some "interface" ∧ h'.tree.get "network" n "device" = []) ∧
      (ref = n → option = "device" → h'.tree.get "network" n "device" = []) := by
  refine leaves_editSection fun c' tick hmem' hfind => ?_
  obtain rfl : c = c' := Option.some.inj (hmem.symm.trans hmem')
  refine ⟨?_, ⟨_, Tree.stage_mem _ _ _, Config.refs_update _ _ _ _⟩, ?_, ?_, ?_⟩
  · rw [bridges_of_mem (Tree.stage_mem _ _ _), bridgesAmong_update (leaving_erase ho),
      bridges_of_mem hmem]
  · rw [Tree.stage_kind, Config.find_update_type, Tree.kind_of_mem hmem]
  · rw [Tree.stage_get, Tree.get_of_mem hmem, Tree.kind_of_mem hmem]
    by_cases hkind : (c.find n).map Section.type = some "interface"
    · rcases Config.get_update_cases c ref n "device" (fun o => o.erase option) with hsame | ⟨s, hs, hread⟩
      · exact .inl hsame
      · by_cases hdev : option = "device"
        · refine .inr ⟨hkind, ?_⟩
          rw [hread, hdev, AList.lookup_erase]
          rfl
        · refine .inl ?_
          rw [hread, AList.lookup_erase_ne (Ne.symm hdev), Config.get, hs]
          rfl
    · exact .inl (Config.get_update_of_refs href hkind)
  · rintro rfl rfl
    obtain ⟨s, hs⟩ := Option.isSome_iff_exists.1 hfind
    rw [Tree.stage_get, Config.get_update_self hs, AList.lookup_erase]
    rfl

/-- **Every interface loses its device.** -/
theorem leaves_unsetGatewayAndDevice (hn : Plain n) (hne : n ≠ "") (h : Host) :
    Leaves unsetGatewayAndDeviceOnInterfaces h fun _ h' =>
      bridges h'.tree = bridges h.tree ∧ Freed n h.tree h'.tree := by
  unfold unsetGatewayAndDeviceOnInterfaces
  rw [leaves_bind, leaves_saying]
  refine leaves_getSections fun c tick hmem => ?_
  have hlisted : h.tree.kind "network" n = some "interface" → n ∈ c.refs "interface" := by
    rw [Tree.kind_of_mem hmem, Option.map_eq_some_iff]
    exact fun hkind => (Config.name_mem_refs_iff hn hne).2 hkind
  let I : List String → Host → Prop := fun l g =>
    (∀ ref ∈ l, ref ∈ c.refs "interface") ∧ bridges g.tree = bridges h.tree ∧
      (∃ c', g.tree.mem "network" = some c' ∧ c'.refs "interface" = c.refs "interface") ∧
      g.tree.kind "network" n = h.tree.kind "network" n ∧
      if h.tree.kind "network" n = some "interface" then
        n ∈ l ∨ Unset (g.tree.get "network" n "device")
      else g.tree.get "network" n "device" = h.tree.get "network" n "device"
  have hround : ∀ (ref : String) (l : List String) (g : Host), I (ref :: l) g → Leaves (do
      if ((← tree).get "network" ref "device").head? = some "lo" then pure ()
      else do
        saying ("unsetting gateway on " ++ ref) (del "network" ref "gateway")
        saying ("unsetting device on " ++ ref) (del "network" ref "device")) g fun _ g' => I l g' := by
    rintro ref l g ⟨hrefs, hbr, ⟨c', hmem', hc'⟩, hkind, hdev⟩
    have hhere : ref ∈ c.refs "interface" := hrefs ref (List.mem_cons_self ..)
    have hrest : ∀ r ∈ l, r ∈ c.refs "interface" := fun r hr => hrefs r (List.mem_cons_of_mem _ hr)
    rw [leaves_bind, leaves_tree, leaves_ite]
    constructor
    · -- the loopback's device is left
      intro hlo
      refine (leaves_pure _).2 ⟨hrest, hbr, ⟨c', hmem', hc'⟩, hkind, ?_⟩
      split
      · next hiface =>
        rw [if_pos hiface] at hdev
        rcases hdev with hn | hunset
        · rcases List.mem_cons.1 hn with rfl | hn
          · exact .inr (.inr hlo)
          · exact .inl hn
        · exact .inr hunset
      · next hother => rwa [if_neg hother] at hdev
    · intro _
      rw [leaves_bind, leaves_saying]
      refine (leaves_del_interface hmem' (by rw [hc']; exact hhere) (by decide) n).mono ?_
      rintro _ g₁ ⟨hbr₁, ⟨c₁, hmem₁, hc₁⟩, hkind₁, hdev₁, -⟩
      rw [leaves_saying]
      refine (leaves_del_interface hmem₁ (by rw [hc₁, hc']; exact hhere) (by decide) n).mono ?_
      rintro _ g₂ ⟨hbr₂, ⟨c₂, hmem₂, hc₂⟩, hkind₂, hdev₂, hgone⟩
      refine ⟨hrest, hbr₂.trans (hbr₁.trans hbr), ⟨c₂, hmem₂, hc₂.trans (hc₁.trans hc')⟩,
        hkind₂.trans (hkind₁.trans hkind), ?_⟩
      rw [hkind] at hdev₁
      rw [hkind₁, hkind] at hdev₂
      split
      · next hiface =>
        rw [if_pos hiface] at hdev
        -- what was unset stays so
        have hkeep : ∀ {d d' : List String}, (d' = d ∨ h.tree.kind "network" n = some "interface" ∧
            d' = []) → Unset d → Unset d' := by
          rintro d d' (rfl | ⟨-, rfl⟩) hd
          · exact hd
          · exact .inl rfl
        rcases hdev with hn | hunset
        · rcases List.mem_cons.1 hn with rfl | hn
          · exact .inr (.inl (by rw [hgone rfl rfl]; rfl))
          · exact .inl hn
        · exact .inr (hkeep hdev₂ (hkeep hdev₁ hunset))
      · next hother =>
        rw [if_neg hother] at hdev
        have h₁ := hdev₁.resolve_right fun h => hother h.1
        have h₂ := hdev₂.resolve_right fun h => hother h.1
        rw [h₂, h₁, hdev]
  have hstart : I (c.refs "interface") { h with tick := tick } := by
    refine ⟨fun _ hr => hr, rfl, ⟨c, hmem, rfl⟩, rfl, ?_⟩
    split
    · next hkind => exact .inl (hlisted hkind)
    · rfl
  refine (leaves_forM hround _ _ hstart).mono ?_
  rintro _ h' ⟨-, hbr, -, hkind, hdev⟩
  refine ⟨hbr, ?_⟩
  unfold Freed
  split
  · next hiface =>
    rw [if_pos hiface] at hdev
    exact hdev.resolve_left List.not_mem_nil
  · next hother => rwa [if_neg hother] at hdev

theorem kind_unsetGatewayAndDevice (m : String) :
    Within (Looks fun t => t.kind "network" m) unsetGatewayAndDeviceOnInterfaces :=
  within_bind (within_saying looks_getSections) fun _ => within_forM fun _ =>
    within_bind within_tree fun _ => within_ite (within_pure _)
      (within_bind (within_saying looks_kind_editSection) fun _ =>
        within_saying looks_kind_editSection)

theorem ports_unsetGatewayAndDevice (m : String) :
    Within (Looks fun t => t.get "network" m "ports") unsetGatewayAndDeviceOnInterfaces :=
  within_bind (within_saying looks_getSections) fun _ => within_forM fun _ =>
    within_bind within_tree fun _ => within_ite (within_pure _)
      (within_bind (within_saying (looks_get_del (by decide))) fun _ =>
        within_saying (looks_get_del (by decide)))

/-! ## The bridge that is built -/

/-- **The first bridge of a name is found.** -/
theorem leaves_findBridge (h : Host) :
    Leaves (findBridgeBySectionName name) h fun found h' => h'.tree = h.tree ∧
      ∃ c, h.tree.mem "network" = some c ∧
        (found = "" ∧ (∀ x ∈ bridges h.tree, x.isCalled name = false) ∨
          ∃ a e b, c.entries = a ++ e :: b ∧ ownRef e = found ∧ bridging e.2 = true ∧
            (bridgeOf e.2).isCalled name = true ∧
            ∀ x ∈ bridgesAmong (a.map Prod.snd), x.isCalled name = false) := by
  unfold findBridgeBySectionName
  rw [leaves_bind, leaves_saying]
  refine leaves_getSections fun c tick hmem => ?_
  rw [leaves_bind, leaves_tree, leaves_pure]
  refine ⟨rfl, c, hmem, ?_⟩
  dsimp only
  have htest : ∀ e ∈ c.entries, e.2.type = "device" →
      (isBridge h.tree (ownRef e) && (h.tree.get "network" (ownRef e) "name").head? == some name)
        = (bridging e.2 && (bridgeOf e.2).isCalled name) := by
    intro e he htype
    rw [isBridge, Tree.get_of_mem hmem, Tree.get_of_mem hmem, Config.get_ownRef he,
      Config.get_ownRef he, bridging, decide_eq_true htype, Bool.true_and]
    rfl
  have hdevice : ∀ e : Nat × Section, bridging e.2 = true → e.2.type = "device" := by
    intro e hbr
    simp only [bridging, Bool.and_eq_true, decide_eq_true_iff] at hbr
    exact hbr.1
  cases hfind : (c.refs "device").find? fun s =>
      isBridge h.tree s && (h.tree.get "network" s "name").head? == some name with
  | none =>
      refine .inl ⟨rfl, fun x hx => ?_⟩
      rw [bridges_of_mem hmem, mem_bridgesAmong] at hx
      obtain ⟨s, hs, hbr, rfl⟩ := hx
      rw [← Config.entries_snd c, List.mem_map] at hs
      obtain ⟨e, he, rfl⟩ := hs
      have hnone := List.find?_eq_none.1 hfind (ownRef e)
        (Config.mem_refs.2 ⟨e, he, hdevice e hbr, rfl⟩)
      rw [htest e he (hdevice e hbr), hbr, Bool.true_and] at hnone
      simpa using hnone
  | some r =>
      obtain ⟨a, e, b, hsplit, rfl, htype, hq, hbefore⟩ := Config.split_of_find_refs hfind
      have hmem_a : ∀ e' ∈ a, e' ∈ c.entries := by
        intro e' he'
        rw [hsplit]
        exact List.mem_append_left _ he'
      have he : e ∈ c.entries := by
        rw [hsplit]
        simp
      rw [htest e he htype, Bool.and_eq_true] at hq
      refine .inr ⟨a, e, b, hsplit, rfl, hq.1, hq.2, fun x hx => ?_⟩
      obtain ⟨s, hs, hbr, rfl⟩ := mem_bridgesAmong.1 hx
      obtain ⟨e', he', rfl⟩ := List.mem_map.1 hs
      have hno := hbefore e' he' (hdevice e' hbr)
      rwa [htest e' (hmem_a e' he') (hdevice e' hbr), hbr, Bool.true_and] at hno

theorem bridges_of_stands {a b : List (Nat × Section)} {i : Nat} {s : Section} {h : Host}
    (hs : Stands "network" a i s b h) : bridges h.tree =
      bridgesAmong (a.map Prod.snd) ++ (bridgesAmong [s] ++ bridgesAmong (b.map Prod.snd)) := by
  obtain ⟨c, hmem, hsplit⟩ := hs
  rw [bridges_of_mem hmem, Config.sections_of_split hsplit, bridgesAmong_append,
    bridgesAmong_cons]

theorem get_insert (s : Section) (o o' : String) (v : List String) :
    (s.edit fun t => t.insert o v).get o' = if o' = o then v else s.get o' := by
  unfold Section.get Section.edit
  dsimp only
  split
  · next heq =>
    rw [heq, AList.lookup_insert]
    rfl
  · next hne => rw [AList.lookup_insert_ne hne]

/-- What is written of a bridge. -/
theorem leaves_bridgeWrites {a b : List (Nat × Section)} {i : Nat} {s : Section} {h : Host}
    {ports : List String} {macaddr : String} (hs : Stands "network" a i s b h)
    (href : ownRef (i, s) = ref) (htype : s.type = "device") :
    Leaves (do
      saying "setting bridge name" (setType "network" ref "name" [name])
      saying "setting bridge type" (setType "network" ref "type" ["bridge"])
      onlyIf (macaddr ≠ "") <|
        saying "setting bridge macaddr" (setType "network" ref "macaddr" [macaddr])
      onlyIf (ports ≠ []) <|
        saying "setting bridge ports" (setType "network" ref "ports" ports)
      pure ref) h fun _ h' => bridges h'.tree = bridgesAmong (a.map Prod.snd) ++
        ⟨s.name, [name], if ports = [] then s.get "ports" else ports⟩ ::
          bridgesAmong (b.map Prod.snd) := by
  -- the section as it stands once its name and type are written
  let P : List String → Host → Prop := fun v g => ∃ s', Stands "network" a i s' b g ∧
    s'.type = s.type ∧ s'.name = s.name ∧ s'.get "type" = ["bridge"] ∧ s'.get "name" = [name] ∧
      s'.get "ports" = v
  have hwrite : ∀ {s' : Section} {g : Host} (what o : String) (v : List String),
      Stands "network" a i s' b g → s'.type = s.type → s'.name = s.name →
      Leaves (saying what (setType "network" ref o v)) g fun _ g' =>
        Stands "network" a i (s'.edit fun t => t.insert o v) b g' := by
    intro s' g what o v hs' ht hn
    rw [leaves_saying]
    refine leaves_editSection_stands hs' ?_
    rw [← href, ownRef, ownRef, ht, hn]
  have hend : ∀ v g, P v g → bridges g.tree = bridgesAmong (a.map Prod.snd) ++
      ⟨s.name, [name], v⟩ :: bridgesAmong (b.map Prod.snd) := by
    rintro v g ⟨s', hs', ht, hn, htp, hnm, rfl⟩
    have hbr : bridging s' = true := by simp [bridging, ht, htype, htp]
    rw [bridges_of_stands hs', bridgesAmong_single, if_pos hbr, bridgeOf, hn, hnm]
    rfl
  rw [leaves_bind]
  refine (hwrite _ "name" [name] hs rfl rfl).mono fun _ h₁ hs₁ => ?_
  rw [leaves_bind]
  refine (hwrite _ "type" ["bridge"] hs₁ rfl rfl).mono fun _ h₂ hs₂ => ?_
  have hP₂ : P (s.get "ports") h₂ := by
    refine ⟨_, hs₂, rfl, rfl, ?_, ?_, ?_⟩
    · rw [get_insert, if_pos rfl]
    · rw [get_insert, if_neg (by decide), get_insert, if_pos rfl]
    · rw [get_insert, if_neg (by decide), get_insert, if_neg (by decide)]
  rw [leaves_bind]
  have hmac : Leaves (onlyIf (macaddr ≠ "") <| saying "setting bridge macaddr"
      (setType "network" ref "macaddr" [macaddr])) h₂ fun _ h₃ => P (s.get "ports") h₃ := by
    rw [leaves_onlyIf]
    refine ⟨fun _ => ?_, fun _ => hP₂⟩
    obtain ⟨s', hs', ht, hn, htp, hnm, hpt⟩ := hP₂
    refine (hwrite _ "macaddr" [macaddr] hs' ht hn).mono fun _ h₃ hs₃ => ⟨_, hs₃, ht, hn, ?_, ?_, ?_⟩
    · rw [get_insert, if_neg (by decide), htp]
    · rw [get_insert, if_neg (by decide), hnm]
    · rw [get_insert, if_neg (by decide), hpt]
  refine hmac.mono fun _ h₃ hP₃ => ?_
  rw [leaves_bind, leaves_onlyIf]
  constructor
  · intro hports
    obtain ⟨s', hs', ht, hn, htp, hnm, -⟩ := hP₃
    refine (hwrite _ "ports" ports hs' ht hn).mono fun _ h₄ hs₄ => (leaves_pure _).2 ?_
    rw [if_neg hports]
    refine hend _ _ ⟨_, hs₄, ht, hn, ?_, ?_, ?_⟩
    · rw [get_insert, if_neg (by decide), htp]
    · rw [get_insert, if_neg (by decide), hnm]
    · rw [get_insert, if_pos rfl]
  · intro hports
    rw [not_not] at hports
    rw [leaves_pure, if_pos hports]
    exact hend _ _ hP₃

theorem plain_wizardBridge (name : String) : Plain (wizardBridge name) ∧ wizardBridge name ≠ "" := by
  refine ⟨plain_append (by decide) (by decide) _, fun h => ?_⟩
  have hchars := congrArg String.toList h
  rw [wizardBridge, String.toList_append] at hchars
  exact absurd (List.append_eq_nil_iff.1 hchars).1 (by decide)

/-- The ports of the section that becomes the bridge of a name, before it
does. -/
def stalePorts (name : String) (t : Tree) : List String :=
  match (bridges t).find? (Bridge.isCalled name) with
  | some x => x.ports
  | none => staleSection name t

/-- **The bridges, and among them the one that was built.** -/
def Built (name : String) (ports : List String) (old new : List Bridge) : Prop :=
  ∃ pre x post, new = pre ++ x :: post ∧ pre ++ post = old.eraseP (Bridge.isCalled name) ∧
    (∀ y ∈ pre, y.isCalled name = false) ∧ (x.sectionName = "" ∨ x.sectionName = wizardBridge name) ∧
    x.name = [name] ∧ x.ports = ports

/-- A bridge of that name is there already. -/
theorem built_of_bridge {pre post : List Bridge} {y : Bridge} {ports : List String} {t : Tree}
    (hold : bridges t = pre ++ y :: post) (hcalled : y.isCalled name = true)
    (hbefore : ∀ x ∈ pre, x.isCalled name = false) (hanon : y.sectionName = "") :
    Built name (if ports = [] then stalePorts name t else ports) (bridges t)
      (pre ++ ⟨y.sectionName, [name], if ports = [] then y.ports else ports⟩ :: post) := by
  have hno : ∀ x ∈ pre, ¬ x.isCalled name = true := fun x hx => by simp [hbefore x hx]
  have hfind : (bridges t).find? (Bridge.isCalled name) = some y := by
    rw [hold, List.find?_append, List.find?_eq_none.2 hno, Option.none_or, List.find?_cons, hcalled]
  refine ⟨pre, _, post, rfl, ?_, hbefore, .inl hanon, rfl, ?_⟩
  · rw [hold, List.eraseP_append_right _ hno, List.eraseP_cons_of_pos hcalled]
  · rw [stalePorts, hfind]

/-- No bridge of that name is there, and a named section becomes one. -/
theorem built_of_section {pre post : List Bridge} {ports v : List String} {t : Tree}
    (hold : bridges t = pre ++ post) (hnone : ∀ x ∈ bridges t, x.isCalled name = false)
    (hv : staleSection name t = v) :
    Built name (if ports = [] then stalePorts name t else ports) (bridges t)
      (pre ++ ⟨wizardBridge name, [name], if ports = [] then v else ports⟩ :: post) := by
  have hno : ∀ x ∈ bridges t, ¬ x.isCalled name = true := fun x hx => by simp [hnone x hx]
  refine ⟨pre, _, post, rfl, ?_, fun x hx => hnone x ?_, .inr rfl, rfl, ?_⟩
  · rw [List.eraseP_of_forall_not hno, hold]
  · rw [hold]
    exact List.mem_append_left _ hx
  · rw [stalePorts, List.find?_eq_none.2 hno, hv]

theorem leaves_createBridgeDevice {ports : List String} {macaddr : String} {h : Host}
    (hanon : ∀ x ∈ bridges h.tree, x.sectionName = "") :
    Leaves (createBridgeDevice name ports macaddr) h fun _ h' =>
      Built name (if ports = [] then stalePorts name h.tree else ports) (bridges h.tree)
        (bridges h'.tree) := by
  obtain ⟨hplain, hne⟩ := plain_wizardBridge name
  unfold createBridgeDevice
  rw [leaves_ite]
  refine ⟨fun _ => leaves_fail.2 trivial, fun _ => ?_⟩
  rw [leaves_bind]
  refine (leaves_findBridge h).mono ?_
  rintro found h₁ ⟨htree, c, hmem, hcase⟩
  rw [leaves_bind, leaves_onlyIf]
  rcases hcase with ⟨rfl, hnone⟩ | ⟨a, e, b, hsplit, rfl, hbr, hcalled, hbefore⟩
  · refine ⟨fun _ => ?_, fun hn => absurd rfl hn⟩
    rw [leaves_saying, if_pos rfl]
    -- what the section holds before it is written
    have hthere : ∀ (c₂ : Config) (s : Section) (h₂ : Host), h₂.tree.mem "network" = some c₂ →
        c₂.find (wizardBridge name) = some s → s.type = "device" →
        bridges h₂.tree = bridges h.tree →
        staleSection name h.tree = s.get "ports" →
        Leaves (do
          saying "setting bridge name" (setType "network" (wizardBridge name) "name" [name])
          saying "setting bridge type" (setType "network" (wizardBridge name) "type" ["bridge"])
          onlyIf (macaddr ≠ "") <|
            saying "setting bridge macaddr" (setType "network" (wizardBridge name) "macaddr" [macaddr])
          onlyIf (ports ≠ []) <|
            saying "setting bridge ports" (setType "network" (wizardBridge name) "ports" ports)
          pure (wizardBridge name)) h₂ fun _ h' =>
            Built name (if ports = [] then stalePorts name h.tree else ports) (bridges h.tree)
              (bridges h'.tree) := by
      intro c₂ s h₂ hmem₂ hfind htype hsame hports
      obtain ⟨a, i, b, hsplit, href⟩ := Config.split_of_find hplain hne hfind
      have hs : Stands "network" a i s b h₂ := ⟨c₂, hmem₂, hsplit⟩
      have hname : s.name = wizardBridge name := ((Config.find_eq_some_iff hplain hne).1 hfind).2
      have hold := bridges_of_stands hs
      have hno : ¬ bridging s = true := by
        intro hbr
        refine hne (hname.symm.trans (hanon (bridgeOf s) ?_))
        rw [← hsame, hold, bridgesAmong_single, if_pos hbr]
        simp
      rw [bridgesAmong_single, if_neg hno, List.nil_append, hsame] at hold
      refine (leaves_bridgeWrites hs href htype).mono fun _ h' hnew => ?_
      rw [hnew, hname]
      exact built_of_section hold hnone hports
    have hmem₁ : h₁.tree.mem "network" = some c := by rw [htree, hmem]
    refine leaves_addSection (fun s tick hfind htype => ?_) fun tick hfind => ?_
    · rw [hmem₁, Option.getD_some] at hfind
      change c.find (wizardBridge name) = some s at hfind
      refine hthere c s _ hmem₁ hfind htype (by rw [htree]) ?_
      rw [staleSection, Tree.kind_of_mem hmem, hfind, Option.map_some, htype, if_pos rfl,
        Tree.get_of_mem hmem, Config.get, hfind]
    · rw [hmem₁, Option.getD_some] at hfind ⊢
      change c.find (wizardBridge name) = none at hfind
      refine hthere _ _ _ (Tree.stage_mem _ _ _) (Config.find_push_self hplain (by decide) hfind) rfl
        ?_ ?_
      · rw [bridges_of_mem (Tree.stage_mem _ _ _), bridgesAmong_push, bridges_of_mem hmem]
      · rw [staleSection, Tree.kind_of_mem hmem, hfind, if_neg (by simp)]
        rfl
  · refine ⟨fun hn => absurd hn (ownRef_ne_empty e), fun hown => ?_⟩
    rw [if_neg hown]
    have hs : Stands "network" a e.1 e.2 b h₁ := ⟨c, by rw [htree]; exact hmem, hsplit⟩
    have hold := bridges_of_stands hs
    rw [bridgesAmong_single, if_pos hbr, htree] at hold
    have htype : e.2.type = "device" := by
      simp only [bridging, Bool.and_eq_true, decide_eq_true_iff] at hbr
      exact hbr.1
    refine (leaves_bridgeWrites hs rfl htype).mono fun _ h' hnew => ?_
    rw [hnew]
    refine built_of_bridge hold hcalled hbefore (hanon _ ?_)
    rw [hold]
    simp

/-- The first of a kind is found at one place. -/
theorem first_unique {q : Bridge → Bool} {a a' b b' : List Bridge} {x x' : Bridge}
    (h : a ++ x :: b = a' ++ x' :: b') (ha : ∀ y ∈ a, q y = false) (ha' : ∀ y ∈ a', q y = false)
    (hx : q x = true) (hx' : q x' = true) : a = a' ∧ x = x' ∧ b = b' := by
  induction a generalizing a' with
  | nil =>
      cases a' with
      | nil =>
          obtain ⟨rfl, rfl⟩ := List.cons.inj h
          exact ⟨rfl, rfl, rfl⟩
      | cons y a' =>
          obtain ⟨rfl, -⟩ := List.cons.inj h
          rw [ha' x (List.mem_cons_self ..)] at hx
          cases hx
  | cons y a ih =>
      cases a' with
      | nil =>
          obtain ⟨rfl, -⟩ := List.cons.inj h
          rw [ha y (List.mem_cons_self ..)] at hx'
          cases hx'
      | cons y' a' =>
          obtain ⟨rfl, hrest⟩ := List.cons.inj h
          obtain ⟨rfl, rfl, rfl⟩ := ih hrest (fun z hz => ha z (List.mem_cons_of_mem _ hz))
            fun z hz => ha' z (List.mem_cons_of_mem _ hz)
          exact ⟨rfl, rfl, rfl⟩

/-- **A port is appended to the bridge of a name, unless it is there.** -/
theorem leaves_appendBridgePort {port : String} {h : Host} {ports : List String}
    {old : List Bridge} (hbuilt : Built name ports old (bridges h.tree)) :
    Leaves (do
      let found ← saying "locating br-ahwlan" (findBridgeBySectionName name)
      if found = "" then
        fail "br-ahwlan bridge not found; phase 6 (BASE_NETWORK) must run first"
      else appendBridgePort found port) h fun _ h' =>
        Built name (if port ∈ ports then ports else ports ++ [port]) old (bridges h'.tree) := by
  obtain ⟨pre, x, post, hnew, hrest, hbefore, hsec, hname, hports⟩ := hbuilt
  have hcalled : x.isCalled name = true := by simp [Bridge.isCalled, hname]
  rw [leaves_bind, leaves_saying]
  refine (leaves_findBridge h).mono ?_
  rintro found h₁ ⟨htree, c, hmem, hcase⟩
  rw [leaves_ite]
  refine ⟨fun _ => leaves_fail.2 trivial, fun hfound => ?_⟩
  rcases hcase with ⟨hempty, -⟩ | ⟨a, e, b, hsplit, rfl, hbr, hcall, hfirst⟩
  · exact absurd hempty hfound
  · have hs : Stands "network" a e.1 e.2 b h₁ := ⟨c, by rw [htree]; exact hmem, hsplit⟩
    have hold := bridges_of_stands hs
    rw [bridgesAmong_single, if_pos hbr, htree, hnew] at hold
    obtain ⟨hpre, hx, hpost⟩ := first_unique hold hbefore hfirst hcalled hcall
    have hread : h₁.tree.get "network" (ownRef e) "ports" = ports := by
      rw [htree, Tree.get_of_mem hmem, Config.get_ownRef (by rw [hsplit]; simp), ← hports, hx]
      rfl
    unfold appendBridgePort
    rw [if_neg (ownRef_ne_empty e), leaves_ite]
    refine ⟨fun _ => leaves_fail.2 trivial, fun _ => ?_⟩
    rw [leaves_bind, leaves_tree, hread, leaves_ite]
    constructor
    · intro hin
      rw [leaves_pure, if_pos hin, htree, hnew]
      exact ⟨pre, x, post, rfl, hrest, hbefore, hsec, hname, hports⟩
    · intro hout
      rw [if_neg hout]
      refine (leaves_editSection_stands hs rfl).mono fun _ h' hs' => ?_
      refine ⟨pre, ⟨e.2.name, e.2.get "name", ports ++ [port]⟩, post, ?_, hrest, hbefore, ?_, ?_,
        rfl⟩
      · have hbr' : bridging (e.2.edit fun o => o.insert "ports" (ports ++ [port])) = true := by
          rw [← hbr]
          unfold bridging
          rw [get_insert, if_neg (by decide), Section.edit_type]
        rw [bridges_of_stands hs', bridgesAmong_single, if_pos hbr', bridgeOf, get_insert,
          get_insert, if_neg (by decide), if_pos rfl, hpre, hpost]
        rfl
      · rw [hx] at hsec
        exact hsec
      · rw [hx] at hname
        exact hname

/-! ## MTUs -/

/-- **Staging an MTU makes no bridge and changes none.** -/
theorem bridges_setDeviceMTU {mtu : Nat} {h : Host}
    (hno : ∀ x ∈ bridges h.tree, x.sectionName ≠ wizardDeviceSectionPrefix ++ sanitizeUCIName name) :
    Leaves (setDeviceMTU name mtu) h fun _ h' => bridges h'.tree = bridges h.tree := by
  have hplain : Plain (wizardDeviceSectionPrefix ++ sanitizeUCIName name) :=
    plain_append (by decide) (by decide) _
  have hmtu : ∀ (ref : String) (g : Host), Leaves (do
      saying ("setting mtu on " ++ ref) (setType "network" ref "mtu" [Nat.repr mtu])
      pure ref) g fun _ h' => bridges h'.tree = bridges g.tree := by
    intro ref g _ h' hrun
    have hw : Within Wired (do
        saying ("setting mtu on " ++ ref) (setType "network" ref "mtu" [Nat.repr mtu])
        pure ref) := within_bind (within_saying (wired_setType (by decide))) fun _ => within_pure _
    exact (hw.ok hrun).1
  have hfind : Leaves (findDeviceByName name) h fun _ h₁ => h₁.tree = h.tree := by
    unfold findDeviceByName
    rw [leaves_bind, leaves_saying]
    refine leaves_getSections fun c tick hmem => ?_
    rw [leaves_bind, leaves_tree, leaves_pure]
  unfold setDeviceMTU
  rw [leaves_ite]
  refine ⟨fun _ => leaves_fail.2 trivial, fun _ => ?_⟩
  rw [leaves_ite]
  refine ⟨fun _ => leaves_fail.2 trivial, fun _ => ?_⟩
  rw [leaves_bind]
  refine hfind.mono fun found h₁ htree => ?_
  rw [leaves_bind, leaves_onlyIf]
  constructor
  · rintro rfl
    rw [if_pos rfl, leaves_bind, leaves_saying]
    intro _ h₂ hadd
    have hsame : bridges h₂.tree = bridges h₁.tree := (wired_addSection.ok hadd).1
    rw [htree] at hsame
    rw [leaves_saying]
    refine leaves_editSection fun c tick hmem _ => ?_
    refine (hmtu _ _).mono fun _ h' hlast => ?_
    rw [hlast, bridges_of_mem (Tree.stage_mem _ _ _), bridgesAmong_update_named hplain ?_
      (leaving_insert (by decide)), ← bridges_of_mem hmem, hsame]
    rw [← bridges_of_mem hmem, hsame]
    exact hno
  · intro hfound
    refine (hmtu _ h₁).mono fun _ h' hlast => ?_
    rw [hlast, htree]

/-! ## Devices -/

theorem looks_device_createBridge {ports : List String} {macaddr : String} :
    Within (Looks fun t => t.get "network" n "device") (createBridgeDevice name ports macaddr) := by
  refine within_ite within_fail (within_bind ?_ fun found => ?_)
  · exact within_bind (within_saying looks_getSections) fun _ => within_bind within_tree fun _ =>
      within_pure _
  · exact within_bind (within_onlyIf (within_saying looks_get_addSection)) fun _ =>
      within_bind (within_saying (looks_get_setType (by decide))) fun _ =>
        within_bind (within_saying (looks_get_setType (by decide))) fun _ =>
          within_bind (within_onlyIf (within_saying (looks_get_setType (by decide)))) fun _ =>
            within_bind (within_onlyIf (within_saying (looks_get_setType (by decide)))) fun _ =>
              within_pure _

theorem looks_device_setDeviceMTU {mtu : Nat} :
    Within (Looks fun t => t.get "network" n "device") (setDeviceMTU name mtu) := by
  refine within_ite within_fail (within_ite within_fail (within_bind ?_ fun found => ?_))
  · exact within_bind (within_saying looks_getSections) fun _ => within_bind within_tree fun _ =>
      within_pure _
  · exact within_bind (within_onlyIf (within_bind (within_saying looks_get_addSection) fun _ =>
      within_saying (looks_get_setType (by decide)))) fun _ =>
        within_bind (within_saying (looks_get_setType (by decide))) fun _ => within_pure _

theorem looks_device_appendBridgePort {port : String} :
    Within (Looks fun t => t.get "network" n "device") (appendBridgePort ref port) := by
  refine within_ite within_fail (within_ite within_fail (within_bind within_tree fun t => ?_))
  exact within_ite (within_pure _) (looks_get_setType (by decide))

/-- **A port is bound to an interface.** -/
theorem leaves_setInterfaceDevice {device : String} (h : Host) :
    Leaves (setInterfaceDevice n device) h fun _ h' => bridges h'.tree = bridges h.tree ∧
      h'.tree.get "network" n "device" = [device] ∧
      ∀ m, Plain m → Plain n → m ≠ n →
        h'.tree.get "network" m "device" = h.tree.get "network" m "device" := by
  unfold setInterfaceDevice
  rw [leaves_ite]
  refine ⟨fun _ => leaves_fail.2 trivial, fun _ => ?_⟩
  rw [leaves_saying]
  refine leaves_editSection fun c tick hmem hfind => ⟨?_, ?_, fun m hm hn hne => ?_⟩
  · rw [bridges_of_mem (Tree.stage_mem _ _ _), bridgesAmong_update (leaving_insert (by decide)),
      bridges_of_mem hmem]
  · rw [Tree.stage_get, Config.get_update_insert hfind]
  · rw [Tree.stage_get, Config.get_update_ne hn hm hne, Tree.get_of_mem hmem]

end Network

end OpenManet
