import OpenManet.Wifi.Files
import OpenManet.Lib.Meets
/-!
# The handlers refine staging on the files

`Mid φ f g h`: in a world of fate `φ` the files hold `f` and memory holds
`g`, and what differs is known to. Every write moves `g`, every commit moves
`f` up to it. A call that fails was refused by the world, so that in a smooth
world the handlers end as staging on the files does, and in any world they
refuse what it refuses, with the same files.
-/

namespace OpenManet

namespace Wifi

open Uci Fallible Network

variable {φ : Fate} {f g : Files} {h : Host} {S : WifiConfigService}

/-- The files hold `f`, memory holds `g`. -/
structure Mid (φ : Fate) (f g : Files) (h : Host) : Prop where
  wireless : Staged wirelessConfig f.wireless g.wireless h
  mem : h.tree.mem "network" = g.network
  disk : h.tree.disk "network" = f.network
  dirty : g.network = f.network ∨ h.tree.dirty "network" = true
  fate : h.fate = φ

/-- Files and memory hold `f`. -/
abbrev At (φ : Fate) (f : Files) : Host → Prop := Mid φ f f

/-! ## Single calls -/

section Calls

variable {α : Type} {ref n type : String} {F : Table (List String) → Table (List String)}
  {c : Uci.Config}

/-- A call that the tree answers is answered, or the world refused it. -/
theorem meets_call {k : Tree → Except Err (α × Tree)} {a : α} {t : Tree}
    {Q : α → Host → Prop} (hfate : h.fate = φ) (hk : k h.tree = .ok (a, t))
    (hQ : ∀ tick, Q a { h with tree := t, tick := tick }) :
    Meets (call k) h Q fun _ _ => ¬ φ.Smooth := by
  unfold Meets call
  dsimp only
  cases hrefuse : h.fate.refuses h.tick with
  | true =>
      simp only [if_true]
      intro hsmooth
      rw [hfate, hsmooth] at hrefuse
      cases hrefuse
  | false =>
      simp only [Bool.false_eq_true, if_false, hk]
      exact hQ _

theorem Mid.stage_wireless (hm : Mid φ f g h) (tick : ℕ) (d : Uci.Config) :
    Mid φ f { g with wireless := d }
      { h with tree := h.tree.stage wirelessConfig d, tick := tick } where
  wireless := hm.wireless.stage tick d
  mem := by simpa [Tree.stage, wirelessConfig] using hm.mem
  disk := hm.disk
  dirty := by simpa [Tree.stage, wirelessConfig] using hm.dirty
  fate := hm.fate

theorem Mid.stage_network (hm : Mid φ f g h) (tick : ℕ) (d : Uci.Config) :
    Mid φ f { g with network := some d }
      { h with tree := h.tree.stage "network" d, tick := tick } where
  wireless := by
    refine ⟨?_, hm.wireless.disk, ?_⟩
    · simpa [Tree.stage, wirelessConfig] using hm.wireless.mem
    · simpa [Tree.stage, wirelessConfig] using hm.wireless.dirty
  mem := by simp [Tree.stage]
  disk := hm.disk
  dirty := .inr (by simp [Tree.stage])
  fate := hm.fate

theorem Mid.tick (hm : Mid φ f g h) (tick : ℕ) : Mid φ f g { h with tick := tick } :=
  ⟨hm.wireless.tick tick, hm.mem, hm.disk, hm.dirty, hm.fate⟩

theorem Mid.edit_wireless (hm : Mid φ f g h) (hfind : (g.wireless.find ref).isSome = true) :
    Meets (editSection wirelessConfig ref F) h
      (fun _ h' => Mid φ f { g with wireless := g.wireless.update ref F } h')
      fun _ _ => ¬ φ.Smooth := by
  refine meets_call (a := ()) (t := h.tree.stage wirelessConfig (g.wireless.update ref F)) hm.fate
    ?_ fun tick => hm.stage_wireless tick _
  simp [hm.wireless.mem, hfind]

theorem Mid.edit_network (hm : Mid φ f g h) (hc : g.network = some c)
    (hfind : (c.find ref).isSome = true) :
    Meets (editSection "network" ref F) h
      (fun _ h' => Mid φ f { g with network := some (c.update ref F) } h')
      fun _ _ => ¬ φ.Smooth := by
  refine meets_call (a := ()) (t := h.tree.stage "network" (c.update ref F)) hm.fate
    ?_ fun tick => hm.stage_network tick _
  simp [hm.mem, hc, hfind]

theorem Mid.push_network (hm : Mid φ f g h)
    (hfind : (g.network.getD Config.empty).find n = none) :
    Meets (addSection "network" n type) h
      (fun _ h' => Mid φ f
        { g with network := some ((g.network.getD Config.empty).push type n) } h')
      fun _ _ => ¬ φ.Smooth := by
  refine meets_call (a := ())
    (t := h.tree.stage "network" ((g.network.getD Config.empty).push type n)) hm.fate
    ?_ fun tick => hm.stage_network tick _
  simp [hm.mem, hfind]

/-- **A commit moves the files up to memory.** -/
theorem Mid.commits (hm : Mid φ f g h) :
    Meets commit h (fun _ h' => At φ g h') fun _ _ => ¬ φ.Smooth := by
  have hflush : ∀ tick, At φ g { h with tree := h.tree.flush fun _ => true, tick := tick } := by
    intro tick
    have hdisk : ∀ config, (h.tree.flush fun _ => true).disk config =
        if h.tree.dirty config then h.tree.mem config else h.tree.disk config := by
      intro config
      simp [Tree.flush]
    refine ⟨⟨hm.wireless.mem, ?_, .inl rfl⟩, hm.mem, ?_, .inl rfl, hm.fate⟩
    · show (h.tree.flush fun _ => true).disk wirelessConfig = _
      rw [hdisk]
      rcases hm.wireless.dirty with hsame | hdirty
      · split
        · exact hm.wireless.mem
        · rw [hm.wireless.disk, hsame]
      · rw [if_pos hdirty, hm.wireless.mem]
    · show (h.tree.flush fun _ => true).disk "network" = _
      rw [hdisk]
      rcases hm.dirty with hsame | hdirty
      · split
        · exact hm.mem
        · rw [hm.disk, hsame]
      · rw [if_pos hdirty, hm.mem]
  unfold Meets commit
  dsimp only
  cases hrefuse : h.fate.refuses h.tick with
  | true =>
      simp only [if_true]
      intro hsmooth
      rw [hm.fate, hsmooth] at hrefuse
      cases hrefuse
  | false =>
      simp only [Bool.false_eq_true, if_false]
      exact hflush _

theorem meets_saying {what : String} {m : Prog α} {Q : α → Host → Prop} {P : Prop}
    (hm : Meets m h Q fun _ _ => P) : Meets (saying what m) h Q fun _ _ => P :=
  meets_wrapped.2 hm

end Calls

/-! ## Writes to one section -/

/-- The files with options of the section dropped. -/
def Files.dropped (f : Files) (ref : String) (os : List String) : Files :=
  { f with wireless := f.wireless.drops ref os }

/-- The files with options of the section written. -/
def Files.wrote (f : Files) (ref : String) (ws : List (String × String)) : Files :=
  { f with wireless := f.wireless.writes ref ws }

/-- The section a write leaves, with the options given it. -/
def Files.put (f : Files) (n type : String) (fields : List (String × String)) : Files :=
  { f with wireless := (f.wireless.ensure n type).writes n (written fields) }

section Writes

variable {ref n : String} {what : String → String}

theorem Mid.sets (hm : Mid φ f g h) (hfind : (g.wireless.find ref).isSome = true)
    (ws : List (String × String)) :
    Meets (setOptions wirelessConfig ref what ws) h
      (fun _ h' => Mid φ f (g.wrote ref ws) h') fun _ _ => ¬ φ.Smooth := by
  induction ws generalizing g h with
  | nil => exact hm
  | cons w ws ih =>
      refine Meets.bind (meets_saying (hm.edit_wireless hfind)) fun _ h' hm' => ?_
      exact ih hm' (by rwa [Config.find_update_isSome])

theorem Mid.drops (hm : Mid φ f g h) (hfind : (g.wireless.find ref).isSome = true)
    {say : String → String} {E : StageError → Host → Prop}
    (hE : ∀ msg h', ¬ φ.Smooth → E (.write msg) h') (os : List String) :
    Meets (os.forM fun o => writing (say o) (del wirelessConfig ref o)) h
      (fun _ h' => Mid φ f (g.dropped ref os) h') E := by
  induction os generalizing g h with
  | nil => exact hm
  | cons o os ih =>
      refine Meets.bind (meets_caught.2 ((hm.edit_wireless hfind).mono (fun _ _ h => h)
        fun e h' hrough => hE _ h' hrough)) fun _ h' hm' => ?_
      exact ih hm' (by rwa [Config.find_update_isSome])

/-- A section that could not be added is not there. -/
theorem Mid.ignored_add (hm : Mid φ f g h) (n type : String) :
    Meets (ignored (addSection wirelessConfig n type)) h
      (fun _ h' => Mid φ f { g with wireless := g.wireless.ensure n type } h' ∨
        ¬ φ.Smooth ∧ Mid φ f g h') fun _ _ => False := by
  unfold Meets ignored
  dsimp only
  unfold final addSection call
  dsimp only
  cases hrefuse : h.fate.refuses h.tick with
  | true =>
      refine .inr ⟨fun hsmooth => ?_, hm.tick _⟩
      rw [hm.fate, hsmooth] at hrefuse
      cases hrefuse
  | false =>
      simp only [Bool.false_eq_true, if_false, hm.wireless.mem, Option.getD_some]
      cases hfind : g.wireless.find n with
      | none =>
          have hpush : g.wireless.ensure n type = g.wireless.push type n := by
            simp [Config.ensure, hfind]
          rw [hpush]
          exact .inl (hm.stage_wireless _ _)
      | some s =>
          rw [Config.ensure_of_find (by rw [hfind]; rfl)]
          by_cases htype : s.type = type
          · simpa [htype] using .inl (hm.tick (h.tick + 1))
          · simpa [htype] using .inl (hm.tick (h.tick + 1))

/-- Nothing is written to a section that is not there. -/
theorem Mid.sets_missing (hm : Mid φ f g h) (hfind : g.wireless.find ref = none)
    (w : String × String) (ws : List (String × String)) :
    Meets (setOptions wirelessConfig ref what (w :: ws)) h (fun _ _ => False)
      fun _ _ => True := by
  refine Meets.bind_error (meets_saying ?_)
  unfold Meets setType editSection call
  dsimp only
  cases h.fate.refuses h.tick with
  | true => trivial
  | false => simp [hm.wireless.mem, hfind]

/-- The section is there or can be made, or nothing is written to it. -/
abbrev Files.Holds (f : Files) (n type : String) (fields : List (String × String)) : Prop :=
  ((f.wireless.ensure n type).find n).isSome = true ∨ written fields = []

/-- **One section written and committed.** Where nothing is written, the
world may keep the section from being made unnoticed. -/
theorem Mid.put (hm : Mid φ f g h) (n type : String) (fields : List (String × String)) :
    Meets (setWirelessConfig n type fields) h
      (fun _ h' => g.Holds n type fields ∧ (At φ (g.put n type fields) h' ∨
        ¬ φ.Smooth ∧ written fields = [] ∧ At φ g h'))
      fun _ _ => ¬ φ.Smooth ∨ ¬ g.Holds n type fields := by
  have hcommit : ∀ {g' : Files} {h' : Host}, Mid φ f g' h' →
      Meets (saying "failed to commit wireless config" commit) h' (fun _ h'' => At φ g' h'')
        fun _ _ => ¬ φ.Smooth ∨ ¬ g.Holds n type fields :=
    fun hm' => (meets_saying hm'.commits).mono (fun _ _ h => h) fun _ _ => .inl
  unfold setWirelessConfig
  refine Meets.bind ((hm.ignored_add n type).mono (fun _ _ h => h) fun _ _ hno => hno.elim)
    fun _ h₁ hadded => ?_
  cases hfields : written fields with
  | nil =>
      have hput : g.put n type fields = { g with wireless := g.wireless.ensure n type } := by
        simp [Files.put, hfields]
      have hholds : g.Holds n type fields := .inr hfields
      refine Meets.bind (Q := fun _ h₂ => h₂ = h₁) rfl fun _ h₂ heq => ?_
      subst heq
      rw [hput]
      rcases hadded with hm₁ | ⟨hrough, hm₁⟩
      · exact (hcommit hm₁).mono (fun _ _ hat => ⟨hholds, .inl hat⟩) fun _ _ => id
      · exact (hcommit hm₁).mono (fun _ _ hat => ⟨hholds, .inr ⟨hrough, rfl, hat⟩⟩) fun _ _ => id
  | cons w ws =>
      have hput : g.put n type fields =
          { g with wireless := (g.wireless.ensure n type).writes n (w :: ws) } := by
        simp [Files.put, hfields]
      rw [hput]
      by_cases hfound : ((g.wireless.ensure n type).find n).isSome = true
      · have hholds : g.Holds n type fields := .inl hfound
        rcases hadded with hm₁ | ⟨hrough, hm₁⟩
        · refine Meets.bind ((hm₁.sets hfound (w :: ws)).mono (fun _ _ h => h)
            fun _ _ => .inl) fun _ h₂ hm₂ => ?_
          exact (hcommit hm₂).mono (fun _ _ hat => ⟨hholds, .inl hat⟩) fun _ _ => id
        · cases hold : g.wireless.find n with
          | none =>
              exact Meets.bind_error ((hm₁.sets_missing hold w ws).mono (fun _ _ h => h)
                fun _ _ _ => .inl hrough)
          | some s' =>
              have hsame : g.wireless.ensure n type = g.wireless :=
                Config.ensure_of_find (by rw [hold]; rfl)
              rw [hsame] at hfound ⊢
              refine Meets.bind ((hm₁.sets hfound (w :: ws)).mono (fun _ _ h => h)
                fun _ _ => .inl) fun _ h₂ hm₂ => ?_
              exact (hcommit hm₂).mono (fun _ _ hat => ⟨hholds, .inl hat⟩) fun _ _ => id
      · -- the section cannot be made, so it was not there before
        have hthere : (g.wireless.ensure n type).find n = none := by simpa using hfound
        have hbefore : g.wireless.find n = none := by
          cases hold : g.wireless.find n with
          | none => rfl
          | some s =>
              rw [Config.ensure_of_find (by rw [hold]; rfl), hold] at hthere
              cases hthere
        have hno : ¬ g.Holds n type fields := by
          rintro (hyes | hnil)
          · exact hfound hyes
          · rw [hfields] at hnil
            cases hnil
        have hmissing : Meets (setOptions wirelessConfig n failedToSet (w :: ws)) h₁
            (fun _ _ => False) fun _ _ => True := by
          rcases hadded with hm₁ | ⟨-, hm₁⟩
          · exact hm₁.sets_missing hthere w ws
          · exact hm₁.sets_missing hbefore w ws
        exact Meets.bind_error (hmissing.mono (fun _ _ h => h) fun _ _ _ => .inr hno)

end Writes

/-! ## Reads -/

/-- The two configs read the same in both trees. -/
structure SameReads (t t' : Tree) : Prop where
  wireless : t.mem "wireless" = t'.mem "wireless"
  network : t.mem "network" = t'.mem "network"

namespace SameReads

variable {t t' : Tree} (hr : SameReads t t')

include hr

theorem get (r o : String) : t.get wirelessConfig r o = t'.get wirelessConfig r o := by
  simp only [Uci.Tree.get, wirelessConfig, hr.wireless]

theorem listing (type : String) :
    Wifi.listing t wirelessConfig type = Wifi.listing t' wirelessConfig type := by
  simp only [Wifi.listing, wirelessConfig, hr.wireless]

theorem isMorseDevice (radioName : String) :
    Network.isMorseDevice t radioName = Network.isMorseDevice t' radioName := by
  simp only [Network.isMorseDevice, Uci.Tree.get, hr.wireless]

theorem findLinkedIface (radioName : String) (l : List String) :
    Wifi.findLinkedIface radioName l t = Wifi.findLinkedIface radioName l t' := by
  simp only [Wifi.findLinkedIface, hr.get]

theorem linkedIface (radioName : String) :
    Wifi.linkedIface t radioName = Wifi.linkedIface t' radioName := by
  simp only [Wifi.linkedIface, hr.listing, hr.findLinkedIface]

theorem batmanInterfaceExists (name : String) :
    Wifi.batmanInterfaceExists t name = Wifi.batmanInterfaceExists t' name := by
  simp only [Wifi.batmanInterfaceExists, Wifi.listing, hr.network]

theorem batmanDeviceExists (name : String) :
    Wifi.batmanDeviceExists t name = Wifi.batmanDeviceExists t' name := by
  simp only [Wifi.batmanDeviceExists, hr.batmanInterfaceExists, Uci.Tree.get, hr.network]

theorem checkRadio (radioName : String) (settings : Option RadioSettings) :
    Wifi.checkRadio t radioName settings = Wifi.checkRadio t' radioName settings := by
  cases settings with
  | none => rfl
  | some st =>
      simp only [Wifi.checkRadio, rejectNonMeshModeOnMorse, rejectMeshWithoutBatman,
        hr.isMorseDevice, hr.batmanDeviceExists, hr.linkedIface]

theorem findUnusedBatmesh (ifaceName : String) :
    Wifi.findUnusedBatmesh t ifaceName = Wifi.findUnusedBatmesh t' ifaceName := by
  simp only [Wifi.findUnusedBatmesh, hr.listing, hr.get]

theorem firstValue (r o : String) :
    Setup.firstValue t wirelessConfig r o = Setup.firstValue t' wirelessConfig r o := by
  simp only [Setup.firstValue, hr.get]

theorem meshNetwork (ifaceName : String) :
    Wifi.meshNetwork t ifaceName = Wifi.meshNetwork t' ifaceName := by
  simp only [Wifi.meshNetwork, hr.firstValue, hr.findUnusedBatmesh]

theorem effectiveIfaceMode (ifaceName mode : String) :
    Wifi.effectiveIfaceMode t ifaceName mode = Wifi.effectiveIfaceMode t' ifaceName mode := by
  simp only [Wifi.effectiveIfaceMode, hr.firstValue]

theorem admissionFloor (radioName effMode : String) (st : RadioSettings) :
    Wifi.admissionFloor t radioName effMode st = Wifi.admissionFloor t' radioName effMode st := by
  simp only [Wifi.admissionFloor, hr.isMorseDevice]

end SameReads

/-- What is in memory is read. -/
theorem Mid.reads (hm : Mid φ f g h) : SameReads h.tree g.tree where
  wireless := hm.wireless.mem
  network := hm.mem

/-! ## The interface -/

section Iface

variable {radioName ifaceName batmesh : String} {st : RadioSettings} {cfg : UCIWirelessIface}

/-- A name that is taken by a section of another type cannot be added. -/
theorem Mid.add_taken (hm : Mid φ f g h) {c : Uci.Config} (hc : g.network = some c) {s : Section}
    {n type : String} (hfind : c.find n = some s) (htype : s.type ≠ type) :
    Meets (addSection "network" n type) h (fun _ _ => False) fun _ _ => True := by
  unfold Meets addSection call
  dsimp only
  cases h.fate.refuses h.tick with
  | true => trivial
  | false => simp [hm.mem, hc, hfind, htype]

/-- The hardif is there in the end, or its name is taken. -/
theorem Mid.ensureHardif (hm : Mid φ f g h) (hplain : Plain batmesh) (hne : batmesh ≠ "") :
    Meets (ensureBatmanHardifInterface batmesh batmanDeviceName) h
      (fun _ h' => ∃ g', g.hardif batmesh = some g' ∧ g'.wireless = g.wireless ∧ Mid φ f g' h')
      fun _ _ => ¬ φ.Smooth ∨ g.hardif batmesh = none := by
  unfold ensureBatmanHardifInterface
  refine Meets.bind (Q := fun t h' => t = h.tree ∧ h' = h) ⟨rfl, rfl⟩ ?_
  rintro t h' ⟨rfl, rfl⟩
  rw [hm.reads.batmanInterfaceExists]
  cases hexists : batmanInterfaceExists g.tree batmesh with
  | true =>
      simp only [if_true]
      exact ⟨g, by simp [Files.hardif, hexists], rfl, hm⟩
  | false =>
      simp only [Bool.false_eq_true, if_false]
      cases hfind : (g.network.getD Config.empty).find batmesh with
      | some s =>
          have hnone : g.hardif batmesh = none := by simp [Files.hardif, hexists, hfind]
          have hfails : Meets (addSection "network" batmesh "interface") h' (fun _ _ => False)
              fun _ _ => True := by
            cases hc : g.network with
            | none =>
                rw [hc] at hfind
                cases hfind
            | some c =>
                rw [hc, Option.getD_some] at hfind
                refine hm.add_taken hc hfind fun htype => ?_
                have hlisted : batmesh ∈ c.refs "interface" :=
                  (Config.name_mem_refs_iff hplain hne).2 ⟨s, hfind, htype⟩
                simp [batmanInterfaceExists, listing, Files.tree, wirelessConfig, hc, hlisted]
                  at hexists
          exact Meets.bind_error ((meets_saying hfails).mono (fun _ _ h => h)
            fun _ _ _ => .inr hnone)
      | none =>
          have hthere : ((g.network.getD Config.empty).push "interface" batmesh).find batmesh
              = some ⟨"interface", batmesh, ∅⟩ :=
            Config.find_push_self hplain (by decide) hfind
          refine Meets.bind ((meets_saying (hm.push_network hfind)).mono (fun _ _ h => h)
            fun _ _ => .inl) fun _ h₁ hm₁ => ?_
          refine Meets.bind ((meets_saying (hm₁.edit_network rfl (by rw [hthere]; rfl))).mono
            (fun _ _ h => h) fun _ _ => .inl) fun _ h₂ hm₂ => ?_
          refine Meets.bind ((meets_saying (hm₂.edit_network rfl
            (by rw [Config.find_update_isSome, hthere]; rfl))).mono (fun _ _ h => h)
            fun _ _ => .inl) fun _ h₃ hm₃ => ?_
          refine ⟨_, ?_, ?_, hm₃⟩
          · simp only [Files.hardif, hexists, Bool.false_eq_true, if_false, hfind,
              Option.isSome_none]
            rfl
          · rfl

/-- How staging one radio fails: the world refused a write, or staging on the
files stops there too. -/
def Fails (φ : Fate) (o : Outcome) : StageError → Host → Prop
  | .connect _, h => ∃ f', o = .refused f' ∧ At φ f' h
  | .write _, _ => ¬ φ.Smooth ∨ o = .unwritable

/-- A write that the world refused. -/
theorem meets_writing {α : Type} {what : String} {m : Prog α} {Q : α → Host → Prop} {o : Outcome}
    {P : Prop} (hm : Meets m h Q fun _ _ => P) (hP : P → ¬ φ.Smooth ∨ o = .unwritable) :
    Meets (writing what m) h Q (Fails φ o) :=
  meets_caught.2 (hm.mono (fun _ _ h => h) fun _ _ => hP)

/-- **The identity**: one name written, the other cleared. -/
theorem Mid.identity {o : Outcome} (hm : Mid φ f g h)
    (hfind : (g.wireless.find ifaceName).isSome = true) (mode : String) :
    Meets (stageIfaceIdentity ifaceName mode st cfg) h
      (fun c h' => c = identityOf mode st cfg ∧
        Mid φ f (g.dropped ifaceName (identityClears mode)) h')
      (Fails φ o) := by
  unfold stageIfaceIdentity identityOf identityClears
  by_cases hmesh : mode = "mesh"
  · simp only [if_pos hmesh]
    refine Meets.bind (meets_writing (hm.edit_wireless hfind) .inl) fun _ h' hm' => ?_
    exact ⟨rfl, hm'⟩
  · simp only [if_neg hmesh]
    by_cases hap : mode = "ap" ∨ mode = "sta"
    · simp only [if_pos hap]
      refine Meets.bind (meets_writing (hm.edit_wireless hfind) .inl) fun _ h' hm' => ?_
      exact ⟨rfl, hm'⟩
    · simp only [if_neg hap]
      exact ⟨rfl, hm⟩

/-- A mode that clears options is not read from the section, and is not
mesh. -/
theorem ifaceCfg_dropped (radioName : String) (st : RadioSettings) :
    effectiveIfaceMode (g.dropped ifaceName (modeClears cfg.mode)).tree ifaceName cfg.mode =
        effectiveIfaceMode g.tree ifaceName cfg.mode ∧
      admissionFloor (g.dropped ifaceName (modeClears cfg.mode)).tree radioName
          (effectiveIfaceMode g.tree ifaceName cfg.mode) st =
        admissionFloor g.tree radioName (effectiveIfaceMode g.tree ifaceName cfg.mode) st := by
  by_cases hap : cfg.mode = "ap" ∨ cfg.mode = "sta"
  · have hmode : cfg.mode ≠ "" := by rcases hap with h | h <;> simp [h]
    have hmesh : cfg.mode ≠ "mesh" := by rcases hap with h | h <;> simp [h]
    have heff : ∀ t, effectiveIfaceMode t ifaceName cfg.mode = cfg.mode := fun t => if_pos hmode
    rw [heff, heff]
    refine ⟨rfl, ?_⟩
    unfold admissionFloor
    cases st.meshRssiThreshold with
    | none => rfl
    | some v => simp [hmesh]
  · have hsame : g.dropped ifaceName (modeClears cfg.mode) = g := by
      rw [Files.dropped, modeClears, if_neg hap, Config.drops_nil]
    rw [hsame]
    exact ⟨rfl, rfl⟩

/-- The last write of an interface, on a section that is there. -/
theorem Mid.putIface {o : Outcome} (hm : Mid φ f g h)
    (hfind : (g.wireless.find ifaceName).isSome = true) :
    Meets (writing "failed to update iface config" (setWirelessIfaceConfig ifaceName cfg)) h
      (fun _ h' => At φ (g.wrote ifaceName (written (ifaceOptionFields cfg))) h')
      (Fails φ o) := by
  have hput : g.put ifaceName "wifi-iface" (ifaceOptionFields cfg) =
      g.wrote ifaceName (written (ifaceOptionFields cfg)) := by
    rw [Files.put, Config.ensure_of_find hfind]
    rfl
  refine (meets_writing (hm.put ifaceName "wifi-iface" _) ?_).mono (fun _ h' ⟨_, hat⟩ => ?_)
    fun _ _ h => h
  · rintro (hrough | hno)
    · exact .inl hrough
    · exact absurd (.inl (by rwa [Config.ensure_of_find hfind])) hno
  · rw [← hput]
    rcases hat with hat | ⟨-, hnil, hat⟩
    · exact hat
    · rw [hput, hnil]
      exact hat

/-- The interface options, written and committed. -/
theorem Mid.ifaceOptions {o : Outcome} (hm : Mid φ f g h)
    (hfind : (g.wireless.find ifaceName).isSome = true) :
    Meets (stageIfaceOptions radioName ifaceName st cfg) h
      (fun _ h' => At φ (g.iface radioName ifaceName st cfg) h') (Fails φ o) := by
  have hcleared : Meets (onlyIf (cfg.mode = "ap" ∨ cfg.mode = "sta")
      (clearMeshOnlyOptions ifaceName)) h
      (fun _ h' => Mid φ f (g.dropped ifaceName (modeClears cfg.mode)) h') (Fails φ o) := by
    refine meets_onlyIf (fun hap => ?_) fun hap => ?_
    · rw [modeClears, if_pos hap]
      exact hm.drops hfind (fun _ _ => .inl) meshOnlyOptions
    · rw [modeClears, if_neg hap]
      exact hm
  unfold stageIfaceOptions
  refine hcleared.bind fun _ h₁ hm₁ => Meets.bind
    (Q := fun t h' => SameReads t (g.dropped ifaceName (modeClears cfg.mode)).tree ∧
      Mid φ f (g.dropped ifaceName (modeClears cfg.mode)) h')
    ⟨hm₁.reads, hm₁⟩ fun t h₂ ⟨hreads, hm₂⟩ => ?_
  -- what is read after the clearing is what was read before it
  dsimp only
  obtain ⟨hmode, hfloor⟩ := @ifaceCfg_dropped g ifaceName cfg radioName st
  rw [hreads.effectiveIfaceMode, hmode, hreads.admissionFloor, hfloor]
  refine Meets.bind (hm₂.identity (by rwa [Files.dropped, Config.find_drops_isSome]) _)
    fun c h₃ ⟨hc, hm₃⟩ => ?_
  subst hc
  refine (hm₃.putIface ?_).mono (fun _ h' hat => ?_) fun _ _ h => h
  · show (((g.wireless.drops ifaceName _).drops ifaceName _).find ifaceName).isSome = true
    rwa [Config.find_drops_isSome, Config.find_drops_isSome]
  · simpa only [Files.iface, Files.ifaceCfg, Files.dropped, Files.wrote, Config.drops_append]
      using hat

/-- The hardif of a mesh is named after one. -/
theorem plain_of_meshNetwork {t : Tree} {network : String}
    (hok : meshNetwork t ifaceName = .ok (network, batmesh)) : Plain batmesh ∧ batmesh ≠ "" := by
  have hsecond : ∀ {a b c : String},
      (Except.ok (a, b) : Except ConnectError (String × String)) = .ok (network, c) → b = c :=
    fun heq => (Prod.mk.inj (Except.ok.inj heq)).2
  unfold meshNetwork at hok
  dsimp only at hok
  split at hok
  · next hprefix =>
    obtain rfl := hsecond hok
    obtain ⟨rest, hrest⟩ := List.isPrefixOf_iff_prefix.1 hprefix
    constructor
    · rw [Plain, ← hrest]
      simp
    · rintro hempty
      rw [hempty] at hrest
      simp at hrest
  · split at hok
    · cases hok
    · next unused hunused =>
      obtain rfl := hsecond hok
      have hmem : unused ∈ [batmanPrimaryIface, batmanSecondaryIface] := by
        unfold findUnusedBatmesh at hunused
        split at hunused
        · cases hunused
        · dsimp only at hunused
          split at hunused
          · next hfound =>
            obtain rfl := Except.ok.inj hunused
            exact List.mem_of_find?_eq_some hfound
          · cases hunused
      have hall : ∀ name ∈ [batmanPrimaryIface, batmanSecondaryIface], Plain name ∧ name ≠ "" := by
        decide
      exact hall unused hmem

/-- A refused interface leaves the files as they were. -/
theorem refused_of_place (hplace : f.place S radioName ifaceName st = .refused g) : f = g := by
  unfold Files.place at hplace
  dsimp only at hplace
  split at hplace
  · split at hplace
    · exact Outcome.refused.inj hplace
    · split at hplace <;> cases hplace
  · split at hplace <;> cases hplace

/-- **The interface** is placed as on the files. -/
theorem Mid.stageIface (hm : At φ f h) (hfind : (f.wireless.find ifaceName).isSome = true) :
    Meets (S.stageIface radioName ifaceName st) h
      (fun _ h' => ∃ f', f.place S radioName ifaceName st = .staged f' ∧ At φ f' h')
      (Fails φ (f.place S radioName ifaceName st)) := by
  unfold WifiConfigService.stageIface WifiConfigService.stageNetwork Files.place
  dsimp only
  by_cases hmesh : st.baseIface.mode = "mesh"
  · simp only [if_pos hmesh]
    refine Meets.bind (Q := fun cfg h' => ∃ network batmesh g,
      meshNetwork f.tree ifaceName = .ok (network, batmesh) ∧ f.hardif batmesh = some g ∧
        g.wireless = f.wireless ∧ Mid φ f g h' ∧ cfg = S.stageSecondaryMeshPolicy radioName batmesh
          { st.baseIface with meshFwding := "0", network := network }) ?_ ?_
    · refine Meets.bind (Q := fun t h' => t = h.tree ∧ h' = h) ⟨rfl, rfl⟩ ?_
      rintro t h' ⟨rfl, rfl⟩
      rw [hm.reads.meshNetwork]
      cases hnet : meshNetwork f.tree ifaceName with
      | error e => exact ⟨f, rfl, hm⟩
      | ok r =>
          obtain ⟨network, batmesh⟩ := r
          obtain ⟨hplain, hne⟩ := plain_of_meshNetwork hnet
          refine Meets.bind (Q := fun r h'' => r = (network, batmesh) ∧ h'' = h') ⟨rfl, rfl⟩ ?_
          rintro r h'' ⟨rfl, rfl⟩
          refine Meets.bind (meets_writing (hm.ensureHardif hplain hne) ?_)
            fun _ h₁ ⟨g, hg, hwireless, hm₁⟩ => ?_
          · rintro (hrough | hnone)
            · exact .inl hrough
            · exact .inr (by simp only [hnone])
          · exact ⟨network, batmesh, g, rfl, hg, hwireless, hm₁, rfl⟩
    · rintro cfg h₁ ⟨network, batmesh, g, hnet, hg, hwireless, hm₁, rfl⟩
      simp only [hnet, hg]
      exact (hm₁.ifaceOptions (by rwa [hwireless])).mono (fun _ _ hat => ⟨_, rfl, hat⟩)
        fun _ _ hfails => hfails
  · simp only [if_neg hmesh]
    by_cases hap : st.baseIface.mode = "ap" ∨ st.baseIface.mode = "sta"
    · simp only [if_pos hap]
      refine Meets.bind (Q := fun cfg h' => cfg =
        { st.baseIface with network := wifiNetworkAhwlan } ∧ h' = h) ⟨rfl, rfl⟩ ?_
      rintro cfg h' ⟨rfl, rfl⟩
      exact (hm.ifaceOptions hfind).mono (fun _ _ hat => ⟨_, rfl, hat⟩) fun _ _ hfails => hfails
    · simp only [if_neg hap]
      refine Meets.bind (Q := fun cfg h' => cfg = st.baseIface ∧ h' = h) ⟨rfl, rfl⟩ ?_
      rintro cfg h' ⟨rfl, rfl⟩
      exact (hm.ifaceOptions hfind).mono (fun _ _ hat => ⟨_, rfl, hat⟩) fun _ _ hfails => hfails

end Iface

/-! ## One radio -/

section Radio

variable {t : Tree} {radioName ifaceName : String} {settings : Option RadioSettings}
  {st : RadioSettings} {u : RadioSettingsUpdate}

/-- What a request that passes the checks is, and is for. -/
theorem checkRadio_ok (hok : checkRadio t radioName settings = .ok (st, ifaceName)) :
    settings = some st ∧ linkedIface t radioName = .ok ifaceName := by
  cases settings with
  | none => cases hok
  | some st' =>
      unfold checkRadio at hok
      dsimp only at hok
      cases hmorse : rejectNonMeshModeOnMorse t radioName st'.mode with
      | error e => rw [hmorse] at hok; cases hok
      | ok _ =>
          cases hbatman : rejectMeshWithoutBatman t (protoToWifiMode st'.mode) with
          | error e => rw [hmorse, hbatman] at hok; cases hok
          | ok _ =>
              cases hlinked : linkedIface t radioName with
              | error e => rw [hmorse, hbatman, hlinked] at hok; cases hok
              | ok iface =>
                  rw [hmorse, hbatman, hlinked] at hok
                  cases hok
                  exact ⟨rfl, rfl⟩

/-- A linked interface is one of the listed sections. -/
theorem linkedIface_mem (hok : linkedIface f.tree radioName = .ok ifaceName) :
    ifaceName ∈ f.wireless.refs "wifi-iface" := by
  have hlist : listing f.tree wirelessConfig "wifi-iface" = .ok (f.wireless.refs "wifi-iface") := by
    simp [listing, Files.tree]
  unfold linkedIface at hok
  rw [hlist] at hok
  dsimp only at hok
  split at hok
  · cases hok
  · next hne =>
    obtain rfl := Except.ok.inj hok
    unfold findLinkedIface at hne ⊢
    cases hfound : (f.wireless.refs "wifi-iface").find? fun sec =>
        (f.tree.get wirelessConfig sec "device").head? == some radioName with
    | none => rw [hfound] at hne; exact absurd rfl hne
    | some sec => exact List.mem_of_find?_eq_some hfound

theorem find_device_isSome {ref : String} (hfind : f.wireless.find ref ≠ none) :
    ((f.device radioName st).wireless.find ref).isSome = true := by
  obtain ⟨s, hs⟩ := Option.ne_none_iff_exists'.1 hfind
  show (((f.wireless.ensure radioName "wifi-device").writes radioName _).find ref).isSome = true
  rw [Config.find_writes_isSome]
  unfold Config.ensure
  split
  · rw [hs]
    rfl
  · rw [Config.find_push _ _ _ hs]
    rfl

/-- The device section is made for certain: the world refuses nothing, or
something is written to it. -/
def Sure (φ : Fate) (u : RadioSettingsUpdate) : Prop :=
  φ.Smooth ∨ ∀ st, u.settings = some st → st.deviceWrites ≠ []

/-- **One radio is staged as on the files.** Where its device section is not
made for certain, a refusal may leave the files untouched. -/
theorem Mid.stageRadio (hm : At φ f h) :
    Meets (S.stageRadioSettings u.radioName u.settings) h
      (fun _ h' => (∃ f', f.stage S u = .staged f' ∧ At φ f' h') ∨ ¬ Sure φ u)
      fun e h' => Fails φ (f.stage S u) e h' ∨
        ¬ Sure φ u ∧ ∀ c, e = .connect c → At φ f h' := by
  unfold WifiConfigService.stageRadioSettings Files.stage
  refine Meets.bind (Q := fun t h' => t = h.tree ∧ h' = h) ⟨rfl, rfl⟩ ?_
  rintro t h' ⟨rfl, rfl⟩
  rw [hm.reads.checkRadio]
  cases hcheck : checkRadio f.tree u.radioName u.settings with
  | error e => exact .inl ⟨f, rfl, hm⟩
  | ok r =>
      obtain ⟨st, ifaceName⟩ := r
      obtain ⟨hsettings, hlinked⟩ := checkRadio_ok hcheck
      have hiface := Config.find_of_mem_refs (linkedIface_mem hlinked)
      refine Meets.bind (Q := fun r h'' => r = (st, ifaceName) ∧ h'' = h') ⟨rfl, rfl⟩ ?_
      rintro r h'' ⟨rfl, rfl⟩
      dsimp only
      refine Meets.bind ((meets_writing (hm.put u.radioName "wifi-device" _) fun hno => ?_).mono
        (fun _ _ h => h) fun _ _ => .inl) ?_
      · rcases hno with hrough | hno
        · exact .inl hrough
        · exact .inr (if_neg hno)
      · rintro _ h₁ ⟨hholds, hat | ⟨hrough, hnil, hat⟩⟩
        · have hwritable : f.Writable u.radioName st := hholds
          rw [if_pos hwritable]
          exact (Mid.stageIface (f := f.device u.radioName st) hat
            (find_device_isSome hiface)).mono (fun _ _ => .inl) fun _ _ => .inl
        · have hunsure : ¬ Sure φ u := by
            rintro (hsmooth | hwrites)
            · exact hrough hsmooth
            · exact hwrites st hsettings hnil
          refine (Mid.stageIface hat (Option.isSome_iff_ne_none.2 hiface)).mono
            (fun _ _ _ => .inr hunsure) fun e h₂ hfails => .inr ⟨hunsure, ?_⟩
          rintro c rfl
          obtain ⟨f', hplace, hat'⟩ := hfails
          rwa [← refused_of_place hplace] at hat'

end Radio

end Wifi

end OpenManet
