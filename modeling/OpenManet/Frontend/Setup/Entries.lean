import OpenManet.Frontend.Setup.State
import OpenManet.Lib.Machine
/-!
# The rules across the fields of the wizard

No check of the wizard restates them: each radio has one entry, one entry at
most is a backhaul, which is no access point, the role has its own mode and not
the other one's, and a mesh point has no uplink. The node rejects a profile
that breaks one. The reducer keeps them, three of its actions each in their own
way, as long as the actions are dispatched where a page has them: `Placed` says
where.
-/

namespace OpenManet

namespace Wizard

open Setup

/-! ## Entries apart -/

/-- The entries are of distinct radios, one at most is a backhaul, and none is
both a backhaul and an access point. -/
structure EntriesApart (aps : List RadioAp) : Prop where
  nodup : (aps.map (·.radioName)).Nodup
  single : ∀ ap ∈ aps, ∀ ap' ∈ aps, ap.meshBackhaul = true → ap'.meshBackhaul = true →
    ap.radioName = ap'.radioName
  neither : ∀ ap ∈ aps, ap.meshBackhaul = true → ap.enabled = false

theorem entriesApart_nil : EntriesApart [] where
  nodup := List.nodup_nil
  single := by simp
  neither := by simp

namespace EntriesApart

variable {s : State} {aps : List RadioAp} {ap : RadioAp} {radioName : String}

/-- The entry a page starts from. -/
theorem entryOf (h : EntriesApart aps) (hback : (Wizard.entryOf aps radioName).meshBackhaul = true) :
    (Wizard.entryOf aps radioName).enabled = false ∧
      ∀ a ∈ aps, a.meshBackhaul = true → a.radioName = radioName := by
  obtain ⟨hmem | hnew, hname⟩ := entryOf_cases aps radioName
  · refine ⟨h.neither _ hmem hback, fun a ha hback' => ?_⟩
    rw [h.single a ha _ hmem hback' hback, hname]
  · rw [hnew] at hback
    cases hback

/-- At most one entry is a backhaul. -/
theorem length_backhauls_le (h : EntriesApart aps) :
    (aps.filter (·.meshBackhaul)).length ≤ 1 := by
  have hnodup : ((aps.filter (·.meshBackhaul)).map (·.radioName)).Nodup :=
    h.nodup.sublist (List.filter_sublist.map _)
  have hmem : ∀ a ∈ aps.filter (·.meshBackhaul), a ∈ aps ∧ a.meshBackhaul = true :=
    fun a ha => List.mem_filter.1 ha
  generalize aps.filter (·.meshBackhaul) = backhauls at hnodup hmem ⊢
  match backhauls with
  | [] => exact Nat.zero_le 1
  | [_] => exact Nat.le_refl 1
  | a :: b :: rest =>
      obtain ⟨ha, hbacka⟩ := hmem a (by simp)
      obtain ⟨hb, hbackb⟩ := hmem b (by simp)
      have hsame : a.radioName = b.radioName := h.single a ha b hb hbacka hbackb
      exact absurd (List.mem_map.2 ⟨b, List.mem_cons_self, hsame.symm⟩) (List.nodup_cons.1 hnodup).1

/-- Putting an entry keeps the entries apart, where no other is a backhaul if
it is one. -/
theorem upsert (h : EntriesApart aps) (hneither : ap.meshBackhaul = true → ap.enabled = false)
    (hsingle : ap.meshBackhaul = true → ∀ a ∈ aps, a.meshBackhaul = true →
      a.radioName = ap.radioName) : EntriesApart (upsert ap aps) := by
  refine ⟨nodup_upsert h.nodup, fun a ha b hb hback hback' => ?_, fun a ha => ?_⟩
  · rcases mem_of_mem_upsert ha with rfl | ha'
    · rcases mem_of_mem_upsert hb with rfl | hb'
      · rfl
      · exact (hsingle hback b hb' hback').symm
    · rcases mem_of_mem_upsert hb with rfl | hb'
      · exact hsingle hback' a ha' hback
      · exact h.single a ha' b hb' hback hback'
  · rcases mem_of_mem_upsert ha with rfl | ha
    · exact hneither
    · exact h.neither a ha

/-- `SET_AP`, where what the radio is used for stays as it was. -/
theorem edited (h : EntriesApart aps)
    (henabled : ap.enabled = (Wizard.entryOf aps ap.radioName).enabled)
    (hback : ap.meshBackhaul = (Wizard.entryOf aps ap.radioName).meshBackhaul) :
    EntriesApart (Wizard.upsert ap aps) := by
  have hentry : ap.meshBackhaul = true → _ := fun hb => h.entryOf (hback.symm.trans hb)
  exact h.upsert (fun hb => henabled.trans (hentry hb).1) fun hb => (hentry hb).2

/-- Entries that are cleared of the backhaul, where a condition says so, stay
apart. -/
theorem cleared (h : EntriesApart aps) (p : RadioAp → Prop) [DecidablePred p] :
    EntriesApart (aps.map fun ap => if p ap then ap.clearBackhaul else ap) := by
  have hname : ∀ ap : RadioAp,
      (if p ap then ap.clearBackhaul else ap).radioName = ap.radioName := by
    intro ap
    split_ifs <;> rfl
  have hback : ∀ ap : RadioAp, (if p ap then ap.clearBackhaul else ap).meshBackhaul = true →
      (if p ap then ap.clearBackhaul else ap) = ap := by
    intro ap hback
    split_ifs at hback ⊢
    · cases hback
    · rfl
  refine ⟨?_, fun a ha b hb hbacka hbackb => ?_, fun a ha hbacka => ?_⟩
  · rw [List.map_map]
    have hsame : (fun ap : RadioAp => ap.radioName) ∘
        (fun ap => if p ap then ap.clearBackhaul else ap) = fun ap => ap.radioName := funext hname
    rw [hsame]
    exact h.nodup
  · obtain ⟨x, hx, rfl⟩ := List.mem_map.1 ha
    obtain ⟨y, hy, rfl⟩ := List.mem_map.1 hb
    have hxs := hback x hbacka
    have hys := hback y hbackb
    rw [hxs] at hbacka ⊢
    rw [hys] at hbackb ⊢
    exact h.single x hx y hy hbacka hbackb
  · obtain ⟨x, hx, rfl⟩ := List.mem_map.1 ha
    have hxs := hback x hbacka
    rw [hxs] at hbacka ⊢
    exact h.neither x hx hbacka

/-- `SET_RADIO_MODE`: the other radios are cleared before one becomes the
backhaul. -/
theorem setRadioMode (h : EntriesApart s.aps) (mode : RadioMode) :
    EntriesApart (setRadioMode s radioName mode).aps := by
  have hname : (Wizard.entryOf s.aps radioName).radioName = radioName :=
    (entryOf_cases s.aps radioName).2
  refine (h.cleared fun ap => mode = .backhaul ∧ ap.radioName ≠ radioName ∧ ap.meshBackhaul).upsert
    (fun hback => decide_eq_false fun hmode => ?_) fun hback a ha hback' => ?_
  · rw [of_decide_eq_true hback] at hmode
    cases hmode
  · show a.radioName = (Wizard.entryOf s.aps radioName).radioName
    rw [hname]
    obtain ⟨ap, hap, rfl⟩ := List.mem_map.1 ha
    have hmode : mode = .backhaul := of_decide_eq_true hback
    by_contra hne
    split_ifs at hne hback' with hclear
    · cases hback'
    · exact hclear ⟨hmode, hne, hback'⟩

/-- `APPLY_MESH_JOIN`: the target's entry goes to the end, all others are
cleared. -/
theorem joined (h : EntriesApart aps) (target : String) (halow b : MeshCredentials) :
    EntriesApart ((aps.filter fun ap => ap.radioName ≠ target).map RadioAp.clearBackhaul
      ++ [joinBackhaul (Wizard.entryOf aps target) halow b]) := by
  have hname : (joinBackhaul (Wizard.entryOf aps target) halow b).radioName = target :=
    (entryOf_cases aps target).2
  have hother : ∀ a ∈ (aps.filter fun ap => ap.radioName ≠ target).map RadioAp.clearBackhaul,
      a.meshBackhaul = false := by
    intro a ha
    obtain ⟨ap, -, rfl⟩ := List.mem_map.1 ha
    rfl
  refine ⟨?_, fun a ha a' ha' hback hback' => ?_, fun a ha hback => ?_⟩
  · rw [List.map_append, List.map_map, List.nodup_append]
    refine ⟨h.nodup.sublist (List.filter_sublist.map _), by simp, fun n hn n' hn' => ?_⟩
    obtain ⟨ap, hap, rfl⟩ := List.mem_map.1 hn
    rw [List.map_singleton, List.mem_singleton, hname] at hn'
    rw [hn']
    exact of_decide_eq_true (List.mem_filter.1 hap).2
  · rcases List.mem_append.1 ha with ha | ha
    · rw [hother a ha] at hback
      cases hback
    · rcases List.mem_append.1 ha' with ha' | ha'
      · rw [hother a' ha'] at hback'
        cases hback'
      · rw [List.mem_singleton.1 ha, List.mem_singleton.1 ha']
  · rcases List.mem_append.1 ha with ha | ha
    · rw [hother a ha] at hback
      cases hback
    · obtain rfl := List.mem_singleton.1 ha
      rfl

/-- `REMOVE_AP`. -/
theorem filter (h : EntriesApart aps) (p : RadioAp → Bool) : EntriesApart (aps.filter p) where
  nodup := h.nodup.sublist (List.filter_sublist.map _)
  single := fun a ha b hb => h.single a (List.mem_of_mem_filter ha) b (List.mem_of_mem_filter hb)
  neither := fun a ha => h.neither a (List.mem_of_mem_filter ha)

end EntriesApart

/-! ## Every run -/

/-- **Where an action is dispatched.** A role is one of the two, a mode is
dispatched under its own role, the uplink under the gate's, and an edited entry
says of the use of its radio what the entry in place says. -/
def Placed (s : State) : Action → Prop
  | .setRole v => v = .meshPoint ∨ v = .meshGate
  | .setMeshpointMode v => s.role = .meshPoint ∧ v ≠ .unspecified
  | .setMeshgateMode v => s.role = .meshGate ∧ v ≠ .unspecified
  | .setUplinkType _ => s.role = .meshGate
  | .setUplinkField _ => s.role = .meshGate
  | .setUplinkWireless _ => s.role = .meshGate
  | .setAp v =>
      v.enabled = (entryOf s.aps v.radioName).enabled ∧
        v.meshBackhaul = (entryOf s.aps v.radioName).meshBackhaul
  | _ => True

instance (s : State) (a : Action) : Decidable (Placed s a) := by
  unfold Placed
  split <;> infer_instance

/-- What the node asks across the fields: the entries are of distinct radios,
one at most is a backhaul and none is an access point as well, the mode of the
role is specified and the other one is not, and a mesh point has no uplink. -/
def Consistent (s : State) : Prop :=
  (s.aps.map (·.radioName)).Nodup ∧
  (s.aps.filter (·.meshBackhaul)).length ≤ 1 ∧
  (∀ ap ∈ s.aps, ¬(ap.meshBackhaul = true ∧ ap.enabled = true)) ∧
  (s.role = .meshPoint ∧ s.meshpointMode ≠ .unspecified ∧ s.meshgateMode = .unspecified ∨
    s.role = .meshGate ∧ s.meshgateMode ≠ .unspecified ∧ s.meshpointMode = .unspecified) ∧
  (s.role = .meshPoint → s.uplink.type = .unspecified ∧ s.uplink = initialState.uplink)

/-- What every state keeps, as one dispatch after the other does. -/
structure Coherent (s : State) : Prop where
  entries : EntriesApart s.aps
  mode : s.role = .meshPoint ∧ s.meshpointMode ≠ .unspecified ∧ s.meshgateMode = .unspecified ∨
    s.role = .meshGate ∧ s.meshgateMode ≠ .unspecified ∧ s.meshpointMode = .unspecified
  uplink : s.role = .meshPoint → s.uplink = initialState.uplink

/-- A dispatch has a next state always. -/
def dispatch (s : State) (a : Action) : Option State := some (reducer s a)

namespace Coherent

variable {s : State}

theorem initial : Coherent initialState where
  entries := entriesApart_nil
  mode := .inl ⟨rfl, by decide, rfl⟩
  uplink := fun _ => rfl

theorem setRole {role : MeshRole} (h : Coherent s) (hrole : role = .meshPoint ∨ role = .meshGate) :
    Coherent (setRole s role) := by
  rcases hrole with rfl | rfl
  · refine ⟨h.entries, .inl ⟨rfl, ?_, rfl⟩, fun _ => rfl⟩
    show (if s.meshpointMode = .unspecified then _ else s.meshpointMode) ≠ _
    split_ifs with hmode
    · decide
    · exact hmode
  · refine ⟨h.entries, .inr ⟨rfl, ?_, rfl⟩, fun hpoint => by cases hpoint⟩
    show (if s.meshgateMode = .unspecified then _ else s.meshgateMode) ≠ _
    split_ifs with hmode
    · decide
    · exact hmode

theorem applyMeshJoin (h : Coherent s) (payload : MeshJoinPayload) (radios : List SetupRadio) :
    Coherent (applyMeshJoin s payload radios) := by
  unfold Wizard.applyMeshJoin
  cases payload.backhaul with
  | none => exact ⟨h.entries, h.mode, h.uplink⟩
  | some b =>
      cases backhaulTarget s radios with
      | none => exact ⟨h.entries, h.mode, h.uplink⟩
      | some target => exact ⟨h.entries.joined target.name payload.halow b, h.mode, h.uplink⟩

/-- An action of the gate does not touch what a mesh point keeps. -/
theorem ofGate {uplink : UplinkChoice} (h : Coherent s) (hrole : s.role = .meshGate) :
    Coherent { s with uplink := uplink } := by
  refine ⟨h.entries, h.mode, fun hpoint => ?_⟩
  rw [hrole] at hpoint
  cases hpoint

/-- **One dispatch keeps the state coherent.** -/
theorem step {a : Action} (h : Coherent s) (hplaced : Placed s a) : Coherent (reducer s a) := by
  cases a with
  | setRole v => exact h.setRole hplaced
  | setMeshpointMode v =>
      obtain ⟨hrole, hv⟩ := hplaced
      refine ⟨h.entries, .inl ⟨hrole, hv, ?_⟩, h.uplink⟩
      rcases h.mode with ⟨-, -, hgate⟩ | ⟨hgate, -⟩
      · exact hgate
      · rw [hrole] at hgate
        cases hgate
  | setMeshgateMode v =>
      obtain ⟨hrole, hv⟩ := hplaced
      refine ⟨h.entries, .inr ⟨hrole, hv, ?_⟩, h.uplink⟩
      rcases h.mode with ⟨hpoint, -⟩ | ⟨-, -, hpoint⟩
      · rw [hrole] at hpoint
        cases hpoint
      · exact hpoint
  | setUplinkType v => exact h.ofGate hplaced
  | setUplinkField v => exact h.ofGate hplaced
  | setUplinkWireless f => exact h.ofGate hplaced
  | setAp v => exact ⟨h.entries.edited hplaced.1 hplaced.2, h.mode, h.uplink⟩
  | removeAp radioName => exact ⟨h.entries.filter _, h.mode, h.uplink⟩
  | setRadioMode radioName mode => exact ⟨h.entries.setRadioMode mode, h.mode, h.uplink⟩
  | applyMeshJoin payload radios => exact h.applyMeshJoin payload radios
  | reset => exact initial
  | hydrateFromStatus status browserTimezone => exact ⟨h.entries, h.mode, h.uplink⟩
  | setHostname v => exact ⟨h.entries, h.mode, h.uplink⟩
  | setMeshField f => exact ⟨h.entries, h.mode, h.uplink⟩
  | setAdminPassword v => exact ⟨h.entries, h.mode, h.uplink⟩
  | setAdminPasswordConfirm v => exact ⟨h.entries, h.mode, h.uplink⟩
  | setTimezone v => exact ⟨h.entries, h.mode, h.uplink⟩

theorem consistent (h : Coherent s) : Consistent s := by
  refine ⟨h.entries.nodup, h.entries.length_backhauls_le, fun ap hap hboth => ?_, h.mode,
    fun hrole => ⟨?_, h.uplink hrole⟩⟩
  · rw [h.entries.neither ap hap hboth.1] at hboth
    cases hboth.2
  · rw [h.uplink hrole]
    rfl

end Coherent

/-- **Every state of a run whose actions are well placed is consistent.** -/
theorem consistent_throughout {actions : List Action}
    (hplaced : Always dispatch Placed initialState actions) :
    Throughout dispatch Consistent initialState actions := by
  refine Throughout.of_invariant hplaced Coherent.initial (fun s a s' h ha hstep => ?_)
    fun s h => h.consistent
  obtain rfl := Option.some.inj hstep
  exact h.step ha

/-- A gate is set up, the backhaul goes from one radio to another, the first
becomes an access point and its name is edited. -/
def gateActions : List Action :=
  [.setRole .meshGate, .setMeshgateMode .routerFirewall, .setUplinkType .ethernet,
    .setRadioMode "radio1" .backhaul, .setRadioMode "radio2" .backhaul, .setRadioMode "radio1" .ap,
    .setAp { apDefaults "radio1" with enabled := true, ssid := "camp" }, .setRole .meshPoint]

theorem consistent_gateActions :
    Always dispatch Placed initialState gateActions ∧
      Throughout dispatch Consistent initialState gateActions := by
  have hplaced : Always dispatch Placed initialState gateActions := by decide +kernel
  exact ⟨hplaced, consistent_throughout hplaced⟩

end Wizard

end OpenManet
