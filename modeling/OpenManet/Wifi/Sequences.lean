import OpenManet.Wifi.Sections
/-!
# Sequences of changes

Radios are changed by one call after the other, each a change of one radio or
a join. Over any sequence of calls that succeed the wireless config stays
sound, and every section has the mode it was last asked to have; one that was
asked to be a mesh is on a hardif network that is there.

A call goes through radio by radio (`Stepped`). A radio whose device section
could not be made, and to which nothing was written, is staged without one.
-/

namespace OpenManet

namespace Wifi

open Uci Fallible Network

variable {φ : Fate} {f g : Files} {h h' : Host} {S : WifiConfigService} {u : RadioSettingsUpdate}
  {us : List RadioSettingsUpdate} {st : RadioSettings} {sec : String} {n : Option Uci.Config}
  {asked : String → Option WifiMode}

/-! ## What a radio is asked for -/

/-- The modes sections were asked to have, after an update. A mode that is
left open asks for nothing. -/
def RadioSettingsUpdate.asks (u : RadioSettingsUpdate) (t : Tree)
    (asked : String → Option WifiMode) : String → Option WifiMode :=
  match u.settings, linkedIface t u.radioName with
  | some st, .ok sec =>
      if protoToWifiMode st.mode = "" then asked else Function.update asked sec (some st.mode)
  | _, _ => asked

/-- **The files do what was asked**, from a network config `n` on. -/
structure Tracked (n : Option Uci.Config) (asked : String → Option WifiMode) (f : Files) :
    Prop where
  sound : Sound f.wireless
  modes : ∀ sec m, asked sec = some m → sec ∈ f.wireless.refs "wifi-iface" ∧
    firstOf f.wireless sec "mode" = protoToWifiMode m
  bound : ∀ sec, asked sec = some .mesh → IsBatmesh (firstOf f.wireless sec "network") ∧
    (interfaceProto f.network (firstOf f.wireless sec "network")).isSome = true
  network : ∀ name, interfaceProto f.network name = interfaceProto n name ∨
    interfaceProto n name = none ∧ interfaceProto f.network name = some ["batadv_hardif"]

theorem Tracked.device (ht : Tracked n asked f) (radioName : String) (st : RadioSettings) :
    Tracked n asked (f.device radioName st) := by
  have hrefs := refs_device (f := f) radioName st
  have hfirst : ∀ sec, ∀ o ∈ watched,
      firstOf (f.device radioName st).wireless sec o = firstOf f.wireless sec o := by
    intro sec o ho
    rw [firstOf, firstOf, get_device radioName st sec ho]
  refine ⟨⟨?_, ?_⟩, ?_, ?_, ht.network⟩
  · intro a ha b hb hab
    rw [hrefs] at ha hb
    rw [hfirst a _ (by decide), hfirst b _ (by decide)]
    exact ht.sound.apart a ha b hb hab
  · intro a ha
    rw [hrefs] at ha
    exact (ht.sound.pure a ha).congr fun o ho => get_device radioName st a ho
  · intro a m ha
    rw [hrefs, hfirst a _ (by decide)]
    exact ht.modes a m ha
  · intro a ha
    rw [hfirst a _ (by decide)]
    exact ht.bound a ha

/-- An interface that is there stays there. -/
theorem Placed.isSome {m : WifiMode} (hp : Placed sec m f g) {name : String}
    (hname : (interfaceProto f.network name).isSome = true) :
    (interfaceProto g.network name).isSome = true := by
  rcases hp.network name with hsame | ⟨hnone, -⟩
  · rwa [hsame]
  · rw [hnone] at hname
    cases hname

/-- **Placing an interface does what was asked.** -/
theorem Tracked.placed (ht : Tracked n asked f) (hp : Placed sec st.mode f g)
    (hsec : sec ∈ f.wireless.refs "wifi-iface") :
    Tracked n (if protoToWifiMode st.mode = "" then asked
      else Function.update asked sec (some st.mode)) g := by
  have hkept : ∀ a ∈ f.wireless.refs "wifi-iface", a ≠ sec → ∀ o ∈ watched,
      firstOf g.wireless a o = firstOf f.wireless a o := by
    intro a ha hne o ho
    rw [firstOf, firstOf, hp.kept.others a ha hne o ho]
  have hgrown : ∀ name, interfaceProto g.network name = interfaceProto n name ∨
      interfaceProto n name = none ∧ interfaceProto g.network name = some ["batadv_hardif"] := by
    intro name
    rcases hp.network name with hsame | ⟨hnone, hnew⟩
    · rw [hsame]
      exact ht.network name
    · rcases ht.network name with hold | ⟨-, hold⟩
      · exact .inr ⟨by rw [← hold, hnone], hnew⟩
      · rw [hold] at hnone
        cases hnone
  by_cases hopen : protoToWifiMode st.mode = ""
  · rw [if_pos hopen]
    refine ⟨hp.sound, fun a m ha => ?_, fun a ha => ?_, hgrown⟩
    · obtain ⟨hmem, hmode⟩ := ht.modes a m ha
      rw [hp.kept.refs]
      refine ⟨hmem, ?_⟩
      by_cases hne : a = sec
      · subst hne
        rw [hp.mode, if_pos hopen, hmode]
      · rw [hkept a hmem hne _ (by decide), hmode]
    · obtain ⟨hmem, -⟩ := ht.modes a _ ha
      obtain ⟨hbatmesh, hthere⟩ := ht.bound a ha
      have hsame : firstOf g.wireless a "network" = firstOf f.wireless a "network" := by
        by_cases hne : a = sec
        · subst hne
          exact hp.unbound hopen
        · exact hkept a hmem hne _ (by decide)
      rw [hsame]
      exact ⟨hbatmesh, hp.isSome hthere⟩
  · rw [if_neg hopen]
    refine ⟨hp.sound, fun a m ha => ?_, fun a ha => ?_, hgrown⟩
    · by_cases hne : a = sec
      · subst hne
        rw [Function.update_self] at ha
        obtain rfl := Option.some.inj ha
        rw [hp.kept.refs, hp.mode, if_neg hopen]
        exact ⟨hsec, rfl⟩
      · rw [Function.update_of_ne hne] at ha
        obtain ⟨hmem, hmode⟩ := ht.modes a m ha
        rw [hp.kept.refs, hkept a hmem hne _ (by decide)]
        exact ⟨hmem, hmode⟩
    · by_cases hne : a = sec
      · subst hne
        rw [Function.update_self] at ha
        exact hp.bound (Option.some.inj ha)
      · rw [Function.update_of_ne hne] at ha
        obtain ⟨hmem, -⟩ := ht.modes a _ ha
        obtain ⟨hbatmesh, hthere⟩ := ht.bound a ha
        rw [hkept a hmem hne _ (by decide)]
        exact ⟨hbatmesh, hp.isSome hthere⟩

/-- The settings name a network, as the API requires. -/
def RadioSettingsUpdate.NamesSsid (u : RadioSettingsUpdate) : Prop :=
  ∀ st, u.settings = some st → st.ssid ≠ ""

/-- **One radio.** What was asked is done, and every radio has the interface
it had. -/
theorem Tracked.step (ht : Tracked n asked f) (hnamed : u.NamesSsid) (hstep : Stepped S f u g) :
    Tracked n (u.asks f.tree asked) g ∧
      ∀ radioName, linkedIface g.tree radioName = linkedIface f.tree radioName := by
  obtain ⟨st, sec, hcheck, hplace⟩ := hstep
  obtain ⟨hsettings, hlinked⟩ := checkRadio_ok hcheck
  have hsec := linkedIface_mem hlinked
  have hasks : u.asks f.tree asked = if protoToWifiMode st.mode = "" then asked
      else Function.update asked sec (some st.mode) := by
    simp only [RadioSettingsUpdate.asks, hsettings, hlinked]
  have hfrom : ∃ d, Tracked n asked d ∧ d.place S u.radioName sec st = .staged g ∧
      d.wireless.refs "wifi-iface" = f.wireless.refs "wifi-iface" ∧
      ∀ a, d.wireless.get a "device" = f.wireless.get a "device" := by
    rcases hplace with hplace | hplace
    · exact ⟨_, ht.device u.radioName st, hplace, refs_device .., fun a =>
        get_device u.radioName st a (by decide)⟩
    · exact ⟨f, ht, hplace, rfl, fun _ => rfl⟩
  obtain ⟨d, hd, hplace, hrefs, hdevice⟩ := hfrom
  rw [← hrefs] at hsec
  have hp := Wifi.placed hd.sound hsec (hnamed st hsettings) hplace
  refine ⟨hasks ▸ hd.placed hp hsec, fun radioName => ?_⟩
  refine linkedIface_congr (hp.kept.refs.trans hrefs) (fun a ha => ?_) radioName
  rw [hp.kept.get_device (by rwa [hrefs]), hdevice]

/-! ## Radio by radio -/

/-- The files radios are staged to, one after the other. -/
inductive Steps (S : WifiConfigService) : Files → List RadioSettingsUpdate → Files → Prop
  | nil (f : Files) : Steps S f [] f
  | cons {f d g : Files} {u : RadioSettingsUpdate} {us : List RadioSettingsUpdate}
      (hstep : Stepped S f u d) (hrest : Steps S d us g) : Steps S f (u :: us) g

/-- What sections were asked for, after updates. -/
def asksAll (us : List RadioSettingsUpdate) (t : Tree) (asked : String → Option WifiMode) :
    String → Option WifiMode :=
  us.foldl (fun asked u => u.asks t asked) asked

theorem Tracked.steps {t : Tree} (hsteps : Steps S f us g) (ht : Tracked n asked f)
    (hnamed : ∀ u ∈ us, u.NamesSsid)
    (hlinks : ∀ radioName, linkedIface f.tree radioName = linkedIface t radioName) :
    Tracked n (asksAll us t asked) g := by
  induction hsteps generalizing asked with
  | nil f => exact ht
  | @cons f d g u us hstep _ ih =>
      obtain ⟨hd, hkept⟩ := ht.step (hnamed u (List.mem_cons_self ..)) hstep
      have hasks : u.asks f.tree asked = u.asks t asked := by
        simp only [RadioSettingsUpdate.asks, hlinks]
      rw [hasks] at hd
      exact ih hd (fun u' hu' => hnamed u' (List.mem_cons_of_mem _ hu'))
        fun radioName => (hkept radioName).trans (hlinks radioName)

/-! ## The handlers -/

/-- **A radio that is staged has made a step**, whatever the world refused. -/
theorem Mid.stageRadio_stepped (hm : At φ f h) :
    Meets (S.stageRadioSettings u.radioName u.settings) h
      (fun _ h' => ∃ g, Stepped S f u g ∧ At φ g h') fun _ _ => True := by
  unfold WifiConfigService.stageRadioSettings
  refine Meets.bind (Q := fun t h' => t = h.tree ∧ h' = h) ⟨rfl, rfl⟩ ?_
  rintro t h' ⟨rfl, rfl⟩
  rw [hm.reads.checkRadio]
  cases hcheck : checkRadio f.tree u.radioName u.settings with
  | error e => trivial
  | ok r =>
      obtain ⟨st, sec⟩ := r
      obtain ⟨-, hlinked⟩ := checkRadio_ok hcheck
      have hiface := Config.find_of_mem_refs (linkedIface_mem hlinked)
      refine Meets.bind (Q := fun r h'' => r = (st, sec) ∧ h'' = h') ⟨rfl, rfl⟩ ?_
      rintro r h'' ⟨rfl, rfl⟩
      dsimp only
      refine Meets.bind (meets_caught.2 ((hm.put u.radioName "wifi-device" _).mono
        (fun _ _ h => h) fun _ _ _ => trivial)) ?_
      rintro _ h₁ ⟨-, hat | ⟨-, -, hat⟩⟩
      · have hplaced : Meets (S.stageIface u.radioName sec st) h₁ (fun _ h' => ∃ g,
            (f.device u.radioName st).place S u.radioName sec st = .staged g ∧ At φ g h')
            (Fails φ ((f.device u.radioName st).place S u.radioName sec st)) :=
          Mid.stageIface (f := f.device u.radioName st) hat (find_device_isSome hiface)
        exact hplaced.mono (fun _ _ ⟨g, hplace, hg⟩ => ⟨g, ⟨st, sec, hcheck, .inl hplace⟩, hg⟩)
          fun _ _ _ => trivial
      · have hplaced : Meets (S.stageIface u.radioName sec st) h₁ (fun _ h' => ∃ g,
            f.place S u.radioName sec st = .staged g ∧ At φ g h')
            (Fails φ (f.place S u.radioName sec st)) :=
          Mid.stageIface hat (Option.isSome_iff_ne_none.2 hiface)
        exact hplaced.mono (fun _ _ ⟨g, hplace, hg⟩ => ⟨g, ⟨st, sec, hcheck, .inr hplace⟩, hg⟩)
          fun _ _ _ => trivial

theorem Mid.stageAll_steps (hm : At φ f h) :
    Meets (us.forM S.staged) h (fun _ h' => ∃ g, Steps S f us g ∧ At φ g h') fun _ _ => True := by
  induction us generalizing f h with
  | nil => exact ⟨f, .nil f, hm⟩
  | cons u us ih =>
      have hradio : Meets (S.staged u) h (fun _ h' => ∃ d, Stepped S f u d ∧ At φ d h')
          fun _ _ => True :=
        meets_caught.2 (hm.stageRadio_stepped.mono (fun _ _ h => h) fun _ _ _ => trivial)
      refine Meets.bind hradio fun _ h₁ ⟨d, hstep, hd⟩ => ?_
      exact (ih hd).mono (fun _ _ ⟨g, hsteps, hg⟩ => ⟨g, .cons hstep hsteps, hg⟩) fun _ _ h => h

/-- What was committed stays in the files. -/
theorem applied_keeps (S : WifiConfigService) (h : Host) :
    Meets S.applied h (fun _ h' => h'.tree.disk = h.tree.disk) fun _ _ => True := by
  unfold WifiConfigService.applied WifiConfigService.applyCommitted reloadConfig
  refine meets_caught.2 ?_
  refine Meets.bind (Q := fun _ h' => h'.tree.disk = h.tree.disk) ?_ fun _ h₁ hdisk => ?_
  · refine meets_caught.2 (Meets.bind (Q := fun _ h' => h'.tree.disk = h.tree.disk)
      (meets_wrapped.2 ?_) fun _ h₁ hdisk => ?_)
    · unfold Meets loadConfig call
      dsimp only
      cases h.fate.refuses h.tick with
      | true => trivial
      | false =>
          cases h.tree.disk wirelessConfig with
          | none => trivial
          | some w => rfl
    · unfold Meets revert
      exact hdisk
  · cases S.reloadServices with
    | none => exact hdisk
    | some e => trivial

/-- **A change that ends well** has gone through every radio. -/
theorem changed_ok (hrun : S.changed us h = .ok () h') :
    ∃ w g, h.tree.disk wirelessConfig = some w ∧ Steps S ⟨w, h.tree.disk "network"⟩ us g ∧
      h'.tree.disk wirelessConfig = some g.wireless ∧ h'.tree.disk "network" = g.network := by
  have hmeets : Meets (S.changed us) h (fun _ h' => ∃ w g, h.tree.disk wirelessConfig = some w ∧
      Steps S ⟨w, h.tree.disk "network"⟩ us g ∧ h'.tree.disk wirelessConfig = some g.wireless ∧
        h'.tree.disk "network" = g.network) fun _ _ => True := by
    unfold WifiConfigService.changed
    refine Meets.bind ((refreshed_meets h).mono (fun _ _ h => h) fun _ _ _ => trivial)
      fun _ h₁ ⟨w, hw, hat⟩ => ?_
    refine Meets.bind hat.stageAll_steps fun _ h₂ ⟨g, hsteps, hg⟩ => ?_
    refine (applied_keeps S h₂).mono (fun _ h₃ hdisk => ?_) fun _ _ h => h
    rw [hdisk]
    exact ⟨w, g, hw, hsteps, hg.wireless.disk, hg.disk⟩
  exact (meets_of_ok hrun).1 hmeets

/-! ## What a join asks for -/

/-- Credentials that pass the checks name a mesh. -/
theorem validateCredentials_ok {label : String} {creds : Option MeshCredentials}
    {c : MeshCredentials} (hok : validateCredentials label creds = .ok c) :
    creds = some c ∧ c.meshId ≠ "" := by
  cases creds with
  | none => cases hok
  | some c' =>
      unfold validateCredentials at hok
      dsimp only at hok
      split at hok
      · cases hok
      · split at hok
        · cases hok
        · split at hok
          · cases hok
          · next hid =>
            split at hok
            · cases hok
            · obtain rfl := Except.ok.inj hok
              exact ⟨rfl, fun hempty => hid (.inl hempty)⟩

theorem validateCredentials_error {label issue : String} {creds : Option MeshCredentials}
    (herror : validateCredentials label creds = .error issue) : issue ≠ "" := by
  have htext : ∀ {text : String}, text ≠ "" → label ++ text ≠ "" := by
    intro text htext hempty
    exact htext (String.append_eq_empty_iff.1 hempty).2
  cases creds with
  | none =>
      obtain rfl := Except.error.inj herror
      exact htext (by decide)
  | some c =>
      unfold validateCredentials at herror
      dsimp only at herror
      split_ifs at herror
      all_goals cases herror
      all_goals exact htext (by decide)

/-- **Valid targets** have credentials that name a mesh. -/
theorem creds_of_validateTargets {db : Setup.RegDB} {targets : List JoinTarget}
    (hok : validateTargets db targets = .ok ()) :
    ∀ tgt ∈ targets, ∃ c, tgt.creds = some c ∧ c.meshId ≠ "" := by
  intro tgt htgt
  unfold validateTargets at hok
  split at hok
  · cases hok
  · next issues hissues =>
    split at hok
    · next hnone =>
      obtain ⟨issue, hissue, htarget⟩ := (mapM_ok hissues).1 tgt htgt
      have hempty : issue = "" := by
        by_contra hne
        have hin : issue ∈ issues.filter (· ≠ "") := List.mem_filter.2 ⟨hissue, by simpa using hne⟩
        rw [hnone] at hin
        cases hin
      unfold targetIssue at htarget
      split at htarget
      · next text herror =>
        obtain rfl := Except.ok.inj htarget
        exact absurd hempty (validateCredentials_error herror)
      · next c hvalid => exact ⟨c, validateCredentials_ok hvalid⟩
    · cases hok

/-- What is overlaid on a radio's settings is a mesh with a name. -/
theorem buildSettings_named {t : Tree} {tgt : JoinTarget} {c : MeshCredentials}
    (hcreds : tgt.creds = some c) (hid : c.meshId ≠ "") (hok : buildSettings t tgt = .ok u) :
    u.NamesSsid := by
  intro st hst
  obtain ⟨cur, bandwidth, rfl⟩ := buildSettings_ok hok
  obtain rfl := Option.some.inj hst
  rw [hcreds]
  exact hid

theorem prepare_named {J : MeshJoinService} {t : Tree} {req : ApplyMeshJoinRequest}
    {results : List MeshJoinRadioResult} (hok : J.prepare t req = .ok (results, us)) :
    ∀ u ∈ us, u.NamesSsid := by
  obtain ⟨targets, skipped, -, hvalid, hupdates⟩ := prepare_ok hok
  intro u hu
  obtain ⟨tgt, htgt, hbuild⟩ := (mapM_ok hupdates).2 u hu
  obtain ⟨c, hcreds, hid⟩ := creds_of_validateTargets hvalid tgt htgt
  exact buildSettings_named hcreds hid hbuild

/-! ## Sequences -/

/-- The call ends well, and leaves the host so. -/
def Request.Succeeds : Request → Host → Host → Prop
  | .update S u, h, h' => ∃ message, S.updateRadioSettings u h = .ok ⟨true, message⟩ h'
  | .join J req, h, h' => ∃ results, J.applyMeshJoin req h = .ok results h'

/-- The settings of the call name a network. A join takes its names from the
payload. -/
def Request.NamesSsid : Request → Prop
  | .update _ u => u.NamesSsid
  | .join _ _ => True

/-- The tree of a process that has just read the files. -/
def onDisk (t : Tree) : Tree := { t with mem := t.disk }

/-- The modes sections were asked to have, after a call. -/
def Request.asks (req : Request) (t : Tree) (asked : String → Option WifiMode) :
    String → Option WifiMode :=
  match req.updates t with
  | some (_, us) => asksAll us (onDisk t) asked
  | none => asked

/-- **A sequence of successful calls**, with what was last asked of every
section. -/
inductive Sequence (h : Host) : (String → Option WifiMode) → Host → Prop
  | start : Sequence h (fun _ => none) h
  | call {h₁ h₂ : Host} {asked : String → Option WifiMode} {req : Request}
      (hseq : Sequence h asked h₁) (hnamed : req.NamesSsid) (hok : req.Succeeds h₁ h₂) :
      Sequence h (req.asks h₁.tree asked) h₂

/-- A call that ends well is a change that ends well. -/
theorem Request.Succeeds.changed {req : Request} (hok : req.Succeeds h h') :
    ∃ S us, req.updates h.tree = some (S, us) ∧ S.changed us h = .ok () h' ∧
      (req.NamesSsid → ∀ u ∈ us, u.NamesSsid) := by
  cases req with
  | update S u =>
      obtain ⟨message, hrun⟩ := hok
      have hnamed : (Request.update S u).NamesSsid → ∀ u' ∈ [u], u'.NamesSsid := by
        intro hn u' hu'
        rw [List.mem_singleton.1 hu']
        exact hn
      refine ⟨S, [u], rfl, ?_, hnamed⟩
      rw [updateRadioSettings_eq] at hrun
      cases hchanged : S.changed [u] h with
      | ok a h₁ =>
          have hbind : (S.changed [u] >>= fun _ =>
              pure (⟨true, none⟩ : UpdateRadioSettingsResponse)) h = .ok ⟨true, none⟩ h₁ :=
            bind_of_ok hchanged
          rw [caught_of_ok hbind] at hrun
          obtain ⟨-, rfl⟩ := EStateM.Result.ok.inj hrun
          rfl
      | error e h₁ =>
          rw [caught_of_error (bind_of_error hchanged)] at hrun
          have hno : ∀ {text : String} {r : UpdateRadioSettingsResponse},
              r = unsuccessful text → r ≠ ⟨true, message⟩ := by
            rintro text r rfl heq
            cases (UpdateRadioSettingsResponse.mk.inj heq).1
          rcases e with text | ⟨r, c | msg⟩ | text
          · exact absurd (EStateM.Result.ok.inj hrun).1 (hno rfl)
          · cases hrun
          · exact absurd (EStateM.Result.ok.inj hrun).1 (hno rfl)
          · exact absurd (EStateM.Result.ok.inj hrun).1 (hno rfl)
  | join J req =>
      obtain ⟨results, hrun⟩ := hok
      unfold MeshJoinService.applyMeshJoin at hrun
      cases hradios : J.radios with
      | none => simp [hradios] at hrun
      | some S =>
          cases hprepare : J.prepare h.tree req with
          | error e => simp [hradios, hprepare] at hrun
          | ok p =>
              obtain ⟨results', us⟩ := p
              simp only [hradios, hprepare, applyRadioSettingsBatch_eq] at hrun
              refine ⟨S, us, by simp [Request.updates, hradios, hprepare], ?_, fun _ =>
                prepare_named hprepare⟩
              cases hchanged : S.changed us h with
              | ok a h₁ =>
                  rw [hchanged] at hrun
                  obtain ⟨-, rfl⟩ := EStateM.Result.ok.inj hrun
                  rfl
              | error e h₁ =>
                  rw [hchanged] at hrun
                  cases hrun

/-- **Over any sequence** the files do what was asked. -/
theorem Sequence.tracked {w : Uci.Config} (hw : h.tree.disk wirelessConfig = some w)
    (hs : Sound w) (hseq : Sequence h asked h') :
    ∃ w', h'.tree.disk wirelessConfig = some w' ∧
      Tracked (h.tree.disk "network") asked ⟨w', h'.tree.disk "network"⟩ := by
  induction hseq with
  | start => exact ⟨w, hw, hs, by simp, by simp, fun _ => .inl rfl⟩
  | @call h₁ h₂ asked req _ hnamed hok ih =>
      obtain ⟨w₁, hw₁, ht⟩ := ih
      obtain ⟨S, us, hus, hrun, hall⟩ := hok.changed
      obtain ⟨w₁', g, hw₁', hsteps, hwireless, hnetwork⟩ := changed_ok hrun
      obtain rfl : w₁ = w₁' := Option.some.inj (hw₁.symm.trans hw₁')
      have hreads : SameReads (Files.tree ⟨w₁, h₁.tree.disk "network"⟩) (onDisk h₁.tree) := by
        constructor
        · exact hw₁.symm
        · simp [Files.tree, onDisk, wirelessConfig]
      have hdone := ht.steps hsteps (hall hnamed) fun radioName => hreads.linkedIface radioName
      have hasks : req.asks h₁.tree asked = asksAll us (onDisk h₁.tree) asked := by
        simp only [Request.asks, hus]
      refine ⟨g.wireless, hwireless, ?_⟩
      rw [hasks, hnetwork]
      exact hdone

/-- **The wireless config stays sound.** After any sequence of successful
calls every section that was last asked to be a mesh is one, and is on a
hardif network with an interface in the network config: a `batadv_hardif`,
unless the config had an interface of that name before, which is left as it
was. -/
theorem sequence_sound {w : Uci.Config} (hw : h.tree.disk wirelessConfig = some w)
    (hs : Sound w) (hseq : Sequence h asked h') :
    ∃ w', h'.tree.disk wirelessConfig = some w' ∧ Sound w' ∧
      ∀ sec, asked sec = some .mesh → firstOf w' sec "mode" = "mesh" ∧
        IsBatmesh (firstOf w' sec "network") ∧
        interfaceProto (h'.tree.disk "network") (firstOf w' sec "network") =
          some ((interfaceProto (h.tree.disk "network") (firstOf w' sec "network")).getD
            ["batadv_hardif"]) := by
  obtain ⟨w', hw', ht⟩ := hseq.tracked hw hs
  refine ⟨w', hw', ht.sound, fun sec hmesh => ?_⟩
  obtain ⟨hbatmesh, hthere⟩ := ht.bound sec hmesh
  refine ⟨(ht.modes sec _ hmesh).2, hbatmesh, ?_⟩
  rcases ht.network (firstOf w' sec "network") with hsame | ⟨hnone, hnew⟩
  · obtain ⟨proto, hproto⟩ := Option.isSome_iff_exists.1 hthere
    rw [hproto] at hsame
    rw [hproto, ← hsame]
    rfl
  · rw [hnew, hnone]
    rfl

/-! ## An access point that becomes a mesh -/

/-- Two access points, the second on the bridge and behind it on a network
that has the name of a hardif. -/
def twoAccessPoints : Uci.Config where
  sections :=
    [sectionOf "wifi-device" "radio0" [("band", "5g"), ("channel", "36")],
      sectionOf "wifi-device" "radio1" [("band", "2g"), ("channel", "8")],
      sectionOf "wifi-iface" "default_radio0"
        [("device", "radio0"), ("network", "ahwlan"), ("mode", "ap"), ("ssid", "OpenMANET")],
      (sectionOf "wifi-iface" "default_radio1"
        [("device", "radio1"), ("mode", "ap"), ("ssid", "guest")]).edit
          fun o => o.insert "network" ["ahwlan", "batmesh0"]]
  plain := by decide +kernel
  ident := by decide +kernel
  distinct := by decide +kernel

/-- A network config that uses the name of a hardif for something else. -/
def staticBatmesh : Uci.Config where
  sections := [sectionOf "interface" "bat0" [("proto", "batadv")],
    sectionOf "interface" "batmesh0" [("proto", "static")]]
  plain := by decide +kernel
  ident := by decide +kernel
  distinct := by decide +kernel

/-- The node before the call. -/
def accessPointHost (network : Uci.Config) : Host :=
  ⟨Files.tree ⟨twoAccessPoints, some network⟩, 0, Fate.smooth⟩

/-- What the files hold once the call has ended well, as `k` reads them. -/
def afterUpdate {α : Type} (u : RadioSettingsUpdate) (h : Host) (k : Tree → α) : Option α :=
  match anyService.updateRadioSettings u h with
  | .ok r h' => if r.success then some (k h'.tree) else none
  | .error _ _ => none

theorem sequence_of_afterUpdate {α : Type} {k : Tree → α} {a : α} (hnamed : u.NamesSsid)
    (hafter : afterUpdate u h k = some a) :
    ∃ h', Sequence h ((Request.update anyService u).asks h.tree fun _ => none) h' ∧
      k h'.tree = a := by
  unfold afterUpdate at hafter
  cases hrun : anyService.updateRadioSettings u h with
  | error e h' =>
      rw [hrun] at hafter
      cases hafter
  | ok r h' =>
      obtain ⟨success, message⟩ := r
      rw [hrun] at hafter
      cases success with
      | false => cases hafter
      | true =>
          have hok : (Request.update anyService u).Succeeds h h' := ⟨message, hrun⟩
          exact ⟨h', .call .start hnamed hok, Option.some.inj hafter⟩

/-- No two interfaces name the same hardif network, whatever else they are
on. -/
def NameApart (c : Uci.Config) : Prop :=
  ∀ sec ∈ c.refs "wifi-iface", ∀ other ∈ c.refs "wifi-iface", sec ≠ other →
    ∀ name ∈ c.get sec "network", IsBatmesh name → name ∉ c.get other "network"

instance (c : Uci.Config) : Decidable (NameApart c) :=
  inferInstanceAs (Decidable (∀ sec ∈ c.refs "wifi-iface", ∀ other ∈ c.refs "wifi-iface",
    sec ≠ other → ∀ name ∈ c.get sec "network", IsBatmesh name →
      name ∉ c.get other "network"))

theorem meshRequest_named : meshRequest.NamesSsid := by
  rintro st ⟨⟩
  decide

/-- **The mesh is on a network of another kind, and another section's.** The
first name of the other section is not that of a hardif, so the hardif counts
as free; and what has its name in the network config is left as it was. -/
theorem mesh_on_static_network :
    ∃ h asked h' w w', Sequence h asked h' ∧ h.tree.disk wirelessConfig = some w ∧ Sound w ∧
      NameApart w ∧ h'.tree.disk wirelessConfig = some w' ∧ ¬ NameApart w' ∧
        asked "default_radio0" = some .mesh ∧
          firstOf w' "default_radio0" "network" = "batmesh0" ∧
            interfaceProto (h'.tree.disk "network") "batmesh0" = some ["static"] := by
  have hafter : afterUpdate meshRequest (accessPointHost staticBatmesh) (fun t =>
      ((t.disk wirelessConfig).map fun c =>
        (firstOf c "default_radio0" "network", decide (NameApart c)),
      interfaceProto (t.disk "network") "batmesh0")) =
        some (some ("batmesh0", false), some ["static"]) := by decide +kernel
  obtain ⟨h', hseq, hread⟩ := sequence_of_afterUpdate meshRequest_named hafter
  obtain ⟨hwireless, hnetwork⟩ := Prod.mk.inj hread
  obtain ⟨w', hw', hparts⟩ := Option.map_eq_some_iff.1 hwireless
  obtain ⟨hbound, hshared⟩ := Prod.mk.inj hparts
  exact ⟨_, _, h', twoAccessPoints, w', hseq, rfl, by decide +kernel, by decide +kernel, hw',
    of_decide_eq_false hshared, by decide +kernel, hbound, hnetwork⟩

/-- Where the name is free the mesh gets a hardif of its own. -/
theorem sequence_sound_meshRequest :
    ∃ (h' : Host) (w' : Uci.Config),
      Sequence (accessPointHost batmanNetwork) ((Request.update anyService meshRequest).asks
        (accessPointHost batmanNetwork).tree fun _ => none) h' ∧
      h'.tree.disk wirelessConfig = some w' ∧ Sound w' ∧
        firstOf w' "default_radio0" "network" = "batmesh0" ∧
          interfaceProto (h'.tree.disk "network") "batmesh0" = some ["batadv_hardif"] := by
  have hafter : afterUpdate meshRequest (accessPointHost batmanNetwork) (fun t =>
      (t.disk wirelessConfig).map fun c => firstOf c "default_radio0" "network") =
        some (some "batmesh0") := by decide +kernel
  obtain ⟨h', hseq, hread⟩ := sequence_of_afterUpdate meshRequest_named hafter
  have hbefore : (accessPointHost batmanNetwork).tree.disk wirelessConfig = some twoAccessPoints :=
    rfl
  obtain ⟨w', hw', hsound, hmesh⟩ := sequence_sound hbefore (by decide +kernel) hseq
  obtain ⟨-, -, hproto⟩ := hmesh "default_radio0" (by decide +kernel)
  have hbound : firstOf w' "default_radio0" "network" = "batmesh0" := by
    rw [hw'] at hread
    exact Option.some.inj hread
  have hfree : interfaceProto ((accessPointHost batmanNetwork).tree.disk "network") "batmesh0" =
      none := by decide +kernel
  refine ⟨h', w', hseq, hw', hsound, hbound, ?_⟩
  rw [hbound, hfree] at hproto
  exact hproto

end Wifi

end OpenManet
