import OpenManet.Wifi.Refinement
/-!
# Refused changes and the files

A change of radios that is refused is to leave the files as they were. It
does so unless the refusal comes late: of a radio after others in the batch
were written, or of a mesh interface for which no hardif network is free,
which is found out when the device options are in the file.
-/

namespace OpenManet

namespace Wifi

open Uci Fallible Network
open Setup (firstValue)

variable {φ : Fate} {f g : Files} {h : Host} {S : WifiConfigService} {u : RadioSettingsUpdate}
  {us : List RadioSettingsUpdate}

/-! ## When a radio is refused -/

/-- The checks made before anything is written refuse the radio. -/
def Files.RefusedAtOnce (f : Files) (u : RadioSettingsUpdate) : Prop :=
  ∃ e, checkRadio f.tree u.radioName u.settings = .error e

/-- The interface is on no hardif network, and both are those of others. -/
def Files.SlotsTaken (f : Files) (ifaceName : String) : Prop :=
  Text.hasPrefix (firstValue f.tree wirelessConfig ifaceName "network") "batmesh" = false ∧
    ∀ name ∈ [batmanPrimaryIface, batmanSecondaryIface],
      ∃ sec ∈ f.wireless.refs "wifi-iface", sec ≠ ifaceName ∧
        (f.wireless.get sec "network").head? = some name

/-- The radio passes the checks and is to become a mesh, and no hardif
network is left for it. -/
def Files.RefusedSlot (f : Files) (u : RadioSettingsUpdate) (st : RadioSettings) : Prop :=
  ∃ ifaceName, checkRadio f.tree u.radioName u.settings = .ok (st, ifaceName) ∧
    st.mode = .mesh ∧ f.SlotsTaken ifaceName

theorem Files.tree_get (f : Files) (r o : String) :
    f.tree.get wirelessConfig r o = f.wireless.get r o := by
  simp [Uci.Tree.get, Files.tree]

theorem Files.listing_wireless (f : Files) (type : String) :
    listing f.tree wirelessConfig type = .ok (f.wireless.refs type) := by
  simp [listing, Files.tree]

theorem meshNetwork_error {ifaceName : String} :
    (∃ e, meshNetwork f.tree ifaceName = .error e) ↔ f.SlotsTaken ifaceName := by
  unfold meshNetwork Files.SlotsTaken findUnusedBatmesh
  simp only [f.listing_wireless, f.tree_get]
  cases hprefix : Text.hasPrefix (firstValue f.tree wirelessConfig ifaceName "network") "batmesh" with
  | true => simp
  | false =>
      simp only [Bool.false_eq_true, if_false, true_and]
      cases hfind : [batmanPrimaryIface, batmanSecondaryIface].find? fun name =>
          !(((f.wireless.refs "wifi-iface").filter (· ≠ ifaceName)).filterMap fun sec =>
            (f.wireless.get sec "network").head?).contains name with
      | some name =>
          have hfree := List.find?_some hfind
          have hmem := List.mem_of_find?_eq_some hfind
          constructor
          · rintro ⟨e, he⟩
            cases he
          · intro htaken
            obtain ⟨sec, hsec, hne, hnet⟩ := htaken name hmem
            simp only [Bool.not_eq_true', List.contains_eq_mem, decide_eq_false_iff_not,
              List.mem_filterMap, List.mem_filter, not_exists, not_and] at hfree
            exact absurd hnet (hfree sec ⟨hsec, by simpa using hne⟩)
      | none =>
          have hall := List.find?_eq_none.1 hfind
          constructor
          · intro _ name hmem
            have htaken := hall name hmem
            simp only [Bool.not_eq_true', Bool.not_eq_false, List.contains_eq_mem,
              decide_eq_true_eq, List.mem_filterMap, List.mem_filter] at htaken
            obtain ⟨sec, ⟨hsec, hne⟩, hnet⟩ := htaken
            exact ⟨sec, hsec, by simpa using hne, hnet⟩
          · intro _
            exact ⟨_, rfl⟩

/-! ## The device options do not move the slots -/

theorem deviceWrites_network {st : RadioSettings} : ∀ w ∈ st.deviceWrites, w.1 ≠ "network" := by
  intro w hw
  have hmem := (List.mem_filter.1 hw).1
  simp only [deviceOptionFields, List.mem_cons, List.not_mem_nil, or_false] at hmem
  rintro hnet
  rcases hmem with rfl | rfl | rfl | rfl | rfl | rfl | rfl | rfl | rfl | rfl | rfl | rfl | rfl
    | rfl | rfl | rfl | rfl <;> simp at hnet

theorem meshNetwork_device (f : Files) (radioName ifaceName : String) (st : RadioSettings) :
    meshNetwork (f.device radioName st).tree ifaceName = meshNetwork f.tree ifaceName := by
  have hget : ∀ sec, (f.device radioName st).wireless.get sec "network" =
      f.wireless.get sec "network" := by
    intro sec
    show ((f.wireless.ensure radioName "wifi-device").writes radioName _).get sec _ = _
    rw [Config.get_writes_of_ne deviceWrites_network, Config.get_ensure]
  have hrefs : (f.device radioName st).wireless.refs "wifi-iface" =
      f.wireless.refs "wifi-iface" := by
    show ((f.wireless.ensure radioName "wifi-device").writes radioName _).refs _ = _
    rw [Config.refs_writes, Config.refs_ensure_of_ne (by decide)]
  simp only [meshNetwork, firstValue, findUnusedBatmesh, Files.listing_wireless, Files.tree_get,
    hget, hrefs]

/-- **A radio is refused at once, or at its slot.** In the second case the
device options are in the file. -/
theorem stage_refused :
    f.stage S u = .refused g ↔
      (f.RefusedAtOnce u ∧ g = f) ∨
        ∃ st, f.RefusedSlot u st ∧ f.Writable u.radioName st ∧ g = f.device u.radioName st := by
  unfold Files.stage Files.RefusedAtOnce Files.RefusedSlot
  cases hcheck : checkRadio f.tree u.radioName u.settings with
  | error e =>
      constructor
      · intro heq
        exact .inl ⟨⟨e, rfl⟩, (Outcome.refused.inj heq).symm⟩
      · rintro (⟨-, rfl⟩ | ⟨st, ⟨ifaceName, hok, -⟩, -⟩)
        · rfl
        · cases hok
  | ok r =>
      obtain ⟨st, ifaceName⟩ := r
      dsimp only
      constructor
      · intro heq
        split at heq
        · next hwritable =>
          obtain rfl := refused_of_place heq
          refine .inr ⟨st, ⟨ifaceName, rfl, ?_⟩, hwritable, rfl⟩
          unfold Files.place at heq
          dsimp only at heq
          split at heq
          · next hmode =>
            have hmesh : st.mode = .mesh := by
              cases hm : st.mode <;> simp [RadioSettings.baseIface, protoToWifiMode, hm] at hmode
              rfl
            refine ⟨hmesh, meshNetwork_error.1 ?_⟩
            rw [meshNetwork_device] at heq
            cases hnet : meshNetwork f.tree ifaceName with
            | error e => exact ⟨e, rfl⟩
            | ok p =>
                simp only [hnet] at heq
                split at heq <;> cases heq
          · split at heq <;> cases heq
        · cases heq
      · rintro (⟨⟨e, he⟩, -⟩ | ⟨st', ⟨ifaceName', hok, hmesh, htaken⟩, hwritable, rfl⟩)
        · cases he
        · obtain ⟨rfl, rfl⟩ := Prod.mk.inj (Except.ok.inj hok)
          obtain ⟨e, he⟩ := meshNetwork_error.2 htaken
          have hmode : st.baseIface.mode = "mesh" := by
            simp [RadioSettings.baseIface, hmesh, protoToWifiMode]
          rw [if_pos hwritable]
          unfold Files.place
          dsimp only
          rw [if_pos hmode, meshNetwork_device, he]

/-! ## When a refusal comes late -/

/-- A radio is refused after something was written: by its checks, after the
radios before it, or at its slot, after its own device options. -/
def Spoiled (S : WifiConfigService) (f : Files) (us : List RadioSettingsUpdate) : Prop :=
  ∃ done u rest g, us = done ++ u :: rest ∧ f.stageAll S done = .staged g ∧
    (g.RefusedAtOnce u ∧ ¬ f.Alike g ∨
      ∃ st, g.RefusedSlot u st ∧ g.Writable u.radioName st ∧ ¬ f.Alike (g.device u.radioName st))

/-- The radios before the refused one are staged. -/
theorem stageAll_refused :
    f.stageAll S us = .refused g ↔
      ∃ done u rest g', us = done ++ u :: rest ∧ f.stageAll S done = .staged g' ∧
        g'.stage S u = .refused g := by
  induction us generalizing f with
  | nil =>
      constructor
      · intro heq
        cases heq
      · rintro ⟨done, u, rest, -, hus, -⟩
        cases done <;> cases hus
  | cons u us ih =>
      rw [Files.stageAll]
      constructor
      · intro heq
        cases hstage : f.stage S u with
        | staged f' =>
            simp only [hstage] at heq
            obtain ⟨done, u', rest, g', rfl, hdone, hu'⟩ := ih.1 heq
            refine ⟨u :: done, u', rest, g', rfl, ?_, hu'⟩
            rw [Files.stageAll, hstage]
            exact hdone
        | refused f' =>
            simp only [hstage] at heq
            exact ⟨[], u, us, f, rfl, rfl, by rw [hstage, heq]⟩
        | unwritable => simp [hstage] at heq
      · rintro ⟨done, u', rest, g', hus, hdone, hu'⟩
        cases done with
        | nil =>
            obtain ⟨rfl, rfl⟩ := List.cons.inj hus
            obtain rfl := Outcome.staged.inj hdone
            simp only [hu']
        | cons a done =>
            obtain ⟨rfl, rfl⟩ := List.cons.inj hus
            rw [Files.stageAll] at hdone
            cases hstage : f.stage S u with
            | staged f' =>
                simp only [hstage] at hdone ⊢
                exact ih.2 ⟨done, u', rest, g', rfl, hdone, hu'⟩
            | refused f' => simp [hstage] at hdone
            | unwritable => simp [hstage] at hdone

/-- **Late is when the files are not as they were.** -/
theorem spoiled_iff : Spoiled S f us ↔ ∃ g, f.stageAll S us = .refused g ∧ ¬ f.Alike g := by
  constructor
  · rintro ⟨done, u, rest, g, hus, hdone, ⟨hnow, hnew⟩ | ⟨st, hslot, hwritable, hnew⟩⟩
    · exact ⟨g, stageAll_refused.2 ⟨done, u, rest, g, hus, hdone,
        stage_refused.2 (.inl ⟨hnow, rfl⟩)⟩, hnew⟩
    · exact ⟨g.device u.radioName st, stageAll_refused.2 ⟨done, u, rest, g, hus, hdone,
        stage_refused.2 (.inr ⟨st, hslot, hwritable, rfl⟩)⟩, hnew⟩
  · rintro ⟨g, hrefused, hnew⟩
    obtain ⟨done, u, rest, g', hus, hdone, hu⟩ := stageAll_refused.1 hrefused
    refine ⟨done, u, rest, g', hus, hdone, ?_⟩
    rcases stage_refused.1 hu with ⟨hnow, rfl⟩ | ⟨st, hslot, hwritable, rfl⟩
    · exact .inl ⟨hnow, hnew⟩
    · exact .inr ⟨st, hslot, hwritable, hnew⟩

/-- No device option is written twice. -/
theorem deviceWrites_keys (st : RadioSettings) :
    st.deviceWrites.Pairwise fun w w' => w.1 ≠ w'.1 := by
  have hkeys : (deviceOptionFields st.devCfg).map Prod.fst =
      (deviceOptionFields {}).map Prod.fst := rfl
  have hall : (deviceOptionFields st.devCfg).Pairwise fun w w' => w.1 ≠ w'.1 := by
    rw [← List.pairwise_map (R := (· ≠ ·)), hkeys]
    decide
  exact List.Pairwise.filter _ hall

/-- **One radio is refused late** when no hardif network is left for it and a
device option of the request is not what the radio has. -/
theorem spoiled_one_iff {s : Section} (hne : u.radioName ≠ "")
    (hfind : f.wireless.find u.radioName = some s) :
    Spoiled S f [u] ↔ ∃ st, f.RefusedSlot u st ∧
      ∃ w ∈ st.deviceWrites, f.wireless.get u.radioName w.1 ≠ [w.2] := by
  have hensure : f.wireless.ensure u.radioName "wifi-device" = f.wireless :=
    Config.ensure_of_find (by rw [hfind]; rfl)
  have hdevice : ∀ st, f.Alike (f.device u.radioName st) ↔
      ∀ w ∈ st.deviceWrites, f.wireless.get u.radioName w.1 = [w.2] := by
    intro st
    rw [← Config.alike_writes_iff hne hfind (deviceWrites_keys st)]
    show f.wireless.Alike ((f.wireless.ensure _ _).writes _ _) ∧ Option.Rel _ _ _ ↔ _
    rw [hensure]
    exact and_iff_left (optionRel_rfl _)
  have hwritable : ∀ st, f.Writable u.radioName st := fun st =>
    .inl (by rw [hensure, hfind]; rfl)
  constructor
  · rintro ⟨done, u', rest, g, hus, hdone, hlate⟩
    have hfirst : done = [] ∧ u' = u := by
      cases done with
      | nil => exact ⟨rfl, (List.cons.inj hus).1.symm⟩
      | cons a done =>
          have hlen := congrArg List.length hus
          simp at hlen
    obtain ⟨rfl, rfl⟩ := hfirst
    obtain rfl := Outcome.staged.inj hdone
    rcases hlate with ⟨-, hno⟩ | ⟨st, hslot, -, hnew⟩
    · exact absurd .rfl hno
    · rw [hdevice] at hnew
      exact ⟨st, hslot, by simpa using hnew⟩
  · rintro ⟨st, hslot, w, hw, hnew⟩
    exact ⟨[], u, [], f, rfl, rfl, .inr ⟨st, hslot, hwritable st, fun hsame =>
      hnew ((hdevice st).1 hsame w hw)⟩⟩

/-! ## Runs -/

/-- How a change of radios fails once the configs are read. -/
def FailsAll (φ : Fate) (o : Outcome) : ApplyError → Host → Prop
  | .stage _ e, h => Fails φ o e h
  | _, _ => False

/-- **A batch is staged as on the files.** -/
theorem Mid.stageAll (hm : At φ f h) (hsure : ∀ u ∈ us, Sure φ u) :
    Meets (us.forM S.staged) h
      (fun _ h' => ∃ f', f.stageAll S us = .staged f' ∧ At φ f' h')
      (FailsAll φ (f.stageAll S us)) := by
  induction us generalizing f h with
  | nil => exact ⟨f, rfl, hm⟩
  | cons u us ih =>
      have hu := hsure u (List.mem_cons_self ..)
      have hradio : Meets (S.staged u) h (fun _ h' => ∃ f', f.stage S u = .staged f' ∧ At φ f' h')
          (FailsAll φ (f.stage S u)) := by
        refine meets_caught.2 (hm.stageRadio.mono (fun _ _ hok => ?_) fun e h' hfails => ?_)
        · exact hok.resolve_right fun hno => hno hu
        · exact hfails.resolve_right fun hno => hno.1 hu
      refine Meets.bind (hradio.mono (fun _ _ h => h) fun e h' hfails => ?_)
        fun _ h' ⟨f', hstage, hm'⟩ => ?_
      · rw [Files.stageAll]
        cases hstage : f.stage S u with
        | staged f' =>
            rw [hstage] at hfails
            cases e with
            | stage r e =>
                cases e with
                | connect c =>
                    obtain ⟨_, hno, -⟩ := hfails
                    cases hno
                | write msg => exact hfails.elim .inl fun hno => by cases hno
            | refresh _ => exact hfails.elim
            | reload _ => exact hfails.elim
        | refused f' =>
            rw [hstage] at hfails
            exact hfails
        | unwritable =>
            rw [hstage] at hfails
            exact hfails
      · rw [Files.stageAll, hstage]
        exact ih hm' fun u' hu' => hsure u' (List.mem_cons_of_mem _ hu')

/-- A reload reads both configs from their files. -/
theorem refreshed_meets (h : Host) :
    Meets refreshed h
      (fun _ h' => ∃ w, h.tree.disk wirelessConfig = some w ∧
        At h.fate ⟨w, h.tree.disk "network"⟩ h')
      fun e _ => (∃ text, e = .refresh text) ∧
        (¬ h.fate.Smooth ∨ h.tree.disk wirelessConfig = none) := by
  unfold refreshed reloadConfig
  refine meets_caught.2 ?_
  refine Meets.bind (Q := fun _ h' => ∃ w, h.tree.disk wirelessConfig = some w ∧
    h'.tree = h.tree.load wirelessConfig w ∧ h'.fate = h.fate)
    (meets_wrapped.2 ?_) fun _ h₁ ⟨w, hw, htree, hfate⟩ => ?_
  · unfold Meets loadConfig call
    dsimp only
    cases hrefuse : h.fate.refuses h.tick with
    | true =>
        simp only [if_true]
        refine ⟨⟨_, rfl⟩, .inl fun hsmooth => ?_⟩
        rw [hsmooth] at hrefuse
        cases hrefuse
    | false =>
        simp only [Bool.false_eq_true, if_false]
        cases hdisk : h.tree.disk wirelessConfig with
        | none => exact ⟨⟨_, rfl⟩, .inr rfl⟩
        | some w => exact ⟨w, rfl, rfl, rfl⟩
  · refine ⟨w, hw, ⟨⟨?_, ?_, .inl rfl⟩, ?_, ?_, .inl rfl, hfate⟩⟩
    · simp [htree, Tree.load, wirelessConfig]
    · simpa [htree, Tree.load] using hw
    · simp [htree, Tree.load]
    · simp [htree, Tree.load]

/-! ## The two handlers -/

/-- A call of one of the two handlers. -/
inductive Request where
  | update (S : WifiConfigService) (u : RadioSettingsUpdate)
  | join (J : MeshJoinService) (req : ApplyMeshJoinRequest)

/-- No failing write, commit or reload is behind the error. -/
def JoinError.IsRejection (e : JoinError) : Prop :=
  match e.cause with
  | none => True
  | some (.stage _ (.connect _)) => True
  | some _ => False

/-- The call is refused, and leaves the host so. -/
def Request.RejectedIn : Request → Host → Host → Prop
  | .update S u, h, h' => ∃ e, S.updateRadioSettings u h = .error e h'
  | .join J req, h, h' => ∃ e, J.applyMeshJoin req h = .error e h' ∧ e.IsRejection

/-- The settings a call is about to stage, none where it fails before. -/
def Request.updates (t : Tree) : Request → Option (WifiConfigService × List RadioSettingsUpdate)
  | .update S u => some (S, [u])
  | .join J req =>
      match J.radios, J.prepare t req with
      | some S, .ok (_, us) => some (S, us)
      | _, _ => none

/-- The two files say what they said. -/
def Unwritten (t t' : Tree) : Prop :=
  Option.Rel Config.Alike (t.disk wirelessConfig) (t'.disk wirelessConfig) ∧
    Option.Rel Config.Alike (t.disk "network") (t'.disk "network")

theorem unwritten_rfl (t : Tree) : Unwritten t t := ⟨optionRel_rfl _, optionRel_rfl _⟩

/-- The files a tree has, and those it is left with. -/
theorem unwritten_iff {t : Tree} {w : Uci.Config} (hw : t.disk wirelessConfig = some w)
    (hat : At φ g h) : Unwritten t h.tree ↔ Files.Alike ⟨w, t.disk "network"⟩ g := by
  unfold Unwritten Files.Alike
  rw [hw, hat.wireless.disk, hat.disk]
  constructor
  · rintro ⟨hwireless, hnetwork⟩
    cases hwireless with
    | some hwireless => exact ⟨hwireless, hnetwork⟩
  · rintro ⟨hwireless, hnetwork⟩
    exact ⟨.some hwireless, hnetwork⟩

/-- What both handlers run. -/
def WifiConfigService.changed (S : WifiConfigService) (us : List RadioSettingsUpdate) :
    EStateM ApplyError Host Unit := do
  refreshed
  us.forM S.staged
  S.applied

theorem applyRadioSettingsBatch_eq (S : WifiConfigService) (us : List RadioSettingsUpdate) :
    S.applyRadioSettingsBatch us = S.changed us := rfl

theorem forM_staged_one (S : WifiConfigService) (u : RadioSettingsUpdate) :
    [u].forM S.staged = S.staged u >>= fun _ => pure () := rfl

theorem updateRadioSettings_eq (S : WifiConfigService) (u : RadioSettingsUpdate) :
    S.updateRadioSettings u =
      caught updateAnswer (S.changed [u] >>= fun _ => pure ⟨true, none⟩) := by
  unfold WifiConfigService.updateRadioSettings WifiConfigService.changed
  simp only [forM_staged_one, bind_assoc, pure_bind]

/-- A reload that fails is not a refusal. -/
theorem applied_meets (S : WifiConfigService) (h : Host) :
    Meets S.applied h (fun _ _ => True) fun e _ => ∃ text, e = .reload text := by
  unfold WifiConfigService.applied
  refine meets_caught.2 ?_
  unfold Meets
  cases S.applyCommitted h with
  | ok _ _ => trivial
  | error e _ => exact ⟨e, rfl⟩

/-- A refusal leaves the files staging on them leaves, or as they were. -/
def Lands (φ : Fate) (f : Files) (o : Outcome) (e : ApplyError) (h' : Host) : Prop :=
  ∀ r c, e = .stage r (.connect c) → (∃ g, o = .refused g ∧ At φ g h') ∨ At φ f h'

theorem Mid.stageAll_lands (hm : At φ f h) (hus : (∀ u ∈ us, Sure φ u) ∨ ∃ u, us = [u]) :
    Meets (us.forM S.staged) h (fun _ _ => True) (Lands φ f (f.stageAll S us)) := by
  rcases hus with hsure | ⟨u, rfl⟩
  · refine (hm.stageAll hsure).mono (fun _ _ _ => trivial) fun e h' hfails => ?_
    rintro r c rfl
    exact .inl hfails
  · rw [forM_staged_one, Files.stageAll]
    refine Meets.bind (Q := fun _ _ => True) ?_ fun _ _ _ => trivial
    refine meets_caught.2 (hm.stageRadio.mono (fun _ _ _ => trivial) fun e h' hfails => ?_)
    rintro r c heq
    obtain ⟨-, rfl⟩ := ApplyError.stage.inj heq
    rcases hfails with ⟨g, hstage, hat⟩ | ⟨-, hkept⟩
    · exact .inl ⟨g, by rw [hstage], hat⟩
    · exact .inr (hkept c rfl)

/-- **A refused change** leaves the files staging on them leaves, or as they
were. -/
theorem changed_refused {r : String} {c : ConnectError} {h' : Host}
    (hus : (∀ u ∈ us, Sure h.fate u) ∨ ∃ u, us = [u])
    (hrun : S.changed us h = .error (.stage r (.connect c)) h') :
    ∃ w, h.tree.disk wirelessConfig = some w ∧
      Lands h.fate ⟨w, h.tree.disk "network"⟩ (Files.stageAll S ⟨w, h.tree.disk "network"⟩ us)
        (.stage r (.connect c)) h' := by
  have hmeets : Meets (S.changed us) h (fun _ _ => True) fun e h' =>
      (∀ r c, e ≠ .stage r (.connect c)) ∨ ∃ w, h.tree.disk wirelessConfig = some w ∧
        Lands h.fate ⟨w, h.tree.disk "network"⟩
          (Files.stageAll S ⟨w, h.tree.disk "network"⟩ us) e h' := by
    unfold WifiConfigService.changed
    refine Meets.bind ((refreshed_meets h).mono (fun _ _ h => h) ?_) fun _ h₁ ⟨w, hw, hat⟩ => ?_
    · rintro e h₁ ⟨⟨text, rfl⟩, -⟩
      exact .inl fun _ _ hno => by cases hno
    · refine Meets.bind ((hat.stageAll_lands hus).mono (fun _ _ h => h)
        fun e h₂ hlands => .inr ⟨w, hw, hlands⟩) fun _ h₂ _ => ?_
      refine (applied_meets S h₂).mono (fun _ _ h => h) ?_
      rintro e h₃ ⟨text, rfl⟩
      exact .inl fun _ _ hno => by cases hno
  exact ((meets_of_error hrun).1 hmeets).resolve_left fun hno => hno r c rfl

/-- **A change refused on the files is refused** in a smooth world, and leaves
those files. -/
theorem changed_of_refused {w : Uci.Config} (hsmooth : h.fate.Smooth)
    (hw : h.tree.disk wirelessConfig = some w)
    (hrefused : Files.stageAll S ⟨w, h.tree.disk "network"⟩ us = .refused g) :
    ∃ r c h', S.changed us h = .error (.stage r (.connect c)) h' ∧ At h.fate g h' := by
  have hmeets : Meets (S.changed us) h (fun _ _ => False) fun e h' =>
      ∃ r c, e = .stage r (.connect c) ∧ At h.fate g h' := by
    unfold WifiConfigService.changed
    refine Meets.bind ((refreshed_meets h).mono (fun _ _ h => h) ?_) fun _ h₁ ⟨w', hw', hat⟩ => ?_
    · rintro e h₁ ⟨-, hno | hnone⟩
      · exact absurd hsmooth hno
      · rw [hnone] at hw
        cases hw
    · obtain rfl : w = w' := Option.some.inj (hw.symm.trans hw')
      have hall := Mid.stageAll (S := S) hat fun u (_ : u ∈ us) => .inl hsmooth
      rw [hrefused] at hall
      refine Meets.bind_error (hall.mono ?_ ?_)
      · rintro _ h₂ ⟨f', hno, -⟩
        cases hno
      · rintro (_ | ⟨r, c | msg⟩ | _) h₂ hfails
        · exact hfails.elim
        · obtain ⟨g', heq, hat'⟩ := hfails
          obtain rfl := Outcome.refused.inj heq
          exact ⟨r, c, rfl, hat'⟩
        · rcases hfails with hno | hno
          · exact absurd hsmooth hno
          · cases hno
        · exact hfails.elim
  cases hrun : S.changed us h with
  | ok a h' => exact ((meets_of_ok hrun).1 hmeets).elim
  | error e h' =>
      obtain ⟨r, c, rfl, hat⟩ := (meets_of_error hrun).1 hmeets
      exact ⟨r, c, h', rfl, hat⟩

/-! ## A join always writes to its radios -/

theorem deviceWrites_ne_nil {st : RadioSettings} (hchannel : st.channel ≠ "") :
    st.deviceWrites ≠ [] := by
  have hmem : ("channel", st.channel) ∈ st.deviceWrites := by
    refine List.mem_filter.2 ⟨?_, by simpa using hchannel⟩
    simp [deviceOptionFields, RadioSettings.devCfg]
  intro hnil
  rw [hnil] at hmem
  cases hmem

/-- What is built for a target lays its credentials over the settings there. -/
theorem buildSettings_ok {t : Tree} {tgt : JoinTarget} (hok : buildSettings t tgt = .ok u) :
    ∃ (cur : RadioSettings) (bandwidth : WifiHTMode), u = ⟨tgt.radio,
      some (cur.overlay (tgt.creds.getD ⟨"", "", .unspecified, 0, 0, ""⟩) bandwidth)⟩ := by
  unfold buildSettings at hok
  cases hcur : currentRadioSettings t tgt.radio with
  | error e => rw [hcur] at hok; cases hok
  | ok cur =>
      rw [hcur] at hok
      simp only [bind, Except.bind] at hok
      split at hok
      · cases hok
      · exact ⟨cur, _, (Except.ok.inj hok).symm⟩

/-- The settings of a target name a channel. -/
theorem buildSettings_sure {t : Tree} {tgt : JoinTarget} (hok : buildSettings t tgt = .ok u) :
    Sure φ u := by
  refine .inr fun st hst => deviceWrites_ne_nil ?_
  obtain ⟨cur, bandwidth, rfl⟩ := buildSettings_ok hok
  obtain rfl := Option.some.inj hst
  intro hempty
  have hrepr : Nat.repr (tgt.creds.getD ⟨"", "", .unspecified, 0, 0, ""⟩).channel = "" := hempty
  have hdigits := congrArg String.toList hrepr
  simp [Nat.repr] at hdigits

/-- What a join prepares: the settings of valid targets. -/
theorem prepare_ok {J : MeshJoinService} {t : Tree} {req : ApplyMeshJoinRequest}
    {results : List MeshJoinRadioResult} (hok : J.prepare t req = .ok (results, us)) :
    ∃ targets skipped, resolveTargets t req = .ok (targets, skipped) ∧
      validateTargets J.regDB targets = .ok () ∧ targets.mapM (buildSettings t) = .ok us := by
  unfold MeshJoinService.prepare at hok
  cases htargets : resolveTargets t req with
  | error e => rw [htargets] at hok; cases hok
  | ok r =>
      obtain ⟨targets, skipped⟩ := r
      cases hvalid : validateTargets J.regDB targets with
      | error e =>
          rw [htargets] at hok
          simp only [bind, Except.bind, hvalid] at hok
          cases hok
      | ok _ =>
          cases hupdates : targets.mapM (buildSettings t) with
          | error e =>
              rw [htargets] at hok
              simp only [bind, Except.bind, hvalid, hupdates] at hok
              cases hok
          | ok updates =>
              rw [htargets] at hok
              simp only [bind, Except.bind, hvalid, hupdates] at hok
              obtain ⟨-, rfl⟩ := Prod.mk.inj (Except.ok.inj hok)
              exact ⟨targets, skipped, rfl, hvalid, hupdates⟩

theorem prepare_sure {J : MeshJoinService} {t : Tree} {req : ApplyMeshJoinRequest}
    {results : List MeshJoinRadioResult} (hok : J.prepare t req = .ok (results, us)) :
    ∀ u ∈ us, Sure φ u := by
  obtain ⟨targets, skipped, -, -, hupdates⟩ := prepare_ok hok
  intro u hu
  obtain ⟨tgt, -, hbuild⟩ := (mapM_ok hupdates).2 u hu
  exact buildSettings_sure hbuild

/-! ## The result -/

/-- A refused call of either handler is a refused change, or left the host as
it was. -/
theorem Request.RejectedIn.cases {req : Request} {h' : Host} (hreq : req.RejectedIn h h') :
    h' = h ∨ ∃ S us r c, req.updates h.tree = some (S, us) ∧
      ((∀ u ∈ us, Sure h.fate u) ∨ ∃ u, us = [u]) ∧
        S.changed us h = .error (.stage r (.connect c)) h' := by
  cases req with
  | update S u =>
      obtain ⟨e, hrun⟩ := hreq
      rw [updateRadioSettings_eq] at hrun
      cases hchanged : S.changed [u] h with
      | ok _ h₁ =>
          have hok : (S.changed [u] >>= fun _ => pure (⟨true, none⟩ : UpdateRadioSettingsResponse))
              h = .ok ⟨true, none⟩ h₁ := bind_of_ok hchanged
          rw [caught_of_ok hok] at hrun
          cases hrun
      | error e₁ h₁ =>
          rw [caught_of_error (bind_of_error hchanged)] at hrun
          rcases e₁ with text | ⟨r, c | msg⟩ | text
          · cases hrun
          · obtain ⟨-, rfl⟩ := EStateM.Result.error.inj hrun
            exact .inr ⟨S, [u], r, c, rfl, .inr ⟨u, rfl⟩, hchanged⟩
          · cases hrun
          · cases hrun
  | join J req =>
      obtain ⟨e, hrun, hrejection⟩ := hreq
      unfold MeshJoinService.applyMeshJoin at hrun
      cases hradios : J.radios with
      | none =>
          simp only [hradios] at hrun
          exact .inl (EStateM.Result.error.inj hrun).2.symm
      | some S =>
          cases hprepare : J.prepare h.tree req with
          | error e =>
              simp only [hradios, hprepare] at hrun
              exact .inl (EStateM.Result.error.inj hrun).2.symm
          | ok p =>
              obtain ⟨results, us⟩ := p
              simp only [hradios, hprepare, applyRadioSettingsBatch_eq] at hrun
              cases hchanged : S.changed us h with
              | ok _ h₁ => simp [hchanged] at hrun
              | error e₁ h₁ =>
                  simp only [hchanged] at hrun
                  obtain ⟨rfl, rfl⟩ := EStateM.Result.error.inj hrun
                  rcases e₁ with text | ⟨r, c | msg⟩ | text
                  · exact hrejection.elim
                  · exact .inr ⟨S, us, r, c, by simp [Request.updates, hradios, hprepare],
                      .inl (prepare_sure hprepare), hchanged⟩
                  · exact hrejection.elim
                  · exact hrejection.elim

/-- A refused change is a refused call. -/
theorem rejectedIn_of_changed {req : Request} {r : String} {c : ConnectError} {h' : Host}
    (hus : req.updates h.tree = some (S, us))
    (hrun : S.changed us h = .error (.stage r (.connect c)) h') : req.RejectedIn h h' := by
  cases req with
  | update S' u =>
      obtain ⟨rfl, rfl⟩ := Prod.mk.inj (Option.some.inj hus)
      refine ⟨c, ?_⟩
      rw [updateRadioSettings_eq, caught_of_error (bind_of_error hrun)]
      rfl
  | join J req =>
      unfold Request.updates at hus
      dsimp only at hus
      split at hus
      · next S' results us' hradios hprepare =>
        obtain ⟨rfl, rfl⟩ := Prod.mk.inj (Option.some.inj hus)
        refine ⟨⟨⟨.internal, "apply radio settings: " ++ (ApplyError.stage r (.connect c)).text⟩,
          some (.stage r (.connect c))⟩, ?_, trivial⟩
        simp only [MeshJoinService.applyMeshJoin, hradios, hprepare, applyRadioSettingsBatch_eq,
          hrun]
      · cases hus

/-- A world that refuses nothing. -/
def Fate.smooth : Fate := ⟨fun _ => false, fun _ _ => false⟩

/-- **Refused changes write nothing, unless refused late.** Whatever the
world refuses, a call that is rejected leaves both files saying what they
said, precisely where the radios it is about to stage are not refused after
something was written. -/
theorem rejectedWritesNothing_iff (t : Tree) (req : Request) :
    (∀ tick fate h', req.RejectedIn ⟨t, tick, fate⟩ h' → Unwritten t h'.tree) ↔
      ∀ S us w, req.updates t = some (S, us) → t.disk wirelessConfig = some w →
        ¬ Spoiled S ⟨w, t.disk "network"⟩ us := by
  constructor
  · intro hwrites S us w hus hw hspoiled
    obtain ⟨g, hrefused, hnew⟩ := spoiled_iff.1 hspoiled
    obtain ⟨r, c, h', hrun, hat⟩ := changed_of_refused (h := ⟨t, 0, Fate.smooth⟩) (fun _ => rfl) hw
      hrefused
    have hkept := hwrites 0 Fate.smooth h' (rejectedIn_of_changed hus hrun)
    exact hnew ((unwritten_iff hw hat).1 hkept)
  · intro hclean tick fate h' hrejected
    rcases hrejected.cases with rfl | ⟨S, us, r, c, hus, hshape, hrun⟩
    · exact unwritten_rfl _
    · obtain ⟨w, hw, hlands⟩ := changed_refused hshape hrun
      rcases hlands r c rfl with ⟨g, hrefused, hat⟩ | hat
      · refine (unwritten_iff hw hat).2 ?_
        by_contra hnew
        exact hclean S us w hus hw (spoiled_iff.2 ⟨g, hrefused, hnew⟩)
      · exact (unwritten_iff hw hat).2 .rfl

/-! ## A mesh without a free hardif -/

def sectionOf (type name : String) (options : List (String × String)) : Section :=
  ⟨type, name, options.foldr (fun o t => AList.insert o.1 [o.2] t) ∅⟩

/-- A node with two mesh radios and an access point. -/
def threeRadios : Uci.Config where
  sections :=
    [sectionOf "wifi-device" "radio0" [("band", "5g"), ("channel", "36")],
      sectionOf "wifi-device" "radio1" [("type", "morse"), ("channel", "28")],
      sectionOf "wifi-device" "radio2" [("band", "2g"), ("channel", "8")],
      sectionOf "wifi-iface" "default_radio0"
        [("device", "radio0"), ("network", "ahwlan"), ("mode", "ap"), ("ssid", "OpenMANET")],
      sectionOf "wifi-iface" "default_radio1"
        [("device", "radio1"), ("network", "batmesh0"), ("mode", "mesh"), ("mesh_id", "mesh")],
      sectionOf "wifi-iface" "default_radio2"
        [("device", "radio2"), ("network", "batmesh1"), ("mode", "mesh"), ("mesh_id", "mesh")]]
  plain := by decide +kernel
  ident := by decide +kernel
  distinct := by decide +kernel

/-- Its network config, with the batman-adv device. -/
def batmanNetwork : Uci.Config where
  sections := [sectionOf "interface" "bat0" [("proto", "batadv")]]
  plain := by decide +kernel
  ident := by decide +kernel
  distinct := by decide +kernel

/-- The access point is to become a mesh on another channel. -/
def meshRequest : RadioSettingsUpdate where
  radioName := "radio0"
  settings := some
    { ssid := "mesh", meshId := some "mesh", password := some "passphrase", channel := "149"
      bandwidth := .vht20, txPower := 0, country := none, encryption := .sae, disabled := none
      mode := .mesh, meshRssiThreshold := none }

def anyService : WifiConfigService := ⟨fun _ => false, none⟩

/-- The channel of the radio in the file a call of the first handler leaves
when it is refused. -/
def channelLeft (S : WifiConfigService) (u : RadioSettingsUpdate) (h : Host) : Option (List String) :=
  match S.updateRadioSettings u h with
  | .ok _ _ => none
  | .error _ h' => (h'.tree.disk wirelessConfig).map fun c => c.get u.radioName "channel"

/-- **The refused mesh has changed the channel.** -/
theorem refused_mesh_written :
    ¬ ∀ tick fate h', (Request.update anyService meshRequest).RejectedIn
      ⟨Files.tree ⟨threeRadios, some batmanNetwork⟩, tick, fate⟩ h' →
        Unwritten (Files.tree ⟨threeRadios, some batmanNetwork⟩) h'.tree := by
  intro hclaim
  have hleft : channelLeft anyService meshRequest
      ⟨Files.tree ⟨threeRadios, some batmanNetwork⟩, 0, Fate.smooth⟩ = some ["149"] := by
    decide +kernel
  have hbefore : threeRadios.get "radio0" "channel" = ["36"] := by decide +kernel
  unfold channelLeft at hleft
  cases hrun : anyService.updateRadioSettings meshRequest
      ⟨Files.tree ⟨threeRadios, some batmanNetwork⟩, 0, Fate.smooth⟩ with
  | ok _ _ => simp [hrun] at hleft
  | error e h' =>
      simp only [hrun, Option.map_eq_some_iff] at hleft
      obtain ⟨c, hc, hchannel⟩ := hleft
      obtain ⟨hsame, -⟩ := hclaim 0 Fate.smooth h' ⟨e, hrun⟩
      rw [hc] at hsame
      have hold : (Files.tree ⟨threeRadios, some batmanNetwork⟩).disk wirelessConfig =
          some threeRadios := by simp [Files.tree]
      rw [hold] at hsame
      cases hsame with
      | some hsame =>
          have hread := hsame.get "radio0" "channel"
          rw [hbefore] at hread
          rw [show meshRequest.radioName = "radio0" from rfl, ← hread] at hchannel
          simp at hchannel

end Wifi

end OpenManet
