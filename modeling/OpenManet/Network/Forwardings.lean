import OpenManet.Network.Names
import OpenManet.Lib.Uci.Again
import OpenManet.Lib.Uci.Listed
import OpenManet.Lib.Uci.Walk
import Mathlib.Data.List.Find
/-!
# Firewall forwardings

`GetOrCreateForwarding` of `internal/network/uci_firewall.go`, called without
a section name. `rerouted` says what it makes of the forwardings that are
there. The wizard allows one forwarding per source zone; the helper leaves one
where it gets to switch the others off, and where the name it makes up for a
new section is not that of a forwarding already.
-/

namespace OpenManet

namespace Network

open Uci Fallible

/-- What is read of a forwarding. -/
structure Forwarding where
  src : Option String
  dest : Option String
  enabled : Bool
deriving DecidableEq

def forwardingOf (s : Section) : Forwarding where
  src := (s.get "src").head?
  dest := (s.get "dest").head?
  enabled :=
    match s.get "enabled" with
    | v :: _ => v != "0"
    | [] => true

/-- The forwardings by address, in file order. -/
def forwardings (t : Tree) : List (String × Forwarding) :=
  (t.listed "firewall" "forwarding").map fun x => (x.1, forwardingOf x.2)

/-- The forwarding goes from one zone to the other. -/
def Forwarding.joins (src dest : String) (w : Forwarding) : Bool :=
  w.src == some src && w.dest == some dest

/-- The forwarding is off where it comes from the zone. -/
def Forwarding.offFrom (src : String) (w : Forwarding) : Forwarding :=
  if w.src = some src then { w with enabled := false } else w

/-- One forwarding changes. -/
def changed (key : String) (f : Forwarding → Forwarding) (fs : List (String × Forwarding)) :
    List (String × Forwarding) :=
  fs.map fun x => if x.1 = key then (x.1, f x.2) else x

/-- The name made up for a new section. -/
def wizardForwarding (count : ℕ) : String := "wizard_fwd_" ++ Nat.repr count

/-- **What becomes of the forwardings**, and which one is returned. -/
def rerouted (src dest : String) (fs : List (String × Forwarding)) :
    String × List (String × Forwarding) :=
  match fs.find? fun x => x.2.joins src dest && x.2.enabled with
  | some x => (x.1, fs)
  | none =>
      let off := fs.map fun x => (x.1, x.2.offFrom src)
      match off.find? fun x => x.2.joins src dest with
      | some x => (x.1, changed x.1 (fun w => { w with enabled := true }) off)
      | none =>
          let name := wizardForwarding fs.length
          if name ∈ fs.map Prod.fst then
            (name, changed name (fun w => { w with src := some src, dest := some dest }) off)
          else (name, off ++ [(name, ⟨some src, some dest, true⟩)])

variable {t : Tree} {h : Host} {src dest : String} {nat : Bool} {fs : List (String × Forwarding)}
  {x : String × Forwarding}

/-! ## The steps of the helper -/

theorem matchesForwarding_of_mem {x : String × Section}
    (hx : x ∈ t.listed "firewall" "forwarding") :
    matchesForwarding t x.1 src dest = (forwardingOf x.2).joins src dest := by
  rw [matchesForwarding, Tree.get_of_mem_listed hx, Tree.get_of_mem_listed hx]
  rfl

theorem forwardingEnabled_of_mem {x : String × Section}
    (hx : x ∈ t.listed "firewall" "forwarding") :
    forwardingEnabled t x.1 = (forwardingOf x.2).enabled := by
  rw [forwardingEnabled, Tree.get_of_mem_listed hx]
  rfl

/-- A search along the listed addresses is one along the forwardings. -/
theorem find?_listed {p : String → Bool} {q : Forwarding → Bool}
    (hpq : ∀ x ∈ t.listed "firewall" "forwarding", p x.1 = q (forwardingOf x.2)) :
    ((t.listed "firewall" "forwarding").map Prod.fst).find? p =
      ((forwardings t).find? fun x => q x.2).map Prod.fst := by
  rw [forwardings, List.find?_map, List.find?_map, Option.map_map]
  exact congrArg (Option.map Prod.fst) (List.find?_congr hpq)

/-- An edit of one forwarding, read. -/
theorem leaves_edit_forwarding {ref : String} {f : Table (List String) → Table (List String)}
    {g : Forwarding → Forwarding} (hfg : ∀ s, forwardingOf (s.edit f) = g (forwardingOf s))
    (href : ref ∈ (forwardings h.tree).map Prod.fst) :
    Leaves (editSection "firewall" ref f) h fun _ h' =>
      forwardings h'.tree = changed ref g (forwardings h.tree) := by
  obtain ⟨y, hy, rfl⟩ := List.mem_map.1 href
  obtain ⟨x, hx, rfl⟩ := List.mem_map.1 hy
  refine (leaves_listed_editSection hx).mono fun _ h' hlisted => ?_
  rw [forwardings, hlisted, changed, forwardings, List.map_map, List.map_map]
  refine List.map_congr_left fun y _ => ?_
  simp only [Function.comp_apply]
  split
  · rw [hfg]
  · rfl

theorem forwardingOf_disabled (s : Section) :
    forwardingOf (s.edit fun o => o.insert "enabled" ["0"]) =
      { forwardingOf s with enabled := false } := by
  simp [forwardingOf, Section.get, Section.edit, AList.lookup_insert_ne]

theorem forwardingOf_cleared (s : Section) :
    forwardingOf (s.edit fun o => o.erase "enabled") = { forwardingOf s with enabled := true } := by
  simp [forwardingOf, Section.get, Section.edit, AList.lookup_erase_ne]

theorem forwardingOf_src (s : Section) :
    forwardingOf (s.edit fun o => o.insert "src" [src]) = { forwardingOf s with src := some src } := by
  simp [forwardingOf, Section.get, Section.edit, AList.lookup_insert_ne]

theorem forwardingOf_dest (s : Section) :
    forwardingOf (s.edit fun o => o.insert "dest" [dest]) =
      { forwardingOf s with dest := some dest } := by
  simp [forwardingOf, Section.get, Section.edit, AList.lookup_insert_ne]

/-- The zone that is forwarded to gets its options, and no forwarding does. -/
theorem leaves_setDestZoneNATOptions (h : Host) :
    Leaves (setDestZoneNATOptions dest nat) h fun _ h' =>
      forwardings h'.tree = forwardings h.tree := by
  have hedit : ∀ (h : Host) (c : Config) (ref o : String), h.tree.mem "firewall" = some c →
      ref ∈ c.refs "zone" → Leaves (setType "firewall" ref o ["1"]) h fun _ h' =>
        forwardings h'.tree = forwardings h.tree ∧
          ∃ c', h'.tree.mem "firewall" = some c' ∧ ref ∈ c'.refs "zone" := by
    intro h c ref o hmem href
    refine leaves_editSection fun c' tick hmem' _ => ?_
    obtain rfl : c = c' := Option.some.inj (hmem.symm.trans hmem')
    refine ⟨?_, _, Tree.stage_mem _ _ _, by rwa [Config.refs_update]⟩
    rw [forwardings, Tree.stage_listed, Config.listed_update_of_ne href (by decide), forwardings,
      Tree.listed_of_mem hmem]
  unfold setDestZoneNATOptions zoneSectionByName
  rw [leaves_bind, leaves_bind, leaves_saying]
  refine leaves_getSections fun c tick hmem => ?_
  rw [leaves_bind, leaves_tree, leaves_pure]
  dsimp only
  cases hfind : (c.refs "zone").find? fun s => (h.tree.get "firewall" s "name").head? == some dest with
  | none => exact (leaves_pure _).2 rfl
  | some ref =>
      have href := List.mem_of_find?_eq_some hfind
      rw [Option.getD_some, if_neg (Config.ne_empty_of_mem_refs href), leaves_bind]
      refine (hedit { h with tick := tick } c ref "mtu_fix" hmem href).mono ?_
      rintro _ h₁ ⟨hsame, c', hmem', href'⟩
      cases nat with
      | true =>
          refine (hedit h₁ c' ref "masq" hmem' href').mono ?_
          rintro _ h₂ ⟨hsame', -⟩
          exact hsame'.trans hsame
      | false => exact (leaves_pure _).2 hsame

theorem changed_of_not_mem {key : String} {f : Forwarding → Forwarding}
    (hkey : key ∉ fs.map Prod.fst) : changed key f fs = fs := by
  refine (List.map_congr_left fun x hx => if_neg ?_).trans (List.map_id _)
  rintro rfl
  exact hkey (List.mem_map_of_mem hx)

theorem changed_cons (key : String) (f : Forwarding → Forwarding) (x : String × Forwarding)
    (fs : List (String × Forwarding)) :
    changed key f (x :: fs) = (if x.1 = key then (x.1, f x.2) else x) :: changed key f fs := rfl

theorem changed_append (key : String) (f : Forwarding → Forwarding)
    (fs gs : List (String × Forwarding)) :
    changed key f (fs ++ gs) = changed key f fs ++ changed key f gs := List.map_append ..

@[simp] theorem changed_fst (key : String) (f : Forwarding → Forwarding)
    (fs : List (String × Forwarding)) : (changed key f fs).map Prod.fst = fs.map Prod.fst := by
  rw [changed, List.map_map]
  refine List.map_congr_left fun x _ => ?_
  simp only [Function.comp_apply]
  split <;> rfl

/-- The loop switches off what comes from the zone, one forwarding after the
other. -/
theorem leaves_disableOtherForwardingsFromSrc {done rest : List (String × Forwarding)}
    (hstand : forwardings h.tree = done ++ rest)
    (hnodup : ((done ++ rest).map Prod.fst).Nodup) :
    Leaves (disableOtherForwardingsFromSrc (rest.map Prod.fst) src) h fun _ h' =>
      forwardings h'.tree = done ++ rest.map fun x => (x.1, x.2.offFrom src) := by
  induction rest generalizing done h with
  | nil => exact (leaves_pure _).2 hstand
  | cons x rest ih =>
      have hx : x ∈ forwardings h.tree := by simp [hstand]
      obtain ⟨y, hy, rfl⟩ := List.mem_map.1 hx
      have hnext : ∀ h' : Host, forwardings h'.tree =
          (done ++ [(y.1, (forwardingOf y.2).offFrom src)]) ++ rest →
          Leaves (disableOtherForwardingsFromSrc (rest.map Prod.fst) src) h' fun _ h'' =>
            forwardings h''.tree = done ++
              ((y.1, forwardingOf y.2) :: rest).map fun x => (x.1, x.2.offFrom src) := by
        intro h' hstand'
        refine (ih hstand' (by simpa using hnodup)).mono fun _ h'' hdone => ?_
        rw [hdone, List.append_assoc]
        rfl
      show Leaves (_ >>= fun _ => disableOtherForwardingsFromSrc (rest.map Prod.fst) src) h _
      rw [leaves_bind, leaves_bind, leaves_tree, leaves_ite, Tree.get_of_mem_listed hy]
      refine ⟨fun hsrc => ?_, fun hsrc => ?_⟩
      · have hoff : (forwardingOf y.2).offFrom src = { forwardingOf y.2 with enabled := false } :=
          if_pos hsrc
        refine (leaves_edit_forwarding (g := fun w => { w with enabled := false })
          forwardingOf_disabled (List.mem_map_of_mem hx)).mono fun _ h' hchanged => hnext h' ?_
        simp only [List.map_append, List.map_cons, List.nodup_middle, List.nodup_cons,
          List.mem_append, not_or] at hnodup
        rw [hchanged, hstand, changed_append, changed_cons, if_pos rfl,
          changed_of_not_mem hnodup.1.1, changed_of_not_mem hnodup.1.2, hoff]
        simp
      · have hoff : (forwardingOf y.2).offFrom src = forwardingOf y.2 := if_neg hsrc
        rw [leaves_pure]
        refine hnext h ?_
        rw [hoff, hstand]
        simp

/-- A new forwarding, or one that has the name already. -/
theorem leaves_addForwarding {name : String} (hn : Plain name) (hne : name ≠ "") :
    Leaves (addSection "firewall" name "forwarding") h fun _ h' =>
      name ∈ (forwardings h'.tree).map Prod.fst ∧
        forwardings h'.tree = if name ∈ (forwardings h.tree).map Prod.fst then forwardings h.tree
          else forwardings h.tree ++ [(name, ⟨none, none, true⟩)] := by
  have hkeys : ∀ c : Config, ((c.listed "forwarding").map fun x =>
      (x.1, forwardingOf x.2)).map Prod.fst = c.refs "forwarding" := by
    intro c
    rw [List.map_map, ← Config.listed_fst]
    rfl
  refine leaves_addSection (fun s tick hfind htype => ?_) fun tick hnone => ?_
  · cases hmem : h.tree.mem "firewall" with
    | none => simp [hmem, Config.find, Config.entries, Config.empty, places] at hfind
    | some c =>
        rw [hmem, Option.getD_some] at hfind
        have hlisted : name ∈ (forwardings h.tree).map Prod.fst := by
          rw [forwardings, Tree.listed_of_mem hmem, hkeys, Config.name_mem_refs_iff hn hne]
          exact ⟨s, hfind, htype⟩
        exact ⟨hlisted, (if_pos hlisted).symm⟩
  · have hold : ((h.tree.mem "firewall").getD Config.empty).listed "forwarding" =
        h.tree.listed "firewall" "forwarding" := by
      unfold Tree.listed
      cases h.tree.mem "firewall" with
      | none => rfl
      | some c => rfl
    have hnew : name ∉ (forwardings h.tree).map Prod.fst := by
      rw [forwardings, ← hold, hkeys, Config.name_mem_refs_iff hn hne, hnone]
      rintro ⟨s, hs, -⟩
      cases hs
    have hpushed : forwardings (h.tree.stage "firewall"
        (((h.tree.mem "firewall").getD Config.empty).push "forwarding" name)) =
          forwardings h.tree ++ [(name, ⟨none, none, true⟩)] := by
      rw [forwardings, Tree.stage_listed, Config.listed_push hn hne (by decide) hnone, hold,
        List.map_append, forwardings]
      rfl
    show _ ∈ (forwardings (h.tree.stage _ _)).map _ ∧ forwardings (h.tree.stage _ _) = _
    rw [if_neg hnew, hpushed]
    exact ⟨by simp, rfl⟩

theorem plain_wizardForwarding (count : ℕ) : Plain (wizardForwarding count) :=
  plain_append (by decide) (by decide) _

theorem wizardForwarding_ne_empty (count : ℕ) : wizardForwarding count ≠ "" := by
  simp [wizardForwarding]

/-- A section asked for under a name, and written to. -/
theorem leaves_writeForwarding {name : String} (hn : Plain name) (hne : name ≠ "") (h : Host) :
    Leaves (do
      saying "creating forwarding section" (addSection "firewall" name "forwarding")
      setType "firewall" name "src" [src]
      setType "firewall" name "dest" [dest]
      pure name) h fun s h' => s = name ∧ forwardings h'.tree =
        if name ∈ (forwardings h.tree).map Prod.fst then
          changed name (fun w => { w with src := some src, dest := some dest }) (forwardings h.tree)
        else forwardings h.tree ++ [(name, ⟨some src, some dest, true⟩)] := by
  rw [leaves_bind, leaves_saying]
  refine (leaves_addForwarding hn hne).mono ?_
  rintro _ h₁ ⟨hin, hadded⟩
  rw [leaves_bind]
  refine (leaves_edit_forwarding (g := fun w => { w with src := some src })
    forwardingOf_src hin).mono fun _ h₂ hsrc => ?_
  rw [leaves_bind]
  refine (leaves_edit_forwarding (g := fun w => { w with dest := some dest })
    forwardingOf_dest (by rwa [hsrc, changed_fst])).mono fun _ h₃ hdest => ?_
  rw [leaves_pure, hdest, hsrc, hadded]
  refine ⟨rfl, ?_⟩
  split
  · rw [changed, changed, List.map_map, changed]
    refine List.map_congr_left fun x _ => ?_
    simp only [Function.comp_apply]
    split
    · simp
    · rfl
  · next hnew =>
    have hkeep : ∀ f, changed name f (forwardings h.tree) = forwardings h.tree :=
      fun f => changed_of_not_mem hnew
    rw [changed_append, hkeep, changed_append, hkeep]
    simp [changed]

/-- **The helper does to the forwardings what `rerouted` says.** Where it
finds one that is on, it does nothing. -/
theorem leaves_getOrCreateForwarding (h : Host) :
    Leaves (getOrCreateForwarding src dest "" nat) h fun s h' =>
      (s, forwardings h'.tree) = rerouted src dest (forwardings h.tree) ∧
        (((forwardings h.tree).find? fun x => x.2.joins src dest && x.2.enabled).isSome = true →
          h'.tree = h.tree) := by
  unfold getOrCreateForwarding
  rw [leaves_ite]
  refine ⟨fun _ => leaves_fail.2 trivial, fun _ => ?_⟩
  rw [leaves_bind, leaves_saying]
  refine (leaves_listed_getSections h).mono ?_
  rintro sections h₁ ⟨htree, hsections, hnodup⟩
  rw [← htree] at hsections ⊢
  have hfst : ∀ t : Tree, (t.listed "firewall" "forwarding").map Prod.fst =
      (forwardings t).map Prod.fst := by
    intro t
    rw [forwardings, List.map_map]
    rfl
  rw [leaves_bind, leaves_tree, hsections, find?_listed (q := fun w => w.joins src dest && w.enabled)
    fun x hx => by rw [matchesForwarding_of_mem hx, forwardingEnabled_of_mem hx]]
  unfold rerouted
  cases hon : (forwardings h₁.tree).find? fun x => x.2.joins src dest && x.2.enabled with
  | some x => exact (leaves_pure _).2 ⟨rfl, fun _ => rfl⟩
  | none =>
      rw [hfst] at hsections ⊢
      rw [hsections] at hnodup
      dsimp only [Option.map_none]
      rw [leaves_bind]
      refine (leaves_setDestZoneNATOptions h₁).mono fun _ h₂ hsame => ?_
      have hloop : Leaves (disableOtherForwardingsFromSrc ((forwardings h₁.tree).map Prod.fst) src)
          h₂ fun _ h' => forwardings h'.tree =
            [] ++ (forwardings h₁.tree).map fun x => (x.1, x.2.offFrom src) :=
        leaves_disableOtherForwardingsFromSrc hsame hnodup
      rw [leaves_bind]
      refine hloop.mono fun _ h₃ hoff => ?_
      rw [List.nil_append] at hoff
      have hkeys : (forwardings h₁.tree).map Prod.fst = (forwardings h₃.tree).map Prod.fst := by
        rw [hoff, List.map_map]
        rfl
      rw [leaves_bind, leaves_tree, hkeys, ← hfst,
        find?_listed (q := fun w => w.joins src dest) fun x hx => matchesForwarding_of_mem hx, ← hoff]
      cases hmatch : (forwardings h₃.tree).find? fun x => x.2.joins src dest with
      | some x =>
          dsimp only [Option.map_some]
          rw [leaves_bind, leaves_saying]
          refine (leaves_edit_forwarding (g := fun w => { w with enabled := true })
            forwardingOf_cleared
            (List.mem_map_of_mem (List.mem_of_find?_eq_some hmatch))).mono fun _ h₄ hchanged => ?_
          rw [leaves_pure, hchanged]
          exact ⟨rfl, fun hno => by cases hno⟩
      | none =>
          dsimp only [Option.map_none]
          have hlength : (forwardings h₃.tree).length = (forwardings h₁.tree).length := by
            rw [hoff, List.length_map]
          rw [if_pos rfl, hfst, List.length_map, ← wizardForwarding, ← hlength]
          refine (leaves_writeForwarding (plain_wizardForwarding _) (wizardForwarding_ne_empty _)
            h₃).mono ?_
          rintro _ h₄ ⟨rfl, hwritten⟩
          rw [hwritten]
          refine ⟨?_, fun hno => by cases hno⟩
          split <;> rfl

/-! ## One forwarding per source zone -/

/-- The forwardings that are on and come from the zone. -/
def onFrom (src : String) (fs : List (String × Forwarding)) : List (String × Forwarding) :=
  fs.filter fun x => x.2.src == some src && x.2.enabled

/-- The one that is returned is the only one that is on and comes from the
zone, and none that comes from another has changed. -/
def Single (src dest : String) (fs : List (String × Forwarding))
    (r : String × List (String × Forwarding)) : Prop :=
  onFrom src r.2 = [(r.1, ⟨some src, some dest, true⟩)] ∧
    ∀ x ∈ fs, ∀ other, x.2.src = some other → other ≠ src → x ∈ r.2

/-- **Where one forwarding is left**: a single one from the zone is on, and it
goes where it should; or none is on that goes there, and one that is off does
or the name made up for a new one is free. A forwarding that has the name may
be taken over unseen only where it names no zone and is on. -/
def Reroutable (src dest : String) (fs : List (String × Forwarding)) : Prop :=
  (∃ x ∈ fs, onFrom src fs = [x] ∧ x.2.dest = some dest) ∨
    (∀ x ∈ fs, x.2.joins src dest = true → x.2.enabled = false) ∧
      ((∃ x ∈ fs, x.2.joins src dest = true) ∨
        ∀ x ∈ fs, x.1 = wizardForwarding fs.length → x.2.src = none ∧ x.2.enabled = true)

instance (src dest : String) (fs : List (String × Forwarding)) :
    Decidable (Reroutable src dest fs) := by
  unfold Reroutable
  infer_instance

theorem Forwarding.joins_iff {w : Forwarding} :
    w.joins src dest = true ↔ w.src = some src ∧ w.dest = some dest := by
  simp [joins]

theorem mem_onFrom : x ∈ onFrom src fs ↔ x ∈ fs ∧ x.2.src = some src ∧ x.2.enabled = true := by
  simp [onFrom]

theorem onFrom_off (src : String) (fs : List (String × Forwarding)) :
    onFrom src (fs.map fun x => (x.1, x.2.offFrom src)) = [] := by
  rw [List.eq_nil_iff_forall_not_mem]
  intro x hx
  obtain ⟨hmem, hsrc, hon⟩ := mem_onFrom.1 hx
  obtain ⟨y, -, rfl⟩ := List.mem_map.1 hmem
  simp only [Forwarding.offFrom] at hsrc hon
  split at hsrc
  · next hy => rw [if_pos hy] at hon; cases hon
  · next hy => exact hy hsrc

/-- Where none was on, one that changes is the only one that may be. -/
theorem onFrom_changed {f : Forwarding → Forwarding} (hnodup : (fs.map Prod.fst).Nodup)
    (hnone : onFrom src fs = []) (hx : x ∈ fs) :
    onFrom src (changed x.1 f fs) =
      if (f x.2).src = some src ∧ (f x.2).enabled = true then [(x.1, f x.2)] else [] := by
  obtain ⟨a, b, rfl⟩ := List.append_of_mem hx
  simp only [List.map_append, List.map_cons, List.nodup_middle, List.nodup_cons, List.mem_append,
    not_or] at hnodup
  have hsplit : onFrom src a ++ onFrom src (x :: b) = [] := by rw [← hnone, onFrom, onFrom, onFrom,
    List.filter_append]
  obtain ⟨hbefore, hrest⟩ := List.append_eq_nil_iff.1 hsplit
  have hafter : onFrom src b = [] := by
    rw [onFrom, List.filter_cons] at hrest
    split at hrest
    · cases hrest
    · exact hrest
  rw [changed_append, changed_cons, if_pos rfl, changed_of_not_mem hnodup.1.1,
    changed_of_not_mem hnodup.1.2]
  unfold onFrom at *
  rw [List.filter_append, hbefore, List.nil_append, List.filter_cons, hafter]
  simp

/-- What comes from another zone is not switched off. -/
theorem mem_off (hx : x ∈ fs) (hsrc : x.2.src ≠ some src) :
    x ∈ fs.map fun x => (x.1, x.2.offFrom src) :=
  List.mem_map.2 ⟨x, hx, by rw [Forwarding.offFrom, if_neg hsrc]⟩

theorem mem_changed {key : String} {f : Forwarding → Forwarding} (hx : x ∈ fs) (hkey : x.1 ≠ key) :
    x ∈ changed key f fs :=
  List.mem_map.2 ⟨x, hx, if_neg hkey⟩

theorem eq_of_fst {y : String × Forwarding} (hnodup : (fs.map Prod.fst).Nodup) (hx : x ∈ fs)
    (hy : y ∈ fs) (h : x.1 = y.1) : x = y :=
  List.inj_on_of_nodup_map hnodup hx hy h

theorem off_fst (src : String) (fs : List (String × Forwarding)) :
    (fs.map fun x => (x.1, x.2.offFrom src)).map Prod.fst = fs.map Prod.fst := by
  rw [List.map_map]
  rfl

/-- A forwarding that goes there is switched on again. -/
theorem single_reenabled (hnodup : (fs.map Prod.fst).Nodup)
    (hx : x ∈ fs.map fun x => (x.1, x.2.offFrom src)) (hjoins : x.2.joins src dest = true) :
    Single src dest fs (x.1, changed x.1 (fun w => { w with enabled := true })
      (fs.map fun x => (x.1, x.2.offFrom src))) := by
  obtain ⟨hsrc, hdest⟩ := Forwarding.joins_iff.1 hjoins
  have hkeys := hnodup
  rw [← off_fst src] at hkeys
  refine ⟨?_, fun y hy other hother hne => ?_⟩
  · rw [onFrom_changed hkeys (onFrom_off src fs) hx, if_pos ⟨hsrc, rfl⟩, ← hsrc, ← hdest]
  · have hsrc' : y.2.src ≠ some src := by
      rw [hother]
      simpa using hne
    have hoff := mem_off hy hsrc'
    dsimp only
    refine mem_changed hoff fun hkey => ?_
    rw [eq_of_fst hkeys hoff hx hkey, hsrc] at hother
    exact hne (Option.some.inj hother).symm

/-- A forwarding that has the name is taken over. -/
theorem single_overwritten_iff (hnodup : (fs.map Prod.fst).Nodup) (hx : x ∈ fs) :
    Single src dest fs (x.1, changed x.1 (fun w => { w with src := some src, dest := some dest })
      (fs.map fun x => (x.1, x.2.offFrom src))) ↔ x.2.src = none ∧ x.2.enabled = true := by
  have hkeys := hnodup
  rw [← off_fst src] at hkeys
  have hoff : (x.1, x.2.offFrom src) ∈ fs.map fun x => (x.1, x.2.offFrom src) :=
    List.mem_map.2 ⟨x, hx, rfl⟩
  have hleft := onFrom_changed (f := fun w => { w with src := some src, dest := some dest }) hkeys
    (onFrom_off src fs) hoff
  constructor
  · rintro ⟨hone, hothers⟩
    rw [hleft] at hone
    split at hone
    · next hon =>
      have henabled : (x.2.offFrom src).enabled = true := hon.2
      unfold Forwarding.offFrom at henabled
      split at henabled
      · cases henabled
      · next hsrc =>
        refine ⟨?_, henabled⟩
        cases hother : x.2.src with
        | none => rfl
        | some other =>
            have hne : other ≠ src := fun heq => hsrc (by rw [hother, heq])
            obtain ⟨y, hy, heq⟩ := List.mem_map.1 (hothers x hx other hother hne)
            split at heq
            · rw [← heq] at hother
              exact absurd (Option.some.inj hother).symm hne
            · next hkey => exact absurd (congrArg Prod.fst heq) hkey
    · cases hone
  · rintro ⟨hsrc, hon⟩
    have hsame : x.2.offFrom src = x.2 := if_neg (by rw [hsrc]; simp)
    refine ⟨?_, fun y hy other hother hne => ?_⟩
    · rw [hsame] at hleft
      rw [hleft, if_pos ⟨rfl, hon⟩, ← hon]
    · dsimp only
      refine mem_changed (mem_off hy (by rw [hother]; simpa using hne)) fun hkey => ?_
      rw [eq_of_fst hnodup hy hx hkey, hsrc] at hother
      cases hother

/-- **One forwarding is left exactly where one can be.** -/
theorem single_rerouted_iff (hnodup : (fs.map Prod.fst).Nodup) :
    Single src dest fs (rerouted src dest fs) ↔ Reroutable src dest fs := by
  unfold rerouted
  cases hon : fs.find? fun x => x.2.joins src dest && x.2.enabled with
  | some x =>
      have hx := List.mem_of_find?_eq_some hon
      have htest := List.find?_some hon
      obtain ⟨hjoins, henabled⟩ := Bool.and_eq_true_iff.1 htest
      obtain ⟨hsrc, hdest⟩ := Forwarding.joins_iff.1 hjoins
      have hfound : x ∈ onFrom src fs := mem_onFrom.2 ⟨hx, hsrc, henabled⟩
      have hshape : x = (x.1, ⟨some src, some dest, true⟩) := by rw [← hsrc, ← hdest, ← henabled]
      constructor
      · rintro ⟨hone, -⟩
        rw [← hshape] at hone
        exact .inl ⟨x, hx, hone, hdest⟩
      · rintro (⟨y, -, hone, -⟩ | ⟨hnone, -⟩)
        · rw [hone, List.mem_singleton] at hfound
          subst hfound
          exact ⟨hone.trans (congrArg (fun z => [z]) hshape), fun y hy _ _ _ => hy⟩
        · rw [hnone x hx hjoins] at henabled
          cases henabled
  | none =>
      have hnone : ∀ x ∈ fs, x.2.joins src dest = true → x.2.enabled = false := by
        intro x hx hjoins
        simpa [hjoins] using List.find?_eq_none.1 hon x hx
      have hnot : ¬ ∃ x ∈ fs, onFrom src fs = [x] ∧ x.2.dest = some dest := by
        rintro ⟨x, hx, hone, hdest⟩
        have hfound : x ∈ onFrom src fs := by rw [hone]; exact List.mem_singleton_self x
        obtain ⟨-, hsrc, henabled⟩ := mem_onFrom.1 hfound
        rw [hnone x hx (Forwarding.joins_iff.2 ⟨hsrc, hdest⟩)] at henabled
        cases henabled
      rw [Reroutable, or_iff_right hnot, and_iff_right hnone]
      dsimp only
      cases hmatch : (fs.map fun x => (x.1, x.2.offFrom src)).find? fun x => x.2.joins src dest with
      | some x =>
          have hx := List.mem_of_find?_eq_some hmatch
          have hjoins := List.find?_some hmatch
          refine iff_of_true (single_reenabled hnodup hx hjoins) (.inl ?_)
          obtain ⟨y, hy, rfl⟩ := List.mem_map.1 hx
          refine ⟨y, hy, ?_⟩
          simp only [Forwarding.offFrom] at hjoins
          split at hjoins
          · exact hjoins
          · exact hjoins
      | none =>
          have hfar : ¬ ∃ x ∈ fs, x.2.joins src dest = true := by
            rintro ⟨x, hx, hjoins⟩
            have hoff := List.find?_eq_none.1 hmatch _ (List.mem_map.2 ⟨x, hx, rfl⟩)
            rw [Forwarding.offFrom, if_pos (Forwarding.joins_iff.1 hjoins).1] at hoff
            exact hoff hjoins
          rw [or_iff_right hfar]
          dsimp only
          split
          · next hin =>
            obtain ⟨x, hx, hname⟩ := List.mem_map.1 hin
            rw [← hname, single_overwritten_iff hnodup hx]
            refine ⟨fun hfree y hy hkey => ?_, fun hfree => hfree x hx rfl⟩
            rwa [eq_of_fst hnodup hy hx hkey]
          · next hnew =>
            refine iff_of_true ⟨?_, fun x hx other hother hne => ?_⟩ fun x hx hkey => ?_
            · have hoff := onFrom_off src fs
              unfold onFrom at *
              rw [List.filter_append, hoff]
              simp
            · exact List.mem_append_left _ (mem_off hx (by rw [hother]; simpa using hne))
            · exact absurd (List.mem_map.2 ⟨x, hx, hkey⟩) hnew

/-! ## The helper asked again -/

theorem forwardings_nodup (t : Tree) : ((forwardings t).map Prod.fst).Nodup := by
  have hfst : (forwardings t).map Prod.fst = (t.listed "firewall" "forwarding").map Prod.fst := by
    rw [forwardings, List.map_map]
    rfl
  rw [hfst, Tree.listed]
  cases t.mem "firewall" with
  | none => exact List.nodup_nil
  | some c => exact Config.listed_fst c _ ▸ c.refs_nodup _

/-- **A forwarding that is on is found again**, and nothing is done. -/
theorem repeats_getOrCreateForwarding {s : String} (hsrc : src ≠ "") (hdest : dest ≠ "")
    (hone : onFrom src (forwardings t) = [(s, ⟨some src, some dest, true⟩)]) :
    Repeats Eq (getOrCreateForwarding src dest "" nat) t s := by
  have hs : (s, (⟨some src, some dest, true⟩ : Forwarding)) ∈ onFrom src (forwardings t) := by
    rw [hone]
    exact List.mem_singleton_self _
  have hfound : ((forwardings t).find? fun x => x.2.joins src dest && x.2.enabled) =
      some (s, ⟨some src, some dest, true⟩) := by
    cases hfind : (forwardings t).find? fun x => x.2.joins src dest && x.2.enabled with
    | none =>
        have hno := List.find?_eq_none.1 hfind _ (mem_onFrom.1 hs).1
        simp [Forwarding.joins] at hno
    | some x =>
        have htest := List.find?_some hfind
        obtain ⟨hjoins, hon⟩ := Bool.and_eq_true_iff.1 htest
        have hx : x ∈ onFrom src (forwardings t) :=
          mem_onFrom.2 ⟨List.mem_of_find?_eq_some hfind, (Forwarding.joins_iff.1 hjoins).1, hon⟩
        rw [hone, List.mem_singleton] at hx
        rw [hx]
  rintro h rfl
  obtain ⟨c, hmem⟩ : ∃ c, h.tree.mem "firewall" = some c := by
    cases hmem : h.tree.mem "firewall" with
    | some c => exact ⟨c, rfl⟩
    | none => simp [forwardings, Tree.listed, hmem, onFrom] at hone
  unfold getOrCreateForwarding
  rw [if_neg (not_or.2 ⟨hsrc, hdest⟩)]
  refine (sure_getSections hmem).saying.bind ?_
  rintro sections h₁ ⟨rfl, htree⟩
  refine sure_tree_bind ?_
  rw [← Config.listed_fst, ← Tree.listed_of_mem hmem, ← htree,
    find?_listed (q := fun w => w.joins src dest && w.enabled) fun x hx => by
      rw [matchesForwarding_of_mem hx, forwardingEnabled_of_mem hx], htree, hfound]
  exact sure_pure ⟨rfl, htree.symm⟩

/-- **One forwarding per source zone**: the section that is returned is the
only forwarding from the zone that is on, and goes where it should; no
forwarding from another zone has changed; and asked again the helper returns
the section and changes nothing. -/
structure OneForwarding (src dest : String) (nat : Bool) (t t' : Tree) (s : String) : Prop where
  one : onFrom src (forwardings t') = [(s, ⟨some src, some dest, true⟩)]
  others : ∀ x ∈ forwardings t, ∀ other, x.2.src = some other → other ≠ src → x ∈ forwardings t'
  again : Repeats Eq (getOrCreateForwarding src dest "" nat) t' s

/-- **Where one forwarding per source zone is left.** -/
theorem oneForwarding_iff {h' : Host} {s : String}
    (hrun : getOrCreateForwarding src dest "" nat h = .ok s h') :
    OneForwarding src dest nat h.tree h'.tree s ↔ Reroutable src dest (forwardings h.tree) := by
  obtain ⟨hres, -⟩ := leaves_getOrCreateForwarding h s h' hrun
  rw [← single_rerouted_iff (forwardings_nodup h.tree), ← hres]
  constructor
  · intro hone
    exact ⟨hone.one, hone.others⟩
  · rintro ⟨hone, hothers⟩
    have hnames : src ≠ "" ∧ dest ≠ "" := by
      rw [← not_or]
      intro hempty
      rw [getOrCreateForwarding, if_pos hempty] at hrun
      cases hrun
    exact ⟨hone, hothers, repeats_getOrCreateForwarding hnames.1 hnames.2 hone⟩

/-- Two forwardings from `lan`, to the uplink and to a tunnel. -/
def lanForwardings (uplink tunnel : Table (List String)) : Config where
  sections := [⟨"forwarding", "", uplink⟩, ⟨"forwarding", "", tunnel⟩]
  plain := by simp [Plain]
  ident := by simp
  distinct := List.pairwise_pair.2 fun _ => rfl

def lanHost (uplink tunnel : Table (List String)) : Host where
  tree :=
    { mem := fun config => if config = "firewall" then some (lanForwardings uplink tunnel) else none
      disk := fun _ => none
      dirty := fun _ => false }
  tick := 0
  fate := ⟨fun _ => false, fun _ _ => false⟩

def toUplink : Table (List String) := (∅ : Table _).insert "src" ["lan"] |>.insert "dest" ["wan"]

def toTunnel : Table (List String) := (∅ : Table _).insert "src" ["lan"] |>.insert "dest" ["vpn"]

/-- The forwarding to the uplink is off, and is switched on in the other's
place. -/
theorem oneForwarding_iff_switched : ∃ h', OneForwarding "lan" "wan" true
    (lanHost (toUplink.insert "enabled" ["0"]) toTunnel).tree h' "@forwarding[0]" :=
  ⟨_, (oneForwarding_iff (h := lanHost (toUplink.insert "enabled" ["0"]) toTunnel) rfl).2
    (by decide +kernel)⟩

/-- Both are on: the one to the tunnel stays so. -/
theorem oneForwarding_leftover : ∃ s h', getOrCreateForwarding "lan" "wan" "" true
    (lanHost toUplink toTunnel) = .ok s h' ∧
      ¬ OneForwarding "lan" "wan" true (lanHost toUplink toTunnel).tree h'.tree s := by
  refine ⟨_, _, rfl, fun hone => ?_⟩
  have hleft : (onFrom "lan" (forwardings (lanHost toUplink toTunnel).tree)).length = 2 := by
    decide +kernel
  have hsingle := congrArg List.length hone.one
  exact absurd (hleft.symm.trans hsingle) (by decide)

end Network

end OpenManet
