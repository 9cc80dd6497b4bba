import OpenManet.Network.Bridges
import OpenManet.Network.Names
import OpenManet.Lib.Uci.Place
/-!
# Firewall zones

A network is given a zone of its own where no zone with a name holds it, and
the zone's options are then looked for under the network's name. The two
agree where a zone bears that name already, or the new one gets it; the new
one gets another name where the network's is in use by a section.
-/

namespace OpenManet

namespace Network

open Uci Fallible

/-- What the helpers read of a zone. -/
structure Zone where
  name : List String
  network : List String

def zoneOf (s : Section) : Zone := ⟨s.get "name", s.get "network"⟩

/-- The zones, in file order. -/
def zones (t : Tree) : List Zone :=
  match t.mem "firewall" with
  | some c => (c.ofType "zone").map zoneOf
  | none => []

/-- A zone bears the name. -/
def zoneNamed (t : Tree) (n : String) : Bool := (zones t).any fun z => z.name.head? == some n

/-- The name of the first zone that holds the network. -/
def servingZone (t : Tree) (n : String) : String :=
  match (zones t).find? fun z => n ∈ z.network with
  | some z => z.name.head?.getD ""
  | none => ""

/-- A section of a type whose names are looked at bears the name. -/
def sectionNamed (t : Tree) (n : String) : Bool :=
  ["zone", "forwarding", "rule"].any fun type => t.kind "firewall" n == some type

/-- **The network's zone will bear its name**: one does, or the network has
none and its name is free. -/
def ZoneReady (t : Tree) (n : String) : Prop :=
  zoneNamed t n = true ∨ servingZone t n = "" ∧ sectionNamed t n = false

instance (t : Tree) (n : String) : Decidable (ZoneReady t n) := by
  unfold ZoneReady
  infer_instance

variable {α : Type} {t : Tree} {c : Config} {h : Host} {n m r : String} {v : Section → α}
  {f : Table (List String) → Table (List String)}

theorem zones_of_mem (hmem : t.mem "firewall" = some c) :
    zones t = (c.ofType "zone").map zoneOf := by rw [zones, hmem]

/-- What is read at the zones' addresses. -/
theorem map_refs_zone (hmem : t.mem "firewall" = some c) :
    (c.refs "zone").map (fun s => (⟨t.get "firewall" s "name", t.get "firewall" s "network"⟩ : Zone))
      = zones t := by
  rw [zones_of_mem hmem]
  refine Config.map_refs _ _ fun ref s hfind => ?_
  rw [Tree.get_of_mem hmem, Tree.get_of_mem hmem, Config.get, Config.get, hfind]
  rfl

/-! ## Reading the zones -/

theorem relays_zoneNameFor : Relays (zoneNameFor n) h := by
  refine relays_bind (relays_saying relays_getSections) fun _ _ => relays_tree_bind ?_
  split <;> exact relays_pure _

/-- The search for the zone, along the addresses of the zones. -/
theorem servingZone_of_mem (hmem : t.mem "firewall" = some c) :
    servingZone t n = ((((c.refs "zone").find? fun s => n ∈ t.get "firewall" s "network").map
      fun s => (t.get "firewall" s "name").head?.getD "").getD "") := by
  unfold servingZone
  rw [← map_refs_zone hmem, List.find?_map]
  cases hfind : (c.refs "zone").find? fun s => n ∈ t.get "firewall" s "network" with
  | none =>
      have hnone : (c.refs "zone").find? ((fun z : Zone => decide (n ∈ z.network)) ∘ fun s =>
          ⟨t.get "firewall" s "name", t.get "firewall" s "network"⟩) = none := hfind
      rw [hnone]
      rfl
  | some s =>
      have hsome : (c.refs "zone").find? ((fun z : Zone => decide (n ∈ z.network)) ∘ fun s =>
          ⟨t.get "firewall" s "name", t.get "firewall" s "network"⟩) = some s := hfind
      rw [hsome]
      rfl

theorem leaves_zoneNameFor (h : Host) :
    Leaves (zoneNameFor n) h fun r h' => h'.tree = h.tree ∧ r = servingZone h.tree n ∧
      ∃ c, h.tree.mem "firewall" = some c := by
  unfold zoneNameFor
  rw [leaves_bind, leaves_saying]
  refine leaves_getSections fun c tick hmem => ?_
  rw [leaves_bind, leaves_tree, servingZone_of_mem hmem]
  dsimp only
  cases (c.refs "zone").find? fun s => n ∈ h.tree.get "firewall" s "network" with
  | none => exact (leaves_pure _).2 ⟨rfl, rfl, c, hmem⟩
  | some s => exact (leaves_pure _).2 ⟨rfl, rfl, c, hmem⟩

theorem relays_zoneSectionByName : Relays (zoneSectionByName n) h :=
  relays_bind (relays_saying relays_getSections) fun _ _ => relays_tree_bind (relays_pure _)

/-- A zone is found by its name where there is one. -/
theorem leaves_zoneSectionByName (h : Host) :
    Leaves (zoneSectionByName n) h fun r h' => h'.tree = h.tree ∧
      (r ≠ "" ↔ zoneNamed h.tree n = true) := by
  unfold zoneSectionByName
  rw [leaves_bind, leaves_saying]
  refine leaves_getSections fun c tick hmem => ?_
  rw [leaves_bind, leaves_tree, leaves_pure]
  refine ⟨rfl, ?_⟩
  dsimp only
  have hnamed : zoneNamed h.tree n =
      (c.refs "zone").any fun s => (h.tree.get "firewall" s "name").head? == some n := by
    rw [zoneNamed, ← map_refs_zone hmem, List.any_map]
    rfl
  rw [hnamed]
  cases hfind : (c.refs "zone").find? fun s =>
      (h.tree.get "firewall" s "name").head? == some n with
  | none =>
      refine iff_of_false (fun hne => hne rfl) ?_
      rw [Bool.not_eq_true, List.any_eq_false]
      exact List.find?_eq_none.1 hfind
  | some s =>
      have hs := List.mem_of_find?_eq_some hfind
      have hname := List.find?_some hfind
      refine iff_of_true ?_ (List.any_eq_true.2 ⟨s, hs, hname⟩)
      obtain ⟨e, -, -, rfl⟩ := Config.mem_refs.1 hs
      exact ownRef_ne_empty e

/-! ## Names in use -/

/-- A name is listed under the type of its section. -/
theorem mem_refs_iff_kind (hmem : t.mem "firewall" = some c) (hn : Plain n) (hne : n ≠ "")
    (type : String) : n ∈ c.refs type ↔ t.kind "firewall" n = some type := by
  rw [Config.name_mem_refs_iff hn hne, Tree.kind_of_mem hmem, Option.map_eq_some_iff]

theorem tests_zoneNameOrSectionExists (hn : Plain n) (hne : n ≠ "") :
    Tests zoneNameOrSectionExists n t fun name => zoneNamed t name || sectionNamed t name where
  relays := by
    intro k h _
    unfold zoneNameOrSectionExists
    exact relays_bind (relays_saying relays_getSections) fun _ _ => relays_tree_bind <|
      relays_ite (fun _ => relays_pure _) fun _ =>
        relays_bind (relays_saying relays_getSections) fun _ _ =>
          relays_ite (fun _ => relays_pure _) fun _ =>
            relays_bind (relays_saying relays_getSections) fun _ _ => relays_pure _
  leaves := by
    rintro k h rfl
    obtain ⟨hk, hke⟩ := plain_numbered hn hne k
    revert hk hke
    generalize numbered n k = name
    intro hk hke
    unfold zoneNameOrSectionExists
    rw [leaves_bind, leaves_saying]
    refine leaves_getSections fun c tick hmem => ?_
    rw [leaves_bind, leaves_tree]
    dsimp only
    have hlisted : ∀ type, decide (name ∈ c.refs type) = (h.tree.kind "firewall" name == some type) := by
      intro type
      rw [Bool.eq_iff_iff, decide_eq_true_iff, beq_iff_eq]
      exact mem_refs_iff_kind hmem hk hke type
    have hzones : ((c.refs "zone").any fun s =>
        s == name || (h.tree.get "firewall" s "name").head? == some name)
          = (decide (name ∈ c.refs "zone") || zoneNamed h.tree name) := by
      have hnamed : zoneNamed h.tree name =
          (c.refs "zone").any fun s => (h.tree.get "firewall" s "name").head? == some name := by
        rw [zoneNamed, ← map_refs_zone hmem, List.any_map]
        rfl
      rw [hnamed, Bool.eq_iff_iff]
      simp only [List.any_eq_true, Bool.or_eq_true, beq_iff_eq, decide_eq_true_iff]
      constructor
      · rintro ⟨s, hs, rfl | hname⟩
        · exact .inl hs
        · exact .inr ⟨s, hs, hname⟩
      · rintro (hin | ⟨s, hs, hname⟩)
        · exact ⟨name, hin, .inl rfl⟩
        · exact ⟨s, hs, .inr hname⟩
    have hused : sectionNamed h.tree name = (decide (name ∈ c.refs "zone") ||
        (decide (name ∈ c.refs "forwarding") || decide (name ∈ c.refs "rule"))) := by
      simp only [sectionNamed, List.any_cons, List.any_nil, Bool.or_false, hlisted]
    rw [hzones, hused]
    rw [leaves_ite, leaves_pure]
    refine ⟨fun hyes => ⟨rfl, ?_⟩, fun hno => ?_⟩
    · revert hyes
      cases decide (name ∈ c.refs "zone") <;> cases zoneNamed h.tree name <;> simp
    obtain ⟨hzone, hnamed⟩ := Bool.or_eq_false_iff.1 (Bool.not_eq_true _ ▸ hno)
    rw [hzone, hnamed, leaves_bind, leaves_saying]
    refine leaves_getSections fun c' tick' hmem' => ?_
    obtain rfl : c = c' := Option.some.inj (hmem.symm.trans hmem')
    rw [leaves_ite, leaves_pure]
    refine ⟨fun hyes => ⟨rfl, ?_⟩, fun hno => ?_⟩
    · have hfwd : name ∈ c.refs "forwarding" := by simpa using hyes
      simp [hfwd]
    rw [leaves_bind, leaves_saying]
    refine leaves_getSections fun c' tick'' hmem'' => ?_
    obtain rfl : c = c' := Option.some.inj (hmem.symm.trans hmem'')
    rw [leaves_pure]
    refine ⟨rfl, ?_⟩
    have hfwd : name ∉ c.refs "forwarding" := by simpa using hno
    simp [hfwd]

/-- The names in use are those of the sections and those of the zones. -/
theorem used_mem {k : Nat} (hmem : t.mem "firewall" = some c) (hn : Plain n) (hne : n ≠ "")
    (hused : (zoneNamed t (numbered n k) || sectionNamed t (numbered n k)) = true) :
    numbered n k ∈ c.sections.map Section.name ++ (zones t).map fun z => z.name.head?.getD "" := by
  obtain ⟨hk, hke⟩ := plain_numbered hn hne k
  rw [List.mem_append]
  rcases Bool.or_eq_true_iff.1 hused with hname | hsection
  · right
    obtain ⟨z, hz, hname⟩ := List.any_eq_true.1 hname
    refine List.mem_map.2 ⟨z, hz, ?_⟩
    rw [beq_iff_eq.1 hname]
    rfl
  · left
    obtain ⟨type, -, hkind⟩ := List.any_eq_true.1 hsection
    rw [beq_iff_eq, Tree.kind_of_mem hmem, Option.map_eq_some_iff] at hkind
    obtain ⟨s, hfind, -⟩ := hkind
    obtain ⟨hs, hname⟩ := (Config.find_eq_some_iff hk hke).1 hfind
    exact List.mem_map.2 ⟨s, hs, hname⟩

theorem length_used (hmem : t.mem "firewall" = some c) :
    (c.sections.map Section.name ++ (zones t).map fun z => z.name.head?.getD "").length
      < 2 * sectionCount t "firewall" + 1 := by
  have hzones : (zones t).length ≤ c.sections.length := by
    rw [zones_of_mem hmem, List.length_map]
    exact List.length_filter_le _ _
  have hcount : sectionCount t "firewall" = c.sections.length := by rw [sectionCount, hmem]
  rw [List.length_append, List.length_map, List.length_map, hcount]
  omega

/-! ## A zone for a network -/

theorem relays_getOrCreateZone (hn : Plain n) (hne : n ≠ "") : Relays (getOrCreateZone n) h := by
  unfold getOrCreateZone
  rw [if_neg hne]
  refine relays_then relays_zoneNameFor (leaves_zoneNameFor h) ?_
  rintro r h₁ ⟨htree, -, c, hmem⟩
  rw [← htree] at hmem
  refine relays_ite (fun _ => relays_pure _) fun _ => relays_tree_bind ?_
  dsimp only
  refine relays_bind ?_ fun name h₂ => relays_bind (relays_saying relays_addSection) fun _ _ =>
    relays_bind (relays_forM fun _ _ => relays_setType) fun _ _ => relays_pure _
  refine relays_firstFree (tests_zoneNameOrSectionExists hn hne) (fun k => used_mem hmem hn hne)
    (fun _ hk => absurd hk (Nat.not_lt_zero _)) ?_ rfl
  rw [Nat.zero_add]
  exact length_used hmem

/-- Writes to a section leave it where it stands. -/
theorem leaves_writes_stands {config : String} {a b : List (Nat × Section)} {i : Nat} {s : Section}
    {ws : List (String × String)} (hs : Stands config a i s b h) (href : ownRef (i, s) = r) :
    Leaves (ws.forM fun w => setType config r w.1 [w.2]) h fun _ h' =>
      Stands config a i (s.writes ws) b h' := by
  induction ws generalizing s h with
  | nil => exact (leaves_pure _).2 hs
  | cons w ws ih =>
      show Leaves (setType config r w.1 [w.2] >>= fun _ =>
        ws.forM fun w => setType config r w.1 [w.2]) h _
      rw [leaves_bind]
      exact (leaves_editSection_stands hs href).mono fun _ h' hs' => ih hs' href

/-- A new zone stands behind the others. -/
theorem leaves_addZone (hr : Plain r) (hmem : h.tree.mem "firewall" = some c)
    (hfree : h.tree.kind "firewall" r ≠ some "zone") :
    Leaves (addSection "firewall" r "zone") h fun _ h' =>
      ∃ i, Stands "firewall" c.entries i ⟨"zone", r, ∅⟩ [] h' ∧ c.find r = none := by
  rw [Tree.kind_of_mem hmem] at hfree
  refine leaves_addSection (fun s tick hfind htype => ?_) fun tick hnone => ?_
  · rw [hmem, Option.getD_some] at hfind
    rw [hfind, ← htype] at hfree
    exact absurd rfl hfree
  · rw [hmem, Option.getD_some] at hnone ⊢
    have hself := Config.find_push_self hr (show '[' ∉ "zone".toList by decide) hnone
    rcases Config.entries_push c "zone" r with hsame | ⟨i, hi⟩
    · rw [hsame, hnone] at hself
      cases hself
    · exact ⟨i, ⟨_, Tree.stage_mem _ _ _, hi⟩, hnone⟩

/-- What a zone that stands behind the others adds. -/
theorem zones_of_stands {i : Nat} {s : Section} (hs : Stands "firewall" c.entries i s [] h)
    (htype : s.type = "zone") : zones h.tree = (c.ofType "zone").map zoneOf ++ [zoneOf s] := by
  obtain ⟨c', hmem, hsplit⟩ := hs
  have hsections : c'.sections = c.sections ++ [s] := by
    rw [Config.sections_of_split hsplit, Config.entries_snd c, List.map_nil]
  rw [zones_of_mem hmem, Config.ofType, hsections, List.filter_append, List.map_append]
  simp [Config.ofType, htype]

theorem kind_of_stands {i : Nat} {s : Section} (hs : Stands "firewall" c.entries i s [] h)
    (hmem : t.mem "firewall" = some c) (hm : Plain m) (hother : s.name ≠ m) :
    h.tree.kind "firewall" m = t.kind "firewall" m := by
  obtain ⟨c', hmem', hsplit⟩ := hs
  have hnew : answers m (i, s) = false := by rw [Config.answers_plain hm, decide_eq_false hother]
  rw [Tree.kind_of_mem hmem', Tree.kind_of_mem hmem, Config.find, Config.find, hsplit,
    List.find?_append]
  simp [hnew]

/-- A zone as it is made for a network. -/
def newZone (n r : String) : Section :=
  Section.writes ⟨"zone", r, ∅⟩ [("name", r), ("network", n), ("input", "ACCEPT"),
    ("output", "ACCEPT"), ("forward", "ACCEPT")]

theorem zoneOf_newZone (n r : String) : zoneOf (newZone n r) = ⟨[r], [n]⟩ := by
  rw [zoneOf, newZone, Section.get_writes, Section.get_writes]
  rfl

/-- **What is made** for a network: nothing where a zone with a name holds
it, else a zone of its own, behind the others, under the first name that is
free. -/
theorem leaves_makeZone (hn : Plain n) (hne : n ≠ "") (h : Host) :
    Leaves (getOrCreateZone n) h fun r h' =>
      servingZone h.tree n ≠ "" ∧ r = servingZone h.tree n ∧ h'.tree = h.tree ∨
      servingZone h.tree n = "" ∧ ∃ c k i, h.tree.mem "firewall" = some c ∧ r = numbered n k ∧
        (zoneNamed h.tree r || sectionNamed h.tree r) = false ∧
        (∀ j < k, (zoneNamed h.tree (numbered n j) || sectionNamed h.tree (numbered n j)) = true) ∧
        Stands "firewall" c.entries i (newZone n r) [] h' := by
  unfold getOrCreateZone
  rw [if_neg hne, leaves_bind]
  refine (leaves_zoneNameFor h).mono ?_
  rintro z h₁ ⟨htree, rfl, c, hmem⟩
  rw [← htree] at hmem ⊢
  rw [leaves_ite, leaves_pure]
  refine ⟨fun hserved => .inl ⟨hserved, rfl, rfl⟩, fun hunserved => ?_⟩
  have hunserved := not_not.1 hunserved
  rw [leaves_bind, leaves_tree, leaves_bind]
  refine (leaves_firstFree (tests_zoneNameOrSectionExists hn hne)
    (fun _ hk => absurd hk (Nat.not_lt_zero _)) rfl).mono ?_
  rintro name h₂ ⟨htree₂, k, rfl, hfree, hbefore⟩
  obtain ⟨hk, hke⟩ := plain_numbered hn hne k
  have hkind : h₂.tree.kind "firewall" (numbered n k) ≠ some "zone" := by
    rw [htree₂]
    intro hkind
    rw [Bool.or_eq_false_iff, sectionNamed, List.any_eq_false] at hfree
    exact hfree.2 "zone" (by decide) (beq_iff_eq.2 hkind)
  rw [leaves_bind, leaves_saying]
  refine (leaves_addZone hk (by rw [htree₂]; exact hmem) hkind).mono ?_
  rintro _ h₃ ⟨i, hstands, -⟩
  rw [leaves_bind]
  refine (leaves_writes_stands hstands (Config.ownRef_of_named hke)).mono fun _ h₄ hstands₄ => ?_
  rw [leaves_pure]
  exact .inr ⟨hunserved, c, k, i, hmem, rfl, hfree, hbefore, hstands₄⟩

/-- What is read of what is made. -/
theorem leaves_getOrCreateZone (hn : Plain n) (hne : n ≠ "") (h : Host) :
    Leaves (getOrCreateZone n) h fun _ h' =>
      servingZone h.tree n ≠ "" ∧ h'.tree = h.tree ∨
      servingZone h.tree n = "" ∧ ∃ k,
        (zoneNamed h.tree (numbered n k) || sectionNamed h.tree (numbered n k)) = false ∧
        (∀ j < k, (zoneNamed h.tree (numbered n j) || sectionNamed h.tree (numbered n j)) = true) ∧
        zones h'.tree = zones h.tree ++ [⟨[numbered n k], [n]⟩] ∧
        ∀ m, Plain m → m ≠ numbered n k →
          h'.tree.kind "firewall" m = h.tree.kind "firewall" m := by
  refine (leaves_makeZone hn hne h).mono ?_
  rintro r h' (⟨hserved, -, hsame⟩ | ⟨hunserved, c, k, i, hmem, rfl, hfree, hbefore, hstands⟩)
  · exact .inl ⟨hserved, hsame⟩
  refine .inr ⟨hunserved, k, hfree, hbefore, ?_, fun m hm hother => ?_⟩
  · rw [zones_of_stands hstands (Section.writes_type _ _), ← zones_of_mem hmem, zoneOf_newZone]
  · exact kind_of_stands hstands hmem hm (by rw [newZone, Section.writes_name]; exact hother.symm)

/-- Names with another first letter are never tried. -/
theorem numbered_ne (hne : n ≠ "") (hletter : m.toList.head? ≠ n.toList.head?) (k : Nat) :
    m ≠ numbered n k := by
  rintro rfl
  cases k with
  | zero => exact hletter rfl
  | succ k =>
      rw [numbered, String.toList_append] at hletter
      cases hlist : n.toList with
      | nil => exact hne (String.toList_eq_nil_iff.1 hlist)
      | cons c cs =>
          rw [hlist] at hletter
          exact hletter rfl

/-- **The network's zone bears its name afterwards** exactly where it was
ready to. -/
theorem leaves_zoneNamed (hn : Plain n) (hne : n ≠ "") (h : Host) :
    Leaves (getOrCreateZone n) h fun _ h' => zoneNamed h'.tree n = true ↔ ZoneReady h.tree n := by
  refine (leaves_getOrCreateZone hn hne h).mono ?_
  rintro _ h' (⟨hserved, hsame⟩ | ⟨hunserved, k, hfree, hbefore, hzones, -⟩)
  · rw [hsame, ZoneReady, or_iff_left fun hno => hserved hno.1]
  · have hnamed : zoneNamed h'.tree n = (zoneNamed h.tree n || some (numbered n k) == some n) := by
      rw [zoneNamed, hzones, List.any_append]
      simp [zoneNamed]
    rw [hnamed, ZoneReady, and_iff_right hunserved]
    cases k with
    | zero => exact iff_of_true (by simp [numbered]) (.inr (Bool.or_eq_false_iff.1 hfree).2)
    | succ k =>
        have hother : (some (numbered n (k + 1)) == some n) = false := by
          rw [beq_eq_false_iff_ne, ne_eq, Option.some.injEq]
          exact fun heq => absurd (numbered_injective n (j := 0) heq) (Nat.succ_ne_zero k)
        have hused := hbefore 0 (Nat.succ_pos k)
        rw [hother, Bool.or_false]
        refine ⟨.inl, fun hready => hready.elim id fun hno => ?_⟩
        rwa [show numbered n 0 = n from rfl, hno, Bool.or_false] at hused

/-- What is read of the zones for a network. -/
def zoneView (n : String) (t : Tree) : Bool × String × Option String :=
  (zoneNamed t n, servingZone t n, t.kind "firewall" n)

theorem zoneNamed_of_view {t' : Tree} (h : zoneView n t' = zoneView n t) :
    zoneNamed t' n = zoneNamed t n := congrArg Prod.fst h

theorem zoneReady_congr {t' : Tree} (h : zoneView n t' = zoneView n t) :
    ZoneReady t' n ↔ ZoneReady t n := by
  simp only [zoneView, Prod.mk.injEq] at h
  rw [ZoneReady, ZoneReady, sectionNamed, sectionNamed, h.1, h.2.1, h.2.2]

/-- A zone for another network is not seen. -/
theorem leaves_zoneView (hn : Plain n) (hne : n ≠ "") (hm : Plain m)
    (hletter : m.toList.head? ≠ n.toList.head?) (h : Host) :
    Leaves (getOrCreateZone n) h fun _ h' => zoneView m h'.tree = zoneView m h.tree := by
  refine (leaves_getOrCreateZone hn hne h).mono ?_
  rintro _ h' (⟨-, hsame⟩ | ⟨-, k, -, -, hzones, hkind⟩)
  · rw [hsame]
  · have hname : m ≠ numbered n k := numbered_ne hne hletter k
    have hnetwork : m ≠ n := numbered_ne hne hletter 0
    simp only [zoneView, Prod.mk.injEq]
    refine ⟨?_, ?_, hkind m hm hname⟩
    · rw [zoneNamed, hzones, List.any_append]
      simp [zoneNamed, hname.symm]
    · rw [servingZone, servingZone, hzones, List.find?_append]
      simp [hnetwork]

/-! ## Programs that leave the zones alone -/

section Looks

variable {option ref : String} {values : List String}

/-- What is read of the zones' sections. -/
def zonesBy (v : Section → α) (t : Tree) : List α :=
  match t.mem "firewall" with
  | some c => (c.ofType "zone").map v
  | none => []

theorem zonesBy_of_mem (hmem : t.mem "firewall" = some c) :
    zonesBy v t = (c.ofType "zone").map v := by rw [zonesBy, hmem]

theorem looks_zonesBy_edit (hv : ∀ s, v (s.edit f) = v s) :
    Within (Looks (zonesBy v)) (editSection "firewall" ref f) := by
  refine looks_editSection fun t c hmem _ => ?_
  rw [zonesBy_of_mem hmem, zonesBy_of_mem (Tree.stage_mem _ _ _), Config.ofType, Config.ofType,
    ← Config.entries_snd (c.update ref f), Config.entries_update, ← Config.entries_snd c]
  simp only [List.map_map, List.filter_map]
  have htype : ((fun s : Section => decide (s.type = "zone")) ∘ Prod.snd ∘
      fun e : Nat × Section => (e.1, if answers ref e then e.2.edit f else e.2))
        = (fun s : Section => decide (s.type = "zone")) ∘ Prod.snd := by
    funext e
    simp only [Function.comp_apply]
    split <;> rfl
  rw [htype]
  refine List.map_congr_left fun e _ => ?_
  simp only [Function.comp_apply]
  split
  · exact hv e.2
  · rfl

theorem looks_zonesBy_addSection {name type : String} (htype : type ≠ "zone") :
    Within (Looks (zonesBy v)) (addSection "firewall" name type) := by
  refine looks_addSection fun t _ => ?_
  have hpush : ∀ c : Config, ((c.push type name).ofType "zone") = c.ofType "zone" := by
    intro c
    rcases Config.entries_push c type name with hsame | ⟨i, hi⟩
    · rw [hsame]
    · rw [Config.ofType, Config.ofType, ← Config.entries_snd (c.push type name), hi,
        List.map_append, Config.entries_snd, List.filter_append]
      simp [htype]
  rw [zonesBy_of_mem (Tree.stage_mem _ _ _), hpush]
  cases hmem : t.mem "firewall" with
  | none => rw [zonesBy, hmem]; rfl
  | some c => rw [zonesBy_of_mem hmem]; rfl

theorem looks_zonesBy_setType (hv : ∀ s, v (s.edit fun o => o.insert option values) = v s) :
    Within (Looks (zonesBy v)) (setType "firewall" ref option values) :=
  looks_zonesBy_edit hv

end Looks

/-! ## The firewall's other sections -/

theorem zoneOf_edit (hf : Leaving ["name", "network"] f) (s : Section) : zoneOf (s.edit f) = zoneOf s := by
  rw [zoneOf, zoneOf, hf.get s (o := "name") (by decide), hf.get s (o := "network") (by decide)]

/-- An edit of options the zones are not read for is not seen. -/
theorem looks_zoneView_edit {ref : String} (hf : Leaving ["name", "network"] f) :
    Within (Looks (zoneView n)) (editSection "firewall" ref f) := by
  intro h
  have hzones : zones (final (editSection "firewall" ref f) h).tree = zones h.tree :=
    looks_zonesBy_edit (zoneOf_edit hf) h
  have hkind : (final (editSection "firewall" ref f) h).tree.kind "firewall" n
      = h.tree.kind "firewall" n := looks_kind_editSection h
  show zoneView n _ = zoneView n _
  rw [zoneView, zoneView, zoneNamed, zoneNamed, servingZone, servingZone, hzones, hkind]

/-- The rules go, and with them their names. -/
theorem leaves_removeAllRules (h : Host) :
    Leaves removeAllRules h fun _ h' => zones h'.tree = zones h.tree ∧
      ∀ n, Plain n → n ≠ "" → h'.tree.kind "firewall" n =
        if h.tree.kind "firewall" n = some "rule" then none else h.tree.kind "firewall" n := by
  refine (walks_removeAllRules h).mono ?_
  rintro _ h' ⟨c, hmem, hmem'⟩
  refine ⟨?_, fun n hn hne => ?_⟩
  · -- the zones are listed under addresses of their own, so none is deleted
    have hapart : ∀ ref ∈ (c.refs "rule").reverse, ref ∉ c.refs "zone" := by
      intro ref href hzone
      exact absurd (Config.type_of_mem_refs (List.mem_reverse.1 href) hzone) (by decide)
    rw [zones_of_mem hmem', zones_of_mem hmem, Config.ofType_eq, Config.ofType_eq c,
      Config.entries_walk_of_type hapart]
  · rw [Tree.kind_of_mem hmem', Config.find_walk_all hn hne]
    simp only [List.mem_reverse, mem_refs_iff_kind hmem hn hne]
    split
    · rfl
    · rw [Tree.kind_of_mem hmem]

/-- **The network's zone will bear its name** once the rules are gone. -/
def ZoneFits (t : Tree) (n : String) : Prop :=
  zoneNamed t n = true ∨ servingZone t n = "" ∧
    t.kind "firewall" n ≠ some "zone" ∧ t.kind "firewall" n ≠ some "forwarding"

instance (t : Tree) (n : String) : Decidable (ZoneFits t n) := by
  unfold ZoneFits
  infer_instance

theorem zoneReady_iff_of_rules {t' : Tree} (hzones : zones t' = zones t)
    (hkind : t'.kind "firewall" n =
      if t.kind "firewall" n = some "rule" then none else t.kind "firewall" n) :
    ZoneReady t' n ↔ ZoneFits t n := by
  rw [ZoneReady, ZoneFits, zoneNamed, zoneNamed, servingZone, servingZone, hzones, sectionNamed]
  refine or_congr_right (and_congr_right fun _ => ?_)
  by_cases hrule : t.kind "firewall" n = some "rule"
  · rw [hkind, if_pos hrule, hrule]
    decide
  · rw [hkind, if_neg hrule]
    simp [hrule]

/-! ## What the scenarios do to the zones -/

theorem leaving_zone {option : String} {values : List String} (hname : option ≠ "name")
    (hnetwork : option ≠ "network") : Leaving ["name", "network"] fun o => o.insert option values :=
  leaving_insert (by simp [hname, hnetwork])

/-- **An edit of a zone by its name** needs the name to be there. -/
theorem leaves_onZone {β : Type} {v : Tree → β} {text : String} {m : String → Prog Unit}
    (hm : ∀ r, Within (Looks v) (m r)) (h : Host) :
    Leaves (do
      let r ← zoneSectionByName n
      if r = "" then fail text else m r) h fun _ h' =>
        zoneNamed h.tree n = true ∧ v h'.tree = v h.tree := by
  rw [leaves_bind]
  refine (leaves_zoneSectionByName h).mono ?_
  rintro r h₁ ⟨htree, hfound⟩
  rw [leaves_ite]
  refine ⟨fun _ => leaves_fail.2 trivial, fun hr => ?_⟩
  intro _ h₂ hrun
  have hlook : v h₂.tree = v h₁.tree := (hm r).ok hrun
  exact ⟨hfound.1 hr, by rw [hlook, htree]⟩

theorem leaves_setZoneOption {key value : String} (hname : key ≠ "name") (hnetwork : key ≠ "network")
    (m : String) (h : Host) : Leaves (setZoneOption n key value) h fun _ h' =>
      zoneNamed h.tree n = true ∧ zoneView m h'.tree = zoneView m h.tree := by
  unfold setZoneOption
  rw [leaves_ite]
  refine ⟨fun _ => leaves_fail.2 trivial, fun _ => ?_⟩
  exact leaves_onZone (fun _ => looks_zoneView_edit (leaving_zone hname hnetwork)) h

/-- Networks come and go without the names. -/
theorem zoneNamed_of_names {t' : Tree}
    (h : zonesBy (fun s => s.get "name") t' = zonesBy (fun s => s.get "name") t) :
    zoneNamed t' n = zoneNamed t n := by
  have hnames : ∀ t : Tree, (zones t).map Zone.name = zonesBy (fun s => s.get "name") t := by
    intro t
    rw [zones, zonesBy]
    cases t.mem "firewall" with
    | none => rfl
    | some c => rw [List.map_map]; rfl
  have hnamed : ∀ t : Tree, zoneNamed t n =
      (zonesBy (fun s => s.get "name") t).any fun name => name.head? == some n := by
    intro t
    rw [zoneNamed, ← hnames, List.any_map]
    rfl
  rw [hnamed, hnamed, h]

theorem looks_names_setType {ref option : String} {values : List String} (hname : option ≠ "name") :
    Within (Looks (zonesBy fun s => s.get "name")) (setType "firewall" ref option values) := by
  refine looks_zonesBy_setType fun s => ?_
  have hf : Leaving ["name"] fun o => o.insert option values := leaving_insert (by simp [hname])
  exact hf.get s (by decide)

theorem looks_names_del {ref option : String} (hname : option ≠ "name") :
    Within (Looks (zonesBy fun s => s.get "name")) (del "firewall" ref option) := by
  refine looks_zonesBy_edit fun s => ?_
  have hf : Leaving ["name"] fun o => o.erase option := leaving_erase (by simp [hname])
  exact hf.get s (by decide)

theorem looks_names_zoneSectionByName :
    Within (Looks (zonesBy fun s => s.get "name")) (zoneSectionByName n) :=
  within_bind (within_saying looks_getSections) fun _ => within_bind within_tree fun _ =>
    within_pure _

theorem leaves_appendZoneNetwork {networkName : String} (h : Host) :
    Leaves (appendZoneNetwork n networkName) h fun _ h' => zoneNamed h.tree n = true ∧
      ∀ m, zoneNamed h'.tree m = zoneNamed h.tree m := by
  unfold appendZoneNetwork
  rw [leaves_ite]
  refine ⟨fun _ => leaves_fail.2 trivial, fun _ => ?_⟩
  rw [leaves_ite]
  refine ⟨fun _ => leaves_fail.2 trivial, fun _ => ?_⟩
  have hlook : ∀ r, Within (Looks (zonesBy fun s => s.get "name")) (do
      let existing := (← tree).get "firewall" r "network"
      if networkName ∈ existing then pure ()
      else setType "firewall" r "network" (existing ++ [networkName])) := fun _ =>
    within_bind within_tree fun _ => within_ite (within_pure _) (looks_names_setType (by decide))
  refine (leaves_onZone hlook h).mono fun _ h' hdone => ?_
  exact ⟨hdone.1, fun m => zoneNamed_of_names hdone.2⟩

theorem looks_names_getOrCreateForwarding {src dest name : String} {natOnDest : Bool} :
    Within (Looks (zonesBy fun s => s.get "name")) (getOrCreateForwarding src dest name natOnDest) := by
  have hnat : Within (Looks (zonesBy fun s => s.get "name")) (setDestZoneNATOptions dest natOnDest) :=
    within_bind looks_names_zoneSectionByName fun _ => within_ite (within_pure _) <|
      within_bind (looks_names_setType (by decide)) fun _ =>
        within_ite (looks_names_setType (by decide)) (within_pure _)
  have hoff : ∀ l, Within (Looks (zonesBy fun s => s.get "name"))
      (disableOtherForwardingsFromSrc l src) := fun _ =>
    within_forM fun _ => within_bind within_tree fun _ =>
      within_ite (looks_names_setType (by decide)) (within_pure _)
  refine within_ite within_fail <| within_bind (within_saying looks_getSections) fun sections =>
    within_bind within_tree fun _ => ?_
  split
  · exact within_pure _
  · refine within_bind hnat fun _ => within_bind (hoff _) fun _ => within_bind within_tree fun _ => ?_
    split
    · exact within_bind (within_saying (looks_names_del (by decide))) fun _ => within_pure _
    · exact within_bind (within_saying (looks_zonesBy_addSection (by decide))) fun _ =>
        within_bind (looks_names_setType (by decide)) fun _ =>
          within_bind (looks_names_setType (by decide)) fun _ => within_pure _

end Network

end OpenManet
