import OpenManet.Lib.Loop
import OpenManet.Topology.WellFormed
import Mathlib.Data.String.Basic
/-!
# The order of walks: aliases

The program walks its maps in an order of no significance. This module and
the next ones ask when that shows in the merged topology.

The primaries of one host name become one, and every MAC of theirs is turned
to the one that stays. Which one stays does not depend on the order; but two
groups may turn the same MAC, and the group that comes last has it.
-/

namespace OpenManet

namespace Topology

open Table

variable {M : Type} (R : Runtime M)

/-- **The same runtime**, but for the order of its walks. -/
def Runtime.reordered (order : Site → String → List String → List String)
    (h : ∀ site about keys, (order site about keys).Perm keys) : Runtime M :=
  { R with order := order, order_perm := h }

/-! ## Ties -/

/-- Two primaries of one host name. -/
def SameName (hostnames : Table String) (p q : String) : Prop :=
  ∃ name, hostnames.lookup p = some name ∧ hostnames.lookup q = some name

/-- Another primary of the same name stays: this node's, or one that comes
before it. -/
def GivesWay (hostnames : Table String) (selfMAC p : String) : Prop :=
  p ≠ selfMAC ∧ ∃ q, SameName hostnames p q ∧ (q = selfMAC ∨ q < p)

/-- The MACs that go with a primary: itself and those of its vis entries. -/
def Carries (visNodes : List VisNode) (p mac : String) : Prop :=
  mac = p ∨ ∃ v ∈ visNodes, v.primary = p ∧ mac ∈ v.secondary

instance (visNodes : List VisNode) (p mac : String) : Decidable (Carries visNodes p mac) :=
  inferInstanceAs (Decidable (_ ∨ _))

/-- No MAC goes with two primaries that give way to different ones. -/
def AliasesApart (visNodes : List VisNode) (hostnames : Table String) (selfMAC : String) : Prop :=
  ∀ p p' mac, GivesWay hostnames selfMAC p → GivesWay hostnames selfMAC p' →
    Carries visNodes p mac → Carries visNodes p' mac → SameName hostnames p p'

/-! ## The one that stays -/

section Pick

variable {selfMAC canonical p : String} {group group' : List String}

theorem pickFrom_self (h : selfMAC ∈ group) : pickFrom selfMAC canonical group = selfMAC := by
  induction group generalizing canonical with
  | nil => cases h
  | cons p group ih =>
      unfold pickFrom
      split
      · assumption
      · next hp =>
        have hrest : selfMAC ∈ group := (List.mem_cons.1 h).resolve_left fun heq => hp heq.symm
        split <;> exact ih hrest

theorem pickFrom_le (h : selfMAC ∉ group) (hcanonical : canonical ≠ selfMAC) :
    ∀ q ∈ canonical :: group, pickFrom selfMAC canonical group ≤ q := by
  induction group generalizing canonical with
  | nil =>
      intro q hq
      rw [List.mem_singleton.1 hq]
      exact le_rfl
  | cons p group ih =>
      obtain ⟨hp, hrest⟩ := not_or.1 (List.mem_cons.not.1 h)
      intro q hq
      unfold pickFrom
      rw [if_neg fun heq => hp heq.symm]
      split
      · next hlt =>
        have hle := ih hrest (fun heq => hp heq.symm)
        rcases List.mem_cons.1 hq with rfl | hq
        · exact (hle p List.mem_cons_self).trans hlt.2.le
        · exact hle q hq
      · next hnot =>
        have hle := ih hrest hcanonical
        have hge : canonical ≤ p := not_lt.1 fun hlt => hnot ⟨hcanonical, hlt⟩
        rcases List.mem_cons.1 hq with rfl | hq
        · exact hle q List.mem_cons_self
        · rcases List.mem_cons.1 hq with rfl | hq
          · exact (hle canonical List.mem_cons_self).trans hge
          · exact hle q (List.mem_cons_of_mem canonical hq)

/-- Outside this node's group the first in order stays. -/
theorem pickCanonicalPrimary_le (h : selfMAC ∉ group) :
    ∀ q ∈ group, pickCanonicalPrimary group selfMAC ≤ q := by
  cases group with
  | nil => exact nofun
  | cons p group =>
      obtain ⟨hp, -⟩ := not_or.1 (List.mem_cons.not.1 h)
      exact fun q hq => pickFrom_le h (fun heq => hp heq.symm) q (List.mem_cons_of_mem p hq)

/-- Who is not the one that stays gives way. -/
theorem exists_before_of_ne_pick (hp : p ∈ group) (hne : p ≠ pickCanonicalPrimary group selfMAC) :
    p ≠ selfMAC ∧ ∃ q ∈ group, q = selfMAC ∨ q < p := by
  by_cases hself : selfMAC ∈ group
  · refine ⟨?_, selfMAC, hself, .inl rfl⟩
    rintro rfl
    exact hne (pickFrom_self hself).symm
  · refine ⟨fun heq => hself (heq ▸ hp), pickCanonicalPrimary group selfMAC, ?_, .inr ?_⟩
    · exact pickCanonicalPrimary_mem (List.ne_nil_of_mem hp) selfMAC
    · exact lt_of_le_of_ne (pickCanonicalPrimary_le hself p hp) (Ne.symm hne)

/-- Groups with the same primaries keep the same one. -/
theorem pickCanonicalPrimary_congr (hne : group ≠ []) (hmem : ∀ p, p ∈ group ↔ p ∈ group') :
    pickCanonicalPrimary group selfMAC = pickCanonicalPrimary group' selfMAC := by
  have hin := pickCanonicalPrimary_mem hne selfMAC
  have hne' : group' ≠ [] := List.ne_nil_of_mem ((hmem _).1 hin)
  have hin' := pickCanonicalPrimary_mem hne' selfMAC
  by_cases hself : selfMAC ∈ group
  · rw [pickCanonicalPrimary, pickCanonicalPrimary, pickFrom_self hself,
      pickFrom_self ((hmem selfMAC).1 hself)]
  · have hself' : selfMAC ∉ group' := fun h => hself ((hmem selfMAC).2 h)
    exact le_antisymm (pickCanonicalPrimary_le hself _ ((hmem _).2 hin'))
      (pickCanonicalPrimary_le hself' _ ((hmem _).1 hin))

end Pick

/-! ## What folding writes -/

section Fold

variable {R} {visNodes : List VisNode} {m m' hostnames : Table String}
variable {selfMAC canonical mac name : String} {group : List String}

/-- The primaries of a host name, in the order of a walk. -/
def groupOf (R : Runtime M) (hostnames : Table String) (name : String) : List String :=
  ((R.range .hostnameByPrimary "" hostnames).filter (·.2 = name)).map Prod.fst

theorem mem_groupOf {p : String} :
    p ∈ groupOf R hostnames name ↔ hostnames.lookup p = some name := by
  have hentry : ∀ name', (p, name') ∈ R.range .hostnameByPrimary "" hostnames ↔
      hostnames.lookup p = some name' := fun _ => mem_range (R.order_perm _ _)
  unfold groupOf
  rw [List.mem_map]
  constructor
  · rintro ⟨⟨p', name'⟩, he, rfl⟩
    obtain ⟨hin, hname⟩ := List.mem_filter.1 he
    obtain rfl : name' = name := of_decide_eq_true hname
    exact (hentry name').1 hin
  · exact fun h => ⟨(p, name), List.mem_filter.2 ⟨(hentry name).2 h, by simp⟩, rfl⟩

theorem foldl_group (l : List (String × String)) (o : Option (List String)) :
    l.foldl (fun o e => if e.2 = name then some (o.getD [] ++ [e.1]) else o) o =
      if (l.filter (·.2 = name)).map Prod.fst = [] then o
      else some (o.getD [] ++ (l.filter (·.2 = name)).map Prod.fst) := by
  induction l generalizing o with
  | nil => simp
  | cons e l ih =>
      rw [List.foldl_cons, ih]
      by_cases he : e.2 = name
      · rw [List.filter_cons_of_pos (by simpa using he), List.map_cons, if_neg (List.cons_ne_nil _ _),
          if_pos he]
        split
        · next hl => rw [hl]
        · rw [Option.getD_some, List.append_assoc, List.singleton_append]
      · rw [List.filter_cons_of_neg (by simpa using he), if_neg he]

/-- **The group of a name** is its primaries. -/
theorem lookup_groups {primaryByMac : Table String} {origByMac : Table OriginatorEntry}
    {batHosts : Option BatHosts} {selfHostname : String} :
    (groupPrimariesByHostname R visNodes primaryByMac origByMac batHosts selfMAC
        selfHostname).lookup name =
      if groupOf R (groupingHostnames R visNodes primaryByMac origByMac batHosts selfMAC
        selfHostname) name = [] then none
      else some (groupOf R (groupingHostnames R visNodes primaryByMac origByMac batHosts selfMAC
        selfHostname) name) := by
  unfold groupPrimariesByHostname
  rw [lookup_foldl (g := fun o e => if e.2 = name then some (o.getD [] ++ [e.1]) else o), foldl_group,
    AList.lookup_empty, Option.getD_none, List.nil_append]
  · rfl
  · intro groups e _
    rw [lookup_insert_eq]
    by_cases he : e.2 = name
    · rw [if_pos he, if_pos he.symm, he]
    · rw [if_neg he, if_neg (Ne.symm he)]

theorem lookup_foldl_insert (macs : List String) :
    (macs.foldl (fun m mac => m.insert mac canonical) m).lookup mac =
      if mac ∈ macs then some canonical else m.lookup mac := by
  rw [lookup_foldl_const (fun mac' => mac = mac') canonical
    fun m mac' _ => lookup_insert_eq m mac' mac canonical]
  simp

/-- Every MAC that goes with a primary that gives way is turned. -/
theorem lookup_applyCanonicalPrimary :
    (applyCanonicalPrimary visNodes m group canonical).lookup mac =
      if ∃ p ∈ group, p ≠ canonical ∧ Carries visNodes p mac then some canonical
      else m.lookup mac := by
  unfold applyCanonicalPrimary
  refine lookup_foldl_const (fun p => p ≠ canonical ∧ Carries visNodes p mac) canonical
    fun m p _ => ?_
  by_cases hp : p = canonical
  · simp [hp]
  · rw [if_neg hp, lookup_foldl_const (fun v => mac ∈ v.secondary) canonical
      fun m v _ => lookup_foldl_insert v.secondary, lookup_insert_eq]
    simp only [ne_eq, hp, not_false_eq_true, true_and, Carries, List.mem_filter, decide_eq_true_eq,
      and_assoc]
    by_cases hmac : mac = p
    · simp [hmac]
    · simp [hmac]

/-- What a group's turn writes under a MAC. -/
def turns (visNodes : List VisNode) (selfMAC mac : String) (group : List String) : Option String :=
  if ∃ p ∈ group, p ≠ pickCanonicalPrimary group selfMAC ∧ Carries visNodes p mac then
    some (pickCanonicalPrimary group selfMAC)
  else none

theorem turns_eq_some {v : String} (h : turns visNodes selfMAC mac group = some v) :
    v = pickCanonicalPrimary group selfMAC ∧
      ∃ p ∈ group, p ≠ pickCanonicalPrimary group selfMAC ∧ Carries visNodes p mac := by
  obtain ⟨hp, heq⟩ := Option.ite_none_right_eq_some.1 h
  exact ⟨(Option.some.inj heq).symm, hp⟩

theorem lookup_turn :
    (if group.length < 2 then m
      else applyCanonicalPrimary visNodes m group (pickCanonicalPrimary group selfMAC)).lookup mac =
      (turns visNodes selfMAC mac group).or (m.lookup mac) := by
  unfold turns
  split
  · next hshort =>
    rw [if_neg, Option.none_or]
    -- a group of one keeps the one it has
    rintro ⟨p, hp, hne, -⟩
    have hpick := pickCanonicalPrimary_mem (List.ne_nil_of_mem hp) selfMAC
    obtain ⟨q, rfl⟩ : ∃ q, group = [q] := by
      refine List.length_eq_one_iff.1 ?_
      have hpos := List.length_pos_of_mem hp
      omega
    exact hne ((List.mem_singleton.1 hp).trans (List.mem_singleton.1 hpick).symm)
  · rw [lookup_applyCanonicalPrimary]
    split
    · rfl
    · rfl

end Fold

section Folded

variable {R} {visNodes : List VisNode} {primaryByMac : Table String}
variable {origByMac : Table OriginatorEntry} {batHosts : Option BatHosts}
variable {selfMAC selfHostname p name mac : String} {hostnames : Table String}
variable (hnames : groupingHostnames R visNodes primaryByMac origByMac batHosts selfMAC
  selfHostname = hostnames)

include hnames

/-- An entry of the table of groups. -/
theorem mem_range_groups {e : String × List String}
    (h : e ∈ R.range .groups "" (groupPrimariesByHostname R visNodes primaryByMac origByMac batHosts
      selfMAC selfHostname)) : e.2 = groupOf R hostnames e.1 := by
  have hlookup := (mem_range (k := e.1) (v := e.2) (R.order_perm _ _)).1 h
  rw [lookup_groups, hnames] at hlookup
  exact (Option.some.inj (Option.ite_none_left_eq_some.1 hlookup).2).symm

omit hnames in
/-- Who is not the one that stays in its group gives way. -/
theorem givesWay_of_ne_pick (hp : hostnames.lookup p = some name)
    (hne : p ≠ pickCanonicalPrimary (groupOf R hostnames name) selfMAC) :
    GivesWay hostnames selfMAC p := by
  obtain ⟨hself, q, hq, hbefore⟩ := exists_before_of_ne_pick (mem_groupOf.2 hp) hne
  exact ⟨hself, q, ⟨name, hp, mem_groupOf.1 hq⟩, hbefore⟩

/-- **A MAC is turned** to the one that stays where it went with one that
gives way. -/
theorem lookup_foldHostnameAliases_of_turned (hlong : ¬ visNodes.length < 2)
    (hapart : AliasesApart visNodes hostnames selfMAC) (hp : hostnames.lookup p = some name)
    (hne : p ≠ pickCanonicalPrimary (groupOf R hostnames name) selfMAC)
    (hcarries : Carries visNodes p mac) :
    (foldHostnameAliases R visNodes primaryByMac origByMac batHosts selfMAC selfHostname).lookup mac
      = some (pickCanonicalPrimary (groupOf R hostnames name) selfMAC) := by
  unfold foldHostnameAliases
  rw [if_neg hlong]
  have hin := (mem_groupOf (R := R)).2 hp
  refine lookup_foldl_of_writes (w := fun e => turns visNodes selfMAC mac e.2)
    (fun m e _ => lookup_turn) (fun e he v hv => ?_) ⟨(name, groupOf R hostnames name), ?_, ?_⟩
  · obtain ⟨rfl, p', hp', hne', hcarries'⟩ := turns_eq_some hv
    rw [mem_range_groups hnames he] at hp' hne' ⊢
    obtain ⟨name', hname, hname'⟩ := hapart p p' mac (givesWay_of_ne_pick hp hne)
      (givesWay_of_ne_pick (mem_groupOf.1 hp') hne') hcarries hcarries'
    obtain rfl : name = name' := Option.some.inj (hp.symm.trans hname)
    have hsame : e.1 = name := Option.some.inj ((mem_groupOf.1 hp').symm.trans hname')
    rw [hsame]
  · refine (mem_range (R.order_perm _ _)).2 ?_
    rw [lookup_groups, hnames, if_neg (List.ne_nil_of_mem hin)]
  · exact if_pos ⟨p, hin, hne, hcarries⟩

/-- And stays where it is where it went with none. -/
theorem lookup_foldHostnameAliases_of_kept
    (h : ∀ p name, hostnames.lookup p = some name →
      p ≠ pickCanonicalPrimary (groupOf R hostnames name) selfMAC → ¬ Carries visNodes p mac) :
    (foldHostnameAliases R visNodes primaryByMac origByMac batHosts selfMAC selfHostname).lookup mac
      = primaryByMac.lookup mac := by
  unfold foldHostnameAliases
  split
  · rfl
  · refine lookup_foldl_of_silent (w := fun e => turns visNodes selfMAC mac e.2)
      (fun m e _ => lookup_turn) fun e he => if_neg ?_
    rintro ⟨p, hp, hne, hcarries⟩
    rw [mem_range_groups hnames he] at hp hne
    exact h p e.1 (mem_groupOf.1 hp) hne hcarries

/-- **Folding aliases** comes to the same in every order, where no MAC goes
with two primaries that give way to different ones. -/
theorem foldHostnameAliases_same (hapart : AliasesApart visNodes hostnames selfMAC)
    {order : Site → String → List String → List String}
    (horder : ∀ site about keys, (order site about keys).Perm keys) :
    Same (foldHostnameAliases (R.reordered order horder) visNodes primaryByMac origByMac batHosts
        selfMAC selfHostname)
      (foldHostnameAliases R visNodes primaryByMac origByMac batHosts selfMAC selfHostname) := by
  intro mac
  by_cases hshort : visNodes.length < 2
  · unfold foldHostnameAliases
    rw [if_pos hshort, if_pos hshort]
  have hnames' : groupingHostnames (R.reordered order horder) visNodes primaryByMac origByMac
      batHosts selfMAC selfHostname = hostnames := hnames
  have hpick : ∀ {p name}, hostnames.lookup p = some name →
      pickCanonicalPrimary (groupOf (R.reordered order horder) hostnames name) selfMAC =
        pickCanonicalPrimary (groupOf R hostnames name) selfMAC := fun hp =>
    pickCanonicalPrimary_congr (List.ne_nil_of_mem (mem_groupOf.2 hp)) fun _ =>
      mem_groupOf.trans mem_groupOf.symm
  by_cases h : ∃ p name, hostnames.lookup p = some name ∧
      p ≠ pickCanonicalPrimary (groupOf R hostnames name) selfMAC ∧ Carries visNodes p mac
  · obtain ⟨p, name, hp, hne, hcarries⟩ := h
    rw [lookup_foldHostnameAliases_of_turned hnames hshort hapart hp hne hcarries, ← hpick hp]
    exact lookup_foldHostnameAliases_of_turned hnames' hshort hapart hp (by rwa [hpick hp]) hcarries
  · have hkept : ∀ p name, hostnames.lookup p = some name →
        p ≠ pickCanonicalPrimary (groupOf R hostnames name) selfMAC → ¬ Carries visNodes p mac :=
      fun p name hp hne hcarries => h ⟨p, name, hp, hne, hcarries⟩
    rw [lookup_foldHostnameAliases_of_kept hnames hkept]
    exact lookup_foldHostnameAliases_of_kept hnames' fun p name hp hne =>
      hkept p name hp (by rwa [hpick hp] at hne)

end Folded

end Topology

end OpenManet
