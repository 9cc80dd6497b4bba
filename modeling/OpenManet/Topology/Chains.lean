import OpenManet.Topology.Order
/-!
# Aliases of aliases

A MAC is folded onto another twice over. The last vis entry that names it has
it stand for the entry's primary, or for the primary of the last entry that
lists that one as a secondary; then the last host-name group with a primary
that gives way and carries the MAC turns it to the one the group keeps. Neither
looks where the MAC it folds onto is folded itself. So every MAC resolves to a
node exactly where what MACs are folded onto is settled (`aliasesResolved_iff`);
three entries of which each lists the next will do to break it.
-/

namespace OpenManet

namespace Topology

open Table

/-! ## What the inputs say of a MAC -/

/-- The last vis entry that names a MAC, as its primary or as a secondary. -/
def lastNaming (visNodes : List VisNode) (mac : String) : Option VisNode :=
  visNodes.reverse.find? fun v => decide (mac = v.primary ∨ mac ∈ v.secondary)

/-- The primary of the last vis entry that lists a MAC as a secondary. -/
def lastOwner (visNodes : List VisNode) (mac : String) : Option String :=
  (visNodes.reverse.find? fun v => decide (mac ∈ v.secondary)).map (·.primary)

/-- The MAC an entry speaks for: its primary's owner, where that has one. -/
def speaksFor (visNodes : List VisNode) (v : VisNode) : String :=
  (lastOwner visNodes v.primary).getD v.primary

section

variable {M : Type} (R : Runtime M) (F : Metrics M) (S : Snapshot)

/-- What the last host-name group to turn a MAC turns it to. -/
def Snapshot.turnedTo (mac : String) : Option String :=
  if S.visNodes.length < 2 then none
  else
    (R.range .groups "" (groupPrimariesByHostname R S.visNodes
      (macPrimaries R S.visNodes S.origSnap) (originatorsByMac R S.origSnap) S.batHosts
      (S.selfMAC R) S.origSnap.selfHostname)).reverse.findSome? fun e =>
        turns S.visNodes (S.selfMAC R) mac e.2

/-- A MAC that is folded onto no other: the last group to turn it keeps it, or
none turns it and the last entry to name it speaks for it. -/
inductive Snapshot.Settled (mac : String) : Prop where
  | kept (h : S.turnedTo R mac = some mac)
  | unturned (h : S.turnedTo R mac = none)
      (hnaming : ∀ v, lastNaming S.visNodes mac = some v → speaksFor S.visNodes v = mac)

/-- **No chains**: what groups turn MACs to and what entries speak for, where
they have the last word, is settled. -/
structure Snapshot.Unchained : Prop where
  group : ∀ mac kept, S.turnedTo R mac = some kept → S.Settled R kept
  entry : ∀ mac v, S.turnedTo R mac = none → lastNaming S.visNodes mac = some v →
    S.Settled R (speaksFor S.visNodes v)

/-- What resolving a MAC is to come to: nothing is left to resolve, and where
the vis document or the originator table has the MAC, a node is rendered. -/
structure AliasesResolved : Prop where
  idempotent : ∀ mac, resolvePrimary (S.primaryByMac R) (resolvePrimary (S.primaryByMac R) mac) =
    resolvePrimary (S.primaryByMac R) mac
  vis : ∀ v ∈ S.visNodes, ∀ mac ∈ v.primary :: v.secondary,
    ∃ n ∈ (mergeMeshTopology R F S).nodes, n.mac = resolvePrimary (S.primaryByMac R) mac
  originator : ∀ o ∈ S.origSnap.originators, ∃ n ∈ (mergeMeshTopology R F S).nodes,
    n.mac = resolvePrimary (S.primaryByMac R) (R.toLower o.origMAC)

end

/-! ## What a MAC resolves to -/

section Resolve

variable {M : Type} {R : Runtime M} {F : Metrics M} {S : Snapshot}
variable {visNodes : List VisNode} {mac : String}

theorem lookup_secondaryOwners :
    (secondaryOwners visNodes).lookup mac = lastOwner visNodes mac := by
  unfold secondaryOwners lastOwner
  rw [lookup_foldl_last (w := fun v => if mac ∈ v.secondary then some v.primary else none),
    findSome?_ite, AList.lookup_empty, Option.or_none]
  intro m v _
  rw [lookup_foldl_insert]
  split <;> rfl

theorem mem_of_lastNaming {v : VisNode} (h : lastNaming visNodes mac = some v) : v ∈ visNodes :=
  List.mem_reverse.1 (List.mem_of_find?_eq_some h)

/-- An entry speaks for a primary of the document. -/
theorem exists_speaksFor {v : VisNode} (hv : v ∈ visNodes) :
    ∃ w ∈ visNodes, w.primary = speaksFor visNodes v := by
  unfold speaksFor lastOwner
  cases howner : visNodes.reverse.find? fun w => decide (v.primary ∈ w.secondary) with
  | none => exact ⟨v, hv, rfl⟩
  | some w => exact ⟨w, List.mem_reverse.1 (List.mem_of_find?_eq_some howner), rfl⟩

/-- **What the document makes of a MAC** is what the last entry to name it
speaks for. -/
theorem lookup_visPrimaries (hne : ∀ v ∈ visNodes, v.primary ≠ "") :
    (visPrimaries visNodes).lookup mac = (lastNaming visNodes mac).map (speaksFor visNodes) := by
  unfold visPrimaries lastNaming
  rw [lookup_foldl_last (w := fun v =>
      if mac = v.primary ∨ mac ∈ v.secondary then some (speaksFor visNodes v) else none),
    findSome?_ite, AList.lookup_empty, Option.or_none]
  intro m v hv
  have hcanonical : (if (secondaryOwners visNodes).get v.primary ≠ "" then
      (secondaryOwners visNodes).get v.primary else v.primary) = speaksFor visNodes v := by
    rw [Table.get, lookup_secondaryOwners, speaksFor]
    cases howner : lastOwner visNodes v.primary with
    | none => rfl
    | some owner =>
      have hfound : All (fun _ owner => owner ≠ "") (secondaryOwners visNodes) :=
        secondaryOwners_all hne
      exact if_pos (hfound _ owner (lookup_secondaryOwners.trans howner))
  simp only [hcanonical]
  rw [lookup_foldl_insert, lookup_insert_eq]
  by_cases hsec : mac ∈ v.secondary
  · rw [if_pos hsec, if_pos (.inr hsec), Option.some_or]
  · by_cases hprimary : mac = v.primary
    · rw [if_neg hsec, if_pos hprimary, if_pos (.inl hprimary), Option.some_or]
    · rw [if_neg hsec, if_neg hprimary, if_neg (not_or.2 ⟨hprimary, hsec⟩), Option.none_or]

/-- A MAC that comes to stand for itself resolves as before. -/
theorem getD_ensurePrimary {m : Table String} (hm : All (fun _ p => p ≠ "") m) (mac' : String) :
    ((ensurePrimary m mac').lookup mac).getD mac = (m.lookup mac).getD mac := by
  unfold ensurePrimary
  split
  · next hadd =>
    rw [lookup_insert_eq]
    split
    · next hmac =>
      subst hmac
      cases hlookup : m.lookup mac with
      | none => rfl
      | some p =>
        refine absurd ?_ (hm _ p hlookup)
        rw [Table.get, hlookup] at hadd
        exact hadd.2
    · rfl
  · rfl

/-- This node's MAC and the originators' change what no MAC resolves to. -/
theorem getD_macPrimaries (origSnap : OriginatorTopology) (hne : ∀ v ∈ visNodes, v.primary ≠ "") :
    ((macPrimaries R visNodes origSnap).lookup mac).getD mac =
      ((lastNaming visNodes mac).map (speaksFor visNodes)).getD mac := by
  have hvis : All (fun _ p => p ≠ "") (visPrimaries visNodes) := visPrimaries_all hne
  rw [← lookup_visPrimaries hne]
  refine (List.foldlRecOn (motive := fun m : Table String => All (fun _ p => p ≠ "") m ∧
    (m.lookup mac).getD mac = ((visPrimaries visNodes).lookup mac).getD mac) _ _ ⟨?_, ?_⟩
    fun m hm o _ => ⟨?_, ?_⟩).2
  · exact ensurePrimary_all hvis fun h => h
  · exact getD_ensurePrimary hvis _
  · exact ensurePrimary_all hm.1 fun h => h
  · exact (getD_ensurePrimary hm.1 _).trans hm.2

/-- **What the groups make of a MAC** comes before what it was. -/
theorem lookup_primaryByMac :
    (S.primaryByMac R).lookup mac =
      (S.turnedTo R mac).or ((macPrimaries R S.visNodes S.origSnap).lookup mac) := by
  unfold Snapshot.primaryByMac foldHostnameAliases Snapshot.turnedTo
  split
  · rfl
  · exact lookup_foldl_last fun m e _ => lookup_turn

/-- What groups turn MACs to is a primary of the document or this node's
MAC. -/
theorem turnedTo_mem {kept : String} (h : S.turnedTo R mac = some kept) :
    (∃ v ∈ S.visNodes, v.primary = kept) ∨ (kept = S.selfMAC R ∧ kept ≠ "") := by
  unfold Snapshot.turnedTo at h
  obtain ⟨hlong, hturn⟩ := Option.ite_none_left_eq_some.1 h
  obtain ⟨e, he, hkept⟩ := List.exists_of_findSome?_eq_some hturn
  obtain ⟨rfl, p, hp, -, -⟩ := turns_eq_some hkept
  have hentry := (mem_range (k := e.1) (v := e.2) (R.order_perm _ _)).1 (List.mem_reverse.1 he)
  exact groupPrimariesByHostname_all (R := R)
    (Q := fun p => (∃ v ∈ S.visNodes, v.primary = p) ∨ (p = S.selfMAC R ∧ p ≠ ""))
    (fun v hv => .inl ⟨v, hv, rfl⟩) (fun hself => .inr ⟨rfl, hself⟩) _ _ hentry _
    (pickCanonicalPrimary_mem (List.ne_nil_of_mem hp) _)

variable (hne : ∀ v ∈ S.visNodes, v.primary ≠ "")

include hne

theorem primaryByMac_ne_empty : All (fun _ p => p ≠ "") (S.primaryByMac R) :=
  primaryByMac_all S hne id fun _ _ => id

theorem resolvePrimary_eq_getD (mac : String) :
    resolvePrimary (S.primaryByMac R) mac = ((S.primaryByMac R).lookup mac).getD mac := by
  unfold resolvePrimary Table.get
  cases hlookup : (S.primaryByMac R).lookup mac with
  | none => rfl
  | some p => exact if_pos (primaryByMac_ne_empty hne _ p hlookup)

/-- **What a MAC resolves to**: what the last group turns it to, or else what
the last entry to name it speaks for, or else itself. -/
theorem resolvePrimary_primaryByMac (mac : String) :
    resolvePrimary (S.primaryByMac R) mac =
      (S.turnedTo R mac).getD
        (((lastNaming S.visNodes mac).map (speaksFor S.visNodes)).getD mac) := by
  rw [resolvePrimary_eq_getD hne, lookup_primaryByMac, ← getD_macPrimaries (R := R) S.origSnap hne]
  cases S.turnedTo R mac <;> rfl

/-! ## What is settled -/

/-- A MAC is settled where it resolves to itself. -/
theorem settled_iff : S.Settled R mac ↔ resolvePrimary (S.primaryByMac R) mac = mac := by
  rw [resolvePrimary_primaryByMac hne]
  cases hturned : S.turnedTo R mac with
  | some kept =>
    rw [Option.getD_some]
    constructor
    · intro h
      cases h with
      | kept h => exact Option.some.inj (hturned.symm.trans h)
      | unturned h _ => cases hturned.symm.trans h
    · rintro rfl
      exact .kept hturned
  | none =>
    rw [Option.getD_none]
    constructor
    · intro h
      cases h with
      | kept h => cases hturned.symm.trans h
      | unturned _ hnaming =>
        cases hlast : lastNaming S.visNodes mac with
        | none => rfl
        | some v => exact hnaming v hlast
    · refine fun h => .unturned hturned fun v hv => ?_
      rwa [hv, Option.map_some, Option.getD_some] at h

/-- Nothing is left to resolve where there are no chains. -/
theorem idempotent_iff_unchained :
    (∀ mac, resolvePrimary (S.primaryByMac R) (resolvePrimary (S.primaryByMac R) mac) =
      resolvePrimary (S.primaryByMac R) mac) ↔ S.Unchained R := by
  simp only [← settled_iff hne]
  constructor
  · intro h
    refine ⟨fun mac kept hturned => ?_, fun mac v hunturned hlast => ?_⟩
    · have hsettled := h mac
      rwa [resolvePrimary_primaryByMac hne, hturned, Option.getD_some] at hsettled
    · have hsettled := h mac
      rwa [resolvePrimary_primaryByMac hne, hunturned, hlast, Option.getD_none, Option.map_some,
        Option.getD_some] at hsettled
  · intro h mac
    rw [resolvePrimary_primaryByMac hne]
    cases hturned : S.turnedTo R mac with
    | some kept => exact h.group mac kept hturned
    | none =>
      cases hlast : lastNaming S.visNodes mac with
      | some v => exact h.entry mac v hturned hlast
      | none =>
        -- a MAC no input names resolves to itself
        refine .unturned hturned fun v hv => ?_
        rw [Option.map_none, Option.getD_none, Option.getD_none] at hv
        cases hlast.symm.trans hv

/-! ## What is rendered -/

/-- What a MAC of the document resolves to is a primary of the document, or
this node's MAC. -/
theorem resolvePrimary_mem {v : VisNode} (hv : v ∈ S.visNodes)
    (hmac : mac = v.primary ∨ mac ∈ v.secondary) :
    (∃ w ∈ S.visNodes, w.primary = resolvePrimary (S.primaryByMac R) mac) ∨
      (resolvePrimary (S.primaryByMac R) mac = S.selfMAC R ∧ S.selfMAC R ≠ "") := by
  rw [resolvePrimary_primaryByMac hne]
  cases hturned : S.turnedTo R mac with
  | some kept =>
    rcases turnedTo_mem hturned with hprimary | ⟨rfl, hself⟩
    · exact .inl hprimary
    · exact .inr ⟨rfl, hself⟩
  | none =>
    cases hlast : lastNaming S.visNodes mac with
    | some w => exact .inl (exists_speaksFor (mem_of_lastNaming hlast))
    | none =>
      have hnot := List.find?_eq_none.1 hlast v (List.mem_reverse.2 hv)
      exact absurd (decide_eq_true hmac) hnot

/-- A primary of the document that is settled is rendered. -/
theorem exists_node_of_settled {v : VisNode} (hv : v ∈ S.visNodes)
    (hsettled : resolvePrimary (S.primaryByMac R) v.primary = v.primary) :
    ∃ n ∈ S.nodes R F, n.mac = v.primary := by
  have hstanding : (!((S.primaryByMac R).lookup v.primary).any (· ≠ v.primary)) = true := by
    rw [resolvePrimary_eq_getD hne] at hsettled
    cases hlookup : (S.primaryByMac R).lookup v.primary with
    | none => rfl
    | some p =>
      rw [hlookup, Option.getD_some] at hsettled
      simp [hsettled]
  refine exists_mem_nodes.2 (List.mem_append_left _ (List.mem_append_left _ ?_))
  exact List.mem_map.2 ⟨v, List.mem_filter.2 ⟨hv, hstanding⟩, rfl⟩

/-- So is this node's MAC. -/
theorem exists_node_of_settled_self (hself : S.selfMAC R ≠ "")
    (hsettled : resolvePrimary (S.primaryByMac R) (S.selfMAC R) = S.selfMAC R) :
    ∃ n ∈ S.nodes R F, n.mac = S.selfMAC R := by
  have hprimary : S.selfPrimary R = S.selfMAC R := by
    obtain ⟨p, hp⟩ := Option.isSome_iff_exists.1
      (AList.lookup_isSome.2 (selfMAC_mem_primaryByMac S hself))
    rw [resolvePrimary_eq_getD hne, hp] at hsettled
    rw [Snapshot.selfPrimary, Table.get, hp]
    exact hsettled
  refine exists_mem_nodes.2 (List.mem_append_right _ ?_)
  rw [if_pos (by rwa [hprimary]), hprimary]
  exact List.mem_singleton_self _

omit hne in
/-- **What an originator resolves to** is rendered, whatever it is. -/
theorem exists_node_of_originator {o : OriginatorEntry} (ho : o ∈ S.origSnap.originators) :
    ∃ n ∈ S.nodes R F, n.mac = resolvePrimary (S.primaryByMac R) (R.toLower o.origMAC) := by
  have hkey : R.toLower o.origMAC ∈ originatorsByMac R S.origSnap := by
    obtain ⟨l₁, l₂, hl⟩ := List.append_of_mem ho
    unfold originatorsByMac
    rw [hl, List.foldl_append, List.foldl_cons]
    exact mem_foldl ((AList.mem_insert _).2 (.inl rfl)) fun m hm o' _ => mem_insert_of_mem hm _ _
  refine exists_mem_nodes.2 (List.mem_append_left _ (List.mem_append_right _ ?_))
  exact List.mem_map.2 ⟨_, AList.mem_keys.1 hkey, rfl⟩

end Resolve

/-! ## When every MAC resolves to a node -/

/-- **When aliases are resolved**: in every order of the walks, exactly where
there are no chains. -/
theorem aliasesResolved_iff {M : Type} (R : Runtime M) (F : Metrics M) (S : Snapshot)
    (hne : ∀ v ∈ S.visNodes, v.primary ≠ "") : AliasesResolved R F S ↔ S.Unchained R := by
  constructor
  · exact fun h => (idempotent_iff_unchained hne).1 h.idempotent
  · intro h
    have hidempotent := (idempotent_iff_unchained hne).2 h
    refine ⟨hidempotent, fun v hv mac hmac => ?_, fun o ho => exists_node_of_originator ho⟩
    rcases resolvePrimary_mem (R := R) hne hv (List.mem_cons.1 hmac) with
      ⟨w, hw, hprimary⟩ | ⟨hself, hknown⟩
    · rw [← hprimary]
      exact exists_node_of_settled hne hw (by rw [hprimary, hidempotent])
    · rw [hself]
      exact exists_node_of_settled_self hne hknown (by rw [← hself, hidempotent])

/-- Two entries, the first listing a second radio. -/
def twoRadios : Snapshot where
  visDoc := some ⟨[⟨"aa", ["ab"], []⟩, ⟨"bb", [], []⟩], 15⟩
  origSnap := ⟨"aa", "", "BATMAN_V", []⟩
  batHosts := none
  neighborsProvider := none
  gatewayMacs := []

theorem aliasesResolved_iff_twoRadios :
    AliasesResolved (.plain Unit) .unknown twoRadios ↔ twoRadios.Unchained (.plain Unit) :=
  aliasesResolved_iff _ _ _ (by decide)

/-- Three entries, each listing the next one's primary. -/
def threeChained : Snapshot where
  visDoc := some ⟨[⟨"aa", ["bb"], []⟩, ⟨"bb", ["cc"], []⟩, ⟨"cc", [], []⟩], 15⟩
  origSnap := ⟨"aa", "", "BATMAN_V", []⟩
  batHosts := none
  neighborsProvider := none
  gatewayMacs := []

/-- **A chain**: the third resolves to the second, which is rendered nowhere
and resolves to the first. -/
theorem chain_unresolved : ¬ AliasesResolved (.plain Unit) .unknown threeChained := by
  intro h
  have hthird : resolvePrimary (threeChained.primaryByMac (.plain Unit)) "cc" = "bb" := by
    decide +kernel
  have hsecond : resolvePrimary (threeChained.primaryByMac (.plain Unit)) "bb" = "aa" := by
    decide +kernel
  have hsettled := h.idempotent "cc"
  rw [hthird, hsecond] at hsettled
  exact absurd hsettled (by decide)

end Topology

end OpenManet
