import OpenManet.Topology.Order
/-!
# Gateways that are flagged

A remote primary's redirect goes to the local end with the best metric, and is
dropped where that end is no gateway. The filter comes after the maximum: an
end that is no gateway and has the better metric takes the redirect from a
gateway, and then nobody has it. So the redirects go to the best of the
gateways, in every order of the walks, exactly where each remote primary with
a gateway among its ends keeps none but gateways (`flagged_iff`).
-/

namespace OpenManet

namespace Topology

open Table

variable {M : Type} {R : Runtime M} {F : Metrics M} {value : M → ℚ} {gossip : GossipView M}
variable {segments : Table Segment} {selfPrimary r : String} {gwMacs gossipGwMacs : List String}

/-! ## What a redirect has to be -/

/-- A gateway, by one evidence or the other. -/
def Flagged (gwMacs gossipGwMacs : List String) (near : String) : Prop :=
  near ∈ gwMacs ∨ near ∈ gossipGwMacs

/-- A local end of a link with a remote primary, claimed by either, and the
metric claimed. -/
def End (gossip : GossipView M) (segments : Table Segment) (selfPrimary r : String)
    (e : String × M) : Prop :=
  NearEnd gossip segments selfPrimary r e ∨ RemoteEnd gossip segments selfPrimary r e

/-- **The best gateway for each remote primary**: it has a redirect exactly
where one of its ends is a gateway, and then to one with a metric none of them
betters. -/
def BestFlagged (value : M → ℚ) (gossip : GossipView M) (segments : Table Segment)
    (selfPrimary : String) (gwMacs gossipGwMacs : List String) (redirects : Table String) : Prop :=
  ∀ r, ((redirects.lookup r).isSome ↔
      ∃ e, End gossip segments selfPrimary r e ∧ Flagged gwMacs gossipGwMacs e.1) ∧
    ∀ near, redirects.lookup r = some near → Flagged gwMacs gossipGwMacs near ∧
      ∃ x, End gossip segments selfPrimary r (near, x) ∧
        ∀ e, End gossip segments selfPrimary r e → Flagged gwMacs gossipGwMacs e.1 →
          value e.2 ≤ value x

/-- Each remote primary with a gateway among its ends keeps none but gateways:
the best of those it claims, or else of those that claim it, are gateways. -/
def KeepsFlagged (value : M → ℚ) (gossip : GossipView M) (segments : Table Segment)
    (selfPrimary : String) (gwMacs gossipGwMacs : List String) : Prop :=
  ∀ r, (∃ e, End gossip segments selfPrimary r e ∧ Flagged gwMacs gossipGwMacs e.1) →
    ∀ e, Kept value gossip segments selfPrimary r (some e) → Flagged gwMacs gossipGwMacs e.1

/-! ## The filter -/

/-- **A redirect** is what was kept, where that is a gateway. -/
theorem lookup_redirect (hflags : ¬(gwMacs = [] ∧ gossipGwMacs = [])) (near : String) :
    (localBlosGatewayByRemote R F gossip segments gwMacs gossipGwMacs selfPrimary).lookup r =
        some near ↔
      (endsKept R F gossip segments selfPrimary).1.lookup r = some near ∧
        Flagged gwMacs gossipGwMacs near := by
  have hnot : ¬(gwMacs.isEmpty ∧ gossipGwMacs.isEmpty) := by
    simpa [List.isEmpty_iff] using hflags
  rw [localBlosGatewayByRemote_eq, if_neg hnot, lookup_foldl_erase (fun remote =>
    (endsKept R F gossip segments selfPrimary).1.get remote ∈ gwMacs ∨
      (endsKept R F gossip segments selfPrimary).1.get remote ∈ gossipGwMacs)]
  generalize (endsKept R F gossip segments selfPrimary).1 = ends
  have hget : ∀ near, ends.lookup r = some near → ends.get r = near := by
    intro near h
    rw [Table.get, h, Option.getD_some]
  constructor
  · intro h
    obtain ⟨hkept, hlookup⟩ := Option.ite_none_left_eq_some.1 h
    have hmem : r ∈ ends.keys := AList.mem_keys.1 (AList.lookup_isSome.1 (by rw [hlookup]; rfl))
    refine ⟨hlookup, ?_⟩
    have hflagged := not_not.1 fun hno => hkept ⟨hmem, hno⟩
    rwa [hget near hlookup] at hflagged
  · rintro ⟨hlookup, hflagged⟩
    rw [if_neg, hlookup]
    rintro ⟨-, hno⟩
    rw [hget near hlookup] at hno
    exact hno hflagged

/-! ## Where only gateways are kept -/

theorem Kept.isEnd {e : String × M} (h : Kept value gossip segments selfPrimary r (some e)) :
    End gossip segments selfPrimary r e := by
  cases h with
  | remote he _ _ => exact .inr he
  | near he _ _ => exact .inl he

/-- No end is better than the one kept. -/
theorem Kept.le {e e' : String × M} (h : Kept value gossip segments selfPrimary r (some e))
    (he' : End gossip segments selfPrimary r e') : value e'.2 ≤ value e.2 := by
  cases h with
  | remote _ hnear hremote => exact he'.elim (hnear e') (hremote e')
  | near _ hnear hremote => exact he'.elim (hnear e') fun h => (hremote e' h).le

/-- The redirects of one run go to the best gateways where only gateways are
kept. -/
theorem bestFlagged_of_keepsFlagged (hworth : F.Worth value) (hgossip : gossip.Gossiped F)
    (hflags : ¬(gwMacs = [] ∧ gossipGwMacs = []))
    (hkeeps : KeepsFlagged value gossip segments selfPrimary gwMacs gossipGwMacs) :
    BestFlagged value gossip segments selfPrimary gwMacs gossipGwMacs
      (localBlosGatewayByRemote R F gossip segments gwMacs gossipGwMacs selfPrimary) := by
  intro r
  obtain ⟨o, hkept, hlookup⟩ := endsKept_kept segments selfPrimary (R := R) hworth hgossip r
  have hredirect : ∀ near, (localBlosGatewayByRemote R F gossip segments gwMacs gossipGwMacs
      selfPrimary).lookup r = some near → ∃ e, Kept value gossip segments selfPrimary r (some e) ∧
        e.1 = near ∧ Flagged gwMacs gossipGwMacs near := by
    intro near h
    obtain ⟨hnear, hflagged⟩ := (lookup_redirect hflags near).1 h
    rw [hlookup] at hnear
    obtain ⟨e, rfl, rfl⟩ := Option.map_eq_some_iff.1 hnear
    exact ⟨e, hkept, rfl, hflagged⟩
  refine ⟨⟨fun hsome => ?_, fun hends => ?_⟩, fun near h => ?_⟩
  · obtain ⟨near, hnear⟩ := Option.isSome_iff_exists.1 hsome
    obtain ⟨e, hkept, rfl, hflagged⟩ := hredirect near hnear
    exact ⟨e, hkept.isEnd, hflagged⟩
  · cases hkept with
    | none hnear hremote =>
      obtain ⟨e, he, -⟩ := hends
      exact absurd he (not_or.2 ⟨hnear e, hremote e⟩)
    | @remote e he hnear hremote =>
      have hflagged := hkeeps r hends e (.remote he hnear hremote)
      rw [(lookup_redirect hflags e.1).2 ⟨hlookup, hflagged⟩]
      rfl
    | @near e he hnear hremote =>
      have hflagged := hkeeps r hends e (.near he hnear hremote)
      rw [(lookup_redirect hflags e.1).2 ⟨hlookup, hflagged⟩]
      rfl
  · obtain ⟨e, hkept, rfl, hflagged⟩ := hredirect near h
    exact ⟨hflagged, e.2, hkept.isEnd, fun e' he' _ => hkept.le he'⟩

/-! ## Every end that may be kept is kept in some order -/

/-- A walk with a key last. -/
def lastly (k : String) (keys : List String) : List String :=
  if k ∈ keys then keys.erase k ++ [k] else keys

theorem lastly_perm (k : String) (keys : List String) : (lastly k keys).Perm keys := by
  unfold lastly
  split
  · next hk => exact (List.perm_append_singleton k _).trans (List.perm_cons_erase hk).symm
  · exact .refl keys

/-- Walks that read a claim after all others. -/
def claimLast (near remote : String) : Site → String → List String → List String
  | .blosLocal, _, keys => lastly near keys
  | .blosLocalNeighbors, _, keys => lastly remote keys
  | .blosRemote, _, keys => lastly remote keys
  | .blosRemoteNeighbors, _, keys => lastly near keys
  | _, _, keys => keys

theorem claimLast_perm (near remote : String) (site : Site) (about : String) (keys : List String) :
    (claimLast near remote site about keys).Perm keys := by
  cases site <;> first | exact lastly_perm _ _ | exact .refl keys

theorem range_lastly {α : Type} {m : Table α} {k : String} {v : α} (h : m.lookup k = some v) :
    ∃ l, m.range (lastly k) = l ++ [(k, v)] := by
  have hmem : k ∈ m.keys := AList.mem_keys.1 (AList.lookup_isSome.1 (by rw [h]; rfl))
  refine ⟨(m.keys.erase k).filterMap fun k => (m.lookup k).map (k, ·), ?_⟩
  rw [Table.range, lastly, if_pos hmem, List.filterMap_append]
  simp [h]

/-- A claim read after all others. -/
theorem claims_last {outer inner : Site} {m : Table (Table M)} {a b : String} {set : Table M} {x : M}
    {order : Site → String → List String → List String}
    {horder : ∀ site about keys, (order site about keys).Perm keys}
    (houter : order outer "" = lastly a) (hinner : order inner a = lastly b)
    (ha : m.lookup a = some set) (hb : set.lookup b = some x) :
    ∃ l, claims (R.reordered order horder) outer inner m = l ++ [(a, b, x)] := by
  obtain ⟨before, hbefore⟩ := range_lastly ha
  obtain ⟨before', hbefore'⟩ := range_lastly hb
  have houter' : (R.reordered order horder).range outer "" m = before ++ [(a, set)] := by
    rw [Runtime.range]
    exact (congrArg (m.range ·) houter).trans hbefore
  have hinner' : (R.reordered order horder).range inner a set = before' ++ [(b, x)] := by
    rw [Runtime.range]
    exact (congrArg (set.range ·) hinner).trans hbefore'
  refine ⟨(before.flatMap fun e => ((R.reordered order horder).range inner e.1 e.2).map
    fun n => (e.1, n.1, n.2)) ++ before'.map fun n => (a, n.1, n.2), ?_⟩
  rw [claims, houter', List.flatMap_append, List.flatMap_singleton, hinner', List.map_append,
    List.append_assoc]
  rfl

/-- The end read last is kept where none is better. -/
theorem foldl_keepEnd_last {kept : Option (String × M)} {es : List (String × M)} {e : String × M}
    (hworth : F.Worth value) (hkept : ∀ p, kept = some p → F.Gossiped p.2)
    (hes : ∀ e' ∈ es ++ [e], F.Gossiped e'.2) (hmax : ∀ e' ∈ es, value e'.2 ≤ value e.2)
    (hprior : ∀ p, kept = some p → value p.2 ≤ value e.2) :
    (es ++ [e]).foldl (keepEnd F) kept = some e := by
  have hes' : ∀ e' ∈ es, F.Gossiped e'.2 := fun e' he' => hes e' (List.mem_append_left _ he')
  have he : F.Gossiped e.2 := hes e (by simp)
  rw [List.foldl_append, List.foldl_cons, List.foldl_nil]
  -- what is kept before it is one of those read, or what was kept at first
  have hbefore : ∀ p, es.foldl (keepEnd F) kept = some p →
      F.Gossiped p.2 ∧ value p.2 ≤ value e.2 := by
    intro p hp
    rcases foldl_keepEnd hworth hkept hes' with ⟨e', he', hrun, -⟩ | ⟨hrun, -⟩
    · obtain rfl := Option.some.inj (hrun.symm.trans hp)
      exact ⟨hes' e' he', hmax e' he'⟩
    · exact ⟨hkept p (hrun.symm.trans hp), hprior p (hrun.symm.trans hp)⟩
  rcases keepEnd_cases hworth (fun p hp => (hbefore p hp).1) he with ⟨hnew, -⟩ | ⟨p, hp, -, hlt⟩
  · exact hnew
  · exact absurd (hbefore p hp).2 (not_le.2 hlt)

/-- An end that is claimed is the last of the ends when its claim is. -/
theorem exists_endsIn_near {e : String × M} (he : NearEnd gossip segments selfPrimary r e) :
    ∃ es, endsIn segments selfPrimary r Prod.fst (fun c => c.2.1)
      (claims (R.reordered (claimLast e.1 r) (claimLast_perm e.1 r)) .blosLocal .blosLocalNeighbors
        gossip.blosByPrimary) = es ++ [e] := by
  obtain ⟨set, hset, hx⟩ := mem_claims.1 (mem_claims_iff.2 he.2 :
    (e.1, r, e.2) ∈ claims R .blosLocal .blosLocalNeighbors gossip.blosByPrimary)
  obtain ⟨l, hl⟩ : ∃ l, claims (R.reordered (claimLast e.1 r) (claimLast_perm e.1 r)) .blosLocal
      .blosLocalNeighbors gossip.blosByPrimary = l ++ [(e.1, r, e.2)] :=
    claims_last rfl rfl hset hx
  refine ⟨endsIn segments selfPrimary r Prod.fst (fun c => c.2.1) l, ?_⟩
  rw [hl]
  simp [endsIn, he.1]

theorem exists_endsIn_remote {e : String × M} (he : RemoteEnd gossip segments selfPrimary r e) :
    ∃ es, endsIn segments selfPrimary r (fun c => c.2.1) Prod.fst
      (claims (R.reordered (claimLast e.1 r) (claimLast_perm e.1 r)) .blosRemote
        .blosRemoteNeighbors gossip.blosByPrimary) = es ++ [e] := by
  obtain ⟨set, hset, hx⟩ := mem_claims.1 (mem_claims_iff.2 he.2 :
    (r, e.1, e.2) ∈ claims R .blosRemote .blosRemoteNeighbors gossip.blosByPrimary)
  obtain ⟨l, hl⟩ : ∃ l, claims (R.reordered (claimLast e.1 r) (claimLast_perm e.1 r)) .blosRemote
      .blosRemoteNeighbors gossip.blosByPrimary = l ++ [(r, e.1, e.2)] :=
    claims_last rfl rfl hset hx
  refine ⟨endsIn segments selfPrimary r (fun c => c.2.1) Prod.fst l, ?_⟩
  rw [hl]
  simp [endsIn, he.1]

/-- **An end that may be kept is kept** when its claim is read last. -/
theorem Kept.realized {e : String × M} (hworth : F.Worth value) (hgossip : gossip.Gossiped F)
    (h : Kept value gossip segments selfPrimary r (some e)) :
    (endsKept (R.reordered (claimLast e.1 r) (claimLast_perm e.1 r)) F gossip segments
      selfPrimary).1.lookup r = some e.1 := by
  rw [lookup_endsKept segments selfPrimary hworth hgossip r]
  have hnone : ∀ p : String × M, (Option.none : Option (String × M)) = some p → F.Gossiped p.2 :=
    nofun
  have hends := endsIn_gossiped (R.reordered (claimLast e.1 r) (claimLast_perm e.1 r)) segments
    selfPrimary r hgossip
  have hnear : ∀ p ∈ endsIn segments selfPrimary r Prod.fst (fun c => c.2.1)
      (claims (R.reordered (claimLast e.1 r) (claimLast_perm e.1 r)) .blosLocal .blosLocalNeighbors
        gossip.blosByPrimary), value p.2 ≤ value e.2 :=
    fun p hp => h.le (.inl ((mem_endsIn_near _ _).1 hp))
  have hremote : ∀ p ∈ endsIn segments selfPrimary r (fun c => c.2.1) Prod.fst
      (claims (R.reordered (claimLast e.1 r) (claimLast_perm e.1 r)) .blosRemote
        .blosRemoteNeighbors gossip.blosByPrimary), RemoteEnd gossip segments selfPrimary r p :=
    fun p hp => (mem_endsIn_remote _ _).1 hp
  have hnearGossiped := hends Prod.fst (fun c => c.2.1) .blosLocal .blosLocalNeighbors
  have hremoteGossiped := hends (fun c => c.2.1) Prod.fst .blosRemote .blosRemoteNeighbors
  cases h with
  | remote he _ hbest =>
    obtain ⟨es, hes⟩ := exists_endsIn_remote (R := R) he
    rw [hes] at hremote hremoteGossiped ⊢
    -- what the first pass keeps is one of the ends near here
    have hprior : ∀ p, (endsIn segments selfPrimary r Prod.fst (fun c => c.2.1)
        (claims (R.reordered (claimLast e.1 r) (claimLast_perm e.1 r)) .blosLocal
          .blosLocalNeighbors gossip.blosByPrimary)).foldl (keepEnd F) .none = some p →
        F.Gossiped p.2 ∧ value p.2 ≤ value e.2 := by
      intro p hp
      rcases foldl_keepEnd hworth hnone hnearGossiped with ⟨e', he', hrun, -⟩ | ⟨hrun, -⟩
      · obtain rfl := Option.some.inj (hrun.symm.trans hp)
        exact ⟨hnearGossiped e' he', hnear e' he'⟩
      · cases hrun.symm.trans hp
    rw [foldl_keepEnd_last hworth (fun p hp => (hprior p hp).1) hremoteGossiped
      (fun p hp => hbest p (hremote p (List.mem_append_left _ hp))) fun p hp => (hprior p hp).2]
    rfl
  | near he hbest hworse =>
    obtain ⟨es, hes⟩ := exists_endsIn_near (R := R) he
    rw [hes] at hnear hnearGossiped ⊢
    rw [foldl_keepEnd_last hworth hnone hnearGossiped
      (fun p hp => hnear p (List.mem_append_left _ hp)) nofun]
    -- the remote primary claims none as good
    have hprior : ∀ p, some e = some p → F.Gossiped p.2 :=
      fun p hp => Option.some.inj hp ▸ hnearGossiped e (by simp)
    rcases foldl_keepEnd hworth hprior hremoteGossiped with
      ⟨e', he', -, -, hle⟩ | ⟨hrun, -⟩
    · exact absurd (hle e rfl) (not_le.2 (hworse e' (hremote e' he')))
    · rw [hrun]
      rfl

/-! ## When the redirects are right -/

/-- **When the redirects go to the best gateways.** In every order of the
walks, exactly where each remote primary with a gateway among its ends keeps
none but gateways. -/
theorem flagged_iff (R : Runtime M) (segments : Table Segment) (selfPrimary : String)
    (hworth : F.Worth value) (hgossip : gossip.Gossiped F)
    (hflags : ¬(gwMacs = [] ∧ gossipGwMacs = [])) :
    (∀ (order : Site → String → List String → List String)
        (horder : ∀ site about keys, (order site about keys).Perm keys),
      BestFlagged value gossip segments selfPrimary gwMacs gossipGwMacs
        (localBlosGatewayByRemote (R.reordered order horder) F gossip segments gwMacs gossipGwMacs
          selfPrimary)) ↔
      KeepsFlagged value gossip segments selfPrimary gwMacs gossipGwMacs := by
  constructor
  · intro h r hends e hkept
    -- in the order that keeps it, the redirect is dropped unless it is a gateway
    have hrun := hkept.realized (R := R) hworth hgossip
    have hsome := ((h (claimLast e.1 r) (claimLast_perm e.1 r)) r).1.2 hends
    obtain ⟨near, hnear⟩ := Option.isSome_iff_exists.1 hsome
    obtain ⟨hlookup, hflagged⟩ := (lookup_redirect hflags near).1 hnear
    obtain rfl := Option.some.inj (hrun.symm.trans hlookup)
    exact hflagged
  · intro hkeeps order horder
    exact bestFlagged_of_keepsFlagged hworth hgossip hflags hkeeps

/-- A remote node whose record claims two local ends, the second with twice
the throughput of the first. -/
def twoEnds : Snapshot where
  visDoc := some ⟨[⟨"aa", [], []⟩, ⟨"bb", [], []⟩, ⟨"cc", [], []⟩, ⟨"dd", [], []⟩], 15⟩
  origSnap := ⟨"aa", "", "BATMAN_V", []⟩
  batHosts := none
  neighborsProvider := some
    { lookup mac :=
        if mac = "dd" then some ⟨some ⟨15, [⟨"bb", blosIfname, true, 10000, 0⟩,
          ⟨"cc", blosIfname, true, 20000, 0⟩], [], none⟩⟩
        else none
      lookupByHostname _ := none }
  gatewayMacs := ["bb"]

theorem flagged_iff_twoEnds :
    (∀ (order : Site → String → List String → List String)
        (horder : ∀ site about keys, (order site about keys).Perm keys),
      BestFlagged id (twoEnds.gossip (.plain ℚ) .exact) (twoEnds.classes (.plain ℚ) .exact).1 "aa"
        ["bb", "cc"] []
        (localBlosGatewayByRemote ((Runtime.plain ℚ).reordered order horder) .exact
          (twoEnds.gossip (.plain ℚ) .exact) (twoEnds.classes (.plain ℚ) .exact).1 ["bb", "cc"] []
            "aa")) ↔
      KeepsFlagged id (twoEnds.gossip (.plain ℚ) .exact) (twoEnds.classes (.plain ℚ) .exact).1 "aa"
        ["bb", "cc"] [] :=
  flagged_iff (.plain ℚ) _ "aa" worth_exact (gossip_gossiped twoEnds) (by simp)

/-- **A gateway loses its redirect** to an end that is none: of the two the
faster is kept, is no gateway, and is dropped. -/
theorem faster_end_takes_redirect :
    ¬ BestFlagged id (twoEnds.gossip (.plain ℚ) .exact) (twoEnds.classes (.plain ℚ) .exact).1 "aa"
      ["bb"] []
      (localBlosGatewayByRemote (.plain ℚ) .exact (twoEnds.gossip (.plain ℚ) .exact)
        (twoEnds.classes (.plain ℚ) .exact).1 ["bb"] [] "aa") := by
  intro h
  have hend : RemoteEnd (twoEnds.gossip (.plain ℚ) .exact)
      (twoEnds.classes (.plain ℚ) .exact).1 "aa" "dd" ("bb", (10 : ℚ)) :=
    ⟨by decide +kernel, by decide +kernel⟩
  have hsome := (h "dd").1.2 ⟨_, .inr hend, .inl (by decide)⟩
  have hnone : (localBlosGatewayByRemote (.plain ℚ) .exact (twoEnds.gossip (.plain ℚ) .exact)
      (twoEnds.classes (.plain ℚ) .exact).1 ["bb"] [] "aa").lookup "dd" = none := by decide +kernel
  rw [hnone] at hsome
  cases hsome

end Topology

end OpenManet
