import OpenManet.BatmanAdv.Originators
import Mathlib.Data.List.Chain
/-!
# Hop counts

`Routed best k d` says that the chain of best next hops from `k` comes to a
direct neighbour after `d` originators. A walk of `hopsFor` finds that number
where it is at most `hopsMaxChain`, and keeps a cache that holds nothing but
such numbers exact (`walk_settled`), as long as no chain is longer.

A longer chain breaks both ways. A walk that runs out of steps marks every
originator it came through, direct neighbours included; a walk that meets the
cache adds to it, past the bound. So the counts are exact in every order of
the visits just where no chain is longer than the bound
(`hops_exact_iff`).
-/

namespace OpenManet

namespace BatmanAdv

variable {F : Type} {toLower : Lowering}

/-! ## Chains of next hops -/

/-- The next hop of an originator that is no direct neighbour. -/
def Hop (toLower : Lowering) (best : Table (Originator F)) (k c : String) : Prop :=
  ∃ r, best.lookup k = some r ∧ toLower r.bestNeigh = c ∧ c ≠ k ∧ c ≠ ""

/-- An originator that is its own best next hop. -/
def Direct (toLower : Lowering) (best : Table (Originator F)) (k : String) : Prop :=
  ∃ r, best.lookup k = some r ∧ (toLower r.bestNeigh = k ∨ toLower r.bestNeigh = "")

/-- **The length of a chain**: `d` originators from `k` to a direct
neighbour, both counted. -/
inductive Routed (toLower : Lowering) (best : Table (Originator F)) : String → ℕ → Prop
  | direct {k : String} : Direct toLower best k → Routed toLower best k 1
  | step {k c : String} {d : ℕ} :
      Hop toLower best k c → Routed toLower best c d → Routed toLower best k (d + 1)

variable {best : Table (Originator F)} {k c : String} {d : ℕ}

theorem Hop.unique {c' : String} (h : Hop toLower best k c) (h' : Hop toLower best k c') :
    c = c' := by
  obtain ⟨r, hr, rfl, -, -⟩ := h
  obtain ⟨r', hr', rfl, -, -⟩ := h'
  rw [hr] at hr'
  obtain rfl := Option.some.inj hr'
  rfl

theorem Hop.not_direct (h : Hop toLower best k c) : ¬ Direct toLower best k := by
  obtain ⟨r, hr, rfl, hself, hempty⟩ := h
  rintro ⟨r', hr', hdirect⟩
  rw [hr] at hr'
  obtain rfl := Option.some.inj hr'
  exact hdirect.elim hself hempty

theorem Hop.lookup (h : Hop toLower best k c) : ∃ r, best.lookup k = some r :=
  ⟨h.choose, h.choose_spec.1⟩

theorem Hop.ne (h : Hop toLower best k c) : k ≠ c := by
  obtain ⟨-, -, -, hself, -⟩ := h
  exact hself.symm

namespace Routed

theorem lookup (h : Routed toLower best k d) : ∃ r, best.lookup k = some r := by
  cases h with
  | direct hdirect => exact ⟨hdirect.choose, hdirect.choose_spec.1⟩
  | step hop _ => exact hop.lookup

theorem pos (h : Routed toLower best k d) : 0 < d := by
  cases h with
  | direct _ => exact Nat.one_pos
  | step _ _ => exact Nat.succ_pos _

/-- The chain from an originator is the chain from its next hop and one more. -/
theorem next (h : Routed toLower best k d) (hop : Hop toLower best k c) :
    ∃ e, d = e + 1 ∧ Routed toLower best c e := by
  cases h with
  | direct hdirect => exact absurd hdirect hop.not_direct
  | step hop' h' =>
    obtain rfl := hop.unique hop'
    exact ⟨_, rfl, h'⟩

/-- A chain has one length. -/
theorem unique {d' : ℕ} (h : Routed toLower best k d) (h' : Routed toLower best k d') :
    d = d' := by
  induction h generalizing d' with
  | direct hdirect =>
    cases h' with
    | direct _ => rfl
    | step hop _ => exact absurd hdirect hop.not_direct
  | step hop _ ih =>
    obtain ⟨e, rfl, he⟩ := h'.next hop
    rw [ih he]

/-- A long chain goes through an originator of each smaller length. -/
theorem exists_of_le {n : ℕ} (h : Routed toLower best k d) (hn : 0 < n) (hle : n ≤ d) :
    ∃ c, Routed toLower best c n := by
  induction h with
  | direct hdirect =>
    obtain rfl : n = 1 := by omega
    exact ⟨_, .direct hdirect⟩
  | @step k c d hop h' ih =>
    by_cases heq : n = d + 1
    · exact ⟨k, heq ▸ .step hop h'⟩
    · exact ih (by omega)

end Routed

/-- **What a hop count has to be**: the length of the chain where there is
one within the bound, unknown otherwise. -/
def Measured (toLower : Lowering) (best : Table (Originator F)) (k : String) (v : ℕ) : Prop :=
  (v ≤ hopsMaxChain ∧ Routed toLower best k v) ∨
    (v = hopsUnknown ∧ ∀ d ≤ hopsMaxChain, ¬ Routed toLower best k d)

/-- What a walk may leave in the cache: the length of a chain within the
bound, or that there is no chain. -/
def Settled (toLower : Lowering) (best : Table (Originator F)) (k : String) (v : ℕ) : Prop :=
  (v ≤ hopsMaxChain ∧ Routed toLower best k v) ∨
    (v = hopsUnknown ∧ ∀ d, ¬ Routed toLower best k d)

theorem Settled.measured {v : ℕ} (h : Settled toLower best k v) : Measured toLower best k v :=
  h.imp id fun h => ⟨h.1, fun d _ => h.2 d⟩

/-- The count of a routed originator is the length of its chain. -/
theorem Settled.eq {v : ℕ} (h : Settled toLower best k v) (hk : Routed toLower best k d) :
    v = d ∧ d ≤ hopsMaxChain := by
  rcases h with ⟨hle, hroute⟩ | ⟨-, hno⟩
  · obtain rfl := hroute.unique hk
    exact ⟨rfl, hle⟩
  · exact absurd hk (hno d)

/-! ## The links of a walk -/

/-- What a walk has come through, newest first: each one's next hop is the
one walked to from it. -/
def Linked (toLower : Lowering) (best : Table (Originator F)) (chain : List String) : Prop :=
  chain.IsChain fun c k => Hop toLower best k c

/-- Along a walk the lengths go up by one from its newest link. -/
theorem Linked.routed {chain : List String} (h : Linked toLower best (c :: chain))
    (hc : Routed toLower best c d) (hk : k ∈ c :: chain) :
    ∃ i ≤ chain.length, Routed toLower best k (d + i) := by
  induction chain generalizing c d with
  | nil =>
    obtain rfl := List.mem_singleton.1 hk
    exact ⟨0, le_rfl, hc⟩
  | cons b chain ih =>
    obtain ⟨hop, hrest⟩ := List.isChain_cons_cons.1 h
    rcases List.mem_cons.1 hk with rfl | hk
    · exact ⟨0, Nat.zero_le _, hc⟩
    · obtain ⟨i, hi, hroute⟩ := ih hrest (.step hop hc) hk
      refine ⟨i + 1, by simpa using hi, ?_⟩
      rwa [show d + (i + 1) = d + 1 + i by omega]

/-- The oldest link of a walk is as far behind the newest as the walk is
long. -/
theorem Linked.routed_getLast {chain : List String} (h : Linked toLower best (c :: chain))
    (hc : Routed toLower best c d) :
    Routed toLower best ((c :: chain).getLast (List.cons_ne_nil _ _)) (d + chain.length) := by
  induction chain generalizing c d with
  | nil => exact hc
  | cons b chain ih =>
    obtain ⟨hop, hrest⟩ := List.isChain_cons_cons.1 h
    have hlast := ih hrest (.step hop hc)
    rw [List.getLast_cons (List.cons_ne_nil _ _)]
    rwa [List.length_cons, show d + (chain.length + 1) = d + 1 + chain.length by omega]

/-- A walk from a routed originator has come to a routed one. -/
theorem Linked.head_routed {chain : List String} (h : Linked toLower best (c :: chain))
    (hk : k ∈ c :: chain) (hd : Routed toLower best k d) : ∃ e, Routed toLower best c e := by
  induction chain generalizing c with
  | nil =>
    obtain rfl := List.mem_singleton.1 hk
    exact ⟨d, hd⟩
  | cons b chain ih =>
    obtain ⟨hop, hrest⟩ := List.isChain_cons_cons.1 h
    rcases List.mem_cons.1 hk with rfl | hk
    · exact ⟨d, hd⟩
    · obtain ⟨e, he⟩ := ih hrest hk
      obtain ⟨e', -, he'⟩ := he.next hop
      exact ⟨e', he'⟩

/-! ## What the cache is given -/

variable {cache : Table ℕ}

/-- A cache of exact counts. -/
abbrev Exact (toLower : Lowering) (best : Table (Originator F)) (cache : Table ℕ) : Prop :=
  cache.All (Settled toLower best)

theorem mem_backfillChain {chain : List String} {h : ℕ} (hk : k ∈ cache ∨ k ∈ chain) :
    k ∈ backfillChain chain h cache := by
  induction chain generalizing h cache with
  | nil => exact hk.resolve_right List.not_mem_nil
  | cons b chain ih =>
    refine ih ?_
    rcases hk with hk | hk
    · exact .inl (Table.mem_insert_of_mem hk b h)
    · rcases List.mem_cons.1 hk with rfl | hk
      · exact .inl ((AList.mem_insert cache).2 (.inl rfl))
      · exact .inr hk

theorem mem_markUnknown {chain : List String} (hk : k ∈ chain) : k ∈ markUnknown chain cache := by
  induction chain with
  | nil => cases hk
  | cons b chain ih =>
    rcases List.mem_cons.1 hk with rfl | hk
    · exact (AList.mem_insert _).2 (.inl rfl)
    · exact Table.mem_insert_of_mem (ih hk) b hopsUnknown

/-- Back-filling a walk that came to a routed originator keeps the cache
exact, where the whole walk is within the bound. -/
theorem Exact.backfillChain {chain : List String} (hcache : Exact toLower best cache)
    (h : Linked toLower best (c :: chain)) (hc : Routed toLower best c d)
    (hbound : d + chain.length ≤ hopsMaxChain) :
    Exact toLower best (backfillChain (c :: chain) d cache) := by
  induction chain generalizing c d cache with
  | nil => exact hcache.insert (.inl ⟨by simpa using hbound, hc⟩)
  | cons b chain ih =>
    obtain ⟨hop, hrest⟩ := List.isChain_cons_cons.1 h
    have hbound' : d + 1 + chain.length ≤ hopsMaxChain := by
      rw [List.length_cons] at hbound
      omega
    have hinsert : Exact toLower best (cache.insert c d) :=
      hcache.insert (.inl ⟨by omega, hc⟩)
    exact ih hinsert hrest (.step hop hc) hbound'

/-- Marking a walk that came to no direct neighbour keeps the cache exact. -/
theorem Exact.markUnknown {chain : List String} (hcache : Exact toLower best cache)
    (h : ∀ k ∈ chain, ∀ d, ¬ Routed toLower best k d) :
    Exact toLower best (markUnknown chain cache) := by
  induction chain with
  | nil => exact hcache
  | cons b chain ih =>
    refine (ih fun k hk => h k (List.mem_cons_of_mem _ hk)).insert ?_
    exact .inr ⟨rfl, h b List.mem_cons_self⟩

/-! ## Walks -/

theorem cached_settled (hcache : Exact toLower best cache) (hk : k ∈ cache) :
    Settled toLower best k (cached cache k) := by
  obtain ⟨v, hv⟩ := Option.isSome_iff_exists.1 (AList.lookup_isSome.2 hk)
  rw [cached, hv]
  exact hcache k v hv

/-- What is left of a walk, between its steps. -/
structure Walking (toLower : Lowering) (best : Table (Originator F)) (key : String) (n : ℕ)
    (cur : String) (chain : List String) : Prop where
  /-- The walk is at its newest link. -/
  linked : Linked toLower best (cur :: chain)
  /-- It began at the originator it is about. -/
  last : (cur :: chain).getLast (List.cons_ne_nil _ _) = key
  /-- It has taken the steps it has no longer. -/
  steps : chain.length + n = hopsMaxChain

section

variable {key cur : String} {n : ℕ} {chain : List String}

theorem Walking.key_mem (hw : Walking toLower best key n cur chain) : key ∈ cur :: chain :=
  hw.last ▸ List.getLast_mem _

/-- The chain of the originator a walk is about, read at its newest link. -/
theorem Walking.length_le (hw : Walking toLower best key n cur chain)
    (hbound : ∀ d, Routed toLower best key d → d ≤ hopsMaxChain)
    (hcur : Routed toLower best cur d) : d + chain.length ≤ hopsMaxChain :=
  hbound _ (hw.last ▸ hw.linked.routed_getLast hcur)

/-- A walk that has nowhere to go has come through nothing routed. -/
theorem Walking.markUnknown (hw : Walking toLower best key n cur chain)
    (hcache : Exact toLower best cache) (hcur : ∀ d, ¬ Routed toLower best cur d) :
    Settled toLower best key hopsUnknown ∧
      Exact toLower best (markUnknown (cur :: chain) cache) := by
  have hall : ∀ k ∈ cur :: chain, ∀ d, ¬ Routed toLower best k d := by
    intro k hk d hd
    obtain ⟨e, he⟩ := hw.linked.head_routed hk hd
    exact hcur e he
  exact ⟨.inr ⟨rfl, hall key hw.key_mem⟩, hcache.markUnknown hall⟩

/-- A walk that came to a routed originator has the chain's length at its
start. -/
theorem Walking.backfillChain (hw : Walking toLower best key n cur chain)
    (hbound : ∀ d, Routed toLower best key d → d ≤ hopsMaxChain)
    (hcache : Exact toLower best cache) (hcur : Routed toLower best cur d) :
    Settled toLower best key (cached (backfillChain (cur :: chain) d cache) key) ∧
      Exact toLower best (backfillChain (cur :: chain) d cache) := by
  have hexact := hcache.backfillChain hw.linked hcur (hw.length_le hbound hcur)
  exact ⟨cached_settled hexact (mem_backfillChain (.inr hw.key_mem)), hexact⟩

/-- One more link. -/
theorem Walking.cons (hw : Walking toLower best key (n + 1) cur chain)
    (hop : Hop toLower best cur c) : Walking toLower best key n c (cur :: chain) where
  linked := List.isChain_cons_cons.2 ⟨hop, hw.linked⟩
  last := by
    rw [List.getLast_cons (List.cons_ne_nil _ _)]
    exact hw.last
  steps := by
    have hsteps := hw.steps
    rw [List.length_cons]
    omega

/-- An originator without an entry is on no chain. -/
theorem not_routed_of_lookup (h : best.lookup k = none) : ¬ Routed toLower best k d := by
  intro hd
  obtain ⟨r, hr⟩ := hd.lookup
  rw [h] at hr
  cases hr

/-- **A walk keeps the cache exact and gives an exact count**, where the
originator's own chain is within the bound or does not come to an end. -/
theorem walk_settled (hbound : ∀ d, Routed toLower best key d → d ≤ hopsMaxChain)
    (hw : Walking toLower best key n cur chain) (hcache : Exact toLower best cache) :
    Settled toLower best key (walk toLower best key n cur (cur :: chain) cache).1 ∧
      Exact toLower best (walk toLower best key n cur (cur :: chain) cache).2 := by
  induction n generalizing cur chain with
  | zero =>
    refine hw.markUnknown hcache fun d hd => ?_
    -- the steps are used up before the bound is
    have hlen := hw.length_le hbound hd
    have hsteps := hw.steps
    have hpos := hd.pos
    omega
  | succ n ih =>
    rw [walk]
    cases hentry : best.lookup cur with
    | none => exact hw.markUnknown hcache fun d => not_routed_of_lookup hentry
    | some entry =>
      simp only
      by_cases hdirect : toLower entry.bestNeigh = cur ∨ toLower entry.bestNeigh = ""
      · rw [if_pos hdirect]
        exact hw.backfillChain hbound hcache (.direct ⟨entry, hentry, hdirect⟩)
      rw [if_neg hdirect]
      have hop : Hop toLower best cur (toLower entry.bestNeigh) :=
        ⟨entry, hentry, rfl, fun h => hdirect (.inl h), fun h => hdirect (.inr h)⟩
      cases hmemo : (cache.lookup (toLower entry.bestNeigh)).filter (· ≠ hopsUnknown) with
      | some memo =>
        obtain ⟨hlookup, hne⟩ := Option.filter_eq_some_iff.1 hmemo
        rcases hcache _ _ hlookup with ⟨-, hroute⟩ | ⟨heq, -⟩
        · exact hw.backfillChain hbound hcache (.step hop hroute)
        · exact absurd heq (of_decide_eq_true hne)
      | none =>
        simp only
        by_cases hcycle : toLower entry.bestNeigh ∈ cur :: chain
        · rw [if_pos hcycle]
          refine hw.markUnknown hcache fun d hd => ?_
          -- the next hop would be both nearer and no nearer than this one
          obtain ⟨e, rfl, he⟩ := hd.next hop
          obtain ⟨i, -, hi⟩ := hw.linked.routed hd hcycle
          have heq := hi.unique he
          omega
        · rw [if_neg hcycle]
          exact ih (hw.cons hop)

theorem mem_walk (hk : k ∈ chain) : k ∈ (walk toLower best key n cur chain cache).2 := by
  induction n generalizing cur chain with
  | zero => exact mem_markUnknown hk
  | succ n ih =>
    rw [walk]
    cases best.lookup cur with
    | none => exact mem_markUnknown hk
    | some entry =>
      simp only
      by_cases hdirect : toLower entry.bestNeigh = cur ∨ toLower entry.bestNeigh = ""
      · rw [if_pos hdirect]
        exact mem_backfillChain (.inr hk)
      rw [if_neg hdirect]
      cases (cache.lookup (toLower entry.bestNeigh)).filter (· ≠ hopsUnknown) with
      | some memo => exact mem_backfillChain (.inr hk)
      | none =>
        simp only
        split_ifs
        · exact mem_markUnknown hk
        · exact ih (List.mem_cons_of_mem _ hk)

end

/-! ## Counts -/

section

variable {origMAC : String}

theorem hopsFor_of_cached {v : ℕ} (h : cache.lookup (toLower origMAC) = some v) :
    hopsFor toLower origMAC best cache = (v, cache) := by
  simp only [hopsFor, h]

theorem hopsFor_of_not_cached (h : cache.lookup (toLower origMAC) = none) :
    hopsFor toLower origMAC best cache =
      walk toLower best (toLower origMAC) hopsMaxChain (toLower origMAC) [toLower origMAC]
        cache := by
  simp only [hopsFor, h]

/-- A count is exact, and so is the cache after it. -/
theorem hopsFor_settled (hbound : ∀ d, Routed toLower best (toLower origMAC) d → d ≤ hopsMaxChain)
    (hcache : Exact toLower best cache) :
    Settled toLower best (toLower origMAC) (hopsFor toLower origMAC best cache).1 ∧
      Exact toLower best (hopsFor toLower origMAC best cache).2 := by
  cases hlookup : cache.lookup (toLower origMAC) with
  | some v =>
    rw [hopsFor_of_cached hlookup]
    exact ⟨hcache _ _ hlookup, hcache⟩
  | none =>
    rw [hopsFor_of_not_cached hlookup]
    exact walk_settled hbound ⟨List.isChain_singleton _, rfl, rfl⟩ hcache

/-- An originator counted once is in the cache. -/
theorem mem_hopsFor : toLower origMAC ∈ (hopsFor toLower origMAC best cache).2 := by
  cases hlookup : cache.lookup (toLower origMAC) with
  | some v =>
    rw [hopsFor_of_cached hlookup]
    exact AList.lookup_isSome.1 (by rw [hlookup]; rfl)
  | none =>
    rw [hopsFor_of_not_cached hlookup]
    exact mem_walk (List.mem_singleton_self _)

/-- An originator within the bound leaves its count in the cache. -/
theorem lookup_hopsFor (hcache : Exact toLower best cache)
    (hk : Routed toLower best (toLower origMAC) d) (hd : d ≤ hopsMaxChain) :
    (hopsFor toLower origMAC best cache).2.lookup (toLower origMAC) = some d ∧
      Exact toLower best (hopsFor toLower origMAC best cache).2 := by
  have hexact := (hopsFor_settled (fun e he => he.unique hk ▸ hd) hcache).2
  have hmem : toLower origMAC ∈ (hopsFor toLower origMAC best cache).2 := mem_hopsFor
  obtain ⟨v, hv⟩ := Option.isSome_iff_exists.1 (AList.lookup_isSome.2 hmem)
  obtain ⟨rfl, -⟩ := (hexact _ _ hv).eq hk
  exact ⟨hv, hexact⟩

/-- The cache is added to past the bound. -/
theorem hopsFor_of_next_cached {v : ℕ} (hop : Hop toLower best (toLower origMAC) c)
    (hself : cache.lookup (toLower origMAC) = none) (hnext : cache.lookup c = some v)
    (hv : v ≠ hopsUnknown) : (hopsFor toLower origMAC best cache).1 = v + 1 := by
  obtain ⟨r, hr, rfl, hne, hempty⟩ := hop
  have hdirect : ¬ (toLower r.bestNeigh = toLower origMAC ∨ toLower r.bestNeigh = "") :=
    not_or.2 ⟨hne, hempty⟩
  have hmemo : (some v).filter (· ≠ hopsUnknown) = some v :=
    Option.filter_eq_some_iff.2 ⟨rfl, decide_eq_true hv⟩
  rw [hopsFor_of_not_cached hself, hopsMaxChain, walk]
  simp only [hr, if_neg hdirect, hnext, hmemo, backfillChain, cached, AList.lookup_insert,
    Option.getD_some]

end

/-! ## Snapshots -/

section

variable {equalFold : String → String → Bool} {batHosts : BatHosts}

/-- Every entry of a snapshot has an exact count, whatever came before it. -/
theorem collect_measured (hbound : ∀ k d, Routed toLower best k d → d ≤ hopsMaxChain)
    {visited : List (Originator F)} (hcache : Exact toLower best cache) :
    ∀ e ∈ collect toLower equalFold batHosts best visited cache,
      Measured toLower best (toLower e.origMAC) e.hops := by
  induction visited generalizing cache with
  | nil =>
    intro e he
    cases he
  | cons r visited ih =>
    have hr := hopsFor_settled (hbound (toLower r.origAddress)) hcache
    intro e he
    rcases List.mem_cons.1 he with rfl | he
    · exact hr.1.measured
    · exact ih hr.2 e he

/-- Each best row is under its own MAC. -/
theorem bestByMAC_all (rows : List (Originator F)) :
    (bestByMAC toLower rows).All fun k r => k = toLower r.origAddress := by
  refine Table.All.empty.foldl fun best hbest r _ => ?_
  split_ifs
  · exact hbest.insert rfl
  · exact hbest

/-- An order that has two keys first. -/
def leading (y z : String) (keys : List String) : List String :=
  if y ∈ keys ∧ z ∈ keys.erase y then y :: z :: (keys.erase y).erase z else keys

theorem leading_perm (y z : String) (keys : List String) : (leading y z keys).Perm keys := by
  unfold leading
  split_ifs with h
  · exact ((List.perm_cons_erase h.2).symm.cons y).trans (List.perm_cons_erase h.1).symm
  · exact .refl _

theorem range_leading {y z : String} {ry rz : Originator F} (hy : best.lookup y = some ry)
    (hz : best.lookup z = some rz) (hne : z ≠ y) :
    ∃ rest, (best.range (leading y z)).map (·.2) = ry :: rz :: rest := by
  have hykey : y ∈ best.keys := AList.lookup_isSome.1 (by rw [hy]; rfl)
  have hzkey : z ∈ best.keys := AList.lookup_isSome.1 (by rw [hz]; rfl)
  have hlead : leading y z best.keys = y :: z :: (best.keys.erase y).erase z :=
    if_pos ⟨hykey, (List.mem_erase_of_ne hne).2 hzkey⟩
  refine ⟨(((best.keys.erase y).erase z).filterMap fun k =>
    (best.lookup k).map (k, ·)).map (·.2), ?_⟩
  simp only [Table.range, hlead, List.filterMap_cons, hy, hz, Option.map_some, List.map_cons]

variable {positive : F → Bool} {selfMAC : String}

/-- **The counts of a snapshot are exact in every order of its visits just
where no chain is longer than the bound.** Where one is, the originator
seventeen links out, visited after its next hop, counts seventeen. -/
theorem hops_exact_iff (rows : List (Originator F)) :
    (∀ order : List String → List String, (∀ keys, (order keys).Perm keys) →
      ∀ snap, getOriginatorTopology toLower positive equalFold order batHosts selfMAC (.ok rows) =
        .ok snap → ∀ e ∈ snap.originators,
          Measured toLower (bestByMAC toLower rows) (toLower e.origMAC) e.hops) ↔
      ∀ k d, Routed toLower (bestByMAC toLower rows) k d → d ≤ hopsMaxChain := by
  constructor
  · intro hexact k d hk
    by_contra hlong
    obtain ⟨z, hz⟩ := hk.exists_of_le (n := hopsMaxChain + 1) (Nat.succ_pos _) (by omega)
    cases hz with
    | @step _ y _ hop hy =>
      -- its next hop first, which counts right, and then the originator itself
      obtain ⟨ry, hry⟩ := hy.lookup
      obtain ⟨rz, hrz⟩ := hop.lookup
      obtain rfl := bestByMAC_all rows y ry hry
      obtain rfl := bestByMAC_all rows z rz hrz
      obtain ⟨rest, hvisited⟩ := range_leading hry hrz hop.ne
      obtain ⟨hfirst, hcache⟩ := lookup_hopsFor Table.All.empty hy le_rfl
      have hz : Routed toLower (bestByMAC toLower rows) (toLower rz.origAddress)
          (hopsMaxChain + 1) := .step hop hy
      have hself : (hopsFor toLower ry.origAddress (bestByMAC toLower rows) ∅).2.lookup
          (toLower rz.origAddress) = none := by
        refine Option.eq_none_iff_forall_ne_some.2 fun v hv => ?_
        have hle := ((hcache _ _ hv).eq hz).2
        omega
      have hhops := hopsFor_of_next_cached hop hself hfirst (by decide)
      have hmeasured := hexact _ (leading_perm _ _) _ rfl _ (by
        rw [hvisited]
        exact List.mem_cons_of_mem _ List.mem_cons_self)
      rw [hhops] at hmeasured
      rcases hmeasured with ⟨hle, -⟩ | ⟨heq, -⟩
      · exact absurd hle (Nat.not_succ_le_self hopsMaxChain)
      · have hseventeen : hopsMaxChain + 1 = hopsUnknown := heq
        exact absurd hseventeen (by decide)
  · intro hbound order _ snap hsnap
    obtain rfl := Except.ok.inj hsnap
    exact collect_measured hbound Table.All.empty

end

/-- Seventeen originators in a row, the first of them a direct neighbour. -/
def row17 : List (Originator ℕ) :=
  let macs := ["02:00:00:00:00:01", "02:00:00:00:00:02", "02:00:00:00:00:03",
    "02:00:00:00:00:04", "02:00:00:00:00:05", "02:00:00:00:00:06", "02:00:00:00:00:07",
    "02:00:00:00:00:08", "02:00:00:00:00:09", "02:00:00:00:00:10", "02:00:00:00:00:11",
    "02:00:00:00:00:12", "02:00:00:00:00:13", "02:00:00:00:00:14", "02:00:00:00:00:15",
    "02:00:00:00:00:16", "02:00:00:00:00:17"]
  (macs.zip ("02:00:00:00:00:01" :: macs)).map fun (mac, next) =>
    { origAddress := mac, hardIfname := "wlh0", bestNeigh := next, lastSeenMs := 100, tq := 0,
      throughput := 10, best := true }

/-- **A direct neighbour is counted unknown** when the far end of a row of
seventeen is visited first: that walk runs out of steps on it, and marks it. -/
theorem direct_neighbour_unknown :
    (∃ snap, getOriginatorTopology Lowering.ascii (0 < ·) (· == ·) id ⟨[]⟩ "" (.ok row17) =
        .ok snap ∧
      ("02:00:00:00:00:01", hopsUnknown) ∈ snap.originators.map fun e => (e.origMAC, e.hops)) ∧
    ¬ Measured Lowering.ascii (bestByMAC Lowering.ascii row17)
      (Lowering.ascii "02:00:00:00:00:01") hopsUnknown := by
  refine ⟨⟨_, rfl, by decide +kernel⟩, ?_⟩
  rintro (⟨hle, -⟩ | ⟨-, hno⟩)
  · exact absurd hle (by decide)
  · have hself : ((bestByMAC Lowering.ascii row17).lookup
        (Lowering.ascii "02:00:00:00:00:01")).any fun r =>
          Lowering.ascii r.bestNeigh == Lowering.ascii "02:00:00:00:00:01" := by
      decide +kernel
    obtain ⟨r, hr, hnext⟩ := (Option.any_eq_true _ _).1 hself
    exact hno 1 (by decide) (.direct ⟨r, hr, .inl (eq_of_beq hnext)⟩)

end BatmanAdv

end OpenManet
