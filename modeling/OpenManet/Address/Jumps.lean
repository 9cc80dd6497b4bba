import OpenManet.Address.Window
/-!
# The jumps of the window search

The peer rows hold whatever numbers a gossiped record spelled, so a window's
end may be anything, wrapped or not. A range whose end wrapped lies below zero
and is touched by no candidate. So long as the search jumps past no range that
ends within a window of 2⁶³, every candidate the loops look at lies in the
network, every jump goes up, and the search ends (`search_ends`). The rows
alone promise that where no window that begins in the network ends there
(`spared_of_behaved`).
-/

namespace OpenManet

namespace Address

section

variable {ranges : List DHCPRange} {networkSize desiredLimit c c' : Int64}
  {below : Option Int64}

/-- The loop looks at a candidate. -/
abbrev LooksAt (networkSize desiredLimit : Int64) (below : Option Int64) (c : Int64) : Prop :=
  (below.all fun bound => decide (c < bound)) = true ∧ c + desiredLimit - 1 ≤ networkSize

/-- A candidate does not do, and the loop goes on to another. -/
def Jump (ranges : List DHCPRange) (networkSize desiredLimit : Int64) (below : Option Int64)
    (c c' : Int64) : Prop :=
  LooksAt networkSize desiredLimit below c ∧
    checkCandidate ranges networkSize desiredLimit c = false ∧
    c' = nextCandidate ranges desiredLimit c

/-- **The candidates of a run**: 100 and what the first loop jumps to, then 1
and what the second does. The loops begin where 100 does not do, the second
where the first has ended with nothing. -/
inductive Candidate (ranges : List DHCPRange) (networkSize desiredLimit : Int64) :
    Option Int64 → Int64 → Prop
  | first : checkCandidate ranges networkSize desiredLimit 100 = false →
      Candidate ranges networkSize desiredLimit none 100
  | second {fuel : ℕ} : scan ranges networkSize desiredLimit none fuel 100 = some none →
      Candidate ranges networkSize desiredLimit (some 100) 1
  | jump {below : Option Int64} {c c' : Int64} :
      Candidate ranges networkSize desiredLimit below c →
      Jump ranges networkSize desiredLimit below c c' →
      Candidate ranges networkSize desiredLimit below c'

/-- The search jumps past no range that ends within a window of 2⁶³. -/
def Spared (ranges : List DHCPRange) (networkSize desiredLimit : Int64) : Prop :=
  ∀ below c r, Candidate ranges networkSize desiredLimit below c →
    LooksAt networkSize desiredLimit below c →
    checkCandidate ranges networkSize desiredLimit c = false →
    ranges.find? (overlaps desiredLimit c) = some r → fitsBehind desiredLimit r = true

/-- No window that begins in the network ends within a window of 2⁶³. It may
end past 2⁶³, where the end wraps. -/
def Behaved (nodes : List MeshNode) (networkSize desiredLimit : Int64) : Prop :=
  ∀ node ∈ nodes, ∀ start limit, node.uciDhcpStart = some start →
    node.uciDhcpLimit = some limit → 0 < start → 0 < limit → start ≤ networkSize →
      start.toInt + limit.toInt - 1 + desiredLimit.toInt < 2 ^ 63 ∨
        2 ^ 63 ≤ start.toInt + limit.toInt - 1

end

section

variable {nodes : List MeshNode} {networkSize desiredLimit c c' : Int64} {below : Option Int64}
  {r : DHCPRange}

theorem range_start_pos (hr : r ∈ existingRanges nodes) : 1 ≤ r.start.toInt := by
  obtain ⟨node, -, hr⟩ := List.mem_filterMap.1 hr
  obtain ⟨start, limit, -, -, hpos, -, rfl⟩ := range?_eq_some.1 hr
  have hpos := Int64.lt_iff_toInt_lt.1 hpos
  rwa [Int64.toInt_zero] at hpos

/-- A candidate without a wrapped window that the loop looks at lies in the
network. -/
theorem LooksAt.le (hlimit : 0 < desiredLimit.toInt) (hc : 1 ≤ c.toInt)
    (hend : c.toInt + desiredLimit.toInt ≤ 2 ^ 63)
    (hlooks : LooksAt networkSize desiredLimit below c) :
    c.toInt + desiredLimit.toInt - 1 ≤ networkSize.toInt := by
  have hin := Int64.le_iff_toInt_le.1 hlooks.2
  rwa [toInt_windowEnd (by omega) hlimit hend] at hin

variable {sorted : SortedRanges nodes}

/-- A candidate that does not do moves past the first range it touches. -/
theorem Jump.past (hlimit : 0 < desiredLimit.toInt) (hc : 1 ≤ c.toInt)
    (hend : c.toInt + desiredLimit.toInt ≤ 2 ^ 63)
    (h : Jump sorted.ranges networkSize desiredLimit below c c') :
    ∃ r ∈ sorted.ranges, sorted.ranges.find? (overlaps desiredLimit c) = some r ∧
      c.toInt ≤ r.stop.toInt ∧ r.start.toInt ≤ networkSize.toInt ∧ c' = r.stop + 1 := by
  obtain ⟨hlooks, hcheck, rfl⟩ := h
  have hin := hlooks.le hlimit hc hend
  have hnot : ¬Free sorted.ranges networkSize.toInt desiredLimit.toInt c.toInt := by
    rw [← checkCandidate_iff _ _ hc hlimit hend, hcheck]
    exact Bool.false_ne_true
  obtain ⟨r, hfind, hr, hstop, hstart, hnext⟩ := nextCandidate_jump hc hlimit hend hin hnot
  exact ⟨r, hr, hfind, hstop, by omega, hnext⟩

/-- **A jump goes up** where a window fits behind the range it is past, and
the window it leads to does not wrap. -/
theorem Jump.up (hlimit : 0 < desiredLimit.toInt) (hc : 1 ≤ c.toInt)
    (hend : c.toInt + desiredLimit.toInt ≤ 2 ^ 63)
    (hspared : ∀ r, sorted.ranges.find? (overlaps desiredLimit c) = some r →
      fitsBehind desiredLimit r = true)
    (h : Jump sorted.ranges networkSize desiredLimit below c c') :
    ∃ r ∈ sorted.ranges, c' = r.stop + 1 ∧ c'.toInt = r.stop.toInt + 1 ∧
      c.toInt < c'.toInt ∧ c'.toInt + desiredLimit.toInt ≤ 2 ^ 63 := by
  obtain ⟨r, hr, hfind, hstop, -, rfl⟩ := h.past hlimit hc hend
  have hfits := of_decide_eq_true (hspared r hfind)
  have hone := toInt_add_one (by omega : r.stop.toInt + 1 < 2 ^ 63)
  exact ⟨r, hr, rfl, hone, by omega, by omega⟩

/-- The first loop begins with a window that does not wrap: one that does
would have done. -/
theorem first_fits (hsize : 0 < networkSize.toInt)
    (hcheck : checkCandidate sorted.ranges networkSize desiredLimit 100 = false) :
    (100 : Int64).toInt + desiredLimit.toInt ≤ 2 ^ 63 := by
  have hhundred : (100 : Int64).toInt = 100 := by decide
  by_contra hwrap
  have hstarts : ∀ r ∈ sorted.ranges, 1 ≤ r.start.toInt := fun r hr =>
    range_start_pos (sorted.perm.mem_iff.1 hr)
  obtain ⟨-, hpass⟩ := checkCandidate_wrapped (by omega) (not_le.1 hwrap) hsize.le hstarts
  rw [hcheck] at hpass
  cases hpass

/-- Every candidate of a run is positive, and its window does not wrap, where
a window fits behind each range that such a candidate moves past. -/
theorem Candidate.bounds_of (hlimit : 0 < desiredLimit.toInt) (hsize : 0 < networkSize.toInt)
    (hfits : ∀ c c', Candidate sorted.ranges networkSize desiredLimit below c → 1 ≤ c.toInt →
      c.toInt + desiredLimit.toInt ≤ 2 ^ 63 →
      Jump sorted.ranges networkSize desiredLimit below c c' → ∀ r,
        sorted.ranges.find? (overlaps desiredLimit c) = some r → fitsBehind desiredLimit r = true)
    (h : Candidate sorted.ranges networkSize desiredLimit below c) :
    1 ≤ c.toInt ∧ c.toInt + desiredLimit.toInt ≤ 2 ^ 63 := by
  induction h with
  | first hcheck => exact ⟨by decide, first_fits hsize hcheck⟩
  | second _ =>
    have hmax := desiredLimit.toInt_lt
    rw [Int64.toInt_one]
    omega
  | jump hc hjump ih =>
    obtain ⟨hpos, hend⟩ := ih hfits
    obtain ⟨r, -, -, -, hup, hend'⟩ := hjump.up hlimit hpos hend (hfits _ _ hc hpos hend hjump)
    exact ⟨by omega, hend'⟩

theorem Candidate.bounds (hspared : Spared sorted.ranges networkSize desiredLimit)
    (hlimit : 0 < desiredLimit.toInt) (hsize : 0 < networkSize.toInt)
    (h : Candidate sorted.ranges networkSize desiredLimit below c) :
    1 ≤ c.toInt ∧ c.toInt + desiredLimit.toInt ≤ 2 ^ 63 :=
  h.bounds_of hlimit hsize fun _ _ hc _ _ hjump r => hspared _ _ r hc hjump.1 hjump.2.1

/-- A loop ends: its candidate cannot go up past the network for ever. -/
theorem scan_ends (hspared : Spared sorted.ranges networkSize desiredLimit)
    (hlimit : 0 < desiredLimit.toInt) (hsize : 0 < networkSize.toInt) :
    ∀ (fuel : ℕ) (c : Int64), Candidate sorted.ranges networkSize desiredLimit below c →
      networkSize.toInt - c.toInt < fuel →
      (scan sorted.ranges networkSize desiredLimit below (fuel + 1) c).isSome := by
  intro fuel
  induction fuel with
  | zero =>
    intro c hc hfuel
    obtain ⟨hpos, hend⟩ := hc.bounds hspared hlimit hsize
    have hnot : ¬LooksAt networkSize desiredLimit below c := by
      intro hlooks
      have hin := hlooks.le hlimit hpos hend
      push_cast at hfuel
      omega
    rw [scan, if_neg hnot]
    rfl
  | succ fuel ih =>
    intro c hc hfuel
    obtain ⟨hpos, hend⟩ := hc.bounds hspared hlimit hsize
    rw [scan]
    split
    · rename_i hlooks
      cases hcheck : checkCandidate sorted.ranges networkSize desiredLimit c with
      | true => rfl
      | false =>
        rw [if_neg Bool.false_ne_true]
        have hjump : Jump sorted.ranges networkSize desiredLimit below c _ := ⟨hlooks, hcheck, rfl⟩
        obtain ⟨r, -, -, -, hup, -⟩ := hjump.up hlimit hpos hend
          fun r => hspared _ _ r hc hlooks hcheck
        exact ih _ (hc.jump hjump) (by push_cast at hfuel ⊢; omega)
    · rfl

/-- A range that begins in the network and ends above zero leaves room for a
window behind it. -/
theorem range_fits (hbehaved : Behaved nodes networkSize desiredLimit)
    (hr : r ∈ existingRanges nodes) (hstart : r.start.toInt ≤ networkSize.toInt)
    (hstop : 1 ≤ r.stop.toInt) : r.stop.toInt + desiredLimit.toInt < 2 ^ 63 := by
  obtain ⟨node, hnode, hr⟩ := List.mem_filterMap.1 hr
  obtain ⟨start, limit, hsome, hsome', hpos, hpos', rfl⟩ := range?_eq_some.1 hr
  have hend := hbehaved node hnode start limit hsome hsome' hpos hpos'
    (Int64.le_iff_toInt_le.2 hstart)
  have hpos := Int64.lt_iff_toInt_lt.1 hpos
  have hpos' := Int64.lt_iff_toInt_lt.1 hpos'
  rw [Int64.toInt_zero] at hpos hpos'
  simp only at hstop ⊢
  by_cases hwrap : 2 ^ 63 < start.toInt + limit.toInt
  · -- an end that wrapped is not above zero
    rw [toInt_windowEnd_wrapped start.toInt_lt hwrap] at hstop
    have hlt := start.toInt_lt
    have hlt' := limit.toInt_lt
    omega
  · rw [toInt_windowEnd hpos.le hpos' (by omega)]
    omega

/-- **Which rows spare the search**: those with no window that begins in the
network and ends within a window of 2⁶³. -/
theorem spared_of_behaved (hbehaved : Behaved nodes networkSize desiredLimit)
    (hlimit : 0 < desiredLimit.toInt) (hsize : 0 < networkSize.toInt) :
    Spared sorted.ranges networkSize desiredLimit := by
  -- a jump of such a search is past a range that a window fits behind
  have hfits : ∀ below c c', 1 ≤ c.toInt → c.toInt + desiredLimit.toInt ≤ 2 ^ 63 →
      Jump sorted.ranges networkSize desiredLimit below c c' → ∀ r,
        sorted.ranges.find? (overlaps desiredLimit c) = some r →
          fitsBehind desiredLimit r = true := by
    intro below c c' hpos hend hjump r hfind
    obtain ⟨r', hr, hfind', hstop, hstart, -⟩ := hjump.past hlimit hpos hend
    obtain rfl := Option.some.inj (hfind.symm.trans hfind')
    exact decide_eq_true (range_fits hbehaved (sorted.perm.mem_iff.1 hr) hstart (by omega))
  intro below c r hc hlooks hcheck hfind
  obtain ⟨hpos, hend⟩ := hc.bounds_of hlimit hsize fun c c' _ => hfits below c c'
  exact hfits below c _ hpos hend ⟨hlooks, hcheck, rfl⟩ r hfind

end

/-- **The search ends without leaving its integers.** Whatever the rows hold,
where it jumps past no range that ends within a window of 2⁶³: every candidate
the loops look at lies in the network, every jump is past a range to a higher
candidate with nothing wrapped, and the search answers in as many steps as the
network has addresses. -/
theorem search_ends {nodes : List MeshNode} (sorted : SortedRanges nodes) {desiredLimit : Int64}
    {ones : ℕ} (hspared : Spared sorted.ranges (hosts ones) desiredLimit)
    (hlimit : 0 < desiredLimit) (hsize : 0 < hosts ones) :
    (∀ below c, Candidate sorted.ranges (hosts ones) desiredLimit below c →
      1 ≤ c.toInt ∧ (LooksAt (hosts ones) desiredLimit below c → c.toInt ≤ (hosts ones).toInt) ∧
      ∀ c', Jump sorted.ranges (hosts ones) desiredLimit below c c' →
        c.toInt < c'.toInt ∧
          ∃ r ∈ sorted.ranges, c' = r.stop + 1 ∧ c'.toInt = r.stop.toInt + 1) ∧
    ∀ fuel : ℕ, (hosts ones).toInt < fuel →
      (calculateAvailableDHCPStart sorted.ranges desiredLimit ones fuel).isSome := by
  have hlimit' := Int64.lt_iff_toInt_lt.1 hlimit
  have hsize' := Int64.lt_iff_toInt_lt.1 hsize
  rw [Int64.toInt_zero] at hlimit' hsize'
  constructor
  · intro below c hc
    obtain ⟨hpos, hend⟩ := hc.bounds hspared hlimit' hsize'
    refine ⟨hpos, fun hlooks => ?_, fun c' hjump => ?_⟩
    · have hin := hlooks.le hlimit' hpos hend
      omega
    · obtain ⟨r, hr, hnext, hone, hup, -⟩ := hjump.up hlimit' hpos hend
        fun r => hspared _ _ r hc hjump.1 hjump.2.1
      exact ⟨hup, r, hr, hnext, hone⟩
  · intro fuel hfuel
    obtain ⟨fuel, rfl⟩ : ∃ n, fuel = n + 1 := ⟨fuel - 1, by omega⟩
    rw [calculate_eq sorted.ranges hlimit hsize]
    cases hcheck : checkCandidate sorted.ranges (hosts ones) desiredLimit 100 with
    | true => rfl
    | false =>
      rw [if_neg Bool.false_ne_true]
      have hhundred : (100 : Int64).toInt = 100 := by decide
      have hone := Int64.toInt_one
      have hfirst : (scan sorted.ranges (hosts ones) desiredLimit none (fuel + 1) 100).isSome :=
        scan_ends hspared hlimit' hsize' fuel 100 (.first hcheck) (by push_cast at hfuel; omega)
      obtain ⟨first, hfirst⟩ := Option.isSome_iff_exists.1 hfirst
      rw [hfirst]
      cases first with
      | some s => rfl
      | none =>
        have hsecond :
            (scan sorted.ranges (hosts ones) desiredLimit (some 100) (fuel + 1) 1).isSome :=
          scan_ends hspared hlimit' hsize' fuel 1 (.second hfirst) (by push_cast at hfuel; omega)
        obtain ⟨second, hsecond⟩ := Option.isSome_iff_exists.1 hsecond
        rw [hsecond]
        cases second <;> rfl

/-- One peer whose window runs past the end of the network. -/
def longWindow : SortedRanges [⟨"", "", some 100, some 70000⟩] := .self _ (by decide +kernel)

theorem search_ends_longWindow :
    (∀ below c, Candidate longWindow.ranges (hosts 16) 16 below c →
      1 ≤ c.toInt ∧ (LooksAt (hosts 16) 16 below c → c.toInt ≤ (hosts 16).toInt) ∧
      ∀ c', Jump longWindow.ranges (hosts 16) 16 below c c' →
        c.toInt < c'.toInt ∧
          ∃ r ∈ longWindow.ranges, c' = r.stop + 1 ∧ c'.toInt = r.stop.toInt + 1) ∧
    ∀ fuel : ℕ, (hosts 16).toInt < fuel →
      (calculateAvailableDHCPStart longWindow.ranges 16 16 fuel).isSome := by
  refine search_ends longWindow (spared_of_behaved ?_ (by decide) (by decide)) (by decide)
    (by decide)
  intro node hnode start limit hstart hlimit _ _ _
  obtain rfl := List.mem_singleton.1 hnode
  obtain rfl := Option.some.inj hstart
  obtain rfl := Option.some.inj hlimit
  decide

/-- **A candidate past the network.** The jump past that window leads out of
1 to one past the network's size; the loop ends there. -/
theorem candidate_past_network :
    Candidate longWindow.ranges (hosts 16) 16 none 70100 ∧
      ¬((70100 : Int64).toInt ≤ (hosts 16).toInt + 1) := by
  refine ⟨.jump (.first (by decide +kernel)) ⟨by decide, by decide +kernel, by decide +kernel⟩, ?_⟩
  decide

end Address

end OpenManet
