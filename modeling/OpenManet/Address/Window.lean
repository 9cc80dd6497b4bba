import OpenManet.Address.Overlap
/-!
# The window search, to the ends of its integers

What `CalculateAvailableDHCPStart` answers for any peer rows whose windows
end within 64 bits. A jump past a range that ends so high that a window
behind it wraps leaves the search at a start no check turns down. Whether the
search jumps there is a matter of the ranges sorted before the first such
one: it does where they leave a start from 100 up and nothing else is free
there (`calculate_allocates_iff`).
-/

namespace OpenManet

namespace Address

/-! ## What an answer has to be -/

/-- The addresses of a peer's window, as offsets: those of a row with a
positive start and limit. -/
def PeerWindow (nodes : List MeshNode) (first last : ℤ) : Prop :=
  ∃ node ∈ nodes, ∃ start limit, node.uciDhcpStart = some start ∧
    node.uciDhcpLimit = some limit ∧ 0 < start ∧ 0 < limit ∧
    first = start.toInt ∧ last = start.toInt + limit.toInt - 1

/-- The window at `s` lies in the network and shares no address with a
peer's. -/
def FreeWindow (nodes : List MeshNode) (networkSize desiredLimit s : ℤ) : Prop :=
  1 ≤ desiredLimit ∧ 1 ≤ s ∧ s + desiredLimit - 1 ≤ networkSize ∧
    ∀ first last, PeerWindow nodes first last →
      ∀ x, s ≤ x → x ≤ s + desiredLimit - 1 → ¬(first ≤ x ∧ x ≤ last)

/-- **A sound, lowest-first and complete answer**: the lowest free start from
100 up, or else the lowest; an error only where no start is free. -/
def Allocates (nodes : List MeshNode) (networkSize desiredLimit : ℤ) :
    Except Failure Int64 → Prop
  | .ok s => FirstStart (FreeWindow nodes networkSize desiredLimit) s.toInt
  | .error _ => ∀ s, ¬FreeWindow nodes networkSize desiredLimit s

/-- No window's end leaves the integers. -/
def InRange (nodes : List MeshNode) : Prop :=
  ∀ node ∈ nodes, ∀ start limit, node.uciDhcpStart = some start →
    node.uciDhcpLimit = some limit → start.toInt + limit.toInt < 2 ^ 63

section

variable {nodes : List MeshNode} {node : MeshNode} {r : DHCPRange}

theorem range?_eq_some :
    node.range? = some r ↔ ∃ start limit, node.uciDhcpStart = some start ∧
      node.uciDhcpLimit = some limit ∧ 0 < start ∧ 0 < limit ∧ r = ⟨start, start + limit - 1⟩ := by
  unfold MeshNode.range?
  constructor
  · intro h
    split at h
    · rename_i start limit hstart hlimit
      split at h
      · rename_i hpos
        exact ⟨start, limit, hstart, hlimit, hpos.1, hpos.2, (Option.some.inj h).symm⟩
      · cases h
    · cases h
  · rintro ⟨start, limit, hstart, hlimit, hpos, hpos', rfl⟩
    simp only [hstart, hlimit, hpos, hpos', and_self, if_true]

/-- The end of a row's range, as the row tells it. -/
theorem toInt_stop (hrange : InRange nodes) (hnode : node ∈ nodes) {start limit : Int64}
    (hstart : node.uciDhcpStart = some start) (hlimit : node.uciDhcpLimit = some limit)
    (hpos : 0 < start) (hpos' : 0 < limit) :
    1 ≤ start.toInt ∧ 1 ≤ limit.toInt ∧ start.toInt + limit.toInt < 2 ^ 63 ∧
      (start + limit - 1).toInt = start.toInt + limit.toInt - 1 := by
  have hsum := hrange node hnode start limit hstart hlimit
  have hpos := Int64.lt_iff_toInt_lt.1 hpos
  have hpos' := Int64.lt_iff_toInt_lt.1 hpos'
  rw [Int64.toInt_zero] at hpos hpos'
  exact ⟨hpos, hpos', hsum, toInt_windowEnd hpos.le hpos' hsum.le⟩

/-- What the rows tell of a range: it begins from 1 up, ends no lower and
leaves another number above it. -/
theorem range_bounds (hrange : InRange nodes) (hr : r ∈ existingRanges nodes) :
    1 ≤ r.start.toInt ∧ r.start.toInt ≤ r.stop.toInt ∧ r.stop.toInt + 1 < 2 ^ 63 := by
  obtain ⟨node, hnode, hr⟩ := List.mem_filterMap.1 hr
  obtain ⟨start, limit, hstart, hlimit, hpos, hpos', rfl⟩ := range?_eq_some.1 hr
  obtain ⟨hlow, hlow', hsum, hstop⟩ := toInt_stop hrange hnode hstart hlimit hpos hpos'
  simp only [hstop]
  omega

/-- The ranges of the rows are their windows. -/
theorem peerWindow_iff (hrange : InRange nodes) {first last : ℤ} :
    PeerWindow nodes first last ↔
      ∃ r ∈ existingRanges nodes, first = r.start.toInt ∧ last = r.stop.toInt := by
  constructor
  · rintro ⟨node, hnode, start, limit, hstart, hlimit, hpos, hpos', rfl, rfl⟩
    obtain ⟨-, -, -, hstop⟩ := toInt_stop hrange hnode hstart hlimit hpos hpos'
    exact ⟨⟨start, start + limit - 1⟩, List.mem_filterMap.2 ⟨node, hnode, range?_eq_some.2
      ⟨start, limit, hstart, hlimit, hpos, hpos', rfl⟩⟩, rfl, hstop.symm⟩
  · rintro ⟨r, hr, rfl, rfl⟩
    obtain ⟨node, hnode, hr⟩ := List.mem_filterMap.1 hr
    obtain ⟨start, limit, hstart, hlimit, hpos, hpos', rfl⟩ := range?_eq_some.1 hr
    obtain ⟨-, -, -, hstop⟩ := toInt_stop hrange hnode hstart hlimit hpos hpos'
    exact ⟨node, hnode, start, limit, hstart, hlimit, hpos, hpos', rfl, hstop⟩

/-- A free window is one the search's check passes. -/
theorem freeWindow_iff (hrange : InRange nodes) {networkSize desiredLimit s : ℤ}
    (hlimit : 1 ≤ desiredLimit) :
    FreeWindow nodes networkSize desiredLimit s ↔
      Free (existingRanges nodes) networkSize desiredLimit s := by
  constructor
  · rintro ⟨-, hpos, hin, hapart⟩
    refine ⟨hpos, hin, fun r hr ⟨hstop, hstart⟩ => ?_⟩
    have hbounds := range_bounds hrange hr
    -- the two windows share the later of their first addresses
    refine hapart _ _ ((peerWindow_iff hrange).2 ⟨r, hr, rfl, rfl⟩) (max s r.start.toInt)
      (le_max_left _ _) ?_ ⟨le_max_right _ _, ?_⟩
    · exact max_le (by omega) hstart
    · exact max_le hstop hbounds.2.1
  · rintro ⟨hpos, hin, hapart⟩
    refine ⟨hlimit, hpos, hin, fun first last hwindow x hlow hhigh ⟨hfirst, hlast⟩ => ?_⟩
    obtain ⟨r, hr, rfl, rfl⟩ := (peerWindow_iff hrange).1 hwindow
    exact hapart r hr ⟨by omega, by omega⟩

end

/-! ## Jumps -/

section Jumps

variable {ranges : List DHCPRange} {networkSize desiredLimit c : Int64} {lo : ℤ}

/-- A candidate whose window lies in the network and is not free moves past
the first range it touches. -/
theorem nextCandidate_jump (hc : 1 ≤ c.toInt) (hlimit : 0 < desiredLimit.toInt)
    (hend : c.toInt + desiredLimit.toInt ≤ 2 ^ 63)
    (hin : c.toInt + desiredLimit.toInt - 1 ≤ networkSize.toInt)
    (hnot : ¬Free ranges networkSize.toInt desiredLimit.toInt c.toInt) :
    ∃ r, ranges.find? (overlaps desiredLimit c) = some r ∧ r ∈ ranges ∧
      c.toInt ≤ r.stop.toInt ∧ r.start.toInt ≤ c.toInt + desiredLimit.toInt - 1 ∧
      nextCandidate ranges desiredLimit c = r.stop + 1 := by
  cases hfind : ranges.find? (overlaps desiredLimit c) with
  | some r =>
    obtain ⟨hstop, hstart⟩ := (overlaps_iff hc hlimit hend r).1 (List.find?_some hfind)
    refine ⟨r, rfl, List.mem_of_find?_eq_some hfind, hstop, hstart, ?_⟩
    simp only [nextCandidate, hfind]
  | none =>
    refine absurd ⟨hc, hin, fun r hr htouch => ?_⟩ hnot
    exact List.find?_eq_none.1 hfind r hr ((overlaps_iff hc hlimit hend r).2 htouch)

/-- What one of the loops may answer when it begins at `lo`. -/
def Scanned (ranges : List DHCPRange) (networkSize desiredLimit : Int64) (below : Option Int64)
    (lo : ℤ) : Option Int64 → Prop
  | some s => (∀ b ∈ below, s < b) ∧
      IsLeast {t | lo ≤ t ∧ Free ranges networkSize.toInt desiredLimit.toInt t} s.toInt
  | none => ∀ t, lo ≤ t → (∀ b ∈ below, t < b.toInt) →
      ¬Free ranges networkSize.toInt desiredLimit.toInt t

/-- Between the steps of a loop: no free start has been passed, and where the
loop goes on the window at the candidate does not wrap. -/
structure Scanning (ranges : List DHCPRange) (networkSize desiredLimit : Int64)
    (below : Option Int64) (lo : ℤ) (c : Int64) : Prop where
  pos : 1 ≤ c.toInt
  from_lo : lo ≤ c.toInt
  fits : (∀ b ∈ below, c < b) → c.toInt + desiredLimit.toInt ≤ 2 ^ 63
  passed : ∀ t, lo ≤ t → t < c.toInt → ¬Free ranges networkSize.toInt desiredLimit.toInt t

/-- **A loop comes to an end with the right answer**, where no jump it makes
leads to a window that wraps. -/
theorem scan_total {below : Option Int64} (hlimit : 0 < desiredLimit.toInt)
    (hstops : ∀ r ∈ ranges, r.stop.toInt + 1 < 2 ^ 63)
    (hsafe : ∀ c, Scanning ranges networkSize desiredLimit below lo c →
      c.toInt + desiredLimit.toInt - 1 ≤ networkSize.toInt →
      ∀ r, ranges.find? (overlaps desiredLimit c) = some r →
        (∀ b ∈ below, r.stop.toInt + 1 < b.toInt) → r.stop.toInt + desiredLimit.toInt < 2 ^ 63) :
    ∀ (fuel : ℕ) (c : Int64), Scanning ranges networkSize desiredLimit below lo c →
      networkSize.toInt + 1 - c.toInt ≤ fuel →
      ∃ answer, scan ranges networkSize desiredLimit below (fuel + 1) c = some answer ∧
        Scanned ranges networkSize desiredLimit below lo answer := by
  intro fuel
  induction fuel with
  | zero =>
    intro c hc hfuel
    -- the window at the candidate is out of the network
    have hguard : ¬((below.all fun bound => decide (c < bound)) = true ∧
        c + desiredLimit - 1 ≤ networkSize) := by
      rintro ⟨hbelow, hin⟩
      have hwindow := toInt_windowEnd (by have := hc.pos; omega) hlimit
        (hc.fits (below_all.1 hbelow))
      have hin := Int64.le_iff_toInt_le.1 hin
      push_cast at hfuel
      omega
    refine ⟨none, if_neg hguard, fun t hlow hbelow hfree => ?_⟩
    have hge : c.toInt ≤ t := not_lt.1 fun hlt => hc.passed t hlow hlt hfree
    have hin := hfree.2.1
    push_cast at hfuel
    omega
  | succ fuel ih =>
    intro c hc hfuel
    have hpos := hc.pos
    by_cases hbelow : ∀ b ∈ below, c < b
    · have hfits := hc.fits hbelow
      have hwindow := toInt_windowEnd (by omega) hlimit hfits
      by_cases hin : c.toInt + desiredLimit.toInt - 1 ≤ networkSize.toInt
      · have hguard : (below.all fun bound => decide (c < bound)) = true ∧
            c + desiredLimit - 1 ≤ networkSize :=
          ⟨below_all.2 hbelow, Int64.le_iff_toInt_le.2 (by omega)⟩
        rw [scan, if_pos hguard]
        have hcheck := checkCandidate_iff ranges networkSize hpos hlimit hfits
        by_cases hfree : Free ranges networkSize.toInt desiredLimit.toInt c.toInt
        · rw [if_pos (hcheck.2 hfree)]
          refine ⟨some c, rfl, hbelow, ⟨hc.from_lo, hfree⟩, fun t ht => ?_⟩
          exact not_lt.1 fun hlt => hc.passed t ht.1 hlt ht.2
        · rw [if_neg (mt hcheck.1 hfree)]
          obtain ⟨r, hfind, hr, hstop, hstart, hnext⟩ :=
            nextCandidate_jump hpos hlimit hfits hin hfree
          have hone := toInt_add_one (hstops r hr)
          rw [hnext]
          refine ih _ ⟨by omega, by have := hc.from_lo; omega, fun hb => ?_, fun t hlow hhigh => ?_⟩
            (by push_cast at hfuel ⊢; omega)
          · have hb' : ∀ b ∈ below, r.stop.toInt + 1 < b.toInt := fun b hmem =>
              hone ▸ Int64.lt_iff_toInt_lt.1 (hb b hmem)
            have := hsafe c hc hin r hfind hb'
            omega
          · rcases lt_or_ge t c.toInt with hlt | hge
            · exact hc.passed t hlow hlt
            · -- every start the jump skips still touches the range
              exact fun hfree' => hfree'.2.2 r hr ⟨by omega, by omega⟩
      · have hguard : ¬((below.all fun bound => decide (c < bound)) = true ∧
            c + desiredLimit - 1 ≤ networkSize) := by
          rintro ⟨-, hin'⟩
          have hin' := Int64.le_iff_toInt_le.1 hin'
          omega
        refine ⟨none, if_neg hguard, fun t hlow _ hfree => ?_⟩
        have hge : c.toInt ≤ t := not_lt.1 fun hlt => hc.passed t hlow hlt hfree
        have hin' := hfree.2.1
        omega
    · have hguard : ¬((below.all fun bound => decide (c < bound)) = true ∧
          c + desiredLimit - 1 ≤ networkSize) := fun h => hbelow (below_all.1 h.1)
      refine ⟨none, if_neg hguard, fun t hlow htop hfree => hbelow fun b hb => ?_⟩
      have hge : c.toInt ≤ t := not_lt.1 fun hlt => hc.passed t hlow hlt hfree
      exact Int64.lt_iff_toInt_lt.2 (lt_of_le_of_lt hge (htop b hb))

end Jumps

/-! ## Windows that wrap -/

/-- A window fits behind the range in 64 bits. -/
def fitsBehind (desiredLimit : Int64) (r : DHCPRange) : Bool :=
  decide (r.stop.toInt + desiredLimit.toInt < 2 ^ 63)

/-- The ranges the search meets before one that no window fits behind. -/
def early (desiredLimit : Int64) (ranges : List DHCPRange) : List DHCPRange :=
  ranges.takeWhile (fitsBehind desiredLimit)

/-- **When the search keeps to its integers**: the preferred window does not
wrap, and where the early ranges leave a start from 100 up, so do all. -/
def Contained (ranges : List DHCPRange) (networkSize desiredLimit : Int64) : Prop :=
  100 + desiredLimit.toInt ≤ 2 ^ 63 ∧
    ((∃ t, 100 ≤ t ∧ Free (early desiredLimit ranges) networkSize.toInt desiredLimit.toInt t) →
      ∃ t, 100 ≤ t ∧ Free ranges networkSize.toInt desiredLimit.toInt t)

section Wraps

variable {ranges : List DHCPRange} {networkSize desiredLimit c : Int64} {r : DHCPRange}

/-- What is sought first is none of what is passed before a bar to it. -/
theorem find?_takeWhile {α : Type} {p q : α → Bool} {x : α} {l : List α}
    (hfind : l.find? p = some x) (hx : q x = false) : ∀ y ∈ l.takeWhile q, p y = false := by
  obtain ⟨-, before, after, rfl, hbefore⟩ := List.find?_eq_some_iff_append.1 hfind
  intro y hy
  have hmem : y ∈ before := by
    clear hfind
    induction before with
    | nil =>
      rw [List.nil_append, List.takeWhile_cons_of_neg (by simp [hx])] at hy
      cases hy
    | cons b before ih =>
      rw [List.cons_append] at hy
      by_cases hb : q b = true
      · rw [List.takeWhile_cons_of_pos hb] at hy
        rcases List.mem_cons.1 hy with rfl | hy
        · exact List.mem_cons_self
        · exact List.mem_cons_of_mem _
            (ih (fun a ha => hbefore a (List.mem_cons_of_mem _ ha)) hy)
      · rw [List.takeWhile_cons_of_neg hb] at hy
        cases hy
  simpa using hbefore y hmem

/-- A wrapped window ends below zero. -/
theorem toInt_windowEnd_wrapped (hc : c.toInt < 2 ^ 63)
    (hwrap : 2 ^ 63 < c.toInt + desiredLimit.toInt) :
    (c + desiredLimit - 1).toInt = c.toInt + desiredLimit.toInt - 1 - 2 ^ 64 := by
  have hlimit := desiredLimit.toInt_lt
  rw [Int64.toInt_sub, Int64.toInt_add, Int64.toInt_one, Int.bmod_sub_bmod,
    ← Int.sub_bmod_right, Int.bmod_eq_of_le (by push_cast; omega) (by push_cast; omega)]
  rfl

/-- A candidate whose window wraps passes the check. -/
theorem checkCandidate_wrapped (hc : 1 ≤ c.toInt)
    (hwrap : 2 ^ 63 < c.toInt + desiredLimit.toInt) (hsize : 0 ≤ networkSize.toInt)
    (hstarts : ∀ r ∈ ranges, 1 ≤ r.start.toInt) :
    c + desiredLimit - 1 ≤ networkSize ∧
      checkCandidate ranges networkSize desiredLimit c = true := by
  have hlimit := desiredLimit.toInt_lt
  have hend := toInt_windowEnd_wrapped c.toInt_lt hwrap
  have hclt := c.toInt_lt
  have hin : c + desiredLimit - 1 ≤ networkSize := by
    rw [Int64.le_iff_toInt_le, hend]
    omega
  refine ⟨hin, ?_⟩
  have hout : ¬(c < 1 ∨ networkSize < c + desiredLimit - 1) := by
    rw [Int64.lt_iff_toInt_lt, Int64.lt_iff_toInt_lt, hend, Int64.toInt_one]
    omega
  rw [checkCandidate, if_neg hout, List.all_eq_true]
  intro r hr
  have hstart := hstarts r hr
  -- no range begins as low as the window ends
  have hno : ¬r.start ≤ c + desiredLimit - 1 := by
    rw [Int64.le_iff_toInt_le, hend]
    omega
  simp only [overlaps, rangesOverlap, hno, decide_false, Bool.and_false, Bool.not_false]

/-- The first range a candidate touches is an early one, where a window fits
behind it: an earlier one that none fits behind would be touched before. -/
theorem mem_early (hc : 1 ≤ c.toInt) (hlimit : 0 < desiredLimit.toInt)
    (hend : c.toInt + desiredLimit.toInt ≤ 2 ^ 63)
    (hsorted : ranges.Pairwise fun r r' => r.start ≤ r'.start)
    (hfind : ranges.find? (overlaps desiredLimit c) = some r)
    (hfits : fitsBehind desiredLimit r = true) : r ∈ early desiredLimit ranges := by
  have htouch := (overlaps_iff hc hlimit hend r).1 (List.find?_some hfind)
  obtain ⟨-, before, after, rfl, hbefore⟩ := List.find?_eq_some_iff_append.1 hfind
  have hall : ∀ a ∈ before, fitsBehind desiredLimit a = true := by
    intro a ha
    by_contra hnot
    have hhigh : 2 ^ 63 ≤ a.stop.toInt + desiredLimit.toInt := by
      simpa [fitsBehind] using hnot
    have hclear : ¬overlaps desiredLimit c a = true := by simpa using hbefore a ha
    rw [overlaps_iff hc hlimit hend] at hclear
    have hle := Int64.le_iff_toInt_le.1
      ((List.pairwise_append.1 hsorted).2.2 a ha r List.mem_cons_self)
    omega
  rw [early, List.takeWhile_append_of_pos hall, List.takeWhile_cons_of_pos hfits]
  exact List.mem_append_right _ List.mem_cons_self

/-- A contained search never jumps to a window that wraps. -/
theorem fits_of_contained (hlimit : 0 < desiredLimit.toInt)
    (hcontained : Contained ranges networkSize desiredLimit)
    (hc : Scanning ranges networkSize desiredLimit none 100 c)
    (hin : c.toInt + desiredLimit.toInt - 1 ≤ networkSize.toInt)
    (hfind : ranges.find? (overlaps desiredLimit c) = some r) :
    r.stop.toInt + desiredLimit.toInt < 2 ^ 63 := by
  by_contra hwrap
  have hsize := networkSize.toInt_lt
  have hpos := hc.pos
  have hend := hc.fits nofun
  obtain ⟨hstop, hstart⟩ := (overlaps_iff hpos hlimit hend r).1 (List.find?_some hfind)
  have hbar : fitsBehind desiredLimit r = false := by simpa [fitsBehind] using hwrap
  -- the candidate is clear of the early ranges, so some start is free
  have hearly : Free (early desiredLimit ranges) networkSize.toInt desiredLimit.toInt c.toInt := by
    refine ⟨hpos, hin, fun a ha htouch => ?_⟩
    have hclear := find?_takeWhile hfind hbar a ha
    rw [(overlaps_iff hpos hlimit hend a).2 htouch] at hclear
    cases hclear
  obtain ⟨t, hlow, hfree⟩ := hcontained.2 ⟨c.toInt, hc.from_lo, hearly⟩
  have hge : c.toInt ≤ t := not_lt.1 fun hlt => hc.passed t hlow hlt hfree
  -- and it touches the range, which has no end below it
  have htop := hfree.2.1
  exact hfree.2.2 r (List.mem_of_find?_eq_some hfind) ⟨by omega, by omega⟩

/-- A search with an early start and no free one jumps past the integers. -/
theorem scan_trapped {t : ℤ} (hlimit : 0 < desiredLimit.toInt) (hsize : 0 ≤ networkSize.toInt)
    (hstarts : ∀ r ∈ ranges, 1 ≤ r.start.toInt) (hstops : ∀ r ∈ ranges, r.stop.toInt + 1 < 2 ^ 63)
    (hsorted : ranges.Pairwise fun r r' => r.start ≤ r'.start)
    (hnone : ∀ s, 100 ≤ s → ¬Free ranges networkSize.toInt desiredLimit.toInt s)
    (ht : Free (early desiredLimit ranges) networkSize.toInt desiredLimit.toInt t) :
    ∀ (fuel : ℕ) (c : Int64), 100 ≤ c.toInt → c.toInt ≤ t → ∀ answer,
      scan ranges networkSize desiredLimit none fuel c = some answer →
      ∃ s, answer = some s ∧ networkSize.toInt < s.toInt + desiredLimit.toInt - 1 := by
  have htop := ht.2.1
  have hmax := networkSize.toInt_lt
  intro fuel
  induction fuel with
  | zero =>
    intro c _ _ answer hanswer
    cases hanswer
  | succ fuel ih =>
    intro c hlow hle answer hanswer
    have hpos : 1 ≤ c.toInt := by omega
    have hend : c.toInt + desiredLimit.toInt ≤ 2 ^ 63 := by omega
    have hin : c.toInt + desiredLimit.toInt - 1 ≤ networkSize.toInt := by omega
    have hwindow := toInt_windowEnd (by omega) hlimit hend
    have hguard : ((none : Option Int64).all fun bound => decide (c < bound)) = true ∧
        c + desiredLimit - 1 ≤ networkSize := ⟨rfl, Int64.le_iff_toInt_le.2 (by omega)⟩
    have hfree := hnone c.toInt hlow
    have hcheck := checkCandidate_iff ranges networkSize hpos hlimit hend
    obtain ⟨r, hfind, hr, hstop, hstart, hnext⟩ := nextCandidate_jump hpos hlimit hend hin hfree
    have hone := toInt_add_one (hstops r hr)
    rw [scan, if_pos hguard, if_neg (mt hcheck.1 hfree), hnext] at hanswer
    by_cases hfits : r.stop.toInt + desiredLimit.toInt < 2 ^ 63
    · have hearly := mem_early hpos hlimit hend hsorted hfind (decide_eq_true hfits)
      have hclear := ht.2.2 r hearly
      exact ih _ (by omega) (by omega) answer hanswer
    · -- the next candidate's window wraps, and nothing turns it down
      have hwrap : 2 ^ 63 < (r.stop + 1).toInt + desiredLimit.toInt := by omega
      obtain ⟨hin', hcheck'⟩ := checkCandidate_wrapped (by omega) hwrap hsize hstarts
      cases fuel with
      | zero => cases hanswer
      | succ fuel =>
        rw [scan, if_pos ⟨rfl, hin'⟩, if_pos hcheck'] at hanswer
        obtain rfl := Option.some.inj hanswer
        exact ⟨r.stop + 1, rfl, by omega⟩

end Wraps

/-! ## When the search is right -/

section

variable {nodes : List MeshNode} (sorted : SortedRanges nodes) {desiredLimit : Int64} {ones : ℕ}

include sorted in
theorem freeWindow_sorted (hrange : InRange nodes) (hlimit : 0 < desiredLimit) :
    FreeWindow nodes (hosts ones).toInt desiredLimit.toInt =
      Free sorted.ranges (hosts ones).toInt desiredLimit.toInt := by
  have hlimit := Int64.lt_iff_toInt_lt.1 hlimit
  rw [Int64.toInt_zero] at hlimit
  rw [free_sorted sorted]
  exact funext fun s => propext (freeWindow_iff hrange hlimit)

/-- The search, past its checks of the limit and the network. -/
theorem calculate_eq (ranges : List DHCPRange) (hlimit : 0 < desiredLimit) (hsize : 0 < hosts ones)
    (fuel : ℕ) :
    calculateAvailableDHCPStart ranges desiredLimit ones fuel =
      if checkCandidate ranges (hosts ones) desiredLimit 100 then some (.ok 100)
      else
        match scan ranges (hosts ones) desiredLimit none fuel 100 with
        | none => none
        | some (some start) => some (.ok start)
        | some none =>
          match scan ranges (hosts ones) desiredLimit (some 100) fuel 1 with
          | none => none
          | some (some start) => some (.ok start)
          | some none => some (.error (.noRange desiredLimit (hosts ones))) :=
  (if_neg (Int64.not_le.2 hlimit)).trans (if_neg (Int64.not_le.2 hsize))

/-- A contained search comes to an end with the right answer. -/
theorem calculate_total (hrange : InRange nodes) (hlimit : 0 < desiredLimit)
    (hsize : 0 < hosts ones) (hcontained : Contained sorted.ranges (hosts ones) desiredLimit) :
    ∃ fuel answer, calculateAvailableDHCPStart sorted.ranges desiredLimit ones fuel =
      some answer ∧ Allocates nodes (hosts ones).toInt desiredLimit.toInt answer := by
  have hfree : FreeWindow nodes (hosts ones).toInt desiredLimit.toInt =
      Free sorted.ranges (hosts ones).toInt desiredLimit.toInt :=
    freeWindow_sorted sorted hrange hlimit
  have hpreferred := hcontained.1
  have hlimit' := Int64.lt_iff_toInt_lt.1 hlimit
  have hsize' := Int64.lt_iff_toInt_lt.1 hsize
  rw [Int64.toInt_zero] at hlimit' hsize'
  have hstops : ∀ r ∈ sorted.ranges, r.stop.toInt + 1 < 2 ^ 63 := fun r hr =>
    (range_bounds hrange (sorted.perm.mem_iff.1 hr)).2.2
  have hhundred : (100 : Int64).toInt = 100 := by decide
  have hfuel : ((hosts ones).toInt.toNat : ℤ) = (hosts ones).toInt :=
    Int.toNat_of_nonneg hsize'.le
  obtain ⟨first, hfirst, hfirst'⟩ : ∃ first,
      scan sorted.ranges (hosts ones) desiredLimit none ((hosts ones).toInt.toNat + 1) 100 =
        some first ∧ Scanned sorted.ranges (hosts ones) desiredLimit none 100 first := by
    refine scan_total hlimit' hstops
      (fun c hc hin r hfind _ => fits_of_contained hlimit' hcontained hc hin hfind) _ _
      ⟨by omega, by omega, fun _ => by omega, fun t hlow hhigh => ?_⟩ (by omega)
    omega
  obtain ⟨second, hsecond, hsecond'⟩ : ∃ second,
      scan sorted.ranges (hosts ones) desiredLimit (some 100) ((hosts ones).toInt.toNat + 1) 1 =
        some second ∧ Scanned sorted.ranges (hosts ones) desiredLimit (some 100) 1 second := by
    have hone := Int64.toInt_one
    refine scan_total hlimit' hstops (fun c _ _ r _ hbelow => ?_) _ _
      ⟨by omega, by omega, fun _ => by omega, fun t hlow hhigh => ?_⟩ (by omega)
    · have hlt := hbelow 100 rfl
      omega
    · omega
  refine ⟨(hosts ones).toInt.toNat + 1, ?_⟩
  rw [calculate_eq sorted.ranges hlimit hsize, hfirst, hsecond]
  by_cases hcheck : checkCandidate sorted.ranges (hosts ones) desiredLimit 100 = true
  · rw [if_pos hcheck]
    have hmem := (checkCandidate_iff _ _ (by omega) hlimit' (by omega)).1 hcheck
    refine ⟨.ok 100, rfl, ?_⟩
    rw [Allocates, hfree]
    exact .inl ⟨⟨by omega, hmem⟩, fun t ht => hhundred ▸ ht.1⟩
  rw [if_neg hcheck]
  cases first with
  | some s =>
    refine ⟨.ok s, rfl, ?_⟩
    rw [Allocates, hfree]
    exact .inl hfirst'.2
  | none =>
    have hnone : ∀ t, 100 ≤ t → ¬Free sorted.ranges (hosts ones).toInt desiredLimit.toInt t :=
      fun t ht => hfirst' t ht nofun
    cases second with
    | some s =>
      refine ⟨.ok s, rfl, ?_⟩
      rw [Allocates, hfree]
      exact .inr ⟨hnone, hsecond'.2.1.2, fun t ht => hsecond'.2.2 ⟨ht.1, ht⟩⟩
    | none =>
      refine ⟨_, rfl, ?_⟩
      rw [Allocates, hfree]
      intro t ht
      rcases lt_or_ge t 100 with hlt | hge
      · exact hsecond' t ht.1 (fun b hb => by cases hb; rwa [hhundred]) ht
      · exact hnone t hge ht

/-- An answer outside the network is no answer. -/
theorem not_allocates_of_lt {networkSize limit : ℤ} {s : Int64}
    (h : networkSize < s.toInt + limit - 1) : ¬Allocates nodes networkSize limit (.ok s) := by
  rintro (hleast | ⟨-, hleast⟩)
  · have hin := hleast.1.2.2.2.1
    omega
  · have hin := hleast.1.2.2.1
    omega

/-- A search that is right is a contained one. -/
theorem contained_of_allocates (hrange : InRange nodes) (hlimit : 0 < desiredLimit)
    (hsize : 0 < hosts ones) {fuel : ℕ} {answer : Except Failure Int64}
    (hanswer : calculateAvailableDHCPStart sorted.ranges desiredLimit ones fuel = some answer)
    (hallocates : Allocates nodes (hosts ones).toInt desiredLimit.toInt answer) :
    Contained sorted.ranges (hosts ones) desiredLimit := by
  have hlimit' := Int64.lt_iff_toInt_lt.1 hlimit
  have hsize' := Int64.lt_iff_toInt_lt.1 hsize
  rw [Int64.toInt_zero] at hlimit' hsize'
  have hmax := (hosts ones).toInt_lt
  have hhundred : (100 : Int64).toInt = 100 := by decide
  have hstarts : ∀ r ∈ sorted.ranges, 1 ≤ r.start.toInt := fun r hr =>
    (range_bounds hrange (sorted.perm.mem_iff.1 hr)).1
  have hstops : ∀ r ∈ sorted.ranges, r.stop.toInt + 1 < 2 ^ 63 := fun r hr =>
    (range_bounds hrange (sorted.perm.mem_iff.1 hr)).2.2
  rw [calculate_eq sorted.ranges hlimit hsize] at hanswer
  have hpreferred : 100 + desiredLimit.toInt ≤ 2 ^ 63 := by
    by_contra hwrap
    have hwrap' : 2 ^ 63 < (100 : Int64).toInt + desiredLimit.toInt := by omega
    obtain ⟨-, hcheck⟩ := checkCandidate_wrapped (by omega) hwrap' hsize'.le hstarts
    rw [if_pos hcheck] at hanswer
    obtain rfl := Option.some.inj hanswer
    exact not_allocates_of_lt (by omega) hallocates
  refine ⟨hpreferred, fun ⟨t, hlow, ht⟩ => ?_⟩
  by_contra hno
  have hnone : ∀ s, 100 ≤ s → ¬Free sorted.ranges (hosts ones).toInt desiredLimit.toInt s :=
    fun s hs hfree => hno ⟨s, hs, hfree⟩
  have hcheck : ¬checkCandidate sorted.ranges (hosts ones) desiredLimit 100 = true := by
    rw [checkCandidate_iff _ _ (by omega) hlimit' (by omega)]
    exact hnone _ (by omega)
  rw [if_neg hcheck] at hanswer
  cases hscan : scan sorted.ranges (hosts ones) desiredLimit none fuel 100 with
  | none =>
    rw [hscan] at hanswer
    cases hanswer
  | some first =>
    obtain ⟨s, rfl, hout⟩ := scan_trapped hlimit' hsize'.le hstarts hstops sorted.sorted hnone ht
      fuel 100 (by omega) (by omega) first hscan
    rw [hscan] at hanswer
    obtain rfl := Option.some.inj hanswer
    exact not_allocates_of_lt hout hallocates

/-- **When the window search is right.** Its answer is sound, lowest-first and
complete exactly where the preferred window does not wrap and where the ranges
sorted before the first that no window fits behind leave a start from 100 up
only if all ranges do. -/
theorem calculate_allocates_iff (hrange : InRange nodes) :
    (∃ fuel answer, calculateAvailableDHCPStart sorted.ranges desiredLimit ones fuel =
        some answer ∧ Allocates nodes (hosts ones).toInt desiredLimit.toInt answer) ↔
      (0 < desiredLimit → 0 < hosts ones →
        Contained sorted.ranges (hosts ones) desiredLimit) := by
  constructor
  · rintro ⟨fuel, answer, hanswer, hallocates⟩ hlimit hsize
    exact contained_of_allocates sorted hrange hlimit hsize hanswer hallocates
  · intro hcontained
    by_cases hlimit : 0 < desiredLimit
    · by_cases hsize : 0 < hosts ones
      · exact calculate_total sorted hrange hlimit hsize (hcontained hlimit hsize)
      · -- a network without hosts has no window
        have hsize' := Int64.not_lt.1 hsize
        refine ⟨0, .error .networkSize, ?_, fun s hs => ?_⟩
        · rw [calculateAvailableDHCPStart, if_neg (Int64.not_le.2 hlimit), if_pos hsize']
        · have hle := Int64.le_iff_toInt_le.1 hsize'
          rw [Int64.toInt_zero] at hle
          obtain ⟨hone, hpos, hin, -⟩ := hs
          omega
    · have hlimit' := Int64.not_lt.1 hlimit
      refine ⟨0, .error .desiredLimit, ?_, fun s hs => ?_⟩
      · rw [calculateAvailableDHCPStart, if_pos hlimit']
      · have hle := Int64.le_iff_toInt_le.1 hlimit'
        rw [Int64.toInt_zero] at hle
        have hone := hs.1
        omega

end

/-- One peer with a window of the default width. -/
def onePeer : SortedRanges [.ofWindow "10.41.1.1" 100] := .self _ (by decide +kernel)

theorem inRange_onePeer : InRange [.ofWindow "10.41.1.1" 100] := by
  intro node hnode start limit hstart hlimit
  obtain rfl := List.mem_singleton.1 hnode
  obtain rfl := Option.some.inj hstart
  obtain rfl := Option.some.inj hlimit
  decide

theorem calculate_allocates_iff_one :
    (∃ fuel answer, calculateAvailableDHCPStart onePeer.ranges 16 16 fuel = some answer ∧
        Allocates [.ofWindow "10.41.1.1" 100] (hosts 16).toInt (16 : Int64).toInt answer) ↔
      ((0 : Int64) < 16 → 0 < hosts 16 → Contained onePeer.ranges (hosts 16) 16) :=
  calculate_allocates_iff onePeer inRange_onePeer

/-- A peer's window from 100 that ends two short of 2⁶³. -/
def highWindow : List MeshNode := [⟨"", "", some 100, some 9223372036854775707⟩]

/-- **The search leaves the network.** With no start free it jumps past the one
window to one whose own window wraps, and takes it. -/
theorem high_window_escapes :
    ∃ sorted : SortedRanges highWindow, InRange highWindow ∧
      calculateAvailableDHCPStart sorted.ranges 150 16 3 = some (.ok 9223372036854775807) ∧
      ¬Allocates highWindow (hosts 16).toInt (150 : Int64).toInt (.ok 9223372036854775807) := by
  refine ⟨.self _ (by decide +kernel), ?_, by decide +kernel, ?_⟩
  · intro node hnode start limit hstart hlimit
    obtain rfl := List.mem_singleton.1 hnode
    obtain rfl := Option.some.inj hstart
    obtain rfl := Option.some.inj hlimit
    decide
  · exact not_allocates_of_lt (by decide)

end Address

end OpenManet
