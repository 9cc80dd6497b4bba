import OpenManet.Address.Search
/-!
# Static addresses and DHCP windows

One network, two allocators. The window search keeps clear of the peers'
windows and looks at no static address; the static search keeps clear of the
peers' static addresses and looks at no window, not even the one this node is
about to claim. `Apart` says when that does no harm: the first gap the
windows leave holds no peer's address, and the first address the rows leave
lies neither in that gap nor in a window. Both are said of the rows, the role
and the draws alone.

The condition is exact where every window ends low enough for another to fit
behind it in 64 bits. Past that the outcome is not a matter of the rows at
all: `ties_decide` has one set of rows that collides or not as the sort
leaves two ranges with the same start.
-/

namespace OpenManet

namespace Address

/-- An address lies in the window of `limit` addresses from `start`. -/
def InWindow (start limit : ℤ) (ip : String) : Prop :=
  ∃ x : ℕ, x < 65536 ∧ start ≤ x ∧ x < start + limit ∧ ip = address x

/-- An address lies in the window a row records. -/
def MeshNode.Leases (node : MeshNode) (ip : String) : Prop :=
  ∃ start limit, node.uciDhcpStart = some start ∧ node.uciDhcpLimit = some limit ∧
    InWindow start.toInt limit.toInt ip

/-- Static addresses and windows do not overlap: the chosen window has
neither the chosen address nor a peer's, and the chosen address lies in no
peer's window. -/
structure NoOverlap (nodes : List MeshNode) (staticIP : String) (dhcpStart : ℤ) : Prop where
  own : ¬InWindow dhcpStart defaultDHCPAddressLimit.toInt staticIP
  peers : ∀ node ∈ nodes, ¬InWindow dhcpStart defaultDHCPAddressLimit.toInt node.ipAddr
  windows : ∀ node ∈ nodes, ¬node.Leases staticIP

/-- The first gap the peers' windows leave. -/
def FirstGap (nodes : List MeshNode) : ℤ → Prop :=
  FirstStart (Free (existingRanges nodes) (hosts defaultNetworkMask).toInt
    defaultDHCPAddressLimit.toInt)

/-- The windows and the static addresses of the rows leave room for each
other. -/
structure Apart (draws : ℕ → Fin 252 × Fin 254) (nodes : List MeshNode) (gatewayMode : Bool) :
    Prop where
  gap : ∀ s, FirstGap nodes s → ∀ ip, Held nodes ip →
    ¬InWindow s defaultDHCPAddressLimit.toInt ip
  offer : ∀ s, FirstGap nodes s → ∀ ip, FirstUnheld nodes (offered draws nodes gatewayMode) ip →
    ¬InWindow s defaultDHCPAddressLimit.toInt ip
  windows : ∀ ip, FirstUnheld nodes (offered draws nodes gatewayMode) ip →
    ∀ node ∈ nodes, ¬node.Leases ip

/-- Every window ends where another still fits behind it. -/
def Bounded (nodes : List MeshNode) : Prop :=
  ∀ r ∈ existingRanges nodes, r.stop.toInt + defaultDHCPAddressLimit.toInt < 2 ^ 63

section

variable {nodes : List MeshNode} (sorted : SortedRanges nodes) {draws : ℕ → Fin 252 × Fin 254}
  {gatewayMode : Bool} {fuel : ℕ} {staticIP : String} {dhcpStart : Int64}

include sorted in
/-- A free window does not see the order of the ranges. -/
theorem free_sorted (networkSize desiredLimit : ℤ) :
    Free sorted.ranges networkSize desiredLimit =
      Free (existingRanges nodes) networkSize desiredLimit := by
  funext t
  simp only [Free, sorted.perm.mem_iff]

theorem tame_of_bounded (h : Bounded nodes) :
    Tame sorted.ranges (hosts defaultNetworkMask) defaultDHCPAddressLimit where
  limit := by decide
  size := by decide
  preferred := by decide
  stops r hr := h r (sorted.perm.mem_iff.1 hr)

/-- What a reservation chooses: the first address unheld and the first gap. -/
theorem applyReservation_eq_ok (hbounded : Bounded nodes)
    (h : applyReservation sorted draws gatewayMode fuel = some (.ok (staticIP, dhcpStart))) :
    FirstUnheld nodes (offered draws nodes gatewayMode) staticIP ∧
      FirstGap nodes dhcpStart.toInt := by
  unfold applyReservation at h
  split at h
  · cases h
  · rename_i ip hselect
    split at h
    · cases h
    · cases h
    · rename_i start hcalc
      obtain ⟨rfl, rfl⟩ : ip = staticIP ∧ start = dhcpStart := by simpa using h
      refine ⟨select_eq_ok_iff.1 hselect, ?_⟩
      unfold FirstGap
      rw [← free_sorted sorted]
      exact calculate_eq_ok (tame_of_bounded sorted hbounded) hcalc

/-- **When the two allocators agree.** What a reservation chooses overlaps
nothing exactly when the rows' windows and static addresses leave room for
each other. -/
theorem noOverlap_iff_apart (hbounded : Bounded nodes)
    (h : applyReservation sorted draws gatewayMode fuel = some (.ok (staticIP, dhcpStart))) :
    NoOverlap nodes staticIP dhcpStart.toInt ↔ Apart draws nodes gatewayMode := by
  obtain ⟨hip, hstart⟩ := applyReservation_eq_ok sorted hbounded h
  constructor
  · intro hno
    refine ⟨fun s hs ip hheld => ?_, fun s hs ip hfirst => ?_, fun ip hfirst => ?_⟩
    · obtain rfl := hs.unique hstart
      obtain ⟨node, hnode, rfl⟩ := hheld
      exact hno.peers node hnode
    · obtain rfl := hs.unique hstart
      obtain rfl := hfirst.unique hip
      exact hno.own
    · obtain rfl := hfirst.unique hip
      exact hno.windows
  · intro hapart
    exact ⟨hapart.offer _ hstart _ hip,
      fun node hnode => hapart.gap _ hstart _ ⟨node, hnode, rfl⟩, hapart.windows _ hip⟩

end

/-- A row with a window of the default width. -/
def MeshNode.ofWindow (ipAddr : String) (start : Int64) : MeshNode :=
  ⟨"", ipAddr, some start, some defaultDHCPAddressLimit⟩

/-- Rows in the order of their starts are their own sorted arrangement. -/
def SortedRanges.self (nodes : List MeshNode)
    (h : (existingRanges nodes).Pairwise fun r r' => r.start ≤ r'.start) : SortedRanges nodes :=
  ⟨existingRanges nodes, .refl _, h⟩

/-- A gateway that knows one point. -/
theorem noOverlap_iff_apart_one :
    NoOverlap [.ofWindow "10.41.1.1" 100] "10.41.0.1" (116 : Int64).toInt ↔
      Apart zeroDraws [.ofWindow "10.41.1.1" 100] true :=
  noOverlap_iff_apart (.self _ (by decide +kernel)) (by unfold Bounded; decide +kernel)
    (by decide +kernel : applyReservation _ zeroDraws true 3 = some (.ok ("10.41.0.1", 116)))

/-- Ten points that came up one after the other: addresses from 10.41.1.1
up, windows from 100 up. -/
def tenPoints : List MeshNode :=
  (List.range 10).map fun i => .ofWindow (dotted 1 (i + 1)) (100 + 16 * Int64.ofNat i)

/-- The eleventh point takes 10.41.1.11 and the window from 260, which is
10.41.1.4 to 10.41.1.19: its own address, and those of seven peers. -/
theorem eleventh_point_overlaps :
    ∃ sorted : SortedRanges tenPoints,
      applyReservation sorted zeroDraws false 20 = some (.ok ("10.41.1.11", 260)) ∧
        ¬NoOverlap tenPoints "10.41.1.11" (260 : Int64).toInt := by
  refine ⟨.self tenPoints (by decide +kernel), by decide +kernel, fun hno => ?_⟩
  exact hno.own ⟨267, by decide, by decide, by decide, by decide +kernel⟩

/-! ## Windows that wrap -/

/-- Two rows whose windows begin together: one ends past the network, the
other eleven short of 2⁶³. -/
def twoHighWindows : List MeshNode :=
  [⟨"", "10.41.0.5", some 100, some 69901⟩, ⟨"", "", some 100, some 9223372036854775698⟩]

/-- **Ties decide.** One set of rows, one role, one address chosen, and the
order the sort leaves two equal starts in says whether the window overlaps. -/
theorem ties_decide :
    ∃ (first second : SortedRanges twoHighWindows) (s t : Int64),
      applyReservation first zeroDraws true 5 = some (.ok ("10.41.0.1", s)) ∧
        ¬NoOverlap twoHighWindows "10.41.0.1" s.toInt ∧
        applyReservation second zeroDraws true 5 = some (.ok ("10.41.0.1", t)) ∧
        NoOverlap twoHighWindows "10.41.0.1" t.toInt := by
  refine ⟨.self _ (by decide +kernel), ⟨[⟨100, 9223372036854775797⟩, ⟨100, 70000⟩],
    by decide +kernel, by decide +kernel⟩, 1, 9223372036854775798, by decide +kernel,
    fun hno => ?_, by decide +kernel, ?_, ?_, ?_⟩
  · exact hno.peers _ List.mem_cons_self ⟨5, by decide, by decide, by decide, by decide +kernel⟩
  -- the second window begins past every address
  · rintro ⟨x, hx, hlow, -, -⟩
    have : (9223372036854775798 : Int64).toInt = 9223372036854775798 := by decide
    omega
  · rintro node - ⟨x, hx, hlow, -, -⟩
    have : (9223372036854775798 : Int64).toInt = 9223372036854775798 := by decide
    omega
  · rintro node hnode ⟨start, limit, hstart, -, x, hx, hlow, -, hip⟩
    have hone : (1 : ℕ) = x := by
      refine address_inj (by decide) hx (Eq.trans ?_ hip)
      decide +kernel
    have hhundred : start = 100 := by
      rcases List.mem_cons.1 hnode with rfl | hnode
      · simpa using hstart.symm
      · obtain rfl := List.mem_singleton.1 hnode
        simpa using hstart.symm
    subst hhundred
    have : (100 : Int64).toInt = 100 := by decide
    omega

end Address

end OpenManet
