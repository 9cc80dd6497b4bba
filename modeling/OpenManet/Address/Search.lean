import OpenManet.Address.Model
import Mathlib.Order.Bounds.Basic
import Mathlib.Data.List.Nodup
import Mathlib.Algebra.Ring.Int.Defs
/-!
# What the two searches find

The static search finds the first address of its list that no row holds. The
window search finds the lowest free window from 100 up, or else the lowest of
all: it jumps, but only over starts whose windows touch the range it jumps
past. The second needs that no range ends so high that a window past it
wraps; `Tame` says so.
-/

namespace OpenManet

namespace Address

/-! ## Spelling -/

/-- Reading the digits of an octet back. -/
theorem toString_inj {m n : ℕ} (hm : m < 256) (hn : n < 256) (h : toString m = toString n) :
    m = n := by
  have hread : ∀ k < 256, (toString k).toList.foldl (fun n c => 10 * n + (c.toNat - 48)) 0 = k := by
    decide +kernel
  rw [← hread m hm, ← hread n hn, h]

theorem dot_notMem_toString {n : ℕ} (hn : n < 256) : '.' ∉ (toString n).toList := by
  have hall : ∀ k < 256, '.' ∉ (toString k).toList := by decide +kernel
  exact hall n hn

/-- The part of an address before its last dot. -/
theorem takeWhile_dotted {third : ℕ} (fourth : ℕ) (h : third < 256) :
    ((dotted third fourth).toList.drop 6).takeWhile (· ≠ '.') = (toString third).toList := by
  have hdrop : (dotted third fourth).toList.drop 6 =
      (toString third).toList ++ '.' :: (toString fourth).toList := by
    simp only [dotted, String.toList_append, List.append_assoc]
    rfl
  rw [hdrop, List.takeWhile_append_of_pos]
  · simp
  · intro c hc
    simp only [decide_eq_true_eq]
    rintro rfl
    exact dot_notMem_toString h hc

/-- Two addresses of the network are spelled apart. -/
theorem dotted_inj {third fourth third' fourth' : ℕ} (h₃ : third < 256) (h₃' : third' < 256)
    (h₄ : fourth < 256) (h₄' : fourth' < 256) (h : dotted third fourth = dotted third' fourth') :
    third = third' ∧ fourth = fourth' := by
  have hthird : third = third' := by
    refine toString_inj h₃ h₃' (String.toList_inj.1 ?_)
    rw [← takeWhile_dotted fourth h₃, ← takeWhile_dotted fourth' h₃', h]
  subst hthird
  refine ⟨rfl, toString_inj h₄ h₄' ?_⟩
  have happend := congrArg String.toList h
  simp only [dotted, String.toList_append] at happend
  exact String.toList_inj.1 (List.append_cancel_left happend)

theorem address_inj {x y : ℕ} (hx : x < 65536) (hy : y < 65536) (h : address x = address y) :
    x = y := by
  obtain ⟨hthird, hfourth⟩ := dotted_inj (by omega) (by omega) (by omega) (by omega) h
  omega

theorem dotted_ne_empty (third fourth : ℕ) : dotted third fourth ≠ "" := by
  intro h
  simp [dotted, String.append_eq_empty_iff] at h

/-! ## The first address no row holds -/

/-- A row holds the address. -/
def Held (nodes : List MeshNode) (ip : String) : Prop := ∃ node ∈ nodes, node.ipAddr = ip

/-- The addresses the static search goes through, in order. -/
def offered (draws : ℕ → Fin 252 × Fin 254) (nodes : List MeshNode) (gatewayMode : Bool) :
    List String :=
  if gatewayMode then gatewayCandidates else drawnCandidates draws nodes ++ pointCandidates

/-- The first of a list of addresses that no row holds. -/
def FirstUnheld (nodes : List MeshNode) (offers : List String) (ip : String) : Prop :=
  ∃ before after, offers = before ++ ip :: after ∧ (∀ b ∈ before, Held nodes b) ∧ ¬Held nodes ip

theorem mem_reservedIPs {nodes : List MeshNode} {ip : String} (h : ip ≠ "") :
    ip ∈ reservedIPs nodes ↔ Held nodes ip := by
  simp [reservedIPs, Held, h]

theorem ne_empty_of_mem_gatewayCandidates {ip : String} (h : ip ∈ gatewayCandidates) : ip ≠ "" := by
  obtain ⟨fourth, -, rfl⟩ := List.mem_map.1 h
  exact dotted_ne_empty 0 fourth

theorem ne_empty_of_mem_offered {draws : ℕ → Fin 252 × Fin 254} {nodes : List MeshNode}
    {gatewayMode : Bool} {ip : String} (h : ip ∈ offered draws nodes gatewayMode) : ip ≠ "" := by
  unfold offered at h
  split at h
  · exact ne_empty_of_mem_gatewayCandidates h
  · rcases List.mem_append.1 h with hdrawn | hpoint
    · unfold drawnCandidates at hdrawn
      split at hdrawn
      · obtain ⟨attempt, -, rfl⟩ := List.mem_map.1 hdrawn
        exact dotted_ne_empty _ _
      · cases hdrawn
    · obtain ⟨third, -, hthird⟩ := List.mem_flatMap.1 hpoint
      obtain ⟨fourth, -, rfl⟩ := List.mem_map.1 hthird
      exact dotted_ne_empty _ _

/-- The three loops are one walk over what the role is offered. -/
theorem select_toOption (draws : ℕ → Fin 252 × Fin 254) (nodes : List MeshNode)
    (gatewayMode : Bool) :
    (selectAvailableStaticIPFromNodeData draws nodes gatewayMode).toOption =
      (offered draws nodes gatewayMode).find? fun ip => decide (ip ∉ reservedIPs nodes) := by
  unfold selectAvailableStaticIPFromNodeData offered
  cases gatewayMode with
  | true =>
      simp only [if_true]
      cases gatewayCandidates.find? _ <;> rfl
  | false =>
      simp only [Bool.false_eq_true, if_false, List.find?_append]
      cases (drawnCandidates draws nodes).find? _ with
      | some ip => rfl
      | none => cases pointCandidates.find? _ <;> rfl

/-- **The static search.** It answers with the first address offered that no
row holds. -/
theorem select_eq_ok_iff {draws : ℕ → Fin 252 × Fin 254} {nodes : List MeshNode}
    {gatewayMode : Bool} {ip : String} :
    selectAvailableStaticIPFromNodeData draws nodes gatewayMode = .ok ip ↔
      FirstUnheld nodes (offered draws nodes gatewayMode) ip := by
  have hoption : selectAvailableStaticIPFromNodeData draws nodes gatewayMode = .ok ip ↔
      (selectAvailableStaticIPFromNodeData draws nodes gatewayMode).toOption = some ip := by
    cases selectAvailableStaticIPFromNodeData draws nodes gatewayMode <;>
      simp [Except.toOption]
  rw [hoption, select_toOption, List.find?_eq_some_iff_append]
  -- no address offered is empty, so reserved and held are one
  have hheld : ∀ b ∈ offered draws nodes gatewayMode, b ∈ reservedIPs nodes ↔ Held nodes b :=
    fun b hb => mem_reservedIPs (ne_empty_of_mem_offered hb)
  constructor
  · rintro ⟨hip, before, after, hsplit, hbefore⟩
    refine ⟨before, after, hsplit, fun b hb => ?_, ?_⟩
    · exact (hheld b (hsplit ▸ List.mem_append_left _ hb)).1 (by simpa using hbefore b hb)
    · rw [← hheld ip (hsplit ▸ List.mem_append_right _ List.mem_cons_self)]
      simpa using hip
  · rintro ⟨before, after, hsplit, hbefore, hip⟩
    refine ⟨?_, before, after, hsplit, fun b hb => ?_⟩
    · rw [← hheld ip (hsplit ▸ List.mem_append_right _ List.mem_cons_self)] at hip
      simpa using hip
    · simpa using (hheld b (hsplit ▸ List.mem_append_left _ hb)).2 (hbefore b hb)

theorem FirstUnheld.unique {nodes : List MeshNode} {draws : ℕ → Fin 252 × Fin 254}
    {gatewayMode : Bool} {ip ip' : String}
    (h : FirstUnheld nodes (offered draws nodes gatewayMode) ip)
    (h' : FirstUnheld nodes (offered draws nodes gatewayMode) ip') : ip = ip' := by
  have hok := select_eq_ok_iff.2 h
  rw [select_eq_ok_iff.2 h'] at hok
  exact (Except.ok.inj hok).symm

/-- It answers at all where some address offered is not held. -/
theorem exists_firstUnheld {nodes : List MeshNode} {draws : ℕ → Fin 252 × Fin 254}
    {gatewayMode : Bool} {ip : String} (hip : ip ∈ offered draws nodes gatewayMode)
    (h : ¬Held nodes ip) : ∃ ip, FirstUnheld nodes (offered draws nodes gatewayMode) ip := by
  have hsome : ((offered draws nodes gatewayMode).find?
      fun ip => decide (ip ∉ reservedIPs nodes)).isSome := by
    refine List.find?_isSome.2 ⟨ip, hip, ?_⟩
    simpa [mem_reservedIPs (ne_empty_of_mem_offered hip)] using h
  rw [← select_toOption] at hsome
  cases hselect : selectAvailableStaticIPFromNodeData draws nodes gatewayMode with
  | ok ip => exact ⟨ip, select_eq_ok_iff.1 hselect⟩
  | error e => rw [hselect] at hsome; cases hsome

/-- The first address unheld is a matter of what is held. -/
theorem FirstUnheld.congr {nodes nodes' : List MeshNode} {offers : List String} {ip : String}
    (hheld : ∀ ip, Held nodes ip ↔ Held nodes' ip) (h : FirstUnheld nodes offers ip) :
    FirstUnheld nodes' offers ip := by
  obtain ⟨before, after, hsplit, hbefore, hip⟩ := h
  exact ⟨before, after, hsplit, fun b hb => (hheld b).1 (hbefore b hb), fun hcon =>
    hip ((hheld ip).2 hcon)⟩

theorem nodup_gatewayCandidates : gatewayCandidates.Nodup := by
  refine List.Nodup.map_on (fun x hx y hy h => ?_) List.nodup_range'
  rw [List.mem_range'_1] at hx hy
  exact (dotted_inj (by omega) (by omega) (by omega) (by omega) h).2

/-! ## The ranges of the two roles -/

/-- The addresses a role may take: 10.41.0.1 to 10.41.0.254 for a gateway, and
for a point those of the other networks but 253 and 254. -/
def Eligible (gatewayMode : Bool) (ip : String) : Prop :=
  ∃ third fourth, ip = dotted third fourth ∧ (1 ≤ fourth ∧ fourth ≤ 254) ∧
    if gatewayMode then third = 0 else 1 ≤ third ∧ third ≤ 252 ∨ third = 255

theorem mem_gatewayCandidates {ip : String} : ip ∈ gatewayCandidates ↔ Eligible true ip := by
  unfold gatewayCandidates Eligible
  simp only [List.mem_map, List.mem_range'_1, if_true]
  constructor
  · rintro ⟨fourth, hfourth, rfl⟩
    exact ⟨0, fourth, rfl, by omega, rfl⟩
  · rintro ⟨third, fourth, rfl, hfourth, rfl⟩
    exact ⟨fourth, by omega, rfl⟩

theorem mem_pointCandidates {ip : String} : ip ∈ pointCandidates ↔ Eligible false ip := by
  unfold pointCandidates Eligible
  simp only [List.mem_flatMap, List.mem_map, List.mem_filter, List.mem_range'_1,
    Bool.false_eq_true, if_false, decide_eq_true_eq]
  constructor
  · rintro ⟨third, hthird, fourth, hfourth, rfl⟩
    exact ⟨third, fourth, rfl, by omega, by omega⟩
  · rintro ⟨third, fourth, rfl, hfourth, hthird⟩
    exact ⟨third, by omega, fourth, by omega, rfl⟩

/-- A draw stays in the range: it never comes to 253. -/
theorem eligible_drawn (draw : Fin 252 × Fin 254) : Eligible false (drawn draw) := by
  have hthird := draw.1.isLt
  have hfourth := draw.2.isLt
  have hno : draw.1.val + 1 ≠ 253 := by omega
  unfold drawn
  dsimp only
  rw [if_neg hno]
  exact ⟨_, _, rfl, by omega, .inl (by omega)⟩

/-- **What a role is offered is its range**, whatever the draws are. -/
theorem mem_offered {draws : ℕ → Fin 252 × Fin 254} {nodes : List MeshNode} {gatewayMode : Bool}
    {ip : String} : ip ∈ offered draws nodes gatewayMode ↔ Eligible gatewayMode ip := by
  cases gatewayMode with
  | true => exact mem_gatewayCandidates
  | false =>
      show ip ∈ drawnCandidates draws nodes ++ pointCandidates ↔ _
      rw [List.mem_append, mem_pointCandidates, or_iff_right_of_imp]
      intro hdrawn
      unfold drawnCandidates at hdrawn
      split at hdrawn
      · obtain ⟨attempt, -, rfl⟩ := List.mem_map.1 hdrawn
        exact eligible_drawn _
      · cases hdrawn

/-- The address chosen is of the role's range, and nobody's. -/
theorem select_mem {draws : ℕ → Fin 252 × Fin 254} {nodes : List MeshNode} {gatewayMode : Bool}
    {ip : String} (h : selectAvailableStaticIPFromNodeData draws nodes gatewayMode = .ok ip) :
    Eligible gatewayMode ip ∧ ¬Held nodes ip := by
  obtain ⟨before, after, hsplit, -, hfree⟩ := select_eq_ok_iff.1 h
  have hoffered : ip ∈ offered draws nodes gatewayMode := by
    rw [hsplit]
    exact List.mem_append_right _ List.mem_cons_self
  exact ⟨mem_offered.1 hoffered, hfree⟩

/-- The two ranges have no address in common. -/
theorem eligible_disjoint {ip : String} (hgateway : Eligible true ip) : ¬Eligible false ip := by
  rintro ⟨third, fourth, rfl, hfourth, hthird⟩
  obtain ⟨third', fourth', heq, hfourth', hzero⟩ := hgateway
  simp only [if_true] at hzero
  simp only [Bool.false_eq_true, if_false] at hthird
  have hsame := (dotted_inj (by omega) (by omega) (by omega) (by omega) heq).1
  omega

/-- **Static address selection.** The address chosen is one of the role's range
that no row holds; there is none to choose exactly where every address of the
range is held; and no address is in the range of both roles. -/
theorem staticIP_sound (draws : ℕ → Fin 252 × Fin 254) (nodes : List MeshNode)
    (gatewayMode : Bool) :
    (∀ ip, selectAvailableStaticIPFromNodeData draws nodes gatewayMode = .ok ip →
      (∀ node ∈ nodes, node.ipAddr ≠ ip) ∧ Eligible gatewayMode ip) ∧
    ((∃ e, selectAvailableStaticIPFromNodeData draws nodes gatewayMode = .error e) ↔
      ∀ ip, Eligible gatewayMode ip → ∃ node ∈ nodes, node.ipAddr = ip) ∧
    ∀ ip, ¬(Eligible true ip ∧ Eligible false ip) := by
  refine ⟨fun ip hok => ?_, ?_, fun ip h => eligible_disjoint h.1 h.2⟩
  · obtain ⟨hrange, hfree⟩ := select_mem hok
    exact ⟨fun node hnode heq => hfree ⟨node, hnode, heq⟩, hrange⟩
  · constructor
    · rintro ⟨e, herror⟩ ip hip
      by_contra hfree
      have hoffered : ip ∈ offered draws nodes gatewayMode := mem_offered.2 hip
      obtain ⟨ip', hfirst⟩ := exists_firstUnheld hoffered hfree
      rw [select_eq_ok_iff.2 hfirst] at herror
      cases herror
    · intro hall
      cases hselect : selectAvailableStaticIPFromNodeData draws nodes gatewayMode with
      | error e => exact ⟨e, rfl⟩
      | ok ip =>
          obtain ⟨hrange, hfree⟩ := select_mem hselect
          exact absurd (hall ip hrange) hfree

/-- A gateway beside one that has taken the first address, and another whose
row does not hold an address at all. -/
theorem staticIP_sound_second :
    selectAvailableStaticIPFromNodeData zeroDraws
        [⟨"02:00:00:00:00:01", "10.41.0.1", none, none⟩, ⟨"02:00:00:00:00:02", "10.41.0", none, none⟩]
        true = .ok "10.41.0.2" ∧ Eligible true "10.41.0.2" := by
  have hok : selectAvailableStaticIPFromNodeData zeroDraws
      [⟨"02:00:00:00:00:01", "10.41.0.1", none, none⟩, ⟨"02:00:00:00:00:02", "10.41.0", none, none⟩]
      true = .ok "10.41.0.2" := by decide +kernel
  exact ⟨hok, ((staticIP_sound zeroDraws _ true).1 _ hok).2⟩

/-! ## The lowest free window -/

/-- The window at `t` lies in the network and touches no range. -/
def Free (ranges : List DHCPRange) (networkSize desiredLimit : ℤ) (t : ℤ) : Prop :=
  1 ≤ t ∧ t + desiredLimit - 1 ≤ networkSize ∧
    ∀ r ∈ ranges, ¬(t ≤ r.stop.toInt ∧ r.start.toInt ≤ t + desiredLimit - 1)

/-- The first start of a kind in the order of the search: the lowest from
100 up, or else the lowest. -/
def FirstStart (P : ℤ → Prop) (s : ℤ) : Prop :=
  IsLeast {t | 100 ≤ t ∧ P t} s ∨ (∀ t, 100 ≤ t → ¬P t) ∧ IsLeast {t | P t} s

theorem FirstStart.unique {P : ℤ → Prop} {s t : ℤ} (hs : FirstStart P s) (ht : FirstStart P t) :
    s = t := by
  rcases hs with hs | ⟨hnone, hs⟩ <;> rcases ht with ht | ⟨hnone', ht⟩
  · exact hs.unique ht
  · exact absurd hs.1.2 (hnone' s hs.1.1)
  · exact absurd ht.1.2 (hnone t ht.1.1)
  · exact hs.unique ht

/-- No candidate the search comes to has a window that wraps. -/
structure Tame (ranges : List DHCPRange) (networkSize desiredLimit : Int64) : Prop where
  limit : 0 < desiredLimit.toInt
  size : networkSize.toInt < 2 ^ 63 - 1
  preferred : 100 + desiredLimit.toInt ≤ 2 ^ 63
  stops : ∀ r ∈ ranges, r.stop.toInt + desiredLimit.toInt < 2 ^ 63

theorem toInt_add_one {c : Int64} (h : c.toInt + 1 < 2 ^ 63) : (c + 1).toInt = c.toInt + 1 := by
  have hlow := c.le_toInt
  rw [Int64.toInt_add, Int64.toInt_one, Int.bmod_eq_of_le (by omega) (by omega)]

theorem toInt_windowEnd {c limit : Int64} (hc : 0 ≤ c.toInt) (hlimit : 0 < limit.toInt)
    (h : c.toInt + limit.toInt ≤ 2 ^ 63) :
    (c + limit - 1).toInt = c.toInt + limit.toInt - 1 := by
  rw [Int64.toInt_sub, Int64.toInt_add, Int64.toInt_one, Int.bmod_sub_bmod,
    Int.bmod_eq_of_le (by omega) (by omega)]

section Scan

variable {ranges : List DHCPRange} {networkSize desiredLimit c : Int64}

theorem overlaps_iff (hc : 1 ≤ c.toInt) (hlimit : 0 < desiredLimit.toInt)
    (hend : c.toInt + desiredLimit.toInt ≤ 2 ^ 63) (r : DHCPRange) :
    overlaps desiredLimit c r = true ↔
      c.toInt ≤ r.stop.toInt ∧ r.start.toInt ≤ c.toInt + desiredLimit.toInt - 1 := by
  simp only [overlaps, rangesOverlap, Bool.and_eq_true, decide_eq_true_eq, Int64.le_iff_toInt_le,
    toInt_windowEnd (by omega : 0 ≤ c.toInt) hlimit hend]

theorem checkCandidate_iff (ranges : List DHCPRange) (networkSize : Int64) (hc : 1 ≤ c.toInt) (hlimit : 0 < desiredLimit.toInt)
    (hend : c.toInt + desiredLimit.toInt ≤ 2 ^ 63) :
    checkCandidate ranges networkSize desiredLimit c = true ↔
      Free ranges networkSize.toInt desiredLimit.toInt c.toInt := by
  have hwindow := toInt_windowEnd (by omega) hlimit hend
  have hall : (ranges.all fun r => !overlaps desiredLimit c r) = true ↔ ∀ r ∈ ranges,
      ¬(c.toInt ≤ r.stop.toInt ∧ r.start.toInt ≤ c.toInt + desiredLimit.toInt - 1) := by
    simp only [List.all_eq_true, Bool.not_eq_true', ← overlaps_iff hc hlimit hend,
      Bool.not_eq_true]
  unfold checkCandidate Free
  simp only [← hall, Int64.lt_iff_toInt_lt, hwindow, Int64.toInt_one]
  split
  · rename_i hout
    simp only [Bool.false_eq_true, false_iff]
    rintro ⟨-, hin, -⟩
    omega
  · rename_i hin
    exact ⟨fun h => ⟨hc, by omega, h⟩, fun h => h.2.2⟩

/-- A jump goes up and over no free start. -/
theorem nextCandidate_spec (htame : Tame ranges networkSize desiredLimit) (hc : 1 ≤ c.toInt)
    (hend : c.toInt + desiredLimit.toInt < 2 ^ 63)
    (hnot : ¬Free ranges networkSize.toInt desiredLimit.toInt c.toInt) :
    c.toInt < (nextCandidate ranges desiredLimit c).toInt ∧
      (nextCandidate ranges desiredLimit c).toInt + desiredLimit.toInt ≤ 2 ^ 63 ∧
      ∀ t, c.toInt ≤ t → t < (nextCandidate ranges desiredLimit c).toInt →
        ¬Free ranges networkSize.toInt desiredLimit.toInt t := by
  have hlimit := htame.limit
  unfold nextCandidate
  cases hfind : ranges.find? (overlaps desiredLimit c) with
  | some r =>
      have hmem := List.mem_of_find?_eq_some hfind
      obtain ⟨hstop, hstart⟩ := (overlaps_iff hc hlimit hend.le r).1 (List.find?_some hfind)
      have htop := htame.stops r hmem
      simp only [toInt_add_one (by omega : r.stop.toInt + 1 < 2 ^ 63)]
      refine ⟨by omega, by omega, fun t hlow hhigh hfree => ?_⟩
      -- every start the jump skips still touches the range
      exact hfree.2.2 r hmem ⟨by omega, by omega⟩
  | none =>
      simp only [toInt_add_one (by omega : c.toInt + 1 < 2 ^ 63)]
      refine ⟨by omega, by omega, fun t hlow hhigh hfree => hnot ?_⟩
      rwa [show c.toInt = t by omega]

theorem below_all {below : Option Int64} :
    (below.all fun bound => decide (c < bound)) = true ↔ ∀ b ∈ below, c < b := by
  cases below <;> simp

/-- What a loop answers when it began at `lo` and has passed no free start
by `c`. -/
theorem scan_spec (htame : Tame ranges networkSize desiredLimit) (below : Option Int64) (lo : ℤ) :
    ∀ (fuel : ℕ) (c : Int64), 1 ≤ c.toInt → lo ≤ c.toInt →
      c.toInt + desiredLimit.toInt ≤ 2 ^ 63 →
      (∀ t, lo ≤ t → t < c.toInt → ¬Free ranges networkSize.toInt desiredLimit.toInt t) →
      (∀ s, scan ranges networkSize desiredLimit below fuel c = some (some s) →
        (∀ b ∈ below, s < b) ∧
          IsLeast {t | lo ≤ t ∧ Free ranges networkSize.toInt desiredLimit.toInt t} s.toInt) ∧
      (scan ranges networkSize desiredLimit below fuel c = some none →
        ∀ t, lo ≤ t → (∀ b ∈ below, t < b.toInt) →
          ¬Free ranges networkSize.toInt desiredLimit.toInt t) := by
  have hlimit := htame.limit
  intro fuel
  induction fuel with
  | zero =>
      intro c _ _ _ _
      exact ⟨nofun, nofun⟩
  | succ fuel ih =>
      intro c hc hlo hend hclear
      have hwindow := toInt_windowEnd (by omega) hlimit hend
      have hcheck := checkCandidate_iff ranges networkSize hc hlimit hend
      unfold scan
      split
      · rename_i hguard
        have hsize := htame.size
        have hin := Int64.le_iff_toInt_le.1 hguard.2
        rw [hwindow] at hin
        split
        · rename_i hfree
          refine ⟨fun s hs => ?_, nofun⟩
          obtain rfl : c = s := by simpa using hs
          refine ⟨below_all.1 hguard.1, ⟨hlo, hcheck.1 hfree⟩, fun t ht => ?_⟩
          by_contra hlt
          exact hclear t ht.1 (by omega) ht.2
        · rename_i htaken
          obtain ⟨hup, hup', hskip⟩ := nextCandidate_spec htame hc (by omega)
            (fun hfree => htaken (hcheck.2 hfree))
          refine ih _ (by omega) (by omega) hup' fun t hlow hhigh => ?_
          rcases lt_or_ge t c.toInt with hlt | hge
          · exact hclear t hlow hlt
          · exact hskip t hge hhigh
      · rename_i hguard
        refine ⟨nofun, fun _ t hlow hbelow hfree => hguard ?_⟩
        -- a free start at or past the candidate would have kept the loop going
        have hge : c.toInt ≤ t := by
          by_contra hlt
          exact hclear t hlow (by omega) hfree
        have hbound : ∀ b ∈ below, c < b :=
          fun b hb => Int64.lt_iff_toInt_lt.2 (lt_of_le_of_lt hge (hbelow b hb))
        refine ⟨below_all.2 hbound, Int64.le_iff_toInt_le.2 ?_⟩
        rw [hwindow]
        have := hfree.2.1
        omega

/-- **The window search.** Where nothing wraps, it answers with the first
free start. -/
theorem calculate_eq_ok {ones fuel : ℕ} {s : Int64}
    (htame : Tame ranges (hosts ones) desiredLimit)
    (h : calculateAvailableDHCPStart ranges desiredLimit ones fuel = some (.ok s)) :
    FirstStart (Free ranges (hosts ones).toInt desiredLimit.toInt) s.toInt := by
  have hhundred : (100 : Int64).toInt = 100 := by decide
  have hpreferred := htame.preferred
  unfold calculateAvailableDHCPStart at h
  split at h
  · cases h
  split at h
  · cases h
  split at h
  · rename_i hcheck
    obtain rfl : 100 = s := by simpa using h
    left
    refine ⟨⟨by omega, ?_⟩, fun t ht => by rw [hhundred]; exact ht.1⟩
    exact (checkCandidate_iff _ _ (by omega) htame.limit (by omega)).1 hcheck
  have hfirst := scan_spec htame none 100 fuel 100 (by omega) (by omega) (by omega)
    (fun t hlow hhigh => by omega)
  have hsecond := scan_spec htame (some 100) 1 fuel 1 (by simp) (by simp)
    (by rw [Int64.toInt_one]; omega) (fun t hlow hhigh => by rw [Int64.toInt_one] at hhigh; omega)
  split at h
  · cases h
  · rename_i s' hscan
    obtain rfl : s' = s := by simpa using h
    exact .inl (hfirst.1 s' hscan).2
  · rename_i hnone
    have hnone' := hfirst.2 hnone
    split at h
    · cases h
    · rename_i s' hscan
      obtain rfl : s' = s := by simpa using h
      obtain ⟨-, hleast⟩ := hsecond.1 s' hscan
      refine .inr ⟨fun t ht => hnone' t ht nofun, hleast.1.2, fun t ht => ?_⟩
      exact hleast.2 ⟨ht.1, ht⟩
    · cases h

end Scan

end Address

end OpenManet
