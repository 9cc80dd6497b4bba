import OpenManet.Address.Search
import OpenManet.Lib.Yield
import OpenManet.Lib.Text
import Mathlib.Data.Fin.VecNotation
/-!
# Address conflicts

Gateways that share addresses sort it out among themselves: in each tick a
node that finds its address with a peer of a lower MAC re-reserves, and the
others stay. All of them tick on the same picture, so those that move all
move to the same address, the lowest that nobody holds. This is yielding by
rank, and it ends as that does.

A MAC is what is left of its spelling after lower-casing. Nodes are told
apart by their MACs; how a node spells its own and how a row spells a peer's
is up to the view, as are the rest of the row and the order of the rows.
-/

namespace OpenManet

namespace Address

variable {n : ℕ}

/-- What the nodes of a mesh see in one round, besides the addresses. Each
has the rows of all the others, in some order. -/
structure View (toLower : Lowering) (mac : Fin n → String) where
  order : Fin n → List (Fin n)
  complete : ∀ i j, j ∈ order i ↔ j ≠ i
  ownMAC : Fin n → String
  ownMAC_spells : ∀ i, toLower (ownMAC i) = toLower (mac i)
  peerMAC : Fin n → Fin n → String
  peerMAC_spells : ∀ i j, toLower (peerMAC i j) = toLower (mac j)
  window : Fin n → Fin n → Option Int64 × Option Int64
  draws : Fin n → ℕ → Fin 252 × Fin 254

section Round

variable {toLower : Lowering} {mac : Fin n → String}

/-- The rows a node has. -/
def View.nodes (view : View toLower mac) (addr : Fin n → String) (i : Fin n) : List MeshNode :=
  (view.order i).map fun j =>
    ⟨view.peerMAC i j, addr j, (view.window i j).1, (view.window i j).2⟩

/-- One tick of a configured gateway: the address it has afterwards. -/
def View.tick (view : View toLower mac) (addr : Fin n → String) (i : Fin n) : String :=
  if reserves toLower true (view.ownMAC i) [addr i] (view.nodes addr i) then
    match selectAvailableStaticIPFromNodeData (view.draws i) (view.nodes addr i) true with
    | .ok ip => ip
    | .error _ => addr i
  else addr i

/-- The addresses after so many rounds, in each of which all nodes tick on
the addresses of the round before. -/
def addresses (views : ℕ → View toLower mac) (addr : Fin n → String) : ℕ → Fin n → String
  | 0 => addr
  | k + 1 => (views k).tick (addresses views addr k)

/-! ## One round -/

variable {view : View toLower mac} {addr : Fin n → String} {i : Fin n}

theorem held_nodes {ip : String} : Held (view.nodes addr i) ip ↔ ∃ j, j ≠ i ∧ addr j = ip := by
  simp only [Held, View.nodes, List.mem_map, ← view.complete i]
  constructor
  · rintro ⟨node, ⟨j, hj, rfl⟩, hip⟩
    exact ⟨j, hj, hip⟩
  · rintro ⟨j, hj, hip⟩
    exact ⟨_, ⟨j, hj, rfl⟩, hip⟩

/-- **The tie-break.** A node re-reserves exactly when a peer of a lower MAC
has its address. -/
theorem reserves_iff (hmac : ∀ i, mac i ≠ "") :
    reserves toLower true (view.ownMAC i) [addr i] (view.nodes addr i) = true ↔
      Yields (fun j => toLower (mac j)) addr i := by
  have hyields : reserves toLower true (view.ownMAC i) [addr i] (view.nodes addr i) =
      yieldsAddress toLower (view.ownMAC i) (findIPConflicts [addr i] (view.nodes addr i)) := by
    cases hconflicts : findIPConflicts [addr i] (view.nodes addr i) <;>
      simp [reserves, yieldsAddress, hconflicts]
  rw [hyields]
  simp only [yieldsAddress, findIPConflicts, List.any_filter, List.any_eq_true, Bool.and_eq_true,
    decide_eq_true_eq, View.nodes, List.mem_map, view.ownMAC_spells, Yields, List.any_cons,
    List.any_nil, Bool.or_false, beq_iff_eq]
  constructor
  · rintro ⟨node, ⟨j, -, rfl⟩, hip, -, hlow⟩
    rw [view.peerMAC_spells] at hlow
    exact ⟨j, hip.symm, hlow⟩
  · rintro ⟨j, hip, hlow⟩
    have hne : j ≠ i := by
      rintro rfl
      exact lt_irrefl _ hlow
    refine ⟨_, ⟨j, (view.complete i j).2 hne, rfl⟩, hip.symm, ?_, ?_⟩
    · rw [view.peerMAC_spells]
      exact toLower.apply_ne_empty (hmac j)
    · rw [view.peerMAC_spells]
      exact hlow

/-- With fewer nodes than gateway addresses some address is free. -/
theorem exists_unheld (hn : n < gatewayCandidates.length) (addr : Fin n → String) :
    ∃ ip ∈ gatewayCandidates, ∀ j, addr j ≠ ip := by
  by_contra hcon
  push Not at hcon
  have hsub : gatewayCandidates.toFinset ⊆ Finset.univ.image addr := by
    intro ip hip
    obtain ⟨j, hj⟩ := hcon ip (List.mem_toFinset.1 hip)
    exact Finset.mem_image.2 ⟨j, Finset.mem_univ j, hj⟩
  have hcard := (Finset.card_le_card hsub).trans Finset.card_image_le
  rw [List.toFinset_card_of_nodup nodup_gatewayCandidates, Finset.card_univ, Fintype.card_fin]
    at hcard
  omega

/-- A round is a round of yielding: those that move move to the first
address that nobody holds. -/
theorem yieldStep_tick (hmac : ∀ i, mac i ≠ "")
    (hn : n < gatewayCandidates.length) :
    YieldStep (fun j => toLower (mac j)) addr (view.tick addr) := by
  -- the rows of one who sees them all
  let all : List MeshNode := (List.finRange n).map fun j => ⟨"", addr j, none, none⟩
  have hall : ∀ ip, Held all ip ↔ ∃ j, addr j = ip := by
    intro ip
    simp [all, Held]
  obtain ⟨free, hfree, hfreeAll⟩ := exists_unheld hn addr
  have hoffered : free ∈ offered zeroDraws all true := hfree
  have hunheld : ¬Held all free := by
    rw [hall]
    rintro ⟨j, hj⟩
    exact hfreeAll j hj
  obtain ⟨fresh, hfresh⟩ := exists_firstUnheld hoffered hunheld
  refine ⟨fresh, fun j hj => ?_, fun i => ⟨fun hyields => ?_, fun hstays => ?_⟩⟩
  · obtain ⟨-, -, -, -, hunheld⟩ := hfresh
    exact hunheld ((hall fresh).2 ⟨j, hj⟩)
  · -- the mover's own address is with a peer, so its rows hold what all rows do
    have hheld : ∀ ip, Held all ip ↔ Held (view.nodes addr i) ip := by
      intro ip
      rw [hall, held_nodes]
      constructor
      · rintro ⟨j, hj⟩
        obtain ⟨k, hk, hlow⟩ := hyields
        rcases eq_or_ne j i with rfl | hne
        · refine ⟨k, ?_, hk.trans hj⟩
          rintro rfl
          exact lt_irrefl _ hlow
        · exact ⟨j, hne, hj⟩
      · rintro ⟨j, -, hj⟩
        exact ⟨j, hj⟩
    have hselect : selectAvailableStaticIPFromNodeData (view.draws i) (view.nodes addr i) true =
        .ok fresh := select_eq_ok_iff.2 (hfresh.congr hheld)
    simp only [View.tick, (reserves_iff hmac).2 hyields, if_true, hselect]
  · have hno : ¬reserves toLower true (view.ownMAC i) [addr i] (view.nodes addr i) = true :=
      fun hcon => hstays ((reserves_iff hmac).1 hcon)
    simp only [View.tick, if_neg hno]

end Round

/-! ## All rounds -/

section

variable {toLower : Lowering} {mac : Fin n → String}

/-- **Conflicts end.** In every round, of the nodes that share an address the
one of the lowest MAC keeps it and no other does; who moves goes where no
other node is; and from the `n`-th round on all addresses are distinct and
nobody moves. -/
theorem conflicts_converge (hmac : ∀ i, mac i ≠ "")
    (hdistinct : Function.Injective fun i => toLower (mac i)) (hn : n < gatewayCandidates.length)
    (views : ℕ → View toLower mac) (addr : Fin n → String) :
    (∀ k i, addresses views addr (k + 1) i = addresses views addr k i ↔
      ∀ j, j ≠ i → addresses views addr k j = addresses views addr k i →
        toLower (mac i) < toLower (mac j)) ∧
    (∀ k i j, addresses views addr (k + 1) i ≠ addresses views addr k i → j ≠ i →
      addresses views addr (k + 1) i ≠ addresses views addr k j) ∧
    (∀ k, n ≤ k → Function.Injective (addresses views addr k) ∧
      addresses views addr (k + 1) = addresses views addr k) := by
  have hstep : ∀ k, YieldStep (fun j => toLower (mac j)) (addresses views addr k)
      (addresses views addr (k + 1)) := fun k => yieldStep_tick hmac hn
  refine ⟨fun k i => ?_, fun k i j hmoves _ => ?_, fun k hk => ?_⟩
  · rw [(hstep k).eq_iff]
    constructor
    · intro hstays j hne hshare
      refine lt_of_le_of_ne (not_lt.1 fun hlow => hstays ⟨j, hshare, hlow⟩) fun heq => ?_
      exact hne (hdistinct heq).symm
    · rintro hlowest ⟨j, hshare, hlow⟩
      have hne : j ≠ i := by
        rintro rfl
        exact lt_irrefl _ hlow
      exact lt_asymm hlow (hlowest j hne hshare)
  · rw [Ne, (hstep k).eq_iff, not_not] at hmoves
    exact (hstep k).ne hmoves j
  · have hnone : ∀ i, ¬Yields (fun j => toLower (mac j)) (addresses views addr k) i :=
      not_yields_of_card_le hstep (by simpa using hk)
    exact ⟨injective_of_not_yields hdistinct hnone,
      funext fun i => ((hstep k).eq_iff i).2 (hnone i)⟩

theorem mem_others (i j : Fin n) : j ∈ (List.finRange n).filter (· ≠ i) ↔ j ≠ i := by simp

/-- A view in which every row spells a MAC as its node does. -/
def View.plain (toLower : Lowering) (mac : Fin n → String) : View toLower mac where
  order i := (List.finRange n).filter (· ≠ i)
  complete := mem_others
  ownMAC := mac
  ownMAC_spells _ := rfl
  peerMAC _ := mac
  peerMAC_spells _ _ := rfl
  window _ _ := (none, none)
  draws _ := zeroDraws

/-- Three MACs, in letters of both cases. -/
def threeMACs : Fin 3 → String := ![ "02:00:00:00:00:AB", "02:00:00:00:00:aa", "02:00:00:00:00:0F"]

/-- Three gateways on one address end on three. -/
theorem conflicts_converge_three :
    Function.Injective (addresses (fun _ => View.plain .ascii threeMACs)
      (fun _ => "10.41.0.1") 3) :=
  ((conflicts_converge (by decide +kernel) (by decide +kernel) (by decide +kernel) _ _).2.2 3
    le_rfl).1

end

end Address

end OpenManet
