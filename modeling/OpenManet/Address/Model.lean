import Mathlib.Data.Int.Notation
import Mathlib.Data.List.Basic
import Mathlib.Data.String.Basic
/-!
# Address reservation

`internal/mgmt/address_reservation.go` and the two searches it rests on: the
static address (`SelectAvailableStaticIPFromNodeData` in
`internal/network/uci_network.go`) and the DHCP window
(`CalculateAvailableDHCPStart` in `internal/network/uci_dhcp.go`). Both read
the same peer rows. A static address is a string; a window is a start and a
limit, counted in addresses from 10.41.0.0. Window arithmetic is in 64-bit
integers and wraps as theirs does: the rows store whatever number a peer's
gossip spelled.

Three things are left open. `sort.Slice` is not stable, so the sorted ranges
are any sorted arrangement of the rows' ranges. The draws of a point's random
search are a sequence of pairs. The jumps of the window search need not end,
so the search is given fuel, and answers `none` when that runs out.
-/

namespace OpenManet

namespace Address

/-- `models.MeshNode`: a peer's row, with the columns the reservation reads.
A null column is `none`. -/
structure MeshNode where
  macAddr : String
  ipAddr : String
  uciDhcpStart : Option Int64
  uciDhcpLimit : Option Int64
deriving DecidableEq, Repr

/-- Why a reservation stops before its writes. -/
inductive Failure where
  | desiredLimit
  | networkSize
  | noRange (desiredLimit networkSize : Int64)
  | noGatewayAddress
  | noAddress
deriving DecidableEq, Repr

/-! ## The static address -/

/-- An address of the network, by its last two octets. -/
def dotted (third fourth : ℕ) : String := "10.41." ++ toString third ++ "." ++ toString fourth

/-- An address of the network, by its distance from 10.41.0.0. -/
def address (x : ℕ) : String := dotted (x / 256) (x % 256)

/-- `reservedIPs`. -/
def reservedIPs (nodes : List MeshNode) : List String :=
  (nodes.map (·.ipAddr)).filter (· ≠ "")

/-- The addresses a gateway looks at, in order. -/
def gatewayCandidates : List String := (List.range' 1 254).map (dotted 0)

/-- The addresses a point looks at, in order. -/
def pointCandidates : List String :=
  ((List.range' 1 255).filter fun third => third ≠ 253 ∧ third ≠ 254).flatMap fun third =>
    ((List.range' 1 254).filter (· ≠ 255)).map (dotted third)

/-- The address a point's random search makes of a draw, `rng.Intn(252)` and
`rng.Intn(254)`. -/
def drawn (draw : Fin 252 × Fin 254) : String :=
  let third := draw.1.val + 1
  let third := if third = 253 then 252 else third
  dotted third (draw.2.val + 1)

/-- The draws of a source that always answers zero. -/
def zeroDraws : ℕ → Fin 252 × Fin 254 := fun _ => (0, 0)

/-- The addresses of a point's random search: a thousand draws, and only
where at most one row is there. -/
def drawnCandidates (draws : ℕ → Fin 252 × Fin 254) (nodes : List MeshNode) : List String :=
  if nodes.length ≤ 1 then (List.range 1000).map fun attempt => drawn (draws attempt) else []

/-- `SelectAvailableStaticIPFromNodeData`. -/
def selectAvailableStaticIPFromNodeData (draws : ℕ → Fin 252 × Fin 254) (nodes : List MeshNode)
    (gatewayMode : Bool) : Except Failure String :=
  let available := fun candidate => decide (candidate ∉ reservedIPs nodes)
  if gatewayMode then
    match gatewayCandidates.find? available with
    | some candidate => .ok candidate
    | none => .error .noGatewayAddress
  else
    match (drawnCandidates draws nodes).find? available with
    | some candidate => .ok candidate
    | none =>
      match pointCandidates.find? available with
      | some candidate => .ok candidate
      | none => .error .noAddress

/-! ## The DHCP window -/

/-- `DHCPRange`. -/
structure DHCPRange where
  start : Int64
  stop : Int64
deriving DecidableEq, Repr

/-- The range of a row, where it has one. -/
def MeshNode.range? (node : MeshNode) : Option DHCPRange :=
  match node.uciDhcpStart, node.uciDhcpLimit with
  | some start, some limit =>
    if 0 < start ∧ 0 < limit then some ⟨start, start + limit - 1⟩ else none
  | _, _ => none

/-- `existingRanges`, before they are sorted. -/
def existingRanges (nodes : List MeshNode) : List DHCPRange := nodes.filterMap MeshNode.range?

/-- `rangesOverlap`. -/
def rangesOverlap (start₁ end₁ start₂ end₂ : Int64) : Bool :=
  decide (start₁ ≤ end₂) && decide (start₂ ≤ end₁)

section Search

variable (ranges : List DHCPRange) (networkSize desiredLimit : Int64)

/-- The window at a start touches a range. -/
def overlaps (start : Int64) (existing : DHCPRange) : Bool :=
  rangesOverlap start (start + desiredLimit - 1) existing.start existing.stop

/-- `checkCandidate`. -/
def checkCandidate (start : Int64) : Bool :=
  if start < 1 ∨ networkSize < start + desiredLimit - 1 then false
  else ranges.all fun existing => !overlaps desiredLimit start existing

/-- Where a candidate that does not do moves to: past the first range it
touches, or up by one. -/
def nextCandidate (candidate : Int64) : Int64 :=
  match ranges.find? (overlaps desiredLimit candidate) with
  | some existing => existing.stop + 1
  | none => candidate + 1

/-- One of the two loops, with the bound on the candidate that the second
has. It answers `some none` when it ends without a window. -/
def scan (below : Option Int64) : ℕ → Int64 → Option (Option Int64)
  | 0, _ => none
  | fuel + 1, candidate =>
    if below.all (candidate < ·) ∧ candidate + desiredLimit - 1 ≤ networkSize then
      if checkCandidate ranges networkSize desiredLimit candidate then some (some candidate)
      else scan below fuel (nextCandidate ranges desiredLimit candidate)
    else some none

/-- `networkSize`: the addresses of a network but the first and the last, by
the length of its mask. -/
def hosts (ones : ℕ) : Int64 := Int64.ofNat (1 <<< (32 - ones)) - 2

/-- `CalculateAvailableDHCPStart` once the ranges are sorted, for a network
address and a mask that parse. -/
def calculateAvailableDHCPStart (ones : ℕ) (fuel : ℕ) : Option (Except Failure Int64) :=
  if desiredLimit ≤ 0 then some (.error .desiredLimit)
  else if hosts ones ≤ 0 then some (.error .networkSize)
  else if checkCandidate ranges (hosts ones) desiredLimit 100 then some (.ok 100)
  else
    match scan ranges (hosts ones) desiredLimit none fuel 100 with
    | none => none
    | some (some start) => some (.ok start)
    | some none =>
      match scan ranges (hosts ones) desiredLimit (some 100) fuel 1 with
      | none => none
      | some (some start) => some (.ok start)
      | some none => some (.error (.noRange desiredLimit (hosts ones)))

end Search

/-- `DefaultNetworkMask`, 255.255.0.0. -/
def defaultNetworkMask : ℕ := 16

/-- `DefaultDHCPAddressLimit`. -/
def defaultDHCPAddressLimit : Int64 := 16

/-- The ranges as `sort.Slice` leaves them: all of them, by start, ties in
any order. -/
structure SortedRanges (nodes : List MeshNode) where
  ranges : List DHCPRange
  perm : ranges.Perm (existingRanges nodes)
  sorted : ranges.Pairwise fun r r' => r.start ≤ r'.start

/-- What `applyReservationWithDeps` chooses: the static address, then the
start of the window. Its writes do not feed back into the choices. -/
def applyReservation {nodes : List MeshNode} (sorted : SortedRanges nodes)
    (draws : ℕ → Fin 252 × Fin 254) (gatewayMode : Bool) (fuel : ℕ) :
    Option (Except Failure (String × Int64)) :=
  match selectAvailableStaticIPFromNodeData draws nodes gatewayMode with
  | .error e => some (.error e)
  | .ok staticIP =>
    match calculateAvailableDHCPStart sorted.ranges defaultDHCPAddressLimit defaultNetworkMask
      fuel with
    | none => none
    | some (.error e) => some (.error e)
    | some (.ok start) => some (.ok (staticIP, start))

/-! ## Conflicts -/

section Conflicts

variable (toLower : String → String)

/-- `findIPConflicts`: the rows that hold one of the interface's addresses. -/
def findIPConflicts (ips : List String) (nodes : List MeshNode) : List MeshNode :=
  nodes.filter fun node => ips.any (· == node.ipAddr)

/-- `yieldsAddress`. -/
def yieldsAddress (ownMAC : String) (peers : List MeshNode) : Bool :=
  peers.any fun peer => toLower peer.macAddr ≠ "" && decide (toLower peer.macAddr < toLower ownMAC)

/-- The decision of `reserveOnceWithDeps`: whether this tick reserves. -/
def reserves (configured : Bool) (ownMAC : String) (ips : List String) (nodes : List MeshNode) :
    Bool :=
  if !configured then true
  else if (findIPConflicts ips nodes).isEmpty then false
  else yieldsAddress toLower ownMAC (findIPConflicts ips nodes)

end Conflicts

end Address

end OpenManet
