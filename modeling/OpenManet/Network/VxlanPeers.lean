import OpenManet.Lib.Uci.Place
import OpenManet.Network.MeshLink
/-!
# The VXLAN peers of the network config

Peers are sections of the type `vxlan_peer`, looked up by destination under
a hundred names and at the first hundred places of the type, and added under
a name built from their number. A place names the section that stands there,
for a read, a write and a deletion alike. Every operation commits what it
edits, so the config is what the file holds between operations.
-/

namespace OpenManet

namespace Vxlan

open Uci Network

/-! ## Multicast destinations -/

/-- One number of a dotted quad. -/
def octet (digits : List Char) : Option ℕ :=
  if digits ≠ [] ∧ digits.all Char.isDigit then
    let value := Nat.ofDigitChars 10 digits 0
    if value < 256 then some value else none
  else none

def isHexDigit (c : Char) : Bool := c.isDigit || ('a' ≤ c && c ≤ 'f')

/-- The address is a multicast one: in `224.0.0.0/4`, or in `ff00::/8`. -/
def isMulticast (address : String) : Bool :=
  match (address.toList.splitOn '.').map octet with
  | [some a, some _, some _, some _] => 224 ≤ a && a ≤ 239
  | _ =>
      match address.toList.map Text.lowerRune with
      | 'f' :: 'f' :: x :: y :: ':' :: _ => isHexDigit x && isHexDigit y
      | _ => false

/-- `GetMulticastGroupSet`: the groups the daemon knows of. -/
def multicastGroupSet : List String := ["239.2.3.1", "224.10.10.1", "224.0.0.251", "239.192.41.1"]

/-! ## Peers -/

/-- One peer. -/
structure UCIVXLANPeer where
  vxlan : String := ""
  llAddr : String := ""
  dst : String := ""
  port : String := ""
  via : String := ""
  vni : String := ""
  srcVNI : String := ""

/-- The options of a peer with their values, in write order. -/
def peerOptionFields (peer : UCIVXLANPeer) : List (String × String) :=
  [("vxlan", peer.vxlan), ("lladdr", peer.llAddr), ("dst", peer.dst), ("port", peer.port),
    ("via", peer.via), ("vni", peer.vni), ("src_vni", peer.srcVNI)]

def getVXLANPeerByName (c : Uci.Config) (name : String) : UCIVXLANPeer where
  vxlan := firstOf c name "vxlan"
  llAddr := firstOf c name "lladdr"
  dst := firstOf c name "dst"
  port := firstOf c name "port"
  via := firstOf c name "via"
  vni := firstOf c name "vni"
  srcVNI := firstOf c name "src_vni"

/-- The names a peer is looked up under. -/
def peerSections : List String :=
  ["peer_multicast", "peer_unicast"] ++ (List.range 100).map fun i : ℕ => "peer" ++ Nat.repr i

/-- The places a peer is looked up at. -/
def peerPlaces : List String := (List.range 100).map (anonRef "vxlan_peer")

/-- `GetVXLANPeerByDstWithReader`: the address of the first section found
with the destination, of whatever type. -/
def getVXLANPeerByDst (c : Uci.Config) (dst : String) : Option (UCIVXLANPeer × String) :=
  ((peerSections ++ peerPlaces).find? fun name => (c.get name "dst").head? = some dst).map
    fun name => (getVXLANPeerByName c name, name)

/-- The name of the next peer. -/
def peerName (i : ℕ) : String := "vxlan_peer_" ++ Nat.repr i

/-- `AddVXLANPeerWithReader`. -/
def addVXLANPeer (c : Uci.Config) (peer : UCIVXLANPeer) : Except String Uci.Config :=
  let sectionName := peerName (c.refs "vxlan_peer").length
  match c.find sectionName with
  | none =>
      .ok ((c.push "vxlan_peer" sectionName).writes sectionName (written (peerOptionFields peer)))
  | some s =>
      if s.type = "vxlan_peer" then .ok (c.writes sectionName (written (peerOptionFields peer)))
      else .error "failed to add VXLAN peer section"

/-- `UpdateVXLANPeerWithReader`. -/
def updateVXLANPeer (c : Uci.Config) (name : String) (peer : UCIVXLANPeer) : Uci.Config :=
  c.writes name (written (peerOptionFields peer))

/-- `DeleteVXLANPeerByDstWithReader`. -/
def deleteVXLANPeerByDst (c : Uci.Config) (dst : String) : Except String Uci.Config :=
  match getVXLANPeerByDst c dst with
  | none => .error ("failed to find VXLAN peer with dst " ++ dst ++
      ": VXLAN peer with dst " ++ dst ++ " not found")
  | some (_, name) => .ok (c.remove name)

/-! ## Following Tailscale -/

/-- The order a map is walked in. -/
structure Walk where
  order : List String → List String
  perm : ∀ keys, (order keys).Perm keys

/-- The daemon's side of it. -/
structure BLOS where
  config : Uci.Config
  /-- None before the first sync. -/
  lastSyncedPeerIPs : Option (List String)

/-- One call: the IPs of each peer, none where no peers are available, and
the orders its two walks take. -/
structure Call where
  peers : Option (List (List String))
  creates : Walk
  removes : Walk

/-- The first IP of each peer that has one, each once. -/
def activePeerIPs (peers : List (List String)) : List String := (peers.filterMap List.head?).dedup

def hasPeerChanges (last : Option (List String)) (active : List String) : Bool :=
  match last with
  | none => true
  | some last => active.length ≠ last.length || active.any fun ip => ip ∉ last

/-- The peer of an active IP. -/
def tailscalePeer (ip : String) : UCIVXLANPeer :=
  { dst := ip, via := "tailscale0", vxlan := "vxlan0" }

def createVxlanPeer (c : Uci.Config) (ip : String) : Except String Uci.Config :=
  match getVXLANPeerByDst c ip with
  | none => addVXLANPeer c (tailscalePeer ip)
  | some (_, name) => .ok (updateVXLANPeer c name (tailscalePeer ip))

/-- One turn of the removal, for a peer read before it began. -/
def removeTurn (active : List String) (c : Uci.Config) (peer : UCIVXLANPeer) :
    Except String Uci.Config :=
  if peer.dst ∈ multicastGroupSet then .ok c
  else if peer.dst ∈ active then .ok c
  else deleteVXLANPeerByDst c peer.dst

def removeInactiveVXLANPeers (walk : Walk) (active : List String) (c : Uci.Config) :
    Except String Uci.Config :=
  ((walk.order (c.refs "vxlan_peer")).map (getVXLANPeerByName c)).foldlM (removeTurn active) c

/-- `syncVXLANPeersWithTailscale`, of a call whose interface comes up. -/
def syncVXLANPeers (r : BLOS) (k : Call) : Except String BLOS :=
  match k.peers with
  | none => .ok r
  | some peers =>
      let active := activePeerIPs peers
      if hasPeerChanges r.lastSyncedPeerIPs active then do
        let created ← (k.creates.order active).foldlM createVxlanPeer r.config
        let synced ← removeInactiveVXLANPeers k.removes active created
        .ok { config := synced, lastSyncedPeerIPs := some active }
      else .ok r

end Vxlan

end OpenManet
