import Mathlib.Algebra.Order.Field.Rat
import Mathlib.Data.List.MinMax
import Mathlib.Order.Compare
import OpenManet.Lib.Grouped
import OpenManet.Lib.JsText
/-!
# The topology that is drawn

`buildTopologyView` of `components/topologyGraph.js`: the nodes of a topology
become hosts, the hosts are put in segments and the edges between them in the
segments or across. The segments, their anchors and their edges are found in
passes of their own, from labels the server gives each node; that the passes agree
is what the drawing relies on (`buildTopologyView_consistent`).

What a browser does with letters, their case and their order, is a parameter. A
number is a rational number, and `none` where it is not finite.
-/

namespace OpenManet

namespace TopologyGraph

/-! ## The server's answer -/

/-- A node of the answer. What is absent is blank. -/
structure Node where
  mac : String
  secondaryMacs : List String := []
  hostname : String := ""
  segment : String := ""
  remoteGatewayMac : String := ""
  hopsFromSelf : Option ℚ := none
  myHardIfname : String := ""
  isSelf : Bool := false
  isGateway : Bool := false
  gossipStale : Bool := false
  gossipAgeSeconds : Option ℚ := none
  deriving Repr

/-- An edge of the answer. -/
structure MeshEdge where
  fromMac : String
  toMac : String
  metric : ℚ := 0
  blos : Bool := false
  onMyPath : Bool := false
  deriving Repr

/-- `gossipCoverage`. -/
structure Coverage where
  published : ℚ
  total : ℚ
  deriving Repr

/-- The answer. -/
structure MeshTopology where
  nodes : Option (List Node)
  edges : List MeshEdge := []
  algorithm : String := ""
  gossipCoverage : Option Coverage := none
  deriving Repr

/-! ## The view -/

inductive Role
  | rf
  | blos
  deriving DecidableEq, Repr

/-- A badge of a host. -/
structure Iface where
  name : String
  role : Role
  deriving DecidableEq, Repr

/-- `HostRecord`. -/
structure Host where
  id : String
  mac : String
  baseHostname : String
  primaryMac : String
  tag : String
  interfaces : List Iface
  segmentId : String
  remoteGatewayMac : String
  hops : ℚ
  isSelf : Bool
  isGateway : Bool
  myHardIfname : String
  secondaryMacs : List String
  gossipStale : Bool
  gossipAgeSeconds : ℚ
  deriving Repr

/-- A link between two hosts. -/
structure Edge where
  id : String
  hostA : String
  hostB : String
  metric : ℚ
  blos : Bool
  onMyPath : Bool
  deriving Repr

inductive Kind
  | local
  | remote
  deriving DecidableEq, Repr

structure Segment where
  id : String
  label : String
  kind : Kind
  anchorHost : Option String
  hosts : List Host
  edges : List Edge
  deriving Repr

structure Counts where
  hosts : ℕ
  segments : ℕ
  links : ℕ
  blosLinks : ℕ
  hopsMax : ℚ
  deriving Repr

/-- What the renderer is given. -/
structure View where
  self : Option Host
  hosts : List Host
  segments : List Segment
  blosEdges : List Edge
  counts : Counts
  algorithm : String
  gossipCoverage : Option Coverage
  deriving Repr

/-- What the browser does with letters. `localeCompare` is an order of the texts,
which differ in more ways than it tells apart. -/
structure Browser where
  toLowerCase : String → String
  localeCompare : String → String → Ordering
  transCmp : Std.TransCmp localeCompare

/-! ## Small helpers -/

def hopsUnknown : ℚ := 99

/-- `shortMac`. -/
def shortMac (mac : String) : String :=
  if mac = "" then "?"
  else
    let parts := mac.splitOn ":"
    if parts.length = 6 then String.intercalate ":" (parts.drop 3) else mac

/-- `padTag`. -/
def padTag (i : ℕ) : String :=
  let n := Nat.repr (i + 1)
  "N-" ++ "".pushn '0' (2 - n.length) ++ n

/-- `hostInterfacesForKind`. -/
def hostInterfacesForKind : Kind → List Iface
  | .remote => [⟨"vxlan0", .blos⟩]
  | .local => [⟨"mesh", .rf⟩]

/-- `a || b`, of two texts. -/
def orElse (a b : String) : String := if a = "" then b else a

variable (B : Browser)

/-! ## Hosts -/

/-- The key of a node. -/
def Node.key (n : Node) : String := B.toLowerCase n.mac

/-- The record of a node under a key. -/
def hostOf (n : Node) (key : String) : Host :=
  let remoteGatewayMac := B.toLowerCase n.remoteGatewayMac
  { id := key
    mac := n.mac
    baseHostname := orElse n.hostname (shortMac n.mac)
    primaryMac := n.mac
    tag := ""
    interfaces := hostInterfacesForKind (if n.segment = "remote" then .remote else .local)
    segmentId :=
      if n.segment = "remote" then
        if remoteGatewayMac = "" then "remote:unknown" else "remote:" ++ remoteGatewayMac
      else "local"
    remoteGatewayMac
    hops := n.hopsFromSelf.getD hopsUnknown
    isSelf := n.isSelf
    isGateway := n.isGateway
    myHardIfname := n.myHardIfname
    secondaryMacs := n.secondaryMacs
    gossipStale := n.gossipStale
    gossipAgeSeconds := n.gossipAgeSeconds.getD (-1) }

/-- `hostByMac.set`: a key that is there keeps its place. -/
def setHost (hosts : List Host) (host : Host) : List Host :=
  if hosts.any (·.id = host.id) then hosts.map fun h => if h.id = host.id then host else h
  else hosts ++ [host]

/-- A node is entered in `hostByMac`, and kept as `selfHost` if it is the node
itself. -/
def addNode (st : List Host × Option Host) (n : Node) : List Host × Option Host :=
  let key := n.key B
  if key = "" then st
  else
    let host := hostOf B n key
    (setHost st.1 host, if host.isSelf then some host else st.2)

/-- The interfaces the other nodes are reached through. -/
def selfInterfaces (nodes : List Node) : List Iface :=
  let ifnames := ((nodes.filter fun n => !n.isSelf && n.myHardIfname ≠ "").map
    (·.myHardIfname)).eraseDups
  (ifnames.mergeSort Utf16.unitsLE).map fun name =>
    ⟨name, if name = "vxlan0" then .blos else .rf⟩

/-- The badges of the node itself. -/
def Host.withInterfaces (h : Host) : List Iface → Host
  | [] => h
  | ifaces => { h with interfaces := ifaces }

/-- `hostByMac`, once the node itself has its badges. Of the records under its key
`selfHost` is the one that is marked. -/
def hostByMac (nodes : List Node) : List Host :=
  let (hosts, selfHost) := nodes.foldl (addNode B) ([], none)
  match selfHost with
  | none => hosts
  | some s => hosts.map fun h =>
      if h.id = s.id ∧ h.isSelf then h.withInterfaces (selfInterfaces nodes) else h

/-- `hostByMac.get`. -/
def getHost (hosts : List Host) (mac : String) : Option Host := hosts.find? (·.id = mac)

/-! ## Segments -/

/-- The gateway of a segment is the one its first host names. -/
def addGateway (hosts : List Host) (m : List (String × Option Host)) (h : Host) :
    List (String × Option Host) :=
  if h.segmentId = "local" ∨ m.any (·.1 = h.segmentId) then m
  else m ++ [(h.segmentId, getHost hosts h.remoteGatewayMac)]

/-- `remoteGatewayHosts`. -/
def remoteGatewayHosts (hosts : List Host) : List (String × Option Host) :=
  hosts.foldl (addGateway hosts) []

/-- What a segment is ordered by. -/
def segmentName (e : String × Option Host) : String :=
  match e.2 with
  | none => e.1
  | some gw => orElse gw.baseHostname e.1

/-- A segment around this node. -/
def localSegment : Segment := ⟨"local", "LOCAL", .local, none, [], []⟩

/-- A segment behind a gateway. -/
def remoteSegment (e : String × Option Host) : Segment where
  id := e.1
  label := "REMOTE MESH · " ++
    match e.2 with
    | some gw => gw.baseHostname
    | none => shortMac (String.ofList (e.1.toList.drop "remote:".length))
  kind := .remote
  anchorHost := e.2.map (·.id)
  hosts := []
  edges := []

/-- The segments, which are still empty. -/
def emptySegments (hosts : List Host) : List Segment :=
  (if hosts.any (·.segmentId = "local") then [localSegment] else []) ++
    ((remoteGatewayHosts hosts).mergeSort fun e e' =>
      (B.localeCompare (segmentName e) (segmentName e')).isLE).map remoteSegment

/-- What is done to the segment of an id. -/
def atSegment (id : String) (f : Segment → Segment) (segments : List Segment) : List Segment :=
  segments.map fun s => if s.id = id then f s else s

/-- `seg.hosts.push(h)`. -/
def Segment.pushHost (h : Host) (s : Segment) : Segment := { s with hosts := s.hosts ++ [h] }

/-- `seg.edges.push(edge)`. -/
def Segment.pushEdge (e : Edge) (s : Segment) : Segment := { s with edges := s.edges ++ [e] }

/-- The order of the hosts: the node itself, then by hops, then by name. -/
def compareHosts (a b : Host) : Ordering :=
  if a.isSelf ≠ b.isSelf then if a.isSelf then .lt else .gt
  else if a.hops ≠ b.hops then compare a.hops b.hops
  else B.localeCompare a.baseHostname b.baseHostname

/-- The hosts in order, with their tags. -/
def sortHosts (hosts : List Host) : List Host :=
  (hosts.mergeSort fun a b => (compareHosts B a b).isLE).mapIdx fun i h =>
    { h with tag := padTag i }

/-- A remote segment is anchored at its gateway, and at a host of the fewest hops
where the gateway is none of its hosts. -/
def Segment.anchor (s : Segment) : Segment :=
  match s.kind, s.hosts with
  | .local, _ => s
  | .remote, [] => s
  | .remote, first :: _ =>
      if s.anchorHost.any fun a => a ≠ "" && s.hosts.any (·.id = a) then s
      else
        let minHops := (s.hosts.map (·.hops)).min?
        let candidates := (s.hosts.filter fun h => some h.hops = minHops).mergeSort fun a b =>
          (B.localeCompare a.baseHostname b.baseHostname).isLE
        { s with anchorHost := some (candidates.headD first).id }

/-! ## Edges -/

/-- The link of an edge, if it has two hosts. -/
def linkOf (hosts : List Host) (e : MeshEdge) : Option Edge :=
  let a := B.toLowerCase e.fromMac
  let b := B.toLowerCase e.toMac
  if a = "" ∨ b = "" ∨ a = b then none
  else
    match getHost hosts a, getHost hosts b with
    | some ha, some hb =>
        some
          { id := "edge:" ++ a ++ "|" ++ b
            hostA := a
            hostB := b
            metric := e.metric
            blos := e.blos || decide (ha.segmentId ≠ hb.segmentId)
            onMyPath := e.onMyPath }
    | _, _ => none

/-- What the links have been put in so far. -/
structure Placed where
  segments : List Segment
  blosEdges : List Edge
  rfLinkCount : ℕ

/-- A link is put across the segments, or in the segment of its first host. -/
def placeEdge (hosts : List Host) (p : Placed) (e : Edge) : Placed :=
  if e.blos then { p with blosEdges := p.blosEdges ++ [e] }
  else
    { p with
      rfLinkCount := p.rfLinkCount + 1
      segments :=
        match getHost hosts e.hostA with
        | none => p.segments
        | some h => atSegment h.segmentId (Segment.pushEdge e) p.segments }

/-! ## The view of a topology -/

/-- The view of no node. -/
def emptyView : View where
  self := none
  hosts := []
  segments := []
  blosEdges := []
  counts := ⟨0, 0, 0, 0, 0⟩
  algorithm := ""
  gossipCoverage := none

/-- The view of some nodes. -/
def viewOf (topology : MeshTopology) (nodes : List Node) : View :=
  let records := hostByMac B nodes
  let selfHost := (nodes.foldl (addNode B) ([], none)).2
  let hosts := sortHosts B records
  let segments := hosts.foldl (fun ss h => atSegment h.segmentId (Segment.pushHost h) ss)
    (emptySegments B records)
  let placed := (topology.edges.filterMap (linkOf B records)).foldl (placeEdge records)
    ⟨segments.map (Segment.anchor B), [], 0⟩
  let peerHops := (hosts.filter fun h => !h.isSelf && h.hops < hopsUnknown).map (·.hops)
  { self := selfHost.map fun s =>
      (hosts.find? fun h => h.id = s.id && h.isSelf).getD (s.withInterfaces (selfInterfaces nodes))
    hosts
    segments := placed.segments
    blosEdges := placed.blosEdges
    counts :=
      { hosts := hosts.length
        segments := placed.segments.length
        links := placed.rfLinkCount
        blosLinks := placed.blosEdges.length
        hopsMax := peerHops.max?.getD 0 }
    algorithm := topology.algorithm
    gossipCoverage := topology.gossipCoverage }

/-- `buildTopologyView`. -/
def buildTopologyView (topology : Option MeshTopology) : View :=
  match topology with
  | none => emptyView
  | some t =>
      match t.nodes with
      | none => emptyView
      | some [] => emptyView
      | some nodes => viewOf B t nodes

/-! ## The records of the nodes -/

/-- The keys of some nodes, of which a blank one is none. -/
def keysOf (nodes : List Node) : List String := (nodes.map (Node.key B)).filter (· ≠ "")

/-- The records of some nodes. -/
def recordsOf (nodes : List Node) : List Host :=
  (nodes.filter fun n => n.key B ≠ "").map fun n => hostOf B n (n.key B)

theorem map_id_recordsOf (nodes : List Node) :
    (recordsOf B nodes).map (·.id) = keysOf B nodes := by
  rw [recordsOf, keysOf, List.map_map, List.filter_map]
  rfl

variable {B}

theorem recordsOf_concat (nodes : List Node) (n : Node) :
    recordsOf B (nodes ++ [n])
      = recordsOf B nodes ++ if n.key B = "" then [] else [hostOf B n (n.key B)] := by
  simp only [recordsOf, List.filter_append, List.map_append]
  by_cases hkey : n.key B = "" <;> simp [hkey]

/-- **Distinct keys leave a record each**, of which the last that is marked is the
node itself. -/
theorem foldl_addNode (nodes : List Node) (h : (keysOf B nodes).Nodup) :
    nodes.foldl (addNode B) ([], none)
      = (recordsOf B nodes, ((recordsOf B nodes).filter (·.isSelf)).getLast?) := by
  induction nodes using List.reverseRecOn with
  | nil => rfl
  | append_singleton nodes n ih =>
    have hids := map_id_recordsOf B (nodes ++ [n])
    rw [← hids, recordsOf_concat, List.map_append, List.nodup_append] at h
    rw [List.foldl_append, ih (by rw [← map_id_recordsOf]; exact h.1), List.foldl_cons,
      List.foldl_nil, recordsOf_concat, addNode]
    by_cases hkey : n.key B = ""
    · simp [hkey]
    · have hnew : ((recordsOf B nodes).any fun x => x.id = (hostOf B n (n.key B)).id) = false := by
        rw [List.any_eq_false]
        intro x hx hid
        simp only [hkey, if_false] at h
        exact h.2.2 x.id (List.mem_map_of_mem hx) (n.key B)
          (List.mem_map_of_mem (f := Host.id) List.mem_cons_self) (of_decide_eq_true hid)
      have hset : setHost (recordsOf B nodes) (hostOf B n (n.key B))
          = recordsOf B nodes ++ [hostOf B n (n.key B)] := by
        rw [setHost, if_neg (by rw [hnew]; decide)]
      simp only [hkey, if_false, hset, List.filter_append, Prod.mk.injEq, true_and]
      by_cases hself : (hostOf B n (n.key B)).isSelf <;> simp [hself]

@[simp] theorem withInterfaces_id (h : Host) (ifaces : List Iface) :
    (h.withInterfaces ifaces).id = h.id := by
  cases ifaces <;> rfl

@[simp] theorem withInterfaces_isSelf (h : Host) (ifaces : List Iface) :
    (h.withInterfaces ifaces).isSelf = h.isSelf := by
  cases ifaces <;> rfl

/-- The badges change neither the hosts nor which of them are marked. -/
theorem hostByMac_eq {nodes : List Node} (h : (keysOf B nodes).Nodup) :
    ∃ badge : Host → Host, hostByMac B nodes = (recordsOf B nodes).map badge ∧
      ∀ x, (badge x).id = x.id ∧ (badge x).isSelf = x.isSelf := by
  unfold hostByMac
  rw [foldl_addNode nodes h]
  cases ((recordsOf B nodes).filter (·.isSelf)).getLast? with
  | none => exact ⟨id, (List.map_id _).symm, fun x => ⟨rfl, rfl⟩⟩
  | some s =>
    refine ⟨_, rfl, fun x => ?_⟩
    split_ifs <;> simp

/-- The hosts are what has a key. -/
theorem map_id_hostByMac {nodes : List Node} (h : (keysOf B nodes).Nodup) :
    (hostByMac B nodes).map (·.id) = keysOf B nodes := by
  obtain ⟨badge, heq, hbadge⟩ := hostByMac_eq h
  rw [heq, List.map_map, ← map_id_recordsOf]
  exact List.map_congr_left fun x _ => (hbadge x).1

/-- **The node itself** is a host that is marked, and is there if one is. -/
theorem selfHost_spec {nodes : List Node} (h : (keysOf B nodes).Nodup) :
    match (nodes.foldl (addNode B) ([], none)).2 with
    | none => ∀ x ∈ hostByMac B nodes, x.isSelf = false
    | some s => ∃ x ∈ hostByMac B nodes, x.id = s.id ∧ x.isSelf = true := by
  obtain ⟨badge, heq, hbadge⟩ := hostByMac_eq h
  rw [foldl_addNode nodes h, heq]
  cases hlast : ((recordsOf B nodes).filter (·.isSelf)).getLast? with
  | none =>
    intro x hx
    obtain ⟨y, hy, rfl⟩ := List.mem_map.1 hx
    have hnone := List.filter_eq_nil_iff.1 (List.getLast?_eq_none_iff.1 hlast) y hy
    rw [(hbadge y).2]
    exact Bool.not_eq_true _ ▸ hnone
  | some s =>
    obtain ⟨hs, hself⟩ := List.mem_filter.1 (List.mem_of_getLast? hlast)
    exact ⟨badge s, List.mem_map_of_mem hs, (hbadge s).1, (hbadge s).2.trans hself⟩

/-! ## The order of the hosts -/

/-- The marked ones come first. -/
theorem compare_marks (p q : Bool) :
    compare (!p) (!q) = if p ≠ q then if p then .lt else .gt else .eq := by
  revert p q
  decide

/-- The hosts are compared in three ways, one after the other. -/
theorem compareHosts_eq :
    compareHosts B = compareLex (compareOn fun h => !h.isSelf)
      (compareLex (compareOn (·.hops)) fun a b =>
        B.localeCompare a.baseHostname b.baseHostname) := by
  funext a b
  rw [compareHosts, compareLex, compareOn, compare_marks]
  by_cases hself : a.isSelf ≠ b.isSelf
  · rw [if_pos hself, if_pos hself]
    split_ifs <;> rfl
  · rw [if_neg hself, if_neg hself, Ordering.then, compareLex, compareOn]
    by_cases hhops : a.hops = b.hops
    · rw [if_neg (not_not.2 hhops), compare_eq_iff_eq.2 hhops, Ordering.then]
    · rw [if_pos hhops]
      cases hcmp : compare a.hops b.hops with
      | lt => rfl
      | eq => exact absurd (compare_eq_iff_eq.1 hcmp) hhops
      | gt => rfl

/-- And so in an order. -/
theorem transCmp_compareHosts : Std.TransCmp (compareHosts B) := by
  have := B.transCmp
  have hname : Std.TransCmp fun a b : Host => B.localeCompare a.baseHostname b.baseHostname :=
    { eq_swap := B.transCmp.eq_swap
      isLE_trans := B.transCmp.isLE_trans }
  rw [compareHosts_eq]
  infer_instance

/-- A tag changes nothing else. -/
theorem map_tagged {β : Type} (f : Host → β) (hf : ∀ (h : Host) t, f { h with tag := t } = f h)
    (l : List Host) : (l.mapIdx fun i h => { h with tag := padTag i }).map f = l.map f := by
  refine List.ext_getElem (by simp) fun i _ _ => ?_
  simp [hf]

/-- The hosts are sorted and none is lost. -/
theorem map_sortHosts {β : Type} (f : Host → β) (hf : ∀ (h : Host) t, f { h with tag := t } = f h)
    (l : List Host) : ((sortHosts B l).map f).Perm (l.map f) := by
  rw [sortHosts, map_tagged f hf]
  exact (List.mergeSort_perm l _).map f

/-- **No host that is not marked comes before one that is.** -/
theorem sortHosts_marked_first (l : List Host) :
    (sortHosts B l).Pairwise fun a b => b.isSelf = true → a.isSelf = true := by
  have := transCmp_compareHosts (B := B)
  have htrans : ∀ a b c : Host, (compareHosts B a b).isLE = true →
      (compareHosts B b c).isLE = true → (compareHosts B a c).isLE = true := fun _ _ _ =>
    Std.TransCmp.isLE_trans
  have htotal : ∀ a b : Host,
      ((compareHosts B a b).isLE || (compareHosts B b a).isLE) = true := by
    intro a b
    have hswap : compareHosts B b a = (compareHosts B a b).swap := Std.OrientedCmp.eq_swap
    rw [hswap]
    cases compareHosts B a b <;> rfl
  have hsorted := List.pairwise_mergeSort htrans htotal l
  have hmarks : ((sortHosts B l).map (·.isSelf)).Pairwise fun p q => q = true → p = true := by
    rw [sortHosts, map_tagged (·.isSelf) fun _ _ => rfl, List.pairwise_map]
    refine hsorted.imp fun {a b} hle hb => ?_
    by_contra ha
    simp [compareHosts, hb, Bool.not_eq_true _ ▸ ha] at hle
  exact List.pairwise_map.1 hmarks

/-! ## The segments and their hosts -/

/-- The ids of some hosts are found. -/
theorem getHost_eq_some_iff {hosts : List Host} (h : (hosts.map (·.id)).Nodup) {mac : String}
    {x : Host} : getHost hosts mac = some x ↔ x ∈ hosts ∧ x.id = mac :=
  Grouped.find?_eq_some_iff h

/-- A remote segment is entered once. -/
theorem foldl_addGateway (hosts l : List Host) (m : List (String × Option Host))
    (hm : (m.map (·.1)).Nodup) :
    ((l.foldl (addGateway hosts) m).map (·.1)).Nodup ∧
      ∀ k, k ∈ (l.foldl (addGateway hosts) m).map (·.1) ↔
        k ∈ m.map (·.1) ∨ k ≠ "local" ∧ ∃ h ∈ l, h.segmentId = k := by
  induction l generalizing m with
  | nil => simpa using hm
  | cons h l ih =>
    rw [List.foldl_cons, addGateway]
    by_cases hthere : h.segmentId = "local" ∨ m.any (·.1 = h.segmentId)
    · rw [if_pos hthere]
      refine ⟨(ih m hm).1, fun k => ?_⟩
      rw [(ih m hm).2]
      simp only [List.any_eq_true, decide_eq_true_eq] at hthere
      grind
    · rw [if_neg hthere]
      simp only [List.any_eq_true, decide_eq_true_eq, not_or] at hthere
      have hm' : ((m ++ [(h.segmentId, getHost hosts h.remoteGatewayMac)]).map (·.1)).Nodup := by
        rw [List.map_append, List.nodup_append]
        refine ⟨hm, List.nodup_singleton _, ?_⟩
        grind
      refine ⟨(ih _ hm').1, fun k => ?_⟩
      rw [(ih _ hm').2]
      grind

/-- **There is one segment for each label**, and no other. -/
theorem emptySegments_ids (hosts : List Host) :
    ((emptySegments B hosts).map (·.id)).Nodup ∧
      ∀ k, k ∈ (emptySegments B hosts).map (·.id) ↔ ∃ h ∈ hosts, h.segmentId = k := by
  obtain ⟨hnodup, hmem⟩ := foldl_addGateway hosts hosts [] List.nodup_nil
  have hids : ((emptySegments B hosts).map (·.id)).Perm
      ((if hosts.any (·.segmentId = "local") then ["local"] else []) ++
        (remoteGatewayHosts hosts).map (·.1)) := by
    rw [emptySegments, List.map_append, List.map_map]
    refine List.Perm.append (List.Perm.of_eq ?_) ((List.mergeSort_perm _ _).map _)
    split_ifs <;> rfl
  have hlocal : "local" ∉ (remoteGatewayHosts hosts).map (·.1) := by
    rw [remoteGatewayHosts, hmem]
    simp
  constructor
  · rw [hids.nodup_iff]
    split_ifs
    · exact List.nodup_cons.2 ⟨hlocal, hnodup⟩
    · exact hnodup
  · intro k
    rw [hids.mem_iff, List.mem_append, remoteGatewayHosts, hmem]
    grind

/-- They hold nothing, and the remote ones are told apart. -/
theorem mem_emptySegments {hosts : List Host} {s : Segment} (hs : s ∈ emptySegments B hosts) :
    s.hosts = [] ∧ s.edges = [] := by
  rw [emptySegments, List.mem_append] at hs
  rcases hs with hs | hs
  · grind [localSegment]
  · obtain ⟨e, -, rfl⟩ := List.mem_map.1 hs
    exact ⟨rfl, rfl⟩

/-- **Each segment is given the hosts of its label.** -/
theorem foldl_pushHost (l : List Host) (segments : List Segment) :
    l.foldl (fun ss h => atSegment h.segmentId (Segment.pushHost h) ss) segments
      = segments.map fun s => { s with hosts := s.hosts ++ l.filter (·.segmentId = s.id) } := by
  induction l generalizing segments with
  | nil => simp
  | cons h l ih =>
    rw [List.foldl_cons, ih, atSegment, List.map_map]
    refine List.map_congr_left fun s _ => ?_
    by_cases hid : s.id = h.segmentId
    · simp [hid, Segment.pushHost]
    · simp [hid, Ne.symm hid]

/-- An anchor is all that is changed. -/
theorem anchor_eq (s : Segment) : ∃ a, s.anchor B = { s with anchorHost := a } := by
  unfold Segment.anchor
  split
  · exact ⟨_, rfl⟩
  · exact ⟨_, rfl⟩
  · split_ifs <;> exact ⟨_, rfl⟩

/-- **A remote segment is anchored at one of its hosts.** -/
theorem anchor_mem {s : Segment} (hkind : s.kind = .remote) (hhosts : s.hosts ≠ []) :
    ∃ h ∈ s.hosts, (s.anchor B).anchorHost = some h.id := by
  unfold Segment.anchor
  split
  · next hlocal => exact absurd (hkind.symm.trans hlocal) (by decide)
  · next hnil => exact absurd hnil hhosts
  · next first rest _ heq =>
    split_ifs with hany
    · obtain ⟨a, ha, hlisted⟩ := (Option.any_eq_true _ _).1 hany
      simp only [Bool.and_eq_true, List.any_eq_true, decide_eq_true_eq] at hlisted
      obtain ⟨-, h, hh, hid⟩ := hlisted
      exact ⟨h, hh, by rw [ha, hid]⟩
    · refine ⟨_, ?_, rfl⟩
      -- a candidate is one of the hosts
      generalize hcand : List.mergeSort _ _ = candidates
      have hsub : ∀ c ∈ candidates, c ∈ s.hosts := by
        intro c hc
        rw [← hcand] at hc
        exact (List.mem_filter.1 (List.mem_mergeSort.1 hc)).1
      cases candidates with
      | nil => exact heq ▸ List.mem_cons_self
      | cons c cs => exact hsub c List.mem_cons_self

/-! ## The links and where they are put -/

/-- The two ends of an edge. -/
def MeshEdge.ends (B : Browser) (e : MeshEdge) : String × String :=
  (B.toLowerCase e.fromMac, B.toLowerCase e.toMac)

/-- The two ends of a link. -/
def Edge.ends (e : Edge) : String × String := (e.hostA, e.hostB)

/-- The label of the first host of a link. -/
def labelOf (hosts : List Host) (e : Edge) : String :=
  ((getHost hosts e.hostA).map (·.segmentId)).getD ""

/-- A link has two hosts, which have one label unless it is across segments. -/
def Joins (hosts : List Host) (e : Edge) : Prop :=
  e.hostA ≠ e.hostB ∧ ∃ a b, getHost hosts e.hostA = some a ∧ getHost hosts e.hostB = some b ∧
    (e.blos = false → a.segmentId = b.segmentId)

theorem joins_of_linkOf {hosts : List Host} {e : MeshEdge} {l : Edge}
    (h : linkOf B hosts e = some l) : Joins hosts l ∧ l.ends = e.ends B := by
  simp only [linkOf] at h
  split_ifs at h with hends
  split at h
  · next ha hb =>
    obtain rfl := Option.some.inj h
    refine ⟨⟨fun heq => hends (.inr (.inr heq)), _, _, ha, hb, fun hrf => ?_⟩, rfl⟩
    by_contra hne
    simp [hne] at hrf
  · cases h

/-- What is linked: two hosts that differ. -/
def Linked (keys : List String) (p : String × String) : Prop :=
  p.1 ≠ p.2 ∧ p.1 ∈ keys ∧ p.2 ∈ keys

instance (keys : List String) (p : String × String) : Decidable (Linked keys p) :=
  inferInstanceAs (Decidable (_ ∧ _))

theorem getHost_isSome_iff {hosts : List Host} {mac : String} :
    (getHost hosts mac).isSome ↔ mac ∈ hosts.map (·.id) := by
  rw [getHost, List.find?_isSome, List.mem_map]
  simp

/-- An edge is a link if it joins two hosts, and only then. -/
theorem linkOf_isSome_iff {hosts : List Host} (hblank : "" ∉ hosts.map (·.id)) {e : MeshEdge} :
    (linkOf B hosts e).isSome ↔ Linked (hosts.map (·.id)) (e.ends B) := by
  simp only [linkOf, Linked, MeshEdge.ends, ← getHost_isSome_iff]
  rw [← getHost_isSome_iff] at hblank
  split_ifs with hends
  · grind
  · have hne : B.toLowerCase e.fromMac ≠ B.toLowerCase e.toMac := fun heq =>
      hends (.inr (.inr heq))
    cases getHost hosts (B.toLowerCase e.fromMac) <;>
      cases getHost hosts (B.toLowerCase e.toMac) <;> simp [hne]

/-- **No link is lost**, and none is made up. -/
theorem map_ends_links {hosts : List Host} (hblank : "" ∉ hosts.map (·.id))
    (edges : List MeshEdge) :
    (edges.filterMap (linkOf B hosts)).map Edge.ends
      = (edges.map (MeshEdge.ends B)).filter fun p => Linked (hosts.map (·.id)) p := by
  induction edges with
  | nil => rfl
  | cons e edges ih =>
    rw [List.filterMap_cons, List.map_cons, List.filter_cons]
    cases hlink : linkOf B hosts e with
    | none =>
      have hnot : ¬ Linked (hosts.map (·.id)) (e.ends B) := by
        rw [← linkOf_isSome_iff hblank, hlink]
        simp
      simpa [hnot] using ih
    | some l =>
      have hlinked : Linked (hosts.map (·.id)) (e.ends B) := by
        rw [← linkOf_isSome_iff hblank, hlink]
        rfl
      simpa [hlinked, (joins_of_linkOf hlink).2] using ih

/-- **Where the links are put.** Across the segments, or in the segment of their
label. -/
theorem foldl_placeEdge {hosts : List Host} {links : List Edge} (h : ∀ e ∈ links, Joins hosts e)
    (p : Placed) :
    links.foldl (placeEdge hosts) p =
      { segments := p.segments.map fun s =>
          { s with edges := s.edges ++ (links.filter fun e => !e.blos).filter fun e =>
              labelOf hosts e = s.id }
        blosEdges := p.blosEdges ++ links.filter (·.blos)
        rfLinkCount := p.rfLinkCount + (links.filter fun e => !e.blos).length } := by
  induction links generalizing p with
  | nil => simp
  | cons e links ih =>
    rw [List.foldl_cons, ih fun e he => h e (List.mem_cons_of_mem _ he)]
    obtain ⟨-, a, -, ha, -⟩ := h e List.mem_cons_self
    have hlabel : labelOf hosts e = a.segmentId := by rw [labelOf, ha]; rfl
    rw [placeEdge]
    by_cases hblos : e.blos = true
    · simp [hblos]
    · simp only [hblos, ha, if_false, atSegment, List.map_map, Bool.false_eq_true, Bool.not_false,
        List.filter_cons_of_pos, List.filter_cons_of_neg, not_false_eq_true, Placed.mk.injEq,
        List.length_cons, true_and]
      refine ⟨List.map_congr_left fun s _ => ?_, by omega⟩
      by_cases hid : s.id = a.segmentId
      · simp [hid, hlabel, Segment.pushEdge]
      · simp [hid, hlabel, Ne.symm hid]

/-! ## The passes agree -/

/-- The nodes of an answer. -/
def listed (topology : Option MeshTopology) : List Node := (topology.bind (·.nodes)).getD []

/-- What the edges of an answer join. -/
def endsOf (B : Browser) (topology : Option MeshTopology) : List (String × String) :=
  ((topology.elim [] (·.edges)).map (MeshEdge.ends B)).filter fun p =>
    Linked (keysOf B (listed topology)) p

/-- All the links of a view. -/
def View.links (v : View) : List Edge := v.blosEdges ++ v.segments.flatMap (·.edges)

/-- **A view is a partition** of the hosts, which are the nodes that have a key, and
of the links, which are the edges between two of them. -/
structure Consistent (B : Browser) (topology : Option MeshTopology) (v : View) : Prop where
  /-- Each node is a host. -/
  hosts : (v.hosts.map (·.id)).Perm (keysOf B (listed topology))
  hosts_nodup : (v.hosts.map (·.id)).Nodup
  segments_nodup : (v.segments.map (·.id)).Nodup
  /-- Each host is in one segment, once. -/
  placed : ∀ h ∈ v.hosts, ∃! s, s ∈ v.segments ∧ h ∈ s.hosts
  partition : (v.segments.flatMap (·.hosts)).Perm v.hosts
  /-- Each edge between two hosts is a link. -/
  links : (v.links.map Edge.ends).Perm (endsOf B topology)
  /-- A link within a segment is in its list and in no other, and joins two of its hosts. -/
  within : ∀ e ∈ v.links, e.blos = false → e ∉ v.blosEdges ∧ e.hostA ≠ e.hostB ∧
    ∃! s, s ∈ v.segments ∧ e ∈ s.edges ∧
      (∃ a ∈ s.hosts, a.id = e.hostA) ∧ ∃ b ∈ s.hosts, b.id = e.hostB
  segment_edges : ∀ s ∈ v.segments, ∀ e ∈ s.edges, e.blos = false ∧
    (∃ a ∈ s.hosts, a.id = e.hostA) ∧ ∃ b ∈ s.hosts, b.id = e.hostB
  /-- A link between two segments is across. -/
  across : ∀ e ∈ v.links, ∀ s ∈ v.segments, ∀ s' ∈ v.segments, ∀ a ∈ s.hosts, ∀ b ∈ s'.hosts,
    a.id = e.hostA → b.id = e.hostB → s ≠ s' → e ∈ v.blosEdges
  anchored : ∀ s ∈ v.segments, s.kind = .remote → ∃ h ∈ s.hosts, s.anchorHost = some h.id
  /-- The node itself is a host that is marked, and the first is one. -/
  self : ∀ s, v.self = some s → s ∈ v.hosts ∧ s.isSelf = true ∧
    ∃ h, v.hosts.head? = some h ∧ h.isSelf = true ∧
      ((v.hosts.filter (·.isSelf)).length = 1 → h = s)
  self_none : v.self = none → ∀ h ∈ v.hosts, h.isSelf = false
  counts_hosts : v.counts.hosts = v.hosts.length
  counts_segments : v.counts.segments = v.segments.length
  counts_links : v.counts.links = (v.segments.flatMap (·.edges)).length
  counts_blosLinks : v.counts.blosLinks = v.blosEdges.length

/-- Segments under distinct ids that hold the hosts and the links of their label. -/
structure Filled (hosts : List Host) (links : List Edge) (label : Edge → String)
    (segments : List Segment) : Prop where
  nodup : (segments.map (·.id)).Nodup
  hosts_nodup : (hosts.map (·.id)).Nodup
  hosts_eq : ∀ s ∈ segments, s.hosts = hosts.filter (·.segmentId = s.id)
  edges_eq : ∀ s ∈ segments, s.edges = links.filter fun e => label e = s.id
  cover : ∀ h ∈ hosts, h.segmentId ∈ segments.map (·.id)
  ends : ∀ e ∈ links, ∃ a ∈ hosts, ∃ b ∈ hosts, a.id = e.hostA ∧ b.id = e.hostB ∧
    a.segmentId = label e ∧ b.segmentId = label e

namespace Filled

variable {hosts : List Host} {links : List Edge} {label : Edge → String} {segments : List Segment}

theorem mem_hosts_iff (h : Filled hosts links label segments) {s : Segment} (hs : s ∈ segments)
    {x : Host} : x ∈ s.hosts ↔ x ∈ hosts ∧ x.segmentId = s.id := by
  rw [h.hosts_eq s hs, List.mem_filter, decide_eq_true_eq]

theorem mem_edges_iff (h : Filled hosts links label segments) {s : Segment} (hs : s ∈ segments)
    {e : Edge} : e ∈ s.edges ↔ e ∈ links ∧ label e = s.id := by
  rw [h.edges_eq s hs, List.mem_filter, decide_eq_true_eq]

theorem eq_of_id (h : Filled hosts links label segments) {s s' : Segment} (hs : s ∈ segments)
    (hs' : s' ∈ segments) (hid : s.id = s'.id) : s = s' :=
  List.inj_on_of_nodup_map h.nodup hs hs' hid

theorem eq_of_host (h : Filled hosts links label segments) {a b : Host} (ha : a ∈ hosts)
    (hb : b ∈ hosts) (hid : a.id = b.id) : a = b :=
  List.inj_on_of_nodup_map h.hosts_nodup ha hb hid

/-- A host is in the segment of its label. -/
theorem placed (h : Filled hosts links label segments) {x : Host} (hx : x ∈ hosts) :
    ∃! s, s ∈ segments ∧ x ∈ s.hosts := by
  obtain ⟨s, hs, hid⟩ := List.mem_map.1 (h.cover x hx)
  refine ⟨s, ⟨hs, (h.mem_hosts_iff hs).2 ⟨hx, hid.symm⟩⟩, ?_⟩
  rintro s' ⟨hs', hx'⟩
  exact h.eq_of_id hs' hs (((h.mem_hosts_iff hs').1 hx').2.symm.trans hid.symm)

/-- The segments hold the hosts. -/
theorem partition (h : Filled hosts links label segments) :
    (segments.flatMap (·.hosts)).Perm hosts := by
  have heq : segments.flatMap (·.hosts)
      = (segments.map (·.id)).flatMap fun k => hosts.filter fun x => x.segmentId = k := by
    rw [List.flatMap_map]
    exact List.flatMap_congr h.hosts_eq
  rw [heq]
  exact Grouped.perm_flatMap_filter h.nodup h.cover

/-- And the links. -/
theorem partition_edges (h : Filled hosts links label segments) :
    (segments.flatMap (·.edges)).Perm links := by
  have heq : segments.flatMap (·.edges)
      = (segments.map (·.id)).flatMap fun k => links.filter fun e => label e = k := by
    rw [List.flatMap_map]
    exact List.flatMap_congr h.edges_eq
  rw [heq]
  refine Grouped.perm_flatMap_filter h.nodup fun e he => ?_
  obtain ⟨a, ha, -, -, -, -, hlabel, -⟩ := h.ends e he
  exact hlabel ▸ h.cover a ha

/-- A link joins two hosts of its segment. -/
theorem ends_mem (h : Filled hosts links label segments) {s : Segment} (hs : s ∈ segments)
    {e : Edge} (he : e ∈ s.edges) :
    (∃ a ∈ s.hosts, a.id = e.hostA) ∧ ∃ b ∈ s.hosts, b.id = e.hostB := by
  obtain ⟨hlink, hlabel⟩ := (h.mem_edges_iff hs).1 he
  obtain ⟨a, ha, b, hb, hida, hidb, hla, hlb⟩ := h.ends e hlink
  exact ⟨⟨a, (h.mem_hosts_iff hs).2 ⟨ha, hla.trans hlabel⟩, hida⟩,
    b, (h.mem_hosts_iff hs).2 ⟨hb, hlb.trans hlabel⟩, hidb⟩

/-- **A link is in one segment.** -/
theorem within (h : Filled hosts links label segments) {e : Edge} (he : e ∈ links) :
    ∃! s, s ∈ segments ∧ e ∈ s.edges ∧
      (∃ a ∈ s.hosts, a.id = e.hostA) ∧ ∃ b ∈ s.hosts, b.id = e.hostB := by
  obtain ⟨a, ha, -, -, -, -, hlabel, -⟩ := h.ends e he
  obtain ⟨s, hs, hid⟩ := List.mem_map.1 (h.cover a ha)
  have hmem : e ∈ s.edges := (h.mem_edges_iff hs).2 ⟨he, hlabel.symm.trans hid.symm⟩
  refine ⟨s, ⟨hs, hmem, h.ends_mem hs hmem⟩, ?_⟩
  rintro s' ⟨hs', hmem', -⟩
  refine h.eq_of_id hs' hs ?_
  rw [← ((h.mem_edges_iff hs').1 hmem').2, ← ((h.mem_edges_iff hs).1 hmem).2]

/-- Two segments have no link between them. -/
theorem not_mem_of_ne (h : Filled hosts links label segments) {s s' : Segment}
    (hs : s ∈ segments) (hs' : s' ∈ segments) {a b : Host} (ha : a ∈ s.hosts) (hb : b ∈ s'.hosts)
    {e : Edge} (hida : a.id = e.hostA) (hidb : b.id = e.hostB) (hne : s ≠ s') : e ∉ links := by
  intro he
  obtain ⟨a', ha', b', hb', hida', hidb', hla, hlb⟩ := h.ends e he
  obtain ⟨ha, hsa⟩ := (h.mem_hosts_iff hs).1 ha
  obtain ⟨hb, hsb⟩ := (h.mem_hosts_iff hs').1 hb
  obtain rfl := h.eq_of_host ha ha' (hida.trans hida'.symm)
  obtain rfl := h.eq_of_host hb hb' (hidb.trans hidb'.symm)
  exact hne (h.eq_of_id hs hs' (by rw [← hsa, ← hsb, hla, hlb]))

end Filled

/-! ## The view that is built -/

section Built

variable {t : MeshTopology} {nodes : List Node}

/-- The links of an answer. -/
def linksOf (B : Browser) (t : MeshTopology) (nodes : List Node) : List Edge :=
  t.edges.filterMap (linkOf B (hostByMac B nodes))

theorem joins_of_mem_linksOf {e : Edge} (he : e ∈ linksOf B t nodes) :
    Joins (hostByMac B nodes) e := by
  obtain ⟨e', -, hlink⟩ := List.mem_filterMap.1 he
  exact (joins_of_linkOf hlink).1

/-- The links are put at the anchored segments. -/
theorem foldl_linksOf (p : Placed) :
    (t.edges.filterMap (linkOf B (hostByMac B nodes))).foldl (placeEdge (hostByMac B nodes)) p =
      { segments := p.segments.map fun s =>
          { s with edges := s.edges ++ ((linksOf B t nodes).filter fun e => !e.blos).filter fun e =>
              labelOf (hostByMac B nodes) e = s.id }
        blosEdges := p.blosEdges ++ (linksOf B t nodes).filter (·.blos)
        rfLinkCount := p.rfLinkCount + ((linksOf B t nodes).filter fun e => !e.blos).length } :=
  foldl_placeEdge (fun _ he => joins_of_mem_linksOf he) p

/-- A segment is given its hosts, its anchor and its links. -/
def fill (B : Browser) (t : MeshTopology) (nodes : List Node) (s : Segment) : Segment :=
  { ({ s with hosts := (sortHosts B (hostByMac B nodes)).filter (·.segmentId = s.id) } :
      Segment).anchor B with
    edges := ((linksOf B t nodes).filter fun e => !e.blos).filter fun e =>
      labelOf (hostByMac B nodes) e = s.id }

variable (B t nodes) in
theorem fill_eq (s : Segment) : ∃ a, fill B t nodes s =
    { s with
      anchorHost := a
      hosts := (sortHosts B (hostByMac B nodes)).filter (·.segmentId = s.id)
      edges := ((linksOf B t nodes).filter fun e => !e.blos).filter fun e =>
        labelOf (hostByMac B nodes) e = s.id } := by
  obtain ⟨a, ha⟩ := anchor_eq (B := B)
    { s with hosts := (sortHosts B (hostByMac B nodes)).filter (·.segmentId = s.id) }
  exact ⟨a, by rw [fill, ha]⟩

/-- **The segments of a view** are the empty ones, filled. -/
theorem viewOf_segments : (viewOf B t nodes).segments
    = (emptySegments B (hostByMac B nodes)).map (fill B t nodes) := by
  simp only [viewOf, foldl_linksOf, foldl_pushHost, List.map_map]
  refine List.map_congr_left fun s hs => ?_
  obtain ⟨hhosts, hedges⟩ := mem_emptySegments hs
  obtain ⟨a, ha⟩ := anchor_eq (B := B)
    { s with hosts := (sortHosts B (hostByMac B nodes)).filter (·.segmentId = s.id) }
  simp only [Function.comp, hhosts, List.nil_append, fill, ha]
  rw [hedges, List.nil_append]

theorem viewOf_hosts : (viewOf B t nodes).hosts = sortHosts B (hostByMac B nodes) := rfl

theorem map_id_segments :
    (viewOf B t nodes).segments.map (·.id) = (emptySegments B (hostByMac B nodes)).map (·.id) := by
  rw [viewOf_segments, List.map_map]
  refine List.map_congr_left fun s _ => ?_
  obtain ⟨a, ha⟩ := fill_eq B t nodes s
  rw [Function.comp, ha]

/-- A host of the records is in the order of the hosts, under its label. -/
theorem mem_sortHosts_iff {id segmentId : String} :
    (∃ h ∈ sortHosts B (hostByMac B nodes), h.id = id ∧ h.segmentId = segmentId) ↔
      ∃ h ∈ hostByMac B nodes, h.id = id ∧ h.segmentId = segmentId := by
  have hmem := (map_sortHosts (B := B) (fun h => (h.id, h.segmentId)) (fun _ _ => rfl)
    (hostByMac B nodes)).mem_iff (a := (id, segmentId))
  simpa only [List.mem_map, Prod.mk.injEq] using hmem

/-- **The segments of a view hold what has their label.** -/
theorem filled (h : (keysOf B nodes).Nodup) :
    Filled (viewOf B t nodes).hosts ((linksOf B t nodes).filter fun e => !e.blos)
      (labelOf (hostByMac B nodes)) (viewOf B t nodes).segments where
  nodup := by
    rw [map_id_segments]
    exact (emptySegments_ids _).1
  hosts_nodup := by
    rw [viewOf_hosts, (map_sortHosts (·.id) (fun _ _ => rfl) _).nodup_iff, map_id_hostByMac h]
    exact h
  hosts_eq := by
    intro s hs
    rw [viewOf_segments] at hs
    obtain ⟨s₀, -, rfl⟩ := List.mem_map.1 hs
    obtain ⟨a, ha⟩ := fill_eq B t nodes s₀
    rw [ha]
    rfl
  edges_eq := by
    intro s hs
    rw [viewOf_segments] at hs
    obtain ⟨s₀, -, rfl⟩ := List.mem_map.1 hs
    obtain ⟨a, ha⟩ := fill_eq B t nodes s₀
    rw [ha]
  cover := by
    intro x hx
    rw [map_id_segments, (emptySegments_ids _).2]
    obtain ⟨y, hy, -, hlabel⟩ := mem_sortHosts_iff.1 ⟨x, hx, rfl, rfl⟩
    exact ⟨y, hy, hlabel⟩
  ends := by
    intro e he
    obtain ⟨hlink, hrf⟩ := List.mem_filter.1 he
    obtain ⟨-, a, b, ha, hb, hsame⟩ := joins_of_mem_linksOf hlink
    have hids : ((hostByMac B nodes).map (·.id)).Nodup := by rw [map_id_hostByMac h]; exact h
    have hlabel : labelOf (hostByMac B nodes) e = a.segmentId := by rw [labelOf, ha]; rfl
    obtain ⟨hamem, haid⟩ := (getHost_eq_some_iff hids).1 ha
    obtain ⟨hbmem, hbid⟩ := (getHost_eq_some_iff hids).1 hb
    obtain ⟨a', ha', haid', halabel⟩ := mem_sortHosts_iff.2 ⟨a, hamem, haid, rfl⟩
    obtain ⟨b', hb', hbid', hblabel⟩ := mem_sortHosts_iff.2 ⟨b, hbmem, hbid, rfl⟩
    refine ⟨a', ha', b', hb', haid', hbid', halabel.trans hlabel.symm, ?_⟩
    rw [hblabel, hlabel, hsame (by simpa using hrf)]

/-- A remote segment has a host, and is anchored at one. -/
theorem anchored {s : Segment} (hs : s ∈ (viewOf B t nodes).segments) (hkind : s.kind = .remote) :
    ∃ h ∈ s.hosts, s.anchorHost = some h.id := by
  rw [viewOf_segments] at hs
  obtain ⟨s₀, hs₀, rfl⟩ := List.mem_map.1 hs
  have hkind₀ : s₀.kind = .remote := by
    obtain ⟨a, ha⟩ := fill_eq B t nodes s₀
    rwa [ha] at hkind
  obtain ⟨y, hy, hlabel⟩ := (emptySegments_ids _).2 s₀.id |>.1 (List.mem_map_of_mem hs₀)
  obtain ⟨x, hx, -, hlabel⟩ := mem_sortHosts_iff.2 ⟨y, hy, rfl, hlabel⟩
  have hmem : x ∈ (sortHosts B (hostByMac B nodes)).filter (·.segmentId = s₀.id) :=
    List.mem_filter.2 ⟨hx, decide_eq_true hlabel⟩
  obtain ⟨z, hz, hanchor⟩ := anchor_mem (B := B)
    (s := { s₀ with hosts := (sortHosts B (hostByMac B nodes)).filter (·.segmentId = s₀.id) })
    hkind₀ (List.ne_nil_of_mem hmem)
  obtain ⟨a, ha⟩ := fill_eq B t nodes s₀
  refine ⟨z, ?_, hanchor⟩
  rw [ha]
  exact hz

/-- The node itself is first, where it is there. -/
theorem self_first (h : (keysOf B nodes).Nodup) {s : Host} (hs : (viewOf B t nodes).self = some s) :
    s ∈ (viewOf B t nodes).hosts ∧ s.isSelf = true ∧
      ∃ x, (viewOf B t nodes).hosts.head? = some x ∧ x.isSelf = true ∧
        (((viewOf B t nodes).hosts.filter (·.isSelf)).length = 1 → x = s) := by
  have hspec := selfHost_spec h
  obtain ⟨s₀, hs₀, hfound⟩ := Option.map_eq_some_iff.1 hs
  rw [hs₀] at hspec
  obtain ⟨y, hy, hid, hself⟩ := hspec
  -- the record that is marked is found in the order of the hosts
  have hmarks := (map_sortHosts (B := B) (fun h => (h.id, h.isSelf)) (fun _ _ => rfl)
    (hostByMac B nodes)).mem_iff (a := (s₀.id, true))
  simp only [List.mem_map, Prod.mk.injEq] at hmarks
  obtain ⟨z, hz, hzid, hzself⟩ := hmarks.2 ⟨y, hy, hid, hself⟩
  obtain ⟨w, hw⟩ := Option.isSome_iff_exists.1
    (List.find?_isSome.2 ⟨z, hz, by simp [hzid, hzself]⟩ : (List.find? (fun h : Host =>
      decide (h.id = s₀.id) && h.isSelf) (sortHosts B (hostByMac B nodes))).isSome)
  rw [hw, Option.getD_some] at hfound
  subst hfound
  have hmem : w ∈ (viewOf B t nodes).hosts := List.mem_of_find?_eq_some hw
  have hwself : w.isSelf = true := by
    have hcond := List.find?_some hw
    exact (Bool.and_eq_true_iff.1 hcond).2
  refine ⟨hmem, hwself, ?_⟩
  have hsorted : (viewOf B t nodes).hosts.Pairwise fun a b => b.isSelf = true → a.isSelf = true :=
    sortHosts_marked_first _
  generalize (viewOf B t nodes).hosts = hosts at hmem hsorted
  cases hosts with
  | nil => cases hmem
  | cons x rest =>
    have hxself : x.isSelf = true := by
      rcases List.mem_cons.1 hmem with rfl | hrest
      · exact hwself
      · exact List.rel_of_pairwise_cons hsorted hrest hwself
    refine ⟨x, rfl, hxself, fun hone => ?_⟩
    obtain ⟨u, hu⟩ := List.length_eq_one_iff.1 hone
    have hx : x ∈ (x :: rest).filter (·.isSelf) := List.mem_filter.2 ⟨List.mem_cons_self, hxself⟩
    have hw' : w ∈ (x :: rest).filter (·.isSelf) := List.mem_filter.2 ⟨hmem, hwself⟩
    rw [hu, List.mem_singleton] at hx hw'
    rw [hx, hw']

/-- Where no node is itself, no host is marked. -/
theorem self_none (h : (keysOf B nodes).Nodup) (hs : (viewOf B t nodes).self = none) {x : Host}
    (hx : x ∈ (viewOf B t nodes).hosts) : x.isSelf = false := by
  have hspec := selfHost_spec h
  rw [Option.map_eq_none_iff.1 hs] at hspec
  have hmarks := (map_sortHosts (B := B) (·.isSelf) (fun _ _ => rfl)
    (hostByMac B nodes)).mem_iff (a := x.isSelf)
  obtain ⟨y, hy, hself⟩ := List.mem_map.1 (hmarks.1 (List.mem_map_of_mem hx))
  rw [← hself]
  exact hspec y hy

theorem viewOf_blosEdges :
    (viewOf B t nodes).blosEdges = (linksOf B t nodes).filter (·.blos) := by
  simp only [viewOf, foldl_linksOf, List.nil_append]

theorem viewOf_rfLinkCount :
    (viewOf B t nodes).counts.links = ((linksOf B t nodes).filter fun e => !e.blos).length := by
  simp only [viewOf, foldl_linksOf, Nat.zero_add]

/-- The links of a view are those of the answer. -/
theorem links_perm (h : (keysOf B nodes).Nodup) :
    (viewOf B t nodes).links.Perm (linksOf B t nodes) := by
  rw [View.links, viewOf_blosEdges]
  exact ((filled h).partition_edges.append_left _).trans (List.filter_append_perm _ _)

/-- **The view of some nodes is a partition.** -/
theorem viewOf_consistent (ht : t.nodes = some nodes) (h : (keysOf B nodes).Nodup) :
    Consistent B (some t) (viewOf B t nodes) where
  hosts := by
    have hlisted : listed (some t) = nodes := by simp [listed, ht]
    rw [hlisted, ← map_id_hostByMac h, viewOf_hosts]
    exact map_sortHosts (·.id) (fun _ _ => rfl) _
  hosts_nodup := (filled (t := t) h).hosts_nodup
  segments_nodup := (filled h).nodup
  placed := fun _ hx => (filled h).placed hx
  partition := (filled h).partition
  links := by
    have hlisted : listed (some t) = nodes := by simp [listed, ht]
    have hblank : "" ∉ (hostByMac B nodes).map (·.id) := by
      rw [map_id_hostByMac h]
      simp [keysOf]
    rw [endsOf, hlisted, ← map_id_hostByMac h]
    exact ((links_perm h).map _).trans (List.Perm.of_eq (map_ends_links hblank t.edges))
  within := by
    intro e he hrf
    have hmem := (links_perm h).mem_iff.1 he
    refine ⟨?_, (joins_of_mem_linksOf hmem).1,
      (filled h).within (List.mem_filter.2 ⟨hmem, by simp [hrf]⟩)⟩
    rw [viewOf_blosEdges, List.mem_filter, hrf]
    simp
  segment_edges := by
    intro s hs e he
    obtain ⟨hlink, -⟩ := ((filled h).mem_edges_iff hs).1 he
    exact ⟨by simpa using (List.mem_filter.1 hlink).2, (filled h).ends_mem hs he⟩
  across := by
    intro e he s hs s' hs' a ha b hb hida hidb hne
    have hnot := (filled h).not_mem_of_ne hs hs' ha hb hida hidb hne
    have hmem := (links_perm h).mem_iff.1 he
    rw [List.mem_filter, not_and] at hnot
    rw [viewOf_blosEdges]
    exact List.mem_filter.2 ⟨hmem, by simpa using hnot hmem⟩
  anchored := fun _ hs hkind => anchored hs hkind
  self := fun _ hs => self_first h hs
  self_none := fun hs _ hx => self_none h hs hx
  counts_hosts := rfl
  counts_segments := rfl
  counts_links := by rw [viewOf_rfLinkCount, (filled h).partition_edges.length_eq]
  counts_blosLinks := rfl

end Built

/-- The view of no node is one, too. -/
theorem emptyView_consistent {topology : Option MeshTopology} (h : listed topology = []) :
    Consistent B topology emptyView := by
  constructor <;> simp [emptyView, h, keysOf, endsOf, View.links, Linked]

/-- **The topology that is drawn is a partition**: of every answer whose nodes have
distinct keys, each host is in one segment and each link in one list, a link within a
segment joins two of its hosts and one between two segments is across, a remote
segment is anchored at one of its hosts, the node itself is first, and the counts are
those of the lists. -/
theorem buildTopologyView_consistent (topology : Option MeshTopology)
    (h : (keysOf B (listed topology)).Nodup) :
    Consistent B topology (buildTopologyView B topology) := by
  cases topology with
  | none => exact emptyView_consistent rfl
  | some t =>
    cases hnodes : t.nodes with
    | none =>
      have hlisted : listed (some t) = [] := by simp [listed, hnodes]
      simpa only [buildTopologyView, hnodes] using emptyView_consistent hlisted
    | some nodes =>
      have hlisted : listed (some t) = nodes := by simp [listed, hnodes]
      cases nodes with
      | nil => simpa only [buildTopologyView, hnodes] using emptyView_consistent hlisted
      | cons n nodes =>
        simpa only [buildTopologyView, hnodes] using viewOf_consistent hnodes (hlisted ▸ h)

/-- Letters as they are, in the order of their code points. -/
def plainBrowser : Browser where
  toLowerCase := id
  localeCompare := compare
  transCmp := inferInstance

/-- This node and one behind the gateway `g`, which no one lists. -/
def unlisted : MeshTopology where
  nodes := some [{ mac := "a", isSelf := true },
    { mac := "b", segment := "remote", remoteGatewayMac := "g" }]
  edges := [{ fromMac := "a", toMac := "b" }, { fromMac := "b", toMac := "g" }]

theorem buildTopologyView_consistent_unlisted :
    Consistent plainBrowser (some unlisted) (buildTopologyView plainBrowser (some unlisted)) :=
  buildTopologyView_consistent (some unlisted) (by decide)

end TopologyGraph

end OpenManet
