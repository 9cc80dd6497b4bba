import OpenManet.Address.Search
import OpenManet.Lib.Upsert
/-!
# Node gossip

`internal/mgmt/node.go`, the receiving side, over the table `mesh_nodes`. A
receive decodes each record of the gossip, turns away those under this node's
own hostname and those with a DHCP field that is no number, and writes the
others by their MAC. The address reservation reads the rows that are there
after it.

A record comes with the text of the database's clock at its write. The decoder
of the messages is a parameter. Writes are taken as accepted: the code logs
the error of one that is not, and goes on.
-/

namespace OpenManet

namespace NodeData

open Table Address

/-! ## The records -/

/-- `proto.Position`. -/
structure Position where
  latitude : Float
  longitude : Float
  altitude : Float32

/-- `proto.Node`. -/
structure Node where
  mac : String
  hostname : String
  ipaddr : String
  position : Option Position
  uciDhcpStart : String
  uciDhcpLimit : String

/-- A record of the gossip, and the time of its write. -/
structure Record where
  data : List UInt8
  now : String

/-! ## Numbers -/

/-- Why `strconv.ParseInt` fails. -/
inductive NumError where
  | invalid
  | outOfRange
deriving DecidableEq

/-- The error's text, for a number that has nothing to escape. -/
def NumError.text (num : String) : NumError → String
  | .invalid => "strconv.ParseInt: parsing \"" ++ num ++ "\": invalid syntax"
  | .outOfRange => "strconv.ParseInt: parsing \"" ++ num ++ "\": value out of range"

/-- The digit loop of `strconv.ParseUint`, which stops at the first digit that
64 bits do not hold. -/
def digitsFrom : List Char → ℕ → Except NumError ℕ
  | [], n => .ok n
  | c :: rest, n =>
    if ¬c.isDigit then .error .invalid
    else if 2 ^ 64 ≤ 10 * n + (c.toNat - '0'.toNat) then .error .outOfRange
    else digitsFrom rest (10 * n + (c.toNat - '0'.toNat))

/-- `strconv.ParseUint` in base ten, for 64 bits. -/
def parseUint (digits : List Char) : Except NumError ℕ :=
  if digits = [] then .error .invalid else digitsFrom digits 0

/-- `strconv.ParseInt` in base ten, for 64 bits. -/
def parseInt (s : String) : Except NumError Int64 :=
  let (neg, digits) :=
    match s.toList with
    | '+' :: rest => (false, rest)
    | '-' :: rest => (true, rest)
    | chars => (false, chars)
  match parseUint digits with
  | .error e => .error e
  | .ok un =>
    if (if neg then 2 ^ 63 < un else 2 ^ 63 ≤ un) then .error .outOfRange
    else .ok (Int64.ofInt (if neg then -un else un))

/-- A DHCP field of a record, null where it is empty. -/
def parseDhcp (field value : String) : Except String (Option Int64) :=
  if value = "" then .ok none
  else
    match parseInt value with
    | .error e => .error ("parse " ++ field ++ ": " ++ e.text value)
    | .ok n => .ok (some n)

/-! ## The table -/

/-- The columns a record fills. -/
structure Columns where
  hostname : String
  ipAddr : String
  latitude : Option Float
  longitude : Option Float
  altitude : Option Float
  uciDhcpStart : Option Int64
  uciDhcpLimit : Option Int64

/-- A row of `mesh_nodes` but for its MAC. The times are texts that compare as
the times do. -/
structure MeshRow extends Columns where
  createdAt : String
  updatedAt : String

/-- The table `mesh_nodes`, by its primary key. -/
abbrev MeshNodes := Table MeshRow

/-- A row as the reservation reads it. -/
def MeshRow.node (row : MeshRow) (mac : String) : MeshNode where
  macAddr := mac
  ipAddr := row.ipAddr
  uciDhcpStart := row.uciDhcpStart
  uciDhcpLimit := row.uciDhcpLimit

/-- `ListMeshNodes`, which lists by hostname. Nothing rests on the order. -/
def ListMeshNodes (t : MeshNodes) (nodes : List MeshNode) : Prop :=
  nodes.Perm (t.entries.map fun e => e.2.node e.1)

/-- What `CreateMeshNode` makes of the row of its MAC. -/
def createdRow (now : String) (c : Columns) (row : Option MeshRow) : MeshRow where
  toColumns := c
  createdAt := (row.map (·.createdAt)).getD now
  updatedAt := now

/-- `CreateMeshNode`. -/
def createMeshNode (now : String) (t : MeshNodes) (mac : String) (c : Columns) : MeshNodes :=
  t.upsert mac (createdRow now c)

/-- `DeleteDuplicateMeshNodes`: of each MAC, the rows of its last update stay. -/
def deleteDuplicateMeshNodes (t : MeshNodes) : MeshNodes :=
  t.restrict fun mac row =>
    t.entries.all fun e => decide ¬(e.1 = mac ∧ row.updatedAt < e.2.updatedAt)

/-- `DeleteMeshNodesUpdatedBefore`. -/
def deleteMeshNodesUpdatedBefore (cutoff : String) (t : MeshNodes) : MeshNodes :=
  t.restrict fun _ row => decide ¬row.updatedAt < cutoff

/-! ## A receive -/

/-- The columns `recordNodeData` makes of a record. -/
def columnsOf (node : Node) : Except String Columns :=
  match parseDhcp "UciDhcpStart" node.uciDhcpStart with
  | .error e => .error e
  | .ok dhcpStart =>
    match parseDhcp "UciDhcpLimit" node.uciDhcpLimit with
    | .error e => .error e
    | .ok dhcpLimit =>
      .ok
        { hostname := node.hostname
          ipAddr := node.ipaddr
          latitude := node.position.map (·.latitude)
          longitude := node.position.map (·.longitude)
          altitude := node.position.map (·.altitude.toFloat)
          uciDhcpStart := dhcpStart
          uciDhcpLimit := dhcpLimit }

/-- `recordNodeData`. -/
def recordNodeData (now : String) (t : MeshNodes) (node : Node) : Except String MeshNodes :=
  match columnsOf node with
  | .error e => .error e
  | .ok c => .ok (deleteDuplicateMeshNodes (createMeshNode now t node.mac c))

/-- `expireStaleNodes`. There is no cutoff where expiry is disabled. -/
def expireStaleNodes (cutoff : Option String) (t : MeshNodes) : MeshNodes :=
  match cutoff with
  | none => t
  | some cutoff => deleteMeshNodesUpdatedBefore cutoff t

section Receive

variable (decode : List UInt8 → Option Node) (hostname : String)

/-- One pass of the loop. -/
def receiveRecord (t : MeshNodes) (rec : Record) : MeshNodes :=
  match decode rec.data with
  | none => t
  | some node =>
    if node.hostname = hostname then t
    else
      match recordNodeData rec.now t node with
      | .error _ => t
      | .ok t' => t'

/-- `receiveNodeData`. The hostname is what `getHostname` answered, also where
it failed: its error is only logged. -/
def receiveNodeData (cutoff : Option String) (request : Except String (List Record))
    (t : MeshNodes) : Except String Unit × MeshNodes :=
  match request with
  | .error e => (.error ("request node data: " ++ e), t)
  | .ok records =>
    (.ok (), expireStaleNodes cutoff (records.foldl (receiveRecord decode hostname) t))

end Receive

/-! ## What a record is good for -/

/-- Both DHCP fields are empty or spell a number. -/
def WellFormed (node : Node) : Prop :=
  (∃ n, parseDhcp "UciDhcpStart" node.uciDhcpStart = .ok n) ∧
    ∃ n, parseDhcp "UciDhcpLimit" node.uciDhcpLimit = .ok n

/-- A record that is written has both fields. -/
theorem columnsOf_ok_iff {node : Node} : (∃ c, columnsOf node = .ok c) ↔ WellFormed node := by
  unfold columnsOf WellFormed
  cases parseDhcp "UciDhcpStart" node.uciDhcpStart <;>
    cases parseDhcp "UciDhcpLimit" node.uciDhcpLimit <;> simp

/-- The address is written as it was told. -/
theorem columnsOf_ipAddr {node : Node} {c : Columns} (h : columnsOf node = .ok c) :
    c.ipAddr = node.ipaddr := by
  unfold columnsOf at h
  split at h
  · cases h
  · split at h
    · cases h
    · obtain rfl := Except.ok.inj h
      rfl

/-! ## A receive is a loop of upserts -/

/-- Under its primary key the table has no duplicates to delete. -/
theorem deleteDuplicateMeshNodes_eq (t : MeshNodes) : deleteDuplicateMeshNodes t = t := by
  refine restrict_eq fun mac row hrow => List.all_eq_true.2 fun e he => decide_eq_true ?_
  rintro ⟨rfl, hlt⟩
  have hsame : t.lookup e.1 = some e.2 := AList.mem_lookup_iff.2 he
  obtain rfl := Option.some.inj (hrow.symm.trans hsame)
  exact lt_irrefl _ hlt

/-- What a record that is taken writes. -/
structure Write where
  mac : String
  columns : Columns
  now : String

/-- The row it makes of the one that was there. -/
def Write.row (w : Write) : Option MeshRow → MeshRow := createdRow w.now w.columns

section Receive

variable {decode : List UInt8 → Option Node} {hostname : String} {records : List Record}
  {t : MeshNodes} {mac : String} {node : Node} {now : String}

/-- The records that decode, each with the time of its write. -/
def decoded (decode : List UInt8 → Option Node) (records : List Record) : List (Node × String) :=
  records.filterMap fun rec => (decode rec.data).map (·, rec.now)

/-- What a decoded record writes, if it is taken. -/
def writeOf (hostname : String) (heard : Node × String) : Option Write :=
  if heard.1.hostname = hostname then none
  else (columnsOf heard.1).toOption.map fun c => ⟨heard.1.mac, c, heard.2⟩

/-- The writes of a receive, in order. -/
def writes (decode : List UInt8 → Option Node) (hostname : String) (records : List Record) :
    List Write :=
  (decoded decode records).filterMap (writeOf hostname)

/-- A record is taken exactly where it is not under the own hostname and is
well formed. -/
theorem writeOf_isSome :
    (∃ w, writeOf hostname (node, now) = some w) ↔ node.hostname ≠ hostname ∧ WellFormed node := by
  rw [← columnsOf_ok_iff, writeOf]
  by_cases h : node.hostname = hostname
  · simp [h]
  · cases hc : columnsOf node <;> simp [h, Except.toOption]

/-- It writes its address, under its MAC, at its time. -/
theorem writeOf_eq {w : Write} (h : writeOf hostname (node, now) = some w) :
    w.mac = node.mac ∧ w.columns.ipAddr = node.ipaddr ∧ w.now = now := by
  unfold writeOf at h
  split at h
  · cases h
  · obtain ⟨c, hc, rfl⟩ := Option.map_eq_some_iff.1 h
    cases hcols : columnsOf node with
    | error e =>
      rw [hcols] at hc
      cases hc
    | ok c' =>
      rw [hcols] at hc
      obtain rfl := Option.some.inj hc
      exact ⟨rfl, columnsOf_ipAddr hcols, rfl⟩

/-- A pass of the loop is the write of its record, if there is one. -/
theorem receiveRecord_eq (rec : Record) :
    receiveRecord decode hostname t rec =
      upserts Write.mac Write.row (writes decode hostname [rec]) t := by
  unfold receiveRecord writes decoded
  cases hdecode : decode rec.data with
  | none => simp [hdecode, upserts]
  | some node =>
    by_cases hown : node.hostname = hostname
    · simp [hdecode, writeOf, hown, upserts]
    · cases hcols : columnsOf node with
      | error e => simp [hdecode, writeOf, hown, recordNodeData, hcols, upserts, Except.toOption]
      | ok c =>
        simp [hdecode, writeOf, hown, recordNodeData, hcols, upserts, Except.toOption,
          deleteDuplicateMeshNodes_eq, createMeshNode, Write.row]

theorem writes_append (a b : List Record) :
    writes decode hostname (a ++ b) = writes decode hostname a ++ writes decode hostname b := by
  rw [writes, decoded, List.filterMap_append, List.filterMap_append]
  rfl

/-- The loop of a receive is the loop of its writes. -/
theorem foldl_receiveRecord :
    records.foldl (receiveRecord decode hostname) t =
      upserts Write.mac Write.row (writes decode hostname records) t := by
  induction records generalizing t with
  | nil => rfl
  | cons rec records ih =>
    have hsplit : writes decode hostname (rec :: records) =
        writes decode hostname [rec] ++ writes decode hostname records :=
      writes_append [rec] records
    rw [List.foldl_cons, ih, receiveRecord_eq, hsplit]
    simp only [upserts, List.foldl_append]

/-! ## What a receive leaves -/

/-- The table after a receive that expires nothing. -/
def received (decode : List UInt8 → Option Node) (hostname : String) (records : List Record)
    (t : MeshNodes) : MeshNodes :=
  (receiveNodeData decode hostname none (.ok records) t).2

theorem received_eq :
    received decode hostname records t =
      upserts Write.mac Write.row (writes decode hostname records) t :=
  foldl_receiveRecord

/-- The address the taken records leave under a MAC: that of the last of them,
else that of the row from before. -/
def held (decode : List UInt8 → Option Node) (hostname : String) (records : List Record)
    (t : MeshNodes) (mac : String) : Option String :=
  ((lastFor Write.mac mac (writes decode hostname records)).map (·.columns.ipAddr)).or
    ((t.lookup mac).map (·.ipAddr))

theorem ipAddr_received :
    ((received decode hostname records t).lookup mac).map (·.ipAddr) =
      held decode hostname records t mac := by
  have hrow : ∀ (w : Write) (e : Option MeshRow), (w.row e).ipAddr = w.columns.ipAddr :=
    fun _ _ => rfl
  rw [received_eq, map_lookup_upserts hrow]
  rfl

/-- A record has no bearing on the rows of other MACs, whatever is in it. -/
theorem received_frame {rec : Record} (a b : List Record)
    (hrec : ∀ node, decode rec.data = some node → node.mac ≠ mac) :
    (received decode hostname (a ++ rec :: b) t).lookup mac =
      (received decode hostname (a ++ b) t).lookup mac := by
  have hnone : (writes decode hostname [rec]).filter (fun w => w.mac = mac) = [] := by
    refine List.filter_eq_nil_iff.2 fun w hw => ?_
    obtain ⟨⟨node, now⟩, hmem, hwrite⟩ := List.mem_filterMap.1 hw
    obtain ⟨rec', hrec', htimed⟩ := List.mem_filterMap.1 hmem
    obtain rfl := List.mem_singleton.1 hrec'
    obtain ⟨node', hdecode, heq⟩ := Option.map_eq_some_iff.1 htimed
    obtain ⟨rfl, rfl⟩ := Prod.mk.inj heq
    rw [(writeOf_eq hwrite).1, decide_eq_true_eq]
    exact hrec node' hdecode
  rw [received_eq, received_eq]
  refine lookup_upserts_congr ?_
  rw [← List.singleton_append, writes_append, writes_append, writes_append, List.filter_append,
    List.filter_append, List.filter_append, hnone, List.nil_append]

/-! ## Every other node is recorded -/

/-- The address of a row is among those the reservation stays clear of. -/
theorem row_reserved {row : MeshRow} {nodes : List MeshNode} (hrow : t.lookup mac = some row)
    (hne : row.ipAddr ≠ "") (hlist : ListMeshNodes t nodes) : row.ipAddr ∈ reservedIPs nodes := by
  have hentry : row.node mac ∈ t.entries.map fun e => e.2.node e.1 :=
    List.mem_map.2 ⟨⟨mac, row⟩, AList.mem_lookup_iff.1 hrow, rfl⟩
  exact (mem_reservedIPs hne).2 ⟨row.node mac, hlist.mem_iff.2 hentry, rfl⟩

/-- What a receive is to do with the gossip. -/
structure Recorded (decode : List UInt8 → Option Node) (ownMac hostname : String)
    (records : List Record) (t : MeshNodes) : Prop where
  /-- Each node but this one has a row, with the address it told last. -/
  others : ∀ e ∈ decoded decode records, e.1.mac ≠ ownMac →
    ∃ row last, (received decode hostname records t).lookup e.1.mac = some row ∧
      lastFor (·.1.mac) e.1.mac (decoded decode records) = some last ∧
      row.ipAddr = last.1.ipaddr
  /-- This node has none. -/
  own : (received decode hostname records t).lookup ownMac = none
  /-- A record has no bearing on the other nodes. -/
  apart : ∀ a rec b, records = a ++ rec :: b → ∀ mac,
    (∀ node, decode rec.data = some node → node.mac ≠ mac) →
    (received decode hostname records t).lookup mac =
      (received decode hostname (a ++ b) t).lookup mac
  /-- The address a node told last is not free for others. -/
  reserved : ∀ e, lastFor (·.1.mac) e.1.mac (decoded decode records) = some e →
    e.1.mac ≠ ownMac → e.1.ipaddr ≠ "" → ∀ nodes,
    ListMeshNodes (received decode hostname records t) nodes → e.1.ipaddr ∈ reservedIPs nodes

/-- When it does. -/
structure Heard (decode : List UInt8 → Option Node) (ownMac hostname : String)
    (records : List Record) (t : MeshNodes) : Prop where
  /-- Of each other node the last record is taken, or tells nothing new. -/
  taken : ∀ mac ≠ ownMac, ∀ e, lastFor (·.1.mac) mac (decoded decode records) = some e →
    (e.1.hostname ≠ hostname ∧ WellFormed e.1) ∨
      held decode hostname records t mac = some e.1.ipaddr
  /-- This node has no row, and none of its own records is taken. -/
  own : t.lookup ownMac = none ∧ ∀ e ∈ decoded decode records, e.1.mac = ownMac →
    e.1.hostname = hostname ∨ ¬WellFormed e.1

/-- A last record that is taken is the address held. -/
theorem held_of_taken {e : Node × String}
    (hlast : lastFor (·.1.mac) mac (decoded decode records) = some e)
    (htaken : e.1.hostname ≠ hostname ∧ WellFormed e.1) :
    held decode hostname records t mac = some e.1.ipaddr := by
  obtain ⟨w, hw⟩ : ∃ w, writeOf hostname e = some w := writeOf_isSome.2 htaken
  have hkey : ∀ (b : Node × String) (c : Write), writeOf hostname b = some c → c.mac = b.1.mac :=
    fun _ _ hc => (writeOf_eq hc).1
  have hwrite : lastFor Write.mac mac (writes decode hostname records) = some w :=
    lastFor_filterMap hkey hlast hw
  rw [held, hwrite, Option.map_some, Option.some_or, (writeOf_eq hw).2.1]

/-- A MAC has no address exactly where it had no row and none of its records
is taken. -/
theorem held_eq_none :
    held decode hostname records t mac = none ↔
      t.lookup mac = none ∧ ∀ e ∈ decoded decode records, e.1.mac = mac →
        e.1.hostname = hostname ∨ ¬WellFormed e.1 := by
  have huntaken : ∀ e : Node × String,
      writeOf hostname e = none ↔ e.1.hostname = hostname ∨ ¬WellFormed e.1 := by
    intro e
    rw [← not_iff_not, ← ne_eq, Option.ne_none_iff_exists', writeOf_isSome, not_or, not_not]
  rw [held, Option.or_eq_none_iff, Option.map_eq_none_iff, Option.map_eq_none_iff, and_comm,
    lastFor_eq_none]
  refine and_congr_right fun _ => ⟨fun h e he hmac => ?_, fun h w hw hmac => ?_⟩
  · rw [← huntaken, Option.eq_none_iff_forall_ne_some]
    intro w hw
    exact h w (List.mem_filterMap.2 ⟨e, he, hw⟩) ((writeOf_eq hw).1.trans hmac)
  · obtain ⟨e, he, hwrite⟩ := List.mem_filterMap.1 hw
    have hnone := (huntaken e).2 (h e he ((writeOf_eq hwrite).1.symm.trans hmac))
    rw [hnone] at hwrite
    cases hwrite

/-- **Who is recorded.** A receive records every other node, and this one not,
exactly where the last record of each other node is taken, or tells the
address that is held under its MAC anyhow, and this node has no row and all
its records are turned away. A record is turned away for this node's own
hostname or for a DHCP field that is no number; so a node of the same hostname,
or with such a field, may have no row, and its address is free to be given out
again. -/
theorem recorded_iff {ownMac : String} :
    Recorded decode ownMac hostname records t ↔ Heard decode ownMac hostname records t := by
  constructor
  · intro h
    refine ⟨fun mac hmac e hlast => .inr ?_, held_eq_none.1 ?_⟩
    · obtain ⟨he, rfl⟩ := mem_of_lastFor hlast
      obtain ⟨row, last, hrow, hlast', hip⟩ := h.others e he hmac
      obtain rfl := Option.some.inj (hlast.symm.trans hlast')
      rw [← ipAddr_received, hrow, Option.map_some, hip]
    · rw [← ipAddr_received, h.own, Option.map_none]
  · intro h
    have hrow : ∀ e, lastFor (·.1.mac) e.1.mac (decoded decode records) = some e →
        e.1.mac ≠ ownMac → ∃ row, (received decode hostname records t).lookup e.1.mac = some row ∧
          row.ipAddr = e.1.ipaddr := by
      intro e hlast hmac
      refine Option.map_eq_some_iff.1 (ipAddr_received.trans ?_)
      rcases h.taken _ hmac e hlast with htaken | hheld
      · exact held_of_taken hlast htaken
      · exact hheld
    refine ⟨fun e he hmac => ?_, ?_, fun a rec b hsplit mac hrec => ?_,
      fun e hlast hmac hne nodes hlist => ?_⟩
    · obtain ⟨last, hlast⟩ : ∃ last, lastFor (·.1.mac) e.1.mac (decoded decode records) =
          some last := lastFor_of_mem he
      have hsame : last.1.mac = e.1.mac := (mem_of_lastFor hlast).2
      obtain ⟨row, hlookup, hip⟩ := hrow last (hsame ▸ hlast) (hsame ▸ hmac)
      exact ⟨row, last, hsame ▸ hlookup, hlast, hip⟩
    · exact Option.map_eq_none_iff.1 (ipAddr_received.trans (held_eq_none.2 h.own))
    · rw [hsplit]
      exact received_frame a b hrec
    · obtain ⟨row, hlookup, hip⟩ := hrow e hlast hmac
      rw [← hip]
      exact row_reserved hlookup (hip ▸ hne) hlist

/-- A node alone in the gossip that is turned away is not recorded. -/
theorem not_recorded {ownMac : String} {rec : Record} (hdecode : decode rec.data = some node)
    (hmac : node.mac ≠ ownMac) (huntaken : writeOf hostname (node, rec.now) = none) :
    ¬Recorded decode ownMac hostname [rec] ∅ := by
  intro h
  have hdecoded : decoded decode [rec] = [(node, rec.now)] := by simp [decoded, hdecode]
  have hwrites : writes decode hostname [rec] = [] := by simp [writes, hdecoded, huntaken]
  obtain ⟨row, last, hrow, -⟩ := h.others (node, rec.now) (hdecoded ▸ List.mem_cons_self) hmac
  rw [received_eq, hwrites] at hrow
  cases hrow

end Receive

/-! ## Two nodes that are not heard -/

/-- A string field of a message, left out where it is empty. -/
def stringField (tag : UInt8) (s : String) : List UInt8 :=
  if s = "" then [] else tag :: .ofNat s.length :: s.toList.map fun c => .ofNat c.toNat

/-- The message of a node without a position, its fields short ASCII strings. -/
def message (node : Node) : List UInt8 :=
  stringField 0x0a node.mac ++ stringField 0x12 node.hostname ++ stringField 0x1a node.ipaddr ++
    stringField 0x2a node.uciDhcpStart ++ stringField 0x32 node.uciDhcpLimit

/-- The decoder, on the message of one node. -/
def decodes (node : Node) (data : List UInt8) : Option Node :=
  if data = message node then some node else none

/-- A gate under this node's hostname. -/
def namesake : Node := ⟨"02:00:00:00:00:02", "openmanet", "10.41.0.2", none, "512", "256"⟩

/-- A gate whose window does not start at a number. -/
def misspelt : Node := ⟨"02:00:00:00:00:03", "gate-3", "10.41.0.3", none, "abc", "256"⟩

/-- Neither of two gates is recorded: the one has this node's hostname, the
other a field that is no number. -/
theorem gates_unheard :
    ¬Recorded (decodes namesake) "02:00:00:00:00:01" "openmanet"
      [⟨message namesake, "2026-01-01 00:00:00"⟩] ∅ ∧
    ¬Recorded (decodes misspelt) "02:00:00:00:00:01" "openmanet"
      [⟨message misspelt, "2026-01-01 00:00:00"⟩] ∅ :=
  ⟨not_recorded (if_pos rfl) (by decide) rfl, not_recorded (if_pos rfl) (by decide) rfl⟩

end NodeData

end OpenManet
