import OpenManet.Lib.Loop
import OpenManet.Lib.Machine
/-!
# What the status worker tells

`internal/blos/status_worker.go`: a status that comes in is compared with the
one before, and what they differ by goes to the listeners as events. A
listener sees no status; `Told` is what it can know all the same.

What lies outside: the statuses, the clock, the order in which a map is
visited and `%q` of a string. A node key is its text.
-/

namespace OpenManet

namespace BlosStatus

/-- Of an `ipnstate.PeerStatus`, what is compared. -/
structure PeerStatus where
  hostName : String
  relay : String
  online : Bool
deriving DecidableEq

/-- Of an `ipnstate.Status`. A peer may be nil. -/
structure Status where
  backendState : String
  self : Option PeerStatus
  peer : Table (Option PeerStatus)

inductive EventKind where
  | backendState | peerAdded | peerLost | peerOnline | peerOffline | derpChanged
deriving DecidableEq

structure Event where
  stamp : ℤ
  kind : EventKind
  subject : String
  message : String
deriving DecidableEq

/-- An order in which a map is visited. -/
abbrev Visit := { order : List String → List String // ∀ keys, (order keys).Perm keys }

/-- The peers of the status before, of which there are none at the first. -/
def peersOf (prev : Option Status) : Table (Option PeerStatus) := (prev.map (·.peer)).getD ∅

/-- `diffStatus` at one peer of the current status. None where it reads
through the nil pointer of the peer before. -/
def diffPeer (now : ℤ) (prevPeers : Table (Option PeerStatus)) (e : String × Option PeerStatus) :
    Option (List Event) :=
  match e.2, prevPeers.lookup e.1 with
  | none, _ => some []
  | some p, none => some [⟨now, .peerAdded, p.hostName, "peer " ++ p.hostName ++ " added"⟩]
  | some _, some none => none
  | some p, some (some old) => some <|
      (if old.online = p.online then []
        else if p.online then [⟨now, .peerOnline, p.hostName, "peer " ++ p.hostName ++ " online"⟩]
        else [⟨now, .peerOffline, p.hostName, "peer " ++ p.hostName ++ " offline"⟩]) ++
      if old.relay = p.relay then []
        else [⟨now, .derpChanged, p.hostName,
          "peer " ++ p.hostName ++ " DERP " ++ old.relay ++ " -> " ++ p.relay⟩]

/-- `diffStatus` at one peer of the status before. -/
def lostPeer (now : ℤ) (peers : Table (Option PeerStatus)) (e : String × Option PeerStatus) :
    List Event :=
  match e.2 with
  | some p => if (peers.lookup e.1).isSome then []
      else [⟨now, .peerLost, p.hostName, "peer " ++ p.hostName ++ " lost"⟩]
  | none => []

/-- `diffStatus` at the node itself. -/
def diffSelf (now : ℤ) (prev : Option Status) (current : Status) : List Event :=
  match prev.bind (·.self), current.self with
  | some old, some p => if old.relay = p.relay then []
      else [⟨now, .derpChanged, "self", "DERP region " ++ old.relay ++ " -> " ++ p.relay⟩]
  | _, _ => []

/-- `diffStatus`, which walks two maps. -/
def diffStatus (quote : String → String) (prev : Option Status) (current : Status) (now : ℤ)
    (visit visit' : Visit) : Option (List Event) :=
  let backend : List Event := if prev.map (·.backendState) = some current.backendState then []
    else [⟨now, .backendState, "backend", "backend state " ++ quote current.backendState⟩]
  let walk := (current.peer.range visit.1).map (diffPeer now (peersOf prev))
  if none ∈ walk then none
  else some (backend ++ diffSelf now prev current ++ walk.flatMap (·.getD []) ++
    ((peersOf prev).range visit'.1).flatMap (lostPeer now current.peer))

/-- Of the `StatusWorker`: the last status, and what the listeners have been
called with, keepalives apart. -/
structure StatusWorker where
  status : Option Status
  fired : List Event

/-- A status that `client.Status` returns, and when and how it is walked. -/
structure Fetch where
  status : Status
  now : ℤ
  visit : Visit
  visit' : Visit

/-- `fetchAndStoreStatus` of a status; a failed one is no step. None where it
panics. -/
def fetchAndStoreStatus (quote : String → String) (w : StatusWorker) (f : Fetch) :
    Option StatusWorker :=
  (diffStatus quote w.status f.status f.now f.visit f.visit').map fun events =>
    ⟨some f.status, w.fired ++ events⟩

/-! ## What a comparison tells -/

variable {quote : String → String} {now : ℤ} {prev : Option Status} {current : Status}
  {visit visit' : Visit} {m m' : Table (Option PeerStatus)} {events l l' : List Event}
  {kind : EventKind} {e : String × Option PeerStatus}

/-- Those of the events that are of a kind. -/
def ofKind (kind : EventKind) (events : List Event) : List Event := events.filter (·.kind = kind)

/-- The peers that the events of a kind are about. -/
def named (kind : EventKind) (events : List Event) : List String :=
  (ofKind kind events).map (·.subject)

/-- The names of the peers of a walk. -/
def hostNames (es : List (String × Option PeerStatus)) : List String :=
  es.flatMap fun e => (e.2.map (·.hostName)).toList

/-- The names of the peers of a walk that another table does not have. -/
def missing (es : List (String × Option PeerStatus)) (m : Table (Option PeerStatus)) :
    List String := hostNames (es.filter fun e => !(m.lookup e.1).isSome)

@[simp] theorem ofKind_append : ofKind kind (l ++ l') = ofKind kind l ++ ofKind kind l' :=
  List.filter_append ..

/-- At a peer of the current status no event is about the backend or a loss,
and there is one of a new peer if its key is new. -/
theorem ofKind_diffPeer : ofKind .backendState ((diffPeer now m e).getD []) = [] ∧
    ofKind .peerLost ((diffPeer now m e).getD []) = [] ∧
    named .peerAdded ((diffPeer now m e).getD []) = missing [e] m := by
  obtain ⟨k, p⟩ := e
  unfold diffPeer
  cases p with
  | none => simp [named, ofKind, missing, hostNames, List.filter_cons]
  | some p =>
      cases hold : m.lookup k with
      | none => simp [named, ofKind, missing, hostNames, hold]
      | some old =>
          cases old with
          | none => simp [named, ofKind, missing, hostNames, hold]
          | some old =>
              simp only [named, missing, Option.getD_some, ofKind_append]
              split_ifs <;> simp [ofKind, hostNames, hold]

theorem named_lostPeer : ofKind .backendState (lostPeer now m e) = [] ∧
    named .peerAdded (lostPeer now m e) = [] ∧
    named .peerLost (lostPeer now m e) = missing [e] m := by
  obtain ⟨k, p⟩ := e
  unfold lostPeer
  cases p with
  | none => simp [named, ofKind, missing, hostNames, List.filter_cons]
  | some p => cases hold : m.lookup k <;> simp [named, ofKind, missing, hostNames, hold]

/-- What holds at each peer of a walk holds of the walk. -/
theorem named_walk {es : List (String × Option PeerStatus)}
    {f : String × Option PeerStatus → List Event} (h : ∀ e, named kind (f e) = missing [e] m) :
    named kind (es.flatMap f) = missing es m := by
  induction es with
  | nil => rfl
  | cons e es ih =>
      have hsplit : missing (e :: es) m = missing [e] m ++ missing es m := by
        rw [missing, ← List.singleton_append, List.filter_append, hostNames, List.flatMap_append]
        rfl
      rw [List.flatMap_cons, named, ofKind_append, List.map_append, hsplit, ← ih, ← h e]
      rfl

/-- **One comparison**: whether there is an event about the backend, and whom
those about peers name. -/
theorem diffStatus_spec (h : diffStatus quote prev current now visit visit' = some events) :
    (ofKind .backendState events).map (·.message) =
      (if prev.map (·.backendState) = some current.backendState then []
        else ["backend state " ++ quote current.backendState]) ∧
    named .peerAdded events = missing (current.peer.range visit.1) (peersOf prev) ∧
    named .peerLost events = missing ((peersOf prev).range visit'.1) current.peer := by
  have hwalk : ∀ {f : String × Option PeerStatus → List Event} {kind : EventKind} es,
      (∀ e, ofKind kind (f e) = []) → ofKind kind (List.flatMap f es) = [] := by
    intro f kind es hf
    rw [ofKind, List.filter_flatMap]
    exact List.flatMap_eq_nil_iff.2 fun e _ => hf e
  have hself : ∀ kind, kind ≠ .derpChanged → ofKind kind (diffSelf now prev current) = [] := by
    intro kind hkind
    unfold diffSelf
    split
    · split_ifs
      · rfl
      · simp [ofKind, hkind.symm]
    · rfl
  have hcurrent := fun e => @ofKind_diffPeer now (peersOf prev) e
  have hprev := fun e => @named_lostPeer now current.peer e
  unfold diffStatus at h
  dsimp only at h
  split at h
  · cases h
  · obtain rfl := Option.some.inj h
    rw [List.flatMap_map, ← named_walk fun e => (hcurrent e).2.2,
      ← named_walk fun e => (hprev e).2.2]
    simp (disch := decide) only [named, ofKind_append, hself,
      hwalk _ fun e => (hcurrent e).1, hwalk _ fun e => (hcurrent e).2.1,
      hwalk _ fun e => (hprev e).1, hwalk _ fun e => List.map_eq_nil_iff.1 (hprev e).2.1]
    split_ifs <;> simp [ofKind]

/-- **Who stays**: with the peers that come, the names of the one table are
those of the other, with the peers that go. -/
theorem hostNames_perm (h : ∀ k old p, m.lookup k = some old → m'.lookup k = some p →
      old.map (·.hostName) = p.map (·.hostName)) (visit visit' : Visit) :
    (missing (m'.range visit'.1) m ++ hostNames (m.range visit.1)).Perm
      (missing (m.range visit.1) m' ++ hostNames (m'.range visit'.1)) := by
  -- a walk is what the other table does not have, and what it has
  have hsplit : ∀ (m : Table (Option PeerStatus)) es, (hostNames es).Perm
      (missing es m ++ hostNames (es.filter fun e => (m.lookup e.1).isSome)) := by
    intro m es
    rw [missing, hostNames, hostNames, hostNames, ← List.flatMap_append]
    refine List.Perm.flatMap_right _ (List.perm_append_comm.trans ?_).symm
    exact List.filter_append_perm (fun e => (m.lookup e.1).isSome) es
  let shared := fun (m m' : Table (Option PeerStatus)) (visit : Visit) =>
    ((m.range visit.1).filter fun e => (m'.lookup e.1).isSome).map
      fun e => (e.1, e.2.map (·.hostName))
  have hnodup : ∀ m m' visit, (shared m m' visit).Nodup := fun m m' visit =>
    List.pairwise_map.2 (((Table.range_pairwise visit.2).filter _).imp fun hne heq =>
      hne (Prod.mk.inj heq).1)
  have hmem : ∀ m m' visit k o, (k, o) ∈ shared m m' visit ↔
      ∃ p, m.lookup k = some p ∧ p.map (·.hostName) = o ∧ ∃ p', m'.lookup k = some p' := by
    intro m m' visit k o
    simp only [shared, List.mem_map, List.mem_filter, Prod.exists, Table.mem_range visit.2,
      Prod.mk.injEq, Option.isSome_iff_exists]
    constructor
    · rintro ⟨k, p, ⟨hp, hk⟩, rfl, rfl⟩
      exact ⟨p, hp, rfl, hk⟩
    · rintro ⟨p, hp, rfl, hk⟩
      exact ⟨k, p, ⟨hp, hk⟩, rfl, rfl⟩
  have hshared : (shared m m' visit).Perm (shared m' m visit') := by
    refine (List.perm_ext_iff_of_nodup (hnodup ..) (hnodup ..)).2 fun ⟨k, o⟩ => ?_
    rw [hmem, hmem]
    constructor
    · rintro ⟨p, hp, rfl, p', hp'⟩
      exact ⟨p', hp', (h k p p' hp hp').symm, p, hp⟩
    · rintro ⟨p', hp', rfl, p, hp⟩
      exact ⟨p, hp, h k p p' hp hp', p', hp'⟩
  have hnames := hshared.flatMap_right fun e => e.2.toList
  simp only [shared, List.flatMap_map] at hnames
  refine ((hsplit m' _).append_left _).trans (.trans ?_ ((hsplit m _).append_left _).symm)
  rw [← List.append_assoc, ← List.append_assoc]
  exact List.perm_append_comm.append hnames

/-! ## What a run tells -/

/-- The keys that two statuses both have stand for peers of the same name. -/
def Steady (w : StatusWorker) (f : Fetch) : Prop :=
  ∀ k old p, (peersOf w.status).lookup k = some old → f.status.peer.lookup k = some p →
    old.map (·.hostName) = p.map (·.hostName)

/-- **What a listener knows.** The last event about the backend has its state,
and the peers that came are those that went and those that are there. -/
structure Told (quote : String → String) (w : StatusWorker) : Prop where
  backend : ((ofKind .backendState w.fired).map (·.message)).getLast? =
    w.status.map fun status => "backend state " ++ quote status.backendState
  peers : ∀ visit : Visit, (named .peerAdded w.fired).Perm
    (named .peerLost w.fired ++ hostNames ((peersOf w.status).range visit.1))

theorem told_step {w w' : StatusWorker} {f : Fetch} (htold : Told quote w) (hsteady : Steady w f)
    (hstep : fetchAndStoreStatus quote w f = some w') : Told quote w' := by
  obtain ⟨events, hevents, rfl⟩ := Option.map_eq_some_iff.1 hstep
  obtain ⟨hbackend, hadded, hlost⟩ := diffStatus_spec hevents
  refine ⟨?_, fun visit => ?_⟩
  · rw [ofKind_append, List.map_append, hbackend]
    split_ifs with hsame
    · rw [List.append_nil, htold.backend]
      cases hstatus : w.status with
      | none => simp [hstatus] at hsame
      | some prev =>
          rw [hstatus] at hsame
          have hstate : prev.backendState = f.status.backendState := Option.some.inj hsame
          rw [Option.map_some, hstate]
          rfl
    · simp
  · have hnames : ∀ kind, named kind (w.fired ++ events) = named kind w.fired ++ named kind events :=
      fun kind => by rw [named, ofKind_append, List.map_append, named, named]
    rw [hnames, hnames, hadded, hlost, List.append_assoc]
    refine ((htold.peers f.visit').append_right _).trans ?_
    rw [List.append_assoc]
    refine List.Perm.append_left _ (List.perm_append_comm.trans ?_)
    refine (hostNames_perm hsteady f.visit' f.visit).trans (List.Perm.append_left _ ?_)
    exact ((Table.Same.refl f.status.peer).range_perm f.visit.2 visit.2).flatMap_right _

/-- **In every run** that has no key pass to a peer of another name, a listener
knows the backend's state and the names of the peers. -/
theorem told_run {fs : List Fetch} {w : StatusWorker}
    (hrun : Run (fetchAndStoreStatus quote) ⟨none, []⟩ fs w)
    (hsteady : Always (fetchAndStoreStatus quote) Steady ⟨none, []⟩ fs) : Told quote w :=
  hrun.invariant hsteady
    ⟨rfl, fun visit => by simp [peersOf, Table.range, hostNames, named, ofKind]⟩
    fun _ _ _ => told_step

/-- A peer that comes and goes. -/
theorem told_run_visited : ∃ w, w.fired.length = 4 ∧ Told id w := by
  let visit : Visit := ⟨id, fun _ => .refl _⟩
  let fs : List Fetch := [⟨⟨"Running", none, AList.singleton "k" (some ⟨"a", "fra", true⟩)⟩, 1, visit,
    visit⟩, ⟨⟨"Stopped", none, ∅⟩, 2, visit, visit⟩]
  have hrun : Run (fetchAndStoreStatus id) ⟨none, []⟩ fs _ := Run.of_foldlM rfl
  exact ⟨_, rfl, told_run hrun ⟨nofun, fun _ ht => by
    obtain rfl := Option.some.inj ht
    exact ⟨nofun, fun _ _ => trivial⟩⟩⟩

end BlosStatus

end OpenManet
