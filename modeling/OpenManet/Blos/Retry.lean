import OpenManet.Blos.Peers
import OpenManet.Lib.Script
/-!
# A sync that fails

The sync again, now over a tree whose calls may be refused and an interface
that may not come up. A call that fails is to be made good by the next one
that has peers. What the daemon goes by is the set it remembers, and two
things are not seen in it. The set is remembered before the interface is
brought up, so that a call that fails there is remembered as done. And where
a call fails earlier, the set of before is kept: if the peers come back to
it, what the failed call has left behind stays.
-/

namespace OpenManet

namespace Vxlan

open Uci Network Fallible

namespace Sync

/-! ## The operations on the tree -/

/-- The network config as the daemon reads it. -/
def network (t : Tree) : Uci.Config := (t.mem "network").getD Uci.Config.empty

/-- `DelSection`, at a name or at a place. -/
def delSectionAt (ref : String) : Prog Unit :=
  call fun t =>
    match t.mem "network" with
    | some c => .ok ((), t.stage "network" (c.remove ref))
    | none => .error (missingConfig "network")

def failedToSetPeer (option : String) : String := "failed to set VXLAN peer " ++ option

/-- `AddVXLANPeerWithReader`: where the sections cannot be listed there are
none. -/
def addVXLANPeer (peer : UCIVXLANPeer) : Prog Unit := do
  let existingSections ← attempt (getSections "network" "vxlan_peer")
  let sectionName := peerName (existingSections.toOption.getD []).length
  saying "failed to add VXLAN peer section" (addSection "network" sectionName "vxlan_peer")
  setOptions "network" sectionName failedToSetPeer (written (peerOptionFields peer))
  saying "failed to commit VXLAN peer config" commit

/-- `UpdateVXLANPeerWithReader`. -/
def updateVXLANPeer (name : String) (peer : UCIVXLANPeer) : Prog Unit := do
  setOptions "network" name failedToSetPeer (written (peerOptionFields peer))
  saying "failed to commit VXLAN peer config" commit

/-- `DeleteVXLANPeerByDstWithReader`. -/
def deleteVXLANPeerByDst (dst : String) : Prog Unit := do
  match getVXLANPeerByDst (network (← tree)) dst with
  | none => fail ("failed to find VXLAN peer with dst " ++ dst ++
      ": VXLAN peer with dst " ++ dst ++ " not found")
  | some (_, name) => do
      saying ("failed to delete VXLAN peer section " ++ name) (delSectionAt name)
      saying "failed to commit VXLAN peer deletion" commit

/-- `GetAllVXLANPeersWithReader`, in the order the map is walked in. -/
def getAllVXLANPeers (walk : Walk) : Prog (List UCIVXLANPeer) := do
  let sections ← saying "failed to get vxlan_peer sections" (getSections "network" "vxlan_peer")
  let c := network (← tree)
  pure ((walk.order sections).map (getVXLANPeerByName c))

/-- `createVxlanPeer`. What the reload of the running config answers is
only logged. -/
def createVxlanPeer (ip : String) : Prog Unit := do
  Fallible.ignored (loadConfig "network")
  match getVXLANPeerByDst (network (← tree)) ip with
  | none => addVXLANPeer (tailscalePeer ip)
  | some (_, name) => updateVXLANPeer name (tailscalePeer ip)

def removeTurn (active : List String) (peer : UCIVXLANPeer) : Prog Unit :=
  if peer.dst ∈ multicastGroupSet then pure ()
  else if peer.dst ∈ active then pure ()
  else deleteVXLANPeerByDst peer.dst

def removeInactiveVXLANPeers (walk : Walk) (active : List String) : Prog Unit := do
  Fallible.ignored (loadConfig "network")
  let allPeers ← getAllVXLANPeers walk
  allPeers.forM (removeTurn active)

/-! ## One call -/

/-- What a call undertakes, in its order. -/
inductive Task where
  /-- A peer is created or updated. -/
  | peer (ip : String)
  /-- The peers that are not active are removed. -/
  | removal
  /-- The interface is brought up. -/
  | bringUp
deriving DecidableEq

/-- The daemon's side. -/
structure BLOS where
  host : Host
  /-- None before the first sync. -/
  lastSyncedPeerIPs : Option (List String)

/-- A call, and how its bring-up would end: none where the interface comes
up. -/
structure Poll extends Call where
  bringUp : Option Err

/-- What is seen of a call. -/
structure Answer where
  /-- What it has tried. -/
  tasks : List Task
  error : Option Err

/-- The part of a sync that edits the config. -/
def edits (k : Poll) (active : List String) : EStateM Err (Host × List Task) Unit := do
  (k.creates.order active).forM fun ip => tried (.peer ip) (createVxlanPeer ip)
  tried .removal (removeInactiveVXLANPeers k.removes active)

/-- `syncVXLANPeersWithTailscale`. -/
def syncVXLANPeers (r : BLOS) (k : Poll) : BLOS × Answer :=
  match k.peers with
  | none => (r, ⟨[], none⟩)
  | some peers =>
      let active := activePeerIPs peers
      if hasPeerChanges r.lastSyncedPeerIPs active then
        match edits k active (r.host, []) with
        | .error e (h, tasks) => ({ r with host := h }, ⟨tasks, some e⟩)
        -- the set is remembered whether or not the interface then comes up
        | .ok _ (h, tasks) => (⟨h, some active⟩, ⟨tasks ++ [.bringUp], k.bringUp⟩)
      else (r, ⟨[], none⟩)

/-- A daemon before its first sync. -/
def start (h : Host) : BLOS := ⟨h, none⟩

/-! ## What is asked of it -/

/-- All that a sync undertakes. -/
def wholeSync (k : Poll) (active : List String) : List Task :=
  (k.creates.order active).map Task.peer ++ [Task.removal, Task.bringUp]

/-- The call is a sync: it tries the tasks in their order, and ends well
only with all of them done. -/
def Syncs (k : Poll) (a : Answer) : Prop :=
  ∃ peers, k.peers = some peers ∧ a.tasks ≠ [] ∧ a.tasks <+: wholeSync k (activePeerIPs peers) ∧
    (a.error = none → a.tasks = wholeSync k (activePeerIPs peers))

/-- **A call that fails is retried**: the next call that has peers is a
sync. -/
def Retries (steps : List (BLOS × Poll × Answer)) : Prop :=
  ∀ before e between e' later, steps = before ++ e :: (between ++ e' :: later) →
    e.2.2.error ≠ none → (∀ i ∈ between, i.2.1.peers = none) → e'.2.1.peers ≠ none →
    Syncs e'.2.1 e'.2.2

/-! ## When it is so -/

/-- The same IPs. -/
def Same (ips last : List String) : Prop := ∀ ip, ip ∈ ips ↔ ip ∈ last

/-- **The failure is missed**: the call has something to do, and fails, and
the peers that come next are those it then remembers. -/
inductive Missed (r : BLOS) (k : Poll) (active next : List String) : Prop
  /-- The config is edited, the interface does not come up, and the peers
  stay the same. -/
  | bringUp (hnew : ∀ last, r.lastSyncedPeerIPs = some last → ¬ Same active last)
      (hedits : Fallible.succeeds (edits k active) (r.host, []) = true)
      (hdown : k.bringUp ≠ none) (hsame : Same next active)
  /-- An edit fails, and the peers come back to those of before. -/
  | edit {last : List String} (hlast : r.lastSyncedPeerIPs = some last) (hnew : ¬ Same active last)
      (hedits : Fallible.succeeds (edits k active) (r.host, []) = false) (hback : Same next last)

/-- No failure of the run is missed. -/
def Heeds (r : BLOS) (ks : List Poll) : Prop :=
  ∀ before k between k' later peers peers', ks = before ++ k :: (between ++ k' :: later) →
    k.peers = some peers → (∀ i ∈ between, i.peers = none) → k'.peers = some peers' →
    ¬ Missed (after syncVXLANPeers r before) k (activePeerIPs peers) (activePeerIPs peers')

/-! ## One call, by what it remembers -/

section OneCall

variable {r : BLOS} {k k' : Poll} {peers peers' : List (List String)} {last active : List String}

/-- What is remembered is a set. -/
def IsSet (r : BLOS) : Prop := ∀ last, r.lastSyncedPeerIPs = some last → last.Nodup

theorem changes_iff (hset : IsSet r) (hnodup : active.Nodup) :
    hasPeerChanges r.lastSyncedPeerIPs active = true ↔
      ∀ last, r.lastSyncedPeerIPs = some last → ¬ Same active last := by
  cases hlast : r.lastSyncedPeerIPs with
  | none => simp [hasPeerChanges]
  | some last =>
      rw [← Bool.not_eq_false, hasPeerChanges_eq_false hnodup (hset last hlast)]
      simp [Same]

theorem tasks_edits (k : Poll) (active : List String) :
    Tasks (edits k active) ((k.creates.order active).map Task.peer ++ [Task.removal]) :=
  (tasks_forM Task.peer createVxlanPeer _).bind fun _ => tasks_tried _ _

theorem syncVXLANPeers_of_none (hpeers : k.peers = none) :
    syncVXLANPeers r k = (r, ⟨[], none⟩) := by
  rw [syncVXLANPeers, hpeers]

theorem syncVXLANPeers_of_unchanged (hpeers : k.peers = some peers)
    (hsame : hasPeerChanges r.lastSyncedPeerIPs (activePeerIPs peers) = false) :
    syncVXLANPeers r k = (r, ⟨[], none⟩) := by
  rw [syncVXLANPeers, hpeers]
  simp [hsame]

theorem syncVXLANPeers_of_ok {u : Unit} {s : Host × List Task} (hpeers : k.peers = some peers)
    (hchanges : hasPeerChanges r.lastSyncedPeerIPs (activePeerIPs peers) = true)
    (hedits : edits k (activePeerIPs peers) (r.host, []) = .ok u s) :
    syncVXLANPeers r k =
      (⟨s.1, some (activePeerIPs peers)⟩, ⟨s.2 ++ [Task.bringUp], k.bringUp⟩) := by
  rw [syncVXLANPeers, hpeers]
  simp only [hchanges, if_true, hedits]

theorem syncVXLANPeers_of_error {e : Err} {s : Host × List Task} (hpeers : k.peers = some peers)
    (hchanges : hasPeerChanges r.lastSyncedPeerIPs (activePeerIPs peers) = true)
    (hedits : edits k (activePeerIPs peers) (r.host, []) = .error e s) :
    syncVXLANPeers r k = ({ r with host := s.1 }, ⟨s.2, some e⟩) := by
  rw [syncVXLANPeers, hpeers]
  simp only [hchanges, if_true, hedits]

/-- **A call is a sync where the set has changed.** -/
theorem syncs_iff (hpeers : k.peers = some peers) :
    Syncs k (syncVXLANPeers r k).2 ↔
      hasPeerChanges r.lastSyncedPeerIPs (activePeerIPs peers) = true := by
  cases hchanges : hasPeerChanges r.lastSyncedPeerIPs (activePeerIPs peers) with
  | false =>
      rw [syncVXLANPeers_of_unchanged hpeers hchanges]
      simp [Syncs]
  | true =>
      refine iff_of_true ⟨peers, hpeers, ?_⟩ rfl
      have htasks := tasks_edits k (activePeerIPs peers)
      have hwhole : wholeSync k (activePeerIPs peers) =
          ((k.creates.order (activePeerIPs peers)).map Task.peer ++ [Task.removal]) ++
            [Task.bringUp] := by
        simp [wholeSync]
      cases hedits : edits k (activePeerIPs peers) (r.host, []) with
      | ok u s =>
          have hlog := htasks.ok hedits
          rw [List.nil_append] at hlog
          rw [syncVXLANPeers_of_ok hpeers hchanges hedits, hwhole, hlog]
          exact ⟨by simp, List.prefix_refl _, fun _ => rfl⟩
      | error e s =>
          obtain ⟨first, hne, hprefix, hlog⟩ := htasks.error hedits
          rw [List.nil_append] at hlog
          rw [syncVXLANPeers_of_error hpeers hchanges hedits, hwhole, hlog]
          exact ⟨hne, hprefix.trans (List.prefix_append _ _), fun hnone => by cases hnone⟩

/-- **What is remembered after a call that fails**: its own set where only
the bring-up failed, and else that of before. -/
theorem remembers_of_error (hpeers : k.peers = some peers)
    (herror : (syncVXLANPeers r k).2.error ≠ none) :
    hasPeerChanges r.lastSyncedPeerIPs (activePeerIPs peers) = true ∧
      (Fallible.succeeds (edits k (activePeerIPs peers)) (r.host, []) = true ∧ k.bringUp ≠ none ∧
          (syncVXLANPeers r k).1.lastSyncedPeerIPs = some (activePeerIPs peers) ∨
        Fallible.succeeds (edits k (activePeerIPs peers)) (r.host, []) = false ∧
          (syncVXLANPeers r k).1.lastSyncedPeerIPs = r.lastSyncedPeerIPs) := by
  cases hchanges : hasPeerChanges r.lastSyncedPeerIPs (activePeerIPs peers) with
  | false =>
      rw [syncVXLANPeers_of_unchanged hpeers hchanges] at herror
      exact absurd rfl herror
  | true =>
      refine ⟨rfl, ?_⟩
      unfold Fallible.succeeds
      cases hedits : edits k (activePeerIPs peers) (r.host, []) with
      | ok u s =>
          rw [syncVXLANPeers_of_ok hpeers hchanges hedits] at herror ⊢
          exact .inl ⟨rfl, herror, rfl⟩
      | error e s =>
          rw [syncVXLANPeers_of_error hpeers hchanges hedits]
          exact .inr ⟨rfl, rfl⟩

/-- A call whose edits fail, or whose interface does not come up, fails. -/
theorem error_of_changes (hpeers : k.peers = some peers)
    (hchanges : hasPeerChanges r.lastSyncedPeerIPs (activePeerIPs peers) = true)
    (hfails : Fallible.succeeds (edits k (activePeerIPs peers)) (r.host, []) = false ∨
      k.bringUp ≠ none) :
    (syncVXLANPeers r k).2.error ≠ none := by
  unfold Fallible.succeeds at hfails
  cases hedits : edits k (activePeerIPs peers) (r.host, []) with
  | ok u s =>
      rw [hedits] at hfails
      rw [syncVXLANPeers_of_ok hpeers hchanges hedits]
      exact hfails.resolve_left (by simp)
  | error e s =>
      rw [syncVXLANPeers_of_error hpeers hchanges hedits]
      exact Option.some_ne_none e

/-- What is remembered stays a set. -/
theorem IsSet.step (hset : IsSet r) (k : Poll) : IsSet (syncVXLANPeers r k).1 := by
  unfold syncVXLANPeers
  cases k.peers with
  | none => exact hset
  | some peers =>
      dsimp only
      split
      · split
        · exact hset
        · rintro last ⟨⟩
          exact nodup_activePeerIPs peers
      · exact hset

/-- **A failure is missed where the next call is no sync.** -/
theorem missed_iff (hset : IsSet r) (hpeers : k.peers = some peers)
    (hpeers' : k'.peers = some peers') :
    Missed r k (activePeerIPs peers) (activePeerIPs peers') ↔
      (syncVXLANPeers r k).2.error ≠ none ∧
        ¬ Syncs k' (syncVXLANPeers (syncVXLANPeers r k).1 k').2 := by
  have hnodup := nodup_activePeerIPs peers
  rw [syncs_iff hpeers', changes_iff (hset.step k) (nodup_activePeerIPs peers')]
  constructor
  · intro hmissed
    have hchanges : hasPeerChanges r.lastSyncedPeerIPs (activePeerIPs peers) = true := by
      rw [changes_iff hset hnodup]
      cases hmissed with
      | bringUp hnew => exact hnew
      | edit hlast hnew =>
          intro last' hlast'
          rwa [← Option.some.inj (hlast.symm.trans hlast')]
    cases hmissed with
    | bringUp _ hedits hdown hsame =>
        have herror := error_of_changes hpeers hchanges (.inr hdown)
        refine ⟨herror, fun hmoved => ?_⟩
        obtain ⟨-, ⟨-, -, hown⟩ | ⟨hfail, -⟩⟩ := remembers_of_error hpeers herror
        · exact hmoved _ hown hsame
        · rw [hedits] at hfail
          cases hfail
    | edit hlast _ hedits hback =>
        have herror := error_of_changes hpeers hchanges (.inl hedits)
        refine ⟨herror, fun hmoved => ?_⟩
        obtain ⟨-, ⟨hgood, -, -⟩ | ⟨-, hkept⟩⟩ := remembers_of_error hpeers herror
        · rw [hedits] at hgood
          cases hgood
        · exact hmoved _ (hkept.trans hlast) hback
  · rintro ⟨herror, hskipped⟩
    obtain ⟨hchanges, hcases⟩ := remembers_of_error hpeers herror
    rw [changes_iff hset hnodup] at hchanges
    push Not at hskipped
    obtain ⟨last, hlast, hsame⟩ := hskipped
    rcases hcases with ⟨hedits, hdown, hown⟩ | ⟨hedits, hkept⟩
    · obtain rfl := Option.some.inj (hown.symm.trans hlast)
      exact .bringUp hchanges hedits hdown hsame
    · rw [hkept] at hlast
      exact .edit hlast (hchanges last hlast) hedits hsame

end OneCall

/-! ## Runs -/

section Runs

variable {r : BLOS} {ks : List Poll}

/-- Calls without peers change nothing. -/
theorem after_of_none (h : ∀ k ∈ ks, k.peers = none) : after syncVXLANPeers r ks = r := by
  induction ks with
  | nil => rfl
  | cons k ks ih =>
      rw [after_cons, syncVXLANPeers_of_none (h k List.mem_cons_self)]
      exact ih fun i hi => h i (List.mem_cons_of_mem k hi)

theorem IsSet.after (hset : IsSet r) (ks : List Poll) : IsSet (after syncVXLANPeers r ks) :=
  after_invariant (fun _ k hr => hr.step k) hset ks

/-- **Failures are retried in the runs in which none is missed**, and in no
others. -/
theorem retries_iff (h : Host) (ks : List Poll) :
    Retries (trace syncVXLANPeers (start h) ks) ↔ Heeds (start h) ks := by
  have hstart : IsSet (start h) := fun last hlast => by cases hlast
  constructor
  · intro hretries before k between k' later peers peers' hks hpeers hbetween hpeers' hmissed
    have hset := hstart.after before
    obtain ⟨herror, hskipped⟩ := (missed_iff hset hpeers hpeers').1 hmissed
    subst hks
    refine hskipped ?_
    rw [trace_append, trace_cons, trace_append, trace_cons,
      after_of_none hbetween] at hretries
    refine hretries _ _ _ _ _ rfl herror (fun i hi => ?_) (by simp [hpeers'])
    refine hbetween _ ?_
    rw [← trace_inputs syncVXLANPeers (syncVXLANPeers _ k).1 between]
    exact List.mem_map_of_mem hi
  · intro hheeds before e between e' later hsteps herror hbetween hpeers'
    obtain ⟨js, rest, rfl, -, hrest⟩ := trace_eq_append syncVXLANPeers hsteps
    cases rest with
    | nil => simp at hrest
    | cons k rest =>
        rw [trace_cons, List.cons.injEq] at hrest
        obtain ⟨rfl, hrest⟩ := hrest
        obtain ⟨is, rest, rfl, rfl, hnext⟩ := trace_eq_append syncVXLANPeers hrest
        cases rest with
        | nil => simp at hnext
        | cons k' rest =>
            rw [trace_cons, List.cons.injEq] at hnext
            obtain ⟨rfl, -⟩ := hnext
            have hnone : ∀ i ∈ is, i.peers = none := by
              intro i hi
              rw [← trace_inputs syncVXLANPeers
                (syncVXLANPeers (after syncVXLANPeers (start h) js) k).1 is, List.mem_map] at hi
              obtain ⟨e, he, rfl⟩ := hi
              exact hbetween e he
            rw [after_of_none hnone]
            dsimp only at herror hpeers' ⊢
            cases hpeers : k.peers with
            | none =>
                rw [syncVXLANPeers_of_none hpeers] at herror
                exact absurd rfl herror
            | some peers =>
                obtain ⟨peers', hpeers''⟩ := Option.ne_none_iff_exists'.1 hpeers'
                by_contra hskipped
                exact hheeds js k is k' rest peers peers' rfl hpeers hnone hpeers''
                  ((missed_iff (hstart.after js) hpeers hpeers'').2 ⟨herror, hskipped⟩)

end Runs

/-! ## An interface that does not come up -/

/-- A call with one peer whose bring-up fails. -/
def downCall : Poll where
  toCall := callWith ["100.64.0.2"]
  bringUp := some ⟨"exit status 1", false⟩

/-- The same peer, and an interface that would come up. -/
def upCall : Poll where
  toCall := callWith ["100.64.0.2"]
  bringUp := none

/-- A host with an empty network config, on which no call is refused. -/
def quietHost : Host where
  tree :=
    { mem := fun _ => none
      disk := fun config => if config = "network" then some Uci.Config.empty else none
      dirty := fun _ => false }
  tick := 0
  fate := ⟨fun _ => false, fun _ _ => false⟩

/-- The interface that did not come up is not brought up again. -/
theorem bringUp_not_retried :
    ¬ ∀ (h : Host) (ks : List Poll), Retries (trace syncVXLANPeers (start h) ks) := by
  intro hall
  have hedits : Fallible.succeeds (edits downCall ["100.64.0.2"]) (quietHost, []) = true := by
    decide +kernel
  refine (retries_iff quietHost [downCall, upCall]).1 (hall _ _) [] downCall [] upCall []
    [["100.64.0.2"]] [["100.64.0.2"]] rfl rfl (by simp) rfl ?_
  refine .bringUp (fun last hlast => by cases hlast) hedits (by simp [downCall]) fun ip => Iff.rfl

end Sync

end Vxlan

end OpenManet
