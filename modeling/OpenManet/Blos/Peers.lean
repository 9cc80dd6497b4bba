import OpenManet.Network.VxlanPeers
import OpenManet.Lib.Machine
import Mathlib.Data.List.Dedup
import Mathlib.Data.List.Perm.Subperm
/-!
# VXLAN peers follow Tailscale

After a sync the destinations of the peers are to be the active IPs, each in
one section, besides the multicast peers, which are to stay as they were.
What can go wrong is in the names and the lookups: the next name, made of
the number of peers, may be taken after a removal; a peer past the hundredth
place is not found and is added again; a section of another type under one
of the names looked up is taken for a peer; a destination that two sections
have keeps both; and a multicast peer of a group the daemon does not know is
removed.
-/

namespace OpenManet

namespace Vxlan

open Uci Network

/-! ## What a sync is to leave -/

/-- The destination of a peer, empty when it has none. -/
def dst (s : Section) : String := (s.get "dst").head?.getD ""

/-- The section is a peer. -/
def IsPeer (s : Section) : Prop := s.type = "vxlan_peer"

instance (s : Section) : Decidable (IsPeer s) := inferInstanceAs (Decidable (_ = _))

/-- The number of peers with a destination. -/
def held (c : Uci.Config) (d : String) : ℕ := c.sections.countP fun s => IsPeer s ∧ dst s = d

/-- The multicast peers, in file order. -/
def multicastPeers (c : Uci.Config) : List Section :=
  c.sections.filter fun s => IsPeer s ∧ isMulticast (dst s)

/-- **The peers follow the active IPs**: each is the destination of one
peer, any other peer is multicast, and the multicast peers are those of
before. -/
structure Follows (before after : Uci.Config) (active : List String) : Prop where
  one : ∀ ip ∈ active, held after ip = 1
  only : ∀ s ∈ after.sections, IsPeer s → dst s ∉ active → isMulticast (dst s) = true
  kept : multicastPeers after = multicastPeers before

/-! ## When a sync goes well -/

/-- The number of peers. -/
def peerCount (c : Uci.Config) : ℕ := (c.refs "vxlan_peer").length

/-- The number of IPs that are not found. -/
def missing (c : Uci.Config) (ips : List String) : ℕ :=
  ips.countP fun ip => (getVXLANPeerByDst c ip).isNone

/-- No name a sync makes for the IPs it does not find is that of a peer,
except that the last may be that of a peer it would remove. -/
def NamesFree (c : Uci.Config) (active todo : List String) : Prop :=
  ∀ j < missing c todo, ∀ s, c.find (peerName (peerCount c + j)) = some s → IsPeer s →
    j + 1 = missing c todo ∧ dst s ∉ active ∧ isMulticast (dst s) = false

/-- A section of another type under a name looked up does not have the
destination of a peer that is to be removed. -/
def NoneForeign (c : Uci.Config) (active : List String) : Prop :=
  ∀ n ∈ peerSections, ∀ s, c.find n = some s → ¬ IsPeer s → ∀ d, (s.get "dst").head? = some d →
    d ∈ active ∨ d ∈ multicastGroupSet ∨ held c d = 0

/-- The multicast peers are of groups the daemon knows. -/
def GroupsKnown (c : Uci.Config) : Prop :=
  ∀ s ∈ c.sections, IsPeer s → isMulticast (dst s) = true → dst s ∈ multicastGroupSet

/-- **Nothing is in the way of a sync.** -/
structure Clear (c : Uci.Config) (active : List String) : Prop where
  /-- The IPs are addresses, and not multicast ones. -/
  unicast : ∀ ip ∈ active, ip ≠ "" ∧ isMulticast ip = false
  /-- Each IP is found and in one peer, or not found and in none. -/
  seen : ∀ ip ∈ active, held c ip = if (getVXLANPeerByDst c ip).isSome then 1 else 0
  names : NamesFree c active active
  foreign : NoneForeign c active
  known : GroupsKnown c

/-! ## Lookups -/

section Lookups

variable {c c' : Uci.Config} {active todo : List String} {ip d n : String} {s new : Section}
  {old : Option Section}

/-- An address a peer is looked up at is a name of the list, or a place. -/
theorem mem_addresses {r : String} (hr : r ∈ peerSections ++ peerPlaces) :
    (r ∈ peerSections ∧ Plain r ∧ r ≠ "") ∨ ∃ i, r = anonRef "vxlan_peer" i := by
  rcases List.mem_append.1 hr with hr | hr
  · refine .inl ⟨hr, ?_⟩
    rcases List.mem_append.1 hr with hr | hr
    · simp only [List.mem_cons, List.not_mem_nil, or_false] at hr
      rcases hr with rfl | rfl
      · exact ⟨by decide, by decide⟩
      · exact ⟨by decide, by decide⟩
    · obtain ⟨i, -, rfl⟩ := List.mem_map.1 hr
      refine ⟨plain_append (by decide) (by decide) _, fun hempty => ?_⟩
      have hchars := congrArg String.toList hempty
      simp at hchars
  · obtain ⟨i, -, rfl⟩ := List.mem_map.1 hr
    exact .inr ⟨i, rfl⟩

theorem isSome_getVXLANPeerByDst : (getVXLANPeerByDst c d).isSome = true ↔
    ∃ r ∈ peerSections ++ peerPlaces, (c.get r "dst").head? = some d := by
  rw [getVXLANPeerByDst, Option.isSome_map, List.find?_isSome]
  simp

/-- The section that is found has the destination, and is a peer unless it
stands under a name of the list. -/
theorem of_getVXLANPeerByDst {p : UCIVXLANPeer} (h : getVXLANPeerByDst c d = some (p, n)) :
    ∃ s, c.find n = some s ∧ (s.get "dst").head? = some d ∧ n ≠ "" ∧
      (IsPeer s ∨ n ∈ peerSections) := by
  rw [getVXLANPeerByDst, Option.map_eq_some_iff] at h
  obtain ⟨n', hfind, heq⟩ := h
  obtain ⟨-, rfl⟩ := Prod.mk.inj heq
  have hdst : (c.get n' "dst").head? = some d := by simpa using List.find?_some hfind
  cases hs : c.find n' with
  | none => simp [Uci.Config.get, hs] at hdst
  | some s =>
      rw [Uci.Config.get, hs] at hdst
      refine ⟨s, rfl, hdst, ?_⟩
      rcases mem_addresses (List.mem_of_find?_eq_some hfind) with ⟨hmem, -, hne⟩ | ⟨i, rfl⟩
      · exact ⟨hne, .inr hmem⟩
      · refine ⟨fun hempty => ?_, .inl ?_⟩
        · have hchars := congrArg String.toList hempty
          simp [anonRef] at hchars
        · rw [Uci.Config.find, Option.map_eq_some_iff] at hs
          obtain ⟨e, he, rfl⟩ := hs
          have hans := List.find?_some he
          simp only [answers, Bool.or_eq_true, decide_eq_true_iff] at hans
          rcases hans with hname | hplace
          · have hplain := c.plain _ (Uci.Config.mem_of_entries (List.mem_of_find?_eq_some he))
            exact absurd (hname ▸ hplain) (not_plain_anonRef _ _)
          · exact (anonRef_injective (by decide)
              (c.ident _ (Uci.Config.mem_of_entries (List.mem_of_find?_eq_some he))) hplace).1.symm

theorem dst_of_head (h : (s.get "dst").head? = some d) : dst s = d := by
  rw [dst, h]
  rfl

/-- A section that is put where another, or none, had the destination of
neither does not change what is found. -/
theorem isSome_getVXLANPeerByDst_of_put (hput : Uci.Config.Put c c' old new)
    (hold : ∀ s, old = some s → (s.get "dst").head? ≠ some d)
    (hnew : (new.get "dst").head? ≠ some d) :
    (getVXLANPeerByDst c' d).isSome = (getVXLANPeerByDst c d).isSome := by
  have hsame : ∀ r, (c'.get r "dst").head? = some d ↔ (c.get r "dst").head? = some d := by
    intro r
    unfold Uci.Config.get
    rcases hput.find r with heq | ⟨hr, hr'⟩
    · rw [heq]
    · rw [hr', hr]
      refine iff_of_false hnew ?_
      cases old with
      | none => simp
      | some s => exact hold s rfl
  rw [Bool.eq_iff_iff, isSome_getVXLANPeerByDst, isSome_getVXLANPeerByDst]
  simp only [hsame]

/-! ## Counts -/

theorem held_of_put_none (hput : Uci.Config.Put c c' none new) (hpeer : IsPeer new) (d : String) :
    held c' d = held c d + if dst new = d then 1 else 0 := by
  have hsections : c'.sections = c.sections ++ [new] := hput.sections
  rw [held, held, hsections, List.countP_append, List.countP_singleton]
  simp [hpeer]

theorem held_of_put_some (hput : Uci.Config.Put c c' (some s) new) (htype : new.type = s.type)
    (d : String) :
    held c' d + (if IsPeer s ∧ dst s = d then 1 else 0) =
      held c d + if IsPeer s ∧ dst new = d then 1 else 0 := by
  obtain ⟨a, b, hbefore, hafter⟩ := hput.sections
  have hpeer : IsPeer new ↔ IsPeer s := by simp [IsPeer, htype]
  rw [held, held, hbefore, hafter, List.countP_append, List.countP_append, List.countP_cons,
    List.countP_cons]
  simp only [hpeer, decide_eq_true_eq]
  omega

theorem peerCount_eq (c : Uci.Config) :
    peerCount c = c.sections.countP fun s => s.type = "vxlan_peer" := by
  rw [peerCount, Uci.Config.refs_length, Uci.Config.ofType, List.countP_eq_length_filter]

theorem peerCount_of_put_none (hput : Uci.Config.Put c c' none new) (hpeer : IsPeer new) :
    peerCount c' = peerCount c + 1 := by
  have hsections : c'.sections = c.sections ++ [new] := hput.sections
  rw [peerCount_eq, peerCount_eq, hsections, List.countP_append, List.countP_singleton]
  have htype : new.type = "vxlan_peer" := hpeer
  simp [htype]

theorem peerCount_of_put_some (hput : Uci.Config.Put c c' (some s) new)
    (htype : new.type = s.type) : peerCount c' = peerCount c := by
  obtain ⟨a, b, hbefore, hafter⟩ := hput.sections
  rw [peerCount_eq, peerCount_eq, hbefore, hafter, List.countP_append, List.countP_append,
    List.countP_cons, List.countP_cons, htype]

theorem multicastPeers_of_put (hput : Uci.Config.Put c c' old new)
    (hold : ∀ s, old = some s → new.type = s.type ∧ (IsPeer s → isMulticast (dst s) = false))
    (hnew : isMulticast (dst new) = false) : multicastPeers c' = multicastPeers c := by
  cases old with
  | none =>
      have hsections : c'.sections = c.sections ++ [new] := hput.sections
      rw [multicastPeers, multicastPeers, hsections, List.filter_append]
      simp [hnew]
  | some s =>
      obtain ⟨a, b, hbefore, hafter⟩ := hput.sections
      obtain ⟨htype, hmulti⟩ := hold s rfl
      rw [multicastPeers, multicastPeers, hbefore, hafter, List.filter_append, List.filter_append,
        List.filter_cons, List.filter_cons]
      have hs : ¬ (IsPeer s ∧ isMulticast (dst s) = true) := by
        rintro ⟨hpeer, htrue⟩
        rw [hmulti hpeer] at htrue
        cases htrue
      simp [hnew, hs]

theorem mem_of_put (hput : Uci.Config.Put c c' old new) {t : Section} (ht : t ∈ c'.sections) :
    t ∈ c.sections ∨ t = new := by
  cases old with
  | none =>
      have hsections : c'.sections = c.sections ++ [new] := hput.sections
      rw [hsections, List.mem_append, List.mem_singleton] at ht
      exact ht
  | some s =>
      obtain ⟨a, b, hbefore, hafter⟩ := hput.sections
      rw [hafter, List.mem_append, List.mem_cons] at ht
      rw [hbefore, List.mem_append, List.mem_cons]
      rcases ht with ht | rfl | ht
      · exact .inl (.inl ht)
      · exact .inr rfl
      · exact .inl (.inr (.inr ht))

end Lookups

/-! ## Creating the peers -/

section Creates

variable {c c' : Uci.Config} {active todo rest : List String} {ip d n : String} {s new : Section}
  {old : Option Section}

/-- Where a sync stands: the IPs still to be created are clear, and those
done have one peer each. -/
structure Underway (c : Uci.Config) (active todo : List String) : Prop where
  unicast : ∀ ip ∈ active, ip ≠ "" ∧ isMulticast ip = false
  nodup : todo.Nodup
  sub : ∀ ip ∈ todo, ip ∈ active
  done : ∀ ip ∈ active, ip ∉ todo → held c ip = 1
  seen : ∀ ip ∈ todo, held c ip = if (getVXLANPeerByDst c ip).isSome then 1 else 0
  names : NamesFree c active todo
  foreign : NoneForeign c active
  known : GroupsKnown c

theorem Clear.underway (h : Clear c active) (hnodup : active.Nodup) {walk : Walk} :
    Underway c active (walk.order active) := by
  have hperm := walk.perm active
  have hmissing : missing c (walk.order active) = missing c active := hperm.countP_eq _
  refine ⟨h.unicast, hperm.nodup_iff.2 hnodup, fun ip hip => hperm.mem_iff.1 hip,
    fun ip hip hnot => absurd (hperm.mem_iff.2 hip) hnot,
    fun ip hip => h.seen ip (hperm.mem_iff.1 hip), ?_, h.foreign, h.known⟩
  unfold NamesFree
  rw [hmissing]
  exact h.names

theorem written_tailscalePeer (hip : ip ≠ "") : written (peerOptionFields (tailscalePeer ip)) =
    [("vxlan", "vxlan0"), ("dst", ip), ("via", "tailscale0")] := by
  simp [written, peerOptionFields, tailscalePeer, hip]

theorem head_writes (hip : ip ≠ "") (s : Section) :
    ((s.writes (written (peerOptionFields (tailscalePeer ip)))).get "dst").head? = some ip := by
  rw [Section.get_writes, written_tailscalePeer hip]
  simp [lastWrite]

theorem peerName_injective {i j : ℕ} (h : peerName i = peerName j) : i = j :=
  repr_injective (Text.append_right_injective h)

theorem plain_peerName (i : ℕ) : Plain (peerName i) := plain_append (by decide) (by decide) _

theorem peerName_ne_empty (i : ℕ) : peerName i ≠ "" := by
  intro hempty
  have hchars := congrArg String.toList hempty
  simp [peerName] at hchars

/-- **A creation puts one section**: at the end under the next name, over the
peer that has the next name, or over the section found. -/
theorem createVxlanPeer_cases (hip : ip ≠ "") (h : createVxlanPeer c ip = .ok c') :
    ∃ old new, Uci.Config.Put c c' old new ∧ (new.get "dst").head? = some ip ∧
      ((old = none ∧ IsPeer new ∧ new.name = peerName (peerCount c) ∧
          (getVXLANPeerByDst c ip).isSome = false) ∨
        (∃ s, old = some s ∧ new.type = s.type ∧ IsPeer s ∧
          c.find (peerName (peerCount c)) = some s ∧ (getVXLANPeerByDst c ip).isSome = false) ∨
        ∃ s, old = some s ∧ new.type = s.type ∧ (s.get "dst").head? = some ip ∧
          (getVXLANPeerByDst c ip).isSome = true) := by
  unfold createVxlanPeer at h
  cases hlook : getVXLANPeerByDst c ip with
  | some found =>
      obtain ⟨p, n⟩ := found
      rw [hlook] at h
      obtain rfl := Except.ok.inj h
      obtain ⟨s, hfind, hdst, hne, -⟩ := of_getVXLANPeerByDst hlook
      exact ⟨some s, _, Uci.Config.put_writes hne hfind _, head_writes hip s,
        .inr (.inr ⟨s, rfl, Section.writes_type _ _, hdst, rfl⟩)⟩
  | none =>
      rw [hlook] at h
      unfold addVXLANPeer at h
      dsimp only at h
      cases hfind : c.find (peerName (c.refs "vxlan_peer").length) with
      | none =>
          rw [hfind] at h
          obtain rfl := Except.ok.inj h
          refine ⟨none, _, Uci.Config.put_push (plain_peerName _) (by decide) hfind _,
            head_writes hip _, .inl ⟨rfl, Section.writes_type _ _, Section.writes_name _ _, rfl⟩⟩
      | some s =>
          rw [hfind] at h
          dsimp only at h
          split at h
          · next htype =>
            obtain rfl := Except.ok.inj h
            exact ⟨some s, _, Uci.Config.put_writes (peerName_ne_empty _) hfind _,
              head_writes hip s, .inr (.inl ⟨s, rfl, Section.writes_type _ _, htype, hfind, rfl⟩)⟩
          · cases h

/-- What is put is an active IP's, over nothing that must stay. -/
structure Lands (c c' : Uci.Config) (active : List String) (ip : String) (old : Option Section)
    (new : Section) : Prop where
  put : Uci.Config.Put c c' old new
  head : (new.get "dst").head? = some ip
  /-- A peer that is put over has this destination, or is one to be removed. -/
  upon : ∀ s, old = some s → new.type = s.type ∧ ((s.get "dst").head? = some ip ∨
    IsPeer s ∧ dst s ∉ active ∧ isMulticast (dst s) = false)
  fresh : old = none → IsPeer new

theorem Lands.found (h : Lands c c' active ip old new) (hd : d ∈ active) (hne : d ≠ ip) :
    (getVXLANPeerByDst c' d).isSome = (getVXLANPeerByDst c d).isSome := by
  refine isSome_getVXLANPeerByDst_of_put h.put (fun s hs hhead => ?_) fun hhead => ?_
  · rcases (h.upon s hs).2 with hsame | ⟨-, hnot, -⟩
    · exact hne (Option.some.inj (hhead.symm.trans hsame))
    · rw [dst_of_head hhead] at hnot
      exact hnot hd
  · exact hne (Option.some.inj (hhead.symm.trans h.head))

theorem Lands.held_of_active (h : Lands c c' active ip old new) (hd : d ∈ active) (hne : d ≠ ip) :
    held c' d = held c d := by
  have hnew : dst new ≠ d := by
    rw [dst_of_head h.head]
    exact hne.symm
  cases old with
  | none =>
      rw [held_of_put_none h.put (h.fresh rfl), if_neg hnew]
      rfl
  | some s =>
      obtain ⟨htype, hupon⟩ := h.upon s rfl
      have hcount := held_of_put_some h.put htype d
      have hs : dst s ≠ d := by
        rcases hupon with hsame | ⟨-, hnot, -⟩
        · rw [dst_of_head hsame]
          exact hne.symm
        · rintro rfl
          exact hnot hd
      simpa [hs, hnew] using hcount

theorem Lands.held_le (h : Lands c c' active ip old new) (hne : d ≠ ip) : held c' d ≤ held c d := by
  have hnew : dst new ≠ d := by
    rw [dst_of_head h.head]
    exact hne.symm
  cases old with
  | none =>
      rw [held_of_put_none h.put (h.fresh rfl), if_neg hnew]
      exact le_rfl
  | some s =>
      have hcount := held_of_put_some h.put (h.upon s rfl).1 d
      simp only [hnew, and_false, if_false, Nat.add_zero] at hcount
      omega

theorem Lands.multicast (h : Lands c c' active ip old new) (hip : isMulticast ip = false) :
    multicastPeers c' = multicastPeers c := by
  refine multicastPeers_of_put h.put (fun s hs => ?_) (by rw [dst_of_head h.head]; exact hip)
  obtain ⟨htype, hupon⟩ := h.upon s hs
  refine ⟨htype, fun _ => ?_⟩
  rcases hupon with hsame | ⟨-, -, hmulti⟩
  · rw [dst_of_head hsame]
    exact hip
  · exact hmulti

theorem Lands.known (h : Lands c c' active ip old new) (hip : isMulticast ip = false)
    (hknown : GroupsKnown c) : GroupsKnown c' := by
  intro t ht hpeer hmulti
  rcases mem_of_put h.put ht with ht | rfl
  · exact hknown t ht hpeer hmulti
  · rw [dst_of_head h.head, hip] at hmulti
    cases hmulti

theorem Lands.foreign (h : Lands c c' active ip old new) (hip : ip ∈ active)
    (hforeign : NoneForeign c active) : NoneForeign c' active := by
  intro n hn t ht hpeer d hd
  by_cases hsame : d = ip
  · exact .inl (hsame ▸ hip)
  have hbefore : c.find n = some t := by
    rcases h.put.find n with heq | ⟨-, hnew⟩
    · rw [← heq]
      exact ht
    · obtain rfl : new = t := Option.some.inj (hnew.symm.trans ht)
      exact absurd (Option.some.inj (hd.symm.trans h.head)) hsame
  rcases hforeign n hn t hbefore hpeer d hd with hact | hgroup | hnone
  · exact .inl hact
  · exact .inr (.inl hgroup)
  · exact .inr (.inr (Nat.eq_zero_of_le_zero (hnone ▸ h.held_le hsame)))

theorem missing_cons (c : Uci.Config) (ip : String) (rest : List String) :
    missing c (ip :: rest) =
      missing c rest + if (getVXLANPeerByDst c ip).isSome then 0 else 1 := by
  rw [missing, List.countP_cons]
  cases getVXLANPeerByDst c ip <;> rfl

theorem Lands.missing (h : Lands c c' active ip old new) (hsub : ∀ d ∈ rest, d ∈ active)
    (hnot : ip ∉ rest) : missing c' rest = Vxlan.missing c rest := by
  refine List.countP_congr fun d hd => ?_
  have hne : d ≠ ip := by
    rintro rfl
    exact hnot hd
  have hfound := h.found (hsub d hd) hne
  rw [← Option.not_isSome, ← Option.not_isSome, hfound]

/-- **One creation brings a sync on.** -/
theorem Underway.step (h : Underway c active (ip :: rest)) (hrun : createVxlanPeer c ip = .ok c') :
    Underway c' active rest ∧ multicastPeers c' = multicastPeers c := by
  have hact := h.sub ip (List.mem_cons_self ..)
  obtain ⟨hip, huni⟩ := h.unicast ip hact
  obtain ⟨hnot, hnodup⟩ := List.nodup_cons.1 h.nodup
  have hsub : ∀ d ∈ rest, d ∈ active := fun d hd => h.sub d (List.mem_cons_of_mem _ hd)
  obtain ⟨old, new, hput, hhead, hcases⟩ := createVxlanPeer_cases hip hrun
  have hseen := h.seen ip (List.mem_cons_self ..)
  have hmissing := missing_cons c ip rest
  -- what is put over is not to stay, whichever way the section was chosen
  have hlands : Lands c c' active ip old new := by
    refine ⟨hput, hhead, fun s hs => ?_, fun hold => ?_⟩
    · rcases hcases with ⟨hnone, -⟩ | ⟨s', hsome, htype, hpeer, hname, hlook⟩ |
        ⟨s', hsome, htype, hdst, -⟩
      · rw [hnone] at hs
        cases hs
      · obtain rfl := Option.some.inj (hsome.symm.trans hs)
        rw [hlook] at hmissing
        obtain ⟨-, hout, hmulti⟩ := h.names 0 (by rw [hmissing]; simp) s' hname hpeer
        exact ⟨htype, .inr ⟨hpeer, hout, hmulti⟩⟩
      · obtain rfl := Option.some.inj (hsome.symm.trans hs)
        exact ⟨htype, .inl hdst⟩
    · rcases hcases with ⟨-, hpeer, -⟩ | ⟨s', hsome, -⟩ | ⟨s', hsome, -⟩
      · exact hpeer
      · rw [hold] at hsome
        cases hsome
      · rw [hold] at hsome
        cases hsome
  have hdst : dst new = ip := dst_of_head hhead
  have hown : held c' ip = 1 := by
    rcases hcases with ⟨rfl, hpeer, -, hlook⟩ | ⟨s, rfl, htype, hpeer, -, hlook⟩ |
      ⟨s, rfl, htype, hsame, hlook⟩
    · rw [held_of_put_none hput hpeer, hseen, hlook, if_pos hdst]
      rfl
    · have hcount := held_of_put_some hput htype ip
      have hs : dst s ≠ ip := by
        rcases (hlands.upon s rfl).2 with hsame | ⟨-, hout, -⟩
        · -- a peer with the destination would have been counted
          intro heq
          have hpos : 0 < held c ip := by
            obtain ⟨a, b, hbefore, -⟩ := hput.sections
            rw [held, hbefore, List.countP_pos_iff]
            exact ⟨s, by simp, by simp [hpeer, heq]⟩
          rw [hseen, hlook] at hpos
          exact absurd hpos (by simp)
        · rintro rfl
          exact hout hact
      rw [hseen, hlook] at hcount
      simpa [hs, hdst, hpeer] using hcount
    · have hcount := held_of_put_some hput htype ip
      rw [hseen, hlook, dst_of_head hsame, hdst] at hcount
      simpa using hcount
  have hrest : Vxlan.missing c' rest = Vxlan.missing c rest := hlands.missing hsub hnot
  refine ⟨⟨h.unicast, hnodup, hsub, fun d hd hout => ?_, fun d hd => ?_, ?_,
    hlands.foreign hact h.foreign, hlands.known huni h.known⟩, hlands.multicast huni⟩
  · by_cases hsame : d = ip
    · rw [hsame]
      exact hown
    · rw [hlands.held_of_active hd hsame]
      exact h.done d hd fun hmem => (List.mem_cons.1 hmem).elim hsame hout
  · have hne : d ≠ ip := by
      rintro rfl
      exact hnot hd
    rw [hlands.held_of_active (hsub d hd) hne, hlands.found (hsub d hd) hne]
    exact h.seen d (List.mem_cons_of_mem _ hd)
  · intro j hj t ht hpeer
    rw [hrest] at hj ⊢
    rcases hcases with ⟨rfl, hnew, hname, hlook⟩ | ⟨s, rfl, -, hpeer', hname, hlook⟩ |
      ⟨s, rfl, htype, hsame, hlook⟩
    · rw [hlook, if_neg Bool.false_ne_true] at hmissing
      rw [peerCount_of_put_none hput hnew, Nat.add_right_comm, Nat.add_assoc] at ht
      rcases hput.find (peerName (peerCount c + (j + 1))) with heq | ⟨-, hat⟩
      · rw [heq] at ht
        obtain ⟨hlast, hout⟩ := h.names (j + 1) (by omega) t ht hpeer
        exact ⟨by omega, hout⟩
      · obtain rfl : new = t := Option.some.inj (hat.symm.trans ht)
        have hcalled := ((Uci.Config.find_eq_some_iff (plain_peerName _)
          (peerName_ne_empty _)).1 ht).2
        have hidx := peerName_injective (hname.symm.trans hcalled)
        omega
    · rw [hlook, if_neg Bool.false_ne_true] at hmissing
      obtain ⟨hlast, -⟩ := h.names 0 (by omega) s hname hpeer'
      omega
    · rw [hlook, if_pos rfl] at hmissing
      rw [peerCount_of_put_some hput htype] at ht
      rcases hput.find (peerName (peerCount c + j)) with heq | ⟨hwas, hat⟩
      · rw [heq] at ht
        obtain ⟨hlast, hout⟩ := h.names j (by omega) t ht hpeer
        exact ⟨by omega, hout⟩
      · obtain rfl : new = t := Option.some.inj (hat.symm.trans ht)
        have hpeer' : IsPeer s := htype.symm.trans hpeer
        obtain ⟨-, hout, -⟩ := h.names j (by omega) s hwas hpeer'
        rw [dst_of_head hsame] at hout
        exact absurd hact hout

/-- **After the creations every active IP has one peer.** -/
theorem Underway.run (h : Underway c active todo)
    (hrun : todo.foldlM createVxlanPeer c = .ok c') :
    Underway c' active [] ∧ multicastPeers c' = multicastPeers c := by
  refine foldlM_ok (I := fun todo c₁ => Underway c₁ active todo ∧
    multicastPeers c₁ = multicastPeers c) (fun ip rest c₁ c₂ hI hfirst => ?_) ⟨h, rfl⟩ hrun
  obtain ⟨hnext, hsame⟩ := hI.1.step hfirst
  exact ⟨hnext, hsame.trans hI.2⟩

end Creates

/-! ## Removing the others -/

section Removes

variable {c c' : Uci.Config} {active left : List String} {ip d n : String} {s : Section}

/-- Where the removal stands: an inactive destination of no known group is
that of as many peers as are still to be looked at. -/
structure Removing (c : Uci.Config) (active left : List String) : Prop where
  one : ∀ ip ∈ active, held c ip = 1
  rest : ∀ d, d ∉ active → d ∉ multicastGroupSet → held c d = left.count d
  foreign : NoneForeign c active
  known : GroupsKnown c

theorem held_of_sections {l l' : List Section} (hbefore : c.sections = l ++ s :: l')
    (hafter : c'.sections = l ++ l') (hpeer : IsPeer s) (d : String) :
    held c d = held c' d + if dst s = d then 1 else 0 := by
  rw [held, held, hbefore, hafter, List.countP_append, List.countP_append, List.countP_cons]
  simp [hpeer, Nat.add_assoc]

/-- **A deletion takes one peer with the destination.** -/
theorem deleteVXLANPeerByDst_sections (hforeign : NoneForeign c active) (hd : d ∉ active)
    (hgroup : d ∉ multicastGroupSet) (hheld : held c d ≠ 0)
    (h : deleteVXLANPeerByDst c d = .ok c') :
    ∃ s l l', IsPeer s ∧ dst s = d ∧ c.sections = l ++ s :: l' ∧ c'.sections = l ++ l' := by
  unfold deleteVXLANPeerByDst at h
  cases hlook : getVXLANPeerByDst c d with
  | none =>
      rw [hlook] at h
      cases h
  | some found =>
      obtain ⟨p, n⟩ := found
      rw [hlook] at h
      obtain rfl := Except.ok.inj h
      obtain ⟨s, hfind, hhead, hne, hpeer⟩ := of_getVXLANPeerByDst hlook
      obtain ⟨l, l', hbefore, hafter⟩ := Uci.Config.sections_remove hne hfind
      refine ⟨s, l, l', ?_, dst_of_head hhead, hbefore, hafter⟩
      rcases hpeer with hpeer | hname
      · exact hpeer
      · by_contra hother
        rcases hforeign n hname s hfind hother d hhead with hact | hknown | hnone
        · exact hd hact
        · exact hgroup hknown
        · exact hheld hnone

/-- **One turn of the removal.** -/
theorem Removing.step {peer : UCIVXLANPeer} (h : Removing c active (peer.dst :: left))
    (hrun : removeTurn active c peer = .ok c') :
    Removing c' active left ∧ multicastPeers c' = multicastPeers c := by
  unfold removeTurn at hrun
  -- a peer that stays is not counted among those to be removed
  have hstays : peer.dst ∈ active ∨ peer.dst ∈ multicastGroupSet → Removing c active left := by
    intro hkeep
    refine ⟨h.one, fun d hd hgroup => ?_, h.foreign, h.known⟩
    rw [h.rest d hd hgroup, List.count_cons_of_ne]
    rintro rfl
    exact hkeep.elim hd hgroup
  split at hrun
  · next hgroup =>
    obtain rfl := Except.ok.inj hrun
    exact ⟨hstays (.inr hgroup), rfl⟩
  · next hgroup =>
    split at hrun
    · next hact =>
      obtain rfl := Except.ok.inj hrun
      exact ⟨hstays (.inl hact), rfl⟩
    · next hact =>
      have hheld := h.rest peer.dst hact hgroup
      rw [List.count_cons_self] at hheld
      obtain ⟨s, l, l', hpeer, hdst, hbefore, hafter⟩ :=
        deleteVXLANPeerByDst_sections h.foreign hact hgroup (by omega) hrun
      have hcount := held_of_sections hbefore hafter hpeer
      rw [hdst] at hcount
      have hmem : ∀ t, t ∈ c'.sections → t ∈ c.sections := by
        intro t ht
        rw [hafter, List.mem_append] at ht
        rw [hbefore, List.mem_append, List.mem_cons]
        exact ht.imp_right .inr
      refine ⟨⟨fun ip hip => ?_, fun d hd hg => ?_, fun n hn t ht hother d hd => ?_,
        fun t ht => h.known t (hmem t ht)⟩, ?_⟩
      · have hne : peer.dst ≠ ip := by
          rintro rfl
          exact hact hip
        have hone := hcount ip
        rw [if_neg hne, h.one ip hip] at hone
        omega
      · have hone := hcount d
        rw [h.rest d hd hg, List.count_cons] at hone
        by_cases hsame : peer.dst = d
        · simp [hsame] at hone
          omega
        · simpa [hsame] using hone.symm
      · obtain ⟨hplain, hne⟩ : Plain n ∧ n ≠ "" := by
          rcases mem_addresses (List.mem_append_left _ hn) with ⟨-, hplain, hne⟩ | ⟨i, rfl⟩
          · exact ⟨hplain, hne⟩
          · rcases List.mem_append.1 hn with hn | hn
            · simp [anonRef, String.ext_iff] at hn
            · obtain ⟨j, -, hj⟩ := List.mem_map.1 hn
              have hchars := congrArg (fun s => s.toList.head?) hj
              simp [anonRef] at hchars
        rw [Uci.Config.find_eq_some_iff hplain hne] at ht
        have hfind := (Uci.Config.find_eq_some_iff hplain hne).2 ⟨hmem t ht.1, ht.2⟩
        rcases h.foreign n hn t hfind hother d hd with hact' | hgroup' | hnone
        · exact .inl hact'
        · exact .inr (.inl hgroup')
        · have := hcount d
          exact .inr (.inr (by omega))
      · have hs : isMulticast (dst s) = false := by
          rw [Bool.eq_false_iff]
          intro hmulti
          have hin : s ∈ c.sections := by
            rw [hbefore]
            simp
          exact hgroup (hdst ▸ h.known s hin hpeer hmulti)
        rw [multicastPeers, multicastPeers, hbefore, hafter, List.filter_append,
          List.filter_append, List.filter_cons]
        simp [hs]

theorem Removing.run {peers : List UCIVXLANPeer}
    (h : Removing c active (peers.map UCIVXLANPeer.dst))
    (hrun : peers.foldlM (removeTurn active) c = .ok c') :
    Removing c' active [] ∧ multicastPeers c' = multicastPeers c := by
  refine foldlM_ok (I := fun peers c₁ => Removing c₁ active (peers.map UCIVXLANPeer.dst) ∧
    multicastPeers c₁ = multicastPeers c) (fun peer rest c₁ c₂ hI hfirst => ?_) ⟨h, rfl⟩ hrun
  obtain ⟨hnext, hsame⟩ := hI.1.step hfirst
  exact ⟨hnext, hsame.trans hI.2⟩

/-- The peers that are read before the removal are those there are. -/
theorem count_snapshot (walk : Walk) (c : Uci.Config) (d : String) :
    (((walk.order (c.refs "vxlan_peer")).map (getVXLANPeerByName c)).map
      UCIVXLANPeer.dst).count d = held c d := by
  have hread : (c.refs "vxlan_peer").map (fun ref => firstOf c ref "dst") =
      (c.ofType "vxlan_peer").map dst := by
    refine Uci.Config.map_refs dst _ fun ref s hs => ?_
    rw [firstOf, Uci.Config.get, hs]
    rfl
  have hperm : ((walk.order (c.refs "vxlan_peer")).map fun ref => firstOf c ref "dst").Perm
      ((c.ofType "vxlan_peer").map dst) := by
    rw [← hread]
    exact (walk.perm _).map _
  rw [List.map_map]
  calc ((walk.order (c.refs "vxlan_peer")).map fun ref => firstOf c ref "dst").count d
      = ((c.ofType "vxlan_peer").map dst).count d := hperm.count_eq d
    _ = held c d := by
        rw [List.count, List.countP_map, Uci.Config.ofType, List.countP_filter, held]
        refine List.countP_congr fun s _ => ?_
        rw [decide_eq_true_iff]
        simp [IsPeer, and_comm]

end Removes

/-! ## Whole runs -/

section Runs

variable {c created synced : Uci.Config} {active : List String}

theorem isMulticast_of_mem (h : ip ∈ multicastGroupSet) : isMulticast ip = true := by
  revert ip
  decide

/-- **A sync that nothing is in the way of leaves the peers following.** -/
theorem follows_of_clear {k : Call} (hclear : Clear c active) (hnodup : active.Nodup)
    (hcreate : (k.creates.order active).foldlM createVxlanPeer c = .ok created)
    (hremove : removeInactiveVXLANPeers k.removes active created = .ok synced) :
    Follows c synced active := by
  obtain ⟨hcreated, hsame⟩ := (hclear.underway hnodup).run hcreate
  have hremoving : Removing created active
      (((k.removes.order (created.refs "vxlan_peer")).map (getVXLANPeerByName created)).map
        UCIVXLANPeer.dst) :=
    ⟨fun ip hip => hcreated.done ip hip List.not_mem_nil,
      fun d _ _ => (count_snapshot k.removes created d).symm, hcreated.foreign, hcreated.known⟩
  obtain ⟨hdone, hsame'⟩ := hremoving.run hremove
  refine ⟨hdone.one, fun s hs hpeer hout => ?_, hsame'.trans hsame⟩
  by_contra hmulti
  have hgroup : dst s ∉ multicastGroupSet := fun hin => hmulti (isMulticast_of_mem hin)
  have hnone := hdone.rest (dst s) hout hgroup
  rw [List.count_nil, held, List.countP_eq_zero] at hnone
  exact hnone s hs (by simp [hpeer])

/-- One successful call. -/
def step (r : BLOS) (k : Call) : Option BLOS := (syncVXLANPeers r k).toOption

/-- Nothing is in the way of the call, where it has something to do. -/
def ClearCall (r : BLOS) (k : Call) : Prop :=
  ∀ peers, k.peers = some peers → hasPeerChanges r.lastSyncedPeerIPs (activePeerIPs peers) = true →
    Clear r.config (activePeerIPs peers)

/-- The peers follow what was last synced. -/
structure Synced (start : Uci.Config) (r : BLOS) : Prop where
  kept : multicastPeers r.config = multicastPeers start
  last : ∀ last, r.lastSyncedPeerIPs = some last → Follows start r.config last

theorem nodup_activePeerIPs (peers : List (List String)) : (activePeerIPs peers).Nodup :=
  List.nodup_dedup _

/-- **No change is a call with the IPs of the last sync.** -/
theorem perm_of_unchanged {last : List String} (hnodup : active.Nodup)
    (hsame : hasPeerChanges (some last) active = false) : active.Perm last := by
  simp only [hasPeerChanges, Bool.or_eq_false_iff, decide_eq_false_iff_not, not_not,
    List.any_eq_false, decide_eq_true_eq] at hsame
  obtain ⟨hlength, hsub⟩ := hsame
  exact (List.subperm_of_subset hnodup hsub).perm_of_length_le (Nat.le_of_eq hlength.symm)

theorem hasPeerChanges_eq_false {last : List String} (hnodup : active.Nodup) (hlast : last.Nodup) :
    hasPeerChanges (some last) active = false ↔ ∀ ip, ip ∈ active ↔ ip ∈ last := by
  refine ⟨fun hsame ip => (perm_of_unchanged hnodup hsame).mem_iff, fun hsame => ?_⟩
  have hlength := ((List.perm_ext_iff_of_nodup hnodup hlast).2 hsame).length_eq
  simp [hasPeerChanges, hlength, hsame]

theorem Follows.of_unchanged {start : Uci.Config} {r : BLOS} (h : Synced start r)
    (hnodup : active.Nodup) (hsame : hasPeerChanges r.lastSyncedPeerIPs active = false) :
    Follows start r.config active := by
  cases hlast : r.lastSyncedPeerIPs with
  | none =>
      rw [hlast] at hsame
      cases hsame
  | some last =>
      have hfollows := h.last last hlast
      rw [hlast] at hsame
      have hperm := perm_of_unchanged hnodup hsame
      exact ⟨fun ip hip => hfollows.one ip (hperm.mem_iff.1 hip),
        fun s hs hpeer hout => hfollows.only s hs hpeer fun hin => hout (hperm.mem_iff.2 hin),
        hfollows.kept⟩

/-- **One call.** -/
theorem Synced.step {start : Uci.Config} {r r' : BLOS} {k : Call} (h : Synced start r)
    (hclear : ClearCall r k) (hstep : Vxlan.step r k = some r') :
    Synced start r' ∧ ∀ peers, k.peers = some peers →
      Follows start r'.config (activePeerIPs peers) := by
  unfold Vxlan.step syncVXLANPeers at hstep
  cases hpeers : k.peers with
  | none =>
      rw [hpeers] at hstep
      obtain rfl : r = r' := Option.some.inj hstep
      exact ⟨h, fun peers hsome => by cases hsome⟩
  | some peers =>
      rw [hpeers] at hstep
      dsimp only at hstep
      cases hchanges : hasPeerChanges r.lastSyncedPeerIPs (activePeerIPs peers) with
      | false =>
          rw [hchanges, if_neg Bool.false_ne_true] at hstep
          obtain rfl : r = r' := Option.some.inj hstep
          refine ⟨h, fun peers' hsome => ?_⟩
          obtain rfl := Option.some.inj hsome
          exact Follows.of_unchanged h (nodup_activePeerIPs _) hchanges
      | true =>
          rw [hchanges, if_pos rfl] at hstep
          cases hcreate : (k.creates.order (activePeerIPs peers)).foldlM createVxlanPeer
              r.config with
          | error e =>
              rw [hcreate] at hstep
              cases hstep
          | ok created =>
              rw [hcreate] at hstep
              cases hremove : removeInactiveVXLANPeers k.removes (activePeerIPs peers) created with
              | error e =>
                  simp only [bind, Except.bind, hremove] at hstep
                  cases hstep
              | ok synced =>
                  simp only [bind, Except.bind, hremove] at hstep
                  obtain rfl := Option.some.inj hstep
                  have hnow := follows_of_clear (hclear peers hpeers hchanges)
                    (nodup_activePeerIPs _) hcreate hremove
                  have hstart : Follows start synced (activePeerIPs peers) :=
                    ⟨hnow.one, hnow.only, hnow.kept.trans h.kept⟩
                  refine ⟨⟨hstart.kept, fun last hlast => ?_⟩, fun peers' hsome => ?_⟩
                  · obtain rfl := Option.some.inj hlast
                    exact hstart
                  · obtain rfl := Option.some.inj hsome
                    exact hstart

/-- **The peers follow Tailscale through every run in whose way nothing
is**: after each call of the run they follow its active IPs. -/
theorem peers_follow {start : Uci.Config} {ks : List Call} {k : Call}
    {peers : List (List String)} {r : BLOS}
    (hrun : Run step { config := start, lastSyncedPeerIPs := none } (ks ++ [k]) r)
    (hclear : Always step ClearCall { config := start, lastSyncedPeerIPs := none } (ks ++ [k]))
    (hpeers : k.peers = some peers) : Follows start r.config (activePeerIPs peers) := by
  obtain ⟨r₁, hbefore, hlast⟩ := hrun.of_append
  have hstart : Synced start { config := start, lastSyncedPeerIPs := none } := by
    refine ⟨rfl, fun last hnone => ?_⟩
    cases hnone
  have hsynced : Synced start r₁ := hbefore.invariant hclear.left hstart
    fun u a v hu hgood hstep => (hu.step hgood hstep).1
  cases hlast with
  | cons hstep hnil =>
      cases hnil
      exact (hsynced.step (hclear.rest hbefore).1 hstep).2 peers hpeers

end Runs

/-! ## Two nodes -/

/-- A walk in the order of the keys. -/
def inOrder : Walk where
  order := id
  perm := List.Perm.refl

/-- A call with one IP a peer. -/
def callWith (ips : List String) : Call where
  peers := some (ips.map fun ip => [ip])
  creates := inOrder
  removes := inOrder

/-- A node with a multicast peer of a group the daemon knows. -/
def multicastNode : Uci.Config where
  sections := [⟨"vxlan_peer", "peer_multicast", AList.insert "dst" ["239.2.3.1"] ∅⟩]
  plain := by decide +kernel
  ident := by decide +kernel
  distinct := by decide +kernel

theorem clear_multicastNode : Clear multicastNode ["100.64.0.2"] := by
  have hall : ∀ s ∈ multicastNode.sections, IsPeer s ∧ dst s ∈ multicastGroupSet := by
    decide +kernel
  refine ⟨by decide +kernel, by decide +kernel, fun j hj s hs hpeer => ?_,
    fun n hn s hs hother => ?_, fun s hs _ _ => (hall s hs).2⟩
  · have hone : missing multicastNode ["100.64.0.2"] = 1 := by decide +kernel
    obtain rfl : j = 0 := by omega
    have hnone : multicastNode.find (peerName (peerCount multicastNode + 0)) = none := by
      decide +kernel
    rw [hnone] at hs
    cases hs
  · rw [Uci.Config.find, Option.map_eq_some_iff] at hs
    obtain ⟨e, he, rfl⟩ := hs
    exact absurd (hall _ (Uci.Config.mem_of_entries (List.mem_of_find?_eq_some he))).1 hother

/-- Its first sync. -/
theorem peers_follow_multicastNode :
    ∃ r, Run step { config := multicastNode, lastSyncedPeerIPs := none }
        [callWith ["100.64.0.2"]] r ∧
      Follows multicastNode r.config ["100.64.0.2"] := by
  have hsome : ([callWith ["100.64.0.2"]].foldlM step
      { config := multicastNode, lastSyncedPeerIPs := none }).isSome = true := by decide +kernel
  obtain ⟨r, hr⟩ := Option.isSome_iff_exists.1 hsome
  refine ⟨r, Run.of_foldlM hr, ?_⟩
  have hrun : Run step { config := multicastNode, lastSyncedPeerIPs := none }
      ([] ++ [callWith ["100.64.0.2"]]) r := Run.of_foldlM hr
  have hpeers : (callWith ["100.64.0.2"]).peers = some [["100.64.0.2"]] := rfl
  refine peers_follow hrun ⟨fun peers hsome _ => ?_, fun _ _ => trivial⟩ hpeers
  obtain rfl : [["100.64.0.2"]] = peers := Option.some.inj hsome
  exact clear_multicastNode

/-- A node that has lost the first of its two peers: what is left bears the
number 1. -/
def afterRemoval : Uci.Config where
  sections := [⟨"vxlan_peer", "vxlan_peer_1", AList.insert "dst" ["100.64.0.2"] ∅⟩]
  plain := by decide +kernel
  ident := by decide +kernel
  distinct := by decide +kernel

/-- A second peer is given the name of the first, and the first is lost. -/
theorem peer_lost :
    ¬ ∀ (start : Uci.Config) (ks : List Call) (k : Call) (peers : List (List String)) (r : BLOS),
      Run step { config := start, lastSyncedPeerIPs := none } (ks ++ [k]) r →
        k.peers = some peers → Follows start r.config (activePeerIPs peers) := by
  intro hall
  have hsome : (([callWith ["100.64.0.2", "100.64.0.3"]]).foldlM step
      { config := afterRemoval, lastSyncedPeerIPs := none }).isSome = true := by decide +kernel
  obtain ⟨r, hr⟩ := Option.isSome_iff_exists.1 hsome
  have hlost : (([callWith ["100.64.0.2", "100.64.0.3"]]).foldlM step
      { config := afterRemoval, lastSyncedPeerIPs := none }).map
        (fun r => held r.config "100.64.0.2") = some 0 := by decide +kernel
  have hone := (hall afterRemoval [] _ _ r (Run.of_foldlM hr) rfl).one "100.64.0.2" (by decide)
  rw [hr, Option.map_some, hone] at hlost
  exact absurd hlost (by decide)

end Vxlan

end OpenManet
