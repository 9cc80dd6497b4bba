import OpenManet.Topology.Aliases
import Mathlib.Logic.Relation
/-!
# The order of walks: components

The radio claims of all records make a graph, and the search walks it from one
primary after another. The order of its walks decides how the components are
numbered and in what order their members stand, and nothing else: a component
is what one of its primaries is joined to.
-/

namespace OpenManet

namespace Topology

open Table Relation

variable {M : Type} {R : Runtime M} {gossip : GossipView M}

/-! ## Claims -/

/-- What the records claim of their neighbours, in the order of two nested
walks: who claims, of whom, at what metric. -/
def claims (R : Runtime M) (outer inner : Site) (m : Table (Table M)) :
    List (String × String × M) :=
  (R.range outer "" m).flatMap fun e => (R.range inner e.1 e.2).map fun n => (e.1, n.1, n.2)

section Claims

variable {outer inner : Site} {m : Table (Table M)} {a b : String} {x : M}

theorem mem_claims :
    (a, b, x) ∈ claims R outer inner m ↔ ∃ set, m.lookup a = some set ∧ set.lookup b = some x := by
  simp only [claims, List.mem_flatMap, List.mem_map, Prod.exists, Prod.mk.injEq, Runtime.range,
    mem_range (R.order_perm _ _)]
  constructor
  · rintro ⟨_, set, ha, _, _, hb, rfl, rfl, rfl⟩
    exact ⟨set, ha, hb⟩
  · rintro ⟨set, ha, hb⟩
    exact ⟨a, set, ha, b, x, hb, rfl, rfl, rfl⟩

theorem mem_claims_iff :
    (a, b, x) ∈ claims R outer inner m ↔ ((m.lookup a).getD ∅).lookup b = some x := by
  rw [mem_claims]
  cases m.lookup a <;> simp [AList.lookup_empty]

/-- **Every order** reads the same claims. -/
theorem claims_perm {order : Site → String → List String → List String}
    (horder : ∀ site about keys, (order site about keys).Perm keys) :
    (claims (R.reordered order horder) outer inner m).Perm (claims R outer inner m) := by
  refine List.Perm.flatMap ?_ fun e _ => List.Perm.map _ ?_
  · exact (Same.refl m).range_perm (horder outer "") (R.order_perm outer "")
  · exact (Same.refl e.2).range_perm (horder inner e.1) (R.order_perm inner e.1)

/-- Two nested loops are one over the claims. -/
theorem foldl_claims {σ : Type} (f : σ → String → String × M → σ) (s : σ) :
    (R.range outer "" m).foldl (fun s e => (R.range inner e.1 e.2).foldl (fun s n => f s e.1 n) s) s
      = (claims R outer inner m).foldl (fun s c => f s c.1 c.2) s := by
  rw [claims, List.foldl_flatMap]
  simp only [List.foldl_map]

end Claims

/-! ## The radio graph -/

/-- One of the two claims the other by radio. -/
def RFLink (gossip : GossipView M) (a b : String) : Prop :=
  a ≠ b ∧ a ≠ "" ∧ b ≠ "" ∧ (b ∈ gossip.rfOf a ∨ a ∈ gossip.rfOf b)

/-- **In one mesh by radio**, over any number of links. -/
def Meshed (gossip : GossipView M) : String → String → Prop := ReflTransGen (RFLink gossip)

theorem RFLink.symm {a b : String} (h : RFLink gossip a b) : RFLink gossip b a :=
  ⟨h.1.symm, h.2.2.1, h.2.1, h.2.2.2.symm⟩

theorem Meshed.symm {a b : String} (h : Meshed gossip a b) : Meshed gossip b a := by
  have : Std.Symm (RFLink gossip) := ⟨fun _ _ => RFLink.symm⟩
  exact (ReflTransGen.stdSymm (r := RFLink gossip)).symm _ _ h

/-- The neighbours of a primary in the adjacency table. -/
def neighborsIn (adj : Table (Table Unit)) (a : String) : Table Unit := (adj.lookup a).getD ∅

theorem mem_addLink {adj : Table (Table Unit)} {a b x y : String} :
    y ∈ neighborsIn (addLink adj a b) x ↔
      y ∈ neighborsIn adj x ∨
        (a ≠ b ∧ a ≠ "" ∧ b ≠ "" ∧ ((x = a ∧ y = b) ∨ (x = b ∧ y = a))) := by
  unfold addLink
  split
  · next hskip =>
    have hno : ¬ (a ≠ b ∧ a ≠ "" ∧ b ≠ "" ∧ ((x = a ∧ y = b) ∨ (x = b ∧ y = a))) := by
      rintro ⟨hab, ha, hb, -⟩
      rcases hskip with h | h | h
      · exact hab h
      · exact ha h
      · exact hb h
    simp [hno]
  · next hadd =>
    obtain ⟨hab, ha, hb⟩ : a ≠ b ∧ a ≠ "" ∧ b ≠ "" := by simpa [not_or] using hadd
    simp only [neighborsIn, lookup_insert_eq]
    by_cases hxb : x = b
    · subst hxb
      simp [AList.mem_insert, hab, hab.symm, ha, hb, or_comm]
    · by_cases hxa : x = a
      · subst hxa
        simp [AList.mem_insert, hab, ha, hb, or_comm]
      · simp [hxa, hxb]

/-- **The adjacency table** is the radio graph. -/
theorem mem_buildRFAdjacency {x y : String} :
    y ∈ neighborsIn (buildRFAdjacency R gossip) x ↔ RFLink gossip x y := by
  have hfold : ∀ (l : List (String × String × M)) (adj : Table (Table Unit)),
      y ∈ neighborsIn (l.foldl (fun adj c => addLink adj c.1 c.2.1) adj) x ↔
        y ∈ neighborsIn adj x ∨ ∃ c ∈ l, c.1 ≠ c.2.1 ∧ c.1 ≠ "" ∧ c.2.1 ≠ "" ∧
          ((x = c.1 ∧ y = c.2.1) ∨ (x = c.2.1 ∧ y = c.1)) := by
    intro l
    induction l with
    | nil => simp
    | cons c l ih =>
        intro adj
        rw [List.foldl_cons, ih, mem_addLink, List.exists_mem_cons_iff, or_assoc]
  have hbuild : buildRFAdjacency R gossip = (claims R .rfAdjacency .rfNeighbors
      gossip.rfByPrimary).foldl (fun adj c => addLink adj c.1 c.2.1) ∅ :=
    foldl_claims (fun adj p n => addLink adj p n.1) ∅
  have hclaim : ∀ a b, (∃ z, (a, b, z) ∈ claims R .rfAdjacency .rfNeighbors gossip.rfByPrimary) ↔
      b ∈ gossip.rfOf a := by
    intro a b
    simp only [mem_claims_iff, GossipView.rfOf, ← AList.lookup_isSome, Option.isSome_iff_exists]
  rw [hbuild, hfold]
  have hempty : y ∉ neighborsIn ∅ x := by simp [neighborsIn, AList.lookup_empty, AList.notMem_empty]
  constructor
  · rintro (h | ⟨⟨a, b, z⟩, hc, hne, ha, hb, ⟨rfl, rfl⟩ | ⟨rfl, rfl⟩⟩)
    · exact absurd h hempty
    · exact ⟨hne, ha, hb, .inl ((hclaim _ _).1 ⟨z, hc⟩)⟩
    · exact ⟨hne.symm, hb, ha, .inr ((hclaim _ _).1 ⟨z, hc⟩)⟩
  · rintro ⟨hne, hx, hy, h | h⟩
    · obtain ⟨z, hz⟩ := (hclaim _ _).2 h
      exact .inr ⟨_, hz, hne, hx, hy, .inl ⟨rfl, rfl⟩⟩
    · obtain ⟨z, hz⟩ := (hclaim _ _).2 h
      exact .inr ⟨_, hz, hne.symm, hy, hx, .inr ⟨rfl, rfl⟩⟩

/-- Who has a neighbour is in the table. -/
theorem mem_keys_of_mem_neighborsIn {adj : Table (Table Unit)} {x y : String}
    (h : y ∈ neighborsIn adj x) : x ∈ adj.keys := by
  rw [← AList.mem_keys, ← AList.lookup_isSome]
  unfold neighborsIn at h
  cases hx : adj.lookup x with
  | none => rw [hx] at h; exact absurd h (AList.notMem_empty y)
  | some set => rfl

/-! ## The walk over a component -/

/-- Those of a list that have no number get one, and are queued. -/
theorem foldl_number (cid : ℕ) (l : List (String × Unit)) (ids : Table ℕ) (queue : List String) :
    ∃ ids' found, l.foldl (fun s e =>
        if e.1 ∈ s.1 then s else (s.1.insert e.1 cid, s.2 ++ [e.1])) (ids, queue) =
        (ids', queue ++ found) ∧ found.Nodup ∧ (∀ k ∈ found, k ∉ ids ∧ ∃ e ∈ l, e.1 = k) ∧
      (∀ k, ids'.lookup k = if k ∈ found then some cid else ids.lookup k) ∧
      ∀ e ∈ l, e.1 ∈ ids ∨ e.1 ∈ found := by
  induction l generalizing ids queue with
  | nil => exact ⟨ids, [], by simp, List.nodup_nil, nofun, by simp, nofun⟩
  | cons e l ih =>
      by_cases he : e.1 ∈ ids
      · obtain ⟨ids', found, hrun, hnodup, hnew, hlookup, hall⟩ := ih ids queue
        refine ⟨ids', found, ?_, hnodup, fun k hk => ?_, hlookup, fun e' he' => ?_⟩
        · rw [List.foldl_cons, if_pos he, hrun]
        · obtain ⟨hid, e', he', hk'⟩ := hnew k hk
          exact ⟨hid, e', List.mem_cons_of_mem e he', hk'⟩
        · rcases List.mem_cons.1 he' with rfl | he'
          · exact .inl he
          · exact hall e' he'
      · obtain ⟨ids', found, hrun, hnodup, hnew, hlookup, hall⟩ :=
          ih (ids.insert e.1 cid) (queue ++ [e.1])
        have hfirst : e.1 ∉ found := fun hmem => (hnew _ hmem).1 ((AList.mem_insert ids).2 (.inl rfl))
        refine ⟨ids', e.1 :: found, ?_, List.nodup_cons.2 ⟨hfirst, hnodup⟩, fun k hk => ?_,
          fun k => ?_, fun e' he' => ?_⟩
        · rw [List.foldl_cons, if_neg he, hrun, List.append_assoc, List.singleton_append]
        · rcases List.mem_cons.1 hk with rfl | hk
          · exact ⟨he, e, List.mem_cons_self, rfl⟩
          · obtain ⟨hid, e', he', hk'⟩ := hnew k hk
            exact ⟨fun hin => hid ((AList.mem_insert ids).2 (.inr hin)), e',
              List.mem_cons_of_mem e he', hk'⟩
        · rw [hlookup, lookup_insert_eq]
          by_cases hk : k = e.1
          · subst hk
            simp
          · simp [hk]
        · rcases List.mem_cons.1 he' with rfl | he'
          · exact .inr List.mem_cons_self
          · rcases hall e' he' with hin | hin
            · rcases (AList.mem_insert ids).1 hin with heq | hin
              · exact .inr (heq ▸ List.mem_cons_self)
              · exact .inl hin
            · exact .inr (List.mem_cons_of_mem e.1 hin)

/-- **What the walk keeps**: those taken and those queued are new, joined to
the seed and numbered, and the neighbours of those taken are among them. -/
structure Walked (link : String → String → Prop) (old : Table ℕ) (cid : ℕ) (seed : String)
    (ids : Table ℕ) (members queue : List String) : Prop where
  lookup : ∀ k, ids.lookup k = if k ∈ members ++ queue then some cid else old.lookup k
  nodup : (members ++ queue).Nodup
  new : ∀ k ∈ members ++ queue, k ∉ old
  joined : ∀ k ∈ members ++ queue, ReflTransGen link seed k
  closed : ∀ k ∈ members, ∀ b, link k b → b ∈ members ++ queue
  seed : seed ∈ members ++ queue

section Walk

variable {link : String → String → Prop} {adj : Table (Table Unit)} {old ids : Table ℕ} {cid : ℕ}
variable {seed cur : String} {members queue : List String}

theorem Walked.start (cid : ℕ) (h : seed ∉ old) :
    Walked link old cid seed (old.insert seed cid) [] [seed] where
  lookup k := by rw [lookup_insert_eq]; simp
  nodup := List.nodup_singleton seed
  new := by simpa using h
  joined k hk := by
    obtain rfl : k = seed := by simpa using hk
    exact .refl
  closed := nofun
  seed := by simp

/-- One member is taken, and its new neighbours are queued. -/
theorem Walked.take (h : Walked link old cid seed ids members (cur :: queue))
    (hsymm : ∀ a b, link a b → link b a) (hold : ∀ k ∈ old, ∀ b, link k b → b ∈ old)
    {ids' : Table ℕ} {found : List String} {l : List (String × Unit)} (hnodup : found.Nodup)
    (hl : ∀ b, (∃ e ∈ l, e.1 = b) ↔ link cur b)
    (hnew : ∀ k ∈ found, k ∉ ids ∧ ∃ e ∈ l, e.1 = k)
    (hlookup : ∀ k, ids'.lookup k = if k ∈ found then some cid else ids.lookup k)
    (hall : ∀ e ∈ l, e.1 ∈ ids ∨ e.1 ∈ found) :
    Walked link old cid seed ids' (members ++ [cur]) (queue ++ found) := by
  have hshift : ∀ k, k ∈ members ++ [cur] ++ (queue ++ found) ↔
      k ∈ members ++ cur :: queue ∨ k ∈ found := by
    intro k
    simp only [List.mem_append, List.mem_cons, List.not_mem_nil, or_false, or_assoc]
  have hids : ∀ k, k ∈ ids ↔ k ∈ members ++ cur :: queue ∨ k ∈ old := by
    intro k
    rw [← AList.lookup_isSome, h.lookup, ← AList.lookup_isSome]
    split
    · next hk => simp [hk]
    · next hk => simp [hk]
  refine ⟨fun k => ?_, ?_, fun k hk => ?_, fun k hk => ?_, fun k hk b hb => ?_, ?_⟩
  · rw [hlookup, h.lookup]
    simp only [hshift]
    by_cases hk : k ∈ found <;> by_cases hk' : k ∈ members ++ cur :: queue <;> simp [hk, hk']
  · have happ : members ++ [cur] ++ (queue ++ found) = (members ++ cur :: queue) ++ found := by
      simp
    rw [happ, List.nodup_append]
    refine ⟨h.nodup, hnodup, fun a ha b hb hab => ?_⟩
    subst hab
    exact (hnew a hb).1 ((hids a).2 (.inl ha))
  · rcases (hshift k).1 hk with hk | hk
    · exact h.new k hk
    · exact fun hin => (hnew k hk).1 ((hids k).2 (.inr hin))
  · rcases (hshift k).1 hk with hk | hk
    · exact h.joined k hk
    · exact (h.joined cur (by simp)).tail ((hl k).1 (hnew k hk).2)
  · rw [hshift]
    rcases List.mem_append.1 hk with hk | hk
    · exact .inl (h.closed k hk b hb)
    · obtain rfl : k = cur := List.mem_singleton.1 hk
      obtain ⟨e, he, rfl⟩ := (hl b).2 hb
      rcases hall e he with hin | hin
      · rcases (hids e.1).1 hin with hin | hin
        · exact .inl hin
        · -- a neighbour that had a number before would have given it on
          exact absurd (hold e.1 hin k (hsymm _ _ hb)) (h.new k (by simp))
      · exact .inr hin
  · exact (hshift seed).2 (.inl h.seed)

/-- There are no more of them than the table has keys, and the seed. -/
theorem Walked.length_le (h : Walked link old cid seed ids members queue)
    (hadj : ∀ x y, y ∈ neighborsIn adj x ↔ link x y) (hsymm : ∀ a b, link a b → link b a) :
    members.length + queue.length ≤ adj.keys.length + 1 := by
  rw [← List.length_append, ← List.length_cons (a := seed)]
  refine h.nodup.length_le_of_subset fun k hk => ?_
  rcases (h.joined k hk).cases_tail with heq | ⟨j, -, hlink⟩
  · exact heq ▸ List.mem_cons_self
  · exact List.mem_cons_of_mem seed (mem_keys_of_mem_neighborsIn ((hadj k j).2 (hsymm j k hlink)))

/-- **The walk ends** with the queue empty. -/
theorem walkComponent_walked (hadj : ∀ x y, y ∈ neighborsIn adj x ↔ link x y)
    (hsymm : ∀ a b, link a b → link b a) (hold : ∀ k ∈ old, ∀ b, link k b → b ∈ old) (fuel : ℕ)
    (h : Walked link old cid seed ids members queue)
    (hfuel : adj.keys.length + 1 ≤ members.length + fuel) :
    Walked link old cid seed (walkComponent R adj cid fuel ids members queue).1
      (walkComponent R adj cid fuel ids members queue).2 [] := by
  induction fuel generalizing ids members queue with
  | zero =>
      have hlength := h.length_le hadj hsymm
      obtain rfl : queue = [] := List.length_eq_zero_iff.1 (by omega)
      exact h
  | succ fuel ih =>
      cases queue with
      | nil => exact h
      | cons cur queue =>
          obtain ⟨ids', found, hrun, hnodup, hnew, hlookup, hall⟩ :=
            foldl_number cid (R.range .adjacent cur (neighborsIn adj cur)) ids queue
          have hl : ∀ b, (∃ e ∈ R.range .adjacent cur (neighborsIn adj cur), e.1 = b) ↔
              link cur b := by
            intro b
            rw [← hadj, ← AList.lookup_isSome, Option.isSome_iff_exists]
            constructor
            · rintro ⟨⟨_, u⟩, he, rfl⟩
              exact ⟨u, (mem_range (R.order_perm _ _)).1 he⟩
            · rintro ⟨u, hu⟩
              exact ⟨(b, u), (mem_range (R.order_perm _ _)).2 hu, rfl⟩
          have hnext := ih (h.take hsymm hold hnodup hl hnew hlookup hall)
            (by rw [List.length_append, List.length_singleton]; omega)
          have hwalk : walkComponent R adj cid (fuel + 1) ids members (cur :: queue) =
              walkComponent R adj cid fuel ids' (members ++ [cur]) (queue ++ found) := by
            have hunfold : ∀ next : Table ℕ × List String,
                (R.range .adjacent cur (neighborsIn adj cur)).foldl (fun s e =>
                  if e.1 ∈ s.1 then s else (s.1.insert e.1 cid, s.2 ++ [e.1])) (ids, queue) = next →
                walkComponent R adj cid (fuel + 1) ids members (cur :: queue) =
                  walkComponent R adj cid fuel next.1 (members ++ [cur]) next.2 := by
              rintro next rfl
              rfl
            exact hunfold _ hrun
          rw [hwalk]
          exact hnext

/-- Who is joined to the seed is taken. -/
theorem Walked.mem_iff {ids : Table ℕ} (h : Walked link old cid seed ids members []) {k : String} :
    k ∈ members ↔ ReflTransGen link seed k := by
  have hall : members ++ [] = members := List.append_nil members
  refine ⟨fun hk => h.joined k (hall.symm ▸ hk), fun hk => ?_⟩
  induction hk with
  | refl => exact hall ▸ h.seed
  | tail _ hlink ih => exact hall ▸ h.closed _ ih _ hlink

end Walk

/-! ## All components -/

/-- **What the search comes to**: a number stands for a component, and a
component is what one of the claiming primaries is joined to. -/
structure Parted (gossip : GossipView M) (state : Table ℕ × List (List String)) : Prop where
  lookup : ∀ k cid, state.1.lookup k = some cid ↔ ∃ ms, state.2[cid]? = some ms ∧ k ∈ ms
  mesh : ∀ ms ∈ state.2, ∃ seed ∈ gossip.rfByPrimary, ∀ k, k ∈ ms ↔ Meshed gossip seed k

section Parted

variable {state : Table ℕ × List (List String)} {seed a b : String} {ms : List String} {cid : ℕ}

theorem Parted.meshed_iff (h : Parted gossip state) (hms : ms ∈ state.2) (ha : a ∈ ms) :
    b ∈ ms ↔ Meshed gossip a b := by
  obtain ⟨seed, -, hmesh⟩ := h.mesh ms hms
  have hseed := (hmesh a).1 ha
  exact (hmesh b).trans ⟨fun hb => hseed.symm.trans hb, fun hb => hseed.trans hb⟩

theorem Parted.closed (h : Parted gossip state) (ha : a ∈ state.1) (hab : Meshed gossip a b) :
    state.1.lookup b = state.1.lookup a := by
  obtain ⟨cid, hcid⟩ := Option.isSome_iff_exists.1 (AList.lookup_isSome.2 ha)
  obtain ⟨ms, hms, hin⟩ := (h.lookup a cid).1 hcid
  rw [hcid]
  exact (h.lookup b cid).2 ⟨ms, hms, (h.meshed_iff (List.mem_of_getElem? hms) hin).2 hab⟩

/-- One number, one component. -/
theorem Parted.lookup_eq_iff (h : Parted gossip state) (ha : a ∈ state.1) :
    state.1.lookup b = state.1.lookup a ↔ Meshed gossip a b := by
  refine ⟨fun heq => ?_, h.closed ha⟩
  obtain ⟨cid, hcid⟩ := Option.isSome_iff_exists.1 (AList.lookup_isSome.2 ha)
  obtain ⟨ms, hms, hin⟩ := (h.lookup a cid).1 hcid
  obtain ⟨ms', hms', hin'⟩ := (h.lookup b cid).1 (heq.trans hcid)
  obtain rfl : ms = ms' := Option.some.inj (hms.symm.trans hms')
  exact (h.meshed_iff (List.mem_of_getElem? hms) hin).1 hin'

/-- A walk that was taken adds its component. -/
theorem Parted.add (h : Parted gossip state) (hseed : seed ∈ gossip.rfByPrimary) {ids : Table ℕ}
    (hwalked : Walked (RFLink gossip) state.1 state.2.length seed ids ms []) :
    Parted gossip (ids, state.2 ++ [ms]) := by
  have hlookup : ∀ k, ids.lookup k =
      if k ∈ ms then some state.2.length else state.1.lookup k := by
    intro k
    rw [hwalked.lookup, List.append_nil]
  refine ⟨fun k cid => ?_, fun ms' hms' => ?_⟩
  · simp only [hlookup, List.getElem?_append]
    by_cases hk : k ∈ ms
    · have hold : ∀ cid, ¬ ∃ ms, state.2[cid]? = some ms ∧ k ∈ ms := fun cid hin => by
        have hsome := (h.lookup k cid).2 hin
        exact hwalked.new k (by simpa using hk) (AList.lookup_isSome.1 (by rw [hsome]; rfl))
      rw [if_pos hk]
      constructor
      · intro heq
        obtain rfl : state.2.length = cid := Option.some.inj heq
        exact ⟨ms, by simp, hk⟩
      · rintro ⟨ms', hms', hin⟩
        split at hms'
        · exact absurd ⟨ms', hms', hin⟩ (hold cid)
        · have hzero : cid - state.2.length = 0 := by
            have hlt := (List.getElem?_eq_some_iff.1 hms').1
            simpa using hlt
          have hcid : state.2.length = cid := by omega
          rw [hcid]
    · rw [if_neg hk, h.lookup]
      constructor
      · rintro ⟨ms', hms', hin⟩
        refine ⟨ms', ?_, hin⟩
        rw [if_pos (List.getElem?_eq_some_iff.1 hms').1]
        exact hms'
      · rintro ⟨ms', hms', hin⟩
        split at hms'
        · exact ⟨ms', hms', hin⟩
        · rw [List.mem_singleton.1 (List.mem_of_getElem? hms')] at hin
          exact absurd hin hk
  · rcases List.mem_append.1 hms' with hms' | hms'
    · exact h.mesh ms' hms'
    · rw [List.mem_singleton.1 hms']
      exact ⟨seed, hseed, fun k => hwalked.mem_iff⟩

theorem Parted.start (h : Parted gossip state) (hseed : seed ∈ gossip.rfByPrimary) :
    Parted gossip (startComponent R (buildRFAdjacency R gossip) state seed) ∧
      seed ∈ (startComponent R (buildRFAdjacency R gossip) state seed).1 ∧
      ∀ k ∈ state.1, k ∈ (startComponent R (buildRFAdjacency R gossip) state seed).1 := by
  unfold startComponent
  split
  · next hin => exact ⟨h, hin, fun k hk => hk⟩
  · next hnew =>
    have hadj : ∀ x y, y ∈ neighborsIn (buildRFAdjacency R gossip) x ↔ RFLink gossip x y :=
      fun x y => mem_buildRFAdjacency
    have hwalked := walkComponent_walked (R := R) hadj (fun _ _ => RFLink.symm)
      (fun k hk b hb => by
        rw [← AList.lookup_isSome, h.closed hk (.single hb), AList.lookup_isSome]
        exact hk)
      ((buildRFAdjacency R gossip).keys.length + 1) (Walked.start state.2.length hnew)
      (by rw [List.length_nil, Nat.zero_add])
    refine ⟨h.add hseed hwalked, AList.lookup_isSome.1 ?_, fun k hk => AList.lookup_isSome.1 ?_⟩
    · rw [hwalked.lookup, if_pos hwalked.seed]
      rfl
    · rw [hwalked.lookup]
      split
      · rfl
      · exact AList.lookup_isSome.2 hk

/-- **The search parts the radio graph** in its components, in whatever order
it walks. -/
theorem connectedComponents_parted (R : Runtime M) (gossip : GossipView M) :
    Parted gossip (connectedComponents R (buildRFAdjacency R gossip) gossip) ∧
      ∀ p ∈ gossip.rfByPrimary,
        p ∈ (connectedComponents R (buildRFAdjacency R gossip) gossip).1 := by
  have hfold : ∀ (l : List (String × Table M)) (state : Table ℕ × List (List String)),
      Parted gossip state → (∀ e ∈ l, e.1 ∈ gossip.rfByPrimary) →
      let final := l.foldl (fun state e =>
        startComponent R (buildRFAdjacency R gossip) state e.1) state
      Parted gossip final ∧ (∀ e ∈ l, e.1 ∈ final.1) ∧ ∀ k ∈ state.1, k ∈ final.1 := by
    intro l
    induction l with
    | nil => exact fun state h _ => ⟨h, nofun, fun k hk => hk⟩
    | cons e l ih =>
        intro state h hl
        obtain ⟨hparted, hin, hkeep⟩ := h.start (R := R) (hl e List.mem_cons_self)
        obtain ⟨hfinal, hall, hkeep'⟩ := ih _ hparted fun e' he' => hl e' (List.mem_cons_of_mem e he')
        refine ⟨hfinal, fun e' he' => ?_, fun k hk => hkeep' k (hkeep k hk)⟩
        rcases List.mem_cons.1 he' with rfl | he'
        · exact hkeep' _ hin
        · exact hall e' he'
  have hentry : ∀ p set, (p, set) ∈ R.range .components "" gossip.rfByPrimary ↔
      gossip.rfByPrimary.lookup p = some set := fun _ _ => mem_range (R.order_perm _ _)
  obtain ⟨hparted, hall, -⟩ := hfold (R.range .components "" gossip.rfByPrimary) (∅, [])
    ⟨fun k cid => by simp [AList.lookup_empty], nofun⟩ fun e he => by
      rw [← AList.lookup_isSome, (hentry e.1 e.2).1 he]
      rfl
  refine ⟨hparted, fun p hp => ?_⟩
  obtain ⟨set, hset⟩ := Option.isSome_iff_exists.1 (AList.lookup_isSome.2 hp)
  exact hall (p, set) ((hentry p set).2 hset)

end Parted

end Topology

end OpenManet
