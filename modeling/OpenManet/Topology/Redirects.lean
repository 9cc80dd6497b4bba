import OpenManet.Topology.Gateways
import Mathlib.Algebra.Order.Field.Rat
/-!
# The order of walks: local ends of remote links

A link beyond line of sight may be claimed at both its ends, and a remote
primary may have several local ends. The one with the best metric is kept. Of
two with the same metric the last one read is kept, and an end the remote
primary claims is read after those that claim it.

Here metrics are compared. Those of gossip are never below zero and none of
them is not a number, so their comparisons are those of an order.
-/

namespace OpenManet

namespace Topology

open Table

variable {M : Type} {R : Runtime M} {F : Metrics M}

/-! ## Metrics of gossip -/

/-- A metric a gossip record may come to. -/
def Metrics.Gossiped (F : Metrics M) (x : M) : Prop :=
  x = F.zero ∨ ∃ n, x = F.mbps n ∨ x = F.inverseTQ n

/-- **What gossip metrics are worth**: their comparisons are those of numbers
from zero up. -/
structure Metrics.Worth (F : Metrics M) (value : M → ℚ) : Prop where
  lt : ∀ x y, F.Gossiped x → F.Gossiped y → (F.lt x y = true ↔ value x < value y)
  le : ∀ x y, F.Gossiped x → F.Gossiped y → (F.le x y = true ↔ value x ≤ value y)
  eq : ∀ x y, F.Gossiped x → F.Gossiped y → (F.eq x y = true ↔ x = y)
  inj : ∀ x y, F.Gossiped x → F.Gossiped y → value x = value y → x = y
  zero_le : ∀ x, F.Gossiped x → value F.zero ≤ value x

theorem gossipNeighborMetric_gossiped (n : MeshNeighbor) (algorithm : ℤ) :
    F.Gossiped (gossipNeighborMetric F n algorithm) := by
  unfold gossipNeighborMetric
  split
  · split
    · exact .inr ⟨_, .inl rfl⟩
    · exact .inl rfl
  · split
    · split
      · exact .inr ⟨_, .inr rfl⟩
      · exact .inl rfl
    · exact .inl rfl

theorem addReport_gossiped {target : Table M} {nmac : String} {x : M}
    (h : All (fun _ x => F.Gossiped x) target) (hx : F.Gossiped x) :
    All (fun _ x => F.Gossiped x) (addReport F target nmac x) := by
  unfold addReport
  split
  · exact h.insert hx
  · split
    · exact h.insert hx
    · exact h

theorem classifyGossipNeighbors_gossiped (payload : MeshNeighbors) (primaryByMac : Table String) :
    All (fun _ x => F.Gossiped x) (classifyGossipNeighbors R F payload primaryByMac).1 ∧
      All (fun _ x => F.Gossiped x) (classifyGossipNeighbors R F payload primaryByMac).2 := by
  refine List.foldlRecOn (motive := fun sets : Table M × Table M =>
    All (fun _ x => F.Gossiped x) sets.1 ∧ All (fun _ x => F.Gossiped x) sets.2)
    _ _ ⟨All.empty, All.empty⟩ fun sets hsets n _ => ?_
  have hmetric := gossipNeighborMetric_gossiped (F := F) n payload.algorithm
  simp only
  split
  · exact hsets
  · split
    · exact ⟨hsets.1, addReport_gossiped hsets.2 hmetric⟩
    · split
      · exact hsets
      · exact ⟨addReport_gossiped hsets.1 hmetric, hsets.2⟩

/-- Every metric in the view is one of gossip. -/
structure GossipView.Gossiped (F : Metrics M) (gossip : GossipView M) : Prop where
  rf : All (fun _ set => All (fun _ x => F.Gossiped x) set) gossip.rfByPrimary
  blos : All (fun _ set => All (fun _ x => F.Gossiped x) set) gossip.blosByPrimary

theorem gossip_gossiped (S : Snapshot) : (S.gossip R F).Gossiped F := by
  unfold Snapshot.gossip buildGossipView
  split
  · exact ⟨All.empty, All.empty⟩
  · refine List.foldlRecOn (motive := GossipView.Gossiped F) _ _ ⟨All.empty, All.empty⟩
      fun view h v _ => ?_
    unfold viewEntry
    simp only
    split
    · exact h
    · split
      · exact ⟨h.rf, h.blos⟩
      · obtain ⟨hrf, hblos⟩ := classifyGossipNeighbors_gossiped (R := R) (F := F) _ _
        exact ⟨h.rf.insert hrf, h.blos.insert hblos⟩

/-! ## One remote primary -/

section Ends

variable {value : M → ℚ} {kept : Option (String × M)} {e : String × M} {es : List (String × M)}

/-- What a turn of `consider` makes of the end kept for a remote primary. -/
def keepEnd (F : Metrics M) (kept : Option (String × M)) (e : String × M) : Option (String × M) :=
  match kept with
  | none => some e
  | some (near, best) =>
      if near = e.1 then some (near, if F.lt best e.2 then e.2 else best)
      else if F.lt e.2 best then some (near, best)
      else some e

/-- The new end is kept, being no worse, or the old one is, being better. -/
theorem keepEnd_cases (hworth : F.Worth value) (hkept : ∀ p, kept = some p → F.Gossiped p.2)
    (he : F.Gossiped e.2) :
    (keepEnd F kept e = some e ∧ ∀ p, kept = some p → value p.2 ≤ value e.2) ∨
      ∃ p, kept = some p ∧ keepEnd F kept e = some p ∧ value e.2 < value p.2 := by
  cases kept with
  | none => exact .inl ⟨rfl, nofun⟩
  | some p =>
      have hp := hkept p rfl
      have hle : ∀ q, some p = some q → value p.2 ≤ value e.2 → value q.2 ≤ value e.2 :=
        fun q hq h => Option.some.inj hq ▸ h
      unfold keepEnd
      dsimp only
      split
      · next hnear =>
        by_cases hlt : F.lt p.2 e.2 = true
        · have hvalue := (hworth.lt _ _ hp he).1 hlt
          exact .inl ⟨by rw [if_pos hlt, hnear], fun q hq => hle q hq hvalue.le⟩
        · rw [if_neg hlt]
          have hvalue := not_lt.1 ((hworth.lt _ _ hp he).not.1 hlt)
          rcases hvalue.lt_or_eq with hvalue | hvalue
          · exact .inr ⟨p, rfl, rfl, hvalue⟩
          · have hsame := hworth.inj _ _ he hp hvalue
            refine .inl ⟨?_, fun q hq => hle q hq hvalue.ge⟩
            rw [hnear, ← hsame]
      · split
        · next hlt => exact .inr ⟨p, rfl, rfl, (hworth.lt _ _ he hp).1 hlt⟩
        · next hlt =>
          exact .inl ⟨rfl, fun q hq => hle q hq (not_lt.1 ((hworth.lt _ _ he hp).not.1 hlt))⟩

/-- **What is kept in the end**: one of the ends read, none being better and
none that was kept before; or what was kept before, being better than all. -/
theorem foldl_keepEnd (hworth : F.Worth value) (hkept : ∀ p, kept = some p → F.Gossiped p.2)
    (hes : ∀ e ∈ es, F.Gossiped e.2) :
    (∃ e ∈ es, es.foldl (keepEnd F) kept = some e ∧ (∀ e' ∈ es, value e'.2 ≤ value e.2) ∧
        ∀ p, kept = some p → value p.2 ≤ value e.2) ∨
      (es.foldl (keepEnd F) kept = kept ∧ (kept = none → es = []) ∧
        ∀ p, kept = some p → ∀ e ∈ es, value e.2 < value p.2) := by
  induction es generalizing kept with
  | nil => exact .inr ⟨rfl, fun _ => rfl, nofun⟩
  | cons e es ih =>
      have he := hes e List.mem_cons_self
      have hes' : ∀ e' ∈ es, F.Gossiped e'.2 := fun e' he' => hes e' (List.mem_cons_of_mem e he')
      rw [List.foldl_cons]
      rcases keepEnd_cases hworth hkept he with ⟨hnew, hle⟩ | ⟨p, rfl, hold, hlt⟩
      · rw [hnew]
        rcases @ih (some e) (fun p hp => Option.some.inj hp ▸ he) hes' with
          ⟨e', he', hrun, hmax, hprior⟩ | ⟨hrun, -, hbest⟩
        · refine .inl ⟨e', List.mem_cons_of_mem e he', hrun, fun e'' he'' => ?_,
            fun p hp => (hle p hp).trans (hprior e rfl)⟩
          rcases List.mem_cons.1 he'' with rfl | he''
          · exact hprior _ rfl
          · exact hmax e'' he''
        · refine .inl ⟨e, List.mem_cons_self, hrun, fun e'' he'' => ?_, hle⟩
          rcases List.mem_cons.1 he'' with rfl | he''
          · exact le_rfl
          · exact (hbest e rfl e'' he'').le
      · rw [hold]
        rcases ih hkept hes' with ⟨e', he', hrun, hmax, hprior⟩ | ⟨hrun, -, hbest⟩
        · refine .inl ⟨e', List.mem_cons_of_mem e he', hrun, fun e'' he'' => ?_, hprior⟩
          rcases List.mem_cons.1 he'' with rfl | he''
          · exact hlt.le.trans (hprior p rfl)
          · exact hmax e'' he''
        · refine .inr ⟨hrun, nofun, fun q hq e'' he'' => ?_⟩
          obtain rfl := Option.some.inj hq
          rcases List.mem_cons.1 he'' with rfl | he''
          · exact hlt
          · exact hbest p rfl e'' he''

end Ends

/-! ## The table of ends -/

section Table

variable {segments : Table Segment} {selfPrimary near remote r : String} {x : M}
variable {state : Table String × Table M} {kept : Option (String × M)}

/-- The link is one between a local primary and a remote one. -/
def Eligible (segments : Table Segment) (selfPrimary near remote : String) : Prop :=
  near ≠ "" ∧ remote ≠ "" ∧ near ≠ selfPrimary ∧
    segmentOrDefault segments near = .segmentLocal ∧
      segmentOrDefault segments remote = .segmentRemote

instance : Decidable (Eligible segments selfPrimary near remote) :=
  inferInstanceAs (Decidable (_ ∧ _))

/-- The state keeps this end for a remote primary. -/
structure Keeps (state : Table String × Table M) (r : String) (kept : Option (String × M)) :
    Prop where
  near : state.1.lookup r = kept.map Prod.fst
  best : state.2.lookup r = kept.map Prod.snd

/-- **One turn** of the loop. -/
theorem consider_keeps (segments : Table Segment) (selfPrimary near remote : String)
    {value : M → ℚ} (hworth : F.Worth value) (h : Keeps state r kept)
    (hx : F.Gossiped x) :
    Keeps (consider F segments selfPrimary state near remote x) r
      (if remote = r ∧ Eligible segments selfPrimary near remote then keepEnd F kept (near, x)
        else kept) := by
  by_cases helig : Eligible segments selfPrimary near remote
  case neg =>
    rw [if_neg fun h => helig h.2]
    have hskip : consider F segments selfPrimary state near remote x = state := by
      unfold consider
      simp only
      split
      · rfl
      · next h₁ =>
        split
        · rfl
        · next h₂ =>
          split
          · rfl
          · next h₃ =>
            obtain ⟨hnear, hremote, hself⟩ : near ≠ "" ∧ remote ≠ "" ∧ near ≠ selfPrimary := by
              simpa [not_or] using h₁
            exact absurd ⟨hnear, hremote, hself, not_not.1 h₂, not_not.1 h₃⟩ helig
    rw [hskip]
    exact h
  case pos =>
    obtain ⟨hnear, hremote, hself, hlocal, haway⟩ := helig
    have hbody : consider F segments selfPrimary state near remote x =
        if state.1.lookup remote = some near then
          if F.lt ((state.2.lookup remote).getD F.zero) x then (state.1, state.2.insert remote x)
          else state
        else if F.lt x ((state.2.lookup remote).getD F.zero) then state
        else (state.1.insert remote near, state.2.insert remote x) := by
      unfold consider
      simp [hnear, hremote, hself, hlocal, haway]
    rw [hbody]
    by_cases hr : remote = r
    case neg =>
      have hother : ∀ {α : Type} (m : Table α) (v : α), (m.insert remote v).lookup r = m.lookup r :=
        fun m v => AList.lookup_insert_ne (Ne.symm hr)
      rw [if_neg (c := remote = r ∧ _) fun hboth => hr hboth.1]
      split
      · split
        · exact ⟨h.near, (hother _ _).trans h.best⟩
        · exact h
      · split
        · exact h
        · exact ⟨(hother _ _).trans h.near, (hother _ _).trans h.best⟩
    case pos =>
      subst hr
      rw [if_pos (c := remote = remote ∧ _) ⟨rfl, hnear, hremote, hself, hlocal, haway⟩, h.near,
        h.best]
      cases kept with
      | none =>
          have hzero : F.lt x F.zero = false := by
            rw [Bool.eq_false_iff]
            exact fun hlt => absurd ((hworth.lt _ _ hx (.inl rfl)).1 hlt)
              (not_lt.2 (hworth.zero_le x hx))
          rw [if_neg (by simp)]
          simp only [Option.map_none, Option.getD_none, hzero]
          exact ⟨AList.lookup_insert _, AList.lookup_insert _⟩
      | some p =>
          simp only [Option.map_some, Option.some.injEq, Option.getD_some, keepEnd]
          split
          · split
            · exact ⟨h.near, AList.lookup_insert _⟩
            · exact h
          · split
            · exact h
            · exact ⟨AList.lookup_insert _, AList.lookup_insert _⟩

/-- The ends of a remote primary that a list of claims has. -/
def endsIn (segments : Table Segment) (selfPrimary r : String)
    (near remote : String × String × M → String) (l : List (String × String × M)) :
    List (String × M) :=
  (l.filter fun c => decide (remote c = r ∧ Eligible segments selfPrimary (near c) (remote c))).map
    fun c => (near c, c.2.2)

theorem Keeps.foldl (segments : Table Segment) (selfPrimary : String)
    (near remote : String × String × M → String) {value : M → ℚ} (hworth : F.Worth value)
    {l : List (String × String × M)} (hl : ∀ c ∈ l, F.Gossiped c.2.2) (h : Keeps state r kept) :
    Keeps (l.foldl (fun state c =>
        consider F segments selfPrimary state (near c) (remote c) c.2.2) state) r
      ((endsIn segments selfPrimary r near remote l).foldl (keepEnd F) kept) := by
  induction l generalizing state kept with
  | nil => exact h
  | cons c l ih =>
      have hturn := consider_keeps segments selfPrimary (near c) (remote c) hworth h
        (hl c List.mem_cons_self)
      have hrest := ih (fun c' hc' => hl c' (List.mem_cons_of_mem c hc')) hturn
      unfold endsIn at hrest ⊢
      by_cases hc : remote c = r ∧ Eligible segments selfPrimary (near c) (remote c)
      · rw [if_pos hc] at hrest
        rw [List.filter_cons_of_pos (by simpa using hc)]
        exact hrest
      · rw [if_neg hc] at hrest
        rw [List.filter_cons_of_neg (by simpa using hc)]
        exact hrest

end Table

/-! ## Ties -/

section Ties

variable {value : M → ℚ} {gossip : GossipView M} {segments : Table Segment}
variable {selfPrimary r : String} {e e' : String × M} {o o' : Option (String × M)}

/-- A local primary that claims the remote one, and the metric it claims. -/
def NearEnd (gossip : GossipView M) (segments : Table Segment) (selfPrimary r : String)
    (e : String × M) : Prop :=
  Eligible segments selfPrimary e.1 r ∧ (gossip.blosOf e.1).lookup r = some e.2

/-- A local primary the remote one claims, and the metric it claims. -/
def RemoteEnd (gossip : GossipView M) (segments : Table Segment) (selfPrimary r : String)
    (e : String × M) : Prop :=
  Eligible segments selfPrimary e.1 r ∧ (gossip.blosOf r).lookup e.1 = some e.2

/-- No remote primary has two best ends: among those it claims, or else among
those that claim it. -/
structure RedirectsUntied (value : M → ℚ) (gossip : GossipView M) (segments : Table Segment)
    (selfPrimary : String) : Prop where
  remote : ∀ r e e', RemoteEnd gossip segments selfPrimary r e →
    RemoteEnd gossip segments selfPrimary r e' → value e.2 = value e'.2 →
    (∀ p, NearEnd gossip segments selfPrimary r p → value p.2 ≤ value e.2) →
    (∀ p, RemoteEnd gossip segments selfPrimary r p → value p.2 ≤ value e.2) → e.1 = e'.1
  near : ∀ r e e', NearEnd gossip segments selfPrimary r e →
    NearEnd gossip segments selfPrimary r e' → value e.2 = value e'.2 →
    (∀ p, NearEnd gossip segments selfPrimary r p → value p.2 ≤ value e.2) →
    (∀ p, RemoteEnd gossip segments selfPrimary r p → value p.2 < value e.2) → e.1 = e'.1

/-- The end that is kept for a remote primary, if one is. -/
inductive Kept (value : M → ℚ) (gossip : GossipView M) (segments : Table Segment)
    (selfPrimary r : String) : Option (String × M) → Prop
  | remote {e : String × M} (he : RemoteEnd gossip segments selfPrimary r e)
      (hnear : ∀ p, NearEnd gossip segments selfPrimary r p → value p.2 ≤ value e.2)
      (hremote : ∀ p, RemoteEnd gossip segments selfPrimary r p → value p.2 ≤ value e.2) :
      Kept value gossip segments selfPrimary r (some e)
  | near {e : String × M} (he : NearEnd gossip segments selfPrimary r e)
      (hnear : ∀ p, NearEnd gossip segments selfPrimary r p → value p.2 ≤ value e.2)
      (hremote : ∀ p, RemoteEnd gossip segments selfPrimary r p → value p.2 < value e.2) :
      Kept value gossip segments selfPrimary r (some e)
  | none (hnear : ∀ p, ¬ NearEnd gossip segments selfPrimary r p)
      (hremote : ∀ p, ¬ RemoteEnd gossip segments selfPrimary r p) :
      Kept value gossip segments selfPrimary r .none

/-- **The same end is kept**, where no two tie. -/
theorem Kept.unique (huntied : RedirectsUntied value gossip segments selfPrimary)
    (h : Kept value gossip segments selfPrimary r o)
    (h' : Kept value gossip segments selfPrimary r o') : o.map Prod.fst = o'.map Prod.fst := by
  cases h with
  | @remote e he hnear hremote =>
      cases h' with
      | @remote e' he' hnear' hremote' =>
          exact congrArg some (huntied.remote r e e' he he' (le_antisymm (hremote' e he)
            (hremote e' he')) hnear hremote)
      | @near e' he' hnear' hremote' =>
          exact absurd (hnear e' he') (not_le.2 (hremote' e he))
      | none hnear' hremote' => exact absurd he (hremote' e)
  | @near e he hnear hremote =>
      cases h' with
      | @remote e' he' hnear' hremote' =>
          exact absurd (hnear' e he) (not_le.2 (hremote e' he'))
      | @near e' he' hnear' hremote' =>
          exact congrArg some (huntied.near r e e' he he' (le_antisymm (hnear' e he)
            (hnear e' he')) hnear hremote)
      | none hnear' hremote' => exact absurd he (hnear' e)
  | none hnear hremote =>
      cases h' with
      | @remote e' he' => exact absurd he' (hremote e')
      | @near e' he' => exact absurd he' (hnear e')
      | none => rfl

/-- The ends two passes keep, before those that are no gateways are dropped. -/
def endsKept (R : Runtime M) (F : Metrics M) (gossip : GossipView M) (segments : Table Segment)
    (selfPrimary : String) : Table String × Table M :=
  (claims R .blosRemote .blosRemoteNeighbors gossip.blosByPrimary).foldl
    (fun state c => consider F segments selfPrimary state c.2.1 c.1 c.2.2)
    ((claims R .blosLocal .blosLocalNeighbors gossip.blosByPrimary).foldl
      (fun state c => consider F segments selfPrimary state c.1 c.2.1 c.2.2) (∅, ∅))

theorem mem_endsIn_near (outer inner : Site) : e ∈ endsIn segments selfPrimary r Prod.fst
      (fun c => c.2.1) (claims R outer inner gossip.blosByPrimary) ↔
    NearEnd gossip segments selfPrimary r e := by
  simp only [endsIn, List.mem_map, List.mem_filter, decide_eq_true_eq, Prod.exists, mem_claims_iff]
  constructor
  · rintro ⟨a, b, x, ⟨hclaim, rfl, helig⟩, rfl⟩
    exact ⟨helig, hclaim⟩
  · rintro ⟨helig, hclaim⟩
    exact ⟨e.1, r, e.2, ⟨hclaim, rfl, helig⟩, rfl⟩

theorem mem_endsIn_remote (outer inner : Site) : e ∈ endsIn segments selfPrimary r
      (fun c => c.2.1) Prod.fst (claims R outer inner gossip.blosByPrimary) ↔
    RemoteEnd gossip segments selfPrimary r e := by
  simp only [endsIn, List.mem_map, List.mem_filter, decide_eq_true_eq, Prod.exists, mem_claims_iff]
  constructor
  · rintro ⟨a, b, x, ⟨hclaim, rfl, helig⟩, rfl⟩
    exact ⟨helig, hclaim⟩
  · rintro ⟨helig, hclaim⟩
    exact ⟨r, e.1, e.2, ⟨hclaim, rfl, helig⟩, rfl⟩

/-- Claims of the view have metrics of gossip. -/
theorem claims_gossiped (R : Runtime M) (hgossip : gossip.Gossiped F) (outer inner : Site) :
    ∀ c ∈ claims R outer inner gossip.blosByPrimary, F.Gossiped c.2.2 := by
  rintro ⟨a, b, x⟩ hc
  obtain ⟨set, ha, hb⟩ := mem_claims.1 hc
  exact hgossip.blos a set ha b x hb

theorem endsIn_gossiped (R : Runtime M) (segments : Table Segment) (selfPrimary r : String)
    (hgossip : gossip.Gossiped F) (near remote : String × String × M → String)
    (outer inner : Site) : ∀ e ∈ endsIn segments selfPrimary r near remote
      (claims R outer inner gossip.blosByPrimary), F.Gossiped e.2 := by
  intro e he
  obtain ⟨c, hc, rfl⟩ := List.mem_map.1 he
  exact claims_gossiped R hgossip _ _ c (List.mem_filter.1 hc).1

/-- The two passes, at one remote primary. -/
theorem lookup_endsKept (segments : Table Segment) (selfPrimary : String)
    (hworth : F.Worth value) (hgossip : gossip.Gossiped F) (r : String) :
    (endsKept R F gossip segments selfPrimary).1.lookup r =
      ((endsIn segments selfPrimary r (fun c => c.2.1) Prod.fst
        (claims R .blosRemote .blosRemoteNeighbors gossip.blosByPrimary)).foldl (keepEnd F)
        ((endsIn segments selfPrimary r Prod.fst (fun c => c.2.1)
          (claims R .blosLocal .blosLocalNeighbors gossip.blosByPrimary)).foldl (keepEnd F)
            none)).map Prod.fst := by
  have hstart : Keeps ((∅, ∅) : Table String × Table M) r none :=
    ⟨AList.lookup_empty r, AList.lookup_empty r⟩
  have hnear := hstart.foldl segments selfPrimary Prod.fst (fun c => c.2.1) hworth
    (claims_gossiped R hgossip .blosLocal .blosLocalNeighbors)
  exact (hnear.foldl segments selfPrimary (fun c => c.2.1) Prod.fst hworth
    (claims_gossiped R hgossip .blosRemote .blosRemoteNeighbors)).near

/-- **What the two passes keep** for a remote primary. -/
theorem endsKept_kept (segments : Table Segment) (selfPrimary : String)
    (hworth : F.Worth value) (hgossip : gossip.Gossiped F) (r : String) :
    ∃ o, Kept value gossip segments selfPrimary r o ∧
      (endsKept R F gossip segments selfPrimary).1.lookup r = o.map Prod.fst := by
  have hends : ∀ near remote outer inner, ∀ e ∈ endsIn segments selfPrimary r near remote
      (claims R outer inner gossip.blosByPrimary), F.Gossiped e.2 :=
    endsIn_gossiped R segments selfPrimary r hgossip
  refine ⟨_, ?_, lookup_endsKept segments selfPrimary hworth hgossip r⟩
  have hfirst := foldl_keepEnd hworth
    (fun p (hp : none = some p) => absurd hp (Option.some_ne_none p).symm)
    (hends Prod.fst (fun c => c.2.1) .blosLocal .blosLocalNeighbors)
  revert hfirst
  generalize hprior : (endsIn segments selfPrimary r Prod.fst (fun c => c.2.1) (claims R .blosLocal
    .blosLocalNeighbors gossip.blosByPrimary)).foldl (keepEnd F) none = prior
  intro hfirst
  have hpriorGossiped : ∀ p, prior = some p → F.Gossiped p.2 := by
    rintro p rfl
    rcases hfirst with ⟨e, he, heq, -⟩ | ⟨heq, -⟩
    · obtain rfl := Option.some.inj heq
      exact hends _ _ _ _ _ he
    · cases heq
  rcases foldl_keepEnd hworth hpriorGossiped
    (hends (fun c => c.2.1) Prod.fst .blosRemote .blosRemoteNeighbors) with
    ⟨e, he, hrun, hmax, hle⟩ | ⟨hrun, hempty, hbest⟩
  · rw [hrun]
    refine .remote ((mem_endsIn_remote _ _).1 he) (fun p hp => ?_)
      fun p hp => hmax p ((mem_endsIn_remote _ _).2 hp)
    have hin := (mem_endsIn_near (R := R) .blosLocal .blosLocalNeighbors).2 hp
    rcases hfirst with ⟨e', he', heq, hmax', -⟩ | ⟨-, hnone, -⟩
    · exact (hmax' p hin).trans (hle e' heq)
    · rw [hnone rfl] at hin
      cases hin
  · rw [hrun]
    rcases hfirst with ⟨e', he', rfl, hmax', -⟩ | ⟨rfl, hnone, -⟩
    · exact .near ((mem_endsIn_near _ _).1 he') (fun p hp => hmax' p ((mem_endsIn_near _ _).2 hp))
        fun p hp => hbest e' rfl p ((mem_endsIn_remote _ _).2 hp)
    · refine .none (fun p hp => ?_) fun p hp => ?_
      · have hin := (mem_endsIn_near (R := R) .blosLocal .blosLocalNeighbors).2 hp
        rw [hnone rfl] at hin
        cases hin
      · have hin := (mem_endsIn_remote (R := R) .blosRemote .blosRemoteNeighbors).2 hp
        rw [hempty rfl] at hin
        cases hin

theorem localBlosGatewayByRemote_eq (gwMacs gossipGwMacs : List String) :
    localBlosGatewayByRemote R F gossip segments gwMacs gossipGwMacs selfPrimary =
      if gwMacs.isEmpty ∧ gossipGwMacs.isEmpty then
        (endsKept R F gossip segments selfPrimary).1
      else (endsKept R F gossip segments selfPrimary).1.keys.foldl (fun out remote =>
        if (endsKept R F gossip segments selfPrimary).1.get remote ∈ gwMacs ∨
          (endsKept R F gossip segments selfPrimary).1.get remote ∈ gossipGwMacs then out
        else out.erase remote) (endsKept R F gossip segments selfPrimary).1 := by
  have hkept : endsKept R F gossip segments selfPrimary =
      (R.range .blosRemote "" gossip.blosByPrimary).foldl (fun state e =>
        (R.range .blosRemoteNeighbors e.1 e.2).foldl (fun state n =>
          consider F segments selfPrimary state n.1 e.1 n.2) state)
        ((R.range .blosLocal "" gossip.blosByPrimary).foldl (fun state e =>
          (R.range .blosLocalNeighbors e.1 e.2).foldl (fun state n =>
            consider F segments selfPrimary state e.1 n.1 n.2) state) (∅, ∅)) := by
    rw [foldl_claims (fun state remote n => consider F segments selfPrimary state n.1 remote n.2),
      foldl_claims (fun state near n => consider F segments selfPrimary state near n.1 n.2)]
    rfl
  rw [hkept]
  rfl

/-- **The local ends** are the same in every order, where no two tie. -/
theorem localBlosGatewayByRemote_same {order : Site → String → List String → List String}
    (horder : ∀ site about keys, (order site about keys).Perm keys) (hworth : F.Worth value)
    (hgossip : gossip.Gossiped F) (huntied : RedirectsUntied value gossip segments selfPrimary)
    (gwMacs gossipGwMacs : List String) :
    Same (localBlosGatewayByRemote (R.reordered order horder) F gossip segments gwMacs gossipGwMacs
        selfPrimary)
      (localBlosGatewayByRemote R F gossip segments gwMacs gossipGwMacs selfPrimary) := by
  have hends : Same (endsKept (R.reordered order horder) F gossip segments selfPrimary).1
      (endsKept R F gossip segments selfPrimary).1 := by
    intro r
    obtain ⟨o, hkept, hlookup⟩ := endsKept_kept segments selfPrimary (R := R) hworth hgossip r
    obtain ⟨o', hkept', hlookup'⟩ := endsKept_kept segments selfPrimary
      (R := R.reordered order horder) hworth hgossip r
    rw [hlookup, hlookup', hkept'.unique huntied hkept]
  rw [localBlosGatewayByRemote_eq, localBlosGatewayByRemote_eq]
  split
  · exact hends
  · simp only [hends.get]
    refine foldl_same (g := fun k o remote =>
      if (endsKept R F gossip segments selfPrimary).1.get remote ∈ gwMacs ∨
        (endsKept R F gossip segments selfPrimary).1.get remote ∈ gossipGwMacs then o
      else if k = remote then none else o) hends hends.keys_perm (fun k m remote _ => ?_)
      fun k o remote _ remote' _ => ?_
    · split
      · rfl
      · split
        · next hk => rw [hk, AList.lookup_erase]
        · next hk => exact AList.lookup_erase_ne hk
    · split_ifs <;> rfl

end Ties

end Topology

end OpenManet
