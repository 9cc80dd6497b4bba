import OpenManet.Bridge.Hub
/-!
# The web bridge — who is in the hub

A client's channel is closed as the client leaves the set, under the write
lock, and sent on only by a walk that met the client in the set, under the
read lock. So no channel is closed twice or sent on after it is closed,
whatever the order of the queues.

The set itself depends on that order. A connection may break at once, and
its two requests then wait in two queues; a loop that takes the removal first
finds nothing to remove, and puts the client in afterwards, for good.
`InOrder` names this one order.
-/

namespace OpenManet

namespace Hub

open Bridge

variable {ClientId : Type} [DecidableEq ClientId]
variable {s t : State ClientId} {c d : ClientId}

/-- What membership comes to in a state: a channel is closed at most once and
not sent on later, and a client that has come and gone is not in the set. -/
structure Membership (s : State ClientId) : Prop where
  closedOnce : ∀ c, s.log.count (.closed c) ≤ 1
  sentBefore : ∀ c newer older, s.log = newer ++ .sent c :: older → .closed c ∉ older
  left : ∀ c, .registered c ∈ s.log → .unregistered c ∈ s.log → c ∉ s.clients

/-- The loop does not take a client's `Register` when it has already taken an
`Unregister` of that client. -/
def InOrder (s : State ClientId) : Action ClientId → Prop
  | .takeRegister => ∀ c, s.register.head? = some c → .unregistered c ∉ s.log
  | _ => True

/-! ## The invariant -/

/-- The connection has not queued its `Register`. -/
def Conn.newcomer : Conn → Bool
  | .absent | .registering => true
  | _ => false

/-- What every step keeps: a client is queued once and enters the set once,
the channels of the set are open, and a walk has only members ahead of it. -/
structure Inv (s : State ClientId) : Prop where
  newcomer : ∀ c, (s.conn c).newcomer = true → .registered c ∉ s.log ∧ c ∉ s.register
  queued : ∀ c ∈ s.register, .registered c ∉ s.log
  nodup : s.register.Nodup
  member : ∀ c ∈ s.clients, .registered c ∈ s.log ∧ s.closed c = false
  entered : ∀ c, s.closed c = true → .registered c ∈ s.log
  walks : ∀ w ∈ s.walks, w.ahead ⊆ s.clients
  walk : ∀ w, s.run = .walking w → w.ahead ⊆ s.clients
  alone : s.run.locks = true → s.walks = []
  count : ∀ c, s.log.count (.closed c) = if s.closed c then 1 else 0
  order : s.log.Pairwise fun newer older => ∀ c, newer = .sent c → older ≠ .closed c

theorem inv_newHub : Inv (newHub : State ClientId) where
  newcomer := fun _ _ => ⟨List.not_mem_nil, List.not_mem_nil⟩
  queued := fun _ h => absurd h List.not_mem_nil
  nodup := List.nodup_nil
  member := fun c h => absurd h (Finset.notMem_empty c)
  entered := fun _ h => absurd h (by simp [newHub])
  walks := fun _ h => absurd h List.not_mem_nil
  walk := fun _ h => by cases h
  alone := fun _ => rfl
  count := fun _ => rfl
  order := List.Pairwise.nil

/-- A step that leaves the set, the register queue, the channels and the
record alone. -/
theorem Inv.quiet (h : Inv s) (hclients : t.clients = s.clients)
    (hregister : t.register = s.register) (hclosed : t.closed = s.closed) (hlog : t.log = s.log)
    (hconn : ∀ c, (t.conn c).newcomer = true → (s.conn c).newcomer = true)
    (hwalks : ∀ w ∈ t.walks, w.ahead ⊆ s.clients)
    (hrun : ∀ w, t.run = .walking w → w.ahead ⊆ s.clients)
    (halone : t.run.locks = true → t.walks = []) : Inv t where
  newcomer := fun c hc => by rw [hlog, hregister]; exact h.newcomer c (hconn c hc)
  queued := by rw [hlog, hregister]; exact h.queued
  nodup := hregister ▸ h.nodup
  member := by rw [hlog, hclients, hclosed]; exact h.member
  entered := by rw [hlog, hclosed]; exact h.entered
  walks := by rw [hclients]; exact hwalks
  walk := by rw [hclients]; exact hrun
  alone := halone
  count := by rw [hlog, hclosed]; exact h.count
  order := hlog ▸ h.order

/-- A connection moves on from where it stands. -/
theorem Inv.conn (h : Inv s) {k : Conn} (hk : k.newcomer = true → (s.conn d).newcomer = true) :
    Inv { s with conn := Function.update s.conn d k } := by
  refine h.quiet rfl rfl rfl rfl (fun c hc => ?_) h.walks h.walk h.alone
  by_cases hcd : c = d
  · subst hcd
    exact hk (by simpa using hc)
  · simpa [hcd] using hc

/-- What neither lets a client in nor closes a channel may be recorded. -/
theorem Inv.record (h : Inv s) {r : Record ClientId} {unregister : List ClientId}
    {buffer : ClientId → List (List UInt8)} (hregistered : ∀ d, r ≠ .registered d)
    (hclosed : ∀ d, r ≠ .closed d) (hsent : ∀ d, r = .sent d → .closed d ∉ s.log) :
    Inv { s with unregister, send := buffer, log := r :: s.log } where
  newcomer := fun d hd => ⟨fun hmem => (h.newcomer d hd).1
    ((List.mem_cons.1 hmem).resolve_left fun heq => hregistered d heq.symm), (h.newcomer d hd).2⟩
  queued := fun d hd hmem => h.queued d hd
    ((List.mem_cons.1 hmem).resolve_left fun heq => hregistered d heq.symm)
  nodup := h.nodup
  member := fun d hd => ⟨List.mem_cons_of_mem _ (h.member d hd).1, (h.member d hd).2⟩
  entered := fun d hd => List.mem_cons_of_mem _ (h.entered d hd)
  walks := h.walks
  walk := h.walk
  alone := h.alone
  count := fun d => by rw [List.count_cons_of_ne (hclosed d)]; exact h.count d
  order := List.pairwise_cons.2 ⟨fun _ hr d hd heq => hsent d hd (heq ▸ hr), h.order⟩

/-- A frame is sent to a member. -/
theorem Inv.sent (h : Inv s) (hc : c ∈ s.clients) {buffer : ClientId → List (List UInt8)} :
    Inv { s with send := buffer, log := .sent c :: s.log } := by
  have hopen : .closed c ∉ s.log := by
    have hzero := h.count c
    rw [(h.member c hc).2] at hzero
    exact List.count_eq_zero.1 hzero
  refine h.record nofun nofun fun d hd => ?_
  obtain rfl : c = d := by injection hd
  exact hopen

/-- A walk comes to a member. -/
theorem Inv.come (h : Inv s) (w : Walk ClientId) (hc : c ∈ s.clients) : Inv (s.come w c) := by
  unfold State.come State.offer State.evict
  split
  · split
    · rename_i _ hclosed
      rw [(h.member c hc).2] at hclosed
      cases hclosed
    · split
      · exact h.sent hc
      · split <;> exact h.quiet rfl rfl rfl rfl (fun _ => id) h.walks h.walk h.alone
  · exact h

/-- A walk writes buffers, the removal queue and the record. -/
theorem come_frame (s : State ClientId) (w : Walk ClientId) (c : ClientId) :
    (s.come w c).clients = s.clients ∧ (s.come w c).walks = s.walks ∧ (s.come w c).run = s.run ∧
      (s.come w c).register = s.register ∧
      ((s.come w c).log = s.log ∨ (s.come w c).log = .sent c :: s.log) := by
  unfold State.come State.offer State.evict
  split
  · split
    · exact ⟨rfl, rfl, rfl, rfl, .inr rfl⟩
    · split
      · exact ⟨rfl, rfl, rfl, rfl, .inr rfl⟩
      · split <;> exact ⟨rfl, rfl, rfl, rfl, .inl rfl⟩
  · exact ⟨rfl, rfl, rfl, rfl, .inl rfl⟩

/-- A member is dropped while nobody walks. -/
theorem Inv.drop (h : Inv s) (hc : c ∈ s.clients) (hwalks : s.walks = [])
    (hrun : ∀ w, s.run ≠ .walking w) : Inv (s.drop c) where
  newcomer := fun d hd => ⟨by simpa [State.drop] using (h.newcomer d hd).1, (h.newcomer d hd).2⟩
  queued := fun d hd => by simpa [State.drop] using h.queued d hd
  nodup := h.nodup
  member := fun d hd => by
    obtain ⟨hne, hmem⟩ := Finset.mem_erase.1 hd
    refine ⟨List.mem_cons_of_mem _ (h.member d hmem).1, ?_⟩
    exact (Function.update_of_ne hne ..).trans (h.member d hmem).2
  entered := fun d hd => by
    by_cases hdc : d = c
    · exact List.mem_cons_of_mem _ (hdc ▸ (h.member c hc).1)
    · exact List.mem_cons_of_mem _ (h.entered d ((Function.update_of_ne hdc ..).symm.trans hd))
  walks := fun w hw => by
    change w ∈ s.walks at hw
    rw [hwalks] at hw
    cases hw
  walk := fun w hw => absurd hw (hrun w)
  alone := fun _ => hwalks
  count := fun d => by
    by_cases hdc : d = c
    · subst hdc
      have hzero := h.count d
      rw [(h.member d hc).2] at hzero
      simpa [State.drop] using hzero
    · have hne : (Record.closed c : Record ClientId) ≠ .closed d := by simpa using Ne.symm hdc
      simpa [State.drop, List.count_cons_of_ne hne, hdc] using h.count d
  order := List.pairwise_cons.2 ⟨fun _ _ _ hd => (by cases hd), h.order⟩

/-! ## One step -/

theorem Inv.step {a : Action ClientId} (h : Inv s) (hstep : Hub.step s a = some t) : Inv t := by
  cases a with
  | accept c =>
      obtain ⟨hc, heq⟩ := Option.ite_none_right_eq_some.1 hstep
      obtain rfl := Option.some.inj heq
      exact h.conn fun _ => by rw [hc]; rfl
  | register c =>
      obtain ⟨⟨hc, -⟩, heq⟩ := Option.ite_none_right_eq_some.1 hstep
      obtain rfl := Option.some.inj heq
      obtain ⟨hnew, hout⟩ := h.newcomer c (by rw [hc]; rfl)
      have hothers : ∀ d, ((Function.update s.conn c .live) d).newcomer = true →
          d ≠ c ∧ (s.conn d).newcomer = true := by
        intro d hd
        by_cases hdc : d = c
        · subst hdc
          rw [Function.update_self] at hd
          cases hd
        · exact ⟨hdc, by simpa [hdc] using hd⟩
      exact { h with
        newcomer := fun d hd => by
          obtain ⟨hdc, hd⟩ := hothers d hd
          exact ⟨(h.newcomer d hd).1, by simpa [hdc] using (h.newcomer d hd).2⟩
        queued := fun d hd => by
          rcases List.mem_append.1 hd with hd | hd
          · exact h.queued d hd
          · rw [List.mem_singleton.1 hd]
            exact hnew
        nodup := List.nodup_append.2 ⟨h.nodup, List.nodup_singleton c, by
          intro d hd e he hde
          rw [List.mem_singleton.1 he] at hde
          exact hout (hde ▸ hd)⟩ }
  | message c data =>
      obtain ⟨-, heq⟩ := Option.ite_none_right_eq_some.1 hstep
      obtain rfl := Option.some.inj heq
      exact h.quiet rfl rfl rfl rfl (fun _ => id) h.walks h.walk h.alone
  | readEnd c =>
      obtain ⟨-, heq⟩ := Option.ite_none_right_eq_some.1 hstep
      obtain rfl := Option.some.inj heq
      exact h.conn nofun
  | unregister c =>
      obtain ⟨-, heq⟩ := Option.ite_none_right_eq_some.1 hstep
      obtain rfl := Option.some.inj heq
      have hgone : Inv { s with conn := Function.update s.conn c .gone } := h.conn nofun
      exact hgone.quiet rfl rfl rfl rfl (fun _ => id) h.walks h.walk h.alone
  | help c =>
      obtain ⟨-, heq⟩ := Option.ite_none_right_eq_some.1 hstep
      obtain rfl := Option.some.inj heq
      exact h.quiet rfl rfl rfl rfl (fun _ => id) h.walks h.walk h.alone
  | write c =>
      simp only [Hub.step] at hstep
      split at hstep
      · cases hstep
      · obtain rfl := Option.some.inj hstep
        exact h.quiet rfl rfl rfl rfl (fun _ => id) h.walks h.walk h.alone
  | broadcastRaw frame =>
      obtain ⟨-, heq⟩ := Option.ite_none_right_eq_some.1 hstep
      obtain rfl := Option.some.inj heq
      exact h.quiet rfl rfl rfl rfl (fun _ => id) h.walks h.walk h.alone
  | takeRegister =>
      simp only [Hub.step] at hstep
      split at hstep
      case h_2 => cases hstep
      rename_i c rest hrun hwalks hregister
      obtain rfl := Option.some.inj hstep
      have hnodup := hregister ▸ h.nodup
      have hnew := h.queued c (hregister ▸ List.mem_cons_self)
      refine {
        newcomer := fun d hd => ?_
        queued := fun d hd => ?_
        nodup := (List.nodup_cons.1 hnodup).2
        member := fun d hd => ?_
        entered := fun d hd => List.mem_cons_of_mem _ (h.entered d hd)
        walks := fun w hw => (h.walks w hw).trans (Finset.subset_insert ..)
        walk := fun w hw => (h.walk w hw).trans (Finset.subset_insert ..)
        alone := h.alone
        count := fun d => ?_
        order := List.pairwise_cons.2 ⟨fun _ _ _ hd => (by cases hd), h.order⟩ }
      · obtain ⟨hlog, hout⟩ := h.newcomer d hd
        rw [hregister, List.mem_cons, not_or] at hout
        exact ⟨by simpa [hout.1] using hlog, hout.2⟩
      · have hdc : d ≠ c := by
          rintro rfl
          exact (List.nodup_cons.1 hnodup).1 hd
        simpa [hdc] using h.queued d (hregister ▸ List.mem_cons_of_mem c hd)
      · rcases Finset.mem_insert.1 hd with rfl | hd
        · refine ⟨List.mem_cons_self, ?_⟩
          by_contra hclosed
          exact hnew (h.entered d (by simpa using hclosed))
        · exact ⟨List.mem_cons_of_mem _ (h.member d hd).1, (h.member d hd).2⟩
      · rw [List.count_cons_of_ne (by simp)]
        exact h.count d
  | takeUnregister =>
      simp only [Hub.step] at hstep
      split at hstep
      case h_2 => cases hstep
      rename_i c rest hrun hwalks hunregister
      have htaken : Inv { s with unregister := rest, log := .unregistered c :: s.log } :=
        h.record nofun nofun nofun
      obtain rfl := Option.some.inj hstep
      split
      · rename_i hc
        refine htaken.drop hc hwalks fun w hw => ?_
        rw [show s.run = .walking w from hw] at hrun
        cases hrun
      · exact htaken
  | takeBroadcast =>
      simp only [Hub.step] at hstep
      split at hstep
      case h_2 => cases hstep
      obtain rfl := Option.some.inj hstep
      refine h.quiet rfl rfl rfl rfl (fun _ => id) h.walks (fun w hw => ?_) nofun
      obtain rfl : _ = w := by injection hw
      exact Finset.Subset.refl _
  | deliver c =>
      simp only [Hub.step] at hstep
      split at hstep
      case h_2 => cases hstep
      rename_i w hrun
      obtain ⟨hc, heq⟩ := Option.ite_none_right_eq_some.1 hstep
      obtain rfl := Option.some.inj heq
      have hahead := h.walk w hrun
      obtain ⟨hclients, -, -, -, -⟩ := come_frame s w c
      have hcome := h.come w (hahead hc)
      refine hcome.quiet rfl rfl rfl rfl (fun _ => id) hcome.walks (fun v hv => ?_) nofun
      obtain rfl : _ = v := by injection hv
      rw [hclients]
      exact (Finset.erase_subset ..).trans hahead
  | delivered | closed =>
      simp only [Hub.step] at hstep
      split at hstep
      case h_2 => cases hstep
      obtain ⟨-, heq⟩ := Option.ite_none_right_eq_some.1 hstep
      obtain rfl := Option.some.inj heq
      exact h.quiet rfl rfl rfl rfl (fun _ => id) h.walks nofun nofun
  | shutdown =>
      simp only [Hub.step] at hstep
      split at hstep
      case h_2 => cases hstep
      rename_i hwalks
      obtain rfl := Option.some.inj hstep
      exact h.quiet rfl rfl rfl rfl (fun _ => id) h.walks nofun fun _ => hwalks
  | close c =>
      simp only [Hub.step] at hstep
      split at hstep
      case h_2 => cases hstep
      rename_i hrun
      obtain ⟨hc, heq⟩ := Option.ite_none_right_eq_some.1 hstep
      obtain rfl := Option.some.inj heq
      refine h.drop hc (h.alone (by rw [hrun]; rfl)) fun w hw => ?_
      rw [hrun] at hw
      cases hw
  | broadcastAudioRX channel frame | relayToOthers sender frame =>
      obtain ⟨hfree, heq⟩ := Option.ite_none_left_eq_some.1 hstep
      obtain rfl := Option.some.inj heq
      refine h.quiet rfl rfl rfl rfl (fun _ => id) (fun w hw => ?_) h.walk
        fun hlock => absurd hlock hfree
      rcases List.mem_append.1 hw with hw | hw
      · exact h.walks w hw
      · rw [List.mem_singleton.1 hw]
  | visit i c =>
      simp only [Hub.step] at hstep
      split at hstep
      case h_2 => cases hstep
      rename_i w hget
      obtain ⟨hc, heq⟩ := Option.ite_none_right_eq_some.1 hstep
      obtain rfl := Option.some.inj heq
      have hmem := List.mem_of_getElem? hget
      have hahead := h.walks w hmem
      obtain ⟨hclients, hwalks, hrun, -, -⟩ := come_frame s w c
      have hcome := h.come w (hahead hc)
      refine hcome.quiet rfl rfl rfl rfl (fun _ => id) (fun v hv => ?_) hcome.walk fun hlock => ?_
      · rw [hclients]
        rcases List.mem_or_eq_of_mem_set hv with hv | rfl
        · exact h.walks v hv
        · exact (Finset.erase_subset ..).trans hahead
      · -- nobody walks while the loop holds the write lock
        have hnone := h.alone (hrun ▸ hlock)
        rw [hnone] at hmem
        cases hmem
  | visited i =>
      simp only [Hub.step] at hstep
      split at hstep
      case h_2 => cases hstep
      rename_i w hget
      obtain ⟨-, heq⟩ := Option.ite_none_right_eq_some.1 hstep
      obtain rfl := Option.some.inj heq
      refine h.quiet rfl rfl rfl rfl (fun _ => id)
        (fun v hv => h.walks v (List.mem_of_mem_eraseIdx hv)) h.walk fun hlock => ?_
      have hmem := List.mem_of_getElem? hget
      rw [h.alone hlock] at hmem
      cases hmem

/-! ## Who has left -/

/-- A step takes members out, and records neither a `Register` nor an
`Unregister`, unless it takes one. -/
theorem step_members {a : Action ClientId} (h : Hub.step s a = some t) :
    (t.clients ⊆ s.clients ∧ ∀ c, (.registered c ∈ t.log ↔ .registered c ∈ s.log) ∧
      (.unregistered c ∈ t.log ↔ .unregistered c ∈ s.log)) ∨
    (∃ c rest, a = .takeRegister ∧ s.register = c :: rest ∧ t.clients = insert c s.clients ∧
      t.log = .registered c :: s.log) ∨
    ∃ c, t.clients = s.clients.erase c ∧
      (t.log = .unregistered c :: s.log ∨ t.log = .closed c :: .unregistered c :: s.log) := by
  have hquiet : ∀ u : State ClientId, u.clients = s.clients → u.log = s.log →
      u.clients ⊆ s.clients ∧ ∀ c, (.registered c ∈ u.log ↔ .registered c ∈ s.log) ∧
        (.unregistered c ∈ u.log ↔ .unregistered c ∈ s.log) := by
    rintro u hclients hlog
    rw [hclients, hlog]
    exact ⟨Finset.Subset.refl _, fun _ => ⟨Iff.rfl, Iff.rfl⟩⟩
  have hcome : ∀ (w : Walk ClientId) (d : ClientId), (s.come w d).clients ⊆ s.clients ∧
      ∀ c, (.registered c ∈ (s.come w d).log ↔ .registered c ∈ s.log) ∧
        (.unregistered c ∈ (s.come w d).log ↔ .unregistered c ∈ s.log) := by
    intro w d
    obtain ⟨hclients, -, -, -, hlog | hlog⟩ := come_frame s w d
    · exact hquiet _ hclients hlog
    · rw [hclients, hlog]
      exact ⟨Finset.Subset.refl _, fun c => by simp⟩
  cases a with
  | accept c | register c | message c data | readEnd c | unregister c | help c | broadcastRaw frame =>
      obtain ⟨-, heq⟩ := Option.ite_none_right_eq_some.1 h
      obtain rfl := Option.some.inj heq
      exact .inl (hquiet _ rfl rfl)
  | broadcastAudioRX channel frame | relayToOthers sender frame =>
      obtain ⟨-, heq⟩ := Option.ite_none_left_eq_some.1 h
      obtain rfl := Option.some.inj heq
      exact .inl (hquiet _ rfl rfl)
  | takeRegister =>
      simp only [Hub.step] at h
      split at h
      case h_2 => cases h
      rename_i c rest hrun hwalks hregister
      obtain rfl := Option.some.inj h
      exact .inr (.inl ⟨c, rest, rfl, hregister, rfl, rfl⟩)
  | takeUnregister =>
      simp only [Hub.step] at h
      split at h
      case h_2 => cases h
      rename_i c rest hrun hwalks hunregister
      obtain rfl := Option.some.inj h
      refine .inr (.inr ⟨c, ?_⟩)
      split
      · exact ⟨rfl, .inr rfl⟩
      · rename_i hc
        exact ⟨(Finset.erase_eq_of_notMem hc).symm, .inl rfl⟩
  | write c | takeBroadcast | shutdown =>
      simp only [Hub.step] at h
      split at h <;> first
        | cases h
          done
        | obtain rfl := Option.some.inj h
          exact .inl (hquiet _ rfl rfl)
  | delivered | closed | visited i =>
      simp only [Hub.step] at h
      split at h
      case h_2 => cases h
      obtain ⟨-, heq⟩ := Option.ite_none_right_eq_some.1 h
      obtain rfl := Option.some.inj heq
      exact .inl (hquiet _ rfl rfl)
  | close c =>
      simp only [Hub.step] at h
      split at h
      case h_2 => cases h
      obtain ⟨-, heq⟩ := Option.ite_none_right_eq_some.1 h
      obtain rfl := Option.some.inj heq
      exact .inl ⟨Finset.erase_subset .., fun d => by simp [State.drop]⟩
  | deliver c | visit i c =>
      simp only [Hub.step] at h
      split at h
      case h_2 => cases h
      rename_i w _
      obtain ⟨-, heq⟩ := Option.ite_none_right_eq_some.1 h
      obtain rfl := Option.some.inj heq
      exact .inl (hcome w c)

/-- Where the channels are in order, membership is the third clause. -/
theorem Inv.membership_iff (h : Inv s) :
    Membership s ↔ ∀ c, .registered c ∈ s.log → .unregistered c ∈ s.log → c ∉ s.clients := by
  refine ⟨Membership.left, fun hleft => ⟨fun c => ?_, fun c newer older hlog hmem => ?_, hleft⟩⟩
  · rw [h.count c]
    split <;> omega
  · have horder := h.order
    rw [hlog] at horder
    exact (List.pairwise_cons.1 (List.pairwise_append.1 horder).2.1).1 _ hmem c rfl rfl

/-- **A step keeps membership exactly when it is in order.** -/
theorem membership_step {a : Action ClientId} (hinv : Inv s) (h : Membership s)
    (hstep : Hub.step s a = some t) : Membership t ↔ InOrder s a := by
  rw [(hinv.step hstep).membership_iff]
  obtain ⟨hsub, hsame⟩ | ⟨c, rest, rfl, hregister, hclients, hlog⟩ | ⟨c, hclients, hlog⟩ :=
    step_members hstep
  · have hin : InOrder s a := by
      -- a step that takes a `Register` would have recorded it
      cases a with
      | takeRegister =>
          simp only [Hub.step] at hstep
          split at hstep
          case h_2 => cases hstep
          rename_i c rest hrun hwalks hregister
          obtain rfl := Option.some.inj hstep
          exact absurd ((hsame c).1.1 List.mem_cons_self)
            (hinv.queued c (hregister ▸ List.mem_cons_self))
      | _ => trivial
    refine iff_of_true (fun d hr hu hd => ?_) hin
    exact h.left d ((hsame d).1.1 hr) ((hsame d).2.1 hu) (hsub hd)
  · rw [hclients, hlog]
    constructor
    · intro hleft d hd hgone
      obtain rfl : c = d := by simpa [hregister] using hd
      exact hleft c List.mem_cons_self (List.mem_cons_of_mem _ hgone) (Finset.mem_insert_self ..)
    · intro hin d hr hu hd
      have hgone : .unregistered d ∈ s.log := by simpa using hu
      rcases Finset.mem_insert.1 hd with heq | hd
      · exact hin d (by rw [hregister, heq]; rfl) hgone
      · exact h.left d (hinv.member d hd).1 hgone hd
  · have hin : InOrder s a := by
      cases a with
      | takeRegister =>
          simp only [Hub.step] at hstep
          split at hstep
          case h_2 => cases hstep
          obtain rfl := Option.some.inj hstep
          rcases hlog with hlog | hlog <;> simp at hlog
      | _ => trivial
    refine iff_of_true (fun d hr hu hd => ?_) hin
    rw [hclients] at hd
    obtain ⟨hne, hd⟩ := Finset.mem_erase.1 hd
    have hu : .unregistered d ∈ s.log := by
      rcases hlog with hlog | hlog <;> rw [hlog] at hu <;> simpa [hne] using hu
    exact h.left d (hinv.member d hd).1 hu hd

/-! ## Runs -/

/-- **When membership holds.** In every run, throughout, exactly when the loop
takes no client's `Register` after an `Unregister` of it. -/
theorem membership_iff_inOrder {as : List (Action ClientId)} {s : State ClientId}
    (hrun : Run Hub.step newHub as s) :
    Throughout Hub.step Membership newHub as ↔ Always Hub.step InOrder newHub as :=
  hrun.throughout_iff_always inv_newHub
    (inv_newHub.membership_iff.2 fun _ hr => absurd hr List.not_mem_nil)
    (fun _ _ _ hu hv => hu.step hv) fun _ _ _ hu hm hv => membership_step hu hm hv

/-- A client that comes, hears one frame and goes. -/
def shortStay : List (Action ℕ) :=
  [.accept 0, .register 0, .takeRegister, .message 0 [opcodeRXAllOn], .broadcastAudioRX 1 [1, 1],
    .visit 0 0, .visited 0, .readEnd 0, .unregister 0, .takeUnregister]

theorem membership_iff_inOrder_shortStay :
    ∃ s, Run Hub.step newHub shortStay s ∧ s.send 0 = [[1, 1]] ∧ s.closed 0 = true ∧
      Throughout Hub.step Membership newHub shortStay := by
  have hrun : Run Hub.step newHub shortStay _ := Run.of_foldlM rfl
  refine ⟨_, hrun, rfl, rfl, (membership_iff_inOrder hrun).2 ?_⟩
  refine Always.cons trivial rfl (Always.cons trivial rfl (Always.cons (fun c _ => ?_) rfl
    (Always.cons trivial rfl (Always.cons trivial rfl (Always.cons trivial rfl
    (Always.cons trivial rfl (Always.cons trivial rfl (Always.cons trivial rfl
    (Always.cons trivial rfl trivial)))))))))
  exact List.not_mem_nil

/-- **A client put in after it has left.** Its connection breaks at once, and
the loop takes the removal first. -/
theorem unregister_taken_first :
    ∃ s : State ℕ, Run Hub.step newHub
        [.accept 0, .register 0, .readEnd 0, .unregister 0, .takeUnregister, .takeRegister] s ∧
      s.conn 0 = .gone ∧ 0 ∈ s.clients ∧ ¬ Membership s := by
  refine ⟨_, Run.of_foldlM rfl, rfl, by decide, fun h => ?_⟩
  exact h.left 0 (by decide) (by decide) (by decide)

end Hub

end OpenManet
