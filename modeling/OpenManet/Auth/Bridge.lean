import OpenManet.Lib.Machine
import OpenManet.Auth.Session
import Mathlib.Data.Finset.Insert
/-!
# Authentication — the audio bridge's session

`internal/frontend/bridge_auth.go`. The bridge reaches the daemon with a
session of its own, which it mints like a login and renews at half the
lifetime of a session less a minute. So the session never expires under it.
It may be evicted: the store counts it with those of the users, a bridge that
streams makes no request, and where as many users log in as the store holds,
its session is the one with the oldest access.

Between two ticks of the refresh loop anything may happen at any time that
does not go back. The loop mints the new session at the tick and writes the
token in a step of its own. Users know the tokens they were given.
-/

namespace OpenManet

namespace Auth

/-- `time.Minute`, in nanoseconds. -/
def minute : ℕ := 60000000000

/-- The interval of `NewFrontendServer`: half the lifetime less a minute, and
a minute at least. -/
def refreshInterval (maxAge : ℕ) : ℕ := max (maxAge / 2 - minute) minute

/-- `bridgeUsername`. -/
def bridgeUsername : String := "__bridge__"

/-- The store, the transport, and who has been given what. -/
structure State where
  store : SessionStore
  now : ℕ
  /-- The token the transport attaches. -/
  token : Token
  /-- The token the refresh loop has minted and not written yet. -/
  minted : Option Token
  /-- When the ticker of the refresh loop fires next. -/
  nextTick : ℕ
  /-- The tokens users have been given. -/
  issued : Finset Token
  /-- All tokens made so far. -/
  used : Finset Token

/-- What happens, each at its time. -/
inductive Action where
  /-- `HandleLogin`, past the `Authenticator`. -/
  | login (token : Token) (username : String) (order : List Session)
  /-- `HandleLogout`. -/
  | logout (token : Token)
  /-- An authenticated request of a user. -/
  | request (token : Token)
  | cleanup
  /-- The ticker fires, and the loop mints a session. -/
  | mint (token : Token) (order : List Session)
  /-- The loop writes its token. -/
  | write
  /-- `RoundTrip`, and the middleware at the other end. -/
  | roundTrip

/-- `RoundTrip`: the request as it leaves the transport. -/
def roundTrip (s : State) (r : Request) : Request :=
  { r with authorization := bearer ++ s.token }

/-- The step itself, at a time. -/
def State.act (s : State) (t : ℕ) : Action → Option State
  | .login token username order =>
      if token ∉ s.used ∧ order.Perm s.store.sessions then
        some { s with
          store := s.store.create token t username order, now := t
          issued := insert token s.issued, used := insert token s.used }
      else none
  | .logout token =>
      if token ∈ s.issued then some { s with store := s.store.delete token, now := t } else none
  | .request token =>
      if token ∈ s.issued then some { s with store := (s.store.validate token t).1, now := t }
      else none
  | .cleanup => some { s with store := s.store.cleanup t, now := t }
  | .mint token order =>
      if t = s.nextTick ∧ s.minted = none ∧ token ∉ s.used ∧ order.Perm s.store.sessions then
        some { s with
          store := s.store.create token t bridgeUsername order, now := t
          minted := some token, used := insert token s.used }
      else none
  | .write =>
      s.minted.map fun token =>
        { s with
          now := t, token, minted := none
          nextTick := s.nextTick + refreshInterval s.store.maxAge }
  | .roundTrip => some { s with store := (s.store.validate s.token t).1, now := t }

/-- The machine. Time does not go back, and does not pass a tick by. -/
def step (s : State) (a : ℕ × Action) : Option State :=
  if s.now ≤ a.1 ∧ a.1 ≤ s.nextTick then s.act a.1 a.2 else none

/-- `newBridgeAuthTransport`, on a store that may have been in use. -/
def newBridgeAuthTransport (store : SessionStore) (now : ℕ) (token : Token)
    (order : List Session) (issued : Finset Token) : State where
  store := store.create token now bridgeUsername order
  now := now
  token := token
  minted := none
  nextTick := now + refreshInterval store.maxAge
  issued := issued
  used := insert token issued

/-! ## What the steps keep -/

/-- A request the bridge makes now, or at any time before its next tick, is
accepted. -/
def Authorised (s : State) : Prop :=
  ∀ t, s.now ≤ t → t ≤ s.nextTick → (s.store.validate s.token t).2.isSome = true

/-- A session that a full store is about to evict is not the bridge's, and a
minted one is still there when its token is written. -/
def Spared (s : State) (a : ℕ × Action) : Prop :=
  match a.2 with
  | .login _ _ order | .mint _ order =>
      s.store.maxSize ≤ s.store.sessions.length →
        ∀ sess, Oldest order sess → sess.token ≠ s.token
  | .write => ∀ token, s.minted = some token → (s.store.lookup token).isSome = true
  | _ => True

/-- What every step keeps of the bridge's tokens and of their ages. -/
structure Kept (maxAge : ℕ) (s : State) : Prop where
  lifetime : s.store.maxAge = maxAge
  time : s.now ≤ s.nextTick
  issued : ∀ token ∈ s.issued, token ∈ s.used
  token : s.token ∈ s.used ∧ s.token ∉ s.issued
  minted : ∀ token, s.minted = some token → token ∈ s.used ∧ token ∉ s.issued
  /-- The session in use was created an interval before the next tick. -/
  age : ∀ sess ∈ s.store.sessions, sess.token = s.token →
    s.nextTick ≤ sess.createdAt + refreshInterval maxAge
  /-- And the minted one at the tick. -/
  mintedAge : ∀ token, s.minted = some token → ∀ sess ∈ s.store.sessions, sess.token = token →
    s.nextTick ≤ sess.createdAt

variable {maxAge : ℕ} {s v : State}

/-- The bridge renews its session before it expires. -/
theorem refreshInterval_le (h : minute < maxAge) : refreshInterval maxAge ≤ maxAge := by
  unfold refreshInterval
  omega

theorem lookup_mem {store : SessionStore} {token : Token} {sess : Session}
    (h : store.lookup token = some sess) : sess ∈ store.sessions ∧ sess.token = token :=
  ⟨List.mem_of_find?_eq_some h, lookup_token store token h⟩

/-! ## Where sessions come from -/

/-- Every session is one there was before, or was accessed since. -/
def Descends (store store' : SessionStore) : Prop :=
  ∀ sess' ∈ store'.sessions, ∃ sess ∈ store.sessions,
    sess.token = sess'.token ∧ sess.createdAt = sess'.createdAt

theorem descends_of_subset {store store' : SessionStore}
    (h : ∀ sess ∈ store'.sessions, sess ∈ store.sessions) : Descends store store' :=
  fun sess hsess => ⟨sess, h sess hsess, rfl, rfl⟩

theorem descends_delete (store : SessionStore) (token : Token) :
    Descends store (store.delete token) :=
  descends_of_subset fun _ hsess => (List.mem_filter.1 hsess).1

theorem descends_cleanup (store : SessionStore) (now : ℕ) : Descends store (store.cleanup now) :=
  descends_of_subset fun _ hsess => (List.mem_filter.1 hsess).1

theorem descends_validate (store : SessionStore) (token : Token) (now : ℕ) :
    Descends store (store.validate token now).1 := by
  unfold SessionStore.validate
  split
  · exact descends_of_subset fun _ hsess => hsess
  · split
    · exact descends_delete store token
    · intro sess' hsess'
      obtain ⟨sess, hsess, rfl⟩ := List.mem_map.1 hsess'
      refine ⟨sess, hsess, ?_⟩
      split <;> exact ⟨rfl, rfl⟩

/-- A session after a `Create` is the new one or an old one of another
token. -/
theorem mem_create {store : SessionStore} {token : Token} {now : ℕ} {username : String}
    {order : List Session} {sess : Session}
    (h : sess ∈ (store.create token now username order).sessions) :
    (sess.token = token ∧ sess.createdAt = now) ∨
      (sess ∈ store.sessions ∧ sess.token ≠ token) := by
  rcases List.mem_cons.1 h with rfl | hold
  · exact .inl ⟨rfl, rfl⟩
  · obtain ⟨hleft, hother⟩ := List.mem_filter.1 hold
    refine .inr ⟨?_, by simpa using hother⟩
    split at hleft
    · unfold SessionStore.evictOldestLocked at hleft
      split at hleft
      · exact hleft
      · exact (List.mem_filter.1 hleft).1
    · exact hleft

/-- A token in use is not that of the new session. -/
theorem mem_of_mem_create {store : SessionStore} {token : Token} {now : ℕ} {username : String}
    {order : List Session} {sess : Session} {used : Finset Token}
    (h : sess ∈ (store.create token now username order).sessions) (hused : sess.token ∈ used)
    (hnew : token ∉ used) : sess ∈ store.sessions := by
  rcases mem_create h with ⟨rfl, -⟩ | ⟨hold, -⟩
  · exact absurd hused hnew
  · exact hold

/-! ## One step -/

/-- A step that makes no token keeps what there is to say of the tokens, if it
leaves the refresh loop where it is. -/
theorem Kept.descends (h : Kept maxAge s) {store : SessionStore} {t : ℕ}
    (hlifetime : store.maxAge = s.store.maxAge) (hdescends : Descends s.store store)
    (ht : t ≤ s.nextTick) : Kept maxAge { s with store, now := t } where
  lifetime := hlifetime.trans h.lifetime
  time := ht
  issued := h.issued
  token := h.token
  minted := h.minted
  age sess' hsess' htoken := by
    obtain ⟨sess, hsess, hsame, hcreated⟩ := hdescends sess' hsess'
    rw [← hcreated]
    exact h.age sess hsess (hsame.trans htoken)
  mintedAge token hminted sess' hsess' htoken := by
    obtain ⟨sess, hsess, hsame, hcreated⟩ := hdescends sess' hsess'
    rw [← hcreated]
    exact h.mintedAge token hminted sess hsess (hsame.trans htoken)

theorem Kept.login (h : Kept maxAge s) {t : ℕ} {token : Token} {username : String}
    {order : List Session} (hnew : token ∉ s.used) (ht : t ≤ s.nextTick) :
    Kept maxAge { s with
      store := s.store.create token t username order, now := t
      issued := insert token s.issued, used := insert token s.used } where
  lifetime := (maxAge_create ..).trans h.lifetime
  time := ht
  issued other hother := by
    rcases Finset.mem_insert.1 hother with rfl | hother
    · exact Finset.mem_insert_self ..
    · exact Finset.mem_insert_of_mem (h.issued other hother)
  token := by
    refine ⟨Finset.mem_insert_of_mem h.token.1, fun hmem => ?_⟩
    rcases Finset.mem_insert.1 hmem with heq | hmem
    · exact hnew (heq ▸ h.token.1)
    · exact h.token.2 hmem
  minted other hother := by
    obtain ⟨hused, hissued⟩ := h.minted other hother
    refine ⟨Finset.mem_insert_of_mem hused, fun hmem => ?_⟩
    rcases Finset.mem_insert.1 hmem with rfl | hmem
    · exact hnew hused
    · exact hissued hmem
  age sess hsess htoken :=
    h.age sess (mem_of_mem_create hsess (htoken ▸ h.token.1) hnew) htoken
  mintedAge other hother sess hsess htoken :=
    h.mintedAge other hother sess
      (mem_of_mem_create hsess (htoken ▸ (h.minted other hother).1) hnew) htoken

theorem Kept.mint (h : Kept maxAge s) {token : Token} {order : List Session}
    (hnew : token ∉ s.used) :
    Kept maxAge { s with
      store := s.store.create token s.nextTick bridgeUsername order, now := s.nextTick
      minted := some token, used := insert token s.used } where
  lifetime := (maxAge_create ..).trans h.lifetime
  time := Nat.le_refl _
  issued other hother := Finset.mem_insert_of_mem (h.issued other hother)
  token := ⟨Finset.mem_insert_of_mem h.token.1, h.token.2⟩
  minted other hother := by
    obtain rfl := Option.some.inj hother
    exact ⟨Finset.mem_insert_self .., fun hmem => hnew (h.issued _ hmem)⟩
  age sess hsess htoken :=
    h.age sess (mem_of_mem_create hsess (htoken ▸ h.token.1) hnew) htoken
  mintedAge other hother sess hsess htoken := by
    obtain rfl := Option.some.inj hother
    rcases mem_create hsess with ⟨-, hcreated⟩ | ⟨-, hother⟩
    · exact Nat.le_of_eq hcreated.symm
    · exact absurd htoken hother

theorem Kept.write (h : Kept maxAge s) {token : Token} {t : ℕ} (hminted : s.minted = some token)
    (ht : t ≤ s.nextTick) :
    Kept maxAge { s with
      now := t, token, minted := none
      nextTick := s.nextTick + refreshInterval s.store.maxAge } where
  lifetime := h.lifetime
  time := Nat.le_trans ht (Nat.le_add_right ..)
  issued := h.issued
  token := h.minted token hminted
  minted := nofun
  age sess hsess htoken := by
    rw [h.lifetime]
    exact Nat.add_le_add_right (h.mintedAge token hminted sess hsess htoken) _
  mintedAge := nofun

/-- **Every step keeps it.** -/
theorem Kept.step {a : ℕ × Action} (h : Kept maxAge s) (hstep : Auth.step s a = some v) :
    Kept maxAge v := by
  obtain ⟨t, a⟩ := a
  obtain ⟨⟨hnow, htick⟩, hact⟩ := Option.ite_none_right_eq_some.1 hstep
  cases a with
  | login token username order =>
      obtain ⟨⟨hnew, -⟩, heq⟩ := Option.ite_none_right_eq_some.1 hact
      obtain rfl := Option.some.inj heq
      exact h.login hnew htick
  | logout token =>
      obtain ⟨-, heq⟩ := Option.ite_none_right_eq_some.1 hact
      obtain rfl := Option.some.inj heq
      exact h.descends rfl (descends_delete _ _) htick
  | request token =>
      obtain ⟨-, heq⟩ := Option.ite_none_right_eq_some.1 hact
      obtain rfl := Option.some.inj heq
      exact h.descends (maxAge_validate ..) (descends_validate _ _ _) htick
  | cleanup =>
      obtain rfl := Option.some.inj hact
      exact h.descends rfl (descends_cleanup _ _) htick
  | mint token order =>
      obtain ⟨⟨rfl, -, hnew, -⟩, heq⟩ := Option.ite_none_right_eq_some.1 hact
      obtain rfl := Option.some.inj heq
      exact h.mint hnew
  | write =>
      obtain ⟨token, hminted, rfl⟩ := Option.map_eq_some_iff.1 hact
      exact h.write hminted htick
  | roundTrip =>
      obtain rfl := Option.some.inj hact
      exact h.descends (maxAge_validate ..) (descends_validate _ _ _) htick

/-- A session in use does not expire before the next tick. -/
theorem Kept.fresh (h : Kept maxAge s) (hage : minute < maxAge) {sess : Session}
    (hsess : s.store.lookup s.token = some sess) {t : ℕ} (ht : t ≤ s.nextTick) :
    s.store.expired t sess = false := by
  have hnext := h.age sess (lookup_mem hsess).1 (lookup_mem hsess).2
  have hle := refreshInterval_le hage
  rw [SessionStore.expired, h.lifetime]
  simp only [decide_eq_false_iff_not]
  omega

/-- So the bridge is authorised exactly where its session is there. -/
theorem Kept.authorised_iff (h : Kept maxAge s) (hage : minute < maxAge) :
    Authorised s ↔ (s.store.lookup s.token).isSome = true := by
  constructor
  · intro hauth
    obtain ⟨sess, hsess, -⟩ := (validate_isSome ..).1 (hauth s.now (Nat.le_refl _) h.time)
    rw [hsess]
    rfl
  · intro hsome t _ ht
    obtain ⟨sess, hsess⟩ := Option.isSome_iff_exists.1 hsome
    exact (validate_isSome ..).2 ⟨sess, hsess, h.fresh hage hsess ht⟩

/-- **A `Create`** leaves a session in place exactly when the store is not
full, or the oldest session is another. -/
theorem isSome_create {store : SessionStore} {token other : Token} {t : ℕ} {username : String}
    {order : List Session} (hother : other ≠ token) (hsome : (store.lookup other).isSome = true) :
    ((store.create token t username order).lookup other).isSome = true ↔
      (store.maxSize ≤ store.sessions.length → ∀ sess, Oldest order sess → sess.token ≠ other) := by
  rw [lookup_create, if_neg hother]
  by_cases hfull : store.maxSize ≤ store.sessions.length
  · rw [if_pos hfull]
    cases holdest : oldest order with
    | none =>
        have hnone : ∀ sess, ¬ Oldest order sess := fun sess hsess => by
          rw [oldest_eq_some_iff.2 hsess] at holdest
          cases holdest
        simp only [SessionStore.evictOldestLocked, holdest, hsome, true_iff]
        exact fun _ sess hsess => absurd hsess (hnone sess)
    | some first =>
        have hfirst := oldest_eq_some_iff.1 holdest
        simp only [SessionStore.evictOldestLocked, holdest, lookup_delete]
        constructor
        · intro hleft _ sess hsess heq
          rw [if_pos (hsess.unique hfirst ▸ heq.symm)] at hleft
          cases hleft
        · intro hspared
          rw [if_neg (Ne.symm (hspared hfull first hfirst))]
          exact hsome
  · rw [if_neg hfull]
    exact iff_of_true hsome fun hle => absurd hle hfull

/-- **One step** leaves the bridge authorised exactly when its session is
spared. -/
theorem authorised_step {a : ℕ × Action} (hage : minute < maxAge) (h : Kept maxAge s)
    (hauth : Authorised s) (hstep : Auth.step s a = some v) : Authorised v ↔ Spared s a := by
  have hsome := (h.authorised_iff hage).1 hauth
  rw [(h.step hstep).authorised_iff hage]
  obtain ⟨t, a⟩ := a
  obtain ⟨⟨hnow, htick⟩, hact⟩ := Option.ite_none_right_eq_some.1 hstep
  cases a with
  | login token username order =>
      obtain ⟨⟨hnew, -⟩, heq⟩ := Option.ite_none_right_eq_some.1 hact
      obtain rfl := Option.some.inj heq
      have hother : s.token ≠ token := fun heq => hnew (heq ▸ h.token.1)
      exact isSome_create hother hsome
  | mint token order =>
      obtain ⟨⟨rfl, -, hnew, -⟩, heq⟩ := Option.ite_none_right_eq_some.1 hact
      obtain rfl := Option.some.inj heq
      have hother : s.token ≠ token := fun heq => hnew (heq ▸ h.token.1)
      exact isSome_create hother hsome
  | logout token =>
      obtain ⟨hissued, heq⟩ := Option.ite_none_right_eq_some.1 hact
      obtain rfl := Option.some.inj heq
      have hother : s.token ≠ token := fun heq => h.token.2 (heq ▸ hissued)
      refine iff_of_true ?_ trivial
      rw [lookup_delete, if_neg hother]
      exact hsome
  | request token =>
      obtain ⟨hissued, heq⟩ := Option.ite_none_right_eq_some.1 hact
      obtain rfl := Option.some.inj heq
      have hother : s.token ≠ token := fun heq => h.token.2 (heq ▸ hissued)
      refine iff_of_true ?_ trivial
      rw [lookup_validate _ _ _ _ hother]
      exact hsome
  | cleanup =>
      obtain rfl := Option.some.inj hact
      obtain ⟨sess, hsess⟩ := Option.isSome_iff_exists.1 hsome
      refine iff_of_true ?_ trivial
      rw [lookup_cleanup _ _ _ hsess (h.fresh hage hsess htick)]
      rfl
  | write =>
      obtain ⟨token, hminted, rfl⟩ := Option.map_eq_some_iff.1 hact
      constructor
      · intro hleft other hother
        obtain rfl := Option.some.inj (hminted.symm.trans hother)
        exact hleft
      · exact fun hspared => hspared token hminted
  | roundTrip =>
      obtain rfl := Option.some.inj hact
      obtain ⟨sess, hsess⟩ := Option.isSome_iff_exists.1 hsome
      refine iff_of_true ?_ trivial
      rw [lookup_validate_self _ _ _ hsess (h.fresh hage hsess htick)]
      rfl

/-! ## Runs -/

section Runs

variable {store : SessionStore} {t : ℕ} {token : Token} {order : List Session}
variable {issued : Finset Token}

theorem kept_newBridgeAuthTransport (hnew : token ∉ issued) :
    Kept store.maxAge (newBridgeAuthTransport store t token order issued) where
  lifetime := maxAge_create ..
  time := Nat.le_add_right ..
  issued _ hother := Finset.mem_insert_of_mem hother
  token := ⟨Finset.mem_insert_self .., hnew⟩
  minted := nofun
  age sess hsess htoken := by
    rcases mem_create hsess with ⟨-, hcreated⟩ | ⟨-, hother⟩
    · rw [hcreated]
      exact Nat.le_refl _
    · exact absurd htoken hother
  mintedAge := nofun

theorem authorised_newBridgeAuthTransport (hage : minute < store.maxAge) (hnew : token ∉ issued) :
    Authorised (newBridgeAuthTransport store t token order issued) := by
  rw [(kept_newBridgeAuthTransport hnew).authorised_iff hage, newBridgeAuthTransport,
    lookup_create, if_pos rfl]
  rfl

/-- **When the bridge stays authorised.** For every lifetime above a minute
and every store, whatever was in it: throughout a run, a request of the bridge
is accepted at any moment, exactly when no `Create` that finds the store full
finds the bridge's session the oldest, and the session of a refresh is there
when its token is written. -/
theorem authorised_iff_spared (hage : minute < store.maxAge) (hnew : token ∉ issued)
    {as : List (ℕ × Action)}
    (hrun : Run Auth.step (newBridgeAuthTransport store t token order issued) as s) :
    Throughout Auth.step Authorised (newBridgeAuthTransport store t token order issued) as ↔
      Always Auth.step Spared (newBridgeAuthTransport store t token order issued) as :=
  hrun.throughout_iff_always (kept_newBridgeAuthTransport hnew)
    (authorised_newBridgeAuthTransport hage hnew) (fun _ _ _ hu hv => hu.step hv)
    fun _ _ _ hu hauth hv => authorised_step hage hu hauth hv

/-- So every request the bridge makes in such a run is accepted. -/
theorem roundTrips_accepted (hage : minute < store.maxAge) (hnew : token ∉ issued)
    {as : List (ℕ × Action)}
    (hguard : Always Auth.step Spared (newBridgeAuthTransport store t token order issued) as) :
    Always Auth.step (fun u a => a.2 = .roundTrip → u.now ≤ a.1 → a.1 ≤ u.nextTick →
        (u.store.validate u.token a.1).2.isSome = true)
      (newBridgeAuthTransport store t token order issued) as :=
  hguard.of_invariant (I := fun u => Kept store.maxAge u ∧ Authorised u)
    ⟨kept_newBridgeAuthTransport hnew, authorised_newBridgeAuthTransport hage hnew⟩
    (fun _ _ _ hu hg hv => ⟨hu.1.step hv, (authorised_step hage hu.1 hu.2 hv).2 hg⟩)
    fun _ a hu _ _ hnow htick => hu.2 a.1 hnow htick

end Runs

/-- The session of a bridge that starts at time zero. -/
def bridgeSession : Session := ⟨['b'], bridgeUsername, 0, 0⟩

/-- The session of a user who logs in a nanosecond later. -/
def userSession : Session := ⟨['u'], "root", 1, 1⟩

/-- A store for two sessions of four minutes, and the bridge. -/
def smallStore : State :=
  newBridgeAuthTransport (newSessionStore (4 * minute) 2) 0 ['b'] [] ∅

/-- The bridge makes a request before its refresh finds the store full. -/
def busyBridge : List (ℕ × Action) :=
  [(1, .login ['u'] "root" [bridgeSession]), (2, .roundTrip),
    (minute, .mint ['c'] [userSession, { bridgeSession with lastAccess := 2 }]),
    (minute, .write)]

theorem authorised_iff_spared_busyBridge :
    ∃ s, Run Auth.step smallStore busyBridge s ∧ s.token = ['c'] ∧
      Throughout Auth.step Authorised smallStore busyBridge := by
  have hrun : Run Auth.step smallStore busyBridge _ := Run.of_foldlM rfl
  refine ⟨_, hrun, rfl, (authorised_iff_spared (by decide) (Finset.notMem_empty _) hrun).2 ?_⟩
  refine Always.cons (fun hfull => absurd hfull (by decide)) rfl (Always.cons trivial rfl
    (Always.cons ?_ rfl (Always.cons ?_ rfl trivial)))
  · intro _ sess hsess
    have holdest : oldest [userSession, { bridgeSession with lastAccess := 2 }] =
        some userSession := rfl
    obtain rfl := (oldest_eq_some_iff.1 holdest).unique hsess
    decide
  · intro token htoken
    obtain rfl := Option.some.inj htoken
    rfl

/-- **Two users log in.** The store is full at the second login, the bridge
has made no request, its session is the oldest, and its next request is
refused. -/
theorem second_login_evicts :
    ∃ s, Run Auth.step smallStore
        [(1, .login ['u'] "root" [bridgeSession]),
          (2, .login ['v'] "root" [userSession, bridgeSession])] s ∧
      s.now ≤ 3 ∧ 3 ≤ s.nextTick ∧ (s.store.validate s.token 3).2 = none ∧ ¬ Authorised s := by
  have hnow : 2 ≤ 3 := Nat.le_succ 2
  have htick : 3 ≤ minute := Nat.le_of_ble_eq_true rfl
  refine ⟨_, Run.of_foldlM rfl, hnow, htick, rfl, fun hauth => ?_⟩
  have haccepted := hauth 3 hnow htick
  cases haccepted

/-! ## At the other end -/

/-- What `generateToken` makes has no blank in it. -/
def IsToken (token : Token) : Prop := token ≠ [] ∧ ∀ c ∈ token, Text.isSpace c = false

theorem dropWhile_isSpace {cs : List Char} (h : ∀ c ∈ cs, Text.isSpace c = false) :
    cs.dropWhile Text.isSpace = cs := by
  cases cs with
  | nil => rfl
  | cons c cs => simp [h c]

theorem trimSpace_token {token : Token} (h : IsToken token) : Text.trimSpace token = token := by
  have hreverse : ∀ c ∈ token.reverse, Text.isSpace c = false := fun c hc =>
    h.2 c (List.mem_reverse.1 hc)
  rw [Text.trimSpace, dropWhile_isSpace h.2, dropWhile_isSpace hreverse, List.reverse_reverse]

/-- The middleware reads the token the transport has attached, whatever the
request had. -/
theorem extractSessionToken_roundTrip {r : Request} (h : IsToken s.token) :
    extractSessionToken (roundTrip s r) = s.token := by
  have hlength : 0 < s.token.length := List.length_pos_iff.2 h.1
  have hbearer : bearerToken (roundTrip s r).authorization = s.token := by
    simp only [roundTrip, bearerToken, List.length_append, List.take_left, List.drop_left,
      trimSpace_token h, and_true]
    rw [if_pos (by omega)]
  rw [extractSessionToken, hbearer, if_pos h.1]

/-- **The daemon's answer.** On a path that is not open to all, the middleware
serves the bridge's request exactly where the store accepts its token. -/
theorem apiAuthMiddleware_roundTrip {r : Request} {t : ℕ} (h : IsToken s.token)
    (hpath : isAPISkipPath r = false) :
    (apiAuthMiddleware s.store true (roundTrip s r) t).2 ≠ .unauthorized ↔
      (s.store.validate s.token t).2.isSome = true := by
  have hskip : isAPISkipPath (roundTrip s r) = false := hpath
  rw [apiAuthMiddleware, extractSessionToken_roundTrip h, hskip]
  simp only [Bool.not_true, Bool.or_self, Bool.false_eq_true, if_false, if_neg h.1]
  split
  · next hvalid => simp [hvalid]
  · next hvalid => simp [hvalid]

/-- A request made before the next tick is served, on whatever path. -/
def Served (s : State) (a : ℕ × Action) : Prop :=
  a.2 = .roundTrip → s.now ≤ a.1 → a.1 ≤ s.nextTick → IsToken s.token →
    ∀ r, (apiAuthMiddleware s.store true (roundTrip s r) a.1).2 ≠ .unauthorized

/-- **From end to end.** In a run that spares the bridge's session the daemon
serves every request the bridge makes. -/
theorem served_throughout {store : SessionStore} {t : ℕ} {token : Token} {order : List Session}
    {issued : Finset Token} (hage : minute < store.maxAge) (hnew : token ∉ issued)
    {as : List (ℕ × Action)}
    (hguard : Always Auth.step Spared (newBridgeAuthTransport store t token order issued) as) :
    Always Auth.step Served (newBridgeAuthTransport store t token order issued) as := by
  refine (roundTrips_accepted hage hnew hguard).of_invariant (I := fun _ => True) trivial
    (fun _ _ _ _ _ _ => trivial) fun u a _ haccepted hround hnow htick htoken r => ?_
  cases hpath : isAPISkipPath r with
  | false => exact (apiAuthMiddleware_roundTrip htoken hpath).2 (haccepted hround hnow htick)
  | true =>
      have hskip : isAPISkipPath (roundTrip u r) = true := hpath
      simp [apiAuthMiddleware, hskip]

theorem served_throughout_smallStore : Always Auth.step Served smallStore
    [(1, .login ['u'] "root" [bridgeSession]), (2, .roundTrip)] :=
  served_throughout (by decide) (Finset.notMem_empty _) (Always.cons
    (fun hfull => absurd hfull (by decide)) rfl (Always.cons trivial rfl trivial))

end Auth

end OpenManet
