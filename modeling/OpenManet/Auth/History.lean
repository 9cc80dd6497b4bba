import OpenManet.Auth.Session
import OpenManet.Lib.Grouped
import OpenManet.Lib.Machine
import Mathlib.Data.List.Induction
import Mathlib.Order.Nat
/-!
# Authentication — the histories of a session store

The calls of `internal/auth/session.go`, made one after the other, each at one
reading of a clock that does not run back. The walk for the oldest session may
come to the sessions in any order, and another one at every `Create`.

What a store holds is told by its history: a session is live from the `Create`
that made it until a `Delete` names it or a `Create` throws it out, and its
last access is the latest of its creation and of the `Validate`s that accepted
it. `Recorded` ties the store to that account, and every call keeps it. A
session that has expired may be gone already or not: no answer depends on it,
but the room it takes up does.
-/

namespace OpenManet

namespace Auth

/-- The order in which a walk over the map of sessions comes to them. -/
structure Walk where
  order : List Session → List Session
  perm : ∀ sessions, (order sessions).Perm sessions

/-- A call of the store. A `Create` comes with the token it generates and with
the walk it makes if the store is full. -/
inductive Call where
  | create (token : Token) (username : String) (walk : Walk)
  | validate (token : Token)
  | delete (token : Token)
  | cleanup

/-- The token a call creates a session for. -/
def Call.creates : Call → Option Token
  | .create token _ _ => some token
  | _ => none

/-- A call, made at a time: the store after it, and the session a `Validate`
returns. -/
def SessionStore.serve (s : SessionStore) : ℕ × Call → SessionStore × Option Session
  | (now, .create token username walk) =>
      (s.create token now username (walk.order s.sessions), none)
  | (now, .validate token) => s.validate token now
  | (_, .delete token) => (s.delete token, none)
  | (now, .cleanup) => (s.cleanup now, none)

/-! ## The account a history gives -/

/-- A call of the past, with the store it met and the answer it got. -/
abbrev Entry : Type := SessionStore × (ℕ × Call) × Option Session

/-- The call creates a session, and one that was there is gone after it. -/
def Evicts (e : Entry) (token : Token) : Prop :=
  e.2.1.2.creates.isSome = true ∧ (e.1.lookup token).isSome = true ∧
    (e.1.serve e.2.1).1.lookup token = none

/-- The call takes the token's session away, whatever its age. -/
def Ends (e : Entry) (token : Token) : Prop :=
  e.2.1.2 = .delete token ∨ Evicts e token

/-- **The token was created** at `c`, and has been neither deleted nor evicted
since. -/
def Live (past : List Entry) (token : Token) (c : ℕ) : Prop :=
  ∃ earlier e since, past = earlier ++ e :: since ∧
    e.2.1.2.creates = some token ∧ e.2.1.1 = c ∧ ∀ e' ∈ since, ¬ Ends e' token

/-- The call creates the token's session, or accepts it. -/
def accesses (token : Token) (e : Entry) : Bool :=
  match e.2.1.2 with
  | .create created _ _ => created = token
  | .validate presented => presented = token && e.2.2.isSome
  | _ => false

/-- The time of the last access, as the past tells it. -/
def lastAccess (past : List Entry) (token : Token) : Option ℕ :=
  (past.reverse.find? (accesses token)).map fun e => e.2.1.1

section Account

variable {past : List Entry} {e : Entry} {token : Token} {c : ℕ}

/-- One more call creates the session, or leaves it live. -/
theorem live_concat : Live (past ++ [e]) token c ↔
    (e.2.1.2.creates = some token ∧ e.2.1.1 = c) ∨ (Live past token c ∧ ¬ Ends e token) := by
  constructor
  · rintro ⟨earlier, made, since, hsplit, hcreates, hat, hsince⟩
    rcases List.eq_nil_or_concat since with rfl | ⟨since, last, rfl⟩
    · obtain ⟨-, hlast⟩ := List.append_inj' hsplit rfl
      obtain rfl := List.head_eq_of_cons_eq hlast
      exact .inl ⟨hcreates, hat⟩
    · rw [List.concat_eq_append, ← List.cons_append, ← List.append_assoc] at hsplit
      obtain ⟨hpast, hlast⟩ := List.append_inj' hsplit rfl
      obtain rfl := List.head_eq_of_cons_eq hlast
      refine .inr ⟨⟨earlier, made, since, hpast, hcreates, hat, fun e' he' => ?_⟩, ?_⟩
      · exact hsince e' (by simp [he'])
      · exact hsince e (by simp)
  · rintro (⟨hcreates, hat⟩ | ⟨⟨earlier, made, since, rfl, hcreates, hat, hsince⟩, hends⟩)
    · exact ⟨past, e, [], rfl, hcreates, hat, nofun⟩
    · refine ⟨earlier, made, since ++ [e], by simp, hcreates, hat, fun e' he' => ?_⟩
      rcases List.mem_append.1 he' with he' | he'
      · exact hsince e' he'
      · rwa [List.mem_singleton.1 he']

theorem lastAccess_concat : lastAccess (past ++ [e]) token =
    if accesses token e then some e.2.1.1 else lastAccess past token := by
  rw [lastAccess, List.reverse_append, List.reverse_singleton, List.singleton_append,
    List.find?_cons, lastAccess]
  cases accesses token e <;> rfl

/-- What is live was created. -/
theorem Live.created (h : Live past token c) :
    token ∈ past.filterMap fun e => e.2.1.2.creates := by
  obtain ⟨earlier, made, since, rfl, hcreates, -, -⟩ := h
  exact List.mem_filterMap.2 ⟨made, by simp, hcreates⟩

/-- What is live after some calls, one of them created. -/
theorem Live.of_calls {s₀ : SessionStore} {calls : List (ℕ × Call)}
    (h : Live (trace SessionStore.serve s₀ calls) token c) :
    token ∈ calls.filterMap fun call => call.2.creates := by
  rw [← trace_inputs SessionStore.serve s₀ calls, List.filterMap_map]
  exact h.created

/-- A call that creates nothing ends a session only if it deletes it. -/
theorem ends_iff_of_creates (h : e.2.1.2.creates = none) :
    Ends e token ↔ e.2.1.2 = .delete token := by
  simp [Ends, Evicts, h]

/-- A call that creates nothing leaves live what it does not delete. -/
theorem live_concat_of_creates (h : e.2.1.2.creates = none) :
    Live (past ++ [e]) token c ↔ Live past token c ∧ e.2.1.2 ≠ .delete token := by
  rw [live_concat, ends_iff_of_creates h]
  simp [h]

end Account

/-! ## What a `Create` throws out -/

section Create

variable {s : SessionStore} {token : Token} {now : ℕ} {username : String} {order : List Session}

/-- A walk over some sessions finds one. -/
theorem oldest_isSome (h : order ≠ []) : ∃ sess, oldest order = some sess := by
  obtain ⟨first, rest, rfl⟩ := List.exists_cons_of_ne_nil h
  obtain ⟨sess, hsess, -⟩ := foldl_oldest rest first
  exact ⟨sess, hsess⟩

/-- The oldest session is one of them, and none was accessed before it. -/
theorem Oldest.least {sess : Session} (h : Oldest order sess) :
    sess ∈ order ∧ ∀ other ∈ order, sess.lastAccess ≤ other.lastAccess := by
  obtain ⟨before, after, rfl, hbefore, hafter⟩ := h
  refine ⟨by simp, fun other hother => ?_⟩
  rcases List.mem_append.1 hother with hother | hother
  · exact (hbefore other hother).le
  · rcases List.mem_cons.1 hother with rfl | hother
    · exact le_rfl
    · exact hafter other hother

theorem delete_of_lookup (h : s.lookup token = none) : (s.delete token).sessions = s.sessions :=
  List.filter_eq_self.2 fun sess hsess => by simpa using List.find?_eq_none.1 h sess hsess

/-- With room in the store, a `Create` adds its session. -/
theorem create_room (hroom : s.sessions.length < s.maxSize) (hnew : s.lookup token = none) :
    (s.create token now username order).sessions = ⟨token, username, now, now⟩ :: s.sessions := by
  rw [SessionStore.create, if_neg (Nat.not_le.2 hroom)]
  exact congrArg (List.cons _) (delete_of_lookup hnew)

/-- **In a full store** the session takes the place of one, which no other was
accessed before. -/
theorem create_full (now : ℕ) (username : String)
    (hkeys : (s.sessions.map Session.token).Nodup)
    (hfull : s.maxSize ≤ s.sessions.length) (hsize : 1 ≤ s.maxSize)
    (hwalk : order.Perm s.sessions) (hnew : s.lookup token = none) :
    ∃ evicted rest, s.sessions.Perm (evicted :: rest) ∧
      (s.create token now username order).sessions = ⟨token, username, now, now⟩ :: rest ∧
      ∀ other ∈ s.sessions, evicted.lastAccess ≤ other.lastAccess := by
  have hsome : order ≠ [] := fun hnil => by
    rw [← hwalk.length_eq, hnil, List.length_nil] at hfull
    omega
  obtain ⟨evicted, hevicted⟩ := oldest_isSome hsome
  obtain ⟨hmem, hleast⟩ := (oldest_eq_some_iff.1 hevicted).least
  refine ⟨evicted, (s.delete evicted.token).sessions,
    Grouped.perm_cons_filter hkeys (hwalk.mem_iff.1 hmem), ?_,
    fun other hother => hleast other (hwalk.mem_iff.2 hother)⟩
  have hgone : (s.delete evicted.token).lookup token = none := by
    rw [lookup_delete, hnew, ite_self]
  rw [SessionStore.create, if_pos hfull, SessionStore.evictOldestLocked, hevicted]
  exact congrArg (List.cons _) (delete_of_lookup hgone)

end Create

/-! ## The store and its account -/

/-- **The store is as its past tells.** It holds each session once and no more
than it has room for; each is live and was last accessed as recorded; and a
live session that is not there has expired. -/
structure Recorded (past : List Entry) (now : ℕ) (s : SessionStore) : Prop where
  keys : (s.sessions.map Session.token).Nodup
  size : s.sessions.length ≤ s.maxSize
  live : ∀ sess ∈ s.sessions, Live past sess.token sess.createdAt
  access : ∀ sess ∈ s.sessions, lastAccess past sess.token = some sess.lastAccess
  kept : ∀ token c, Live past token c →
    (∃ sess ∈ s.sessions, sess.token = token ∧ sess.createdAt = c) ∨ s.maxAge < now - c

namespace Recorded

variable {past : List Entry} {now now' : ℕ} {s : SessionStore} {token : Token}

theorem mono (h : Recorded past now s) (hnow : now ≤ now') : Recorded past now' s :=
  { h with kept := fun token c hlive => (h.kept token c hlive).imp_right (by omega) }

theorem lookup_eq_some_iff (h : Recorded past now s) {sess : Session} :
    s.lookup token = some sess ↔ sess ∈ s.sessions ∧ sess.token = token :=
  Grouped.find?_eq_some_iff h.keys

/-- A token that is not live has no session. -/
theorem lookup_eq_none (h : Recorded past now s) (hnew : ∀ c, ¬ Live past token c) :
    s.lookup token = none := by
  refine List.find?_eq_none.2 fun sess hsess htoken => ?_
  obtain rfl := of_decide_eq_true htoken
  exact hnew _ (h.live sess hsess)

/-- **A call that only takes sessions away** keeps the record, if it takes what
it deletes and, besides, what has expired. -/
theorem filter (h : Recorded past now s) {e : Entry} {keep : Session → Bool} (hnow : now ≤ now')
    (hcreates : e.2.1.2.creates = none) (haccess : ∀ token, accesses token e = false)
    (hdeleted : ∀ sess ∈ s.sessions, keep sess = true → e.2.1.2 ≠ .delete sess.token)
    (hdropped : ∀ sess ∈ s.sessions, keep sess = false →
      e.2.1.2 = .delete sess.token ∨ s.maxAge < now' - sess.createdAt) :
    Recorded (past ++ [e]) now' { s with sessions := s.sessions.filter keep } where
  keys := h.keys.sublist (List.filter_sublist.map _)
  size := (List.length_filter_le ..).trans h.size
  live sess hsess := by
    obtain ⟨hmem, hkeep⟩ := List.mem_filter.1 hsess
    exact (live_concat_of_creates hcreates).2 ⟨h.live sess hmem, hdeleted sess hmem hkeep⟩
  access sess hsess := by
    rw [lastAccess_concat, haccess]
    exact h.access sess (List.mem_filter.1 hsess).1
  kept token c hlive := by
    obtain ⟨hlive, hstays⟩ := (live_concat_of_creates hcreates).1 hlive
    rcases (h.mono hnow).kept token c hlive with ⟨sess, hmem, rfl, rfl⟩ | hexpired
    · cases hkeep : keep sess with
      | true => exact .inl ⟨sess, List.mem_filter.2 ⟨hmem, hkeep⟩, rfl, rfl⟩
      | false => exact .inr ((hdropped sess hmem hkeep).resolve_left hstays)
    · exact .inr hexpired

/-- **A `Validate` that accepts** moves the last access of its session. -/
theorem touch (h : Recorded past now s) {sess : Session} (hnow : now ≤ now') :
    Recorded (past ++ [(s, (now', .validate token), some sess)]) now' (s.touch token now') where
  keys := by
    have hkeys : (s.touch token now').sessions.map Session.token =
        s.sessions.map Session.token := by
      rw [SessionStore.touch, List.map_map]
      refine List.map_congr_left fun sess _ => ?_
      by_cases htoken : sess.token = token <;> simp [htoken]
    exact hkeys ▸ h.keys
  size := by
    rw [SessionStore.touch, List.length_map]
    exact h.size
  live sess' hsess' := by
    obtain ⟨old, hold, rfl⟩ := List.mem_map.1 hsess'
    refine (live_concat_of_creates rfl).2 ⟨?_, fun hdelete => by cases hdelete⟩
    by_cases htoken : old.token = token
    · simpa only [if_pos htoken] using h.live old hold
    · simpa only [if_neg htoken] using h.live old hold
  access sess' hsess' := by
    obtain ⟨old, hold, rfl⟩ := List.mem_map.1 hsess'
    rw [lastAccess_concat]
    by_cases htoken : old.token = token
    · simp [accesses, htoken]
    · have hother : ¬ token = old.token := Ne.symm htoken
      simpa [accesses, htoken, hother] using h.access old hold
  kept other c hlive := by
    obtain ⟨hlive, -⟩ := (live_concat_of_creates rfl).1 hlive
    refine ((h.mono hnow).kept other c hlive).imp_left ?_
    rintro ⟨old, hold, rfl, rfl⟩
    refine ⟨_, List.mem_map_of_mem hold, ?_⟩
    by_cases htoken : old.token = token <;> simp [htoken]

/-- What a `Create` leaves of the store: all, or all but one. -/
theorem create_rest (h : Recorded past now s) (hsize : 1 ≤ s.maxSize)
    (hnew : ∀ c, ¬ Live past token c) (now' : ℕ) (username : String) (walk : Walk) :
    ∃ gone rest, s.sessions.Perm (gone ++ rest) ∧ rest.length + 1 ≤ s.maxSize ∧
      (s.create token now' username (walk.order s.sessions)).sessions =
        ⟨token, username, now', now'⟩ :: rest := by
  have hlookup := h.lookup_eq_none hnew
  by_cases hroom : s.sessions.length < s.maxSize
  · exact ⟨[], s.sessions, List.Perm.refl _, hroom, create_room hroom hlookup⟩
  · obtain ⟨evicted, rest, hperm, hsessions, -⟩ :=
      create_full now' username h.keys (Nat.not_lt.1 hroom) hsize (walk.perm s.sessions) hlookup
    refine ⟨[evicted], rest, hperm, ?_, hsessions⟩
    rw [← List.length_cons, ← hperm.length_eq]
    exact h.size

end Recorded

/-- No call changes how many sessions the store has room for. -/
theorem maxSize_create (s : SessionStore) (token : Token) (now : ℕ) (username : String)
    (order : List Session) : (s.create token now username order).maxSize = s.maxSize := by
  unfold SessionStore.create SessionStore.evictOldestLocked
  split
  · cases oldest order <;> rfl
  · rfl

theorem maxSize_validate (s : SessionStore) (token : Token) (now : ℕ) :
    (s.validate token now).1.maxSize = s.maxSize := by
  unfold SessionStore.validate
  split
  · rfl
  · split <;> rfl

theorem bounds_serve (s : SessionStore) (i : ℕ × Call) :
    (s.serve i).1.maxAge = s.maxAge ∧ (s.serve i).1.maxSize = s.maxSize := by
  obtain ⟨now, ⟨token, username, walk⟩ | token | token | _⟩ := i
  · exact ⟨maxAge_create .., maxSize_create ..⟩
  · exact ⟨maxAge_validate .., maxSize_validate ..⟩
  · exact ⟨rfl, rfl⟩
  · exact ⟨rfl, rfl⟩

namespace Recorded

variable {past : List Entry} {now now' : ℕ} {s : SessionStore} {token : Token}

/-- **A `Create`** of a new token records it, and ends what it throws out. -/
theorem create (h : Recorded past now s) (hsize : 1 ≤ s.maxSize) (hnow : now ≤ now')
    (hnew : ∀ c, ¬ Live past token c) (username : String) (walk : Walk) :
    Recorded (past ++ [(s, (now', .create token username walk), none)]) now'
      (s.create token now' username (walk.order s.sessions)) := by
  obtain ⟨gone, rest, hperm, hlength, hsessions⟩ :=
    h.create_rest hsize hnew now' username walk
  have hrest : ∀ sess ∈ rest, sess ∈ s.sessions := fun sess hsess =>
    hperm.mem_iff.2 (List.mem_append_right gone hsess)
  have htokens : ∀ sess ∈ s.sessions, token ≠ sess.token := fun sess hsess heq =>
    hnew _ (heq ▸ h.live sess hsess)
  have hkeys : (gone.map Session.token ++ rest.map Session.token).Nodup := by
    rw [← List.map_append]
    exact (hperm.map Session.token).nodup_iff.1 h.keys
  obtain ⟨-, hkeysRest, hapart⟩ := List.nodup_append.1 hkeys
  constructor
  · rw [hsessions, List.map_cons, List.nodup_cons]
    refine ⟨fun hmem => ?_, hkeysRest⟩
    obtain ⟨sess, hsess, htoken⟩ := List.mem_map.1 hmem
    exact htokens sess (hrest sess hsess) htoken.symm
  · rw [hsessions, maxSize_create, List.length_cons]
    exact hlength
  · rw [hsessions]
    intro sess hsess
    rcases List.mem_cons.1 hsess with rfl | hold
    · exact live_concat.2 (.inl ⟨rfl, rfl⟩)
    · refine live_concat.2 (.inr ⟨h.live sess (hrest sess hold), ?_⟩)
      -- what stays was not thrown out: it is found in the store after the call
      rintro (hdelete | ⟨-, -, hnone⟩)
      · cases hdelete
      · have hfind := List.find?_eq_none.1 hnone sess (hsessions ▸ hsess)
        simp at hfind
  · rw [hsessions]
    intro sess hsess
    rw [lastAccess_concat]
    rcases List.mem_cons.1 hsess with rfl | hold
    · simp [accesses]
    · have hother := htokens sess (hrest sess hold)
      simpa [accesses, hother] using h.access sess (hrest sess hold)
  · intro other c hlive
    rw [hsessions, maxAge_create]
    rcases live_concat.1 hlive with ⟨hcreates, rfl⟩ | ⟨hlive, hstays⟩
    · exact .inl ⟨_, List.mem_cons_self, Option.some.inj hcreates, rfl⟩
    rcases (h.mono hnow).kept other c hlive with ⟨sess, hmem, rfl, rfl⟩ | hexpired
    · refine .inl ⟨sess, List.mem_cons_of_mem _ ?_, rfl, rfl⟩
      refine (List.mem_append.1 (hperm.mem_iff.1 hmem)).resolve_left fun hgone => hstays (.inr ?_)
      -- a session that is not left is not found after the call, so the call evicted it
      refine ⟨rfl, List.find?_isSome.2 ⟨sess, hmem, decide_eq_true rfl⟩, ?_⟩
      refine List.find?_eq_none.2 fun left hleft htoken => ?_
      have htoken := of_decide_eq_true htoken
      rcases List.mem_cons.1 (hsessions ▸ hleft : left ∈ _ :: rest) with rfl | hleft
      · exact htokens sess hmem htoken
      · exact hapart _ (List.mem_map_of_mem hgone) _ (List.mem_map_of_mem hleft) htoken.symm
    · exact .inr hexpired

/-- **A `Validate`** keeps the record. -/
theorem validate (h : Recorded past now s) (hnow : now ≤ now') (token : Token) :
    Recorded (past ++ [(s, (now', .validate token), (s.validate token now').2)]) now'
      (s.validate token now').1 := by
  unfold SessionStore.validate
  cases hlookup : s.lookup token with
  | none =>
      have hkept : Recorded (past ++ [(s, (now', .validate token), none)]) now'
          { s with sessions := s.sessions.filter fun _ => true } :=
        h.filter hnow rfl (fun other => by simp [accesses]) (fun _ _ _ => nofun) nofun
      simpa only [List.filter_true] using hkept
  | some sess =>
      obtain ⟨hmem, htoken⟩ := h.lookup_eq_some_iff.1 hlookup
      by_cases hexpired : s.expired now' sess = true
      · simp only [hexpired, if_true]
        refine h.filter hnow rfl (fun other => by simp [accesses]) (fun _ _ _ => nofun)
          fun found hfound hdropped => .inr ?_
        -- the session that goes is the one that was found expired
        have hsame : found.token = token := by simpa using hdropped
        have heq := hlookup.symm.trans (h.lookup_eq_some_iff.2 ⟨hfound, hsame⟩)
        obtain rfl := Option.some.inj heq
        simpa [SessionStore.expired] using hexpired
      · simp only [hexpired]
        exact h.touch hnow

/-- **Every call keeps the record.** -/
theorem serve (h : Recorded past now s) (hsize : 1 ≤ s.maxSize) (hnow : now ≤ now') {call : Call}
    (hnew : ∀ token, call.creates = some token → ∀ c, ¬ Live past token c) :
    Recorded (past ++ [(s, (now', call), (s.serve (now', call)).2)]) now'
      (s.serve (now', call)).1 := by
  cases call with
  | create token username walk => exact h.create hsize hnow (hnew token rfl) username walk
  | validate token => exact h.validate hnow token
  | delete token =>
      refine h.filter hnow rfl (fun _ => rfl) (fun sess _ hkeep heq => ?_) fun sess _ hdropped => ?_
      · cases heq
        simp at hkeep
      · exact .inl (congrArg Call.delete (by simpa using hdropped : sess.token = token).symm)
  | cleanup =>
      refine h.filter hnow rfl (fun _ => rfl) (fun _ _ _ => nofun) fun sess _ hdropped => .inr ?_
      simpa [SessionStore.expired] using hdropped

/-- **Every history keeps it**, from the empty store on. -/
theorem after {s₀ : SessionStore} (hempty : s₀.sessions = []) (hsize : 1 ≤ s₀.maxSize)
    {calls : List (ℕ × Call)} (hclock : calls.Pairwise fun a b => a.1 ≤ b.1)
    (htokens : (calls.filterMap fun call => call.2.creates).Nodup) {now : ℕ}
    (hnow : ∀ call ∈ calls, call.1 ≤ now) :
    Recorded (trace SessionStore.serve s₀ calls) now (OpenManet.after SessionStore.serve s₀ calls) ∧
      1 ≤ (OpenManet.after SessionStore.serve s₀ calls).maxSize := by
  induction calls using List.reverseRecOn generalizing now with
  | nil =>
      refine ⟨⟨?_, ?_, ?_, ?_, ?_⟩, hsize⟩
      · simp [hempty]
      · simp [hempty]
      · simp [hempty]
      · simp [hempty]
      · rintro token c ⟨earlier, e, since, hsplit, -⟩
        simp at hsplit
  | append_singleton calls call ih =>
      obtain ⟨hclockPast, -, hlast⟩ := List.pairwise_append.1 hclock
      rw [List.filterMap_append, List.nodup_append] at htokens
      obtain ⟨htokensPast, -, hfresh⟩ := htokens
      obtain ⟨hrec, hsizeAfter⟩ := ih hclockPast htokensPast
        fun earlier hearlier => hlast earlier hearlier call List.mem_cons_self
      rw [after_append, trace_append, after_cons, after_nil, trace_cons, trace_nil,
        (bounds_serve _ call).2]
      refine ⟨(hrec.serve hsizeAfter le_rfl fun token hcreates c hlive => ?_).mono
        (hnow call (by simp)), hsizeAfter⟩
      -- the token would have been created twice
      exact hfresh token hlive.of_calls token (by simp [hcreates]) rfl

end Recorded

/-- A `Validate` accepts exactly what is live and no older than it may be. -/
theorem Recorded.validate_isSome {past : List Entry} {now : ℕ} {s : SessionStore}
    (h : Recorded past now s) (token : Token) :
    (s.validate token now).2.isSome = true ↔ ∃ c, Live past token c ∧ now - c ≤ s.maxAge := by
  rw [Auth.validate_isSome]
  constructor
  · rintro ⟨sess, hlookup, hfresh⟩
    obtain ⟨hmem, rfl⟩ := h.lookup_eq_some_iff.1 hlookup
    exact ⟨sess.createdAt, h.live sess hmem, by simpa [SessionStore.expired] using hfresh⟩
  · rintro ⟨c, hlive, hage⟩
    rcases h.kept token c hlive with ⟨sess, hmem, rfl, rfl⟩ | hexpired
    · exact ⟨sess, h.lookup_eq_some_iff.2 ⟨hmem, rfl⟩, by simpa [SessionStore.expired] using hage⟩
    · omega

/-- **The session store**, after any calls made by a clock that does not run
back, each `Create` with a token of its own, and at one call more. It never
holds more sessions than `maxSize`. A `Validate` accepts a token exactly when a
`Create` made it, no `Delete` and no other `Create` has taken it away since,
and it is no older than `maxAge`. A `Create` takes nothing away while there is
room; in a full store it takes away one session, which was not accessed after
any other. -/
theorem sessions_of_history (maxAge maxSize : ℕ) (hsize : 1 ≤ maxSize) (calls : List (ℕ × Call))
    (now : ℕ) (call : Call)
    (hclock : (calls ++ [(now, call)]).Pairwise fun a b => a.1 ≤ b.1)
    (htokens : ((calls ++ [(now, call)]).filterMap fun call => call.2.creates).Nodup) :
    let s := after SessionStore.serve (newSessionStore maxAge maxSize) calls
    let past := trace SessionStore.serve (newSessionStore maxAge maxSize) calls
    let s' := (s.serve (now, call)).1
    s.sessions.length ≤ maxSize ∧ s'.sessions.length ≤ maxSize ∧
      (∀ token, call = .validate token →
        ((s.serve (now, call)).2.isSome = true ↔
          ∃ c, Live past token c ∧ now - c ≤ maxAge)) ∧
      ∀ token username walk, call = .create token username walk →
        (s.sessions.length < maxSize →
          s'.sessions = ⟨token, username, now, now⟩ :: s.sessions) ∧
        (s.sessions.length = maxSize →
          ∃ evicted rest, s.sessions.Perm (evicted :: rest) ∧
            s'.sessions = ⟨token, username, now, now⟩ :: rest ∧
            ∀ other ∈ s.sessions, ∃ a b, lastAccess past evicted.token = some a ∧
              lastAccess past other.token = some b ∧ a ≤ b) := by
  intro s past s'
  have hempty : (newSessionStore maxAge maxSize).sessions = [] := rfl
  have htime : ∀ earlier ∈ calls ++ [(now, call)], earlier.1 ≤ now := fun earlier hearlier => by
    rcases List.mem_append.1 hearlier with hearlier | hearlier
    · exact (List.pairwise_append.1 hclock).2.2 earlier hearlier _ List.mem_cons_self
    · exact (congrArg Prod.fst (List.mem_singleton.1 hearlier)).le
  have hbounds : s.maxAge = maxAge ∧ s.maxSize = maxSize :=
    after_invariant (I := fun s : SessionStore => s.maxAge = maxAge ∧ s.maxSize = maxSize)
      (fun s call hs => by rwa [(bounds_serve s call).1, (bounds_serve s call).2]) ⟨rfl, rfl⟩ calls
  obtain ⟨hrec, -⟩ := Recorded.after hempty hsize (List.pairwise_append.1 hclock).1
    (htokens.sublist ((List.sublist_append_left calls _).filterMap _))
    fun earlier hearlier => htime earlier (List.mem_append_left _ hearlier)
  have hafter := (Recorded.after hempty hsize hclock htokens htime).1.size
  rw [after_append, after_cons, after_nil, (bounds_serve _ _).2, hbounds.2] at hafter
  refine ⟨hbounds.2 ▸ hrec.size, hafter, ?_, ?_⟩
  · rintro token rfl
    rw [← hbounds.1]
    exact hrec.validate_isSome token
  · rintro token username walk rfl
    have hnew : s.lookup token = none := hrec.lookup_eq_none fun c hlive => by
      rw [List.filterMap_append, List.nodup_append] at htokens
      exact htokens.2.2 token hlive.of_calls token (by simp [Call.creates]) rfl
    refine ⟨fun hroom => create_room (hbounds.2 ▸ hroom) hnew, fun hfull => ?_⟩
    obtain ⟨evicted, rest, hperm, hsessions, hleast⟩ :=
      create_full now username hrec.keys (hbounds.2.trans hfull.symm).le
        (hsize.trans hbounds.2.ge) (walk.perm s.sessions) hnew
    refine ⟨evicted, rest, hperm, hsessions, fun other hother => ?_⟩
    exact ⟨_, _, hrec.access evicted (hperm.mem_iff.2 List.mem_cons_self),
      hrec.access other hother, hleast other hother⟩

/-- The walk in the order of the list. -/
def Walk.inOrder : Walk := ⟨id, List.Perm.refl⟩

/-- Two sessions fill a store for two; a third takes the place of the one that
was not validated. -/
theorem sessions_of_history_third :
    let s := after SessionStore.serve (newSessionStore 5 2)
      [(0, .create ['a'] "alice" .inOrder), (1, .create ['b'] "bob" .inOrder), (2, .validate ['a'])]
    let s' := (s.serve (3, .create ['c'] "carol" .inOrder)).1
    s.sessions.length = 2 ∧ s'.sessions.length ≤ 2 ∧
      ∃ evicted rest, s.sessions.Perm (evicted :: rest) ∧
        s'.sessions = ⟨['c'], "carol", 3, 3⟩ :: rest := by
  intro s s'
  have hfull : s.sessions.length = 2 := by decide
  obtain ⟨-, hsize, -, hcreate⟩ := sessions_of_history 5 2 (by decide)
    [(0, .create ['a'] "alice" .inOrder), (1, .create ['b'] "bob" .inOrder), (2, .validate ['a'])]
    3 (.create ['c'] "carol" .inOrder) (by decide) (by decide)
  obtain ⟨evicted, rest, hperm, hsessions, -⟩ := (hcreate _ _ _ rfl).2 hfull
  exact ⟨hfull, hsize, evicted, rest, hperm, hsessions⟩

end Auth

end OpenManet
