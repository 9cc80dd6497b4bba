import OpenManet.Lib.Text
import Mathlib.Data.List.Perm.Basic
/-!
# Authentication — the session store and the middleware

`internal/auth/session.go` and `middleware.go`. The store is bounded: a
`Create` that finds it full removes the session whose last access is the
oldest. A session expires `maxAge` after its creation, whatever its last
access, and is removed by the `Validate` or the `Cleanup` that finds it so.

Times are nanoseconds of the monotonic clock. The map of sessions is a list,
and a walk over it is in an order of its own, which `evictOldestLocked` takes
as an argument: of several sessions with the oldest access it removes the one
it comes to first. Tokens come from outside, as `generateToken` makes them.
-/

namespace OpenManet

namespace Auth

/-- A session token: hexadecimal digits. -/
abbrev Token : Type := List Char

/-- `Session`. -/
structure Session where
  token : Token
  username : String
  createdAt : ℕ
  lastAccess : ℕ
deriving DecidableEq

/-- `SessionStore`. -/
structure SessionStore where
  sessions : List Session
  maxAge : ℕ
  maxSize : ℕ

/-- `NewSessionStore`. -/
def newSessionStore (maxAge maxSize : ℕ) : SessionStore := ⟨[], maxAge, maxSize⟩

/-- The older of the candidate of `evictOldestLocked`, if it has one yet, and
the session it comes to. -/
def older (best : Option Session) (sess : Session) : Option Session :=
  match best with
  | none => some sess
  | some b => if sess.lastAccess < b.lastAccess then some sess else some b

/-- The session the walk of `evictOldestLocked` is left with. -/
def oldest (order : List Session) : Option Session := order.foldl older none

namespace SessionStore

variable (s : SessionStore) (token : Token)

/-- `sessions[token]`. -/
def lookup : Option Session := s.sessions.find? fun sess => sess.token = token

/-- `Delete`. -/
def delete : SessionStore :=
  { s with sessions := s.sessions.filter fun sess => sess.token ≠ token }

/-- `evictOldestLocked`. -/
def evictOldestLocked (order : List Session) : SessionStore :=
  match oldest order with
  | none => s
  | some sess => s.delete sess.token

/-- `Create`, with the token it generates. -/
def create (now : ℕ) (username : String) (order : List Session) : SessionStore :=
  let s' := if s.maxSize ≤ s.sessions.length then s.evictOldestLocked order else s
  { s' with sessions := ⟨token, username, now, now⟩ :: (s'.delete token).sessions }

/-- `now.Sub(sess.CreatedAt) > s.maxAge`. -/
def expired (now : ℕ) (sess : Session) : Bool := s.maxAge < now - sess.createdAt

/-- A session is accessed. -/
def touch (now : ℕ) : SessionStore :=
  { s with
    sessions := s.sessions.map fun sess =>
      if sess.token = token then { sess with lastAccess := now } else sess }

/-- `Validate`. -/
def validate (now : ℕ) : SessionStore × Option Session :=
  match s.lookup token with
  | none => (s, none)
  | some sess =>
      if s.expired now sess then (s.delete token, none)
      else (s.touch token now, some { sess with lastAccess := now })

/-- `Cleanup`. -/
def cleanup (now : ℕ) : SessionStore :=
  { s with sessions := s.sessions.filter fun sess => !s.expired now sess }

end SessionStore

/-! ## The middleware -/

/-- A request, as far as authentication reads it. -/
structure Request where
  path : String
  /-- The `Authorization` header, empty where there is none. -/
  authorization : List Char
  /-- The value of the `session` cookie. -/
  cookie : Option Token

/-- What the middleware does with a request. -/
inductive Verdict where
  /-- It is served, for this user where one was found. -/
  | next (username : Option String)
  | unauthorized
deriving DecidableEq

/-- The prefix of a bearer token. -/
def bearer : List Char := "Bearer ".toList

/-- The token of an `Authorization` header, if it has one. -/
def bearerToken (h : List Char) : Token :=
  if bearer.length < h.length ∧
      (h.take bearer.length).map Text.foldRune = bearer.map Text.foldRune then
    Text.trimSpace (h.drop bearer.length)
  else []

/-- `extractSessionToken`. -/
def extractSessionToken (r : Request) : Token :=
  if bearerToken r.authorization ≠ [] then bearerToken r.authorization else r.cookie.getD []

/-- `isAPISkipPath`. -/
def isAPISkipPath (r : Request) : Bool :=
  r.path ∈ ["/auth/login", "/auth/check",
    "/openmanet.dashboard.v1.DashboardService/GetDashboardStatus",
    "/openmanet.setup.v1.SetupService/GetSetupStatus",
    "/openmanet.setup.v1.SetupService/ApplySetup"]

/-- `NewAPIAuthMiddleware`, for one request. -/
def apiAuthMiddleware (s : SessionStore) (enabled : Bool) (r : Request) (now : ℕ) :
    SessionStore × Verdict :=
  if !enabled || isAPISkipPath r then (s, .next none)
  else if extractSessionToken r = [] then (s, .unauthorized)
  else
    match s.validate (extractSessionToken r) now with
    | (s', some sess) => (s', .next (some sess.username))
    | (s', none) => (s', .unauthorized)

/-! ## Lookups -/

section Lookups

variable (s : SessionStore) (token other : Token) (now : ℕ)

theorem lookup_token {sess : Session} (h : s.lookup token = some sess) : sess.token = token := by
  simpa using List.find?_some h

/-- A deletion takes away what it names and nothing else. -/
theorem lookup_delete :
    (s.delete token).lookup other = if other = token then none else s.lookup other := by
  rw [SessionStore.lookup, SessionStore.delete, List.find?_filter]
  split
  · next h =>
    subst h
    rw [List.find?_eq_none]
    intro sess _
    simp
  · next h =>
    rw [SessionStore.lookup]
    congr 1
    funext sess
    by_cases hsess : sess.token = other
    · simp [hsess, h]
    · simp [hsess]

/-- A `Create` adds its session to what is left. -/
theorem lookup_create (username : String) (order : List Session) :
    (s.create token now username order).lookup other =
      if other = token then some ⟨token, username, now, now⟩
      else (if s.maxSize ≤ s.sessions.length then s.evictOldestLocked order else s).lookup other := by
  rw [SessionStore.lookup, SessionStore.create]
  by_cases h : other = token
  · subst h
    simp
  · have hne : token ≠ other := Ne.symm h
    simp only [List.find?_cons, hne, decide_false, if_neg h]
    have := lookup_delete
      (if s.maxSize ≤ s.sessions.length then s.evictOldestLocked order else s) token other
    rw [if_neg h] at this
    exact this

/-- Accessing a session changes no session but in its last access. -/
theorem lookup_touch :
    (s.touch token now).lookup other = (s.lookup other).map fun sess =>
      if sess.token = token then { sess with lastAccess := now } else sess := by
  rw [SessionStore.lookup, SessionStore.touch, List.find?_map, SessionStore.lookup]
  congr 2
  funext sess
  by_cases h : sess.token = token <;> simp [h]

/-- A session that has not expired survives the cleaning. -/
theorem lookup_cleanup {sess : Session} (h : s.lookup token = some sess)
    (hfresh : s.expired now sess = false) : (s.cleanup now).lookup token = some sess := by
  rw [SessionStore.lookup, SessionStore.cleanup]
  rw [SessionStore.lookup, List.find?_eq_some_iff_append] at h
  obtain ⟨htoken, before, after, hsplit, hbefore⟩ := h
  rw [List.find?_eq_some_iff_append]
  refine ⟨htoken, before.filter fun sess => !s.expired now sess,
    after.filter fun sess => !s.expired now sess, ?_, ?_⟩
  · simp [hsplit, List.filter_append, List.filter_cons, hfresh]
  · intro x hx
    exact hbefore x (List.mem_filter.1 hx).1

/-- `Validate` accepts exactly a session that is there and has not expired. -/
theorem validate_isSome : (s.validate token now).2.isSome = true ↔
    ∃ sess, s.lookup token = some sess ∧ s.expired now sess = false := by
  unfold SessionStore.validate
  cases hlookup : s.lookup token with
  | none => simp
  | some sess => cases hexpired : s.expired now sess <;> simp [hexpired]

/-- Another token's `Validate` leaves a session, its age and its user. -/
theorem lookup_validate (hother : other ≠ token) :
    (s.validate token now).1.lookup other = s.lookup other := by
  unfold SessionStore.validate
  cases hlookup : s.lookup token with
  | none => rfl
  | some sess =>
      cases hexpired : s.expired now sess with
      | true => simp [hexpired, lookup_delete, hother]
      | false =>
          simp only [hexpired, lookup_touch, Bool.false_eq_true, if_false]
          cases hfound : s.lookup other with
          | none => rfl
          | some found =>
              have hne : found.token ≠ token := by
                rw [lookup_token s other hfound]
                exact hother
              simp [hne]

/-- A `Validate` that accepts keeps the session and its age. -/
theorem lookup_validate_self {sess : Session} (h : s.lookup token = some sess)
    (hfresh : s.expired now sess = false) :
    (s.validate token now).1.lookup token = some { sess with lastAccess := now } := by
  have htoken := lookup_token s token h
  simp [SessionStore.validate, h, hfresh, lookup_touch, htoken]

end Lookups

/-- No operation changes the lifetime. -/
theorem maxAge_create (s : SessionStore) (token : Token) (now : ℕ) (username : String)
    (order : List Session) : (s.create token now username order).maxAge = s.maxAge := by
  unfold SessionStore.create SessionStore.evictOldestLocked
  split
  · cases oldest order <;> rfl
  · rfl

theorem maxAge_validate (s : SessionStore) (token : Token) (now : ℕ) :
    (s.validate token now).1.maxAge = s.maxAge := by
  unfold SessionStore.validate
  split
  · rfl
  · split <;> rfl

/-! ## The oldest session -/

/-- The session is the first, in this order, of those with the oldest
access. -/
def Oldest (order : List Session) (sess : Session) : Prop :=
  ∃ before after, order = before ++ sess :: after ∧
    (∀ x ∈ before, sess.lastAccess < x.lastAccess) ∧ ∀ x ∈ after, sess.lastAccess ≤ x.lastAccess

/-- The walk with a candidate in hand ends with it, or with the first of what
is older. -/
theorem foldl_oldest (order : List Session) (best : Session) :
    ∃ sess, order.foldl older (some best) = some sess ∧
    ((sess = best ∧ ∀ x ∈ order, best.lastAccess ≤ x.lastAccess) ∨
      (Oldest order sess ∧ sess.lastAccess < best.lastAccess)) := by
  induction order generalizing best with
  | nil => exact ⟨best, rfl, .inl ⟨rfl, nofun⟩⟩
  | cons x order ih =>
      simp only [List.foldl_cons, older]
      split
      · next hlt =>
        obtain ⟨sess, hfold, ⟨rfl, hall⟩ | ⟨⟨before, after, rfl, hbefore, hafter⟩, hsess⟩⟩ := ih x
        · exact ⟨sess, hfold, .inr ⟨⟨[], order, rfl, nofun, hall⟩, hlt⟩⟩
        · refine ⟨sess, hfold, .inr ⟨⟨x :: before, after, rfl, ?_, hafter⟩, by omega⟩⟩
          intro y hy
          rcases List.mem_cons.1 hy with rfl | hy
          · exact hsess
          · exact hbefore y hy
      · next hge =>
        obtain ⟨sess, hfold, ⟨rfl, hall⟩ | ⟨⟨before, after, rfl, hbefore, hafter⟩, hsess⟩⟩ := ih best
        · refine ⟨sess, hfold, .inl ⟨rfl, fun y hy => ?_⟩⟩
          rcases List.mem_cons.1 hy with rfl | hy
          · omega
          · exact hall y hy
        · refine ⟨sess, hfold, .inr ⟨⟨x :: before, after, rfl, ?_, hafter⟩, hsess⟩⟩
          intro y hy
          rcases List.mem_cons.1 hy with rfl | hy
          · omega
          · exact hbefore y hy

/-- There is one at most. -/
theorem Oldest.unique {order : List Session} {a b : Session} (ha : Oldest order a)
    (hb : Oldest order b) : a = b := by
  obtain ⟨pa, qa, rfl, hpa, hqa⟩ := ha
  obtain ⟨pb, qb, heq, hpb, hqb⟩ := hb
  rcases List.append_eq_append_iff.1 heq with ⟨m, hm, hrest⟩ | ⟨m, hm, hrest⟩
  · cases m with
    | nil => exact (List.cons.inj hrest).1
    | cons x m =>
        obtain ⟨rfl, rfl⟩ := List.cons.inj hrest
        have h1 := hpb a (by simp [hm])
        have h2 := hqa b (by simp)
        omega
  · cases m with
    | nil => exact (List.cons.inj hrest).1.symm
    | cons x m =>
        obtain ⟨rfl, rfl⟩ := List.cons.inj hrest
        have h1 := hpa b (by simp [hm])
        have h2 := hqb a (by simp)
        omega

/-- **The walk finds the oldest session.** -/
theorem oldest_eq_some_iff {order : List Session} {sess : Session} :
    oldest order = some sess ↔ Oldest order sess := by
  have hfound : ∀ {sess}, oldest order = some sess → Oldest order sess := by
    intro sess h
    cases order with
    | nil => cases h
    | cons x order =>
        simp only [oldest, List.foldl_cons, older] at h
        obtain ⟨sess', hfold, ⟨rfl, hall⟩ | ⟨⟨before, after, rfl, hbefore, hafter⟩, hlt⟩⟩ :=
          foldl_oldest order x
        · obtain rfl := Option.some.inj (hfold.symm.trans h)
          exact ⟨[], order, rfl, nofun, hall⟩
        · obtain rfl := Option.some.inj (hfold.symm.trans h)
          refine ⟨x :: before, after, rfl, fun y hy => ?_, hafter⟩
          rcases List.mem_cons.1 hy with rfl | hy
          · exact hlt
          · exact hbefore y hy
  refine ⟨hfound, fun h => ?_⟩
  cases holdest : oldest order with
  | none =>
      obtain ⟨before, after, rfl, -, -⟩ := h
      cases before with
      | nil =>
          obtain ⟨sess', hfold, -⟩ := foldl_oldest after sess
          simp only [oldest, List.nil_append, List.foldl_cons, older] at holdest
          rw [hfold] at holdest
          cases holdest
      | cons x before =>
          obtain ⟨sess', hfold, -⟩ := foldl_oldest (before ++ sess :: after) x
          simp only [oldest, List.cons_append, List.foldl_cons, older] at holdest
          rw [hfold] at holdest
          cases holdest
  | some found => rw [(hfound holdest).unique h]

end Auth

end OpenManet
