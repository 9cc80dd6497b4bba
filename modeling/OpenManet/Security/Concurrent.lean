import OpenManet.Security.Replay
import Mathlib.Data.List.Perm.Basic
/-!
# Mesh payloads — concurrent calls

A call of `Decrypt` takes the lock twice, once to look its nonce up and once
to record it, and opens the envelope between the two with the lock free. Each
of the three is a step here, and a schedule interleaves the steps of any
number of calls.

Two calls may overlap in ways no order of them explains: both with the same
nonce, so that neither finds what the other is about to record; or with clock
readings more than a window apart, so that the one prunes what the other
records. `Apart` excludes these two, at the moment a call looks its nonce up,
and every run in which it holds answers as the calls would one after another,
in the order of their lookups.
-/

namespace OpenManet

namespace Security

open PayloadCodec

/-! ## The machine -/

/-- Where a call stands. -/
inductive Progress where
  /-- The header is read; `isReplay` is next. -/
  | looking (header : Header)
  /-- The nonce was not remembered; `Open` is next. -/
  | opening (header : Header)
  /-- The envelope is open; `markSeen` is next. -/
  | marking (header : Header) (plaintext : List UInt8)
  | returned (answer : Answer)
deriving DecidableEq

/-- A call of `Decrypt` under way. -/
structure Thread where
  call : Call
  progress : Progress
deriving DecidableEq

/-- The codec the calls share, and the calls. -/
structure Shared where
  codec : PayloadCodec
  threads : List Thread

/-- The schedule's choices. -/
inductive Action where
  /-- `Decrypt` is called; it reads the clock and the header. -/
  | call (call : Call)
  /-- A call takes its next step. -/
  | advance (i : ℕ)

/-- A call up to the lock. -/
def PayloadCodec.begin (c : PayloadCodec) (call : Call) : Progress :=
  match c.readHeader call with
  | none => .returned none
  | some (.error e) => .returned (some (.error e))
  | some (.ok header) => .looking header

/-- The next step of a call: a section under the lock, or `Open`. -/
def PayloadCodec.advance (c : PayloadCodec) (t : Thread) : Option (PayloadCodec × Progress) :=
  match t.progress with
  | .looking header =>
      match c.isReplay (replayKey t.call.source header.nonce) t.call.now with
      | (true, c) => some (c, .returned (some (.error .replayDetected)))
      | (false, c) => some (c, .opening header)
  | .opening header =>
      match c.openEnvelope t.call header with
      | none => some (c, .returned (some (.error .notAuthentic)))
      | some plaintext => some (c, .marking header plaintext)
  | .marking header plaintext =>
      some (c.markSeen (replayKey t.call.source header.nonce) t.call.now,
        .returned (some (.ok plaintext)))
  | .returned _ => none

/-- One step of a schedule. -/
def Shared.step (s : Shared) : Action → Option Shared
  | .call x => some { s with threads := s.threads ++ [⟨x, s.codec.begin x⟩] }
  | .advance i =>
      match s.threads[i]? with
      | none => none
      | some t => (s.codec.advance t).map fun (codec, progress) =>
          { codec := codec, threads := s.threads.set i { t with progress := progress } }

/-- The answer of a call that has returned. -/
def Thread.answer (t : Thread) : Answer :=
  match t.progress with
  | .returned answer => answer
  | _ => none

/-- Every call has returned. -/
def Shared.Done (s : Shared) : Prop := ∀ t ∈ s.threads, ∃ answer, t.progress = .returned answer

/-- The answers are those of the calls one after another, in some order. -/
def Serializable (c : PayloadCodec) (s : Shared) : Prop :=
  ∃ order : List Call, order.Perm (s.threads.map Thread.call) ∧
    ((trace PayloadCodec.step c order).map fun e => e.2.2).Perm (s.threads.map Thread.answer)

/-- The key of a call that has looked its nonce up, did not find it, and has
not returned. -/
def Thread.inside (t : Thread) : Option String :=
  match t.progress with
  | .opening header => some (replayKey t.call.source header.nonce)
  | .marking header _ => some (replayKey t.call.source header.nonce)
  | _ => none

/-- Two calls of different nonces, with clock readings at most a window
apart. -/
def Far (window : ℤ) (t u : Thread) : Prop :=
  ∀ key key', t.inside = some key → u.inside = some key' → key ≠ key' ∧
    t.call.now ≤ u.call.now + window ∧ u.call.now ≤ t.call.now + window

/-- A call looks its nonce up while no call of that nonce is inside, and none
whose clock reading is more than a window from its own. -/
def Apart (s : Shared) : Action → Prop
  | .call _ => True
  | .advance i =>
      match s.threads[i]? with
      | some ⟨x, .looking header⟩ =>
          ∀ u ∈ s.threads, Far s.codec.replayWindow u ⟨x, .opening header⟩
      | _ => True

instance (window : ℤ) (t u : Thread) : Decidable (Far window t u) :=
  decidable_of_iff (∀ key ∈ t.inside, ∀ key' ∈ u.inside, key ≠ key' ∧
      t.call.now ≤ u.call.now + window ∧ u.call.now ≤ t.call.now + window)
    ⟨fun h key key' hkey hkey' => h key hkey key' hkey',
      fun h key hkey key' hkey' => h key key' hkey hkey'⟩

instance (s : Shared) (a : Action) : Decidable (Apart s a) := by
  unfold Apart
  split
  · exact isTrue trivial
  · split <;> infer_instance

/-! ## What a step can do -/

/-- A place in a list, and what stands around it. -/
theorem exists_around {l : List Thread} {i : ℕ} {t : Thread} (h : l[i]? = some t) :
    ∃ pre post, l = pre ++ t :: post ∧ ∀ t', l.set i t' = pre ++ t' :: post := by
  obtain ⟨hi, rfl⟩ := List.getElem?_eq_some_iff.1 h
  refine ⟨l.take i, l.drop (i + 1), ?_, fun t' => ?_⟩
  · rw [← List.drop_eq_getElem_cons hi, List.take_append_drop]
  · rw [List.set_eq_take_append_cons_drop, if_pos hi]

/-- **What a step can do.** A call begins, or one of the calls goes on. -/
theorem Shared.step_cases {s s' : Shared} {a : Action} (h : s.step a = some s') :
    (∃ x, a = .call x ∧ s' = ⟨s.codec, s.threads ++ [⟨x, s.codec.begin x⟩]⟩) ∨
    (∃ i pre t post codec progress, a = .advance i ∧ s.threads[i]? = some t ∧
      s.threads = pre ++ t :: post ∧ s.codec.advance t = some (codec, progress) ∧
      s' = ⟨codec, pre ++ { t with progress := progress } :: post⟩) := by
  cases a with
  | call x =>
      cases h
      exact .inl ⟨x, rfl, rfl⟩
  | advance i =>
      simp only [step] at h
      split at h
      · cases h
      · rename_i t ht
        obtain ⟨⟨codec, progress⟩, hadvance, rfl⟩ := Option.map_eq_some_iff.1 h
        obtain ⟨pre, post, hthreads, hset⟩ := exists_around ht
        exact .inr ⟨i, pre, t, post, codec, progress, rfl, ht, hthreads, hadvance, by rw [hset]⟩

/-! ## The order of the lookups -/

variable (c₀ : PayloadCodec)

/-- What a call that has looked its nonce up will answer. -/
def Thread.settled (t : Thread) : Option (Call × Answer) :=
  match t.progress with
  | .looking _ => none
  | .opening header =>
      match c₀.openEnvelope t.call header with
      | none => some (t.call, some (.error .notAuthentic))
      | some plaintext => some (t.call, some (.ok plaintext))
  | .marking _ plaintext => some (t.call, some (.ok plaintext))
  | .returned answer => some (t.call, answer)

/-- The key a call inside is going to record. -/
def Thread.marks (t : Thread) : Option String :=
  match t.progress with
  | .opening header =>
      if (c₀.openEnvelope t.call header).isSome then some (replayKey t.call.source header.nonce)
      else none
  | .marking header _ => some (replayKey t.call.source header.nonce)
  | _ => none

/-- The header a call goes on with. -/
def Thread.header (t : Thread) : Option Header :=
  match t.progress with
  | .looking header => some header
  | .opening header => some header
  | .marking header _ => some header
  | .returned _ => none

/-- A call that has not returned read the header it goes on with. -/
def Thread.Sound (t : Thread) : Prop :=
  ∀ header, t.header = some header → c₀.readHeader t.call = some (.ok header)

/-- **What a run keeps.** A log of calls and answers, in the order of the
lookups, is a sequential run; and where no call is about to record, the
codecs of the two agree. -/
structure Linear (log : List (Call × Answer)) (s : Shared) : Prop where
  like : ∃ seen, s.codec = { c₀ with seen := seen }
  sound : ∀ t ∈ s.threads, t.Sound c₀
  answers : (trace PayloadCodec.step c₀ (log.map Prod.fst)).map (fun e => e.2.2) = log.map Prod.snd
  settled : log.Perm (s.threads.filterMap (Thread.settled c₀))
  agree : ∀ key, (∀ t ∈ s.threads, t.marks c₀ ≠ some key) →
    s.codec.seen key = (after PayloadCodec.step c₀ (log.map Prod.fst)).seen key
  marked : ∀ t ∈ s.threads, ∀ key, t.marks c₀ = some key →
    (after PayloadCodec.step c₀ (log.map Prod.fst)).seen key = some t.call.now
  pruned : ∀ t ∈ s.threads, ∀ key, t.inside = some key → ∀ key' received,
    s.codec.seen key' = some received → t.call.now - c₀.replayWindow ≤ received
  far : s.threads.Pairwise (Far c₀.replayWindow)

variable {c₀} {log : List (Call × Answer)} {codec : PayloadCodec} {pre post : List Thread}
variable {t t' : Thread}

theorem linear_init : Linear c₀ [] ⟨c₀, []⟩ where
  like := ⟨c₀.seen, rfl⟩
  sound := by simp
  answers := rfl
  settled := List.Perm.nil
  agree := fun _ _ => rfl
  marked := by simp
  pruned := by simp
  far := List.Pairwise.nil

/-- A call that marks is inside. -/
theorem Thread.inside_of_marks {key : String} (h : t.marks c₀ = some key) :
    t.inside = some key := by
  obtain ⟨call, progress⟩ := t
  cases progress with
  | opening header =>
      simp only [Thread.marks] at h
      split at h
      · exact h
      · cases h
  | marking header plaintext => exact h
  | looking header => cases h
  | returned answer => cases h

theorem Far.symm {window : ℤ} {u : Thread} (h : Far window t u) : Far window u t := by
  intro key key' hu ht
  obtain ⟨hne, hle, hle'⟩ := h key' key ht hu
  exact ⟨hne.symm, hle', hle⟩

/-- One call is replaced by another that is as far from the rest. -/
theorem pairwise_replace {R : Thread → Thread → Prop} (h : (pre ++ t :: post).Pairwise R)
    (hpre : ∀ u ∈ pre, R u t') (hpost : ∀ u ∈ post, R t' u) : (pre ++ t' :: post).Pairwise R := by
  rw [List.pairwise_append, List.pairwise_cons] at h ⊢
  obtain ⟨hleft, ⟨-, hright⟩, hcross⟩ := h
  refine ⟨hleft, ⟨hpost, hright⟩, fun u hu v hv => ?_⟩
  rcases List.mem_cons.1 hv with rfl | hv
  · exact hpre u hu
  · exact hcross u hu v (List.mem_cons_of_mem _ hv)

/-- What holds of every call holds after one is replaced by another it holds
of. -/
theorem forall_replace {P : Thread → Prop} (h : ∀ u ∈ pre ++ t :: post, P u) (ht : P t') :
    ∀ u ∈ pre ++ t' :: post, P u := by
  intro u hu
  rcases List.mem_append.1 hu with hu | hu
  · exact h u (List.mem_append_left _ hu)
  · rcases List.mem_cons.1 hu with rfl | hu
    · exact ht
    · exact h u (List.mem_append_right _ (List.mem_cons_of_mem _ hu))

theorem mem_around {u : Thread} (h : u ∈ pre ++ t :: post) : u = t ∨ u ∈ pre ++ post := by
  rcases List.mem_append.1 h with h | h
  · exact .inr (List.mem_append_left _ h)
  · rcases List.mem_cons.1 h with rfl | h
    · exact .inl rfl
    · exact .inr (List.mem_append_right _ h)

theorem mem_of_around {u : Thread} (h : u ∈ pre ++ post) : u ∈ pre ++ t :: post := by
  rcases List.mem_append.1 h with h | h
  · exact List.mem_append_left _ h
  · exact List.mem_append_right _ (List.mem_cons_of_mem _ h)

/-- A call is far from each of the others. -/
theorem Linear.far_from (h : Linear c₀ log ⟨codec, pre ++ t :: post⟩) :
    ∀ u ∈ pre ++ post, Far c₀.replayWindow u t := by
  have hfar := h.far
  rw [List.pairwise_append, List.pairwise_cons] at hfar
  intro u hu
  rcases List.mem_append.1 hu with hu | hu
  · exact hfar.2.2 u hu t List.mem_cons_self
  · exact (hfar.2.1.1 u hu).symm

/-- The calls stay far from one another where one is replaced that is far
from the rest. -/
theorem Linear.far_replace (h : Linear c₀ log ⟨codec, pre ++ t :: post⟩)
    (hfar : ∀ u ∈ pre ++ post, Far c₀.replayWindow u t') :
    (pre ++ t' :: post).Pairwise (Far c₀.replayWindow) :=
  pairwise_replace h.far (fun u hu => hfar u (List.mem_append_left _ hu))
    (fun u hu => (hfar u (List.mem_append_right _ hu)).symm)

/-- A call is as far from the rest as one that is inside wherever it is. -/
theorem Far.of_inside {window : ℤ} {u : Thread} (h : Far window u t) (hcall : t'.call = t.call)
    (hinside : ∀ key, t'.inside = some key → t.inside = some key) : Far window u t' := by
  intro key key' hk hk'
  rw [hcall]
  exact h key key' hk (hinside key' hk')

/-- A call goes on without the codec: it answers what it was to, and records
what it was to. -/
theorem Linear.replace (h : Linear c₀ log ⟨codec, pre ++ t :: post⟩) (hcall : t'.call = t.call)
    (hsound : t'.Sound c₀) (hsettled : t'.settled c₀ = t.settled c₀)
    (hmarks : t'.marks c₀ = t.marks c₀)
    (hinside : ∀ key, t'.inside = some key → t.inside = some key) :
    Linear c₀ log ⟨codec, pre ++ t' :: post⟩ where
  like := h.like
  sound := forall_replace h.sound hsound
  answers := h.answers
  settled := by
    refine h.settled.trans (List.Perm.of_eq ?_)
    simp only [List.filterMap_append, List.filterMap_cons, hsettled]
  agree := by
    intro key hkey
    refine h.agree key (forall_replace hkey ?_)
    rw [← hmarks]
    exact hkey t' (List.mem_append_right _ List.mem_cons_self)
  marked := by
    refine forall_replace h.marked fun key hkey => ?_
    rw [hmarks] at hkey
    rw [hcall]
    exact h.marked t (List.mem_append_right _ List.mem_cons_self) key hkey
  pruned := by
    refine forall_replace h.pruned fun key hkey => ?_
    rw [hcall]
    exact h.pruned t (List.mem_append_right _ List.mem_cons_self) key (hinside key hkey)
  far := h.far_replace fun u hu => (h.far_from u hu).of_inside hcall hinside

/-- The log grows by a call, with the answer the codec gives it there. -/
theorem trace_log {x : Call} {answer : Answer}
    (h : (trace PayloadCodec.step c₀ (log.map Prod.fst)).map (fun e => e.2.2) = log.map Prod.snd)
    (hanswer : ((after PayloadCodec.step c₀ (log.map Prod.fst)).step x).2 = answer) :
    (trace PayloadCodec.step c₀ ((log ++ [(x, answer)]).map Prod.fst)).map (fun e => e.2.2) =
      (log ++ [(x, answer)]).map Prod.snd := by
  rw [List.map_append, List.map_append, trace_append, List.map_append, h]
  simp [hanswer]

theorem after_log {x : Call} {answer : Answer} :
    after PayloadCodec.step c₀ ((log ++ [(x, answer)]).map Prod.fst) =
      ((after PayloadCodec.step c₀ (log.map Prod.fst)).step x).1 := by
  rw [List.map_append, after_append]
  rfl

/-- **The lookup.** The call takes its place at the end of the log. -/
theorem Linear.lookup {t'' : Thread} {answer : Answer}
    (h : Linear c₀ log ⟨codec, pre ++ t :: post⟩) (hnone : t.settled c₀ = none)
    (hunmarked : t.marks c₀ = none) (hcall : t'.call = t.call) (hsound : t'.Sound c₀)
    (hsettled : t'.settled c₀ = some (t.call, answer))
    (hanswer : ((after PayloadCodec.step c₀ (log.map Prod.fst)).step t.call).2 = answer)
    (hseen : ∀ key, ((after PayloadCodec.step c₀ (log.map Prod.fst)).step t.call).1.seen key =
      if t'.marks c₀ = some key then some t.call.now
      else pruneSeen c₀.replayWindow (after PayloadCodec.step c₀ (log.map Prod.fst)).seen
        t.call.now key)
    (hfar : ∀ u ∈ pre ++ post, Far c₀.replayWindow u t'') (hcall' : t''.call = t.call)
    (hinside : ∀ key, t'.inside = some key → t''.inside = some key) (hthere : t''.inside.isSome) :
    Linear c₀ (log ++ [(t.call, answer)]) ⟨codec.pruned t.call.now, pre ++ t' :: post⟩ where
  like := by
    obtain ⟨seen, hlike⟩ := h.like
    have hcodec : codec = { c₀ with seen := seen } := hlike
    exact ⟨_, by rw [hcodec]; rfl⟩
  sound := forall_replace h.sound hsound
  answers := trace_log h.answers hanswer
  settled := by
    have hbefore := h.settled
    simp only [List.filterMap_append, List.filterMap_cons, hnone] at hbefore
    simp only [List.filterMap_append, List.filterMap_cons, hsettled]
    exact (List.perm_append_singleton ..).trans ((hbefore.cons _).trans List.perm_middle.symm)
  agree := by
    obtain ⟨seen, hlike⟩ := h.like
    have hcodec : codec = { c₀ with seen := seen } := hlike
    intro key hkey
    have hold : codec.seen key = (after PayloadCodec.step c₀ (log.map Prod.fst)).seen key :=
      h.agree key (forall_replace hkey (by rw [hunmarked]; simp))
    rw [after_log, hseen, if_neg (hkey t' (List.mem_append_right _ List.mem_cons_self))]
    show pruneSeen codec.replayWindow codec.seen t.call.now key = _
    rw [pruneSeen, pruneSeen, hold, hcodec]
  marked := by
    intro u hu key hkey
    rw [after_log, hseen]
    rcases mem_around hu with rfl | hu
    · rw [if_pos hkey, hcall]
    · obtain ⟨key'', hkey''⟩ := Option.isSome_iff_exists.1 hthere
      obtain ⟨hne, -, hlow⟩ := hfar u hu key key'' (Thread.inside_of_marks hkey) hkey''
      have hother : t'.marks c₀ ≠ some key := by
        intro hmark
        have hsame := hinside key (Thread.inside_of_marks hmark)
        rw [hkey''] at hsame
        exact hne (Option.some.inj hsame).symm
      rw [if_neg hother]
      refine pruneSeen_eq_some.2 ⟨h.marked u (mem_of_around hu) key hkey, ?_⟩
      rw [hcall'] at hlow
      omega
  pruned := by
    obtain ⟨seen, hlike⟩ := h.like
    have hcodec : codec = { c₀ with seen := seen } := hlike
    intro u hu key hkey key' received hseen'
    have hkept := pruneSeen_eq_some.1 hseen'
    rcases mem_around hu with rfl | hu
    · rw [hcall]
      have hwindow : codec.replayWindow = c₀.replayWindow := by rw [hcodec]
      rw [← hwindow]
      exact hkept.2
    · exact h.pruned u (mem_of_around hu) key hkey key' received hkept.1
  far := h.far_replace fun u hu => (hfar u hu).of_inside (hcall.trans hcall'.symm) hinside

/-- **The recording.** What the call puts down is what the log has put down
at its lookup, and what it prunes is gone since then. -/
theorem Linear.record {key : String} (h : Linear c₀ log ⟨codec, pre ++ t :: post⟩)
    (hmarks : t.marks c₀ = some key) (hcall : t'.call = t.call) (hsound : t'.Sound c₀)
    (hsettled : t'.settled c₀ = t.settled c₀) (hunmarked : t'.marks c₀ = none)
    (houtside : t'.inside = none) :
    Linear c₀ log ⟨codec.markSeen key t.call.now, pre ++ t' :: post⟩ := by
  obtain ⟨seen, hlike⟩ := h.like
  have hcodec : codec = { c₀ with seen := seen } := hlike
  have hhere : t ∈ pre ++ t :: post := List.mem_append_right _ List.mem_cons_self
  have hinside := Thread.inside_of_marks hmarks
  -- nothing is left to prune
  have hprune : pruneSeen codec.replayWindow codec.seen t.call.now = codec.seen := by
    funext key'
    refine Option.ext fun received => ?_
    rw [pruneSeen_eq_some, and_iff_left_iff_imp]
    intro hseen
    rw [hcodec]
    exact h.pruned t hhere key hinside key' received hseen
  have hrecord : (codec.markSeen key t.call.now).seen =
      Function.update codec.seen key (some t.call.now) := by
    rw [markSeen, hprune]
  refine ⟨⟨_, by rw [markSeen, hcodec]⟩, forall_replace h.sound hsound, h.answers, ?_, ?_, ?_, ?_, ?_⟩
  · refine h.settled.trans (List.Perm.of_eq ?_)
    simp only [List.filterMap_append, List.filterMap_cons, hsettled]
  · intro key' hkey'
    show (codec.markSeen key t.call.now).seen key' = _
    rw [hrecord]
    by_cases hk : key' = key
    · rw [hk, Function.update_self, h.marked t hhere key hmarks]
    · rw [Function.update_of_ne hk]
      refine h.agree key' (forall_replace hkey' ?_)
      rw [hmarks]
      exact fun heq => hk (Option.some.inj heq).symm
  · refine forall_replace h.marked fun key' hkey' => ?_
    rw [hunmarked] at hkey'
    cases hkey'
  · intro u hu key' hkey' key'' received hseen
    rcases mem_around hu with rfl | hu
    · rw [houtside] at hkey'
      cases hkey'
    · have hseen' : (codec.markSeen key t.call.now).seen key'' = some received := hseen
      rw [hrecord] at hseen'
      by_cases hk : key'' = key
      · rw [hk, Function.update_self] at hseen'
        obtain ⟨-, hnear, -⟩ := h.far_from u hu key' key hkey' hinside
        have hreceived := Option.some.inj hseen'
        omega
      · rw [Function.update_of_ne hk] at hseen'
        exact h.pruned u (mem_of_around hu) key' hkey' key'' received hseen'
  · refine h.far_replace fun u hu => (h.far_from u hu).of_inside hcall fun key' hkey' => ?_
    rw [houtside] at hkey'
    cases hkey'

/-- **A call begins.** One that is refused before the lock takes its place in
the log at once, and leaves the codec as it is. -/
theorem Linear.push {s : Shared} (h : Linear c₀ log s) (hsound : t.Sound c₀)
    (hunmarked : t.marks c₀ = none) (houtside : t.inside = none) {log' : List (Call × Answer)}
    (hanswers : (trace PayloadCodec.step c₀ (log'.map Prod.fst)).map (fun e => e.2.2) =
      log'.map Prod.snd)
    (hafter : after PayloadCodec.step c₀ (log'.map Prod.fst) =
      after PayloadCodec.step c₀ (log.map Prod.fst))
    (hsettled : log' = log ++ (t.settled c₀).toList) :
    Linear c₀ log' ⟨s.codec, s.threads ++ [t]⟩ where
  like := h.like
  sound := by
    intro u hu
    rcases List.mem_append.1 hu with hu | hu
    · exact h.sound u hu
    · rw [List.mem_singleton.1 hu]
      exact hsound
  answers := hanswers
  settled := by
    rw [hsettled, List.filterMap_append]
    refine h.settled.append (List.Perm.of_eq ?_)
    cases hc : t.settled c₀ <;> simp [hc]
  agree := by
    intro key hkey
    rw [hafter]
    exact h.agree key fun u hu => hkey u (List.mem_append_left _ hu)
  marked := by
    intro u hu key hkey
    rw [hafter]
    rcases List.mem_append.1 hu with hu | hu
    · exact h.marked u hu key hkey
    · rw [List.mem_singleton.1 hu, hunmarked] at hkey
      cases hkey
  pruned := by
    intro u hu key hkey
    rcases List.mem_append.1 hu with hu | hu
    · exact h.pruned u hu key hkey
    · rw [List.mem_singleton.1 hu, houtside] at hkey
      cases hkey
  far := by
    refine List.pairwise_append.2 ⟨h.far, List.pairwise_singleton .., fun u _ v hv => ?_⟩
    intro key key' _ hkey'
    rw [List.mem_singleton.1 hv, houtside] at hkey'
    cases hkey'

/-- The codecs of a sequential run read and open alike. -/
theorem after_like (c₀ : PayloadCodec) (calls : List Call) :
    ∃ seen, after PayloadCodec.step c₀ calls = { c₀ with seen := seen } := by
  refine after_invariant (I := fun c : PayloadCodec => ∃ seen, c = { c₀ with seen := seen })
    (fun c x hc => ?_) ⟨_, rfl⟩ calls
  obtain ⟨seen, hc⟩ := hc
  obtain ⟨seen', hstep⟩ := step_eq_with c x
  exact ⟨seen', by rw [hstep, hc]⟩

theorem linear_call {s : Shared} (h : Linear c₀ log s) (x : Call) :
    ∃ log', Linear c₀ log' ⟨s.codec, s.threads ++ [⟨x, s.codec.begin x⟩]⟩ := by
  obtain ⟨seen, hlike⟩ := h.like
  obtain ⟨seen', hafter⟩ := after_like c₀ (log.map Prod.fst)
  have hbegin : s.codec.begin x = c₀.begin x := by rw [hlike]; rfl
  have hread : (after PayloadCodec.step c₀ (log.map Prod.fst)).readHeader x = c₀.readHeader x := by
    rw [hafter]
    rfl
  rw [hbegin]
  -- a call refused before the lock is refused alike at the end of the log
  have hrefused : ∀ answer, c₀.begin x = .returned answer →
      (after PayloadCodec.step c₀ (log.map Prod.fst)).step x =
        (after PayloadCodec.step c₀ (log.map Prod.fst), answer) →
      ∃ log', Linear c₀ log' ⟨s.codec, s.threads ++ [⟨x, c₀.begin x⟩]⟩ := by
    intro answer hanswer hstep
    refine ⟨log ++ [(x, answer)], h.push (by rw [hanswer]; rintro _ ⟨⟩)
      (by rw [hanswer]; rfl)
      (by rw [hanswer]; rfl) (trace_log h.answers (by rw [hstep])) (by rw [after_log, hstep]) ?_⟩
    rw [hanswer]
    rfl
  rcases hheader : c₀.readHeader x with _ | e | header
  · refine hrefused none ?_ ?_
    · rw [PayloadCodec.begin, hheader]
    · rw [PayloadCodec.step, decrypt, hread, hheader]
  · refine hrefused (some (.error e)) ?_ ?_
    · rw [PayloadCodec.begin, hheader]
    · rw [PayloadCodec.step, decrypt, hread, hheader]
  · have hlooking : c₀.begin x = .looking header := by rw [PayloadCodec.begin, hheader]
    rw [hlooking]
    have hsound : Thread.Sound c₀ ⟨x, .looking header⟩ := by
      intro header' heq
      rw [hheader, Option.some.inj heq]
    exact ⟨log, h.push hsound rfl rfl h.answers rfl (List.append_nil _).symm⟩

theorem linear_lookup {x : Call} {header : Header} {codec' : PayloadCodec} {progress : Progress}
    (h : Linear c₀ log ⟨codec, pre ++ ⟨x, .looking header⟩ :: post⟩)
    (hfar : ∀ u ∈ pre ++ post, Far c₀.replayWindow u ⟨x, .opening header⟩)
    (hadvance : codec.advance ⟨x, .looking header⟩ = some (codec', progress)) :
    ∃ log', Linear c₀ log' ⟨codec', pre ++ ⟨x, progress⟩ :: post⟩ := by
  obtain ⟨seen, hlike⟩ := h.like
  have hcodec : codec = { c₀ with seen := seen } := hlike
  obtain ⟨seen', hafter⟩ := after_like c₀ (log.map Prod.fst)
  have hheader : c₀.readHeader x = some (.ok header) :=
    h.sound _ (List.mem_append_right _ List.mem_cons_self) header rfl
  have hopening : Thread.Sound c₀ ⟨x, .opening header⟩ := by
    intro header' heq
    rw [hheader, Option.some.inj heq]
  -- no call is about to record this nonce, so both codecs find the same
  have hagree : codec.seen (replayKey x.source header.nonce) =
      seen' (replayKey x.source header.nonce) := by
    have hsame := h.agree (replayKey x.source header.nonce) fun u hu hmark => ?_
    · rw [hafter] at hsame
      exact hsame
    · rcases mem_around hu with rfl | hu
      · cases hmark
      · exact (hfar u hu _ _ (Thread.inside_of_marks hmark) rfl).1 rfl
  have hlook : pruneSeen c₀.replayWindow codec.seen x.now (replayKey x.source header.nonce) =
      pruneSeen c₀.replayWindow seen' x.now (replayKey x.source header.nonce) := by
    rw [pruneSeen, pruneSeen, hagree]
  have hdecrypt := decrypt_of_header (c := { c₀ with seen := seen' }) hheader
  have hwindow : codec.replayWindow = c₀.replayWindow := by rw [hcodec]
  cases hfound : pruneSeen c₀.replayWindow seen' x.now (replayKey x.source header.nonce) with
  | some received =>
      have hgo : codec.advance ⟨x, .looking header⟩ =
          some (codec.pruned x.now, .returned (some (.error .replayDetected))) := by
        simp only [PayloadCodec.advance, isReplay, hwindow, hlook, hfound, PayloadCodec.pruned,
          Option.isSome_some]
      rw [hgo] at hadvance
      cases hadvance
      have hfound' : (PayloadCodec.pruned { c₀ with seen := seen' } x.now).seen
          (replayKey x.source header.nonce) = some received := hfound
      rw [hfound', Option.isSome_some, if_pos rfl] at hdecrypt
      have hstep : (after PayloadCodec.step c₀ (log.map Prod.fst)).step x =
          (PayloadCodec.pruned { c₀ with seen := seen' } x.now, some (.error .replayDetected)) := by
        rw [hafter, PayloadCodec.step, hdecrypt]
      refine ⟨log ++ [(x, some (.error .replayDetected))], h.lookup rfl rfl rfl (by rintro _ ⟨⟩) rfl
        (by rw [hstep]) (fun key => ?_) hfar rfl (by rintro _ ⟨⟩) rfl⟩
      rw [hstep, if_neg (by rintro ⟨⟩), hafter]
      rfl
  | none =>
      have hgo : codec.advance ⟨x, .looking header⟩ =
          some (codec.pruned x.now, .opening header) := by
        simp only [PayloadCodec.advance, isReplay, hwindow, hlook, hfound, PayloadCodec.pruned,
          Option.isSome_none]
      rw [hgo] at hadvance
      cases hadvance
      have hfound' : (PayloadCodec.pruned { c₀ with seen := seen' } x.now).seen
          (replayKey x.source header.nonce) = none := hfound
      rw [hfound', if_neg (by simp)] at hdecrypt
      cases hopen : c₀.openEnvelope x header with
      | none =>
          have hopen' : PayloadCodec.openEnvelope { c₀ with seen := seen' } x header = none := hopen
          rw [hopen'] at hdecrypt
          have hstep : (after PayloadCodec.step c₀ (log.map Prod.fst)).step x =
              (PayloadCodec.pruned { c₀ with seen := seen' } x.now, some (.error .notAuthentic)) := by
            rw [hafter, PayloadCodec.step, hdecrypt]
          have hunmarked : Thread.marks c₀ ⟨x, .opening header⟩ = none := by
            simp [Thread.marks, hopen]
          refine ⟨log ++ [(x, some (.error .notAuthentic))], h.lookup rfl rfl rfl hopening
            (by simp [Thread.settled, hopen]) (by rw [hstep]) (fun key => ?_) hfar rfl
            (fun key hkey => hkey) rfl⟩
          rw [hstep, hunmarked, if_neg (by rintro ⟨⟩), hafter]
          rfl
      | some plaintext =>
          have hopen' : PayloadCodec.openEnvelope { c₀ with seen := seen' } x header =
              some plaintext := hopen
          rw [hopen'] at hdecrypt
          have hstep : (after PayloadCodec.step c₀ (log.map Prod.fst)).step x =
              ((PayloadCodec.pruned { c₀ with seen := seen' } x.now).markSeen
                (replayKey x.source header.nonce) x.now, some (.ok plaintext)) := by
            rw [hafter, PayloadCodec.step, hdecrypt]
          have hmarks : Thread.marks c₀ ⟨x, .opening header⟩ =
              some (replayKey x.source header.nonce) := by
            simp [Thread.marks, hopen]
          refine ⟨log ++ [(x, some (.ok plaintext))], h.lookup rfl rfl rfl hopening
            (by simp [Thread.settled, hopen]) (by rw [hstep]) (fun key => ?_) hfar rfl
            (fun key hkey => hkey) rfl⟩
          rw [hstep, hmarks, hafter, markSeen_pruned]
          by_cases hkey : key = replayKey x.source header.nonce
          · rw [if_pos (by rw [hkey]), hkey]
            exact Function.update_self ..
          · rw [if_neg (fun heq => hkey (Option.some.inj heq).symm)]
            exact Function.update_of_ne hkey ..

/-- **One step keeps the log sequential**, where calls are looked up apart. -/
theorem linear_step {s s' : Shared} {a : Action} (h : Linear c₀ log s) (hapart : Apart s a)
    (hstep : s.step a = some s') : ∃ log', Linear c₀ log' s' := by
  rcases Shared.step_cases hstep with ⟨x, rfl, rfl⟩ |
    ⟨i, pre, t, post, codec', progress, rfl, ht, hthreads, hadvance, rfl⟩
  · exact linear_call h x
  obtain ⟨codec, threads⟩ := s
  obtain ⟨x, here⟩ := t
  have hthreads' : threads = pre ++ ⟨x, here⟩ :: post := hthreads
  subst hthreads'
  obtain ⟨seen, hlike⟩ := h.like
  have hcodec : codec = { c₀ with seen := seen } := hlike
  have hopening : codec.openEnvelope = c₀.openEnvelope := by rw [hcodec]; rfl
  cases here with
  | looking header =>
      refine linear_lookup h (fun u hu => ?_) hadvance
      have hfar : Far codec.replayWindow u ⟨x, .opening header⟩ := by
        simp only [Apart, ht] at hapart
        exact hapart u (mem_of_around hu)
      have hwindow : codec.replayWindow = c₀.replayWindow := by rw [hcodec]
      rwa [hwindow] at hfar
  | opening header =>
      cases hopen : c₀.openEnvelope x header with
      | none =>
          simp only [PayloadCodec.advance, hopening, hopen, Option.some.injEq, Prod.mk.injEq] at hadvance
          obtain ⟨rfl, rfl⟩ := hadvance
          exact ⟨log, h.replace rfl (by rintro _ ⟨⟩) (by simp [Thread.settled, hopen])
            (by simp [Thread.marks, hopen]) (by rintro _ ⟨⟩)⟩
      | some plaintext =>
          simp only [PayloadCodec.advance, hopening, hopen, Option.some.injEq, Prod.mk.injEq] at hadvance
          obtain ⟨rfl, rfl⟩ := hadvance
          have hsound := h.sound ⟨x, .opening header⟩ (List.mem_append_right _ List.mem_cons_self)
          exact ⟨log, h.replace rfl (fun header' heq => hsound header' heq)
            (by simp [Thread.settled, hopen]) (by simp [Thread.marks, hopen])
            (fun key hkey => hkey)⟩
  | marking header plaintext =>
      cases hadvance
      exact ⟨log, h.record rfl rfl (by rintro _ ⟨⟩) rfl rfl rfl⟩
  | returned answer => cases hadvance

/-! ## Whole runs -/

/-- The calls that have returned are the log. -/
theorem Linear.serializable {s : Shared} (h : Linear c₀ log s) (hdone : s.Done) :
    Serializable c₀ s := by
  have hsettled : s.threads.filterMap (Thread.settled c₀) =
      s.threads.map fun t => (t.call, t.answer) := by
    rw [← List.filterMap_eq_map]
    refine List.filterMap_congr fun t ht => ?_
    obtain ⟨answer, hanswer⟩ := hdone t ht
    simp only [Thread.settled, Thread.answer, hanswer, Function.comp]
  have hperm : log.Perm (s.threads.map fun t => (t.call, t.answer)) := hsettled ▸ h.settled
  refine ⟨log.map Prod.fst, ?_, ?_⟩
  · have hcalls := hperm.map Prod.fst
    rwa [List.map_map] at hcalls
  · have hanswers := hperm.map Prod.snd
    rw [List.map_map] at hanswers
    rw [h.answers]
    exact hanswers

theorem linear_run {c : PayloadCodec} {schedule : List Action} {s : Shared}
    (hapart : Always Shared.step Apart ⟨c, []⟩ schedule)
    (hrun : Run Shared.step ⟨c, []⟩ schedule s) : ∃ log, Linear c log s :=
  Run.invariant (I := fun s => ∃ log, Linear c log s) hrun hapart ⟨[], linear_init⟩
    fun _ _ _ ⟨_, hlog⟩ ha hstep => linear_step hlog ha hstep

/-! ## Two calls with one envelope -/

/-- The call has not returned. -/
def Thread.UnderWay (t : Thread) : Prop := t.header.isSome = true

/-- A call takes a step while every call under way has read the clock no more
than half a window before or after it. -/
def Prompt (s : Shared) : Action → Prop
  | .call _ => True
  | .advance i => ∀ t, s.threads[i]? = some t → ∀ u ∈ s.threads, u.UnderWay →
      2 * (t.call.now - u.call.now) ≤ s.codec.replayWindow ∧
        2 * (u.call.now - t.call.now) ≤ s.codec.replayWindow

/-- At some moment of the schedule both calls are under way. -/
def Overlap (c : PayloadCodec) (schedule : List Action) (i j : ℕ) : Prop :=
  ∃ before rest s t u, schedule = before ++ rest ∧ Run Shared.step ⟨c, []⟩ before s ∧
    s.threads[i]? = some t ∧ s.threads[j]? = some u ∧ t.UnderWay ∧ u.UnderWay

/-- Of two overlapping calls with one envelope at most one is accepted. -/
def AcceptsOnce (c : PayloadCodec) (schedule : List Action) (s : Shared) : Prop :=
  ∀ i j, i ≠ j → Overlap c schedule i j → ∀ t u, s.threads[i]? = some t → s.threads[j]? = some u →
    SameEnvelope t.call u.call → ¬ (accepted t.answer = true ∧ accepted u.answer = true)

/-- The nonce is remembered from no more than half a window before the
clock reading. -/
def Recent (c : PayloadCodec) (key : String) (now : ℤ) : Prop :=
  ∃ received, c.seen key = some received ∧ 2 * (now - received) ≤ c.replayWindow

/-- The call was refused. -/
def Thread.Refused (t : Thread) : Prop :=
  ∃ answer, t.progress = .returned answer ∧ accepted answer = false

/-- The three ways a step leaves the codec. -/
theorem advance_codec {c c' : PayloadCodec} {progress : Progress}
    (h : c.advance t = some (c', progress)) :
    c' = c ∨ c' = c.pruned t.call.now ∨ ∃ key, c' = c.markSeen key t.call.now := by
  obtain ⟨x, here⟩ := t
  cases here with
  | looking header =>
      simp only [PayloadCodec.advance, isReplay] at h
      split at h
      · rename_i hreplay
        cases h
        exact .inr (.inl (Prod.mk.inj hreplay).2.symm)
      · rename_i hreplay
        cases h
        exact .inr (.inl (Prod.mk.inj hreplay).2.symm)
  | opening header =>
      simp only [PayloadCodec.advance] at h
      split at h
      · cases h
        exact .inl rfl
      · cases h
        exact .inl rfl
  | marking header plaintext =>
      cases h
      exact .inr (.inr ⟨_, rfl⟩)
  | returned answer => cases h

/-- A step of a call that is close keeps what is recent. -/
theorem Recent.advance {c c' : PayloadCodec} {progress : Progress} {key : String} {now : ℤ}
    (h : Recent c key now) (hadvance : c.advance t = some (c', progress))
    (hclose : 2 * (t.call.now - now) ≤ c.replayWindow ∧ 2 * (now - t.call.now) ≤ c.replayWindow) :
    Recent c' key now := by
  obtain ⟨received, hseen, hreceived⟩ := h
  have hkept : pruneSeen c.replayWindow c.seen t.call.now key = some received :=
    pruneSeen_eq_some.2 ⟨hseen, by omega⟩
  rcases advance_codec hadvance with rfl | rfl | ⟨key', rfl⟩
  · exact ⟨received, hseen, hreceived⟩
  · exact ⟨received, hkept, hreceived⟩
  · by_cases hkey : key = key'
    · subst hkey
      exact ⟨t.call.now, Function.update_self .., hclose.2⟩
    · exact ⟨received, (Function.update_of_ne hkey ..).trans hkept, hreceived⟩

/-- What is recent is refused. -/
theorem Recent.refused {c c' : PayloadCodec} {x : Call} {header : Header} {progress : Progress}
    (h : Recent c (replayKey x.source header.nonce) x.now) (hwindow : 0 ≤ c.replayWindow)
    (hadvance : c.advance ⟨x, .looking header⟩ = some (c', progress)) :
    Thread.Refused ⟨x, progress⟩ := by
  obtain ⟨received, hseen, hreceived⟩ := h
  have hkept : pruneSeen c.replayWindow c.seen x.now (replayKey x.source header.nonce) =
      some received := pruneSeen_eq_some.2 ⟨hseen, by omega⟩
  simp only [PayloadCodec.advance, isReplay, hkept, Option.isSome_some, Option.some.injEq,
    Prod.mk.injEq] at hadvance
  exact ⟨_, hadvance.2.symm, rfl⟩

/-- The second of two calls is to be refused: one of them has been, or the
first has recorded the nonce and the second has yet to look it up. -/
def Recorded (c : PayloadCodec) (t u : Thread) : Prop :=
  (∃ answer, t.progress = .returned answer) ∧
    ∃ header, u.progress = .looking header ∧ Recent c (replayKey u.call.source header.nonce) u.call.now

/-- Two calls with one envelope, as a run has them: both under way, or at
most one of them accepted in the end. -/
def Contending (c : PayloadCodec) (t u : Thread) : Prop :=
  t.UnderWay ∧ u.UnderWay ∨ t.Refused ∨ u.Refused ∨ Recorded c t u ∨ Recorded c u t

theorem Contending.symm {c : PayloadCodec} {u : Thread} (h : Contending c t u) :
    Contending c u t := by
  rcases h with ⟨ht, hu⟩ | ht | hu | htu | hut
  · exact .inl ⟨hu, ht⟩
  · exact .inr (.inr (.inl ht))
  · exact .inr (.inl hu)
  · exact .inr (.inr (.inr (.inr htu)))
  · exact .inr (.inr (.inr (.inl hut)))

/-- **A step of one of the two.** Where it records the nonce, the other has
yet to look it up. -/
theorem contending_advance {c c' : PayloadCodec} {progress : Progress} {u : Thread}
    (h : Contending c t u) (hsame : SameEnvelope t.call u.call) (ht : t.Sound c) (hu : u.Sound c)
    (hfar : Far c.replayWindow t u) (hwindow : 0 ≤ c.replayWindow)
    (hclose : u.UnderWay → 2 * (u.call.now - t.call.now) ≤ c.replayWindow)
    (hadvance : c.advance t = some (c', progress)) :
    Contending c' { t with progress := progress } u := by
  obtain ⟨x, here⟩ := t
  rcases h with ⟨-, hway⟩ | ⟨answer, hdone, -⟩ | hrefused | ⟨⟨answer, hdone⟩, -⟩ |
    ⟨-, header, hlook, hrecent⟩
  · cases here with
    | looking header =>
        simp only [PayloadCodec.advance] at hadvance
        split at hadvance
        · cases hadvance
          exact .inr (.inl ⟨_, rfl, rfl⟩)
        · cases hadvance
          exact .inl ⟨rfl, hway⟩
    | opening header =>
        simp only [PayloadCodec.advance] at hadvance
        split at hadvance
        · cases hadvance
          exact .inr (.inl ⟨_, rfl, rfl⟩)
        · cases hadvance
          exact .inl ⟨rfl, hway⟩
    | marking header plaintext =>
        have hclose' := hclose hway
        cases hadvance
        obtain ⟨y, there⟩ := u
        have hkey : ∀ header', Thread.header ⟨y, there⟩ = some header' →
            replayKey x.source header.nonce = replayKey y.source header'.nonce := by
          intro header' heq
          rw [hsame.1, nonce_eq (ht header rfl) (hu header' heq) hsame.2]
        cases there with
        | looking header' =>
            refine .inr (.inr (.inr (.inl ⟨⟨_, rfl⟩, header', rfl, x.now, ?_, hclose'⟩)))
            rw [← hkey header' rfl]
            exact Function.update_self ..
        | opening header' => exact absurd (hkey header' rfl) (hfar _ _ rfl rfl).1
        | marking header' plaintext' => exact absurd (hkey header' rfl) (hfar _ _ rfl rfl).1
        | returned answer => cases hway
    | returned answer => cases hadvance
  · obtain rfl : here = .returned answer := hdone
    cases hadvance
  · exact .inr (.inr (.inl hrefused))
  · obtain rfl : here = .returned answer := hdone
    cases hadvance
  · obtain rfl : here = .looking header := hlook
    exact .inr (.inl (hrecent.refused hwindow hadvance))

/-- A step of a third call. -/
theorem contending_other {c c' : PayloadCodec} {progress : Progress} {u v : Thread}
    (h : Contending c t u)
    (hclose : ∀ w, w = t ∨ w = u → w.UnderWay → 2 * (v.call.now - w.call.now) ≤ c.replayWindow ∧
      2 * (w.call.now - v.call.now) ≤ c.replayWindow)
    (hadvance : c.advance v = some (c', progress)) : Contending c' t u := by
  rcases h with hway | ht | hu | ⟨hdone, header, hlook, hrecent⟩ | ⟨hdone, header, hlook, hrecent⟩
  · exact .inl hway
  · exact .inr (.inl ht)
  · exact .inr (.inr (.inl hu))
  · have hway : u.UnderWay := by rw [Thread.UnderWay, Thread.header, hlook]; rfl
    exact .inr (.inr (.inr (.inl ⟨hdone, header, hlook,
      hrecent.advance hadvance (hclose u (.inr rfl) hway)⟩)))
  · have hway : t.UnderWay := by rw [Thread.UnderWay, Thread.header, hlook]; rfl
    exact .inr (.inr (.inr (.inr ⟨hdone, header, hlook,
      hrecent.advance hadvance (hclose t (.inl rfl) hway)⟩)))

/-- Two calls of a run, by their places in it. -/
def At (s : Shared) (i j : ℕ) (x y : Call) : Prop :=
  ∃ t u, s.threads[i]? = some t ∧ s.threads[j]? = some u ∧ t.call = x ∧ u.call = y ∧
    Contending s.codec t u

theorem Linear.far_at {s : Shared} (h : Linear c₀ log s) {i j : ℕ} (hij : i ≠ j) {u : Thread}
    (hi : s.threads[i]? = some t) (hj : s.threads[j]? = some u) : Far c₀.replayWindow t u := by
  obtain ⟨hilt, rfl⟩ := List.getElem?_eq_some_iff.1 hi
  obtain ⟨hjlt, rfl⟩ := List.getElem?_eq_some_iff.1 hj
  have hfar := List.pairwise_iff_getElem.1 h.far
  rcases Nat.lt_or_gt_of_ne hij with hlt | hlt
  · exact hfar i j hilt hjlt hlt
  · exact (hfar j i hjlt hilt hlt).symm

/-- **One step keeps two calls with one envelope from both being accepted.** -/
theorem at_step {s s' : Shared} {a : Action} {i j : ℕ} {x y : Call} (hlinear : Linear c₀ log s)
    (hprompt : Prompt s a) (hstep : s.step a = some s') (hij : i ≠ j) (hsame : SameEnvelope x y)
    (hwindow : 0 ≤ c₀.replayWindow) (h : At s i j x y) : At s' i j x y := by
  obtain ⟨t, u, hi, hj, rfl, rfl, hcontend⟩ := h
  obtain ⟨seen, hlike⟩ := hlinear.like
  have hw : s.codec.replayWindow = c₀.replayWindow := by rw [hlike]
  have hsound : ∀ v ∈ s.threads, v.Sound s.codec := by
    intro v hv
    rw [hlike]
    exact hlinear.sound v hv
  have hfar := hlinear.far_at hij hi hj
  have hti := List.mem_of_getElem? hi
  have huj := List.mem_of_getElem? hj
  cases a with
  | call z =>
      cases hstep
      refine ⟨t, u, ?_, ?_, rfl, rfl, hcontend⟩
      · exact (List.getElem?_append_left (List.getElem?_eq_some_iff.1 hi).1).trans hi
      · exact (List.getElem?_append_left (List.getElem?_eq_some_iff.1 hj).1).trans hj
  | advance k =>
      simp only [Shared.step] at hstep
      split at hstep
      · cases hstep
      rename_i v hv
      obtain ⟨⟨codec, progress⟩, hadvance, rfl⟩ := Option.map_eq_some_iff.1 hstep
      have hclose := hprompt v hv
      have hk : k < s.threads.length := (List.getElem?_eq_some_iff.1 hv).1
      by_cases hki : k = i
      · subst hki
        obtain rfl := Option.some.inj (hi.symm.trans hv)
        refine ⟨{ t with progress := progress }, u, List.getElem?_set_self hk,
          (List.getElem?_set_ne hij).trans hj, rfl, rfl, ?_⟩
        exact contending_advance hcontend hsame (hsound t hti) (hsound u huj) (hw ▸ hfar) (hw ▸ hwindow)
          (fun hway => (hclose u huj hway).2) hadvance
      · by_cases hkj : k = j
        · subst hkj
          obtain rfl := Option.some.inj (hj.symm.trans hv)
          refine ⟨t, { u with progress := progress }, (List.getElem?_set_ne hij.symm).trans hi,
            List.getElem?_set_self hk, rfl, rfl, ?_⟩
          exact (contending_advance hcontend.symm ⟨hsame.1.symm, hsame.2.symm⟩ (hsound u huj)
            (hsound t hti) (hw ▸ hfar.symm) (hw ▸ hwindow) (fun hway => (hclose t hti hway).2)
            hadvance).symm
        · refine ⟨t, u, (List.getElem?_set_ne hki).trans hi, (List.getElem?_set_ne hkj).trans hj,
            rfl, rfl, ?_⟩
          refine contending_other hcontend (fun w hw' hway => ?_) hadvance
          rcases hw' with rfl | rfl
          · exact hclose w hti hway
          · exact hclose w huj hway

/-- Two calls that were under way together are not both accepted. -/
theorem not_both_accepted {c : PayloadCodec} {u : Thread} (h : Contending c t u) :
    ¬ (accepted t.answer = true ∧ accepted u.answer = true) := by
  rintro ⟨ht, hu⟩
  rcases h with ⟨hway, -⟩ | ⟨answer, hdone, hrefused⟩ | ⟨answer, hdone, hrefused⟩ |
    ⟨-, header, hlook, -⟩ | ⟨-, header, hlook, -⟩
  · obtain ⟨x, here⟩ := t
    cases here with
    | returned answer => cases hway
    | looking header => cases ht
    | opening header => cases ht
    | marking header plaintext => cases ht
  · rw [Thread.answer, hdone] at ht
    exact absurd ht (by rw [hrefused]; simp)
  · rw [Thread.answer, hdone] at hu
    exact absurd hu (by rw [hrefused]; simp)
  · rw [Thread.answer, hlook] at hu
    cases hu
  · rw [Thread.answer, hlook] at ht
    cases ht

/-- A call stays the call it is. -/
theorem call_step {s s' : Shared} {a : Action} {i : ℕ} {x : Call} (hstep : s.step a = some s')
    (h : ∃ t, s.threads[i]? = some t ∧ t.call = x) : ∃ t, s'.threads[i]? = some t ∧ t.call = x := by
  obtain ⟨t, hi, rfl⟩ := h
  have hlt := (List.getElem?_eq_some_iff.1 hi).1
  cases a with
  | call z =>
      cases hstep
      exact ⟨t, (List.getElem?_append_left hlt).trans hi, rfl⟩
  | advance k =>
      simp only [Shared.step] at hstep
      split at hstep
      · cases hstep
      rename_i v hv
      obtain ⟨⟨codec, progress⟩, -, rfl⟩ := Option.map_eq_some_iff.1 hstep
      by_cases hki : k = i
      · subst hki
        obtain rfl := Option.some.inj (hi.symm.trans hv)
        exact ⟨_, List.getElem?_set_self hlt, rfl⟩
      · exact ⟨t, (List.getElem?_set_ne hki).trans hi, rfl⟩

/-- Where overlapping calls have read the clock within half a window of each
other, at most one of two with one envelope is accepted. -/
theorem accepts_once {c : PayloadCodec} {schedule : List Action} {s : Shared}
    (hwindow : 0 ≤ c.replayWindow) (hapart : Always Shared.step Apart ⟨c, []⟩ schedule)
    (hprompt : Always Shared.step Prompt ⟨c, []⟩ schedule)
    (hrun : Run Shared.step ⟨c, []⟩ schedule s) : AcceptsOnce c schedule s := by
  rintro i j hij ⟨before, rest, m, t, u, rfl, hbefore, hi, hj, hti, huj⟩ t' u' hi' hj' hsame
  obtain ⟨m', hbefore', hrest⟩ := hrun.of_append
  obtain rfl := hbefore.unique hbefore'
  have hcalls : ∀ (k : ℕ) (v v' : Thread), m.threads[k]? = some v → s.threads[k]? = some v' → v.call = v'.call := by
    intro k v v' hk hk'
    obtain ⟨w, hw, hcall⟩ := hrest.invariant_of_step
      (I := fun s : Shared => ∃ w, s.threads[k]? = some w ∧ w.call = v.call) ⟨v, hk, rfl⟩
      fun _ _ _ hu hstep => call_step hstep hu
    rw [Option.some.inj (hk'.symm.trans hw), hcall]
  have hsame' : SameEnvelope t.call u.call := by
    rwa [hcalls i t t' hi hi', hcalls j u u' hj hj']
  -- from the moment both are under way, one of the two is to be refused
  obtain ⟨log, hlog⟩ := linear_run hapart.left hbefore
  obtain ⟨-, v, w, hv, hw, -, -, hcontend⟩ := Run.invariant
    (I := fun s => (∃ log, Linear c log s) ∧ At s i j t.call u.call)
    (G := fun s a => Apart s a ∧ Prompt s a) hrest
    ((hapart.rest hbefore).and (hprompt.rest hbefore))
    ⟨⟨log, hlog⟩, t, u, hi, hj, rfl, rfl, .inl ⟨hti, huj⟩⟩
    fun s₁ a s₂ ⟨⟨log', hlog'⟩, hat⟩ hplaced hstep =>
      ⟨linear_step hlog' hplaced.1 hstep,
        at_step hlog' hplaced.2 hstep hij hsame' hwindow hat⟩
  obtain rfl := Option.some.inj (hi'.symm.trans hv)
  obtain rfl := Option.some.inj (hj'.symm.trans hw)
  exact not_both_accepted hcontend

/-! ## When overlapping calls answer as sequential ones -/

/-- **Concurrent calls answer as sequential ones.** In every run whose lookups
are apart, once all calls have returned, their answers are those of the same
calls one after another; and where overlapping calls have also read the clock
within half a window of each other, at most one of several with one envelope
is accepted. -/
theorem decrypts_serializable {derive : List Char → Aead} {passphrase : List Char}
    {c : PayloadCodec} (hnew : newPayloadCodecFromPassphrase derive passphrase = .ok c)
    {schedule : List Action} {s : Shared} (hapart : Always Shared.step Apart ⟨c, []⟩ schedule)
    (hrun : Run Shared.step ⟨c, []⟩ schedule s) (hdone : s.Done) :
    Serializable c s ∧
      (Always Shared.step Prompt ⟨c, []⟩ schedule → AcceptsOnce c schedule s) := by
  obtain ⟨log, hlinear⟩ := linear_run hapart hrun
  have hwindow : 0 ≤ c.replayWindow := by
    rw [eq_of_new hnew]
    exact (by decide : (0 : ℤ) ≤ defaultReplayWindow)
  exact ⟨hlinear.serializable hdone, fun hprompt => accepts_once hwindow hapart hprompt hrun⟩

/-- Every call has returned, as a check. -/
def Shared.done (s : Shared) : Bool := s.threads.all fun t => t.header.isNone

theorem Shared.done_iff {s : Shared} : s.done = true ↔ s.Done := by
  rw [Shared.done, List.all_eq_true, Shared.Done]
  refine forall₂_congr fun t _ => ?_
  obtain ⟨x, here⟩ := t
  cases here <;> simp [Thread.header]

/-- The rule on two calls with one envelope that overlap, the second looking
its nonce up when the first has recorded it. -/
theorem decrypts_serializable_apart :
    ∃ s, Run Shared.step ⟨freshCodec, []⟩ [.call (receiveAt 540), .call (receiveAt 541), .advance 0,
      .advance 0, .advance 0, .advance 1] s ∧ Serializable freshCodec s := by
  have hend : (([.call (receiveAt 540), .call (receiveAt 541), .advance 0, .advance 0, .advance 0,
      .advance 1] : List Action).foldlM Shared.step ⟨freshCodec, []⟩).map Shared.done = some true := by
    decide +kernel
  obtain ⟨s, hs, hdone⟩ := Option.map_eq_some_iff.1 hend
  have hrun := Run.of_foldlM hs
  exact ⟨s, hrun, (@decrypts_serializable (fun _ => Aead.clear) ['m'] freshCodec rfl _ s
    (by decide +kernel) hrun (Shared.done_iff.1 hdone)).1⟩

/-- Both calls look the nonce up before either records it, and both accept:
one after the other, the second would be refused. -/
theorem overlapping_calls_both_accept :
    ¬ ∀ (derive : List Char → Aead), (∀ key, (derive key).Ideal) → ∀ (passphrase : List Char)
      (c : PayloadCodec), newPayloadCodecFromPassphrase derive passphrase = .ok c →
      ∀ (schedule : List Action) (s : Shared), Run Shared.step ⟨c, []⟩ schedule s → s.Done →
        Serializable c s := by
  intro h
  have hend : (([.call (receiveAt 540), .call (receiveAt 540), .advance 0, .advance 1, .advance 0,
      .advance 1, .advance 0, .advance 1] : List Action).foldlM Shared.step ⟨freshCodec, []⟩).map
        (fun s => (s.done, s.threads.map Thread.call, s.threads.map fun t => accepted t.answer)) =
      some (true, [receiveAt 540, receiveAt 540], [true, true]) := by decide +kernel
  obtain ⟨s, hs, hfacts⟩ := Option.map_eq_some_iff.1 hend
  obtain ⟨hdone, hcalls, haccept⟩ : s.done = true ∧
      s.threads.map Thread.call = [receiveAt 540, receiveAt 540] ∧
      s.threads.map (fun t => accepted t.answer) = [true, true] := by
    simpa only [Prod.mk.injEq] using hfacts
  obtain ⟨order, horder, hsame⟩ := h (fun _ => Aead.clear) (fun _ => Aead.clear_ideal) ['m'] freshCodec
    rfl _ s (Run.of_foldlM hs) (Shared.done_iff.1 hdone)
  -- there is one order of the two calls, and it refuses the second
  have honly : order = [receiveAt 540, receiveAt 540] := by
    rw [hcalls] at horder
    exact List.perm_replicate.1 (show order.Perm (List.replicate 2 (receiveAt 540)) from horder)
  have hsequential : (trace PayloadCodec.step freshCodec [receiveAt 540, receiveAt 540]).map
      (fun e => accepted e.2.2) = [true, false] := by decide +kernel
  have hperm := hsame.map accepted
  rw [List.map_map, List.map_map, honly] at hperm
  have habsurd : [true, false].Perm [true, true] := by
    rw [← hsequential, ← haccept]
    exact hperm
  exact absurd habsurd (by decide)

end Security

end OpenManet
