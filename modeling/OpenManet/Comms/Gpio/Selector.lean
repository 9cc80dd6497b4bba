import OpenManet.Comms.TalkGroup.Model
import OpenManet.Lib.Machine
import Mathlib.Data.List.Chain
/-!
# The selector knob

`internal/comms/gpio/selector.go` and the forwarder of `lifecycle.go`. The
kernel calls back after a change of the lines; a callback leaves a token, one at
most, and the watcher that takes the token reads the lines. What it reads goes
out on a channel that holds one selection, and a selection that is still there
is drained for the next. The forwarder takes a selection and applies it, the
first as the one of the boot and every other as the operator's.

The switch, the callbacks, the watcher and the forwarder are one guarded
machine, a step for each operation on a channel, so they interleave as they may.
A callback may come late, or come for nothing, and the lines may read anything
on the way. What a selection stems from is recorded beside it (`boot`); the
channel carries the number alone. The counters and the log are left out.

A failed read has taken the token and is not made up for: the knob is followed
as long as a read fails only where another token comes, or where there was
nothing to read.
-/

namespace OpenManet

namespace Gpio

open TalkGroup (Source)

/-- `readErrorBreaker`. -/
def readErrorBreaker : ℕ := 10

/-- A line, in the loop of `decodeChannel`: the selection and the number of
active lines. -/
def decodeTurn (r : ℕ × ℕ) (e : ℤ × ℕ) : ℕ × ℕ := if e.1 = 0 then (e.2 + 1, r.2 + 1) else r

/-- `decodeChannel`. -/
def decodeChannel (vals : List ℤ) : ℕ :=
  let r := vals.zipIdx.foldl decodeTurn (0, 0)
  if r.2 ≠ 1 then 0 else r.1

/-- A selection, and whether it stems from the read at boot. -/
structure Emission where
  channel : ℕ
  boot : Bool
deriving DecidableEq

/-- Where the watcher stands. -/
inductive Phase where
  /-- At the top of `read`. -/
  | reading
  /-- At the outer `select`. -/
  | sending (e : Emission)
  /-- At the inner one: the channel was full. -/
  | draining (e : Emission)
  /-- Waiting for a token. -/
  | idle
  /-- `watch` has returned. -/
  | done
deriving DecidableEq

/-- The switch, the watcher, the channel and the forwarder. -/
structure State where
  /-- What a read of the lines would give. -/
  lines : List ℤ
  /-- The lines have changed and no callback has come since. -/
  owed : Bool
  edge : Bool
  phase : Phase
  booted : Bool
  last : ℕ
  errStreak : ℕ
  out : Option Emission
  src : Source
  /-- What the forwarder has applied. -/
  applied : List (Emission × Source)
  /-- What the watcher has emitted. -/
  emitted : List ℕ

/-- `Events`, and the forwarder that is started on it. -/
def start (lines : List ℤ) : State where
  lines := lines
  owed := false
  edge := false
  phase := .reading
  booted := false
  last := 0
  errStreak := 0
  out := none
  src := .init
  applied := []
  emitted := []

inductive Action where
  /-- The lines change. -/
  | turn (lines : List ℤ)
  /-- The kernel calls back. -/
  | callback
  /-- The watcher takes the token. -/
  | wake
  /-- `Values` succeeds. -/
  | read
  /-- `Values` fails. -/
  | fail
  /-- The outer `select`. -/
  | send
  /-- The inner one. -/
  | drain
  /-- The forwarder receives a selection, and applies it. -/
  | take
  /-- The context ends. -/
  | cancel
deriving DecidableEq

/-- One step. -/
def step (s : State) : Action → Option State
  | .turn lines => some { s with lines := lines, owed := true }
  | .callback => some { s with owed := false, edge := true }
  | .wake =>
      if s.phase = .idle ∧ s.edge = true then some { s with edge := false, phase := .reading }
      else none
  | .read =>
      if s.phase = .reading then
        let ch := decodeChannel s.lines
        if ch = 0 ∨ ch = s.last then
          some { s with errStreak := 0, phase := .idle, booted := true }
        else
          some { s with
            errStreak := 0, last := ch, phase := .sending ⟨ch, !s.booted⟩
            emitted := s.emitted ++ [ch] }
      else none
  | .fail =>
      if s.phase = .reading then
        if s.errStreak + 1 < readErrorBreaker then
          some { s with errStreak := s.errStreak + 1, phase := .idle, booted := true }
        else some { s with errStreak := s.errStreak + 1, phase := .done }
      else none
  | .send =>
      match s.phase with
      | .sending e =>
          match s.out with
          | none => some { s with out := some e, phase := .idle, booted := true }
          | some _ => some { s with phase := .draining e }
      | _ => none
  | .drain =>
      match s.phase with
      | .draining e => some { s with out := none, phase := .sending e }
      | _ => none
  | .take =>
      match s.out with
      | some e => some { s with out := none, applied := s.applied ++ [(e, s.src)], src := .gpio }
      | none => none
  | .cancel => if s.phase = .idle then some { s with phase := .done } else none

/-- What a step can do. -/
inductive Steps (s : State) : Action → State → Prop where
  | turn (lines : List ℤ) : Steps s (.turn lines) { s with lines := lines, owed := true }
  | callback : Steps s .callback { s with owed := false, edge := true }
  | wake (hphase : s.phase = .idle) :
      Steps s .wake { s with edge := false, phase := .reading }
  /-- Nothing is read, or nothing new. -/
  | held (hphase : s.phase = .reading)
      (hch : decodeChannel s.lines = 0 ∨ decodeChannel s.lines = s.last) :
      Steps s .read { s with errStreak := 0, phase := .idle, booted := true }
  | emit (hphase : s.phase = .reading)
      (hch : ¬ (decodeChannel s.lines = 0 ∨ decodeChannel s.lines = s.last)) :
      Steps s .read { s with
        errStreak := 0, last := decodeChannel s.lines
        phase := .sending ⟨decodeChannel s.lines, !s.booted⟩
        emitted := s.emitted ++ [decodeChannel s.lines] }
  | fail (hphase : s.phase = .reading) (hstreak : s.errStreak + 1 < readErrorBreaker) :
      Steps s .fail { s with errStreak := s.errStreak + 1, phase := .idle, booted := true }
  /-- The breaker trips. -/
  | trip (hphase : s.phase = .reading) (hstreak : readErrorBreaker ≤ s.errStreak + 1) :
      Steps s .fail { s with errStreak := s.errStreak + 1, phase := .done }
  | send (e : Emission) (hphase : s.phase = .sending e) (hout : s.out = none) :
      Steps s .send { s with out := some e, phase := .idle, booted := true }
  | full (e : Emission) (hphase : s.phase = .sending e) (hout : s.out ≠ none) :
      Steps s .send { s with phase := .draining e }
  | drain (e : Emission) (hphase : s.phase = .draining e) :
      Steps s .drain { s with out := none, phase := .sending e }
  | take (e : Emission) (hout : s.out = some e) :
      Steps s .take { s with out := none, applied := s.applied ++ [(e, s.src)], src := .gpio }
  | cancel (hphase : s.phase = .idle) : Steps s .cancel { s with phase := .done }

theorem steps_of_step {s t : State} {a : Action} (h : step s a = some t) : Steps s a t := by
  unfold step at h
  split at h
  · exact Option.some.inj h ▸ .turn _
  · exact Option.some.inj h ▸ .callback
  · split at h
    · next hidle => exact Option.some.inj h ▸ .wake hidle.1
    · cases h
  · split at h
    · next hreading =>
      dsimp only at h
      split at h
      · next hch => exact Option.some.inj h ▸ .held hreading hch
      · next hch => exact Option.some.inj h ▸ .emit hreading hch
    · cases h
  · split at h
    · next hreading =>
      split at h
      · next hstreak => exact Option.some.inj h ▸ .fail hreading hstreak
      · next hstreak => exact Option.some.inj h ▸ .trip hreading (Nat.le_of_not_lt hstreak)
    · cases h
  · split at h
    · next e hphase =>
      split at h
      · next hout => exact Option.some.inj h ▸ .send e hphase hout
      · next e' hout => exact Option.some.inj h ▸ .full e hphase (by rw [hout]; nofun)
    · cases h
  · split at h
    · next e hphase => exact Option.some.inj h ▸ .drain e hphase
    · cases h
  · split at h
    · next e hout => exact Option.some.inj h ▸ .take e hout
    · cases h
  · split at h
    · next hidle => exact Option.some.inj h ▸ .cancel hidle
    · cases h

/-! ## The lines -/

/-- The line of a position is active, and no other is. -/
def Selects (lines : List ℤ) (i : ℕ) : Prop :=
  ∃ before after, lines = before ++ 0 :: after ∧ before.length = i ∧ 0 ∉ before ∧ 0 ∉ after

section Decode

variable {lines : List ℤ} {i k : ℕ} {r : ℕ × ℕ}

theorem foldl_inactive (h : 0 ∉ lines) : (lines.zipIdx k).foldl decodeTurn r = r := by
  induction lines generalizing k with
  | nil => rfl
  | cons v lines ih =>
      rw [List.mem_cons, not_or] at h
      rw [List.zipIdx_cons, List.foldl_cons, decodeTurn, if_neg (Ne.symm h.1), ih h.2]

theorem foldl_active : ((lines.zipIdx k).foldl decodeTurn r).2 = r.2 + lines.count 0 := by
  induction lines generalizing k r with
  | nil => rfl
  | cons v lines ih =>
      rw [List.zipIdx_cons, List.foldl_cons, ih, decodeTurn]
      by_cases hv : v = 0
      · subst hv
        rw [if_pos rfl, List.count_cons_self]
        omega
      · rw [if_neg hv, List.count_cons_of_ne hv]

/-- **A position is decoded**, as the channel of its number. -/
theorem decodeChannel_of_selects (h : Selects lines i) : decodeChannel lines = i + 1 := by
  obtain ⟨before, after, rfl, rfl, hbefore, hafter⟩ := h
  have hfold : ((before ++ 0 :: after).zipIdx).foldl decodeTurn (0, 0) =
      (before.length + 1, 1) := by
    rw [List.zipIdx_append, List.foldl_append, foldl_inactive hbefore, List.zipIdx_cons,
      List.foldl_cons, foldl_inactive hafter, decodeTurn, if_pos rfl, Nat.zero_add]
  change (if (((before ++ 0 :: after).zipIdx).foldl decodeTurn (0, 0)).2 ≠ 1 then 0
    else (((before ++ 0 :: after).zipIdx).foldl decodeTurn (0, 0)).1) = before.length + 1
  rw [hfold]
  rfl

/-- Nothing else is. -/
theorem exists_selects (h : decodeChannel lines ≠ 0) : ∃ i, Selects lines i := by
  have hactive : ((lines.zipIdx).foldl decodeTurn (0, 0)).2 = 1 := by
    by_contra hne
    exact h (if_pos hne)
  rw [foldl_active, Nat.zero_add] at hactive
  have hmem : (0 : ℤ) ∈ lines := List.count_pos_iff.1 (by omega)
  obtain ⟨before, after, rfl, hbefore⟩ := List.eq_append_cons_of_mem hmem
  refine ⟨before.length, before, after, rfl, rfl, hbefore, fun hafter => ?_⟩
  rw [List.count_append, List.count_cons_self] at hactive
  have := List.count_pos_iff.2 hafter
  omega

end Decode

/-! ## What the watcher keeps -/

/-- What the forwarder applied last, or what waits for it. -/
def State.latest (s : State) : Option ℕ :=
  (s.applied.map (fun p => p.1.channel) ++ s.out.toList.map Emission.channel).getLast?

/-- Every change has been noticed: there is no callback to come and no token. -/
def State.noticed (s : State) : Bool := !s.owed && !s.edge

/-- The lines give nothing, or what was read last. -/
def State.settled (s : State) : Prop := decodeChannel s.lines = 0 ∨ decodeChannel s.lines = s.last

/-- The watcher has emitted what it read last, never the same twice in a row,
and what it is not still sending was sent. While it sends, the lines are what
it read, unless there is more to come. -/
structure Inv (s : State) : Prop where
  last : s.last = s.emitted.getLast?.getD 0
  chain : s.emitted.IsChain (· ≠ ·)
  sent : s.phase = .idle ∨ s.phase = .reading → s.latest = s.emitted.getLast?
  sending : ∀ e, s.phase = .sending e ∨ s.phase = .draining e →
    s.emitted.getLast? = some e.channel ∧ (s.noticed = true → s.settled)

theorem inv_start (lines : List ℤ) : Inv (start lines) :=
  ⟨rfl, List.IsChain.nil, fun _ => rfl, fun e h => by rcases h with h | h <;> cases h⟩

variable {s t : State}

/-- A selection in the channel, or taken off it and applied, is the latest all
the same. -/
theorem latest_take {e : Emission} {src : Source} (hout : s.out = some e) :
    State.latest { s with out := none, applied := s.applied ++ [(e, s.src)], src := src } =
      s.latest := by
  simp [State.latest, hout]

theorem latest_send (s : State) (e : Emission) (b : Bool) :
    State.latest { s with out := some e, phase := .idle, booted := b } = some e.channel := by
  simp [State.latest]

theorem Inv.step {a : Action} (h : Inv s) (hstep : Gpio.step s a = some t) : Inv t := by
  cases steps_of_step hstep with
  | turn lines =>
      exact ⟨h.last, h.chain, h.sent, fun e he => ⟨(h.sending e he).1, nofun⟩⟩
  | callback =>
      refine ⟨h.last, h.chain, h.sent, fun e he => ⟨(h.sending e he).1, fun hnoticed => ?_⟩⟩
      simp [State.noticed] at hnoticed
  | wake hphase =>
      exact ⟨h.last, h.chain, fun _ => h.sent (.inl hphase), fun e he => by simp at he⟩
  | held hphase hch =>
      exact ⟨h.last, h.chain, fun _ => h.sent (.inr hphase), fun e he => by simp at he⟩
  | emit hphase hch =>
      refine ⟨by simp, ?_, fun hphase => by simp at hphase, fun e he => ?_⟩
      · refine h.chain.append (List.IsChain.singleton _) fun x hx y hy heq => ?_
        refine hch (.inr ?_)
        rw [List.head?_cons, Option.mem_some_iff] at hy
        rw [h.last, hy, ← heq, Option.mem_def.1 hx, Option.getD_some]
      · have he : e = ⟨decodeChannel s.lines, !s.booted⟩ := by simpa [eq_comm] using he
        subst he
        exact ⟨by simp, fun _ => .inr rfl⟩
  | fail hphase hstreak =>
      exact ⟨h.last, h.chain, fun _ => h.sent (.inr hphase), fun e he => by simp at he⟩
  | trip hphase hstreak =>
      exact ⟨h.last, h.chain, fun hphase => by simp at hphase, fun e he => by simp at he⟩
  | send e hphase hout =>
      refine ⟨h.last, h.chain, fun _ => ?_, fun e he => by simp at he⟩
      rw [latest_send, (h.sending e (.inl hphase)).1]
  | full e hphase hout =>
      refine ⟨h.last, h.chain, fun hphase => by simp at hphase, fun e' he' => ?_⟩
      obtain rfl : e = e' := by simpa using he'
      exact h.sending e (.inl hphase)
  | drain e hphase =>
      refine ⟨h.last, h.chain, fun hphase => by simp at hphase, fun e' he' => ?_⟩
      obtain rfl : e = e' := by simpa using he'
      exact h.sending e (.inr hphase)
  | take e hout =>
      refine ⟨h.last, h.chain, fun hphase => ?_, h.sending⟩
      rw [latest_take hout]
      exact h.sent hphase
  | cancel hphase =>
      exact ⟨h.last, h.chain, fun hphase => by simp at hphase, fun e he => by simp at he⟩

/-! ## The knob is followed -/

/-- **Where the switch rests** on a position and the watcher is idle, the
position is what was delivered last, or what is pending. -/
def Followed (s : State) : Prop :=
  s.phase = .idle → s.noticed = true → ∀ i, Selects s.lines i → s.latest = some (i + 1)

/-- **A read fails** only where a token is still to be taken, or there is nothing
new to read; or it is the one that trips the breaker. -/
def MadeUpFor (s : State) (a : Action) : Prop :=
  a = .fail → s.errStreak + 1 < readErrorBreaker → s.noticed = true → s.settled

/-- At rest, what is followed is what was read last. -/
theorem followed_iff (h : Inv s) (hidle : s.phase = .idle) :
    Followed s ↔ (s.noticed = true → s.settled) := by
  have hlatest : s.last = s.latest.getD 0 := by rw [h.last, h.sent (.inl hidle)]
  constructor
  · intro hfollowed hnoticed
    by_cases hzero : decodeChannel s.lines = 0
    · exact .inl hzero
    · obtain ⟨i, hi⟩ := exists_selects hzero
      refine .inr ?_
      rw [hlatest, hfollowed hidle hnoticed i hi, decodeChannel_of_selects hi, Option.getD_some]
  · intro hsettled _ hnoticed i hi
    have hlast : s.last = i + 1 := by
      rcases hsettled hnoticed with hzero | heq
      · rw [decodeChannel_of_selects hi] at hzero
        cases hzero
      · rw [← heq, decodeChannel_of_selects hi]
    rw [hlatest] at hlast
    cases hsome : s.latest with
    | none =>
        rw [hsome] at hlast
        cases hlast
    | some ch =>
        rw [hsome] at hlast
        exact congrArg some hlast

theorem followed_of_phase (h : s.phase ≠ .idle) : Followed s := fun hidle => absurd hidle h

/-- **One step** keeps the knob followed exactly when no read fails that is not
made up for. -/
theorem followed_step {a : Action} (h : Inv s) (hs : Followed s)
    (hstep : step s a = some t) : Followed t ↔ MadeUpFor s a := by
  have ht := h.step hstep
  cases steps_of_step hstep with
  | turn lines => exact iff_of_true (fun _ hnoticed => by simp [State.noticed] at hnoticed) nofun
  | callback => exact iff_of_true (fun _ hnoticed => by simp [State.noticed] at hnoticed) nofun
  | wake hphase => exact iff_of_true (followed_of_phase nofun) nofun
  | held hphase hch => exact iff_of_true ((followed_iff ht rfl).2 fun _ => hch) nofun
  | emit hphase hch => exact iff_of_true (followed_of_phase nofun) nofun
  | fail hphase hstreak =>
      rw [followed_iff ht rfl]
      exact ⟨fun hsettled _ _ => hsettled, fun hmade => hmade rfl hstreak⟩
  | trip hphase hstreak =>
      exact iff_of_true (followed_of_phase nofun) fun _ hlt => absurd hstreak (Nat.not_le.2 hlt)
  | send e hphase hout =>
      exact iff_of_true ((followed_iff ht rfl).2 (h.sending e (.inl hphase)).2) nofun
  | full e hphase hout => exact iff_of_true (followed_of_phase nofun) nofun
  | drain e hphase => exact iff_of_true (followed_of_phase nofun) nofun
  | take e hout =>
      refine iff_of_true (fun hidle hnoticed i hi => ?_) nofun
      rw [latest_take hout]
      exact hs hidle hnoticed i hi
  | cancel hphase => exact iff_of_true (followed_of_phase nofun) nofun

/-- A read that fails adds one to the streak, at most; and ten in a row trip the
breaker. -/
theorem streak_step {a : Action} {n : ℕ} (hstep : step s a = some t) (hcancel : a ≠ .cancel)
    (hs : s.errStreak ≤ n ∧ (s.phase = .done → readErrorBreaker ≤ n)) :
    t.errStreak ≤ n + [a].count .fail ∧
      (t.phase = .done → readErrorBreaker ≤ n + [a].count .fail) := by
  obtain ⟨hstreak, hdone⟩ := hs
  cases steps_of_step hstep with
  | turn lines => exact ⟨hstreak, hdone⟩
  | callback => exact ⟨hstreak, hdone⟩
  | wake hphase => exact ⟨hstreak, nofun⟩
  | held hphase hch => exact ⟨Nat.zero_le _, nofun⟩
  | emit hphase hch => exact ⟨Nat.zero_le _, nofun⟩
  | fail hphase hlt => exact ⟨Nat.succ_le_succ hstreak, nofun⟩
  | trip hphase hge =>
      have hle : s.errStreak + 1 ≤ n + 1 := Nat.succ_le_succ hstreak
      exact ⟨hle, fun _ => hge.trans hle⟩
  | send e hphase hout => exact ⟨hstreak, nofun⟩
  | full e hphase hout => exact ⟨hstreak, nofun⟩
  | drain e hphase => exact ⟨hstreak, nofun⟩
  | take e hout => exact ⟨hstreak, hdone⟩
  | cancel hphase => exact absurd rfl hcancel

theorem streak_run {as : List Action} {n : ℕ} (hrun : Run step s as t) (hcancel : .cancel ∉ as)
    (hs : s.errStreak ≤ n ∧ (s.phase = .done → readErrorBreaker ≤ n)) :
    t.phase = .done → readErrorBreaker ≤ n + as.count .fail := by
  induction hrun generalizing n with
  | nil s => exact hs.2
  | @cons s u t a as hfirst hrest ih =>
      rw [List.mem_cons, not_or] at hcancel
      have hnext := ih hcancel.2 (streak_step hfirst (Ne.symm hcancel.1) hs)
      rw [List.count_cons, Nat.add_comm (as.count _), ← Nat.add_assoc]
      rw [List.count_singleton] at hnext
      exact hnext

/-- **The selector**, over every run with fewer than ten read errors in all: the
watcher has not given up unless its context ended, it never emits the same
selection twice in a row, and wherever it rests the knob is followed, exactly
when every read that fails is made up for. -/
theorem selector_followed {lines : List ℤ} {as : List Action} (hrun : Run step (start lines) as s)
    (herrors : as.count .fail < readErrorBreaker) :
    (s.phase = .done → .cancel ∈ as) ∧ s.emitted.IsChain (· ≠ ·) ∧
      (Throughout step Followed (start lines) as ↔ Always step MadeUpFor (start lines) as) := by
  refine ⟨fun hdone => ?_, ?_, ?_⟩
  · by_contra hcancel
    have := streak_run hrun hcancel (n := 0) ⟨le_rfl, nofun⟩ hdone
    omega
  · exact (hrun.invariant_of_step (inv_start lines) fun _ _ _ hu hstep => hu.step hstep).chain
  · exact hrun.throughout_iff_always (inv_start lines) (followed_of_phase nofun)
      (fun _ _ _ hu hstep => hu.step hstep) fun _ _ _ hu hP hstep => followed_step hu hP hstep

/-- The knob on its first position, turned to the second; the first is delivered
meanwhile, and the read after the turn succeeds. -/
def turned : List Action :=
  [.read, .send, .take, .turn [1, 0, 1, 1, 1], .callback, .wake, .read, .send]

theorem selector_followed_turned : ∃ s, Run step (start [0, 1, 1, 1, 1]) turned s ∧
    s.emitted = [1, 2] ∧ s.latest = some 2 ∧ s.emitted.IsChain (· ≠ ·) ∧
    Throughout step Followed (start [0, 1, 1, 1, 1]) turned := by
  obtain ⟨s, hs⟩ : ∃ s, turned.foldlM step (start [0, 1, 1, 1, 1]) = some s := ⟨_, rfl⟩
  have hrun := Run.of_foldlM hs
  obtain ⟨-, hchain, hfollowed⟩ := selector_followed hrun (by decide)
  have hreads : ∀ a ∈ turned, a ≠ .fail := by decide
  have hmade : ∀ a ∈ turned, ∀ s, MadeUpFor s a := fun a ha _ hfail => absurd hfail (hreads a ha)
  refine ⟨s, hrun, ?_, ?_, hchain, hfollowed.2 (Always.of_forall hmade _)⟩
  · cases hs
    rfl
  · cases hs
    rfl

/-- **One failed read** after the turn, and the knob is not followed: it rests on
its second position and the first is what was delivered last. -/
theorem selector_not_followed : ¬ ∀ lines as s, Run step (start lines) as s →
    as.count .fail < readErrorBreaker → Followed s ∧ s.emitted.IsChain (· ≠ ·) := by
  intro h
  obtain ⟨s, hs⟩ : ∃ s, [Action.read, .send, .take, .turn [1, 0, 1, 1, 1], .callback, .wake,
    .fail].foldlM step (start [0, 1, 1, 1, 1]) = some s := ⟨_, rfl⟩
  obtain ⟨hfollowed, -⟩ := h _ _ s (Run.of_foldlM hs) (by decide)
  cases hs
  have hlatest := hfollowed rfl rfl 1 ⟨[1], [1, 1, 1], rfl, rfl, by decide, by decide⟩
  revert hlatest
  decide

/-! ## The forwarder -/

/-- **Only the boot position is silent**: what is applied as the selection of the
boot stems from the read at boot, and what does not is applied as the
operator's. -/
def Silent (s : State) : Prop :=
  ∀ p ∈ s.applied, (p.2 = .init → p.1.boot = true) ∧ (p.1.boot = false → p.2 = .gpio)

/-- **A selection of a later read** goes into the channel only after the forwarder
has taken one. -/
def AfterFirst (s : State) (a : Action) : Prop :=
  match a, s.phase with
  | .send, .sending e => s.out = none → e.boot = false → s.src = .gpio
  | _, _ => True

instance (s : State) (a : Action) : Decidable (AfterFirst s a) := by
  unfold AfterFirst
  split <;> infer_instance

/-- The forwarder applies as one source or the other, and what it has applied and
would apply next is right. -/
structure Announced (s : State) : Prop where
  silent : Silent s
  next : ∀ e, s.out = some e → e.boot = false → s.src = .gpio

theorem announced_iff : Announced s ↔ Silent s ∧ ∀ t, step s .take = some t → Silent t := by
  constructor
  · intro h
    refine ⟨h.silent, fun t ht p hp => ?_⟩
    cases steps_of_step ht with
    | take e hout =>
        rcases List.mem_append.1 hp with hp | hp
        · exact h.silent p hp
        · rw [List.mem_singleton.1 hp]
          refine ⟨fun hsrc => ?_, h.next e hout⟩
          by_contra hboot
          rw [h.next e hout (Bool.not_eq_true _ ▸ hboot)] at hsrc
          cases hsrc
  · rintro ⟨hsilent, hnext⟩
    refine ⟨hsilent, fun e hout => ?_⟩
    have htake : step s .take =
        some { s with out := none, applied := s.applied ++ [(e, s.src)], src := .gpio } := by
      simp only [step, hout]
    exact (hnext _ htake (e, s.src) (List.mem_append_right _ List.mem_cons_self)).2

/-- **One step** keeps the forwarder right exactly when it sends nothing of a
later read before the forwarder has taken a selection. -/
theorem announced_step {a : Action} (hs : Announced s) (hstep : step s a = some t) :
    Announced t ↔ AfterFirst s a := by
  cases steps_of_step hstep with
  | send e hphase hout =>
      simp only [AfterFirst, hphase]
      constructor
      · exact fun h _ => h.next e rfl
      · refine fun hafter => ⟨hs.silent, fun e' he' => ?_⟩
        cases he'
        exact hafter hout
  | full e hphase hout =>
      simp only [AfterFirst, hphase]
      exact iff_of_true ⟨hs.silent, hs.next⟩ fun hnone => absurd hnone hout
  | drain e hphase => exact iff_of_true ⟨hs.silent, nofun⟩ trivial
  | take e hout =>
      exact iff_of_true ⟨(announced_iff.1 hs).2 _ hstep, fun _ _ _ => rfl⟩ trivial
  | turn lines => exact iff_of_true ⟨hs.silent, hs.next⟩ trivial
  | callback => exact iff_of_true ⟨hs.silent, hs.next⟩ trivial
  | wake hphase => exact iff_of_true ⟨hs.silent, hs.next⟩ trivial
  | held hphase hch => exact iff_of_true ⟨hs.silent, hs.next⟩ trivial
  | emit hphase hch => exact iff_of_true ⟨hs.silent, hs.next⟩ trivial
  | fail hphase hstreak => exact iff_of_true ⟨hs.silent, hs.next⟩ trivial
  | trip hphase hstreak => exact iff_of_true ⟨hs.silent, hs.next⟩ trivial
  | cancel hphase => exact iff_of_true ⟨hs.silent, hs.next⟩ trivial

/-- **The forwarder**, over every run: only the boot position is silent, in every
state and whatever the forwarder takes next, exactly when no selection of a
later read goes into the channel before the forwarder has taken one. -/
theorem forwardSelections_silent {lines : List ℤ} {as : List Action}
    (hrun : Run step (start lines) as s) :
    Throughout step (fun s => Silent s ∧ ∀ t, step s .take = some t → Silent t) (start lines) as ↔
      Always step AfterFirst (start lines) as := by
  have hannounced : (fun s => Silent s ∧ ∀ t, step s .take = some t → Silent t) = Announced :=
    funext fun _ => propext announced_iff.symm
  rw [hannounced]
  exact hrun.throughout_iff_always (I := fun _ => True) trivial ⟨nofun, nofun⟩
    (fun _ _ _ _ _ => trivial) fun _ _ _ _ hu hstep => announced_step hu hstep

/-- The boot position is applied before the knob is turned. -/
theorem forwardSelections_silent_turned : ∃ s, Run step (start [0, 1, 1, 1, 1]) turned s ∧
    s.applied = [(⟨1, true⟩, .init)] ∧ s.out = some ⟨2, false⟩ ∧
    Throughout step (fun s => Silent s ∧ ∀ t, step s .take = some t → Silent t)
      (start [0, 1, 1, 1, 1]) turned := by
  obtain ⟨s, hs⟩ : ∃ s, turned.foldlM step (start [0, 1, 1, 1, 1]) = some s := ⟨_, rfl⟩
  have hrun := Run.of_foldlM hs
  refine ⟨s, hrun, ?_, ?_, (forwardSelections_silent hrun).2 (by decide)⟩
  · cases hs
    rfl
  · cases hs
    rfl

/-- **No position at boot**: the knob is between two positions when the daemon
starts, and the first that the operator turns it to is applied in silence. -/
theorem forwardSelections_not_silent : ¬ ∀ lines as s, Run step (start lines) as s → Silent s := by
  intro h
  obtain ⟨s, hs⟩ : ∃ s, [Action.read, .turn [1, 1, 0, 1, 1], .callback, .wake, .read, .send,
    .take].foldlM step (start [1, 1, 1, 1, 1]) = some s := ⟨_, rfl⟩
  have hsilent := h _ _ s (Run.of_foldlM hs)
  cases hs
  have hinit := (hsilent (⟨3, false⟩, .init) (by decide)).1 rfl
  cases hinit

end Gpio

end OpenManet
