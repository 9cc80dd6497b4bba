import OpenManet.Comms.TalkGroup.Model
/-!
# Playback and the receive toggle

A call that changes a receive toggle reads it again later and starts or
stops the stream by what it read, in three steps that others get between. A
stream that is not as its toggle asks is *owed* to somebody: a call that is
yet to read the toggle, or has read what it is now. A value applied after
the toggle changed pays nobody's debt, and if it was the last one owed the
port stays as it is: silent, and enabled.
-/

namespace OpenManet

namespace TalkGroup

variable {ports : List ℤ} {s t : State}

/-- A call at this point will leave the stream of a port as a toggle that
stays `b` asks. -/
def Point.owes (port : ℕ) (b : Bool) : Point → Bool
  | .flipping _ _ _ rxChanged => rxChanged.contains port
  | .notifying _ _ _ rxChanged => rxChanged.contains port
  | .unlocking rxChanged => rxChanged.contains port
  | .reconciling todo => todo.contains port
  | .applying p enabled todo => p == port && enabled == b || todo.contains port
  | _ => false

/-- Some call other than `i` will leave a stream as its toggle asks. -/
def State.othersOwe (s : State) (i port : ℕ) : Bool :=
  (List.range s.threads.length).any fun j =>
    j != i && s.threads[j]?.any fun th => th.point.owes port (s.receiveEnabled port)

/-- A stream is started or stopped as its toggle asks by now, or another call
will see to it. -/
def timely (s : State) : Action → Bool
  | .call _ => true
  | .go i =>
      match s.threads[i]? with
      | some ⟨_, .applying port enabled _⟩ =>
          enabled == s.receiveEnabled port || s.othersOwe i port
      | _ => true

/-- The stream of a port runs as its toggle asks, or is owed to a call. -/
def Settles (s : State) (port : ℕ) : Prop :=
  s.playbackRunning port = s.receiveEnabled port ∨
    ∃ (i : ℕ) (th : Thread), s.threads[i]? = some th ∧
      th.point.owes port (s.receiveEnabled port) = true

/-- A call that goes on, leaves a port alone and still owes it if it did. -/
theorem Settles.goto {port i : ℕ} {c : Call} {p q : Point} (h : Settles s port)
    (hi : s.threads[i]? = some ⟨c, p⟩) (hthreads : t.threads = (s.goto i c q).threads)
    (hreceive : t.receiveEnabled port = s.receiveEnabled port)
    (hrunning : t.playbackRunning port = s.playbackRunning port)
    (howes : p.owes port (s.receiveEnabled port) = true →
      q.owes port (s.receiveEnabled port) = true) : Settles t port := by
  rcases h with hrun | ⟨j, th, hj, hth⟩
  · exact .inl (by rw [hrunning, hreceive, hrun])
  · refine .inr ?_
    rw [hreceive, hthreads]
    by_cases hij : j = i
    · rw [hij, hi, Option.some.injEq] at hj
      rw [← hj] at hth
      exact ⟨i, _, goto_self hi, howes hth⟩
    · exact ⟨j, th, by rw [goto_of_ne hij, hj], hth⟩

/-- A flip of one toggle, read at another. -/
theorem receiveEnabled_swap_of_ne {f : Toggle} {b : Bool} {port : ℕ} (h : f ≠ ⟨.receive, port⟩) :
    (s.swap f b).receiveEnabled port = s.receiveEnabled port :=
  State.swap_of_ne s (Ne.symm h) b

/-- A flip that changes nothing. -/
theorem receiveEnabled_swap_of_eq {f : Toggle} {b : Bool} (h : s.toggles f = b) (port : ℕ) :
    (s.swap f b).receiveEnabled port = s.receiveEnabled port := by
  by_cases hf : (⟨.receive, port⟩ : Toggle) = f
  · rw [State.receiveEnabled, State.receiveEnabled, hf, State.swap_self, h]
  · exact State.swap_of_ne s hf b

/-- **A timely step keeps every stream settled.** -/
theorem Settles.step {a : Action} {port : ℕ} (h : Settles s port) (ha : timely s a = true)
    (hstep : TalkGroup.step ports s a = some t) : Settles t port := by
  obtain ⟨c, rfl, rfl⟩ | ⟨i, c, p, rfl, hi, hgo⟩ := step_cases hstep
  · rcases h with hrun | ⟨j, th, hj, hth⟩
    · exact .inl hrun
    · refine .inr ⟨j, th, ?_, hth⟩
      dsimp only
      rw [List.getElem?_append_left (List.getElem?_eq_some_iff.1 hj).1, hj]
  · cases p with
    | locking sel =>
        rw [State.advance] at hgo
        split at hgo
        · cases hgo
          exact h.goto hi rfl rfl rfl (fun hno => by cases hno)
        · cases hgo
    | flipping sel todo changed rxChanged =>
        cases todo with
        | nil =>
            cases hgo
            exact h.goto hi rfl rfl rfl id
        | cons f todo =>
            obtain ⟨f, b⟩ := f
            cases hgo
            by_cases hsame : s.toggles f = b
            · have hflip : (s.toggles f != b) = false := by simp [hsame]
              refine h.goto hi rfl (receiveEnabled_swap_of_eq hsame port) rfl fun howes => ?_
              simpa [hflip, Point.owes] using howes
            · have hflip : (s.toggles f != b) = true := by simp [hsame]
              by_cases hf : f = ⟨.receive, port⟩
              · -- the call that changed the toggle owes its port
                refine .inr ⟨i, _, goto_self (s := s.swap f b) hi, ?_⟩
                rw [hflip, hf]
                simp [Point.owes]
              · refine h.goto hi rfl (receiveEnabled_swap_of_ne hf) rfl fun howes => ?_
                simp only [Point.owes, List.contains_iff_mem] at howes ⊢
                split
                · exact List.mem_append_left _ howes
                · exact howes
    | notifying sel prev changed rxChanged =>
        cases hgo
        exact h.goto hi rfl rfl rfl id
    | unlocking rxChanged =>
        cases hgo
        exact h.goto hi rfl rfl rfl id
    | toggling p enabled =>
        cases hgo
        by_cases hsame : s.toggles ⟨.receive, p⟩ = enabled
        · exact h.goto hi rfl (receiveEnabled_swap_of_eq hsame port) rfl fun hno => by cases hno
        · by_cases hp : p = port
          · refine .inr ⟨i, _, goto_self (s := s.swap ⟨.receive, p⟩ enabled) hi, ?_⟩
            have hflip : (s.receiveEnabled p != enabled) = true := by
              simpa [State.receiveEnabled] using hsame
            rw [if_pos hflip, hp]
            simp [Point.owes]
          · exact h.goto hi rfl (receiveEnabled_swap_of_ne (by simp [hp])) rfl
              fun hno => by cases hno
    | sleeping p =>
        cases hgo
        exact h.goto hi rfl rfl rfl fun hno => by cases hno
    | reconciling todo =>
        cases todo with
        | nil =>
            cases hgo
            exact h.goto hi rfl rfl rfl fun hno => by cases hno
        | cons p todo =>
            cases hgo
            refine h.goto hi rfl rfl rfl fun howes => ?_
            simp only [Point.owes, List.contains_cons, Bool.or_eq_true, beq_iff_eq,
              Bool.and_eq_true] at howes ⊢
            refine howes.imp_left fun heq => ⟨heq.symm, ?_⟩
            rw [heq]
    | applying p enabled todo =>
        cases hgo
        by_cases hp : p = port
        · rw [timely, hi] at ha
          dsimp only at ha
          rw [Bool.or_eq_true, beq_iff_eq] at ha
          rcases ha with hfresh | hothers
          · refine .inl ?_
            rw [hp] at hfresh
            dsimp only
            rw [hp, Function.update_self, hfresh]
            rfl
          · -- somebody else will see to it, and is where it was
            rw [State.othersOwe, List.any_eq_true] at hothers
            obtain ⟨j, -, hj⟩ := hothers
            rw [Bool.and_eq_true, bne_iff_ne, Option.any_eq_true] at hj
            obtain ⟨hne, th, hth, howes⟩ := hj
            rw [hp] at howes
            refine .inr ⟨j, th, ?_, howes⟩
            dsimp only
            rw [goto_of_ne hne, hth]
        · refine h.goto hi rfl rfl (Function.update_of_ne (Ne.symm hp) _ _) fun howes => ?_
          simpa [Point.owes, hp] using howes
    | returned ok => cases hgo

/-- A runtime no call is under way in, with every stream as its toggle
asks. -/
structure Following (ports : List ℤ) (s : State) : Prop where
  threads : s.threads = []
  follows : ∀ i < ports.length, s.playbackRunning i = s.receiveEnabled i

/-- **Playback follows the receive toggle.** In every run whose streams are
started and stopped in time, once all calls are back every port's stream
runs exactly when the port receives. -/
theorem playback_follows {s₀ : State} {as : List Action} (hstart : Following ports s₀)
    (htimely : Always (TalkGroup.step ports) (fun s a => timely s a = true) s₀ as)
    (hrun : Run (TalkGroup.step ports) s₀ as s) (hback : s.AllReturned) :
    ∀ i < ports.length, s.playbackRunning i = s.receiveEnabled i := by
  intro port hport
  have hfirst : Settles s₀ port := .inl (hstart.follows port hport)
  have hsettles : Settles s port :=
    Run.invariant (I := fun u => Settles u port) hrun htimely hfirst
      fun _ _ _ h ha hstep => h.step ha hstep
  rcases hsettles with hfollows | ⟨i, ⟨c, p⟩, hi, howes⟩
  · exact hfollows
  · have hreturned : p.isReturned = true := hback _ (List.mem_of_getElem? hi)
    cases p <;> simp [Point.isReturned, Point.owes] at hreturned howes

/-- One port, enabled and playing. -/
def onePlaying : State where
  toggles := fun _ => true
  playbackRunning := fun _ => true
  activeChannel := 1
  selectMu := none
  events := []
  threads := []
  atLock := fun _ => false
  taken := []
  selections := []

/-- A port is disabled and then enabled again, each call by itself. -/
theorem playback_follows_twice :
    ∃ s, Run (TalkGroup.step [38801]) onePlaying
      [.call (.enableTalkGroupReceive 0 false), .go 0, .go 0, .go 0, .go 0,
        .call (.enableTalkGroupReceive 0 true), .go 1, .go 1, .go 1, .go 1] s ∧
      ∀ i < 1, s.playbackRunning i = s.receiveEnabled i := by
  obtain ⟨s, hs⟩ := Option.isSome_iff_exists.1
    (show (List.foldlM (TalkGroup.step [38801]) onePlaying
      [.call (.enableTalkGroupReceive 0 false), .go 0, .go 0, .go 0, .go 0,
        .call (.enableTalkGroupReceive 0 true), .go 1, .go 1, .go 1, .go 1]).isSome = true by
      decide +kernel)
  have hthreads : s.threads = [⟨.enableTalkGroupReceive 0 false, .returned true⟩,
      ⟨.enableTalkGroupReceive 0 true, .returned true⟩] := by
    have hmap := congrArg (Option.map State.threads) hs
    rw [Option.map_some] at hmap
    exact (Option.some.inj (hmap.symm.trans (by decide +kernel)))
  refine ⟨s, Run.of_foldlM hs, @playback_follows [38801] s onePlaying _
    ⟨rfl, fun _ _ => rfl⟩ (by decide +kernel) (Run.of_foldlM hs) ?_⟩
  rw [State.AllReturned, hthreads]
  decide

/-- **Silent, and enabled.** A disable reads the toggle it has just turned
off; an enable turns it on, reads it and finds the stream running; and the
disable stops the stream. Both are back, the port receives and nothing
plays. -/
theorem silent_while_enabled :
    ¬ ∀ (ports : List ℤ) (s₀ s : State) (as : List Action), Following ports s₀ →
      Run (TalkGroup.step ports) s₀ as s → s.AllReturned →
        ∀ i < ports.length, s.playbackRunning i = s.receiveEnabled i := by
  intro h
  have hrun : ∃ s, List.foldlM (TalkGroup.step [38801]) onePlaying
      [.call (.enableTalkGroupReceive 0 false), .call (.enableTalkGroupReceive 0 true), .go 0,
        .go 0, .go 1, .go 1, .go 1, .go 1, .go 0, .go 0] = some s ∧
      (s.threads = [⟨.enableTalkGroupReceive 0 false, .returned true⟩,
        ⟨.enableTalkGroupReceive 0 true, .returned true⟩]) ∧
        s.playbackRunning 0 ≠ s.receiveEnabled 0 :=
    ⟨_, rfl, by decide +kernel, by decide +kernel⟩
  obtain ⟨s, hs, hthreads, hsilent⟩ := hrun
  refine hsilent (h [38801] onePlaying s _ ⟨rfl, fun _ _ => rfl⟩ (Run.of_foldlM hs) ?_ 0 (by simp))
  rw [State.AllReturned, hthreads]
  decide

end TalkGroup

end OpenManet
