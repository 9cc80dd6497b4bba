import OpenManet.Comms.TalkGroup.Model
import Mathlib.Data.List.Nodup
/-!
# Exclusive selection

A selection turns every other port off before it turns its target on, so a
reader that takes no lock never finds two ports on. What is written and
announced under `selectMu` comes out in the order in which the calls took
it: `Holds` says, for each point inside the lock, what the holder has done
and what it has left to do.
-/

namespace OpenManet

namespace TalkGroup

variable {ports : List ℤ} {a₀ : ℤ} {s t : State} {n k : ℕ}

/-! ## The flips of a selection -/

/-- At most one of `n` ports sends, and at most one receives. -/
def AtMostOne (n : ℕ) (toggles : Toggle → Bool) : Prop :=
  ∀ d i j, i < n → j < n → toggles ⟨d, i⟩ = true → toggles ⟨d, j⟩ = true → i = j

/-- Port `k` sends and receives, and no other of `n` ports does either. -/
def Only (n k : ℕ) (toggles : Toggle → Bool) : Prop :=
  ∀ d i, i < n → (toggles ⟨d, i⟩ = true ↔ i = k)

theorem mem_offs {f : Flip} : f ∈ offs n k ↔ ∃ d i, i < n ∧ i ≠ k ∧ f = (⟨d, i⟩, false) := by
  simp only [offs, List.mem_flatMap, List.mem_filter, List.mem_range, decide_eq_true_eq,
    List.mem_cons, List.not_mem_nil, or_false]
  constructor
  · rintro ⟨i, ⟨hi, hne⟩, rfl | rfl⟩
    · exact ⟨.send, i, hi, hne, rfl⟩
    · exact ⟨.receive, i, hi, hne, rfl⟩
  · rintro ⟨d, i, hi, hne, rfl⟩
    refine ⟨i, ⟨hi, hne⟩, ?_⟩
    cases d
    · exact .inl rfl
    · exact .inr rfl

/-- No toggle is flipped twice. -/
theorem nodup_flips (n k : ℕ) : ((flips n k).map Prod.fst).Nodup := by
  have hoffs : ((offs n k).map Prod.fst).Nodup := by
    rw [offs, List.map_flatMap]
    refine List.nodup_flatMap.2 ⟨fun i _ => by simp, ?_⟩
    refine (List.Nodup.filter _ List.nodup_range).imp fun {i j} hij => ?_
    simp only [Function.onFun, List.disjoint_iff_ne]
    rintro a ha b hb rfl
    simp only [List.map_cons, List.map_nil, List.mem_cons, List.not_mem_nil, or_false] at ha hb
    rcases ha with rfl | rfl <;> rcases hb with hb | hb <;> simp_all
  rw [flips, List.map_append, List.nodup_append]
  refine ⟨hoffs, by simp, ?_⟩
  rintro a ha b hb rfl
  obtain ⟨f, hf, rfl⟩ := List.mem_map.1 ha
  obtain ⟨d, i, -, hne, rfl⟩ := mem_offs.1 hf
  simp only [List.map_cons, List.map_nil, List.mem_cons, List.not_mem_nil, or_false,
    Toggle.mk.injEq] at hb
  omega

/-- **By the time a port is turned on, the others are off.** -/
theorem offs_done {d₁ d₂ : List Flip} {f : Flip} (h : flips n k = d₁ ++ f :: d₂) (hon : f.2 = true) :
    (∃ d, f.1 = ⟨d, k⟩) ∧ ∀ g ∈ offs n k, g ∈ d₁ := by
  have hmem : f ∈ flips n k := by rw [h]; simp
  have hnot : f ∉ offs n k := by
    intro hf
    obtain ⟨d, i, -, -, rfl⟩ := mem_offs.1 hf
    cases hon
  constructor
  · rw [flips, List.mem_append] at hmem
    rcases hmem with hf | hf
    · exact absurd hf hnot
    · simp only [List.mem_cons, List.not_mem_nil, or_false] at hf
      rcases hf with rfl | rfl
      · exact ⟨.send, rfl⟩
      · exact ⟨.receive, rfl⟩
  · rw [flips, List.append_eq_append_iff] at h
    obtain ⟨l, rfl, -⟩ | ⟨l, hoffs, htail⟩ := h
    · exact fun g hg => List.mem_append_left _ hg
    · cases l with
      | nil =>
          rw [List.append_nil] at hoffs
          exact fun g hg => hoffs ▸ hg
      | cons g l =>
          rw [List.cons_append, List.cons.injEq] at htail
          refine absurd ?_ hnot
          rw [hoffs, htail.1]
          simp

/-- Turning a toggle off keeps two ports from being on. -/
theorem AtMostOne.off {toggles : Toggle → Bool} (h : AtMostOne n toggles) (f : Toggle) :
    AtMostOne n (Function.update toggles f false) := by
  have hle : ∀ g, Function.update toggles f false g = true → toggles g = true := by
    intro g hg
    rw [Function.update_apply] at hg
    split at hg
    · cases hg
    · exact hg
  exact fun d i j hi hj hon hon' => h d i j hi hj (hle _ hon) (hle _ hon')

/-- **Turning the target on**, where the others are off. -/
theorem atMostOne_on {toggles : Toggle → Bool}
    (hoff : ∀ d i, i < n → i ≠ k → toggles ⟨d, i⟩ = false) (d : Direction) :
    AtMostOne n (Function.update toggles ⟨d, k⟩ true) := by
  have hk : ∀ d' i, i < n → Function.update toggles ⟨d, k⟩ true ⟨d', i⟩ = true → i = k := by
    intro d' i hi hon
    by_contra hne
    rw [Function.update_of_ne (by simp [hne]), hoff d' i hi hne] at hon
    cases hon
  exact fun d' i j hi hj hon hon' => (hk d' i hi hon).trans (hk d' j hj hon').symm

/-! ## The toggles that changed -/

theorem toggled_iff :
    s.toggled n = true ↔ ∃ d i, i < n ∧ s.toggles ⟨d, i⟩ ≠ s.atLock ⟨d, i⟩ := by
  simp only [State.toggled, List.any_eq_true, List.mem_range, Bool.or_eq_true, bne_iff_ne]
  constructor
  · rintro ⟨i, hi, h | h⟩
    · exact ⟨.send, i, hi, h⟩
    · exact ⟨.receive, i, hi, h⟩
  · rintro ⟨d, i, hi, h⟩
    cases d
    · exact ⟨i, hi, .inl h⟩
    · exact ⟨i, hi, .inr h⟩

/-- **One flip more**: a toggle not flipped before has changed if it was not
already so. -/
theorem toggled_swap {f : Toggle} {b : Bool} (hf : f.port < n) (hsame : s.toggles f = s.atLock f) :
    (s.swap f b).toggled n = (s.toggled n || s.toggles f != b) := by
  rw [Bool.eq_iff_iff, Bool.or_eq_true, toggled_iff, toggled_iff, bne_iff_ne]
  constructor
  · rintro ⟨d, i, hi, hne⟩
    by_cases heq : (⟨d, i⟩ : Toggle) = f
    · rw [heq] at hne
      rw [State.swap_self, State.swap_atLock, ← hsame] at hne
      exact .inr hne.symm
    · rw [State.swap_of_ne s heq, State.swap_atLock] at hne
      exact .inl ⟨d, i, hi, hne⟩
  · rintro (⟨d, i, hi, hne⟩ | hne)
    · have hother : (⟨d, i⟩ : Toggle) ≠ f := by
        rintro rfl
        exact hne hsame
      exact ⟨d, i, hi, by rwa [State.swap_of_ne s hother, State.swap_atLock]⟩
    · refine ⟨f.direction, f.port, hf, ?_⟩
      rw [State.swap_self, State.swap_atLock, ← hsame]
      exact hne.symm

/-! ## What is announced -/

/-- The selection is announced: it changed a toggle or the active channel. -/
def Selection.announced (e : Selection) : Bool := e.toggled || e.prev != e.channel

/-- Its event. -/
def Selection.event (e : Selection) : Event := ⟨e.channel, e.prev, e.source⟩

/-- The events of a list of selections. -/
def announcements (es : List Selection) : List Event := (es.filter Selection.announced).map Selection.event

theorem announcements_concat (es : List Selection) (e : Selection) :
    announcements (es ++ [e]) = announcements es ++ if e.announced then [e.event] else [] := by
  rw [announcements, List.filter_append, List.map_append, announcements]
  congr 1
  cases h : e.announced <;> simp [h]

/-- Each one's `prev` is the channel of the one before. -/
def Linked : ℤ → List (ℤ × ℤ) → Prop
  | _, [] => True
  | a, (prev, channel) :: rest => prev = a ∧ Linked channel rest

/-- Where a linked list leads to. -/
def linkEnd (a : ℤ) (l : List (ℤ × ℤ)) : ℤ := (l.getLast?.map Prod.snd).getD a

theorem linkEnd_cons (a prev channel : ℤ) (l : List (ℤ × ℤ)) :
    linkEnd a ((prev, channel) :: l) = linkEnd channel l := by
  cases l with
  | nil => rfl
  | cons e l => simp [linkEnd, List.getLast?_cons]

theorem Linked.concat {a : ℤ} {l : List (ℤ × ℤ)} (h : Linked a l) (channel : ℤ) :
    Linked a (l ++ [(linkEnd a l, channel)]) := by
  induction l generalizing a with
  | nil => exact ⟨rfl, trivial⟩
  | cons e l ih =>
      obtain ⟨prev, c⟩ := e
      rw [linkEnd_cons]
      exact ⟨h.1, ih h.2⟩

/-- Dropping entries that stay where they are leaves the others linked. -/
theorem Linked.filter {a : ℤ} {es : List Selection}
    (h : Linked a (es.map fun e => (e.prev, e.channel))) :
    Linked a ((announcements es).map fun e => (e.prev, e.channel)) := by
  induction es generalizing a with
  | nil => trivial
  | cons e es ih =>
      obtain ⟨hprev, hrest⟩ := h
      by_cases hsaid : e.announced = true
      · rw [announcements, List.filter_cons_of_pos hsaid]
        exact ⟨hprev, ih hrest⟩
      · rw [announcements, List.filter_cons_of_neg hsaid]
        rw [Selection.announced, Bool.or_eq_true, not_or, bne_iff_ne, not_not] at hsaid
        have hstay : a = e.channel := hprev.symm.trans hsaid.2
        rw [hstay]
        exact ih hrest

/-! ## The invariant -/

/-- The port of the active channel, and no other, sends and receives. -/
def ActiveOnly (ports : List ℤ) (s : State) : Prop :=
  ∃ k, targetIdx ports s.activeChannel = some k ∧ Only ports.length k s.toggles

/-- What the holder of `selectMu` has done, and what it has left to do. -/
inductive Holds (ports : List ℤ) (s : State) : Option ℕ → Prop
  /-- Nobody holds it: every selection is announced, and the last stands. -/
  | free (htaken : s.taken = s.selections.map Selection.thread)
      (hevents : s.events = announcements s.selections)
      (honly : s.selections ≠ [] → ActiveOnly ports s) : Holds ports s none
  /-- The flips made stand, and those to make find what the holder found. -/
  | flipping {i : ℕ} {sel : Select} {made todo : List Flip} {rxChanged : List ℕ}
      (hi : s.threads[i]? = some ⟨.selectTalkGroup sel.channel sel.source,
        .flipping sel todo (s.toggled ports.length) rxChanged⟩)
      (htarget : targetIdx ports sel.channel = some sel.target)
      (hflips : flips ports.length sel.target = made ++ todo)
      (hmade : ∀ f ∈ made, s.toggles f.1 = f.2) (htodo : ∀ f ∈ todo, s.toggles f.1 = s.atLock f.1)
      (htaken : s.taken = s.selections.map Selection.thread ++ [i])
      (hevents : s.events = announcements s.selections) : Holds ports s (some i)
  /-- The active channel is written, and not announced yet. -/
  | notifying {i : ℕ} {c : Call} {sel : Select} {past : List Selection} {e : Selection}
      {rxChanged : List ℕ} (hi : s.threads[i]? = some ⟨c, .notifying sel e.prev e.toggled rxChanged⟩)
      (hpast : s.selections = past ++ [e]) (hsel : e.channel = sel.channel ∧ e.source = sel.source)
      (htaken : s.taken = s.selections.map Selection.thread)
      (hevents : s.events = announcements past) (honly : ActiveOnly ports s) :
      Holds ports s (some i)
  /-- All is done. -/
  | unlocking {i : ℕ} {c : Call} {rxChanged : List ℕ}
      (hi : s.threads[i]? = some ⟨c, .unlocking rxChanged⟩)
      (htaken : s.taken = s.selections.map Selection.thread)
      (hevents : s.events = announcements s.selections) (honly : ActiveOnly ports s) :
      Holds ports s (some i)

/-- **The invariant** of runs whose calls are selections. -/
structure Inv (ports : List ℤ) (a₀ : ℤ) (s : State) : Prop where
  one : AtMostOne ports.length s.toggles
  linked : Linked a₀ (s.selections.map fun e => (e.prev, e.channel))
  active : s.activeChannel = linkEnd a₀ (s.selections.map fun e => (e.prev, e.channel))
  nodup : s.taken.Nodup
  bound : ∀ i ∈ s.taken, i < s.threads.length
  calls : ∀ e ∈ s.selections, ∃ p,
    s.threads[e.thread]? = some ⟨.selectTalkGroup e.channel e.source, p⟩
  inside : ∀ (i : ℕ) c p, s.threads[i]? = some ⟨c, p⟩ → Point.inside p = true → s.selectMu = some i
  single : ∀ (i : ℕ) c p, s.threads[i]? = some ⟨c, p⟩ → Point.single p = false
  locking : ∀ (i : ℕ) c sel, s.threads[i]? = some ⟨c, .locking sel⟩ → i ∉ s.taken ∧
    c = .selectTalkGroup sel.channel sel.source ∧ targetIdx ports sel.channel = some sel.target
  holds : Holds ports s s.selectMu

/-- Who holds the lock is not affected by what the others do. -/
theorem Holds.frame {mu : Option ℕ} (h : Holds ports s mu)
    (htoggles : t.toggles = s.toggles) (hatLock : t.atLock = s.atLock) (htaken : t.taken = s.taken)
    (hsel : t.selections = s.selections) (hevents : t.events = s.events)
    (hactive : t.activeChannel = s.activeChannel)
    (hthreads : ∀ i, mu = some i → ∀ th, s.threads[i]? = some th → t.threads[i]? = some th) :
    Holds ports t mu := by
  have htoggled : t.toggled ports.length = s.toggled ports.length := by
    rw [State.toggled, State.toggled, htoggles, hatLock]
  have honly : ActiveOnly ports s → ActiveOnly ports t := by
    rintro ⟨k, hk, h⟩
    exact ⟨k, hactive ▸ hk, htoggles ▸ h⟩
  cases h with
  | free h₁ h₂ h₃ =>
      exact .free (by rw [htaken, hsel, h₁]) (by rw [hevents, hsel, h₂])
        fun hne => honly (h₃ (hsel ▸ hne))
  | flipping hi h₁ h₂ h₃ h₄ h₅ h₆ =>
      refine .flipping (htoggled ▸ hthreads _ rfl _ hi) h₁ h₂ ?_ ?_ (by rw [htaken, hsel, h₅])
        (by rw [hevents, hsel, h₆])
      · rw [htoggles]
        exact h₃
      · rw [htoggles, hatLock]
        exact h₄
  | notifying hi h₁ h₂ h₃ h₄ h₅ =>
      exact .notifying (hthreads _ rfl _ hi) (hsel.trans h₁) h₂ (by rw [htaken, hsel, h₃])
        (hevents.trans h₄) (honly h₅)
  | unlocking hi h₁ h₂ h₃ =>
      exact .unlocking (hthreads _ rfl _ hi) (by rw [htaken, hsel, h₁]) (by rw [hevents, hsel, h₂])
        (honly h₃)

/-- Another selection is made. -/
theorem Inv.call (h : Inv ports a₀ s) (channel : ℤ) (source : Source) :
    Inv ports a₀ { s with
      threads := s.threads ++ [⟨.selectTalkGroup channel source,
        State.begin ports (.selectTalkGroup channel source)⟩] } := by
  have hbegin : (∃ k, targetIdx ports channel = some k ∧
      State.begin ports (.selectTalkGroup channel source) = .locking ⟨channel, k, source⟩) ∨
      State.begin ports (.selectTalkGroup channel source) = .returned false := by
    rw [State.begin]
    split
    · next k hk => exact .inl ⟨k, hk, rfl⟩
    · exact .inr rfl
  have hold : ∀ (i : ℕ) (th : Thread), s.threads[i]? = some th →
      (s.threads ++ [⟨.selectTalkGroup channel source,
        State.begin ports (.selectTalkGroup channel source)⟩])[i]? = some th := by
    intro i th hi
    rw [List.getElem?_append_left (List.getElem?_eq_some_iff.1 hi).1]
    exact hi
  refine ⟨h.one, h.linked, h.active, h.nodup, fun i hi => ?_, fun e he => ?_, fun i c p hi hin => ?_,
    fun i c p hi => ?_, fun i c sel hi => ?_,
    h.holds.frame rfl rfl rfl rfl rfl rfl fun i _ th hi => hold i th hi⟩
  · rw [List.length_append]
    exact Nat.lt_add_right _ (h.bound i hi)
  · obtain ⟨p, hp⟩ := h.calls e he
    exact ⟨p, hold _ _ hp⟩
  · rcases concat_cases hi with hi | ⟨-, hnew⟩
    · exact h.inside i c p hi hin
    · obtain ⟨k, -, hk⟩ | hno := hbegin
      · rw [Thread.mk.injEq, hk] at hnew
        rw [hnew.2] at hin
        cases hin
      · rw [Thread.mk.injEq, hno] at hnew
        rw [hnew.2] at hin
        cases hin
  · rcases concat_cases hi with hi | ⟨-, hnew⟩
    · exact h.single i c p hi
    · obtain ⟨k, -, hk⟩ | hno := hbegin
      · rw [Thread.mk.injEq, hk] at hnew
        rw [hnew.2]
        rfl
      · rw [Thread.mk.injEq, hno] at hnew
        rw [hnew.2]
        rfl
  · rcases concat_cases hi with hi | ⟨rfl, hnew⟩
    · exact h.locking i c sel hi
    · obtain ⟨k, htarget, hk⟩ | hno := hbegin
      · rw [Thread.mk.injEq, hk, Point.locking.injEq] at hnew
        obtain ⟨rfl, rfl⟩ := hnew
        exact ⟨fun hmem => absurd (h.bound _ hmem) (lt_irrefl _), rfl, htarget⟩
      · rw [Thread.mk.injEq, hno] at hnew
        cases hnew.2

section Going

variable {i : ℕ} {c : Call} {p q : Point}

/-- What a step of one call leaves of the facts about the others. -/
theorem Inv.calls_goto (h : Inv ports a₀ s) (hi : s.threads[i]? = some ⟨c, p⟩) :
    ∀ e ∈ s.selections, ∃ p',
      (s.goto i c q).threads[e.thread]? = some ⟨.selectTalkGroup e.channel e.source, p'⟩ := by
  intro e he
  obtain ⟨p', hp'⟩ := h.calls e he
  by_cases heq : e.thread = i
  · rw [heq] at hp' ⊢
    rw [hi, Option.some.injEq, Thread.mk.injEq] at hp'
    exact ⟨q, by rw [goto_self hi, hp'.1]⟩
  · exact ⟨p', by rw [goto_of_ne heq, hp']⟩

theorem Inv.bound_goto (h : Inv ports a₀ s) : ∀ j ∈ s.taken, j < (s.goto i c q).threads.length := by
  intro j hj
  rw [State.goto, List.length_set]
  exact h.bound j hj

/-- Only the call that went on can have got inside. -/
theorem Inv.inside_goto (h : Inv ports a₀ s) {mu : Option ℕ} (hq : q.inside = true → mu = some i)
    (hmu : ∀ j, j ≠ i → s.selectMu = some j → mu = some j) :
    ∀ (j : ℕ) c' p', (s.goto i c q).threads[j]? = some ⟨c', p'⟩ → Point.inside p' = true →
      mu = some j := by
  intro j c' p' hj hin
  rcases goto_cases hj with ⟨rfl, hnew⟩ | ⟨hne, hj⟩
  · rw [Thread.mk.injEq] at hnew
    exact hq (hnew.2 ▸ hin)
  · exact hmu j hne (h.inside j c' p' hj hin)

theorem Inv.single_goto (h : Inv ports a₀ s) (hq : q.single = false) :
    ∀ (j : ℕ) c' p', (s.goto i c q).threads[j]? = some ⟨c', p'⟩ → Point.single p' = false := by
  intro j c' p' hj
  rcases goto_cases hj with ⟨-, hnew⟩ | ⟨-, hj⟩
  · rw [Thread.mk.injEq] at hnew
    exact hnew.2 ▸ hq
  · exact h.single j c' p' hj

/-- The calls on the way to the lock, with call `i` past it. -/
theorem Inv.locking_goto (h : Inv ports a₀ s) (hq : ∀ sel, q ≠ .locking sel) {taken : List ℕ}
    (htaken : ∀ j, j ≠ i → j ∉ s.taken → j ∉ taken) :
    ∀ (j : ℕ) c' sel, (s.goto i c q).threads[j]? = some ⟨c', .locking sel⟩ → j ∉ taken ∧
      c' = .selectTalkGroup sel.channel sel.source ∧
        targetIdx ports sel.channel = some sel.target := by
  intro j c' sel hj
  rcases goto_cases hj with ⟨-, hnew⟩ | ⟨hne, hj⟩
  · rw [Thread.mk.injEq] at hnew
    exact absurd hnew.2.symm (hq sel)
  · obtain ⟨hfresh, hcall, htarget⟩ := h.locking j c' sel hj
    exact ⟨htaken j hne hfresh, hcall, htarget⟩

/-- **Outside the lock** a selection only drives playback. -/
theorem Inv.outside (h : Inv ports a₀ s) (hi : s.threads[i]? = some ⟨c, p⟩) (hp : p.inside = false)
    (hq : q.inside = false) (hsingle : q.single = false) (hlocking : ∀ sel, q ≠ .locking sel)
    (running : ℕ → Bool) : Inv ports a₀ { s.goto i c q with playbackRunning := running } := by
  refine ⟨h.one, h.linked, h.active, h.nodup, h.bound_goto, h.calls_goto hi,
    h.inside_goto (fun hin => absurd hin (by simp [hq])) fun j _ hmu => hmu, h.single_goto hsingle,
    h.locking_goto hlocking fun j _ hj => hj, ?_⟩
  refine h.holds.frame rfl rfl rfl rfl rfl rfl fun j hmu th hj => ?_
  -- the holder is inside, so it is another call
  have hne : j ≠ i := by
    rintro rfl
    have hholds := h.holds
    rw [hmu] at hholds
    cases hholds with
    | flipping hj' => rw [hi] at hj'; cases hj'; cases hp
    | notifying hj' => rw [hi] at hj'; cases hj'; cases hp
    | unlocking hj' => rw [hi] at hj'; cases hj'; cases hp
  exact (goto_of_ne hne).trans hj

/-- `selectMu` is taken. -/
theorem Inv.lock {sel : Select} (h : Inv ports a₀ s) (hi : s.threads[i]? = some ⟨c, .locking sel⟩)
    (hstep : s.advance ports.length i c (.locking sel) = some t) : Inv ports a₀ t := by
  rw [State.advance] at hstep
  split at hstep
  · next hmu =>
    cases hstep
    obtain ⟨hfresh, hcall, htarget⟩ := h.locking i c sel hi
    have hholds := h.holds
    rw [hmu] at hholds
    obtain ⟨htaken, hevents, -⟩ := hholds
    refine ⟨h.one, h.linked, h.active, ?_, ?_, h.calls_goto hi,
      h.inside_goto (fun _ => rfl) (fun j _ hno => ?_), h.single_goto rfl,
      h.locking_goto (fun _ => by simp) (fun j hne hj => ?_), ?_⟩
    · exact List.nodup_append.2 ⟨h.nodup, by simp, fun a ha b hb => by
        rw [List.mem_singleton.1 hb]
        rintro rfl
        exact hfresh ha⟩
    · intro j hj
      rcases List.mem_append.1 hj with hj | hj
      · exact h.bound_goto j hj
      · rw [List.mem_singleton.1 hj]
        exact (List.getElem?_eq_some_iff.1 (goto_self hi)).1
    · rw [hmu] at hno
      cases hno
    · simp [hj, hne]
    · refine @Holds.flipping ports _ i sel [] (flips ports.length sel.target) []
        ?_ htarget rfl (by simp) (fun f _ => rfl) ?_ hevents
      · rw [← hcall]
        dsimp only
        rw [goto_self hi]
        congr 3
        rw [eq_comm, ← Bool.not_eq_true, toggled_iff]
        rintro ⟨d, j, -, hne⟩
        exact hne rfl
      · exact congrArg (· ++ [i]) htaken
  · cases hstep

/-- **What a call that flips has done, and has still to do.** -/
theorem Inv.flipping {sel : Select} {todo : List Flip} {changed : Bool} {rxChanged : List ℕ}
    (h : Inv ports a₀ s) (hi : s.threads[i]? = some ⟨c, .flipping sel todo changed rxChanged⟩) :
    s.selectMu = some i ∧ c = .selectTalkGroup sel.channel sel.source ∧
      changed = s.toggled ports.length ∧ ∃ made, targetIdx ports sel.channel = some sel.target ∧
        flips ports.length sel.target = made ++ todo ∧ (∀ f ∈ made, s.toggles f.1 = f.2) ∧
        (∀ f ∈ todo, s.toggles f.1 = s.atLock f.1) ∧
        s.taken = s.selections.map Selection.thread ++ [i] ∧
        s.events = announcements s.selections := by
  have hmu := h.inside i _ _ hi rfl
  have hholds := h.holds
  rw [hmu] at hholds
  cases hholds with
  | notifying hi' => rw [hi] at hi'; cases hi'
  | unlocking hi' => rw [hi] at hi'; cases hi'
  | @flipping i sel' made todo' rx hi' htarget hflips hmade htodo htaken hevents =>
    rw [hi] at hi'
    cases hi'
    exact ⟨hmu, rfl, rfl, made, htarget, hflips, hmade, htodo, htaken, hevents⟩

/-- A toggle is flipped. -/
theorem Inv.flip {sel : Select} {f : Toggle} {b : Bool} {todo : List Flip} {changed : Bool}
    {rxChanged : List ℕ} (h : Inv ports a₀ s)
    (hi : s.threads[i]? = some ⟨c, .flipping sel ((f, b) :: todo) changed rxChanged⟩)
    (hstep : s.advance ports.length i c (.flipping sel ((f, b) :: todo) changed rxChanged) = some t) :
    Inv ports a₀ t := by
  obtain ⟨hmu, rfl, rfl, made, htarget, hflips, hmade, htodo, htaken, hevents⟩ := h.flipping hi
  obtain ⟨rx, rfl⟩ : ∃ rx, t = (s.swap f b).goto i (.selectTalkGroup sel.channel sel.source)
      (.flipping sel todo (s.toggled ports.length || s.toggles f != b) rx) :=
    ⟨_, (Option.some.inj hstep).symm⟩
  have hfind := nodup_flips ports.length sel.target
  rw [hflips, List.map_append, List.map_cons, List.nodup_append, List.nodup_cons] at hfind
  have hmade' : ∀ g ∈ made, g.1 ≠ f := fun g hg =>
    hfind.2.2 _ (List.mem_map_of_mem hg) _ List.mem_cons_self
  have htodo' : ∀ g ∈ todo, g.1 ≠ f := by
    rintro g hg rfl
    exact hfind.2.1.1 (List.mem_map.2 ⟨g, hg, rfl⟩)
  have hmem : (f, b) ∈ flips ports.length sel.target := by rw [hflips]; simp
  have hport : f.port < ports.length := by
    rw [flips, List.mem_append, mem_offs] at hmem
    rcases hmem with ⟨d, j, hj, -, heq⟩ | hmem
    · rw [Prod.mk.injEq] at heq
      rw [heq.1]
      exact hj
    · simp only [List.mem_cons, List.not_mem_nil, or_false, Prod.mk.injEq] at hmem
      rcases hmem with ⟨rfl, -⟩ | ⟨rfl, -⟩ <;> exact targetIdx_lt htarget
  have hone : AtMostOne ports.length (s.swap f b).toggles := by
    cases b with
    | false => exact h.one.off f
    | true =>
        -- the target, and every other port has been turned off by now
        obtain ⟨⟨d, hd⟩, hoffs⟩ := offs_done hflips rfl
        dsimp only at hd
        rw [hd]
        exact atMostOne_on (fun d' j hj hne =>
          hmade _ (hoffs (⟨d', j⟩, false) (mem_offs.2 ⟨d', j, hj, hne, rfl⟩))) d
  refine ⟨hone, h.linked, h.active, h.nodup, h.bound_goto, h.calls_goto hi,
    h.inside_goto (fun _ => hmu) (fun j _ hno => hno), h.single_goto rfl,
    h.locking_goto (fun _ => by simp) (fun j _ hj => hj), ?_⟩
  have hmu' : ((s.swap f b).goto i (.selectTalkGroup sel.channel sel.source)
      (.flipping sel todo (s.toggled ports.length || s.toggles f != b) rx)).selectMu = some i := hmu
  rw [hmu']
  refine @Holds.flipping ports _ i sel (made ++ [(f, b)]) todo rx ?_ htarget ?_ ?_ ?_
    htaken hevents
  · rw [goto_self (s := s.swap f b) hi]
    congr 3
    exact (toggled_swap hport (htodo _ List.mem_cons_self)).symm
  · rw [hflips, List.append_assoc]
    rfl
  · intro g hg
    rcases List.mem_append.1 hg with hg | hg
    · exact (State.swap_of_ne s (hmade' g hg) b).trans (hmade g hg)
    · rw [List.mem_singleton.1 hg]
      exact State.swap_self s f b
  · intro g hg
    exact (State.swap_of_ne s (htodo' g hg) b).trans (htodo g (List.mem_cons_of_mem _ hg))

/-- With every flip made, the target and no other port is on. -/
theorem only_of_flipped (hk : k < n) (hmade : ∀ f ∈ flips n k, s.toggles f.1 = f.2) :
    Only n k s.toggles := by
  intro d i hi
  constructor
  · intro hon
    by_contra hne
    have hoff := hmade (⟨d, i⟩, false) (List.mem_append_left _ (mem_offs.2 ⟨d, i, hi, hne, rfl⟩))
    rw [hon] at hoff
    cases hoff
  · rintro rfl
    refine hmade (⟨d, i⟩, true) (List.mem_append_right _ ?_)
    cases d
    · exact List.mem_cons_self
    · exact List.mem_cons_of_mem _ List.mem_cons_self

/-- `ActiveChannel` is written. -/
theorem Inv.activate {sel : Select} {changed : Bool} {rxChanged : List ℕ} (h : Inv ports a₀ s)
    (hi : s.threads[i]? = some ⟨c, .flipping sel [] changed rxChanged⟩)
    (hstep : s.advance ports.length i c (.flipping sel [] changed rxChanged) = some t) :
    Inv ports a₀ t := by
  obtain ⟨hmu, rfl, rfl, made, htarget, hflips, hmade, htodo, htaken, hevents⟩ := h.flipping hi
  cases hstep
  rw [List.append_nil] at hflips
  have honly : Only ports.length sel.target s.toggles :=
    only_of_flipped (targetIdx_lt htarget) (hflips ▸ hmade)
  refine ⟨h.one, ?_, ?_, h.nodup, h.bound_goto, ?_,
    h.inside_goto (fun _ => hmu) (fun j _ hno => hno), h.single_goto rfl,
    h.locking_goto (fun _ => by simp) (fun j _ hj => hj), ?_⟩
  · rw [List.map_append, List.map_cons, List.map_nil, h.active]
    exact h.linked.concat sel.channel
  · dsimp only
    rw [List.map_append, linkEnd, List.map_cons, List.map_nil, List.getLast?_concat]
    rfl
  · intro e he
    rcases List.mem_append.1 he with he | he
    · exact h.calls_goto hi e he
    · rw [List.mem_singleton.1 he]
      exact ⟨_, goto_self hi⟩
  · dsimp only
    rw [show (s.goto i (.selectTalkGroup sel.channel sel.source)
      (.notifying sel s.activeChannel (s.toggled ports.length) rxChanged)).selectMu = some i from hmu]
    refine @Holds.notifying ports _ i _ sel s.selections
      ⟨i, sel.channel, s.activeChannel, sel.source, s.toggled ports.length⟩ rxChanged
      (goto_self hi) rfl ⟨rfl, rfl⟩ ?_ hevents ⟨sel.target, htarget, honly⟩
    rw [List.map_append]
    exact htaken

/-- Listeners are notified, if there is anything to tell. -/
theorem Inv.notify {sel : Select} {prev : ℤ} {changed : Bool} {rxChanged : List ℕ}
    (h : Inv ports a₀ s) (hi : s.threads[i]? = some ⟨c, .notifying sel prev changed rxChanged⟩)
    (hstep : s.advance ports.length i c (.notifying sel prev changed rxChanged) = some t) :
    Inv ports a₀ t := by
  have hmu := h.inside i _ _ hi rfl
  have hholds := h.holds
  rw [hmu] at hholds
  cases hholds with
  | flipping hi' => rw [hi] at hi'; cases hi'
  | unlocking hi' => rw [hi] at hi'; cases hi'
  | @notifying i c' sel' past e rx hi' hpast hsel htaken hevents honly =>
    rw [hi] at hi'
    cases hi'
    cases hstep
    refine ⟨h.one, h.linked, h.active, h.nodup, h.bound_goto, h.calls_goto hi,
      h.inside_goto (fun _ => hmu) (fun j _ hno => hno), h.single_goto rfl,
      h.locking_goto (fun _ => by simp) (fun j _ hj => hj), ?_⟩
    dsimp only
    rw [show (s.goto i c (.unlocking rxChanged)).selectMu = some i from hmu]
    refine Holds.unlocking (goto_self hi) htaken ?_ honly
    dsimp only
    rw [show (s.goto i c (.unlocking rxChanged)).selections = past ++ [e] from hpast,
      announcements_concat, ← hevents, Selection.announced, Selection.event, hsel.1, hsel.2]
    split
    · rfl
    · exact (List.append_nil _).symm

/-- `selectMu` is released. -/
theorem Inv.unlock {rxChanged : List ℕ} (h : Inv ports a₀ s)
    (hi : s.threads[i]? = some ⟨c, .unlocking rxChanged⟩)
    (hstep : s.advance ports.length i c (.unlocking rxChanged) = some t) : Inv ports a₀ t := by
  have hmu := h.inside i _ _ hi rfl
  have hholds := h.holds
  rw [hmu] at hholds
  cases hholds with
  | flipping hi' => rw [hi] at hi'; cases hi'
  | notifying hi' => rw [hi] at hi'; cases hi'
  | unlocking hi' htaken hevents honly =>
    cases hstep
    refine ⟨h.one, h.linked, h.active, h.nodup, h.bound_goto, h.calls_goto hi,
      h.inside_goto (fun hno => by cases hno) (fun j hne hno => ?_), h.single_goto rfl,
      h.locking_goto (fun _ => by simp) (fun j _ hj => hj), .free htaken hevents fun _ => honly⟩
    rw [hmu, Option.some.injEq] at hno
    exact absurd hno.symm hne

end Going

/-! ## Runs of selections -/

/-- The action is a call of `SelectTalkGroup`, or a step of one. -/
def Action.selects : Action → Bool
  | .call (.selectTalkGroup _ _) => true
  | .call _ => false
  | .go _ => true

/-- **Every step of a selection keeps the invariant.** -/
theorem Inv.step {a : Action} (h : Inv ports a₀ s) (ha : a.selects = true)
    (hstep : TalkGroup.step ports s a = some t) : Inv ports a₀ t := by
  obtain ⟨c, rfl, rfl⟩ | ⟨i, c, p, rfl, hi, hgo⟩ := step_cases hstep
  · cases c with
    | selectTalkGroup channel source => exact h.call channel source
    | enableTalkGroupReceive port enabled => cases ha
    | stopPlaybackIfDisabled port => cases ha
  · cases p with
    | locking sel => exact h.lock hi hgo
    | flipping sel todo changed rxChanged =>
        cases todo with
        | nil => exact h.activate hi hgo
        | cons f todo => exact h.flip hi hgo
    | notifying sel prev changed rxChanged => exact h.notify hi hgo
    | unlocking rxChanged => exact h.unlock hi hgo
    | toggling port enabled => cases h.single i _ _ hi
    | sleeping port => cases h.single i _ _ hi
    | reconciling todo =>
        cases todo with
        | nil =>
            cases hgo
            exact h.outside hi rfl rfl rfl (fun _ => by simp) s.playbackRunning
        | cons port todo =>
            cases hgo
            exact h.outside hi rfl rfl rfl (fun _ => by simp) s.playbackRunning
    | applying port enabled todo =>
        cases hgo
        exact h.outside hi rfl rfl rfl (fun _ => by simp) _
    | returned ok => cases hgo

/-- A runtime no call was made on, with at most one port sending and at most
one receiving. -/
structure Untouched (ports : List ℤ) (s : State) : Prop where
  one : AtMostOne ports.length s.toggles
  threads : s.threads = []
  selectMu : s.selectMu = none
  events : s.events = []
  taken : s.taken = []
  selections : s.selections = []

theorem Untouched.inv (h : Untouched ports s) : Inv ports s.activeChannel s where
  one := h.one
  linked := by rw [h.selections]; trivial
  active := by rw [h.selections]; rfl
  nodup := by rw [h.taken]; exact List.nodup_nil
  bound := by simp [h.taken]
  calls := by simp [h.selections]
  inside := by simp [h.threads]
  single := by simp [h.threads]
  locking := by simp [h.threads]
  holds := by
    rw [h.selectMu]
    exact .free (by rw [h.taken, h.selections]; rfl) (by rw [h.events, h.selections]; rfl)
      fun hne => absurd h.selections hne

/-- When every call is back, nobody holds the lock. -/
theorem Inv.unlocked (h : Inv ports a₀ s) (hback : s.AllReturned) : s.selectMu = none := by
  have hpoint : ∀ {i : ℕ} {c p}, s.threads[i]? = some ⟨c, p⟩ → Point.isReturned p = true :=
    fun hi => hback _ (List.mem_of_getElem? hi)
  have hholds := h.holds
  cases hmu : s.selectMu with
  | none => rfl
  | some i =>
      rw [hmu] at hholds
      cases hholds with
      | flipping hi => cases hpoint hi
      | notifying hi => cases hpoint hi
      | unlocking hi => cases hpoint hi

/-- A runtime of two ports, of which the first sends, receives and plays. -/
def firstOn : State where
  toggles := fun f => f.port == 0
  playbackRunning := fun i => i == 0
  activeChannel := 1
  selectMu := none
  events := []
  threads := []
  atLock := fun _ => false
  taken := []
  selections := []

theorem untouched_firstOn : Untouched [38801, 38803] firstOn := by
  refine ⟨fun d i j _ _ hi hj => ?_, rfl, rfl, rfl, rfl, rfl⟩
  have hi : (i == 0) = true := hi
  have hj : (j == 0) = true := hj
  rw [beq_iff_eq] at hi hj
  omega

/-- Two selections at once: the second waits for the lock the first holds. -/
def twoSelections : List Action :=
  [.call (.selectTalkGroup 2 .rpc), .call (.selectTalkGroup 1 .gpio), .go 0, .go 0, .go 0, .go 0,
    .go 0, .go 0, .go 0, .go 0, .go 1, .go 0, .go 1, .go 1, .go 1, .go 1, .go 1, .go 1, .go 1]

end TalkGroup

end OpenManet
