import OpenManet.Lib.Uci.Views
/-!
# Writing a config to its file

A writer edits a config in memory and then commits. What the file holds when
such a program ends is what it held, or what the writer meant, whichever
calls the world refuses; and where the world refuses none, it is what the
writer meant.

`Ends m h Q R` says this of one program: it ends as `Q` says, or a call was
refused and the file is as `R` says.
-/

namespace OpenManet

namespace Uci

open Fallible

variable {config ref n type option i : String} {c c' d : Config} {h : Host} {α β : Type}
  {ws : List (String × String)} {f : Table (List String) → Table (List String)}

/-- The world refuses no call. -/
def Fate.Smooth (p : Fate) : Prop := ∀ tick, p.refuses tick = false

/-! ## What a writer means -/

namespace Config

/-- The config with options of one section written one after the other. -/
def writes (c : Config) (ref : String) (ws : List (String × String)) : Config :=
  ws.foldl (fun c w => c.update ref fun o => o.insert w.1 [w.2]) c

/-- The config with a section of that name; one that is there stays. -/
def ensure (c : Config) (name type : String) : Config :=
  if (c.find name).isSome then c else c.push type name

@[simp] theorem writes_nil (c : Config) (ref : String) : c.writes ref [] = c := rfl

@[simp] theorem writes_cons (c : Config) (ref : String) (w : String × String)
    (ws : List (String × String)) :
    c.writes ref (w :: ws) = (c.update ref fun o => o.insert w.1 [w.2]).writes ref ws := rfl

theorem ne_empty_of_mem_refs (hi : i ∈ c.refs type) : i ≠ "" := by
  obtain ⟨e, -, -, rfl⟩ := mem_refs.1 hi
  unfold ownRef
  split
  · intro hempty
    have hchars := congrArg String.toList hempty
    simp [anonRef] at hchars
  · assumption

theorem find_of_mem_refs (hi : i ∈ c.refs type) : c.find i ≠ none := by
  obtain ⟨e, he, -, rfl⟩ := mem_refs.1 hi
  rw [find_ownRef he]
  exact Option.some_ne_none _

/-- An edit of a listed section is not seen at another address of a
listing. -/
theorem get_update_of_ne_ref {type' : String} (hi : i ∈ c.refs type) (href : ref ∈ c.refs type')
    (hne : i ≠ ref) : (c.update ref f).get i option = c.get i option := by
  obtain ⟨e, he, -, rfl⟩ := mem_refs.1 hi
  obtain ⟨e', he', -, rfl⟩ := mem_refs.1 href
  have hfirst : c.entries.find? (answers (ownRef e)) = some e := by
    have hsome : (c.entries.find? (answers (ownRef e))).isSome = true := by
      rw [List.find?_isSome]
      exact ⟨e, he, answers_ownRef e⟩
    obtain ⟨e₂, he₂⟩ := Option.isSome_iff_exists.1 hsome
    rw [he₂, eq_of_answers he (List.mem_of_find?_eq_some he₂) (List.find?_some he₂)]
  have hother : answers (ownRef e') e = false := by
    rw [Bool.eq_false_iff]
    intro hans
    exact hne (congrArg ownRef (eq_of_answers he' he hans))
  rw [get, get, find_update, find, hfirst]
  simp [hother]

theorem refs_writes (c : Config) (ref : String) (ws : List (String × String)) (type : String) :
    (c.writes ref ws).refs type = c.refs type := by
  induction ws generalizing c with
  | nil => rfl
  | cons w ws ih => rw [writes_cons, ih, refs_update]

theorem find_writes_isSome (c : Config) (ref other : String) (ws : List (String × String)) :
    ((c.writes ref ws).find other).isSome = (c.find other).isSome := by
  induction ws generalizing c with
  | nil => rfl
  | cons w ws ih => rw [writes_cons, ih, find_update_isSome]

/-- What is not written reads as before. -/
theorem get_writes_of_ne (hoption : ∀ w ∈ ws, w.1 ≠ option) :
    (c.writes ref ws).get i option = c.get i option := by
  induction ws generalizing c with
  | nil => rfl
  | cons w ws ih =>
      rw [writes_cons, ih fun w' hw' => hoption w' (List.mem_cons_of_mem _ hw')]
      exact get_update_of_lookup
        (fun _ => AList.lookup_insert_ne (hoption w (List.mem_cons_self ..)).symm) _ _ _

theorem get_writes_of_ne_ref {type' : String} (hi : i ∈ c.refs type) (href : ref ∈ c.refs type')
    (hne : i ≠ ref) : (c.writes ref ws).get i option = c.get i option := by
  induction ws generalizing c with
  | nil => rfl
  | cons w ws ih =>
      rw [writes_cons, ih (by rwa [refs_update]) (by rwa [refs_update]),
        get_update_of_ne_ref hi href hne]

/-- **What is written reads back**, the last write of an option. -/
theorem get_writes_self (hfind : (c.find ref).isSome = true) :
    (c.writes ref ws).get ref option =
      ((lastWrite ws option).map fun v => [v]).getD (c.get ref option) := by
  induction ws generalizing c with
  | nil => rfl
  | cons w ws ih =>
      rw [writes_cons, ih (by rwa [find_update_isSome]), lastWrite]
      cases lastWrite ws option with
      | some v => rfl
      | none =>
          by_cases hw : w.1 = option
          · subst hw
            simp [get_update_insert hfind]
          · simp only [Option.none_or, if_neg hw]
            exact get_update_of_lookup (fun _ => AList.lookup_insert_ne (Ne.symm hw)) _ _ _

theorem ensure_of_find (hfind : (c.find n).isSome = true) : c.ensure n type = c := if_pos hfind

theorem get_ensure (c : Config) (name type ref option : String) :
    (c.ensure name type).get ref option = c.get ref option := by
  unfold ensure
  split
  · rfl
  · exact get_push ..

theorem find_ensure_isSome (hn : Plain n) (htype : '[' ∉ type.toList) :
    ((c.ensure n type).find n).isSome = true := by
  unfold ensure
  split
  · assumption
  · next hnone =>
    rw [find_push_self hn htype (Option.not_isSome_iff_eq_none.1 hnone)]
    rfl

/-- A section that is ensured is listed, last if it was not there. -/
theorem refs_ensure (hn : Plain n) (hne : n ≠ "") (htype : '[' ∉ type.toList)
    (type' : String) :
    (c.ensure n type).refs type' =
      c.refs type' ++ if c.find n = none ∧ type' = type then [n] else [] := by
  unfold ensure
  cases hfind : c.find n with
  | some s => simp
  | none =>
      have hnew := find_push_self hn htype hfind
      rcases entries_push c type n with hsame | ⟨k, hk⟩
      · rw [hsame, hfind] at hnew
        cases hnew
      · have hown : ownRef (k, ⟨type, n, ∅⟩) = n := ownRef_of_named hne
        by_cases htt : type = type'
        · subst htt
          simp [refs, hk, hown]
        · simp [refs, hk, htt, Ne.symm htt]

end Config

/-! ## Writes, option by option -/

theorem mem_of_lastWrite {o v : String}
    (h : lastWrite ws o = some v) : (o, v) ∈ ws := by
  induction ws with
  | nil => cases h
  | cons a ws ih =>
      rw [lastWrite] at h
      cases hrest : lastWrite ws o with
      | some v' =>
          rw [hrest] at h
          obtain rfl : v' = v := by simpa using h
          exact List.mem_cons_of_mem _ (ih hrest)
      | none =>
          rw [hrest, Option.none_or] at h
          split at h
          · next ho =>
            obtain rfl : a.2 = v := by simpa using h
            rw [← ho]
            exact List.mem_cons_self ..
          · cases h

theorem lastWrite_of_mem {w : String × String}
    (hkeys : ws.Pairwise fun w w' => w.1 ≠ w'.1) (hw : w ∈ ws) : lastWrite ws w.1 = some w.2 := by
  induction ws with
  | nil => cases hw
  | cons a ws ih =>
      obtain ⟨hne, htail⟩ := List.pairwise_cons.1 hkeys
      rcases List.mem_cons.1 hw with rfl | hw
      · have hnone : lastWrite ws w.1 = none := by
          clear ih hkeys htail hw
          induction ws with
          | nil => rfl
          | cons b ws ih =>
              have hb : b.1 ≠ w.1 := fun hb => hne b (List.mem_cons_self ..) hb.symm
              rw [lastWrite, ih fun b' hb' => hne b' (List.mem_cons_of_mem _ hb'), if_neg hb]
              rfl
        rw [lastWrite, hnone]
        simp
      · rw [lastWrite, ih htail hw]
        rfl

/-! ## How a writer ends -/

/-- Memory holds one config, the file another, and a difference is known. -/
structure Staged (config : String) (c c' : Config) (h : Host) : Prop where
  mem : h.tree.mem config = some c'
  disk : h.tree.disk config = some c
  dirty : c' = c ∨ h.tree.dirty config = true

/-- Memory and the file hold the config. -/
abbrev Held (config : String) (c : Config) : Host → Prop := Staged config c c

theorem Staged.tick (hs : Staged config c c' h) (tick : ℕ) :
    Staged config c c' { h with tick := tick } := ⟨hs.mem, hs.disk, hs.dirty⟩

theorem Staged.stage (hs : Staged config c c' h) (tick : ℕ) (d : Config) :
    Staged config c d { h with tree := h.tree.stage config d, tick := tick } :=
  ⟨by simp [Tree.stage], hs.disk, .inr (by simp [Tree.stage])⟩

/-- The program ends so, or a call was refused and the file is so. -/
def Ends (config : String) (m : Prog α) (h : Host) (Q : α → Host → Prop) (R : Config → Prop) :
    Prop :=
  match m h with
  | .ok a h' => Q a h' ∧ h'.fate = h.fate
  | .error _ h' =>
      ¬ h.fate.Smooth ∧ h'.fate = h.fate ∧ ∃ d, h'.tree.disk config = some d ∧ R d

section Ends

variable {m : Prog α} {k : α → Prog β} {Q Q' : α → Host → Prop} {R R' : Config → Prop}

theorem Ends.mono (hm : Ends config m h Q R) (hQ : ∀ a h', Q a h' → Q' a h')
    (hR : ∀ d, R d → R' d) : Ends config m h Q' R' := by
  unfold Ends at *
  cases hrun : m h with
  | ok a h' =>
      rw [hrun] at hm
      exact ⟨hQ _ _ hm.1, hm.2⟩
  | error e h' =>
      rw [hrun] at hm
      obtain ⟨hrough, hfate, d, hd, hRd⟩ := hm
      exact ⟨hrough, hfate, d, hd, hR d hRd⟩

/-- The two ways to end. -/
theorem Ends.cases (hm : Ends config m h Q R) :
    (∃ a h', m h = .ok a h' ∧ Q a h' ∧ h'.fate = h.fate) ∨
      ∃ e h', m h = .error e h' ∧ ¬ h.fate.Smooth ∧ ∃ d, h'.tree.disk config = some d ∧ R d := by
  unfold Ends at hm
  cases hrun : m h with
  | ok a h' =>
      rw [hrun] at hm
      exact .inl ⟨a, h', rfl, hm⟩
  | error e h' =>
      rw [hrun] at hm
      exact .inr ⟨e, h', rfl, hm.1, hm.2.2⟩

theorem Ends.leaves (hm : Ends config m h Q R) : Leaves m h Q := by
  intro a h' hrun
  unfold Ends at hm
  rw [hrun] at hm
  exact hm.1

theorem ends_pure {a : α} (hQ : Q a h) : Ends config (pure a : Prog α) h Q R := ⟨hQ, rfl⟩

/-- **A writer is followed one command at a time.** -/
theorem Ends.bind {S : β → Host → Prop} (hm : Ends config m h Q R)
    (hk : ∀ a h', Q a h' → Ends config (k a) h' S R) : Ends config (m >>= k) h S R := by
  unfold Ends at hm
  cases hrun : m h with
  | ok a h' =>
      rw [hrun] at hm
      have hnext := hk a h' hm.1
      unfold Ends at *
      rw [bind_of_ok hrun]
      cases hrun' : k a h' with
      | ok b h'' =>
          rw [hrun'] at hnext
          exact ⟨hnext.1, hnext.2.trans hm.2⟩
      | error e h'' =>
          rw [hrun'] at hnext
          obtain ⟨hrough, hfate, hdisk⟩ := hnext
          exact ⟨hm.2 ▸ hrough, hfate.trans hm.2, hdisk⟩
  | error e h' =>
      rw [hrun] at hm
      unfold Ends
      rw [bind_of_error hrun]
      exact hm

theorem Ends.saying {what : String} (hm : Ends config m h Q R) :
    Ends config (saying what m) h Q R := by
  unfold Ends Uci.saying wrapped at *
  cases hrun : m h with
  | ok a h' => simpa [hrun] using hm
  | error e h' => simpa [hrun] using hm

/-- A call that the tree answers is answered, or refused. -/
theorem ends_call {g : Tree → Except Err (α × Tree)} {a : α} {t : Tree}
    (hg : g h.tree = .ok (a, t)) (hdisk : h.tree.disk config = some c)
    (hQ : ∀ tick, Q a { h with tree := t, tick := tick }) (hR : R c) :
    Ends config (call g) h Q R := by
  unfold Ends call
  dsimp only
  cases hrefuse : h.fate.refuses h.tick with
  | true =>
      simp only [if_pos]
      exact ⟨fun hsmooth => by simp [hsmooth h.tick] at hrefuse, trivial, c, hdisk, hR⟩
  | false =>
      simp only [Bool.false_eq_true, if_false, hg]
      exact ⟨hQ _, trivial⟩

variable (hs : Staged config c c' h)

include hs

theorem Staged.ends_getSections (type : String) :
    Ends config (getSections config type) h (fun l h' => l = c'.refs type ∧ Staged config c c' h')
      (· = c) := by
  refine ends_call (a := c'.refs type) (t := h.tree) ?_ hs.disk ?_ rfl
  · simp [hs.mem]
  · exact fun tick => ⟨rfl, hs.tick tick⟩

theorem Staged.ends_editSection (hfind : (c'.find ref).isSome = true) :
    Ends config (editSection config ref f) h (fun _ h' => Staged config c (c'.update ref f) h')
      (· = c) := by
  refine ends_call (a := ()) (t := h.tree.stage config (c'.update ref f)) ?_ hs.disk ?_ rfl
  · simp [hs.mem, hfind]
  · exact fun tick => hs.stage tick _

theorem Staged.ends_setOptions {what : String → String} (hfind : (c'.find ref).isSome = true)
    (ws : List (String × String)) :
    Ends config (setOptions config ref what ws) h
      (fun _ h' => Staged config c (c'.writes ref ws) h') (· = c) := by
  induction ws generalizing c' h with
  | nil => exact ends_pure hs
  | cons w ws ih =>
      refine Ends.bind (hs.ends_editSection hfind).saying fun _ h' hs' => ?_
      exact ih hs' (by rwa [Config.find_update_isSome])

/-- **Ensure and write.** A section that could not be added shows at the
first option written to it. -/
theorem Staged.ends_put {what : String → String} {w : String × String}
    (hthere : ((c'.ensure n type).find n).isSome = true) (ws : List (String × String)) :
    Ends config (do ignored (addSection config n type); setOptions config n what (w :: ws)) h
      (fun _ h' => Staged config c ((c'.ensure n type).writes n (w :: ws)) h') (· = c) := by
  have hadd : ignored (addSection config n type) h =
      .ok () (final (addSection config n type) h) := rfl
  -- what the tree makes of the call, were it not refused
  have hcall : ∀ p : Staged config c (c'.ensure n type) (final (addSection config n type) h) ∧
      (final (addSection config n type) h).fate = h.fate,
      Ends config (do ignored (addSection config n type); setOptions config n what (w :: ws)) h
        (fun _ h' => Staged config c ((c'.ensure n type).writes n (w :: ws)) h') (· = c) := by
    rintro ⟨hs', hfate⟩
    refine Ends.bind (Q := fun _ h' => Staged config c (c'.ensure n type) h') ?_
      fun _ h' hs' => hs'.ends_setOptions hthere (w :: ws)
    unfold Ends
    rw [hadd]
    exact ⟨hs', hfate⟩
  cases hfind : c'.find n with
  | some s =>
      have hsame : c'.ensure n type = c' := Config.ensure_of_find (by rw [hfind]; rfl)
      refine hcall ?_
      rw [hsame]
      unfold final addSection call
      dsimp only
      cases hrefuse : h.fate.refuses h.tick with
      | true => exact ⟨hs.tick _, rfl⟩
      | false =>
          simp only [Bool.false_eq_true, if_false, hs.mem, Option.getD_some, hfind]
          by_cases ht : s.type = type
          · simpa [ht] using hs.tick (h.tick + 1)
          · simpa [ht] using hs.tick (h.tick + 1)
  | none =>
      cases hrefuse : h.fate.refuses h.tick with
      | false =>
          refine hcall ?_
          have hpush : c'.ensure n type = c'.push type n := by simp [Config.ensure, hfind]
          rw [hpush]
          unfold final addSection call
          simp only [hrefuse, Bool.false_eq_true, if_false, hs.mem, Option.getD_some, hfind]
          exact ⟨hs.stage (h.tick + 1) _, trivial⟩
      | true =>
          have hrough : ¬ h.fate.Smooth := fun hsmooth => by simp [hsmooth h.tick] at hrefuse
          have hskip : final (addSection config n type) h = { h with tick := h.tick + 1 } := by
            simp [final, addSection, call, hrefuse]
          have hfail : ∃ e h', setOptions config n what (w :: ws) { h with tick := h.tick + 1 } =
              .error e h' ∧ h'.fate = h.fate ∧ h'.tree = h.tree := by
            have hset : ∃ e h', setType config n w.1 [w.2] { h with tick := h.tick + 1 } =
                .error e h' ∧ h'.fate = h.fate ∧ h'.tree = h.tree := by
              unfold setType editSection call
              dsimp only
              cases h.fate.refuses (h.tick + 1) with
              | true => exact ⟨_, _, rfl, rfl, rfl⟩
              | false =>
                  simp only [Bool.false_eq_true, if_false, hs.mem, hfind]
                  exact ⟨_, _, rfl, rfl, rfl⟩
            obtain ⟨e, h', hrun, hsame⟩ := hset
            refine ⟨{ e with text := what w.1 ++ ": " ++ e.text }, h', ?_, hsame⟩
            refine bind_of_error ?_
            simp [Uci.saying, wrapped, hrun]
          obtain ⟨e, h', hrun, hfate, htree⟩ := hfail
          unfold Ends
          rw [bind_of_ok hadd, hskip, hrun]
          exact ⟨hrough, hfate, c, by rw [htree]; exact hs.disk, rfl⟩

/-- **A commit saves the config, or leaves the file as it was.** -/
theorem Staged.ends_commit :
    Ends config commit h (fun _ h' => Held config c' h') fun d => d = c ∨ d = c' := by
  unfold Ends commit
  dsimp only
  cases hrefuse : h.fate.refuses h.tick with
  | true =>
      simp only [if_true]
      refine ⟨fun hsmooth => by simp [hsmooth h.tick] at hrefuse, trivial, ?_⟩
      simp only [Tree.flush]
      split
      · exact ⟨c', hs.mem, .inr rfl⟩
      · exact ⟨c, hs.disk, .inl rfl⟩
  | false =>
      simp only [Bool.false_eq_true, if_false]
      refine ⟨⟨hs.mem, ?_, .inl rfl⟩, trivial⟩
      rcases hs.dirty with rfl | hdirty
      · simp only [Tree.flush, Bool.and_true]
        split
        · exact hs.mem
        · exact hs.disk
      · simp [Tree.flush, hdirty, hs.mem]

end Ends

/-! ## Writers of other configs -/

/-- The bound of programs that leave the config, in memory and in its file,
as it is. -/
def Guards (config : String) (c : Config) : Bound Host where
  rel h h' := Held config c h → Held config c h'
  refl _ := id
  trans h h' := h' ∘ h

theorem guards_of_edits {cs born : List String} {m : Prog α} (hm : Within (Edits cs born) m)
    (hc : config ∉ cs) : Within (Guards config c) m := by
  intro h hs
  obtain ⟨hdisk, hkeep, -⟩ := hm h
  exact ⟨by rw [(hkeep config hc).1]; exact hs.mem, by rw [hdisk]; exact hs.disk, .inl rfl⟩

theorem guards_commit : Within (Guards config c) commit := by
  have hflush : ∀ (h : Host) (through : String → Bool) (tick : ℕ), Held config c h →
      Held config c { h with tree := h.tree.flush through, tick := tick } := by
    intro h through tick hs
    refine ⟨hs.mem, ?_, .inl rfl⟩
    simp only [Tree.flush]
    split
    · exact hs.mem
    · exact hs.disk
  intro h hs
  unfold final commit
  cases hrefuse : h.fate.refuses h.tick with
  | true => simpa [hrefuse] using hflush h _ _ hs
  | false => simpa [hrefuse] using hflush h _ _ hs

end Uci

end OpenManet
