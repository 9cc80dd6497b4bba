import OpenManet.Lib.Uci.Saves
import OpenManet.Lib.Uci.Walk
/-!
# One section changed

A section is named by its name or by its place among those of its type, and
either address names one section. `Put c c' old new` says that one section
of `c` became `new`, or that `new` came at its end, and that every address
reads accordingly.
-/

namespace OpenManet

namespace Uci

namespace Config

variable {c c' : Config} {ref n r type option : String} {s new : Section} {old : Option Section}
  {e e' : Nat × Section} {a b : List (Nat × Section)} {ws : List (String × String)}

/-! ## An address names one section -/

/-- **A name or a place names one section.** -/
theorem eq_of_answers_answers (hne : ref ≠ "") (he : e ∈ c.entries) (he' : e' ∈ c.entries)
    (h : answers ref e = true) (h' : answers ref e' = true) : e = e' := by
  have hown : ∀ {x : Nat × Section}, x ∈ c.entries → answers ref x = true →
      ref = ownRef x ∨ ref = anonRef x.2.type x.1 := by
    intro x hx hans
    simp only [answers, Bool.or_eq_true, decide_eq_true_iff] at hans
    rcases hans with hname | hplace
    · exact .inl (by rw [ownRef_of_named (by rw [hname]; exact hne), hname])
    · exact .inr hplace
  rcases hown he h with hown₁ | hplace₁
  · rw [hown₁] at h'
    exact (eq_of_answers he he' h').symm
  · rcases hown he' h' with hown₂ | hplace₂
    · rw [hown₂] at h
      exact eq_of_answers he' he h
    · obtain ⟨htype, hidx⟩ := anonRef_injective (c.ident _ (mem_of_entries he))
        (c.ident _ (mem_of_entries he')) (hplace₁.symm.trans hplace₂)
      by_contra hdiff
      have hplaces : c.entries.Pairwise fun a b => a.2.type = b.2.type → a.1 ≠ b.1 :=
        (places_pairwise [] c.sections).imp fun hlt htype => Nat.ne_of_lt (hlt htype)
      have hsymm : Std.Symm fun a b : Nat × Section => a.2.type = b.2.type → a.1 ≠ b.1 :=
        ⟨fun a b hab htype hidx => hab htype.symm hidx.symm⟩
      exact hplaces.forall he he' hdiff htype hidx

/-- The entry an address names stands between entries it does not name. -/
theorem split_of_find_ne (hne : ref ≠ "") (h : c.find ref = some s) :
    ∃ a i b, c.entries = a ++ (i, s) :: b ∧ answers ref (i, s) = true ∧
      ∀ e ∈ a ++ b, answers ref e = false := by
  rw [find, Option.map_eq_some_iff] at h
  obtain ⟨⟨i, s'⟩, hfind, rfl⟩ := h
  have hmem := List.mem_of_find?_eq_some hfind
  have hans : answers ref (i, s') = true := List.find?_some hfind
  obtain ⟨a, b, hsplit⟩ := List.append_of_mem hmem
  refine ⟨a, i, b, hsplit, hans, fun e he => ?_⟩
  have hnodup := c.entries_nodup
  rw [hsplit, List.nodup_middle, List.nodup_cons] at hnodup
  rw [Bool.eq_false_iff]
  intro hother
  have hin : e ∈ c.entries := by
    rw [hsplit]
    rcases List.mem_append.1 he with he | he
    · exact List.mem_append_left _ he
    · exact List.mem_append_right _ (List.mem_cons_of_mem _ he)
  obtain rfl := eq_of_answers_answers hne hin hmem hother hans
  exact hnodup.1 he

/-! ## A section written -/

end Config

/-- The section with options written one after the other. -/
def Section.writes (s : Section) (ws : List (String × String)) : Section :=
  ws.foldl (fun s w => s.edit fun o => o.insert w.1 [w.2]) s

@[simp] theorem Section.writes_type (s : Section) (ws : List (String × String)) :
    (s.writes ws).type = s.type := by
  induction ws generalizing s with
  | nil => rfl
  | cons w ws ih => exact ih _

@[simp] theorem Section.writes_name (s : Section) (ws : List (String × String)) :
    (s.writes ws).name = s.name := by
  induction ws generalizing s with
  | nil => rfl
  | cons w ws ih => exact ih _

theorem Section.get_writes (s : Section) (ws : List (String × String)) (option : String) :
    (s.writes ws).get option = ((lastWrite ws option).map fun v => [v]).getD (s.get option) := by
  induction ws generalizing s with
  | nil => rfl
  | cons w ws ih =>
      show ((s.edit fun o => o.insert w.1 [w.2]).writes ws).get option = _
      rw [ih, lastWrite]
      cases lastWrite ws option with
      | some v => rfl
      | none =>
          by_cases hw : w.1 = option
          · simp [Section.get, Section.edit, hw]
          · simp [Section.get, Section.edit, hw, AList.lookup_insert_ne (Ne.symm hw)]

namespace Config

variable {c c' : Config} {ref n r type option : String} {s new : Section} {old : Option Section}
  {e e' : Nat × Section} {a b : List (Nat × Section)} {ws : List (String × String)}

theorem entries_writes (c : Config) (ref : String) (ws : List (String × String)) :
    (c.writes ref ws).entries =
      c.entries.map fun e => (e.1, if answers ref e then e.2.writes ws else e.2) := by
  induction ws generalizing c with
  | nil =>
      have hid : (fun e : Nat × Section => (e.1, if answers ref e then e.2.writes [] else e.2)) =
          id := by
        funext e
        split <;> rfl
      rw [writes_nil, hid, List.map_id]
  | cons w ws ih =>
      rw [writes_cons, ih, entries_update, List.map_map]
      refine List.map_congr_left fun e _ => ?_
      cases hans : answers ref e with
      | true =>
          have hans' : answers ref (e.1, e.2.edit fun o => o.insert w.1 [w.2]) = true := hans
          simp [hans, hans', Section.writes]
      | false => simp [hans]

/-- One section of the list became another, or came at its end. -/
def Becomes (new : Section) : Option Section → List Section → List Section → Prop
  | none, l, l' => l' = l ++ [new]
  | some s, l, l' => ∃ a b, l = a ++ s :: b ∧ l' = a ++ new :: b

/-- One section became another, or came at the end; addresses read
accordingly. -/
structure Put (c c' : Config) (old : Option Section) (new : Section) : Prop where
  find : ∀ r, c'.find r = c.find r ∨ c.find r = old ∧ c'.find r = some new
  sections : Becomes new old c.sections c'.sections

/-- **Writing to a section puts it back written.** -/
theorem put_writes (hne : ref ≠ "") (h : c.find ref = some s) (ws : List (String × String)) :
    Put c (c.writes ref ws) (some s) (s.writes ws) := by
  obtain ⟨a, i, b, hsplit, hans, hother⟩ := split_of_find_ne hne h
  have hkeep : ∀ l : List (Nat × Section), (∀ e ∈ l, answers ref e = false) →
      l.map (fun e => (e.1, if answers ref e then e.2.writes ws else e.2)) = l := by
    intro l hl
    refine (List.map_congr_left fun e he => ?_).trans (List.map_id l)
    rw [hl e he]
    rfl
  have hentries : (c.writes ref ws).entries = a ++ (i, s.writes ws) :: b := by
    rw [entries_writes, hsplit, List.map_append, List.map_cons,
      hkeep a fun e he => hother e (List.mem_append_left _ he),
      hkeep b fun e he => hother e (List.mem_append_right _ he), if_pos hans]
  refine ⟨fun r => ?_, _, _, sections_of_split hsplit, sections_of_split hentries⟩
  · have hsame : answers r (i, s.writes ws) = answers r (i, s) := by simp [answers]
    unfold find
    rw [hentries, hsplit, List.find?_append, List.find?_append, List.find?_cons,
      List.find?_cons, hsame]
    cases a.find? (answers r) with
    | some e => exact .inl rfl
    | none =>
        cases hr : answers r (i, s) with
        | true => exact .inr ⟨rfl, rfl⟩
        | false => exact .inl rfl

/-- **A section that is added and written comes at the end.** -/
theorem put_push (hn : Plain n) (htype : '[' ∉ type.toList) (h : c.find n = none)
    (ws : List (String × String)) :
    Put c ((c.push type n).writes n ws) none (Section.writes ⟨type, n, ∅⟩ ws) := by
  have hnew := find_push_self hn htype h
  obtain ⟨i, hentries⟩ : ∃ i, (c.push type n).entries = c.entries ++ [(i, ⟨type, n, ∅⟩)] := by
    rcases entries_push c type n with hsame | hi
    · rw [hsame, h] at hnew
      cases hnew
    · exact hi
  have hother : ∀ e ∈ c.entries, answers n e = false := by
    rw [find, Option.map_eq_none_iff, List.find?_eq_none] at h
    intro e he
    simpa using h e he
  have hans : answers n (i, (⟨type, n, ∅⟩ : Section)) = true := by simp [answers]
  have hwritten : ((c.push type n).writes n ws).entries =
      c.entries ++ [(i, Section.writes ⟨type, n, ∅⟩ ws)] := by
    rw [entries_writes, hentries, List.map_append, List.map_singleton, if_pos hans]
    congr 1
    refine (List.map_congr_left fun e he => ?_).trans (List.map_id _)
    rw [hother e he]
    rfl
  refine ⟨fun r => ?_, ?_⟩
  · unfold find
    rw [hwritten, List.find?_append]
    cases c.entries.find? (answers r) with
    | some e => exact .inl rfl
    | none =>
        rw [Option.none_or, List.find?_singleton]
        cases answers r (i, Section.writes ⟨type, n, ∅⟩ ws) with
        | true => exact .inr ⟨rfl, rfl⟩
        | false => exact .inl rfl
  · rw [← entries_snd ((c.push type n).writes n ws), hwritten, List.map_append, entries_snd]
    rfl

/-! ## A section removed -/

/-- The config without the section an address names. -/
def remove (c : Config) (ref : String) : Config where
  sections := (c.entries.filter fun e => !answers ref e).map Prod.snd
  plain := by
    intro s hs
    obtain ⟨e, he, rfl⟩ := List.mem_map.1 hs
    exact c.plain _ (mem_of_entries (List.mem_filter.1 he).1)
  ident := by
    intro s hs
    obtain ⟨e, he, rfl⟩ := List.mem_map.1 hs
    exact c.ident _ (mem_of_entries (List.mem_filter.1 he).1)
  distinct := by
    have hold := c.distinct
    rw [← entries_snd c] at hold
    exact hold.sublist (List.filter_sublist.map _)

theorem sections_remove (hne : ref ≠ "") (h : c.find ref = some s) :
    ∃ l l', c.sections = l ++ s :: l' ∧ (c.remove ref).sections = l ++ l' := by
  obtain ⟨a, i, b, hsplit, hans, hother⟩ := split_of_find_ne hne h
  have hkeep : ∀ l : List (Nat × Section), (∀ e ∈ l, answers ref e = false) →
      l.filter (fun e => !answers ref e) = l := by
    intro l hl
    rw [List.filter_eq_self]
    intro e he
    rw [hl e he]
    rfl
  refine ⟨_, _, sections_of_split hsplit, ?_⟩
  · have hfiltered : c.entries.filter (fun e => !answers ref e) = a ++ b := by
      rw [hsplit, List.filter_append, List.filter_cons, hans,
        hkeep a fun e he => hother e (List.mem_append_left _ he),
        hkeep b fun e he => hother e (List.mem_append_right _ he)]
      rfl
    show (c.entries.filter fun e => !answers ref e).map Prod.snd = _
    rw [hfiltered, List.map_append]

/-! ## The sections of a type -/

/-- The sections of a type, in file order. -/
def ofType (c : Config) (type : String) : List Section := c.sections.filter fun s => s.type = type

theorem ofType_eq (c : Config) (type : String) :
    c.ofType type = (c.entries.filter fun e => e.2.type = type).map Prod.snd := by
  rw [ofType, ← entries_snd c, List.filter_map]
  rfl

theorem refs_length (c : Config) (type : String) : (c.refs type).length = (c.ofType type).length := by
  rw [refs, List.length_map, ofType_eq, List.length_map]

/-- What is read at the addresses of a type is what its sections hold. -/
theorem map_refs {β : Type} (g : Section → β) (k : String → β)
    (hk : ∀ ref s, c.find ref = some s → k ref = g s) :
    (c.refs type).map k = (c.ofType type).map g := by
  rw [refs, ofType_eq, List.map_map, List.map_map]
  refine List.map_congr_left fun e he => ?_
  exact hk _ _ (find_ownRef (List.mem_filter.1 he).1)

end Config

end Uci

end OpenManet
