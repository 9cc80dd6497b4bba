import OpenManet.Lib.Uci.Config
/-!
# Looking sections up

An address from a listing names the section it was listed for, and no other.
What that gives for the four kinds of edit: an edit of options, a new section
at the end and a deletion change what they name, and leave the rest of a
config to be read as before.
-/

namespace OpenManet

namespace Uci

namespace Config

variable {c : Config} {ref n m type option : String} {s : Section} {e e' : Nat × Section}
  {f : Table (List String) → Table (List String)}

/-! ## Addresses from a listing -/

theorem ownRef_of_named (h : e.2.name ≠ "") : ownRef e = e.2.name := if_neg h

theorem ownRef_of_anonymous (h : e.2.name = "") : ownRef e = anonRef e.2.type e.1 := if_pos h

/-- **An address from a listing names one section.** -/
theorem eq_of_answers (he : e ∈ c.entries) (he' : e' ∈ c.entries)
    (h : answers (ownRef e) e' = true) : e' = e := by
  by_contra hne
  by_cases hname : e.2.name = ""
  · rw [ownRef_of_anonymous hname] at h
    have hplain := (c.plain _ (mem_of_entries he')).ne_anonRef e.2.type e.1
    have hplace : anonRef e.2.type e.1 = anonRef e'.2.type e'.1 := by simpa [answers, hplain] using h
    obtain ⟨htype, hidx⟩ := anonRef_injective (c.ident _ (mem_of_entries he))
      (c.ident _ (mem_of_entries he')) hplace
    have hdiff : c.entries.Pairwise fun a b => a.2.type = b.2.type → a.1 ≠ b.1 :=
      (places_pairwise [] c.sections).imp fun hlt htype => Nat.ne_of_lt (hlt htype)
    have hsymm : Std.Symm fun a b : Nat × Section => a.2.type = b.2.type → a.1 ≠ b.1 :=
      ⟨fun a b hab htype hidx => hab htype.symm hidx.symm⟩
    exact hdiff.forall he' he hne htype.symm hidx.symm
  · rw [ownRef_of_named hname, answers_plain (c.plain _ (mem_of_entries he)),
      decide_eq_true_iff] at h
    have hdiff : c.entries.Pairwise fun a b => a.2.name = b.2.name → a.2.name = "" := by
      have hold := c.distinct
      rwa [← entries_snd c, List.pairwise_map] at hold
    have hsymm : Std.Symm fun a b : Nat × Section => a.2.name = b.2.name → a.2.name = "" :=
      ⟨fun a b hab hname => hname ▸ hab hname.symm⟩
    exact hname (h ▸ hdiff.forall he' he hne h)

theorem answers_ownRef (e : Nat × Section) : answers (ownRef e) e = true := by
  unfold ownRef
  split
  · simp [answers]
  · simp [answers]

theorem find_ownRef (he : e ∈ c.entries) : c.find (ownRef e) = some e.2 := by
  have hsome : (c.entries.find? (answers (ownRef e))).isSome = true := by
    rw [List.find?_isSome]
    exact ⟨e, he, answers_ownRef e⟩
  obtain ⟨e', he'⟩ := Option.isSome_iff_exists.1 hsome
  have hsame : e' = e := eq_of_answers he (List.mem_of_find?_eq_some he') (List.find?_some he')
  rw [find, he', hsame]
  rfl

theorem get_ownRef (he : e ∈ c.entries) : c.get (ownRef e) option = e.2.get option := by
  rw [get, find_ownRef he]

theorem mem_refs : ref ∈ c.refs type ↔ ∃ e ∈ c.entries, e.2.type = type ∧ ownRef e = ref := by
  simp [refs, and_assoc]

/-! ## Names -/

theorem find_eq_some_iff (hn : Plain n) (hne : n ≠ "") :
    c.find n = some s ↔ s ∈ c.sections ∧ s.name = n := by
  constructor
  · intro h
    rw [find_plain hn] at h
    exact ⟨List.mem_of_find?_eq_some h, by simpa using List.find?_some h⟩
  · rintro ⟨hs, hname⟩
    rw [← entries_snd c] at hs
    obtain ⟨e, he, rfl⟩ := List.mem_map.1 hs
    have hown := find_ownRef he
    rwa [ownRef_of_named (by rw [hname]; exact hne), hname] at hown

/-- A name is listed under the type of its section. -/
theorem name_mem_refs_iff (hn : Plain n) (hne : n ≠ "") :
    n ∈ c.refs type ↔ ∃ s, c.find n = some s ∧ s.type = type := by
  rw [mem_refs]
  constructor
  · rintro ⟨e, he, htype, href⟩
    refine ⟨e.2, ?_, htype⟩
    rw [← href]
    exact find_ownRef he
  · rintro ⟨s, hs, htype⟩
    obtain ⟨hmem, hname⟩ := (find_eq_some_iff hn hne).1 hs
    rw [← entries_snd c] at hmem
    obtain ⟨e, he, rfl⟩ := List.mem_map.1 hmem
    refine ⟨e, he, htype, ?_⟩
    rw [ownRef_of_named (by rw [hname]; exact hne), hname]

/-! ## An edit of options -/

/-- Type and name stay. -/
theorem edit_of_answers (ref : String) (f : Table (List String) → Table (List String))
    (e : Nat × Section) :
    (if answers ref e then e.2.edit f else e.2).type = e.2.type ∧
      (if answers ref e then e.2.edit f else e.2).name = e.2.name := by
  cases answers ref e <;> exact ⟨rfl, rfl⟩

theorem refs_update (c : Config) (ref : String) (f : Table (List String) → Table (List String))
    (type : String) : (c.update ref f).refs type = c.refs type := by
  rw [refs, entries_update, List.filter_map, List.map_map, refs]
  congr 1
  · funext e
    simp [ownRef, edit_of_answers]
  · congr 1
    funext e
    simp [edit_of_answers]

theorem find_update_type (c : Config) (ref other : String)
    (f : Table (List String) → Table (List String)) :
    ((c.update ref f).find other).map Section.type = (c.find other).map Section.type := by
  rw [find_update, find, Option.map_map, Option.map_map]
  congr 1
  funext e
  simp only [Function.comp_apply]
  cases answers ref e <;> rfl

theorem get_update_ne (hn : Plain n) (hm : Plain m) (hne : m ≠ n) :
    (c.update n f).get m option = c.get m option := by
  rw [get, get, find_update_ne hn hm hne]

/-- An option reads as it was, or as the edit made it. -/
theorem get_update_cases (c : Config) (ref n option : String)
    (f : Table (List String) → Table (List String)) :
    (c.update ref f).get n option = c.get n option ∨
      ∃ s, c.find n = some s ∧
        (c.update ref f).get n option = ((f s.options).lookup option).getD [] := by
  rw [get, get, find_update, find]
  cases he : c.entries.find? (answers n) with
  | none => exact .inl rfl
  | some e =>
      cases hans : answers ref e with
      | true => exact .inr ⟨e.2, rfl, by simp [hans, Section.get, Section.edit]⟩
      | false => exact .inl (by simp [hans])

/-! ## A new section -/

theorem places_append (seen : List String) (l : List Section) (s : Section) :
    ∃ i, places seen (l ++ [s]) = places seen l ++ [(i, s)] := by
  induction l generalizing seen with
  | nil => exact ⟨seen.count s.type, rfl⟩
  | cons a l ih =>
      obtain ⟨i, hi⟩ := ih (a.type :: seen)
      exact ⟨i, by simp [places, hi]⟩

/-- A new section is read after all the others, and has no options. -/
theorem entries_push (c : Config) (type name : String) :
    c.push type name = c ∨
      ∃ i, (c.push type name).entries = c.entries ++ [(i, ⟨type, name, ∅⟩)] := by
  unfold push
  split
  · exact .inr (places_append [] c.sections _)
  · exact .inl rfl

theorem mem_push {name : String} (h : s ∈ (c.push type name).sections) :
    s ∈ c.sections ∨ s = ⟨type, name, ∅⟩ := by
  rcases entries_push c type name with hsame | ⟨i, hi⟩
  · rw [hsame] at h
    exact .inl h
  · rw [← entries_snd, hi, List.map_append, entries_snd] at h
    simpa using h

theorem find_push (c : Config) (type name : String) (h : c.find ref = some s) :
    (c.push type name).find ref = some s := by
  rcases entries_push c type name with hsame | ⟨i, hi⟩
  · rwa [hsame]
  · rw [find, Option.map_eq_some_iff] at h
    obtain ⟨e, he, rfl⟩ := h
    rw [find, hi, List.find?_append, he]
    rfl

/-- A new section leaves every option to be read as before. -/
theorem get_push (c : Config) (type name ref option : String) :
    (c.push type name).get ref option = c.get ref option := by
  cases hfind : c.find ref with
  | some s => rw [get, get, find_push c type name hfind, hfind]
  | none =>
      rcases entries_push c type name with hsame | ⟨i, hi⟩
      · rw [hsame]
      · have hold : c.entries.find? (answers ref) = none := by simpa [find] using hfind
        rw [get, get, hfind, find, hi, List.find?_append, hold, Option.none_or]
        cases hnew : answers ref (i, (⟨type, name, ∅⟩ : Section)) with
        | true => simp [hnew, Section.get]
        | false => simp [hnew]

theorem find_push_self (hn : Plain n) (htype : '[' ∉ type.toList) (h : c.find n = none) :
    (c.push type n).find n = some ⟨type, n, ∅⟩ := by
  have hfree : ∀ s ∈ c.sections, s.name ≠ n := by
    rw [find_plain hn, List.find?_eq_none] at h
    intro s hs
    simpa using h s hs
  have hsections : (c.push type n).sections = c.sections ++ [⟨type, n, ∅⟩] := by
    unfold push
    rw [dif_pos ⟨hn, htype, hfree⟩]
  rw [find_plain hn] at h ⊢
  rw [hsections, List.find?_append, h]
  simp

theorem find_push_ne (hm : Plain m) (hne : m ≠ n) : (c.push type n).find m = c.find m := by
  cases hfind : c.find m with
  | some s => exact find_push c type n hfind
  | none =>
      rcases entries_push c type n with hsame | ⟨i, hi⟩
      · rwa [hsame]
      · have hold : c.entries.find? (answers m) = none := by simpa [find] using hfind
        have hnew : answers m (i, (⟨type, n, ∅⟩ : Section)) = false := by
          rw [answers_plain hm]
          simpa using hne.symm
        rw [find, hi, List.find?_append, hold, Option.none_or]
        simp [hnew]

/-! ## A deletion -/

theorem mem_erase : s ∈ (c.erase ref).sections ↔ ∃ e ∈ c.entries, ownRef e ≠ ref ∧ e.2 = s := by
  simp [erase, and_assoc]

theorem mem_of_mem_erase (h : s ∈ (c.erase ref).sections) : s ∈ c.sections := by
  obtain ⟨e, he, -, rfl⟩ := mem_erase.1 h
  exact mem_of_entries he

/-- Sections that are left out leave those of another type in their
places. -/
theorem places_filter {q : Nat × Section → Bool} {type : String} {seen seen' : List String}
    {l : List Section} (hq : ∀ e ∈ places seen l, e.2.type = type → q e = true)
    (hcount : seen'.count type = seen.count type) :
    (places seen' (((places seen l).filter q).map Prod.snd)).filter (fun e => e.2.type = type)
      = (places seen l).filter fun e => e.2.type = type := by
  induction l generalizing seen seen' with
  | nil => rfl
  | cons s l ih =>
      have hrest : ∀ e ∈ places (s.type :: seen) l, e.2.type = type → q e = true :=
        fun e he => hq e (List.mem_cons_of_mem _ he)
      simp only [places, List.filter_cons]
      by_cases hs : s.type = type
      · have hkeep : q (seen.count s.type, s) = true := hq _ (List.mem_cons_self ..) hs
        rw [if_pos hkeep]
        simp only [List.map_cons, places, List.filter_cons]
        rw [ih hrest (by simp [hs, hcount])]
        simp [hs, hcount]
      · cases hq' : q (seen.count s.type, s) with
        | true =>
            simp only [if_true, List.map_cons, places, List.filter_cons]
            rw [ih hrest (by simp [List.count_cons, hs, hcount])]
            simp [hs]
        | false =>
            simp only [Bool.false_eq_true, if_false]
            rw [ih hrest (by simp [List.count_cons, hs, hcount])]
            simp [hs]

/-- A deletion leaves the sections of a type where they are, when it is of
none of them. -/
theorem entries_erase_of_type (h : ref ∉ c.refs type) :
    (c.erase ref).entries.filter (fun e => e.2.type = type)
      = c.entries.filter fun e => e.2.type = type := by
  refine places_filter (fun e he htype => ?_) rfl
  rw [decide_eq_true_iff]
  rintro rfl
  exact h (mem_refs.2 ⟨e, he, htype, rfl⟩)

theorem ownRef_injective (he : e ∈ c.entries) (he' : e' ∈ c.entries) (h : ownRef e = ownRef e') :
    e = e' := by
  refine eq_of_answers he' he ?_
  rw [← h]
  exact answers_ownRef e

/-- An address is listed under one type. -/
theorem type_of_mem_refs {type' : String} (h : ref ∈ c.refs type) (h' : ref ∈ c.refs type') :
    type = type' := by
  obtain ⟨e, he, rfl, hown⟩ := mem_refs.1 h
  obtain ⟨e', he', rfl, hown'⟩ := mem_refs.1 h'
  rw [ownRef_injective he he' (hown.trans hown'.symm)]

theorem find_erase (hn : Plain n) (hne : n ≠ "") :
    (c.erase ref).find n = if n = ref then none else c.find n := by
  have hown : ∀ e : Nat × Section, e.2.name = n → ownRef e = n := by
    intro e hname
    rw [ownRef_of_named (by rw [hname]; exact hne), hname]
  ext s
  rw [find_eq_some_iff hn hne, mem_erase]
  split
  · next heq =>
    simp only [reduceCtorEq, iff_false, not_and]
    rintro ⟨e, he, href, rfl⟩ hname
    exact href ((hown e hname).trans heq)
  · next hother =>
    rw [find_eq_some_iff hn hne]
    constructor
    · rintro ⟨⟨e, he, -, rfl⟩, hname⟩
      exact ⟨mem_of_entries he, hname⟩
    · rintro ⟨hs, hname⟩
      rw [← entries_snd c] at hs
      obtain ⟨e, he, rfl⟩ := List.mem_map.1 hs
      exact ⟨⟨e, he, by rw [hown e hname]; exact hother, rfl⟩, hname⟩

theorem get_erase (hn : Plain n) (hne : n ≠ "") :
    (c.erase ref).get n option = if n = ref then [] else c.get n option := by
  rw [get, find_erase hn hne]
  by_cases h : n = ref
  · simp [h]
  · simp [h, get]

end Config

end Uci

end OpenManet
