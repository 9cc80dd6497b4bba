import OpenManet.Lib.Table
/-!
# UCI configs

A config is a list of sections, each with a type, a name — empty when the
section is anonymous — and options that hold lists of values. A section is
addressed by its name, or by its place among the sections of its type, as
in `@device[2]`; every section has a place, named or not, and the sections
behind a deleted one each move up by one.

A `Config` carries what parsing guarantees: names are told from places, no
two sections share a name, and types are identifiers.
-/

namespace OpenManet

namespace Uci

/-- One section of a config. -/
structure Section where
  type : String
  /-- Empty when the section is anonymous. -/
  name : String
  options : Table (List String)
deriving DecidableEq

/-- The values of an option, none when it is not set. -/
def Section.get (s : Section) (option : String) : List String := (s.options.lookup option).getD []

/-- The section with its options changed. -/
def Section.edit (s : Section) (f : Table (List String) → Table (List String)) : Section :=
  { s with options := f s.options }

@[simp] theorem Section.edit_type (s : Section) (f : Table (List String) → Table (List String)) :
    (s.edit f).type = s.type := rfl

@[simp] theorem Section.edit_name (s : Section) (f : Table (List String) → Table (List String)) :
    (s.edit f).name = s.name := rfl

/-! ## Addresses -/

/-- The address of a section by its place among those of its type. -/
def anonRef (type : String) (i : Nat) : String := "@" ++ type ++ "[" ++ Nat.repr i ++ "]"

/-- A string that is not read as a place. -/
def Plain (n : String) : Prop := n.toList.head? ≠ some '@'

instance (n : String) : Decidable (Plain n) := inferInstanceAs (Decidable (¬ _))

theorem not_plain_anonRef (t : String) (i : Nat) : ¬ Plain (anonRef t i) := by
  simp [Plain, anonRef]

theorem Plain.ne_anonRef {n : String} (h : Plain n) (t : String) (i : Nat) : n ≠ anonRef t i := by
  rintro rfl
  exact not_plain_anonRef t i h

/-- Whatever follows, a string that starts plainly is plain. -/
theorem plain_append {p : String} (hp : Plain p) (hne : p ≠ "") (r : String) : Plain (p ++ r) := by
  unfold Plain at *
  rw [String.toList_append]
  cases hl : p.toList with
  | nil => exact absurd (String.toList_eq_nil_iff.1 hl) hne
  | cons c cs => simpa [hl] using hp

theorem repr_injective {i j : Nat} (h : Nat.repr i = Nat.repr j) : i = j := by
  have hdigits : Nat.toDigits 10 i = Nat.toDigits 10 j := String.ofList_injective h
  calc i = Nat.ofDigitChars 10 (Nat.toDigits 10 i) 0 := Nat.ofDigitChars_ten_toDigits.symm
    _ = Nat.ofDigitChars 10 (Nat.toDigits 10 j) 0 := by rw [hdigits]
    _ = j := Nat.ofDigitChars_ten_toDigits

/-- A type that is an identifier ends where the place begins. -/
theorem takeWhile_bracket {l m : List Char} (h : '[' ∉ l) :
    (l ++ '[' :: m).takeWhile (· ≠ '[') = l := by
  have hall : ∀ c ∈ l, decide (c ≠ '[') = true := by
    intro c hc
    rw [decide_eq_true_iff]
    rintro rfl
    exact h hc
  rw [List.takeWhile_append_of_pos hall]
  simp

/-- **Places do not collide.** -/
theorem anonRef_injective {t t' : String} {i j : Nat} (ht : '[' ∉ t.toList) (ht' : '[' ∉ t'.toList)
    (h : anonRef t i = anonRef t' j) : t = t' ∧ i = j := by
  have hchars : t.toList ++ '[' :: ((Nat.repr i).toList ++ [']'])
      = t'.toList ++ '[' :: ((Nat.repr j).toList ++ [']']) := by
    simpa [anonRef, String.toList_append] using congrArg String.toList h
  have htypes : t.toList = t'.toList := by
    rw [← takeWhile_bracket ht, hchars, takeWhile_bracket ht']
  rw [htypes] at hchars
  have hplaces : (Nat.repr i).toList = (Nat.repr j).toList := by simpa using hchars
  exact ⟨String.toList_injective htypes, repr_injective (String.toList_injective hplaces)⟩

/-! ## Configs -/

/-- A parsed config. -/
structure Config where
  /-- In file order. -/
  sections : List Section
  plain : ∀ s ∈ sections, Plain s.name
  ident : ∀ s ∈ sections, '[' ∉ s.type.toList
  distinct : sections.Pairwise fun s t => s.name = t.name → s.name = ""
deriving DecidableEq

/-- The config of an empty file. -/
def Config.empty : Config := ⟨[], by simp, by simp, by simp⟩

/-- Sections with their place among those of their type, after the types
already seen. -/
def places : List String → List Section → List (Nat × Section)
  | _, [] => []
  | seen, s :: rest => (seen.count s.type, s) :: places (s.type :: seen) rest

/-- The section is addressed so, by its name or by its place. -/
def answers (ref : String) (e : Nat × Section) : Bool :=
  e.2.name = ref || ref = anonRef e.2.type e.1

/-- The address a listing gives a section. -/
def ownRef (e : Nat × Section) : String :=
  if e.2.name = "" then anonRef e.2.type e.1 else e.2.name

theorem ownRef_ne_empty (e : Nat × Section) : ownRef e ≠ "" := by
  unfold ownRef
  split
  · exact fun h => absurd (congrArg String.toList h) (by simp [anonRef])
  · assumption

theorem places_snd (seen : List String) (l : List Section) : (places seen l).map Prod.snd = l := by
  induction l generalizing seen with
  | nil => rfl
  | cons s l ih => simp [places, ih]

theorem places_count_le {seen : List String} {l : List Section} {e : Nat × Section}
    (he : e ∈ places seen l) : seen.count e.2.type ≤ e.1 := by
  induction l generalizing seen with
  | nil => simp [places] at he
  | cons s l ih =>
      rcases List.mem_cons.1 he with rfl | he
      · exact le_rfl
      · exact le_trans (List.count_le_count_cons) (ih he)

/-- Sections of one type have different places. -/
theorem places_pairwise (seen : List String) (l : List Section) :
    (places seen l).Pairwise fun e e' => e.2.type = e'.2.type → e.1 < e'.1 := by
  induction l generalizing seen with
  | nil => exact List.Pairwise.nil
  | cons s l ih =>
      refine List.Pairwise.cons (fun e he htype => ?_) (ih _)
      have hle := places_count_le he
      simp only at htype ⊢
      rw [← htype, List.count_cons_self] at hle
      omega

namespace Config

variable {c : Config} {ref n m : String} {f : Table (List String) → Table (List String)}

/-- The sections with their places. -/
def entries (c : Config) : List (Nat × Section) := places [] c.sections

@[simp] theorem entries_snd (c : Config) : c.entries.map Prod.snd = c.sections := places_snd [] _

theorem sections_of_split {a b : List (Nat × Section)} {e : Nat × Section}
    (h : c.entries = a ++ e :: b) :
    c.sections = a.map Prod.snd ++ e.2 :: b.map Prod.snd := by
  rw [← entries_snd c, h, List.map_append, List.map_cons]

theorem mem_of_entries {e : Nat × Section} (he : e ∈ c.entries) : e.2 ∈ c.sections := by
  rw [← entries_snd c]
  exact List.mem_map_of_mem he

/-- The section an address names. -/
def find (c : Config) (ref : String) : Option Section := (c.entries.find? (answers ref)).map Prod.snd

/-- The values of an option of the section an address names. -/
def get (c : Config) (ref option : String) : List String :=
  match c.find ref with
  | some s => s.get option
  | none => []

/-- The addresses of the sections of a type, in file order. -/
def refs (c : Config) (type : String) : List String :=
  (c.entries.filter fun e => e.2.type = type).map ownRef

theorem pairwise_edit {g : Nat × Section → Section} (hname : ∀ e, (g e).name = e.2.name) :
    (c.entries.map g).Pairwise fun s t => s.name = t.name → s.name = "" := by
  have hold := c.distinct
  rw [← entries_snd c, List.pairwise_map] at hold
  rw [List.pairwise_map]
  simpa only [hname] using hold

/-- The section an address names, with its options changed. -/
def update (c : Config) (ref : String) (f : Table (List String) → Table (List String)) : Config where
  sections := c.entries.map fun e => if answers ref e then e.2.edit f else e.2
  plain := by
    intro s hs
    obtain ⟨e, he, rfl⟩ := List.mem_map.1 hs
    have hplain := c.plain _ (mem_of_entries he)
    split <;> exact hplain
  ident := by
    intro s hs
    obtain ⟨e, he, rfl⟩ := List.mem_map.1 hs
    have hident := c.ident _ (mem_of_entries he)
    split <;> exact hident
  distinct := pairwise_edit fun e => by split <;> rfl

/-- The config without the section a listing gives this address. -/
def erase (c : Config) (ref : String) : Config where
  sections := (c.entries.filter fun e => ownRef e ≠ ref).map Prod.snd
  plain := by
    intro s hs
    obtain ⟨e, he, rfl⟩ := List.mem_map.1 hs
    exact c.plain _ (mem_of_entries (List.mem_filter.1 he).1)
  ident := by
    intro s hs
    obtain ⟨e, he, rfl⟩ := List.mem_map.1 hs
    exact c.ident _ (mem_of_entries (List.mem_filter.1 he).1)
  distinct := by
    have hold := c.distinct
    rw [← entries_snd c] at hold
    exact hold.sublist (List.filter_sublist.map _)

/-- The config with a new section at its end. -/
def push (c : Config) (type name : String) : Config :=
  if h : Plain name ∧ '[' ∉ type.toList ∧ ∀ s ∈ c.sections, s.name ≠ name then
    { sections := c.sections ++ [⟨type, name, ∅⟩]
      plain := by
        intro s hs
        rcases List.mem_append.1 hs with hs | hs
        · exact c.plain s hs
        · rw [List.mem_singleton.1 hs]
          exact h.1
      ident := by
        intro s hs
        rcases List.mem_append.1 hs with hs | hs
        · exact c.ident s hs
        · rw [List.mem_singleton.1 hs]
          exact h.2.1
      distinct := by
        rw [List.pairwise_append]
        refine ⟨c.distinct, List.pairwise_singleton _ _, fun s hs t ht hst => ?_⟩
        rw [List.mem_singleton.1 ht] at hst
        exact absurd hst (h.2.2 s hs) }
  else c

/-! ## Addressing by name -/

/-- A plain address is a name. -/
theorem answers_plain (hn : Plain n) (e : Nat × Section) : answers n e = decide (e.2.name = n) := by
  simp [answers, hn.ne_anonRef]

theorem find_plain (hn : Plain n) : c.find n = c.sections.find? fun s => s.name = n := by
  rw [find, ← entries_snd c, List.find?_map]
  congr 2
  funext e
  exact answers_plain hn e

/-! ## What an edit leaves alone -/

theorem places_edit {g : Nat × Section → Section} (hg : ∀ e, (g e).type = e.2.type)
    (seen : List String) (l : List Section) :
    places seen ((places seen l).map g) = (places seen l).map fun e => (e.1, g e) := by
  induction l generalizing seen with
  | nil => rfl
  | cons s l ih =>
      have htype : (g (seen.count s.type, s)).type = s.type := hg _
      simp only [places, List.map_cons, htype, ih]

theorem entries_update (c : Config) (ref : String) (f : Table (List String) → Table (List String)) :
    (c.update ref f).entries =
      c.entries.map fun e => (e.1, if answers ref e then e.2.edit f else e.2) :=
  places_edit (fun e => by split <;> rfl) [] c.sections

/-- An edit changes the options of what its address names, and no
address. -/
theorem find_update (c : Config) (ref other : String)
    (f : Table (List String) → Table (List String)) :
    (c.update ref f).find other =
      (c.entries.find? (answers other)).map fun e => if answers ref e then e.2.edit f else e.2 := by
  have hsame : (answers other ∘ fun e : Nat × Section =>
      (e.1, if answers ref e then e.2.edit f else e.2)) = answers other := by
    funext e
    show answers other (e.1, if answers ref e then e.2.edit f else e.2) = answers other e
    cases answers ref e <;> rfl
  rw [find, entries_update, List.find?_map, hsame, Option.map_map]
  rfl

theorem find_update_self (c : Config) (ref : String)
    (f : Table (List String) → Table (List String)) :
    (c.update ref f).find ref = (c.find ref).map (·.edit f) := by
  rw [find_update, find, Option.map_map]
  cases he : c.entries.find? (answers ref) with
  | none => rfl
  | some e =>
      have hans : answers ref e = true := List.find?_some he
      simp [hans]

theorem find_update_ne (hn : Plain n) (hm : Plain m) (hne : m ≠ n) :
    (c.update n f).find m = c.find m := by
  rw [find_update, find]
  cases he : c.entries.find? (answers m) with
  | none => rfl
  | some e =>
      have hans : answers m e = true := List.find?_some he
      rw [answers_plain hm, decide_eq_true_iff] at hans
      have hother : answers n e = false := by
        rw [answers_plain hn, decide_eq_false_iff_not, hans]
        exact hne
      simp [hother]

theorem find_update_isSome (c : Config) (ref other : String)
    (f : Table (List String) → Table (List String)) :
    ((c.update ref f).find other).isSome = (c.find other).isSome := by
  rw [find_update, find, Option.isSome_map, Option.isSome_map]

/-- An edit that leaves an option alone leaves it alone everywhere. -/
theorem get_update_of_lookup {option : String} (hf : ∀ o, (f o).lookup option = o.lookup option)
    (c : Config) (ref other : String) : (c.update ref f).get other option = c.get other option := by
  rw [get, get, find_update, find]
  cases c.entries.find? (answers other) with
  | none => rfl
  | some e =>
      simp only [Option.map_some]
      split
      · simp [Section.get, Section.edit, hf]
      · rfl

theorem get_update_self {option : String} {s : Section} (h : c.find ref = some s) :
    (c.update ref f).get ref option = ((f s.options).lookup option).getD [] := by
  rw [get, find_update_self, h]
  rfl

/-- A written option reads back. -/
theorem get_update_insert {option : String} {values : List String}
    (h : (c.find ref).isSome = true) :
    (c.update ref fun o => o.insert option values).get ref option = values := by
  obtain ⟨s, hs⟩ := Option.isSome_iff_exists.1 h
  rw [get_update_self hs, AList.lookup_insert]
  rfl

end Config

end Uci

end OpenManet
