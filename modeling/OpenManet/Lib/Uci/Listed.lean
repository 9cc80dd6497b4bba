import OpenManet.Lib.Uci.Place
/-!
# Sections by address

The sections of one type with the addresses a listing gives them, in file
order. An edit at one of the addresses changes that section, an edit at the
address of another type none of them, and a new section comes at the end.
-/

namespace OpenManet

namespace Uci

open Fallible

namespace Config

variable {c : Config} {ref n type type' : String} {s : Section} {x : String × Section}
  {f : Table (List String) → Table (List String)}

/-- The sections of a type with their addresses. -/
def listed (c : Config) (type : String) : List (String × Section) :=
  (c.entries.filter fun e => e.2.type = type).map fun e => (ownRef e, e.2)

theorem listed_fst (c : Config) (type : String) : (c.listed type).map Prod.fst = c.refs type := by
  rw [listed, List.map_map, refs]
  rfl

theorem mem_listed : x ∈ c.listed type ↔ ∃ e ∈ c.entries, e.2.type = type ∧ (ownRef e, e.2) = x := by
  simp [listed, and_assoc]

theorem find_of_mem_listed (hx : x ∈ c.listed type) : c.find x.1 = some x.2 := by
  obtain ⟨e, he, -, rfl⟩ := mem_listed.1 hx
  exact find_ownRef he

theorem get_of_mem_listed (hx : x ∈ c.listed type) (o : String) : c.get x.1 o = x.2.get o := by
  rw [get, find_of_mem_listed hx]

theorem fst_mem_refs (hx : x ∈ c.listed type) : x.1 ∈ c.refs type := by
  rw [← listed_fst]
  exact List.mem_map_of_mem hx

/-- No address is listed twice. -/
theorem refs_nodup (c : Config) (type : String) : (c.refs type).Nodup :=
  List.Nodup.map_on (fun _ he _ he' h => ownRef_injective (List.mem_of_mem_filter he)
    (List.mem_of_mem_filter he') h) (c.entries_nodup.filter _)

/-- **An edit at a listed address** changes the section that has it. -/
theorem listed_update (href : ref ∈ c.refs type') :
    (c.update ref f).listed type =
      (c.listed type).map fun x => if x.1 = ref then (x.1, x.2.edit f) else x := by
  obtain ⟨e₀, he₀, -, rfl⟩ := mem_refs.1 href
  rw [listed, entries_update, List.filter_map, List.map_map, listed, List.map_map]
  have hfilter : c.entries.filter ((fun e : Nat × Section => decide (e.2.type = type)) ∘
      fun e => (e.1, if answers (ownRef e₀) e then e.2.edit f else e.2)) =
        c.entries.filter fun e => e.2.type = type := by
    congr 1
    funext e
    simp [edit_of_answers]
  rw [hfilter]
  refine List.map_congr_left fun e he => ?_
  have hmem := List.mem_of_mem_filter he
  simp only [Function.comp_apply]
  by_cases hans : answers (ownRef e₀) e = true
  · obtain rfl := eq_of_answers he₀ hmem hans
    rw [if_pos rfl, if_pos hans]
    rfl
  · have hown : ownRef e ≠ ownRef e₀ := by
      intro hown
      rw [ownRef_injective hmem he₀ hown] at hans
      exact hans (answers_ownRef e₀)
    rw [if_neg hown, if_neg hans]

theorem listed_update_of_ne (href : ref ∈ c.refs type') (hne : type ≠ type') :
    (c.update ref f).listed type = c.listed type := by
  rw [listed_update href]
  refine (List.map_congr_left fun x hx => if_neg ?_).trans (List.map_id _)
  rintro rfl
  exact hne (type_of_mem_refs (fst_mem_refs hx) href)

/-- A new section comes behind the others of its type. -/
theorem listed_push (hn : Plain n) (hne : n ≠ "") (htype : '[' ∉ type.toList)
    (h : c.find n = none) : (c.push type n).listed type = c.listed type ++ [(n, ⟨type, n, ∅⟩)] := by
  have hnew := find_push_self hn htype h
  rcases entries_push c type n with hsame | ⟨i, hi⟩
  · rw [hsame, h] at hnew
    cases hnew
  · simp [listed, hi, ownRef_of_named (e := (i, ⟨type, n, ∅⟩)) hne]

end Config

/-- The sections of a type as they stand in a tree. -/
def Tree.listed (t : Tree) (config type : String) : List (String × Section) :=
  match t.mem config with
  | some c => c.listed type
  | none => []

section Listed

variable {config ref type : String} {t : Tree} {c : Config} {h : Host} {x : String × Section}
  {f : Table (List String) → Table (List String)}

theorem Tree.listed_of_mem (hmem : t.mem config = some c) : t.listed config type = c.listed type := by
  rw [Tree.listed, hmem]

@[simp] theorem Tree.stage_listed (t : Tree) (config : String) (c : Config) (type : String) :
    (t.stage config c).listed config type = c.listed type := by
  rw [Tree.listed, Tree.stage_mem]

theorem Tree.get_of_mem_listed (hx : x ∈ t.listed config type) (o : String) :
    t.get config x.1 o = x.2.get o := by
  unfold Tree.listed at hx
  cases hmem : t.mem config with
  | none => rw [hmem] at hx; cases hx
  | some c =>
      rw [hmem] at hx
      rw [Tree.get_of_mem hmem, Config.get_of_mem_listed hx]

theorem leaves_listed_getSections (h : Host) :
    Leaves (getSections config type) h fun l h' => h'.tree = h.tree ∧
      l = (h.tree.listed config type).map Prod.fst ∧ l.Nodup := by
  refine leaves_getSections fun c tick hmem => ⟨rfl, ?_, c.refs_nodup type⟩
  rw [Tree.listed_of_mem hmem, Config.listed_fst]

/-- An edit of a section that is listed. -/
theorem leaves_listed_editSection (hx : x ∈ h.tree.listed config type) :
    Leaves (editSection config x.1 f) h fun _ h' => ∀ type', h'.tree.listed config type' =
      (h.tree.listed config type').map fun y => if y.1 = x.1 then (y.1, y.2.edit f) else y := by
  refine leaves_editSection fun c tick hmem _ type' => ?_
  rw [Tree.listed_of_mem hmem] at hx
  rw [Tree.stage_listed, Tree.listed_of_mem hmem, Config.listed_update (Config.fst_mem_refs hx)]

end Listed

end Uci

end OpenManet
