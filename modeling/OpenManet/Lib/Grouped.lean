import Mathlib.Data.List.Nodup
import Mathlib.Data.List.Sort
/-!
# Groups under keys

Lists whose elements are told apart by a key, as a map is kept and as it is
printed. Sorted by their keys, two such lists are one as soon as they hold the
same elements; and where an element is a group that is not empty, as soon as
they hold the same members.
-/

namespace OpenManet

namespace Grouped

variable {α β κ : Type*} {key : α → κ} {l l' : List α} {a : α}

/-- An element cuts the list in two that have nothing of its key. -/
theorem split_at_key (h : (l.map key).Nodup) (ha : a ∈ l) :
    ∃ before after, l = before ++ a :: after ∧ (∀ x ∈ before, key x ≠ key a) ∧
      ∀ x ∈ after, key x ≠ key a := by
  obtain ⟨before, after, rfl⟩ := List.append_of_mem ha
  rw [List.map_append, List.map_cons, List.nodup_append] at h
  obtain ⟨-, hafter, hdisjoint⟩ := h
  exact ⟨before, after, rfl,
    fun x hx => hdisjoint (key x) (List.mem_map_of_mem hx) (key a) List.mem_cons_self,
    fun x hx heq => (List.nodup_cons.1 hafter).1 (heq ▸ List.mem_map_of_mem hx)⟩

section Keys

variable [DecidableEq κ]

/-- The rest is what is of another key. -/
theorem perm_cons_filter (h : (l.map key).Nodup) (ha : a ∈ l) :
    l.Perm (a :: l.filter fun x => key x ≠ key a) := by
  obtain ⟨before, after, rfl, hbefore, hafter⟩ := split_at_key h ha
  have hleft : before.filter (fun x => key x ≠ key a) = before :=
    List.filter_eq_self.2 fun x hx => decide_eq_true (hbefore x hx)
  have hright : after.filter (fun x => key x ≠ key a) = after :=
    List.filter_eq_self.2 fun x hx => decide_eq_true (hafter x hx)
  rw [List.filter_append, List.filter_cons_of_neg (by simp), hleft, hright]
  exact List.perm_middle

/-- Changing what is under a key changes one element. -/
theorem map_at_key (h : (l.map key).Nodup) (ha : a ∈ l) (f : α → α) :
    ∃ before after, l = before ++ a :: after ∧
      (l.map fun x => if key x = key a then f x else x) = before ++ f a :: after := by
  obtain ⟨before, after, rfl, hbefore, hafter⟩ := split_at_key h ha
  have hsame : ∀ m : List α, (∀ x ∈ m, key x ≠ key a) →
      (m.map fun x => if key x = key a then f x else x) = m := fun m hm =>
    (List.map_congr_left fun x hx => if_neg (hm x hx)).trans (List.map_id m)
  refine ⟨before, after, rfl, ?_⟩
  rw [List.map_append, List.map_cons, hsame before hbefore, hsame after hafter, if_pos rfl]

/-- **Groups under distinct keys** hold each element once, if each has one of the
keys. -/
theorem perm_flatMap_filter {keys : List κ} (h : keys.Nodup) (hl : ∀ x ∈ l, key x ∈ keys) :
    (keys.flatMap fun k => l.filter fun x => key x = k).Perm l := by
  induction keys generalizing l with
  | nil =>
    have hnil : l = [] := List.eq_nil_iff_forall_not_mem.2 fun x hx => by simpa using hl x hx
    rw [hnil]
    exact List.Perm.nil
  | cons k keys ih =>
    obtain ⟨hk, hkeys⟩ := List.nodup_cons.1 h
    -- the other groups are groups of what is left without this one
    have hrest : ∀ k' ∈ keys, (l.filter fun x => key x = k')
        = (l.filter fun x => !decide (key x = k)).filter fun x => key x = k' := by
      intro k' hk'
      have hne : k' ≠ k := fun heq => hk (heq ▸ hk')
      rw [List.filter_filter]
      refine List.filter_congr fun x _ => ?_
      by_cases hx : key x = k' <;> simp [hx, hne]
    have hleft : ∀ x ∈ l.filter (fun x => !decide (key x = k)), key x ∈ keys := by
      intro x hx
      obtain ⟨hmem, hne⟩ := List.mem_filter.1 hx
      exact (List.mem_cons.1 (hl x hmem)).resolve_left (by simpa using hne)
    rw [List.flatMap_cons, List.flatMap_congr hrest]
    exact ((ih hkeys hleft).append_left _).trans (List.filter_append_perm _ l)

/-- What is found under a key is what has it. -/
theorem find?_eq_some_iff (h : (l.map key).Nodup) {k : κ} :
    (l.find? fun x => key x = k) = some a ↔ a ∈ l ∧ key a = k := by
  constructor
  · intro hfind
    exact ⟨List.mem_of_find?_eq_some hfind, by simpa using List.find?_some hfind⟩
  · rintro ⟨ha, rfl⟩
    obtain ⟨before, after, rfl, hbefore, -⟩ := split_at_key h ha
    rw [List.find?_eq_some_iff_append]
    exact ⟨by simp, before, after, rfl, fun x hx => by simpa using hbefore x hx⟩

end Keys

section Sorted

variable [LinearOrder κ]

/-- In the order of the keys, no key twice. -/
def Sorted (key : α → κ) (l : List α) : Prop := l.Pairwise fun a b => key a < key b

/-- Sorting does it, where no key is there twice. -/
theorem sorted_mergeSort (h : (l.map key).Nodup) :
    Sorted key (l.mergeSort fun a b => key a ≤ key b) := by
  have hle : (l.mergeSort fun a b => key a ≤ key b).Pairwise fun a b =>
      decide (key a ≤ key b) = true :=
    List.pairwise_mergeSort
      (fun a b c hab hbc => by
        simp only [decide_eq_true_eq] at hab hbc ⊢
        exact hab.trans hbc)
      (fun a b => by simpa using le_total (key a) (key b)) l
  have hne : (l.mergeSort fun a b => key a ≤ key b).Pairwise fun a b => key a ≠ key b :=
    List.pairwise_map.1 (((List.mergeSort_perm l _).map key).nodup_iff.2 h)
  exact (hle.and hne).imp fun {a b} hab => lt_of_le_of_ne (of_decide_eq_true hab.1) hab.2

theorem Sorted.eq_of_mem_iff (h : Sorted key l) (h' : Sorted key l')
    (hmem : ∀ a, a ∈ l ↔ a ∈ l') : l = l' := by
  have : Std.Irrefl fun a b : α => key a < key b := ⟨fun a => lt_irrefl (key a)⟩
  have : Std.Antisymm fun a b : α => key a < key b :=
    ⟨fun a b hab hba => absurd hab hba.asymm⟩
  exact List.Pairwise.eq_of_mem_iff h h' hmem

theorem Sorted.nodup (h : Sorted key l) : (l.map key).Nodup :=
  List.pairwise_map.2 (h.imp fun hab => hab.ne)

/-- **Groups are told by their members**: sorted lists of groups that are not
empty, and that are themselves told by their members, are one if they have the
same members under every key. -/
theorem Sorted.ext {R : α → β → Prop} (h : Sorted key l) (h' : Sorted key l')
    (hfull : ∀ a ∈ l, ∃ b, R a b) (hfull' : ∀ a ∈ l', ∃ b, R a b)
    (hgroup : ∀ a ∈ l, ∀ a' ∈ l', key a = key a' → (∀ b, R a b ↔ R a' b) → a = a')
    (hmem : ∀ k b, (∃ a ∈ l, key a = k ∧ R a b) ↔ ∃ a ∈ l', key a = k ∧ R a b) : l = l' := by
  have hone : ∀ {m : List α}, Sorted key m → ∀ {a a'}, a ∈ m → a' ∈ m → key a = key a' → a = a' :=
    fun hm _ _ ha ha' => List.inj_on_of_nodup_map hm.nodup ha ha'
  have hsame : ∀ a ∈ l, ∀ a' ∈ l', key a = key a' → a = a' := by
    intro a ha a' ha' hkey
    refine hgroup a ha a' ha' hkey fun b => ⟨fun hb => ?_, fun hb => ?_⟩
    · obtain ⟨x, hx, hxkey, hxb⟩ := (hmem (key a) b).1 ⟨a, ha, rfl, hb⟩
      rwa [hone h' hx ha' (hxkey.trans hkey)] at hxb
    · obtain ⟨x, hx, hxkey, hxb⟩ := (hmem (key a') b).2 ⟨a', ha', rfl, hb⟩
      rwa [hone h hx ha (hxkey.trans hkey.symm)] at hxb
  refine h.eq_of_mem_iff h' fun a => ⟨fun ha => ?_, fun ha => ?_⟩
  · obtain ⟨b, hb⟩ := hfull a ha
    obtain ⟨a', ha', hkey, -⟩ := (hmem (key a) b).1 ⟨a, ha, rfl, hb⟩
    exact hsame a ha a' ha' hkey.symm ▸ ha'
  · obtain ⟨b, hb⟩ := hfull' a ha
    obtain ⟨a', ha', hkey, -⟩ := (hmem (key a) b).2 ⟨a, ha, rfl, hb⟩
    exact hsame a' ha' a ha hkey ▸ ha'

end Sorted

end Grouped

end OpenManet
