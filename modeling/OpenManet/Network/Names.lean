import OpenManet.Network.Services
import OpenManet.Lib.Uci.Raised
import OpenManet.Lib.Uci.Views
/-!
# Free names

The helpers that make a section look for a name that is not in use: the base,
then the base with one number after another. As many names are tried as make
it certain that one of them is free, so the search gives a name.
-/

namespace OpenManet

namespace Network

open Uci Fallible

theorem numbered_injective (base : String) {i j : Nat} (h : numbered base i = numbered base j) :
    i = j := by
  have hlist := congrArg String.toList h
  cases i with
  | zero =>
      cases j with
      | zero => rfl
      | succ j =>
          simp [numbered] at hlist
  | succ i =>
      cases j with
      | zero => simp [numbered] at hlist
      | succ j =>
          rw [numbered, numbered, String.toList_append, String.toList_append] at hlist
          exact repr_injective (String.toList_inj.1 (List.append_cancel_left hlist))

theorem plain_numbered {base : String} (hn : Plain base) (hne : base ≠ "") (k : Nat) :
    Plain (numbered base k) ∧ numbered base k ≠ "" := by
  cases k with
  | zero => exact ⟨hn, hne⟩
  | succ k => exact ⟨plain_append hn hne _, by simp [numbered, hne]⟩

/-- The program tells which of the names are in use in the tree, and leaves
the tree alone. -/
structure Tests (taken : String → Prog Bool) (base : String) (t : Tree) (used : String → Bool) :
    Prop where
  relays : ∀ k h, h.tree = t → Relays (taken (numbered base k)) h
  leaves : ∀ k h, h.tree = t → Leaves (taken (numbered base k)) h fun b h' =>
    h'.tree = t ∧ b = used (numbered base k)

section Search

variable {taken : String → Prog Bool} {t : Tree} {used : String → Bool} {base : String}
  {l : List String} {h : Host} {tries i : Nat}

/-- **The search ends well**, or where one of its calls fails: more names are
tried than are in use. -/
theorem relays_firstFree (ht : Tests taken base t used)
    (hused : ∀ k, used (numbered base k) = true → numbered base k ∈ l)
    (hbefore : ∀ k < i, used (numbered base k) = true) (hlength : l.length < i + tries)
    (hh : h.tree = t) : Relays (firstFree taken base tries i) h := by
  induction tries generalizing i h with
  | zero =>
      have hnodup : ((List.range i).map (numbered base)).Nodup :=
        List.Nodup.map (fun _ _ => numbered_injective base) List.nodup_range
      have hsub : (List.range i).map (numbered base) ⊆ l := by
        intro name hname
        obtain ⟨k, hk, rfl⟩ := List.mem_map.1 hname
        exact hused k (hbefore k (List.mem_range.1 hk))
      have hle := hnodup.length_le_of_subset hsub
      rw [List.length_map, List.length_range] at hle
      omega
  | succ tries ih =>
      refine relays_then (ht.relays _ h hh) (ht.leaves _ h hh) ?_
      rintro b h' ⟨hh', rfl⟩
      refine relays_ite (fun hyes => ?_) fun _ => relays_pure _
      refine ih (fun k hk => ?_) (by omega) hh'
      rcases Nat.lt_succ_iff_lt_or_eq.1 hk with hk | rfl
      · exact hbefore k hk
      · exact hyes

/-- **The search gives the first name that is free.** -/
theorem leaves_firstFree (ht : Tests taken base t used)
    (hbefore : ∀ k < i, used (numbered base k) = true) (hh : h.tree = t) :
    Leaves (firstFree taken base tries i) h fun name h' => h'.tree = t ∧
      ∃ k, name = numbered base k ∧ used name = false ∧
        ∀ j < k, used (numbered base j) = true := by
  induction tries generalizing i h with
  | zero => exact leaves_fail.2 trivial
  | succ tries ih =>
      rw [firstFree, leaves_bind]
      refine (ht.leaves _ h hh).mono ?_
      rintro b h' ⟨hh', rfl⟩
      rw [leaves_ite, leaves_pure]
      refine ⟨fun hyes => ih (fun k hk => ?_) hh', fun hno => ?_⟩
      · rcases Nat.lt_succ_iff_lt_or_eq.1 hk with hk | rfl
        · exact hbefore k hk
        · exact hyes
      · exact ⟨hh', i, rfl, by simpa using hno, hbefore⟩

end Search

end Network

end OpenManet
