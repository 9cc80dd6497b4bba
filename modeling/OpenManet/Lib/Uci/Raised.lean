import OpenManet.Lib.Uci.Frame
/-!
# Whose failure it is

A program over the tree fails where one of its calls fails, and then passes
the call's error on with words on where it struck, or it gives up on its own
account. `Relays` says that it only does the former.
-/

namespace OpenManet

namespace Uci

open Fallible

variable {α β : Type} {h : Host}

/-- The error is a call's, with words on where it struck. -/
inductive Raised : Err → Prop
  /-- The world refused the call. -/
  | refused : Raised refusal
  | missingConfig (config : String) : Raised (missingConfig config)
  | missingSection (config ref : String) : Raised (missingSection config ref)
  /-- A section is there under another type. -/
  | mismatch (config name got want : String) : Raised
      ⟨"type mismatch for " ++ config ++ "." ++ name ++ ", got " ++ got ++ ", want " ++ want, false⟩
  | said {e : Err} (what : String) : Raised e → Raised { e with text := what ++ ": " ++ e.text }

/-- What a call says when it fails. -/
def callTexts : List String :=
  ["input/output error", ": no such file or directory", "section not found: ", "type mismatch for "]

/-- A call's error still says so under the words added to it. -/
theorem Raised.says {e : Err} (h : Raised e) : ∃ w ∈ callTexts, w.toList <:+: e.text.toList := by
  induction h with
  | refused => exact ⟨"input/output error", by simp [callTexts], List.infix_rfl⟩
  | missingConfig config =>
      refine ⟨": no such file or directory", by simp [callTexts], ?_⟩
      show _ <:+: ("open " ++ config ++ ": no such file or directory").toList
      rw [String.toList_append]
      exact (List.suffix_append _ _).isInfix
  | missingSection config ref =>
      refine ⟨"section not found: ", by simp [callTexts], ?_⟩
      show _ <:+: ("section not found: " ++ config ++ "." ++ ref).toList
      rw [String.append_assoc, String.append_assoc, String.toList_append]
      exact (List.prefix_append _ _).isInfix
  | mismatch config name got want =>
      refine ⟨"type mismatch for ", by simp [callTexts], ?_⟩
      show _ <:+: ("type mismatch for " ++ config ++ "." ++ name ++ ", got " ++ got ++ ", want "
        ++ want).toList
      rw [String.append_assoc, String.append_assoc, String.append_assoc, String.append_assoc,
        String.append_assoc, String.append_assoc, String.toList_append]
      exact (List.prefix_append _ _).isInfix
  | said what _ ih =>
      obtain ⟨w, hw, hinfix⟩ := ih
      refine ⟨w, hw, hinfix.trans ?_⟩
      rw [String.toList_append]
      exact (List.suffix_append _ _).isInfix

/-- **The program fails only where one of its calls does.** -/
def Relays (m : Prog α) (h : Host) : Prop := ∀ e h', m h = .error e h' → Raised e

/-! ## Sequences -/

theorem relays_pure (a : α) : Relays (pure a) h := fun _ _ hno => by cases hno

/-- The rest is run only where the first has ended well. -/
theorem relays_bind_of {m : Prog α} {f : α → Prog β} (hm : Relays m h)
    (hf : ∀ a h', m h = .ok a h' → Relays (f a) h') : Relays (m >>= f) h := by
  intro e h' herr
  rcases bind_eq_error.1 herr with herr | ⟨a, t, hok, herr⟩
  · exact hm e h' herr
  · exact hf a t hok e h' herr

theorem relays_bind {m : Prog α} {f : α → Prog β} (hm : Relays m h)
    (hf : ∀ a h', Relays (f a) h') : Relays (m >>= f) h :=
  relays_bind_of hm fun a h' _ => hf a h'

/-- What is known of the first's end goes into the rest. -/
theorem relays_then {m : Prog α} {f : α → Prog β} {Q : α → Host → Prop} (hm : Relays m h)
    (hends : Leaves m h Q) (hf : ∀ a h', Q a h' → Relays (f a) h') : Relays (m >>= f) h :=
  relays_bind_of hm fun a h' hok => hf a h' (hends a h' hok)

theorem relays_tree_bind {f : Tree → Prog β} (hf : Relays (f h.tree) h) :
    Relays (tree >>= f) h := by
  refine relays_bind_of (fun _ _ hno => by cases hno) fun t h' hok => ?_
  obtain ⟨rfl, rfl⟩ := EStateM.Result.ok.inj hok
  exact hf

theorem relays_ite {c : Prop} [Decidable c] {m m' : Prog α} (hm : c → Relays m h)
    (hm' : ¬ c → Relays m' h) : Relays (if c then m else m') h := by
  split
  · next hc => exact hm hc
  · next hc => exact hm' hc

theorem relays_onlyIf {c : Prop} [Decidable c] {m : Prog Unit} (hm : c → Relays m h) :
    Relays (onlyIf c m) h :=
  relays_ite hm fun _ => relays_pure ()

theorem relays_saying {what : String} {m : Prog α} (hm : Relays m h) :
    Relays (saying what m) h := by
  intro e h' herr
  unfold saying wrapped at herr
  cases hrun : m h with
  | ok a t => simp [hrun] at herr
  | error e' t =>
      rw [hrun] at herr
      obtain ⟨rfl, rfl⟩ := EStateM.Result.error.inj herr
      exact (hm e' _ hrun).said what

theorem relays_ignored {m : Prog Unit} : Relays (ignored m) h := fun _ _ hno => by cases hno

theorem relays_attempt {m : Prog α} : Relays (attempt m) h := by
  intro e h' herr
  obtain ⟨r, hok⟩ := attempt_run m h
  rw [hok] at herr
  cases herr

theorem relays_forM_of_mem {f : α → Prog PUnit} {l : List α}
    (hf : ∀ a ∈ l, ∀ h, Relays (f a) h) : Relays (l.forM f) h := by
  induction l generalizing h with
  | nil => exact relays_pure _
  | cons a l ih =>
      exact relays_bind (hf a (List.mem_cons_self ..) h) fun _ h' =>
        ih fun b hb => hf b (List.mem_cons_of_mem _ hb)

theorem relays_forM {f : α → Prog PUnit} {l : List α} (hf : ∀ a h, Relays (f a) h) :
    Relays (l.forM f) h :=
  relays_forM_of_mem fun a _ => hf a

theorem relays_foldlM {f : β → α → Prog β} {l : List α} {b : β}
    (hf : ∀ b a h, Relays (f b a) h) : Relays (l.foldlM f b) h := by
  induction l generalizing b h with
  | nil => exact relays_pure _
  | cons a l ih =>
      rw [List.foldlM_cons]
      exact relays_bind (hf b a h) fun b' h' => ih

/-! ## Calls -/

section Calls

variable {config ref option name type : String}

theorem relays_call {f : Tree → Except Err (α × Tree)} (hf : ∀ e, f h.tree = .error e → Raised e) :
    Relays (call f) h := by
  intro e h' herr
  unfold call at herr
  dsimp only at herr
  split at herr
  · obtain ⟨rfl, -⟩ := EStateM.Result.error.inj herr
    exact .refused
  · split at herr
    · cases herr
    · next e' hfail =>
      obtain ⟨rfl, -⟩ := EStateM.Result.error.inj herr
      exact hf _ hfail

theorem relays_getSections : Relays (getSections config type) h := by
  refine relays_call fun e herr => ?_
  split at herr
  · cases herr
  · obtain rfl := Except.error.inj herr
    exact .missingConfig _

theorem relays_editSection {f : Table (List String) → Table (List String)} :
    Relays (editSection config ref f) h := by
  refine relays_call fun e herr => ?_
  split at herr
  · split at herr
    · cases herr
    · obtain rfl := Except.error.inj herr
      exact .missingSection _ _
  · obtain rfl := Except.error.inj herr
    exact .missingConfig _

theorem relays_setType {values : List String} : Relays (setType config ref option values) h :=
  relays_editSection

theorem relays_del : Relays (del config ref option) h := relays_editSection

theorem relays_addSection : Relays (addSection config name type) h := by
  refine relays_call fun e herr => ?_
  dsimp only at herr
  split at herr
  · split at herr
    · cases herr
    · obtain rfl := Except.error.inj herr
      exact .mismatch _ _ _ _
  · cases herr

theorem relays_delSection : Relays (delSection config ref) h := by
  refine relays_call fun e herr => ?_
  split at herr
  · cases herr
  · obtain rfl := Except.error.inj herr
    exact .missingConfig _

theorem relays_commit : Relays commit h := by
  intro e h' herr
  unfold commit at herr
  dsimp only at herr
  split at herr
  · obtain ⟨rfl, -⟩ := EStateM.Result.error.inj herr
    exact .refused
  · cases herr

theorem relays_setOptions {what : String → String} {writes : List (String × String)} :
    Relays (setOptions config ref what writes) h :=
  relays_forM fun _ _ => relays_saying relays_setType

end Calls

end Uci

end OpenManet
