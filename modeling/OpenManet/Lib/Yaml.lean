import Mathlib.Data.List.Pairwise
/-!
# YAML trees and edits by key

A document as a tree of nodes, of the three kinds an edit can meet. `Content` of
a mapping is keys and values in turn, here as pairs; of a sequence its items; a
scalar has none when it is read, and what is put there is not written. The text
of a collection (`Value`) is never written or read, and left out.

An edit goes to a key of a node and changes or adds what stands there, whatever
the kind of the node. `Edits` says what a chain of such edits does to the
values at every path, where every node on the way is a mapping or not there yet:
the edits that compose to a change of settings compose its specification.
-/

namespace OpenManet

namespace Yaml

/-- `yaml.Node`. -/
inductive Node where
  | scalar (tag text : String) (content : List (Node × Node))
  | sequence (tag : String) (items : List Node)
  | mapping (tag : String) (content : List (Node × Node))

namespace Node

/-- `Value`. -/
def text : Node → String
  | scalar _ text _ => text
  | _ => ""

/-- `Kind` is `ScalarNode`. -/
def isScalar : Node → Bool
  | scalar _ _ _ => true
  | _ => false

/-- `Kind` is `MappingNode`. -/
def isMapping : Node → Bool
  | mapping _ _ => true
  | _ => false

mutual

/-- What is written of a node: a scalar by its tag and its text, a collection
from its children. -/
def written : Node → Node
  | scalar tag text _ => scalar tag text []
  | sequence tag items => sequence tag (writtenItems items)
  | mapping tag content => mapping tag (writtenPairs content)

def writtenItems : List Node → List Node
  | [] => []
  | n :: items => n.written :: writtenItems items

def writtenPairs : List (Node × Node) → List (Node × Node)
  | [] => []
  | (k, v) :: content => (k.written, v.written) :: writtenPairs content

end

mutual

/-- What is written is read back as it is. -/
theorem written_written : (n : Node) → n.written.written = n.written
  | scalar _ _ _ => by simp only [written]
  | sequence _ items => by rw [written, written, writtenItems_written items]
  | mapping _ content => by rw [written, written, writtenPairs_written content]

theorem writtenItems_written : (items : List Node) →
    writtenItems (writtenItems items) = writtenItems items
  | [] => rfl
  | n :: items => by
    rw [writtenItems, writtenItems, written_written n, writtenItems_written items]

theorem writtenPairs_written : (content : List (Node × Node)) →
    writtenPairs (writtenPairs content) = writtenPairs content
  | [] => rfl
  | (k, v) :: content => by
    rw [writtenPairs, writtenPairs, written_written k, written_written v,
      writtenPairs_written content]

end

@[simp] theorem text_written (n : Node) : n.written.text = n.text := by
  cases n <;> simp only [written, text]

@[simp] theorem isMapping_written (n : Node) : n.written.isMapping = n.isMapping := by
  cases n <;> simp only [written, isMapping]

/-! ## Paths -/

/-- The value under a key. -/
def lookup (key : String) : List (Node × Node) → Option Node
  | [] => none
  | (k, v) :: content => if k.text = key then some v else lookup key content

theorem lookup_written (key : String) (content : List (Node × Node)) :
    lookup key (writtenPairs content) = (lookup key content).map written := by
  induction content with
  | nil => rfl
  | cons kv content ih =>
      simp only [writtenPairs, lookup, text_written, ih]
      split <;> rfl

/-- The node at a path of keys. -/
def nodeAt : Node → List String → Option Node
  | n, [] => some n
  | mapping _ content, key :: path =>
      match lookup key content with
      | some v => nodeAt v path
      | none => none
  | _, _ :: _ => none

/-- The value at a path of keys, as it is read back: a mapping has none of its
own. -/
def valueAt (n : Node) (path : List String) : Option Node :=
  match nodeAt n path with
  | some v => if v.isMapping then none else some v.written
  | none => none

theorem nodeAt_written (n : Node) (path : List String) :
    n.written.nodeAt path = (n.nodeAt path).map written := by
  induction path generalizing n with
  | nil => rfl
  | cons key path ih =>
      cases n with
      | scalar => simp only [written, nodeAt, Option.map_none]
      | sequence => simp only [written, nodeAt, Option.map_none]
      | mapping tag content =>
          simp only [written, nodeAt, lookup_written]
          cases lookup key content with
          | none => rfl
          | some v => exact ih v

/-- **Reading back changes no value.** -/
theorem valueAt_written (n : Node) (path : List String) :
    n.written.valueAt path = n.valueAt path := by
  unfold valueAt
  rw [nodeAt_written]
  cases n.nodeAt path with
  | none => rfl
  | some v => simp only [Option.map_some, isMapping_written, written_written]

theorem valueAt_mapping_cons (tag : String) (content : List (Node × Node)) (key : String)
    (path : List String) :
    (mapping tag content).valueAt (key :: path) =
      (lookup key content).elim none (·.valueAt path) := by
  unfold valueAt
  rw [nodeAt]
  cases lookup key content <;> rfl

theorem valueAt_cons_of_not_mapping {n : Node} (h : n.isMapping = false) (key : String)
    (path : List String) : n.valueAt (key :: path) = none := by
  cases n with
  | mapping => simp [isMapping] at h
  | _ => rfl

/-- **A setting can be taken at a path**: what stands on the way is a mapping or
not there, and what stands at its end is a scalar or not there. -/
def Takes : Node → List String → Prop
  | _, [] => False
  | mapping _ content, [key] => ∀ v, lookup key content = some v → v.isScalar = true
  | mapping _ content, key :: next :: path =>
      ∀ v, lookup key content = some v → Takes v (next :: path)
  | _, _ :: _ => False

/-- Where a setting is, one can be. -/
theorem takes_of_valueAt {n : Node} {path : List String} {tag text : String} (hne : path ≠ [])
    (h : n.valueAt path = some (scalar tag text [])) : n.Takes path := by
  induction path generalizing n with
  | nil => exact absurd rfl hne
  | cons key path ih =>
      cases n with
      | scalar => simp [valueAt, nodeAt] at h
      | sequence => simp [valueAt, nodeAt] at h
      | mapping t content =>
          rw [valueAt_mapping_cons] at h
          cases path with
          | nil =>
              intro v hv
              rw [hv] at h
              cases v with
              | scalar => rfl
              | sequence => simp [valueAt, nodeAt, isMapping, written] at h
              | mapping => simp [valueAt, nodeAt, isMapping] at h
          | cons next path =>
              intro v hv
              rw [hv] at h
              exact ih (List.cons_ne_nil _ _) h

/-! ## Edits -/

/-- To the value under a key, or to a new pair at the end. -/
def onPairs (key : String) (f : Node → Node) (new : Node) : List (Node × Node) → List (Node × Node)
  | [] => [(scalar "!!str" key [], new)]
  | (k, v) :: content => if k.text = key then (k, f v) :: content else
      (k, v) :: onPairs key f new content

/-- The same over the items of a sequence, taken two at a time. -/
def onItems (key : String) (f : Node → Node) (new : Node) : List Node → List Node
  | k :: v :: items => if k.text = key then k :: f v :: items else
      k :: v :: onItems key f new items
  | items => items ++ [scalar "!!str" key [], new]

/-- To the content of a node of any kind. -/
def place (key : String) (f : Node → Node) (new : Node) : Node → Node
  | scalar tag text content => scalar tag text (onPairs key f new content)
  | sequence tag items => sequence tag (onItems key f new items)
  | mapping tag content => mapping tag (onPairs key f new content)

theorem lookup_onPairs (key key' : String) (f : Node → Node) (new : Node)
    (content : List (Node × Node)) :
    lookup key' (onPairs key f new content) =
      if key = key' then some ((lookup key content).elim new f) else lookup key' content := by
  induction content with
  | nil => rfl
  | cons kv content ih =>
      obtain ⟨k, v⟩ := kv
      unfold onPairs
      by_cases hk : k.text = key
      · by_cases hkey : key = key'
        · simp [lookup, hk, ← hkey]
        · simp [lookup, hk, hkey]
      · by_cases hkey : key = key'
        · subst hkey
          simp [lookup, hk, ih]
        · simp [lookup, hk, ih, hkey]

/-- Neither of two paths leads over the other. -/
def Apart (p q : List String) : Prop := ¬p <+: q ∧ ¬q <+: p

instance (p q : List String) : Decidable (Apart p q) := inferInstanceAs (Decidable (_ ∧ _))

theorem apart_cons_iff (key : String) (p q : List String) :
    Apart (key :: p) (key :: q) ↔ Apart p q := by
  simp [Apart]

/-- A value that is asked for at a path. -/
structure Setting where
  path : List String
  tag : String
  text : String

/-- The setting, under one more key. -/
def Setting.under (key : String) (o : Setting) : Setting := { o with path := key :: o.path }

/-- **What a chain of edits does**: it keeps the kind of the node, takes no path
from another setting and gives it none, and puts every setting where it belongs
and nothing else anywhere, where every setting can be taken. -/
structure Edits (f : Node → Node) (settings : List Setting) : Prop where
  path_ne : ∀ o ∈ settings, o.path ≠ []
  kind : ∀ n, (f n).isMapping = n.isMapping
  takes : ∀ n p, (∀ o ∈ settings, o.path = p ∨ Apart o.path p) → ((f n).Takes p ↔ n.Takes p)
  put : ∀ n, (∀ o ∈ settings, n.Takes o.path) → ∀ o ∈ settings,
    (f n).valueAt o.path = some (scalar o.tag o.text [])
  frame : ∀ n, (∀ o ∈ settings, n.Takes o.path) → ∀ p, p ∉ settings.map (·.path) →
    (f n).valueAt p = n.valueAt p

/-- `Tag` and `Value` are set. -/
def retag (tag text : String) : Node → Node
  | scalar _ _ content => scalar tag text content
  | sequence _ items => sequence tag items
  | mapping _ content => mapping tag content

@[simp] theorem isScalar_retag (tag text : String) (n : Node) :
    (retag tag text n).isScalar = n.isScalar := by
  cases n <;> rfl

@[simp] theorem isMapping_place (key : String) (f : Node → Node) (new n : Node) :
    (place key f new n).isMapping = n.isMapping := by
  cases n <;> rfl

/-- Only a mapping takes settings. -/
theorem not_takes_of_not_mapping {n : Node} (h : n.isMapping = false) (p : List String) :
    ¬n.Takes p := by
  cases n with
  | mapping => simp [isMapping] at h
  | _ => cases p <;> simp [Takes]

/-- An edit under one key leaves the paths that begin with another. -/
theorem valueAt_place_of_ne {key key' : String} (h : key ≠ key') (f : Node → Node) (new n : Node)
    (p : List String) : (place key f new n).valueAt (key' :: p) = n.valueAt (key' :: p) := by
  cases n with
  | mapping tag content =>
      rw [place, valueAt_mapping_cons, valueAt_mapping_cons, lookup_onPairs, if_neg h]
  | _ =>
      rw [valueAt_cons_of_not_mapping rfl, valueAt_cons_of_not_mapping rfl]

theorem valueAt_place_nil (key : String) (f : Node → Node) (new : Node) {n : Node}
    (h : n.isMapping = true) : (place key f new n).valueAt [] = n.valueAt [] := by
  simp [valueAt, nodeAt, h]

theorem takes_place_of_ne {key key' : String} (h : key ≠ key') (f : Node → Node) (new n : Node)
    (p : List String) : (place key f new n).Takes (key' :: p) ↔ n.Takes (key' :: p) := by
  cases n with
  | mapping tag content =>
      cases p <;> simp only [place, Takes, lookup_onPairs, if_neg h]
  | _ => exact iff_of_false (not_takes_of_not_mapping rfl _) (not_takes_of_not_mapping rfl _)

namespace Edits

variable {f g : Node → Node} {settings settings' : List Setting}

/-- **One setting.** -/
theorem set (key tag text : String) :
    Edits (place key (retag tag text) (scalar tag text [])) [⟨[key], tag, text⟩] where
  path_ne := by simp
  kind n := isMapping_place _ _ _ n
  takes n p hp := by
    have hp := hp ⟨[key], tag, text⟩ List.mem_cons_self
    cases p with
    | nil => cases n <;> exact Iff.rfl
    | cons key' p =>
        by_cases hkey : key = key'
        · subst hkey
          cases p with
          | cons => simp [Apart] at hp
          | nil =>
              cases n with
              | mapping t content =>
                  simp only [place, Takes, lookup_onPairs, if_true, Option.some.injEq,
                    forall_eq']
                  cases lookup key content with
                  | none => simp [isScalar]
                  | some v => simp
              | _ => exact Iff.rfl
        · exact takes_place_of_ne hkey _ _ n p
  put n hn o ho := by
    obtain rfl := List.mem_singleton.1 ho
    have hn := hn _ List.mem_cons_self
    cases n with
    | mapping t content =>
        rw [place, valueAt_mapping_cons, lookup_onPairs, if_pos rfl]
        cases hv : lookup key content with
        | none => simp [valueAt, nodeAt, isMapping, written]
        | some v =>
            have hscalar := hn v hv
            cases v with
            | scalar => simp [valueAt, nodeAt, isMapping, written, retag]
            | _ => simp [isScalar] at hscalar
    | _ => exact absurd hn (not_takes_of_not_mapping rfl _)
  frame n hn p hp := by
    have hn := hn _ List.mem_cons_self
    cases p with
    | nil =>
        refine valueAt_place_nil _ _ _ ?_
        by_contra hmapping
        exact not_takes_of_not_mapping (by simpa using hmapping) _ hn
    | cons key' p =>
        by_cases hkey : key = key'
        · subst hkey
          cases p with
          | nil => simp at hp
          | cons next p =>
              cases n with
              | mapping t content =>
                  -- Under a scalar, or under nothing, there is nothing.
                  rw [place, valueAt_mapping_cons, valueAt_mapping_cons, lookup_onPairs, if_pos rfl]
                  cases hv : lookup key content with
                  | none => rfl
                  | some v =>
                      have hscalar := hn v hv
                      cases v with
                      | scalar => rfl
                      | _ => simp [isScalar] at hscalar
              | _ => exact absurd hn (not_takes_of_not_mapping rfl _)
        · exact valueAt_place_of_ne hkey _ _ n p

/-- **One edit after another**, of settings that are apart. -/
theorem comp (hf : Edits f settings) (hg : Edits g settings')
    (hapart : ∀ o ∈ settings, ∀ o' ∈ settings', Apart o.path o'.path) :
    Edits (fun n => g (f n)) (settings ++ settings') := by
  have htakes : ∀ n, (∀ o ∈ settings ++ settings', n.Takes o.path) →
      (∀ o ∈ settings, n.Takes o.path) ∧ ∀ o ∈ settings', (f n).Takes o.path := by
    intro n hn
    refine ⟨fun o ho => hn o (List.mem_append_left _ ho), fun o ho => ?_⟩
    exact (hf.takes n o.path fun o' ho' => Or.inr (hapart o' ho' o ho)).2
      (hn o (List.mem_append_right _ ho))
  refine ⟨fun o ho => ?_, fun n => (hg.kind _).trans (hf.kind n), fun n p hp => ?_,
    fun n hn o ho => ?_, fun n hn p hp => ?_⟩
  · exact (List.mem_append.1 ho).elim (hf.path_ne o) (hg.path_ne o)
  · exact (hg.takes (f n) p fun o ho => hp o (List.mem_append_right _ ho)).trans
      (hf.takes n p fun o ho => hp o (List.mem_append_left _ ho))
  · obtain ⟨hleft, hright⟩ := htakes n hn
    rcases List.mem_append.1 ho with ho | ho
    · rw [hg.frame (f n) hright]
      · exact hf.put n hleft o ho
      · intro hmem
        obtain ⟨o', ho', hpath⟩ := List.mem_map.1 hmem
        exact (hapart o ho o' ho').1 (hpath ▸ List.prefix_refl _)
    · exact hg.put (f n) hright o ho
  · obtain ⟨hleft, hright⟩ := htakes n hn
    rw [List.map_append, List.mem_append, not_or] at hp
    rw [hg.frame (f n) hright p hp.2, hf.frame n hleft p hp.1]

/-- **A chain of edits under one more key**: found there, or made on a new
mapping. -/
theorem under (hf : Edits f settings) (hne : settings ≠ []) (key : String) :
    Edits (place key f (f (mapping "!!map" []))) (settings.map (Setting.under key)) := by
  obtain ⟨o₀, ho₀⟩ := List.exists_mem_of_ne_nil settings hne
  have hnew : ∀ p, p ≠ [] → (mapping "!!map" []).Takes p := by
    intro p hp
    cases p with
    | nil => exact absurd rfl hp
    | cons key p => cases p <;> · intro v hv; simp [lookup] at hv
  -- Where the settings can be taken, they can be under the key.
  have hunder : ∀ {t content}, (∀ o ∈ settings.map (Setting.under key),
      (mapping t content).Takes o.path) → ∀ v, lookup key content = some v →
      ∀ o ∈ settings, v.Takes o.path := by
    intro t content hn v hv o ho
    have htake := hn _ (List.mem_map_of_mem ho)
    have hpath := hf.path_ne o ho
    cases hp : o.path with
    | nil => exact absurd hp hpath
    | cons next path =>
        rw [Setting.under, hp] at htake
        exact htake v hv
  have hmapping : ∀ n : Node, (∀ o ∈ settings.map (Setting.under key), n.Takes o.path) →
      n.isMapping = true := by
    intro n hn
    by_contra hnot
    exact not_takes_of_not_mapping (by simpa using hnot) _ (hn _ (List.mem_map_of_mem ho₀))
  refine ⟨fun o ho => ?_, fun n => isMapping_place _ _ _ n, fun n p hp => ?_,
    fun n hn o ho => ?_, fun n hn p hp => ?_⟩
  · obtain ⟨o', -, rfl⟩ := List.mem_map.1 ho
    exact List.cons_ne_nil _ _
  · cases p with
    | nil => cases n <;> exact Iff.rfl
    | cons key' p =>
        by_cases hkey : key = key'
        · subst hkey
          have hp' : ∀ o ∈ settings, o.path = p ∨ Apart o.path p := fun o ho =>
            (hp _ (List.mem_map_of_mem ho)).imp (fun h => (List.cons.inj h).2)
              ((apart_cons_iff _ _ _).1)
          cases p with
          | nil =>
              -- The key itself holds the settings and can be none of them.
              rcases hp' o₀ ho₀ with hnil | hapart
              · exact absurd hnil (hf.path_ne o₀ ho₀)
              · exact absurd List.nil_prefix hapart.2
          | cons next p =>
              cases n with
              | mapping t content =>
                  simp only [place, Takes, lookup_onPairs, if_true, Option.some.injEq, forall_eq']
                  cases lookup key content with
                  | none =>
                      refine iff_of_true ?_ (by simp)
                      exact (hf.takes _ _ hp').2 (hnew _ (List.cons_ne_nil _ _))
                  | some v => simpa using hf.takes v _ hp'
              | _ => exact Iff.rfl
        · exact takes_place_of_ne hkey _ _ n p
  · obtain ⟨o', ho', rfl⟩ := List.mem_map.1 ho
    have hkind := hmapping n hn
    cases n with
    | mapping t content =>
        show (place _ _ _ _).valueAt (key :: o'.path) = _
        rw [place, valueAt_mapping_cons, lookup_onPairs, if_pos rfl]
        cases hv : lookup key content with
        | none => exact hf.put _ (fun o ho => hnew _ (hf.path_ne o ho)) o' ho'
        | some v => exact hf.put v (hunder hn v hv) o' ho'
    | _ => simp [isMapping] at hkind
  · have hkind := hmapping n hn
    cases p with
    | nil => exact valueAt_place_nil _ _ _ hkind
    | cons key' p =>
        by_cases hkey : key = key'
        · subst hkey
          have hp' : p ∉ settings.map (·.path) := fun hmem => by
            obtain ⟨o, ho, rfl⟩ := List.mem_map.1 hmem
            exact hp (List.mem_map.2 ⟨_, List.mem_map_of_mem ho, rfl⟩)
          cases n with
          | mapping t content =>
              rw [place, valueAt_mapping_cons, valueAt_mapping_cons, lookup_onPairs, if_pos rfl]
              cases hv : lookup key content with
              | none =>
                  refine (hf.frame _ (fun o ho => hnew _ (hf.path_ne o ho)) p hp').trans ?_
                  cases p <;> rfl
              | some v => exact hf.frame v (hunder hn v hv) p hp'
          | _ => simp [isMapping] at hkind
        · exact valueAt_place_of_ne hkey _ _ n p

end Edits

/-- **What a caller asks for**: the settings, and everything else as it was. -/
def Asked (settings : List Setting) (before after : Node) : Prop :=
  (∀ o ∈ settings, after.valueAt o.path = some (scalar o.tag o.text [])) ∧
    ∀ p, p ∉ settings.map (·.path) → after.valueAt p = before.valueAt p

/-- **An edit does what it is asked to do exactly where every setting can be
taken.** -/
theorem Edits.asked_iff {f : Node → Node} {settings : List Setting} (h : Edits f settings)
    (hapart : settings.Pairwise fun o o' => Apart o.path o'.path) (n : Node) :
    Asked settings n (f n) ↔ ∀ o ∈ settings, n.Takes o.path := by
  constructor
  · intro hasked o ho
    refine (h.takes n o.path fun o' ho' => ?_).1 (takes_of_valueAt (h.path_ne o ho) (hasked.1 o ho))
    let R : Setting → Setting → Prop := fun a b => a.path = b.path ∨ Apart a.path b.path
    have : Std.Symm R := ⟨fun a b hab => hab.imp Eq.symm And.symm⟩
    have hR : settings.Pairwise R := hapart.imp Or.inr
    exact hR.forall_of_forall (R := R) (fun a _ => Or.inl rfl) ho' ho
  · intro htakes
    exact ⟨h.put n htakes, h.frame n htakes⟩

/-! ## Edits that set nothing -/

theorem edits_id : Edits id [] where
  path_ne := by simp
  kind _ := rfl
  takes _ _ _ := Iff.rfl
  put := by simp
  frame _ _ _ _ := rfl

/-- A key among the items of a sequence, taken two at a time. -/
def hasPair (key : String) : List Node → Bool
  | k :: _ :: items => k.text = key || hasPair key items
  | _ => false

theorem length_writtenItems (items : List Node) : (writtenItems items).length = items.length := by
  induction items with
  | nil => rfl
  | cons n items ih => simp [writtenItems, ih]

/-- A key that is not there is made, and the sequence is longer by it. -/
theorem onItems_id_eq_iff (key : String) (new : Node) (items : List Node) :
    (onItems key id new items).length = items.length ↔ hasPair key items = true := by
  induction items using hasPair.induct with
  | case1 k v items ih =>
      unfold onItems hasPair
      by_cases hk : k.text = key
      · simp [hk]
      · simpa [hk] using ih
  | case2 items hne =>
      have hlen : (onItems key id new items).length = items.length + 2 := by
        unfold onItems
        split
        · exact absurd rfl (hne _ _ _)
        · simp
      have hpair : hasPair key items = false := by
        unfold hasPair
        split
        · exact absurd rfl (hne _ _ _)
        · rfl
      rw [hlen, hpair]
      simp

/-- And one that is there is left. -/
theorem onItems_id (key : String) (new : Node) {items : List Node} (h : hasPair key items = true) :
    onItems key id new items = items := by
  induction items using hasPair.induct with
  | case1 k v items ih =>
      unfold onItems
      unfold hasPair at h
      by_cases hk : k.text = key
      · simp [hk]
      · simp only [hk, decide_false, Bool.false_or] at h
        simp [hk, ih h]
  | case2 items hne =>
      unfold hasPair at h
      split at h
      · exact absurd rfl (hne _ _ _)
      · simp at h

/-- What is done under a key of a mapping changes no value, if it changes none
there. -/
theorem place_keeps_iff (key : String) {f : Node → Node} {new : Node}
    (hnew : ∀ p, new.valueAt p = none) (tag : String) (content : List (Node × Node)) :
    (∀ p, (place key f new (mapping tag content)).valueAt p = (mapping tag content).valueAt p) ↔
      ∀ v, lookup key content = some v → ∀ p, (f v).valueAt p = v.valueAt p := by
  constructor
  · intro h v hv p
    have hvalue := h (key :: p)
    rwa [place, valueAt_mapping_cons, valueAt_mapping_cons, lookup_onPairs, if_pos rfl, hv] at hvalue
  · intro h p
    cases p with
    | nil => exact valueAt_place_nil _ _ _ rfl
    | cons key' p =>
        by_cases hkey : key = key'
        · subst hkey
          rw [place, valueAt_mapping_cons, valueAt_mapping_cons, lookup_onPairs, if_pos rfl]
          cases hv : lookup key content with
          | some v => exact h v hv p
          | none => exact hnew p
        · exact valueAt_place_of_ne hkey _ _ _ p

/-- **Finding or making a mapping changes no value**, but in a sequence that has
not got the key. -/
theorem place_id_keeps_iff (key : String) (n : Node) :
    (∀ p, (place key id (mapping "!!map" []) n).valueAt p = n.valueAt p) ↔
      ∀ tag items, n = sequence tag items → hasPair key items = true := by
  cases n with
  | scalar tag text content =>
      refine iff_of_true (fun p => ?_) (by simp)
      cases p with
      | nil => simp [place, valueAt, nodeAt, isMapping, written]
      | cons key' p => rw [valueAt_cons_of_not_mapping rfl, valueAt_cons_of_not_mapping rfl]
  | sequence tag items =>
      constructor
      · rintro h _ _ ⟨⟩
        have hvalue := h []
        simp only [place, valueAt, nodeAt, isMapping, written, Bool.false_eq_true, if_false,
          Option.some.injEq, sequence.injEq, true_and] at hvalue
        refine (onItems_id_eq_iff key (mapping "!!map" []) items).1 ?_
        rw [← length_writtenItems, hvalue, length_writtenItems]
      · intro h p
        rw [place, onItems_id key _ (h tag items rfl)]
  | mapping tag content =>
      have hnew : ∀ p, (mapping "!!map" []).valueAt p = none := fun p => by cases p <;> rfl
      exact iff_of_true ((place_keeps_iff key hnew tag content).2 fun _ _ _ => rfl) (by simp)

end Node

end Yaml

end OpenManet
