import Mathlib.Data.List.Basic
/-!
# Settings that are merged into the configuration file

`handleSettingsConfigPost` and `deepMerge` of `internal/frontend/handlers.go`: what
is posted is merged into what the file is read as, and the result is written over
the file. A map is merged with a map and anything else is replaced.

A document is a tree of maps under text keys. The reader makes another kind of map
where a key is no text, which `deepMerge` does not take for one; and what is no
map, lists included, is a leaf. What `yaml.v3` does with a text is given (`Codec`),
and so is what the disk does (`Disk`). The maps of a program have each key once, in
no order; a list of entries is the order in which one is walked.

The post is not safe for every file (`handleSettingsConfigPost_safe_iff`): an error of
reading or parsing is dropped, and the file is overwritten with what was posted.
-/

namespace OpenManet

namespace SettingsConfig

/-! ## Documents -/

/-- A key of a map: a text, or what else a document may have there. -/
inductive Key (α : Type)
  | text (k : String)
  | other (a : α)
  deriving DecidableEq

/-- What stands at a key. -/
inductive Tree (α : Type)
  | leaf (a : α)
  /-- `map[string]any`. -/
  | map (entries : List (String × Tree α))
  /-- `map[any]any`, which is made where a key is no text, and that key first. -/
  | anyMap (key : α) (value : Tree α) (entries : List (Key α × Tree α))

/-- `map[string]any`. -/
abbrev Map (α : Type) := List (String × Tree α)

variable {α B : Type}

/-- `m[key]`. -/
def get (m : Map α) (key : String) : Option (Tree α) :=
  match m with
  | [] => none
  | (k, v) :: m => if k = key then some v else get m key

/-- `m[key] = v`. -/
def set (m : Map α) (key : String) (v : Tree α) : Map α :=
  match m with
  | [] => [(key, v)]
  | (k, w) :: m => if k = key then (k, v) :: m else (k, w) :: set m key v

/-- `delete(m, key)`. -/
def delete (m : Map α) (key : String) : Map α := m.filter fun e => e.1 ≠ key

/-! ## Merging -/

mutual

/-- What is put at a key of the file, from what stands there and what is posted. -/
def mergeValue : Option (Tree α) → Tree α → Tree α
  | some (.map dstMap), .map srcMap => .map (deepMerge dstMap srcMap)
  | _, srcVal => srcVal

/-- `deepMerge`. -/
def deepMerge (dst : Map α) : Map α → Map α
  | [] => dst
  | (key, srcVal) :: src => deepMerge (set dst key (mergeValue (get dst key) srcVal)) src

end

mutual

/-- What a JSON value is decoded into: its keys are texts. -/
def Tree.Json : Tree α → Prop
  | .leaf _ => True
  | .map entries => Json entries
  | .anyMap _ _ _ => False

/-- What a JSON object is decoded into: each key is there once. -/
def Json : Map α → Prop
  | [] => True
  | (key, v) :: m => (∀ e ∈ m, e.1 ≠ key) ∧ v.Json ∧ Json m

end

/-- A posted JSON object. -/
structure Posted (α : Type) where
  entries : Map α
  json : Json entries

/-! ## The request -/

/-- What `yaml.v3` does with a text, and which leaves are `bool`s. -/
structure Codec (α B : Type) where
  /-- `Unmarshal` into an empty map: what it holds afterwards, `none` if it is nil,
  and the error. -/
  unmarshal : B → Option (Map α) × Option String
  marshal : Option (Map α) → Except String B
  bool : α → Option Bool

/-- The file at the path of the configuration. -/
inductive File (B : Type)
  | missing
  | unreadable (err : String)
  | bytes (data : B)

/-- The file, and what the disk answers. -/
structure Disk (B : Type) where
  file : File B
  /-- What `os.MkdirAll` fails with. -/
  mkdir : Option String
  /-- What `os.WriteFile` fails with, and the file it leaves then. -/
  write : Option (String × File B)

/-- What becomes of a request. -/
inductive Answer
  | panicked
  | error (status : ℕ) (message : String)
  | saved
  deriving DecidableEq

/-- The answer, the file afterwards, and whether the service is restarted. -/
structure Outcome (B : Type) where
  answer : Answer
  file : File B
  restarted : Bool

/-- `restart_service`. -/
def controlKey : String := "restart_service"

variable (y : Codec α B) (d : Disk B)

/-- `existing`, which is nil where the file holds `null`. -/
def existing : Option (Map α) :=
  match d.file with
  | .missing => some []
  | .unreadable _ => some []
  | .bytes data => (y.unmarshal data).1

/-- `deepMerge(existing, incoming)`. A key cannot be set in a nil map. -/
def mergeInto (existing : Option (Map α)) (incoming : Map α) : Option (Option (Map α)) :=
  match existing, incoming with
  | some dst, src => some (some (deepMerge dst src))
  | none, [] => some none
  | none, _ :: _ => none

/-- Whether the service is to be restarted. -/
def shouldRestart (existing : Option (Map α)) : Bool :=
  match get (existing.getD []) controlKey with
  | some (.leaf a) => (y.bool a).getD false
  | _ => false

/-- The file is written. -/
def writeConfig (existing : Option (Map α)) (restart : Bool) : Outcome B :=
  match y.marshal existing with
  | .error err => ⟨.error 500 ("failed to marshal config: " ++ err), d.file, false⟩
  | .ok yamlData =>
      match d.mkdir with
      | some err => ⟨.error 500 ("failed to create config directory: " ++ err), d.file, false⟩
      | none =>
          match d.write with
          | some (err, left) => ⟨.error 500 ("failed to write config: " ++ err), left, false⟩
          | none => ⟨.saved, .bytes yamlData, restart⟩

/-- `handleSettingsConfigPost`, of a body that is a JSON object or none. -/
def handleSettingsConfigPost (body : Option (Posted α)) : Outcome B :=
  match body with
  | none => ⟨.error 400 "invalid JSON body", d.file, false⟩
  | some incoming =>
      match mergeInto (existing y d) incoming.entries with
      | none => ⟨.panicked, d.file, false⟩
      | some merged =>
          writeConfig y d (merged.map fun m => delete m controlKey) (shouldRestart y merged)

/-! ## What a save should do -/

/-- What stands under a key of another map. -/
def getAny [DecidableEq α] (entries : List (Key α × Tree α)) (key : Key α) : Option (Tree α) :=
  (entries.find? fun e => e.1 = key).map (·.2)

/-- What stands at a path of keys. -/
def Tree.at [DecidableEq α] : Tree α → List (Key α) → Option (Tree α)
  | t, [] => some t
  | .map m, .text k :: path =>
      match get m k with
      | none => none
      | some v => v.at path
  | .anyMap a v entries, key :: path =>
      match getAny ((.other a, v) :: entries) key with
      | none => none
      | some w => w.at path
  | .map _, .other _ :: _ => none
  | .leaf _, _ :: _ => none

/-- A map under text keys. -/
def Tree.IsMap : Tree α → Prop
  | .map _ => True
  | _ => False

/-- **A path is not mentioned**: it leaves the posted maps at a key they do not have. -/
def Unmentioned : Tree α → List (Key α) → Prop
  | .map m, .text k :: path =>
      match get m k with
      | none => True
      | some v => Unmentioned v path
  | .map _, .other _ :: _ => True
  | _, _ => False

/-- The control key is the first of a path. -/
def Controls (path : List (Key α)) : Prop := path.head? = some (.text controlKey)

/-- **Only what was posted is changed.** -/
structure Changed [DecidableEq α] (old posted saved : Map α) : Prop where
  /-- What is posted is there, and a map where one is posted. -/
  value : ∀ path v, ¬ Controls path → (Tree.map posted).at path = some v → ¬ v.IsMap →
    (Tree.map saved).at path = some v
  map : ∀ path v, ¬ Controls path → (Tree.map posted).at path = some v → v.IsMap →
    ∃ w, (Tree.map saved).at path = some w ∧ w.IsMap
  /-- What is not mentioned is as it was. -/
  kept : ∀ path, Unmentioned (Tree.map posted) path →
    (Tree.map saved).at path = (Tree.map old).at path

/-- The file is there and cannot be read, or not be parsed. -/
def Lost : Prop :=
  match d.file with
  | .missing => False
  | .unreadable _ => True
  | .bytes data => (y.unmarshal data).2.isSome

/-- **A save is safe**: it does not panic, it changes what was posted and nothing
else, and a file that cannot be read or parsed is left alone. -/
structure Safe [DecidableEq α] (posted : Map α) (o : Outcome B) : Prop where
  runs : o.answer ≠ .panicked
  changed : o.answer = .saved → ∃ data saved, o.file = .bytes data ∧
    y.unmarshal data = (some saved, none) ∧ Changed ((existing y d).getD []) posted saved
  unharmed : Lost y d → o.file = d.file

/-- **What is relied on**: a text that fails to parse leaves a map with nothing in
it, and what is marshaled is read back. -/
structure Codec.Sound (y : Codec α B) : Prop where
  failed : ∀ data, (y.unmarshal data).2.isSome → (y.unmarshal data).1.getD [] = []
  roundTrip : ∀ m, ∃ data, y.marshal m = .ok data ∧ y.unmarshal data = (some (m.getD []), none)

/-! ## Maps -/

theorem get_set (m : Map α) (key k : String) (v : Tree α) :
    get (set m key v) k = if key = k then some v else get m k := by
  induction m with
  | nil => rfl
  | cons e m ih =>
    obtain ⟨k', w⟩ := e
    rw [set]
    split_ifs with hkey hk hk
    · rw [get, if_pos (hkey.trans hk)]
    · rw [get, get, if_neg (fun h => hk (hkey.symm.trans h)),
        if_neg (fun h => hk (hkey.symm.trans h))]
    · rw [get, if_neg (fun h => hkey (h.trans hk.symm)), ih, if_pos hk]
    · rw [get, get, ih, if_neg hk]

theorem get_delete (m : Map α) (key k : String) :
    get (delete m key) k = if k = key then none else get m k := by
  induction m with
  | nil => simp [delete, get]
  | cons e m ih =>
    obtain ⟨k', w⟩ := e
    rw [delete, List.filter_cons] at *
    by_cases hkey : k' = key
    · simp only [hkey, ne_eq, not_true_eq_false, decide_false, Bool.false_eq_true, if_false, ih,
        get]
      split_ifs with h h' <;> grind
    · simp only [hkey, ne_eq, not_false_eq_true, decide_true, if_true, get, ih]
      split_ifs with h h' <;> grind

theorem get_eq_none_of_forall_ne {m : Map α} {key : String} (h : ∀ e ∈ m, e.1 ≠ key) :
    get m key = none := by
  induction m with
  | nil => rfl
  | cons e m ih =>
    obtain ⟨k, v⟩ := e
    rw [get, if_neg (h _ List.mem_cons_self)]
    exact ih fun e he => h e (List.mem_cons_of_mem _ he)

/-- **A key of the result** is a key of either, merged where it is of both. -/
theorem get_deepMerge {src : Map α} (h : Json src) (dst : Map α) (k : String) :
    get (deepMerge dst src) k =
      match get src k with
      | none => get dst k
      | some v => some (mergeValue (get dst k) v) := by
  induction src generalizing dst with
  | nil => rw [deepMerge, get]
  | cons e src ih =>
    obtain ⟨key, v⟩ := e
    obtain ⟨hnew, -, hsrc⟩ := h
    rw [deepMerge, ih hsrc, get, get_set]
    by_cases hkey : key = k
    · subst hkey
      rw [get_eq_none_of_forall_ne hnew, if_pos rfl, if_pos rfl]
    · rw [if_neg hkey, if_neg hkey]

theorem json_of_get {src : Map α} (h : Json src) {k : String} {v : Tree α}
    (hv : get src k = some v) : v.Json := by
  induction src with
  | nil => cases hv
  | cons e src ih =>
    obtain ⟨key, w⟩ := e
    obtain ⟨-, hw, hsrc⟩ := h
    rw [get] at hv
    split_ifs at hv
    · exact Option.some.inj hv ▸ hw
    · exact ih hsrc hv

/-! ## Merging along a path -/

section Paths

variable [DecidableEq α]

@[simp] theorem at_nil (t : Tree α) : t.at [] = some t := by
  cases t <;> rfl

theorem at_text (m : Map α) (k : String) (path : List (Key α)) :
    (Tree.map m).at (.text k :: path) = (get m k).bind (·.at path) := by
  rw [Tree.at]
  cases get m k <;> rfl

@[simp] theorem at_other (m : Map α) (a : α) (path : List (Key α)) :
    (Tree.map m).at (.other a :: path) = none := by
  rw [Tree.at]

@[simp] theorem at_leaf (a : α) (key : Key α) (path : List (Key α)) :
    (Tree.leaf a).at (key :: path) = none := by
  rw [Tree.at]

omit [DecidableEq α] in
theorem unmentioned_text (m : Map α) (k : String) (path : List (Key α)) :
    Unmentioned (.map m) (.text k :: path) ↔ ∀ v, get m k = some v → Unmentioned v path := by
  rw [Unmentioned]
  cases get m k with
  | none => simp
  | some v => simp

/-- What is not mentioned is not there. -/
theorem at_eq_none_of_unmentioned {path : List (Key α)} : ∀ {t : Tree α}, Unmentioned t path →
    t.at path = none := by
  induction path with
  | nil =>
    intro t h
    cases t <;> simp [Unmentioned] at h
  | cons key path ih =>
    intro t h
    cases t with
    | leaf a => exact at_leaf a key path
    | anyMap a v entries => simp [Unmentioned] at h
    | map m =>
      cases key with
      | other a => exact at_other m a path
      | text k =>
        rw [at_text]
        cases hk : get m k with
        | none => rfl
        | some v => exact ih ((unmentioned_text m k path).1 h v hk)

/-- A path goes on where another ends. -/
theorem at_append (t : Tree α) (path path' : List (Key α)) :
    t.at (path ++ path') = (t.at path).bind (·.at path') := by
  induction path generalizing t with
  | nil => rw [at_nil, List.nil_append, Option.bind_some]
  | cons key path ih =>
    cases t with
    | leaf a => simp
    | map m =>
      cases key with
      | other a => simp
      | text k =>
        rw [List.cons_append, at_text, at_text]
        cases get m k with
        | none => rfl
        | some v => exact ih v
    | anyMap a v entries =>
      rw [List.cons_append, Tree.at, Tree.at]
      cases getAny ((Key.other a, v) :: entries) key with
      | none => rfl
      | some w => exact ih w

/-- What a posted map does not mention is not mentioned. -/
theorem unmentioned_append {path path' : List (Key α)} {m : Map α} :
    ∀ {t : Tree α}, t.Json → t.at path = some (.map m) → Unmentioned (.map m) path' →
      Unmentioned t (path ++ path') := by
  induction path with
  | nil =>
    intro t _ hm h
    rw [at_nil] at hm
    exact Option.some.inj hm ▸ h
  | cons key path ih =>
    intro t hjson hm h
    cases t with
    | leaf a => simp at hm
    | anyMap a v entries => simp [Tree.Json] at hjson
    | map s =>
      cases key with
      | other a => simp at hm
      | text k =>
        rw [at_text] at hm
        obtain ⟨u, hu, hm⟩ := Option.bind_eq_some_iff.1 hm
        rw [List.cons_append, unmentioned_text]
        intro v hv
        obtain rfl := Option.some.inj (hu.symm.trans hv)
        rw [Tree.Json] at hjson
        exact ih (json_of_get hjson hu) hm h

/-- A posted map meets a map of the other kind. -/
def Meets (old posted : Tree α) : Prop :=
  ∃ path m a v entries, posted.at path = some (.map m) ∧ old.at path = some (.anyMap a v entries)

theorem json_of_at {path : List (Key α)} {v : Tree α} : ∀ {t : Tree α}, t.Json →
    t.at path = some v → v.Json := by
  induction path with
  | nil =>
    intro t h hv
    rw [at_nil] at hv
    exact Option.some.inj hv ▸ h
  | cons key path ih =>
    intro t h hv
    cases t with
    | leaf a => simp at hv
    | anyMap a w entries => simp [Tree.Json] at h
    | map m =>
      cases key with
      | other a => simp at hv
      | text k =>
        rw [at_text] at hv
        obtain ⟨u, hu, hv⟩ := Option.bind_eq_some_iff.1 hv
        rw [Tree.Json] at h
        exact ih (json_of_get h hu) hv

/-- **What is merged along a path.** A value that is posted is there; a map that is
posted is a map. -/
theorem at_deepMerge_posted {path : List (Key α)} {v : Tree α} :
    ∀ {dst src : Map α}, Json src → (Tree.map src).at path = some v →
      (¬ v.IsMap → (Tree.map (deepMerge dst src)).at path = some v) ∧
        (v.IsMap → ∃ w, (Tree.map (deepMerge dst src)).at path = some w ∧ w.IsMap) := by
  induction path with
  | nil =>
    intro dst src _ hv
    rw [at_nil] at hv
    obtain rfl := Option.some.inj hv
    exact ⟨fun h => absurd trivial h, fun _ => ⟨_, at_nil _, trivial⟩⟩
  | cons key path ih =>
    intro dst src hjson hv
    cases key with
    | other a => simp at hv
    | text k =>
      rw [at_text] at hv
      obtain ⟨u, hu, hv⟩ := Option.bind_eq_some_iff.1 hv
      have hmerge := get_deepMerge hjson dst k
      rw [hu] at hmerge
      rw [at_text, hmerge, Option.bind_some]
      have hself : (¬ v.IsMap → u.at path = some v) ∧
          (v.IsMap → ∃ w, u.at path = some w ∧ w.IsMap) := ⟨fun _ => hv, fun h => ⟨v, hv, h⟩⟩
      unfold mergeValue
      split
      · next d s _ => exact ih (json_of_get hjson hu) hv
      · exact hself

/-- **What is not mentioned is as it was**, where no posted map meets a map of the
other kind. -/
theorem at_deepMerge_unmentioned {path : List (Key α)} :
    ∀ {dst src : Map α}, Json src → ¬ Meets (.map dst) (.map src) →
      Unmentioned (.map src) path →
      (Tree.map (deepMerge dst src)).at path = (Tree.map dst).at path := by
  induction path with
  | nil =>
    intro dst src _ _ h
    simp [Unmentioned] at h
  | cons key path ih =>
    intro dst src hjson hmeets h
    cases key with
    | other a => rw [at_other, at_other]
    | text k =>
      have hmerge := get_deepMerge hjson dst k
      rw [unmentioned_text] at h
      rw [at_text, at_text, hmerge]
      cases hu : get src k with
      | none => rfl
      | some u =>
        have hpath := h u hu
        have hnone := at_eq_none_of_unmentioned hpath
        simp only [Option.bind_some]
        cases hw : get dst k with
        | none => cases u <;> exact hnone
        | some w =>
          rw [Option.bind_some]
          cases u with
          | leaf a => cases path <;> simp [Unmentioned] at hpath
          | anyMap a v entries => cases path <;> simp [Unmentioned] at hpath
          | map s =>
            cases w with
            | leaf a =>
              cases path with
              | nil => simp [Unmentioned] at hpath
              | cons key path => rw [at_leaf]; exact hnone
            | map d =>
              refine ih (json_of_get hjson hu) ?_ hpath
              rintro ⟨p, m, a, v, entries, hm, hany⟩
              exact hmeets ⟨.text k :: p, m, a, v, entries,
                by rw [at_text, hu]; exact hm, by rw [at_text, hw]; exact hany⟩
            | anyMap a v entries =>
              exact absurd ⟨[.text k], s, a, v, entries, by rw [at_text, hu]; simp,
                by rw [at_text, hw]; simp⟩ hmeets

end Paths

/-! ## When a save is safe -/

section Save

variable [DecidableEq α] {y : Codec α B} {d : Disk B}

/-- What is saved is what is merged, the control key apart. -/
theorem at_delete {m : Map α} {path : List (Key α)} (hne : path ≠ []) (h : ¬ Controls path) :
    (Tree.map (delete m controlKey)).at path = (Tree.map m).at path := by
  cases path with
  | nil => exact absurd rfl hne
  | cons key path =>
    cases key with
    | other a => rw [at_other, at_other]
    | text k =>
      have hk : k ≠ controlKey := by
        rintro rfl
        exact h rfl
      rw [at_text, at_text, get_delete, if_neg hk]

theorem at_delete_controls {m : Map α} {path : List (Key α)} (h : Controls path) :
    (Tree.map (delete m controlKey)).at path = none := by
  cases path with
  | nil => simp [Controls] at h
  | cons key path =>
    obtain rfl : key = .text controlKey := by simpa [Controls] using h
    rw [at_text, get_delete, if_pos rfl]
    rfl

/-- **A merge keeps the settings**: no posted map meets a map of the other kind, and
the file has nothing under the control key that is not posted. -/
structure Keeps (old posted : Map α) : Prop where
  maps : ¬ Meets (.map old) (.map posted)
  control : ∀ path, Controls path → Unmentioned (Tree.map posted) path →
    (Tree.map old).at path = none

/-- A file all of whose keys are texts, and which lacks the control key, keeps its
settings whatever is posted. -/
theorem keeps_of_json {old posted : Map α} (hold : Json old)
    (hcontrol : get old controlKey = none) : Keeps old posted where
  maps := by
    rintro ⟨path, m, a, v, entries, -, hany⟩
    have hjson : (Tree.map old).Json := by rwa [Tree.Json]
    simpa [Tree.Json] using json_of_at hjson hany
  control := by
    intro path h _
    cases path with
    | nil => simp [Controls] at h
    | cons key path =>
      obtain rfl : key = .text controlKey := by simpa [Controls] using h
      rw [at_text, hcontrol]
      rfl

/-- **Only what was posted is changed** if and only if the merge keeps the settings. -/
theorem changed_iff (old : Map α) (posted : Posted α) :
    Changed old posted.entries (delete (deepMerge old posted.entries) controlKey) ↔
      Keeps old posted.entries := by
  constructor
  · intro hchanged
    constructor
    · rintro ⟨path, m, a, v, entries, hm, hany⟩
      -- the key that is no text is not mentioned, and lost
      have hmiss : Unmentioned (.map m) [Key.other a] := trivial
      have hkept := hchanged.kept (path ++ [.other a])
        (unmentioned_append (by rw [Tree.Json]; exact posted.json) hm hmiss)
      have hold : (Tree.map old).at (path ++ [.other a]) = some v := by
        rw [at_append, hany]
        simp [Tree.at, getAny]
      rw [hold] at hkept
      by_cases hcontrol : Controls path
      · have hstill : Controls (path ++ [.other a]) := by
          cases path with
          | nil => simp [Controls] at hcontrol
          | cons key path => exact hcontrol
        rw [at_delete_controls hstill] at hkept
        cases hkept
      · obtain ⟨w, hw, hmap⟩ := hchanged.map path _ hcontrol hm trivial
        rw [at_append, hw] at hkept
        cases w with
        | map m' => simp at hkept
        | leaf a => exact hmap
        | anyMap a v entries => exact hmap
    · intro path hcontrol hpath
      rw [← hchanged.kept path hpath, at_delete_controls hcontrol]
  · intro hkeeps
    constructor
    · intro path v hcontrol hv hleaf
      have hne : path ≠ [] := by
        rintro rfl
        rw [at_nil] at hv
        exact hleaf (Option.some.inj hv ▸ trivial)
      rw [at_delete hne hcontrol]
      exact (at_deepMerge_posted posted.json hv).1 hleaf
    · intro path v hcontrol hv hmap
      cases path with
      | nil => exact ⟨_, at_nil _, trivial⟩
      | cons key path =>
        rw [at_delete (List.cons_ne_nil _ _) hcontrol]
        exact (at_deepMerge_posted posted.json hv).2 hmap
    · intro path hpath
      by_cases hcontrol : Controls path
      · rw [at_delete_controls hcontrol, hkeeps.control path hcontrol hpath]
      · have hne : path ≠ [] := by
          rintro rfl
          simp [Unmentioned] at hpath
        rw [at_delete hne hcontrol, at_deepMerge_unmentioned posted.json hkeeps.maps hpath]

variable (y d) in
/-- **A request does no harm**: the file does not hold `null`, or nothing is posted;
a file that cannot be read or parsed is left as it is by the disk; and where the
disk takes the file, the merge keeps the settings. -/
structure Harmless (posted : Map α) : Prop where
  runs : existing y d = none → posted = []
  lost : Lost y d → d.mkdir.isSome ∨ ∃ err, d.write = some (err, d.file)
  keeps : ¬ Lost y d → d.mkdir = none → d.write = none →
    Keeps ((existing y d).getD []) posted

omit [DecidableEq α] in
/-- A merge that does not panic. -/
theorem mergeInto_eq {existing : Option (Map α)} {posted : Map α}
    (h : existing = none → posted = []) :
    ∃ merged, mergeInto existing posted = some merged ∧
      (merged.map fun m => delete m controlKey).getD []
        = delete (deepMerge (existing.getD []) posted) controlKey := by
  cases existing with
  | some dst => exact ⟨_, rfl, rfl⟩
  | none =>
    rw [h rfl]
    exact ⟨none, rfl, rfl⟩

omit [DecidableEq α] in
theorem mergeInto_eq_none {posted : Map α} (h : posted ≠ []) :
    mergeInto (none : Option (Map α)) posted = none := by
  cases posted with
  | nil => exact absurd rfl h
  | cons e posted => rfl

omit [DecidableEq α] in
/-- A file that is lost is not what is written. -/
theorem ne_of_lost {data : B} {saved : Map α} (hlost : Lost y d)
    (hdata : y.unmarshal data = (some saved, none)) : File.bytes data ≠ d.file := by
  intro heq
  rw [Lost, ← heq] at hlost
  simp [hdata] at hlost

/-- **What is written**, and when that is safe. -/
theorem safe_writeConfig_iff {posted final : Map α} {restart : Bool} {existing' : Option (Map α)}
    {data : B} (hmarshal : y.marshal existing' = .ok data)
    (hdata : y.unmarshal data = (some final, none)) :
    Safe y d posted (writeConfig y d existing' restart) ↔
      (Lost y d → d.mkdir.isSome ∨ ∃ err, d.write = some (err, d.file)) ∧
        (¬ Lost y d → d.mkdir = none → d.write = none →
          Changed ((existing y d).getD []) posted final) := by
  unfold writeConfig
  simp only [hmarshal]
  cases hmkdir : d.mkdir with
  | some err =>
    refine iff_of_true ⟨by simp, fun h => ?_, fun _ => rfl⟩ ⟨fun _ => .inl rfl, fun _ h => ?_⟩
    · cases h
    · cases h
  | none =>
    cases hwrite : d.write with
    | some e =>
      obtain ⟨err, left⟩ := e
      constructor
      · intro hsafe
        refine ⟨fun hlost => .inr ⟨err, ?_⟩, fun _ _ h => ?_⟩
        · rw [← hsafe.unharmed hlost]
        · cases h
      · rintro ⟨hlost, -⟩
        refine ⟨by simp, fun h => ?_, fun h => ?_⟩
        · cases h
        · obtain hnone | ⟨err', herr⟩ := hlost h
          · cases hnone
          · exact (Prod.mk.inj (Option.some.inj herr)).2
    | none =>
      constructor
      · intro hsafe
        refine ⟨fun hlost => absurd (hsafe.unharmed hlost) (ne_of_lost hlost hdata),
          fun _ _ _ => ?_⟩
        obtain ⟨data', saved, hfile, hsaved, hchanged⟩ := hsafe.changed rfl
        obtain rfl : data = data' := File.bytes.inj hfile
        obtain rfl := Option.some.inj (congrArg Prod.fst (hdata.symm.trans hsaved))
        exact hchanged
      · rintro ⟨hlost, hchanged⟩
        have hread : ¬ Lost y d := fun h => by simpa using hlost h
        exact ⟨by simp, fun _ => ⟨data, final, rfl, hdata, hchanged hread rfl rfl⟩,
          fun h => absurd h hread⟩

variable (d) in
/-- **Saving settings is safe if and only if the request does no harm.** -/
theorem handleSettingsConfigPost_safe_iff (hy : y.Sound) (posted : Posted α) :
    Safe y d posted.entries (handleSettingsConfigPost y d (some posted)) ↔
      Harmless y d posted.entries := by
  by_cases hruns : existing y d = none → posted.entries = []
  · obtain ⟨merged, hmerge, hfinal⟩ := mergeInto_eq hruns
    obtain ⟨data, hmarshal, hdata⟩ := hy.roundTrip (merged.map fun m => delete m controlKey)
    rw [hfinal] at hdata
    simp only [handleSettingsConfigPost, hmerge]
    rw [safe_writeConfig_iff hmarshal hdata, changed_iff]
    exact ⟨fun ⟨hlost, hkeeps⟩ => ⟨hruns, hlost, hkeeps⟩, fun h => ⟨h.lost, h.keeps⟩⟩
  · obtain ⟨hnil, hposted⟩ := Classical.not_imp.1 hruns
    refine iff_of_false (fun hsafe => hsafe.runs ?_) fun h => hruns h.runs
    simp only [handleSettingsConfigPost, hnil, mergeInto_eq_none hposted]

end Save

/-! ## Two requests -/

/-- A text that is broken, `null`, or a document. -/
abbrev Text := Option (Option (Map Bool))

/-- A reader of such texts. -/
def plainCodec : Codec Bool Text where
  unmarshal
    | none => (some [], some "yaml: line 1: did not find expected node content")
    | some doc => (doc, none)
  marshal := fun m => .ok (some (some (m.getD [])))
  bool := some

theorem plainCodec_sound : plainCodec.Sound where
  failed := by
    intro data h
    cases data with
    | none => rfl
    | some doc => simp [plainCodec] at h
  roundTrip := fun _ => ⟨_, rfl, rfl⟩

/-- Communications are switched off. -/
def commsOff : Posted Bool where
  entries := [("comms", .map [("enable", .leaf false)])]
  json := by simp [Json, Tree.Json]

/-- A disk that takes what is written. -/
def diskWith (file : File Text) : Disk Text := ⟨file, none, none⟩

/-- A file with two settings, of which one is posted. -/
def meshAndComms : Map Bool := [("mesh", .leaf true), ("comms", .map [("enable", .leaf true)])]

theorem handleSettingsConfigPost_safe_iff_comms :
    Safe plainCodec (diskWith (.bytes (some (some meshAndComms)))) commsOff.entries
      (handleSettingsConfigPost plainCodec (diskWith (.bytes (some (some meshAndComms))))
        (some commsOff)) := by
  have hjson : Json meshAndComms := by simp [meshAndComms, Json, Tree.Json]
  have hcontrol : get meshAndComms controlKey = none := by decide
  refine (handleSettingsConfigPost_safe_iff _ plainCodec_sound commsOff).2
    ⟨fun h => ?_, fun h => ?_, fun _ _ _ => keeps_of_json hjson hcontrol⟩
  · cases h
  · simp [Lost, diskWith, plainCodec] at h

/-- A file that is broken is lost: only what was posted is there afterwards. -/
theorem handleSettingsConfigPost_unsafe :
    ¬ ∀ (α B : Type) (_ : DecidableEq α) (y : Codec α B) (d : Disk B) (posted : Posted α), y.Sound →
      Safe y d posted.entries (handleSettingsConfigPost y d (some posted)) := by
  intro hall
  have hsafe := hall Bool Text inferInstance plainCodec (diskWith (.bytes none)) commsOff
    plainCodec_sound
  have hfile := hsafe.unharmed rfl
  simp [handleSettingsConfigPost, existing, diskWith, plainCodec, mergeInto, writeConfig] at hfile

end SettingsConfig

end OpenManet
