import OpenManet.Lib.Uci.Config
import OpenManet.Lib.Fallible
import Mathlib.Logic.Function.Basic
/-!
# The UCI tree

A process sees the configs through a tree: what it holds in memory, what the
files hold, and which configs it has edited since. Edits stay in memory
until a commit writes every edited config to its file.

A `Host` is a tree together with the world's answers to the calls made on
it. Any call that returns an error may be refused, and a refused commit may
have written some of the files already; what is proved for every host is
proved for every pattern of failures.
-/

namespace OpenManet

namespace Uci

open Fallible

/-- What a caller is told of a failed call. -/
structure Err where
  text : String
  /-- The cause is a file that does not exist. -/
  notExist : Bool
deriving DecidableEq

/-- The configs as a process sees them. -/
structure Tree where
  /-- What the process reads and edits; `none` where nothing can be loaded. -/
  mem : String → Option Config
  /-- What the files hold; `none` where there is no file. -/
  disk : String → Option Config
  /-- The config was edited since it was loaded or written. -/
  dirty : String → Bool

/-- The answers the world gives, call by call. -/
structure Fate where
  /-- The call is refused. -/
  refuses : Nat → Bool
  /-- What a refused commit has written before it failed. -/
  flushes : Nat → String → Bool

/-- A tree and the world it is in. -/
structure Host where
  tree : Tree
  /-- The calls made so far. -/
  tick : Nat
  fate : Fate

/-- A program over the tree. -/
abbrev Prog := EStateM Err Host

/-! ## The tree on its own -/

namespace Tree

/-- The values of an option. -/
def get (t : Tree) (config ref option : String) : List String :=
  match t.mem config with
  | some c => c.get ref option
  | none => []

/-- The second answer of a read: the section is there, whether or not the
option is. -/
def found (t : Tree) (config ref : String) : Bool :=
  match t.mem config with
  | some c => (c.find ref).isSome
  | none => false

/-- The tree with a config edited. -/
def stage (t : Tree) (config : String) (c : Config) : Tree :=
  { t with mem := Function.update t.mem config (some c)
           dirty := Function.update t.dirty config true }

/-- The tree with the edited configs written, those the world let through. -/
def flush (t : Tree) (through : String → Bool) : Tree :=
  { t with disk := fun config =>
             if t.dirty config && through config then t.mem config else t.disk config
           dirty := fun config => t.dirty config && !through config }

/-- The tree with a config read again from its file, edits dropped. -/
def load (t : Tree) (config : String) (c : Config) : Tree :=
  { t with mem := Function.update t.mem config (some c)
           dirty := Function.update t.dirty config false }

/-- No edit is pending, and memory is what the files hold. -/
def InSync (t : Tree) : Prop := t.mem = t.disk ∧ ∀ config, t.dirty config = false

end Tree

/-! ## Calls -/

/-- The error of a config without a file. -/
def missingConfig (config : String) : Err := ⟨"open " ++ config ++ ": no such file or directory", true⟩

/-- The error of an address that names no section. -/
def missingSection (config ref : String) : Err := ⟨"section not found: " ++ config ++ "." ++ ref, false⟩

/-- The error of a call the world refuses. -/
def refusal : Err := ⟨"input/output error", false⟩

/-- The tree as it stands. -/
def tree : Prog Tree := fun h => .ok h.tree h

/-- One fallible call: the world may refuse it, and the tree may. -/
def call {α : Type} (f : Tree → Except Err (α × Tree)) : Prog α := fun h =>
  let h' := { h with tick := h.tick + 1 }
  if h.fate.refuses h.tick then .error refusal h'
  else
    match f h.tree with
    | .ok (a, t) => .ok a { h' with tree := t }
    | .error e => .error e h'

/-- `GetSections`: the addresses of the sections of a type. -/
def getSections (config type : String) : Prog (List String) :=
  call fun t =>
    match t.mem config with
    | some c => .ok (c.refs type, t)
    | none => .error (missingConfig config)

/-- An edit of a section that must be there. -/
def editSection (config ref : String) (f : Table (List String) → Table (List String)) : Prog Unit :=
  call fun t =>
    match t.mem config with
    | some c =>
        if (c.find ref).isSome then .ok ((), t.stage config (c.update ref f))
        else .error (missingSection config ref)
    | none => .error (missingConfig config)

/-- `SetType`: an option gets new values. -/
def setType (config ref option : String) (values : List String) : Prog Unit :=
  editSection config ref fun o => o.insert option values

/-- `Del`: an option is dropped; one that is not set stays so. -/
def del (config ref option : String) : Prog Unit :=
  editSection config ref fun o => o.erase option

/-- `AddSection`: a section that exists is left alone, provided its type is
the one asked for; a config without a file comes into being in memory. -/
def addSection (config name type : String) : Prog Unit :=
  call fun t =>
    let c := (t.mem config).getD Config.empty
    match c.find name with
    | some s =>
        if s.type = type then .ok ((), t)
        else .error ⟨"type mismatch for " ++ config ++ "." ++ name ++ ", got " ++ s.type ++ ", want " ++ type, false⟩
    | none => .ok ((), t.stage config (c.push type name))

/-- `DelSection`: an address that names nothing is left alone. -/
def delSection (config ref : String) : Prog Unit :=
  call fun t =>
    match t.mem config with
    | some c => .ok ((), t.stage config (c.erase ref))
    | none => .error (missingConfig config)

/-- `Commit`: every edited config is written to its file. -/
def commit : Prog Unit := fun h =>
  let h' := { h with tick := h.tick + 1 }
  if h.fate.refuses h.tick then
    .error refusal { h' with tree := h.tree.flush (h.fate.flushes h.tick) }
  else .ok () { h' with tree := h.tree.flush fun _ => true }

/-- `LoadConfig` with force: memory is replaced by the file; without a file
it is left as it was. -/
def loadConfig (config : String) : Prog Unit :=
  call fun t =>
    match t.disk config with
    | some c => .ok ((), t.load config c)
    | none => .error (missingConfig config)

/-- `Revert`: memory is dropped, and read again from the file when next
asked for. -/
def revert (config : String) : Prog Unit := fun h =>
  .ok () { h with tree := { h.tree with
    mem := Function.update h.tree.mem config (h.tree.disk config)
    dirty := Function.update h.tree.dirty config false } }

/-- A failure is passed on with a word on where it struck. -/
def saying {α : Type} (what : String) (m : Prog α) : Prog α :=
  wrapped (fun e => { e with text := what ++ ": " ++ e.text }) m

/-- A program gives up. -/
def fail {α : Type} (text : String) : Prog α := throw ⟨text, false⟩

/-- Where a write of an option struck. -/
def setting (config ref option : String) : String :=
  "setting " ++ config ++ "." ++ ref ++ "." ++ option

/-- Options written one after the other to one section. -/
def setOptions (config ref : String) (what : String → String) (writes : List (String × String)) :
    Prog Unit :=
  writes.forM fun w => saying (what w.1) (setType config ref w.1 [w.2])

end Uci

end OpenManet
