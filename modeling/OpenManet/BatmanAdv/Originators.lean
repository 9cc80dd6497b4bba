import OpenManet.Lib.Table
import OpenManet.Lib.Text
import Mathlib.Data.Int.Notation
/-!
# The originator table

`internal/batman-adv/originator_topology.go` turns the rows of `batctl oj`
into the snapshot the mesh topology is drawn from: one entry for each best
route, with the host names of the bat-hosts file and a hop count. The hop
count of an originator is read off the chain of best next hops, with a cache
the walks of one snapshot share.

A throughput is floating point in the source; here it is of any type, with
the one question asked of it. Rows are visited in the order a run of the
program happens to give its map.
-/

namespace OpenManet

namespace BatmanAdv

/-- `Originator`: a row of `batctl oj`. -/
structure Originator (F : Type) where
  origAddress : String
  hardIfname : String
  bestNeigh : String
  lastSeenMs : ℤ
  tq : ℤ
  throughput : F
  best : Bool
deriving DecidableEq, Repr

/-- `OriginatorEntry`. -/
structure OriginatorEntry (F : Type) where
  origMAC : String
  origHostname : String
  nextHopMAC : String
  nextHopHostname : String
  hardIfname : String
  tq : ℤ
  throughput : F
  lastSeenMs : ℤ
  hops : ℕ
deriving DecidableEq, Repr

/-- `OriginatorTopology`. -/
structure OriginatorTopology (F : Type) where
  selfMAC : String
  selfHostname : String
  algorithm : String
  originators : List (OriginatorEntry F)
deriving DecidableEq, Repr

/-- How reading the rows fails: `batctl` left with an error, or another
one. -/
inductive ReadError where
  | exit (text : String)
  | other (text : String)
deriving DecidableEq, Repr

/-- How the snapshot fails: `ErrOriginatorsUnavailable`, or the error of the
reading. -/
inductive TopologyError where
  | originatorsUnavailable (cause : ReadError)
  | reading (cause : ReadError)
deriving DecidableEq, Repr

/-- `BatHosts`, as the list of its hosts: MAC and name. -/
structure BatHosts where
  hosts : List (String × String)
deriving DecidableEq, Repr

section

variable {F : Type} (toLower : Lowering) (positive : F → Bool)

/-- `GetHostByMAC`. -/
def BatHosts.getHostByMAC (equalFold : String → String → Bool) (batHosts : BatHosts)
    (mac : String) : String :=
  ((batHosts.hosts.find? fun host => equalFold host.1 mac).map (·.2)).getD ""

/-- What comes before the last underscore. -/
def beforeUnderscore (full : List Char) : Option (List Char) :=
  match full.reverse.dropWhile (· ≠ '_') with
  | [] => none
  | _ :: before => some before.reverse

/-- `deriveSelfHostname`. -/
def deriveSelfHostname (equalFold : String → String → Bool) (selfMAC : String)
    (batHosts : BatHosts) : String :=
  if selfMAC = "" then ""
  else
    let full := batHosts.getHostByMAC equalFold selfMAC
    if full = "" then ""
    else
      match beforeUnderscore full.toList with
      | some (c :: cs) => String.ofList (c :: cs)
      | _ => full

/-- `bestByMAC`: the best row of each originator, the last one counting. -/
def bestByMAC (rows : List (Originator F)) : Table (Originator F) :=
  rows.foldl (fun best r => if r.best then best.insert (toLower r.origAddress) r else best) ∅

/-! ## Hop counts -/

/-- `hopsMaxChain`. -/
def hopsMaxChain : ℕ := 16

/-- `hopsUnknown`. -/
def hopsUnknown : ℕ := 99

/-- `backfillChain`. The chain has its newest link first. -/
def backfillChain : List String → ℕ → Table ℕ → Table ℕ
  | [], _, cache => cache
  | k :: chain, h, cache => backfillChain chain (h + 1) (cache.insert k h)

/-- `markUnknown`. -/
def markUnknown (chain : List String) (cache : Table ℕ) : Table ℕ :=
  chain.foldr (fun k cache => cache.insert k hopsUnknown) cache

/-- The entry of the cache under a key, or zero. -/
def cached (cache : Table ℕ) (key : String) : ℕ := (cache.lookup key).getD 0

/-- The loop of `hopsFor`, with the steps it has left. -/
def walk (best : Table (Originator F)) (key : String) :
    ℕ → String → List String → Table ℕ → ℕ × Table ℕ
  | 0, _, chain, cache => (hopsUnknown, markUnknown chain cache)
  | n + 1, cur, chain, cache =>
    match best.lookup cur with
    | none => (hopsUnknown, markUnknown chain cache)
    | some entry =>
      let next := toLower entry.bestNeigh
      if next = cur ∨ next = "" then
        (cached (backfillChain chain 1 cache) key, backfillChain chain 1 cache)
      else
        match (cache.lookup next).filter (· ≠ hopsUnknown) with
        | some memo =>
          (cached (backfillChain chain (memo + 1) cache) key, backfillChain chain (memo + 1) cache)
        | none =>
          if next ∈ chain then (hopsUnknown, markUnknown chain cache)
          else walk best key n next (next :: chain) cache

/-- `hopsFor`: the hop count, and the cache after it. -/
def hopsFor (origMAC : String) (best : Table (Originator F)) (cache : Table ℕ) : ℕ × Table ℕ :=
  let key := toLower origMAC
  match cache.lookup key with
  | some v => (v, cache)
  | none => walk toLower best key hopsMaxChain key [key] cache

/-! ## The snapshot -/

/-- The entries, in the order the rows are visited. -/
def collect (equalFold : String → String → Bool) (batHosts : BatHosts)
    (best : Table (Originator F)) : List (Originator F) → Table ℕ → List (OriginatorEntry F)
  | [], _ => []
  | r :: rows, cache =>
    { origMAC := r.origAddress
      origHostname := batHosts.getHostByMAC equalFold r.origAddress
      nextHopMAC := r.bestNeigh
      nextHopHostname := batHosts.getHostByMAC equalFold r.bestNeigh
      hardIfname := r.hardIfname
      tq := r.tq
      throughput := r.throughput
      lastSeenMs := r.lastSeenMs
      hops := (hopsFor toLower r.origAddress best cache).1 } ::
    collect equalFold batHosts best rows (hopsFor toLower r.origAddress best cache).2

/-- The algorithm a row tells of. -/
def algorithmOf (r : Originator F) : String :=
  if positive r.throughput then "BATMAN_V" else if 0 < r.tq then "BATMAN_IV" else ""

/-- The label of the first row that tells. -/
def algorithmLabel (rows : List (Originator F)) : String :=
  rows.foldl (fun algorithm r => if algorithm = "" then algorithmOf positive r else algorithm) ""

/-- `GetOriginatorTopology`, with the bat-hosts file and the MAC of `bat0`
as they were read: empty where that failed. -/
def getOriginatorTopology (equalFold : String → String → Bool)
    (order : List String → List String) (batHosts : BatHosts) (selfMAC : String)
    (originators : Except ReadError (List (Originator F))) :
    Except TopologyError (OriginatorTopology F) :=
  match originators with
  | .error (.exit text) => .error (.originatorsUnavailable (.exit text))
  | .error (.other text) => .error (.reading (.other text))
  | .ok rows =>
    let best := bestByMAC toLower rows
    let visited := (best.range order).map (·.2)
    .ok
      { selfMAC
        selfHostname := deriveSelfHostname equalFold selfMAC batHosts
        algorithm := algorithmLabel positive visited
        originators := collect toLower equalFold batHosts best visited ∅ }

end

end BatmanAdv

end OpenManet
