import OpenManet.Lib.Machine
import OpenManet.Lib.Split
import OpenManet.Sysupgrade.Checksum
import Mathlib.Data.List.AList
import Mathlib.Algebra.Group.Int.Defs
/-!
# The status pages of the web interface

`internal/frontend/handlers.go`: what the pages read of the counters of the
network devices and of the output of `iwinfo`, `ip route show` and `batctl o`.
Texts are bytes, as they are in the source. An index outside a slice is a panic,
and here no result.

Four parsers check lengths before they index. Two check too little: the
counters need eleven fields where ten are asked for, and the mode of a wireless
interface is taken to be there where `Mode:` is.
-/

namespace OpenManet

namespace Handlers

open Sysupgrade (Bytes spaceWidth fields trimLeft)
open Split

/-! ## Strings -/

def ascii (s : String) : Bytes := s.toList.map fun c => UInt8.ofNat c.toNat

/-- The line feed. -/
def nl : UInt8 := 10

/-- The text from a place on. -/
def sliceFrom (s : Bytes) (i : ℕ) : Option Bytes := if i ≤ s.length then some (s.drop i) else none

/-- `strings.TrimSpace` at the right end, within a character `skip` bytes of
which are left and after white space that has not been followed by anything. -/
def trimRight : ℕ → Bytes → Bytes → Bytes
  | _, _, [] => []
  | skip + 1, white, b :: rest => trimRight skip (white ++ [b]) rest
  | 0, white, b :: rest =>
    match spaceWidth (b :: rest) with
    | 0 => white ++ b :: trimRight 0 [] rest
    | width + 1 => trimRight width (white ++ [b]) rest

/-- `strings.TrimSpace`. -/
def trimSpace (s : Bytes) : Bytes := trimRight 0 [] (trimLeft 0 s)

section Trim

variable {b : UInt8} {s : Bytes}

/-- White space is spelled without the printable characters of ASCII. -/
theorem not_mem_space (hlow : 33 ≤ b) (hhigh : b ≤ 126) : b ∉ s.take (spaceWidth s) := by
  rw [UInt8.le_iff_toNat_le] at hlow hhigh
  unfold spaceWidth
  split
  all_goals first | split_ifs with hspace | skip
  all_goals simp only [List.take_zero, List.take_succ_cons, List.take_nil, List.mem_cons,
    List.not_mem_nil, or_false, not_false_eq_true, not_or, Bool.or_eq_true, Bool.and_eq_true,
    beq_iff_eq, decide_eq_true_eq, UInt8.le_iff_toNat_le, ← UInt8.toNat_inj,
    UInt8.reduceToNat] at *
  all_goals omega

theorem mem_of_skipped {a : UInt8} {skip : ℕ} (hskip : b ∉ (a :: s).take (skip + 1))
    (h : b ∈ a :: s) : b ∉ s.take skip ∧ b ∈ s := by
  rw [List.take_succ_cons, List.mem_cons, not_or] at hskip
  exact ⟨hskip.2, (List.mem_cons.1 h).resolve_left hskip.1⟩

/-- Trimming drops no printable character of ASCII. -/
theorem mem_trimLeft (hlow : 33 ≤ b) (hhigh : b ≤ 126) {skip : ℕ} (hskip : b ∉ s.take skip)
    (h : b ∈ s) : b ∈ trimLeft skip s := by
  induction s generalizing skip with
  | nil => cases h
  | cons a s ih =>
      cases skip with
      | succ skip =>
          obtain ⟨hskip, h⟩ := mem_of_skipped hskip h
          exact ih hskip h
      | zero =>
          have hspace := not_mem_space (s := a :: s) hlow hhigh
          unfold trimLeft
          cases hwidth : spaceWidth (a :: s) with
          | zero => exact h
          | succ width =>
              obtain ⟨hskip, h⟩ := mem_of_skipped (hwidth ▸ hspace) h
              exact ih hskip h

theorem mem_trimRight (hlow : 33 ≤ b) (hhigh : b ≤ 126) {skip : ℕ} {white : Bytes}
    (hskip : b ∉ s.take skip) (h : b ∈ s) : b ∈ trimRight skip white s := by
  induction s generalizing skip white with
  | nil => cases h
  | cons a s ih =>
      cases skip with
      | succ skip =>
          obtain ⟨hskip, h⟩ := mem_of_skipped hskip h
          exact ih hskip h
      | zero =>
          have hspace := not_mem_space (s := a :: s) hlow hhigh
          unfold trimRight
          cases hwidth : spaceWidth (a :: s) with
          | zero =>
              rcases List.mem_cons.1 h with rfl | h
              · simp
              · exact List.mem_append_right _ (List.mem_cons_of_mem _ (ih (by simp) h))
          | succ width =>
              obtain ⟨hskip, h⟩ := mem_of_skipped (hwidth ▸ hspace) h
              exact ih hskip h

theorem mem_trimSpace (hlow : 33 ≤ b) (hhigh : b ≤ 126) (h : b ∈ s) : b ∈ trimSpace s :=
  mem_trimRight hlow hhigh (by simp) (mem_trimLeft hlow hhigh (by simp) h)

theorem mem_of_mem_trimLeft {skip : ℕ} (h : b ∈ trimLeft skip s) : b ∈ s := by
  induction s generalizing skip with
  | nil => cases skip <;> exact h
  | cons a s ih =>
      cases skip with
      | succ skip => exact List.mem_cons_of_mem a (ih h)
      | zero =>
          unfold trimLeft at h
          cases hwidth : spaceWidth (a :: s) with
          | zero =>
              rw [hwidth] at h
              exact h
          | succ width =>
              rw [hwidth] at h
              exact List.mem_cons_of_mem a (ih h)

theorem mem_of_mem_trimRight {skip : ℕ} {white : Bytes} (h : b ∈ trimRight skip white s) :
    b ∈ white ++ s := by
  induction s generalizing skip white with
  | nil => cases skip <;> cases h
  | cons a s ih =>
      have happend : white ++ a :: s = white ++ [a] ++ s := by simp
      cases skip with
      | succ skip => exact happend ▸ ih h
      | zero =>
          unfold trimRight at h
          cases hwidth : spaceWidth (a :: s) with
          | zero =>
              rw [hwidth] at h
              rcases List.mem_append.1 h with h | h
              · exact List.mem_append_left _ h
              · rcases List.mem_cons.1 h with rfl | h
                · simp
                · exact List.mem_append_right _ (List.mem_cons_of_mem a (ih h))
          | succ width =>
              rw [hwidth] at h
              exact happend ▸ ih h

theorem mem_of_mem_trimSpace (h : b ∈ trimSpace s) : b ∈ s :=
  mem_of_mem_trimLeft (mem_of_mem_trimRight h)

end Trim

/-- `strings.Trim`, of ASCII characters. -/
def trim (cutset s : Bytes) : Bytes :=
  ((s.dropWhile (· ∈ cutset)).reverse.dropWhile (· ∈ cutset)).reverse

/-- The number digits spell, as far as 64 bits hold it; none where a character
that is looked at is no digit. -/
def digitsFrom : ℕ → Bytes → Option ℕ
  | n, [] => some n
  | n, b :: rest =>
    if b < 48 ∨ 57 < b then none
    else if 2 ^ 64 ≤ 10 * n + (b.toNat - 48) then some (2 ^ 64 - 1)
    else digitsFrom (10 * n + (b.toNat - 48)) rest

/-- `strconv.ParseInt` in base ten for 64 bits, its error ignored: zero where
the text is no number, the nearest end where it does not fit. -/
def parseInt (s : Bytes) : ℤ :=
  let (negative, digits) :=
    match s with
    | 43 :: rest => (false, rest)
    | 45 :: rest => (true, rest)
    | _ => (false, s)
  match (if digits = [] then none else digitsFrom 0 digits) with
  | none => 0
  | some n => if negative then max (-n) (-2 ^ 63) else min n (2 ^ 63 - 1)

/-! ## Network devices -/

structure NetDevStats where
  rxBytes : ℤ
  rxPackets : ℤ
  rxErrors : ℤ
  txBytes : ℤ
  txPackets : ℤ
  txErrors : ℤ
deriving DecidableEq

abbrev DevTable : Type := AList fun _ : Bytes => NetDevStats

/-- What `parseProcNetDev` does with a line. -/
def parseDevLine (result : DevTable) (line : Bytes) : Option DevTable := do
  let parts := cut (ascii ":") line
  if parts.length ≠ 2 then some result
  else
    let name := trimSpace (← parts[0]?)
    let fields := fields (← parts[1]?)
    if fields.length < 10 then some result
    else
      let rxBytes := parseInt (← fields[0]?)
      let rxPackets := parseInt (← fields[1]?)
      let rxErrors := parseInt (← fields[2]?)
      let txBytes := parseInt (← fields[8]?)
      let txPackets := parseInt (← fields[9]?)
      let txErrors := parseInt (← fields[10]?)
      some (result.insert name { rxBytes, rxPackets, rxErrors, txBytes, txPackets, txErrors })

/-- Two lines of headers are skipped. -/
def parseProcNetDev (content : Bytes) : Option DevTable :=
  ((content.splitOn nl).drop 2).foldlM parseDevLine ∅

/-- The line has ten fields behind its first colon. -/
def TenFields (line : Bytes) : Prop :=
  ∃ i, index? (ascii ":") line = some i ∧ (fields (line.drop (i + 1))).length = 10

theorem isSome_parseDevLine (result : DevTable) (line : Bytes) :
    (parseDevLine result line).isSome ↔ ¬TenFields line := by
  unfold parseDevLine TenFields cut
  cases hi : index? (ascii ":") line with
  | none => simp
  | some i =>
      have hcolon : (ascii ":").length = 1 := by decide
      simp only [hcolon, List.length_cons, List.length_nil, List.getElem?_cons_zero,
        List.getElem?_cons_succ, Option.some.injEq, exists_eq_left', ne_eq, Nat.reduceAdd,
        not_true_eq_false, if_false, Option.bind_eq_bind, Option.bind_some]
      generalize fields (line.drop (i + 1)) = fs
      have hget : ∀ k, k < fs.length → ∃ f, fs[k]? = some f := fun k hk =>
        ⟨fs[k], List.getElem?_eq_getElem hk⟩
      by_cases hshort : fs.length < 10
      · have hlen : fs.length ≠ 10 := by omega
        simp [hshort, hlen]
      · rw [if_neg hshort]
        obtain ⟨f₀, h₀⟩ := hget 0 (by omega)
        obtain ⟨f₁, h₁⟩ := hget 1 (by omega)
        obtain ⟨f₂, h₂⟩ := hget 2 (by omega)
        obtain ⟨f₈, h₈⟩ := hget 8 (by omega)
        obtain ⟨f₉, h₉⟩ := hget 9 (by omega)
        -- the tenth index is the one no check covers
        by_cases hten : fs.length = 10
        · simp [hten]
        · obtain ⟨f₁₀, h₁₀⟩ := hget 10 (by omega)
          simp [h₀, h₁, h₂, h₈, h₉, h₁₀, hten]

/-- **The counters are read** if and only if no line behind the headers has ten
fields. -/
theorem isSome_parseProcNetDev (content : Bytes) :
    (parseProcNetDev content).isSome ↔ ∀ line ∈ (content.splitOn nl).drop 2, ¬TenFields line :=
  isSome_foldlM (fun result line _ => isSome_parseDevLine result line) ∅

/-! ## Wireless interfaces -/

structure WifiStatus where
  interface : Bytes
  ssid : Bytes
  mode : Bytes
  bitRate : Bytes
  channel : ℤ
  signal : ℤ
deriving DecidableEq

/-- The first field behind a keyword, as a number. -/
def numberAfter (keyword : Bytes) (width : ℕ) (line : Bytes) (old : ℤ) : Option ℤ :=
  match index? keyword line with
  | none => some old
  | some idx => do
    let parts := fields (← sliceFrom line (idx + width))
    if 1 ≤ parts.length then
      let part ← parts[0]?
      some (parseInt part)
    else some old

def parseIwinfoLine (ws : WifiStatus) (line : Bytes) : Option WifiStatus :=
  if contains (ascii "ESSID:") line then do
    let parts := cut (ascii "ESSID:") line
    let ws ←
      if parts.length = 2 then
        (parts[1]?).map fun rest => { ws with ssid := trim (ascii "\"") (trimSpace rest) }
      else some ws
    let name ← parts[0]?
    some { ws with interface := trimSpace name }
  else if contains (ascii "Mode:") line then
    match index? (ascii "Mode:") line with
    | none => some ws
    | some idx => do
      let rest ← sliceFrom line (idx + 5)
      -- nothing asks whether there is a field
      let mode ← (fields rest)[0]?
      some { ws with mode := mode }
  else if contains (ascii "Channel:") line then
    (numberAfter (ascii "Channel:") 8 line ws.channel).map fun n => { ws with channel := n }
  else if contains (ascii "Signal:") line then
    (numberAfter (ascii "Signal:") 7 line ws.signal).map fun n => { ws with signal := n }
  else if contains (ascii "Bit Rate:") line then
    match index? (ascii "Bit Rate:") line with
    | none => some ws
    | some idx => do
      let rest ← sliceFrom line (idx + 9)
      let first ← (rest.splitOn nl)[0]?
      some { ws with bitRate := trimSpace first }
  else some ws

def parseIwinfoBlock (block : Bytes) : Option WifiStatus :=
  (block.splitOn nl).foldlM (fun ws line => parseIwinfoLine ws (trimSpace line))
    { interface := [], ssid := [], mode := [], bitRate := [], channel := 0, signal := 0 }

def parseIwinfo (output : Bytes) : Option (List WifiStatus) :=
  (pieces [nl, nl] output).foldlM (fun statuses block =>
    if trimSpace block = [] then some statuses
    else do
      let ws ← parseIwinfoBlock block
      some (if ws.interface ≠ [] then statuses ++ [ws] else statuses)) []

/-- The line is looked at for its mode, and no field is behind `Mode:`. -/
def BareMode (line : Bytes) : Prop :=
  contains (ascii "ESSID:") line = false ∧
    ∃ i, index? (ascii "Mode:") line = some i ∧ fields (line.drop (i + 5)) = []

section

variable {line : Bytes} {i width : ℕ} {keyword : Bytes}

theorem sliceFrom_of_index? (h : index? keyword line = some i) (hwidth : keyword.length = width) :
    sliceFrom line (i + width) = some (line.drop (i + width)) :=
  if_pos (hwidth ▸ le_of_index? h)

theorem isSome_numberAfter (old : ℤ) (hwidth : keyword.length = width) :
    (numberAfter keyword width line old).isSome := by
  unfold numberAfter
  cases hi : index? keyword line with
  | none => rfl
  | some i =>
      simp only [sliceFrom_of_index? hi hwidth, Option.bind_eq_bind, Option.bind_some]
      cases fields (line.drop (i + width)) with
      | nil => rfl
      | cons part parts => rfl

theorem isSome_parseIwinfoLine (ws : WifiStatus) (line : Bytes) :
    (parseIwinfoLine ws line).isSome ↔ ¬BareMode line := by
  have hother : contains (ascii "Mode:") line = false → ¬BareMode line := by
    rintro hmode ⟨-, i, hi, -⟩
    rw [contains, hi] at hmode
    cases hmode
  unfold parseIwinfoLine
  split_ifs with hessid hmode hchannel hsignal hrate
  · refine iff_of_true ?_ fun hbare => absurd hessid (Bool.eq_false_iff.1 hbare.1)
    obtain ⟨i, hi⟩ := Option.isSome_iff_exists.1 hessid
    simp [cut, hi]
  · obtain ⟨i, hi⟩ := Option.isSome_iff_exists.1 hmode
    have hwidth : (ascii "Mode:").length = 5 := by decide
    rw [Bool.not_eq_true] at hessid
    simp only [BareMode, hi, sliceFrom_of_index? hi hwidth, hessid, Option.bind_eq_bind,
      Option.bind_some, Option.some.injEq, exists_eq_left', true_and]
    cases fields (line.drop (i + 5)) with
    | nil => simp
    | cons mode rest => simp
  · rw [Option.isSome_map]
    exact iff_of_true (isSome_numberAfter _ (by decide)) (hother (Bool.not_eq_true _ ▸ hmode))
  · rw [Option.isSome_map]
    exact iff_of_true (isSome_numberAfter _ (by decide)) (hother (Bool.not_eq_true _ ▸ hmode))
  · refine iff_of_true ?_ (hother (Bool.not_eq_true _ ▸ hmode))
    obtain ⟨i, hi⟩ := Option.isSome_iff_exists.1 hrate
    have hwidth : (ascii "Bit Rate:").length = 9 := by decide
    obtain ⟨first, more, hlines⟩ :=
      List.exists_cons_of_ne_nil (List.splitOn_ne_nil nl (line.drop (i + 9)))
    simp [hi, sliceFrom_of_index? hi hwidth, hlines]
  · exact iff_of_true rfl (hother (Bool.not_eq_true _ ▸ hmode))

theorem isSome_parseIwinfoBlock (block : Bytes) :
    (parseIwinfoBlock block).isSome ↔ ∀ line ∈ block.splitOn nl, ¬BareMode (trimSpace line) :=
  isSome_foldlM (fun ws line _ => isSome_parseIwinfoLine ws (trimSpace line)) _

/-- The letter `M` of a line that is looked at for its mode. -/
theorem mem_of_bareMode (h : BareMode (trimSpace line)) : (77 : UInt8) ∈ line := by
  obtain ⟨-, i, hi, -⟩ := h
  exact mem_of_mem_trimSpace (mem_of_index? hi (by decide))

/-- A blank block has no such line. -/
theorem not_bareMode_of_blank {block : Bytes} (hblank : trimSpace block = [])
    (hline : line ∈ block.splitOn nl) : ¬BareMode (trimSpace line) := by
  intro hbare
  have hmem : (77 : UInt8) ∈ block := mem_of_mem_splitOn hline (mem_of_bareMode hbare)
  have htrim := mem_trimSpace (by decide) (by decide) hmem
  rw [hblank] at htrim
  cases htrim

/-- **The interfaces are read** if and only if no line of the output is without
a mode behind its `Mode:`. -/
theorem isSome_parseIwinfo (output : Bytes) :
    (parseIwinfo output).isSome ↔ ∀ line ∈ output.splitOn nl, ¬BareMode (trimSpace line) := by
  have hblock : ∀ statuses, ∀ block ∈ pieces [nl, nl] output,
      (if trimSpace block = [] then some statuses
        else do
          let ws ← parseIwinfoBlock block
          some (if ws.interface ≠ [] then statuses ++ [ws] else statuses)).isSome ↔
        ∀ line ∈ block.splitOn nl, ¬BareMode (trimSpace line) := by
    intro statuses block _
    split_ifs with hblank
    · exact iff_of_true rfl fun line hline => not_bareMode_of_blank hblank hline
    · rw [← isSome_parseIwinfoBlock]
      cases parseIwinfoBlock block <;> simp
  unfold parseIwinfo
  rw [isSome_foldlM hblock]
  constructor
  · intro hall line hline hbare
    have hne : line ≠ [] := List.ne_nil_of_mem (mem_of_bareMode hbare)
    obtain ⟨block, hblock, hin⟩ := (mem_splitOn_pieces hne output).2 hline
    exact hall block hblock line hin hbare
  · intro hall block hblock line hline hbare
    have hne : line ≠ [] := List.ne_nil_of_mem (mem_of_bareMode hbare)
    exact hall line ((mem_splitOn_pieces hne output).1 ⟨block, hblock, hline⟩) hbare

end

/-! ## Routes -/

structure RouteEntry where
  destination : Bytes
  gateway : Bytes
  device : Bytes
  protocol : Bytes
  scope : Bytes
  metric : ℤ
deriving DecidableEq

/-- A turn of the loop over the fields. -/
def routeField (fields : List Bytes) (r : RouteEntry) (i : ℕ) : Option RouteEntry := do
  let field ← fields[i]?
  if field = ascii "via" then
    (fields[i + 1]?).map fun f => { r with gateway := f }
  else if field = ascii "dev" then
    (fields[i + 1]?).map fun f => { r with device := f }
  else if field = ascii "proto" then
    (fields[i + 1]?).map fun f => { r with protocol := f }
  else if field = ascii "scope" then
    (fields[i + 1]?).map fun f => { r with scope := f }
  else if field = ascii "metric" then
    (fields[i + 1]?).map fun f => { r with metric := parseInt f }
  else some r

def parseRouteLine (line : Bytes) : Option RouteEntry :=
  let fields := fields line
  let r : RouteEntry :=
    { destination := [], gateway := [], device := [], protocol := [], scope := [], metric := 0 }
  if fields.length = 0 then some r
  else do
    let destination ← fields[0]?
    (List.range' 1 (fields.length - 2)).foldlM (routeField fields)
      { r with destination := destination }

/-- **Every line of routes is read.** -/
theorem isSome_parseRouteLine (line : Bytes) : (parseRouteLine line).isSome := by
  unfold parseRouteLine
  generalize fields line = fs
  cases fs with
  | nil => rfl
  | cons destination rest =>
      have hturn : ∀ r, ∀ i ∈ List.range' 1 ((destination :: rest).length - 2),
          (routeField (destination :: rest) r i).isSome ↔ True := by
        intro r i hi
        obtain ⟨hlow, hhigh⟩ := List.mem_range'_1.1 hi
        -- the loop stops one before the last field
        have hnext : i + 1 < (destination :: rest).length := by omega
        unfold routeField
        rw [List.getElem?_eq_getElem (by omega), List.getElem?_eq_getElem hnext]
        simp only [Option.bind_eq_bind, Option.bind_some, iff_true]
        split_ifs <;> rfl
      simpa using (isSome_foldlM hturn _).2 (fun _ _ => trivial)

/-! ## Originators -/

section Originators

variable {F : Type} [Zero F] [LT F] [DecidableLT F]

structure BatmanOriginator (F : Type) where
  originator : Bytes
  lastSeen : Bytes
  nextHop : Bytes
  outgoingIf : Bytes
  tQuality : F

/-- A line of the originators; none where the line is skipped. `parseFloat` is
`strconv.ParseFloat`, with no value where it has an error. -/
def parseOriginatorLine (parseFloat : Bytes → Option F) (result : List (BatmanOriginator F))
    (line : Bytes) : Option (List (BatmanOriginator F)) := do
  let line := trimSpace line
  if line = [] ∨ (ascii "[").isPrefixOf line ∨ (ascii "Originator").isPrefixOf line then some result
  else
    let fields := fields line
    if fields.length < 4 then some result
    else
      let originator ← fields[0]?
      let second ← fields[1]?
      let lastSeen := if (ascii "s").isSuffixOf second then second else []
      let tQuality := (fields.findSome? fun f =>
        (parseFloat (trim (ascii "()") f)).filter fun v => 0 < v).getD 0
      let nextHop ← if 4 ≤ fields.length then fields[3]? else some []
      let outgoingIf ←
        if 5 ≤ fields.length then (fields[fields.length - 1]?).map (trim (ascii "[]")) else some []
      some (result ++ [⟨originator, lastSeen, nextHop, outgoingIf, tQuality⟩])

def parseBatctlOriginators (parseFloat : Bytes → Option F) (output : Bytes) :
    Option (List (BatmanOriginator F)) :=
  (output.splitOn nl).foldlM (parseOriginatorLine parseFloat) []

/-- **Every table of originators is read**, whatever reads as a number. -/
theorem isSome_parseBatctlOriginators (parseFloat : Bytes → Option F) (output : Bytes) :
    (parseBatctlOriginators parseFloat output).isSome := by
  have hturn : ∀ result, ∀ line ∈ output.splitOn nl,
      (parseOriginatorLine parseFloat result line).isSome ↔ True := by
    intro result line _
    unfold parseOriginatorLine
    dsimp only
    by_cases hskip : trimSpace line = [] ∨ (ascii "[").isPrefixOf (trimSpace line) ∨
        (ascii "Originator").isPrefixOf (trimSpace line)
    · rw [if_pos hskip]
      simp
    rw [if_neg hskip]
    generalize fields (trimSpace line) = fs
    by_cases hshort : fs.length < 4
    · simp [hshort]
    rw [if_neg hshort]
    have hget : ∀ k, k < fs.length → ∃ f, fs[k]? = some f := fun k hk =>
      ⟨fs[k], List.getElem?_eq_getElem hk⟩
    obtain ⟨f₀, h₀⟩ := hget 0 (by omega)
    obtain ⟨f₁, h₁⟩ := hget 1 (by omega)
    obtain ⟨f₃, h₃⟩ := hget 3 (by omega)
    obtain ⟨last, hlast⟩ := hget (fs.length - 1) (by omega)
    have hfour : 4 ≤ fs.length := Nat.not_lt.1 hshort
    by_cases hfive : 5 ≤ fs.length
    · simp [h₀, h₁, h₃, hlast, hfour, hfive]
    · simp [h₀, h₁, h₃, hfour, hfive]
  exact (isSome_foldlM hturn []).2 fun _ _ => trivial

/-! ## The four pages -/

/-- **Which texts the status pages survive.** -/
theorem isSome_iff (parseFloat : Bytes → Option F) (text : Bytes) :
    ((parseProcNetDev text).isSome ↔ ∀ line ∈ (text.splitOn nl).drop 2, ¬TenFields line) ∧
    ((parseIwinfo text).isSome ↔ ∀ line ∈ text.splitOn nl, ¬BareMode (trimSpace line)) ∧
    (parseRouteLine text).isSome ∧
    (parseBatctlOriginators parseFloat text).isSome :=
  ⟨isSome_parseProcNetDev text, isSome_parseIwinfo text, isSome_parseRouteLine text,
    isSome_parseBatctlOriginators parseFloat text⟩

/-- A line of counters is cut short behind the tenth, and a line of `iwinfo`
behind its keyword. -/
theorem isSome_eq_false :
    parseProcNetDev (ascii "Inter-|\n face |\neth0: 1 2 3 4 5 6 7 8 9 10\n") = none ∧
      parseIwinfo (ascii "wlan0 ESSID: \"mesh\"\n  Mode:\n") = none := by
  constructor
  · decide +kernel
  · decide +kernel

end Originators

end Handlers

end OpenManet
