import OpenManet.Lib.Text
import Mathlib.Data.Nat.Notation
/-!
# The regulatory database

The HaLow channels each country allows at each width, read from the rows of
the table the firmware ships. A row that names no country, or whose numbers
cannot be read, is skipped, so every country of the database allows some
width, and every width it allows has some channel.
-/

namespace OpenManet

namespace Network

/-- `strings.ToUpper`, on ASCII letters. -/
def toUpper (s : String) : String := String.ofList (s.toList.map Text.upperRune)

theorem upperRune_upperRune (c : Char) : Text.upperRune (Text.upperRune c) = Text.upperRune c := by
  unfold Text.upperRune
  by_cases hlower : 'a' ≤ c ∧ c ≤ 'z'
  · have hlow : 97 ≤ c.toNat := hlower.1
    have hhigh : c.toNat ≤ 122 := hlower.2
    rw [if_pos hlower, if_neg]
    rintro ⟨hlow', -⟩
    have hvalid : (c.toNat - 32).isValidChar := .inl (by omega)
    have hstill : 97 ≤ (Char.ofNat (c.toNat - 32)).toNat := hlow'
    have hval : (Char.ofNat (c.toNat - 32)).toNat = c.toNat - 32 := by
      rw [Char.ofNat, dif_pos hvalid]
      rfl
    omega
  · rw [if_neg hlower, if_neg hlower]

theorem toUpper_toUpper (s : String) : toUpper (toUpper s) = toUpper s := by
  unfold toUpper
  rw [String.toList_ofList, List.map_map]
  congr 2
  funext c
  exact upperRune_upperRune c

/-- The legal channels at one width. -/
structure BandwidthChannels where
  channels : List ℕ
  mhz : ℕ
deriving DecidableEq

structure Country where
  code : String
  name : String
  bandwidths : List BandwidthChannels
deriving DecidableEq

/-- The entry is one of the database: its code is in upper case, and every
width it lists has a channel. -/
structure Country.Listed (c : Country) : Prop where
  upper : toUpper c.code = c.code
  wide : c.bandwidths ≠ []
  tuned : ∀ b ∈ c.bandwidths, b.channels ≠ []

/-- `DB`: the countries, in the order of their codes. -/
structure DB where
  countries : List Country
  listed : ∀ c ∈ countries, c.Listed

/-- The channels a country allows at a width. -/
def Country.channelsAt (c : Country) (bandwidthMhz : ℕ) : List ℕ :=
  match c.bandwidths.find? fun b => b.mhz = bandwidthMhz with
  | some b => b.channels
  | none => []

def isLegalIn (countries : List Country) (country : String) (bandwidthMhz channel : ℕ) : Bool :=
  match countries.find? fun c => c.code = toUpper country with
  | some c => channel ∈ c.channelsAt bandwidthMhz
  | none => false

/-- `IsLegalChannel`. -/
def DB.isLegalChannel (d : DB) : String → ℕ → ℕ → Bool := isLegalIn d.countries

/-! ## Reading the table -/

/-- The columns of a row that are read; a number that cannot be read is
none. -/
structure Row where
  code : String
  name : String
  bw : Option ℕ
  channel : Option ℕ

/-- The entry of a width, with one channel more. -/
def appendTo (bw ch : ℕ) : List BandwidthChannels → List BandwidthChannels
  | [] => [⟨[ch], bw⟩]
  | b :: bs =>
      if b.mhz = bw then { b with channels := b.channels ++ [ch] } :: bs
      else b :: appendTo bw ch bs

def Country.appendChannel (c : Country) (bw ch : ℕ) : Country :=
  { c with bandwidths := appendTo bw ch c.bandwidths }

/-- A later row gives a country the name the earlier ones left empty. -/
def Country.named (c : Country) (name : String) : Country :=
  { c with name := if c.name = "" then name else c.name }

def trimmed (s : String) : String := String.ofList (Text.trimSpace s.toList)

/-- One turn of the loop of `Parse`. -/
def addRow (countries : List Country) (row : Row) : List Country :=
  let code := toUpper (trimmed row.code)
  let name := trimmed row.name
  match row.bw, row.channel with
  | some bw, some ch =>
      if code = "" then countries
      -- the channel has been seen
      else if isLegalIn countries code bw ch then countries
      else if countries.any fun c => c.code = code then
        countries.map fun c => if c.code = code then (c.named name).appendChannel bw ch else c
      else countries ++ [⟨code, name, [⟨[ch], bw⟩]⟩]
  | _, _ => countries

def BandwidthChannels.normalize (b : BandwidthChannels) : BandwidthChannels :=
  { b with channels := b.channels.mergeSort }

def Country.normalize (c : Country) : Country :=
  { c with bandwidths :=
      (c.bandwidths.mergeSort fun a b => a.mhz ≤ b.mhz).map BandwidthChannels.normalize }

section Parse

variable {c : Country} {countries : List Country} {bw ch : ℕ} {name : String}

theorem appendTo_ne_nil (bs : List BandwidthChannels) : appendTo bw ch bs ≠ [] := by
  cases bs with
  | nil => exact List.cons_ne_nil _ _
  | cons b bs =>
      unfold appendTo
      split_ifs
      · exact List.cons_ne_nil _ _
      · exact List.cons_ne_nil _ _

theorem tuned_appendTo {bs : List BandwidthChannels} (h : ∀ b ∈ bs, b.channels ≠ []) :
    ∀ b ∈ appendTo bw ch bs, b.channels ≠ [] := by
  induction bs with
  | nil => simp [appendTo]
  | cons b bs ih =>
      have hrest := ih fun b' hb' => h b' (List.mem_cons_of_mem _ hb')
      unfold appendTo
      split_ifs
      · intro b' hb'
        rcases List.mem_cons.1 hb' with rfl | hb'
        · simp
        · exact h b' (List.mem_cons_of_mem _ hb')
      · intro b' hb'
        rcases List.mem_cons.1 hb' with rfl | hb'
        · exact h b' (List.mem_cons_self ..)
        · exact hrest b' hb'

theorem Country.Listed.appendChannel (h : c.Listed) : ((c.named name).appendChannel bw ch).Listed :=
  ⟨h.upper, appendTo_ne_nil _, tuned_appendTo h.tuned⟩

theorem Country.Listed.normalize (h : c.Listed) : c.normalize.Listed := by
  refine ⟨h.upper, fun hnil => h.wide ?_, fun b hb => ?_⟩
  · rw [Country.normalize, List.map_eq_nil_iff] at hnil
    have hperm := List.mergeSort_perm c.bandwidths fun a b => decide (a.mhz ≤ b.mhz)
    rw [hnil] at hperm
    exact hperm.symm.eq_nil
  · obtain ⟨b', hb', rfl⟩ := List.mem_map.1 hb
    intro (hnil : (b'.channels.mergeSort fun a b => decide (a ≤ b)) = [])
    have hperm := List.mergeSort_perm b'.channels fun a b => decide (a ≤ b)
    rw [hnil] at hperm
    exact h.tuned b' (List.mem_mergeSort.1 hb') hperm.symm.eq_nil

/-- **One row keeps the countries listed.** -/
theorem listed_addRow (h : ∀ c ∈ countries, c.Listed) (row : Row) :
    ∀ c ∈ addRow countries row, c.Listed := by
  unfold addRow
  dsimp only
  split
  · split_ifs with hempty hseen hknown
    · exact h
    · exact h
    · intro c hc
      obtain ⟨c', hc', rfl⟩ := List.mem_map.1 hc
      split_ifs
      · exact (h c' hc').appendChannel
      · exact h c' hc'
    · intro c hc
      rcases List.mem_append.1 hc with hc | hc
      · exact h c hc
      · obtain rfl := List.mem_singleton.1 hc
        exact ⟨toUpper_toUpper _, List.cons_ne_nil _ _, by simp⟩
  · exact h

theorem listed_foldl (h : ∀ c ∈ countries, c.Listed) (rows : List Row) :
    ∀ c ∈ rows.foldl addRow countries, c.Listed := by
  induction rows generalizing countries with
  | nil => exact h
  | cons row rows ih => exact ih (listed_addRow h row)

end Parse

/-- `Parse`, from the rows on. -/
def DB.parse (rows : List Row) : DB where
  countries := ((rows.foldl addRow []).map Country.normalize).mergeSort fun a b => a.code ≤ b.code
  listed := by
    intro c hc
    obtain ⟨c', hc', rfl⟩ := List.mem_map.1 (List.mem_mergeSort.1 hc)
    exact (listed_foldl (fun _ h => absurd h List.not_mem_nil) rows c' hc').normalize

/-! ## Legal channels -/

/-- A channel the database lists under a code is legal there. -/
theorem DB.isLegalChannel_of_find {d : DB} {c : Country} {country : String} {bw ch : ℕ}
    (hfind : (d.countries.find? fun c => c.code = country) = some c)
    (hch : ch ∈ c.channelsAt bw) : d.isLegalChannel country bw ch = true := by
  have hcode : c.code = country := by simpa using List.find?_some hfind
  have hupper : toUpper country = country := by
    rw [← hcode]
    exact (d.listed c (List.mem_of_find?_eq_some hfind)).upper
  rw [DB.isLegalChannel, isLegalIn, hupper, hfind]
  simpa using hch

end Network

end OpenManet
