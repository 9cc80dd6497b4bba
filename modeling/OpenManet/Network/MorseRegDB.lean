import OpenManet.Lib.Decimal
import OpenManet.Lib.Grouped
import OpenManet.Network.RegDB
import Mathlib.Data.String.Basic
/-!
# The regulatory database — from the rows of the file

`internal/network/morseregdb`, from what `encoding/csv` yields on: the columns
are found by their names, rows that are cut short or cannot be read are
skipped, and the others are grouped by country and width and sorted.

Two views are kept of one table. `IsLegalChannel` looks a country up and a
width in it; `Countries` lists everything in order. Both are the same set of
tuples, and it is what the rows say, whatever their order: a country's display
name is all that the order decides.

A rune's case is what `unicode` says it is (`Unicode`), and 64-bit integers
hold the difference of two widths.
-/

namespace OpenManet

namespace Network

namespace MorseRegDB

/-- `unicode.ToUpper` and `unicode.ToLower`. -/
structure Unicode where
  upper : Char → Char
  lower : Char → Char
  upper_upper : ∀ c, upper (upper c) = upper c

namespace Unicode

variable (u : Unicode)

/-- `strings.ToUpper`. -/
def toUpper (s : String) : String := String.ofList (s.toList.map u.upper)

/-- `strings.ToLower`. -/
def toLower (s : String) : String := String.ofList (s.toList.map u.lower)

theorem toUpper_toUpper (s : String) : u.toUpper (u.toUpper s) = u.toUpper s := by
  unfold toUpper
  rw [String.toList_ofList, List.map_map]
  congr 2
  funext c
  exact u.upper_upper c

theorem toUpper_eq_empty {s : String} : u.toUpper s = "" ↔ s = "" := by
  rw [← String.toList_inj, toUpper, String.toList_ofList, ← String.toList_inj]
  simp

/-- The runes of ASCII alone. -/
def ascii : Unicode := ⟨Text.upperRune, Text.lowerRune, upperRune_upperRune⟩

end Unicode

/-! ## Rows -/

/-- `strconv.ParseUint(s, 10, 32)`. -/
def parseUint (s : String) : Option ℕ :=
  if s.toList ≠ [] ∧ s.toList.all Char.isDigit = true ∧ Decimal.value s.toList < 2 ^ 32 then
    some (Decimal.value s.toList)
  else none

/-- `columnIndices`. -/
structure ColumnIndices where
  code : ℕ
  bw : ℕ
  channel : ℕ
  name : ℕ

/-- `maxIndex`. -/
def ColumnIndices.maxIndex (c : ColumnIndices) : ℕ :=
  [c.bw, c.channel, c.name].foldl (fun m v => if m < v then v else m) c.code

/-- The last column of a name. -/
def column (u : Unicode) (header : List String) (name : String) : Option ℕ :=
  header.zipIdx.foldl (fun idx e => if u.toLower (trimmed e.1) = name then some e.2 else idx) none

/-- `indexColumns`: none where one of the four is missing. -/
def indexColumns (u : Unicode) (header : List String) : Option ColumnIndices := do
  let code ← column u header "country_code"
  let bw ← column u header "bw"
  let channel ← column u header "s1g_chan"
  let name ← column u header "country"
  return ⟨code, bw, channel, name⟩

/-- A channel, under its width and the code of its country. -/
abbrev Tuple : Type := String × ℕ × ℕ

/-- What a turn of the loop of `Parse` takes from a row: the tuple and the
name, or nothing where it goes on to the next. -/
def readRow (u : Unicode) (cols : ColumnIndices) (row : List String) : Option (Tuple × String) :=
  if row.length ≤ cols.maxIndex then none
  else
    let code := u.toUpper (trimmed (row.getD cols.code ""))
    let name := trimmed (row.getD cols.name "")
    match parseUint (trimmed (row.getD cols.bw "")) with
    | none => none
    | some bw =>
        match parseUint (trimmed (row.getD cols.channel "")) with
        | none => none
        | some ch => if code = "" then none else some ((code, bw, ch), name)

/-- What the loop of `Parse` keeps: `channelSeen` and `byCode`. -/
structure Loading where
  seen : List Tuple
  byCode : List Country

/-- A tuple the loop comes to. -/
def Loading.add (s : Loading) (t : Tuple) (name : String) : Loading :=
  if t ∈ s.seen then s
  else
    { seen := t :: s.seen
      byCode :=
        if s.byCode.any fun c => c.code = t.1 then
          s.byCode.map fun c =>
            if c.code = t.1 then (c.named name).appendChannel t.2.1 t.2.2 else c
        else s.byCode ++ [((⟨t.1, name, []⟩ : Country).named name).appendChannel t.2.1 t.2.2] }

/-- A turn of the loop. -/
def Loading.turn (u : Unicode) (cols : ColumnIndices) (s : Loading) (row : List String) : Loading :=
  match readRow u cols row with
  | none => s
  | some (t, name) => s.add t name

/-- `DB`. -/
structure DB where
  byCode : List Country
  codes : List String

/-- `Parse`. -/
def parse (u : Unicode) (header : List String) (rows : List (List String)) : Option DB :=
  (indexColumns u header).map fun cols =>
    let byCode := (rows.foldl (Loading.turn u cols) ⟨[], []⟩).byCode.map Country.normalize
    ⟨byCode, (byCode.map Country.code).mergeSort fun a b => a ≤ b⟩

namespace DB

variable (d : DB)

/-- `Countries`. -/
def countries : List Country :=
  d.codes.filterMap fun code => d.byCode.find? fun c => c.code = code

/-- `IsLegalChannel`. -/
def isLegalChannel (u : Unicode) (country : String) (bandwidthMhz channel : ℕ) : Bool :=
  match d.byCode.find? fun c => c.code = u.toUpper country with
  | none => false
  | some c => channel ∈ c.channelsAt bandwidthMhz

end DB

/-! ## Tuples -/

/-- The tuples of a country. -/
def tuplesOf (c : Country) : List Tuple :=
  c.bandwidths.flatMap fun b => b.channels.map fun ch => (c.code, b.mhz, ch)

/-- The tuples of some countries. -/
def tuples (cs : List Country) : List Tuple := cs.flatMap tuplesOf

section Tuples

variable {c : Country} {cs : List Country} {t : Tuple} {bw ch : ℕ} {name : String}

theorem mem_tuplesOf : t ∈ tuplesOf c ↔
    c.code = t.1 ∧ ∃ b ∈ c.bandwidths, b.mhz = t.2.1 ∧ t.2.2 ∈ b.channels := by
  obtain ⟨code, bw, ch⟩ := t
  simp only [tuplesOf, List.mem_flatMap, List.mem_map, Prod.mk.injEq]
  constructor
  · rintro ⟨b, hb, ch', hch, rfl, rfl, rfl⟩
    exact ⟨rfl, b, hb, rfl, hch⟩
  · rintro ⟨rfl, b, hb, rfl, hch⟩
    exact ⟨b, hb, ch, hch, rfl, rfl, rfl⟩

/-- The tuples of one of the elements of a list are some of those of all. -/
theorem sublist_flatMap {α β : Type} {f : α → List β} {l : List α} {a : α} (ha : a ∈ l) :
    (f a).Sublist (l.flatMap f) := by
  rw [List.flatMap_def]
  exact List.sublist_flatten_of_mem (List.mem_map_of_mem ha)

theorem mem_tuples : t ∈ tuples cs ↔ ∃ c ∈ cs, t ∈ tuplesOf c := List.mem_flatMap

/-- One channel more is one tuple more. -/
theorem perm_appendTo (code : String) (bs : List BandwidthChannels) :
    ((appendTo bw ch bs).flatMap fun b => b.channels.map fun ch => (code, b.mhz, ch)).Perm
      ((code, bw, ch) :: bs.flatMap fun b => b.channels.map fun ch => (code, b.mhz, ch)) := by
  induction bs with
  | nil => exact List.Perm.refl _
  | cons b bs ih =>
      unfold appendTo
      split
      · next hmhz =>
        subst hmhz
        rw [List.flatMap_cons, List.flatMap_cons, List.map_append, List.append_assoc]
        exact List.perm_middle
      · rw [List.flatMap_cons, List.flatMap_cons]
        exact (ih.append_left _).trans List.perm_middle

theorem tuplesOf_appendChannel :
    (tuplesOf ((c.named name).appendChannel bw ch)).Perm ((c.code, bw, ch) :: tuplesOf c) :=
  perm_appendTo c.code c.bandwidths

/-- The widths with one channel more. -/
theorem mhz_appendTo (bs : List BandwidthChannels) : (appendTo bw ch bs).map (·.mhz) =
    if bw ∈ bs.map (·.mhz) then bs.map (·.mhz) else bs.map (·.mhz) ++ [bw] := by
  induction bs with
  | nil => rfl
  | cons b bs ih =>
      unfold appendTo
      by_cases hmhz : b.mhz = bw
      · simp [hmhz]
      · have hne : ¬ bw = b.mhz := Ne.symm hmhz
        simp only [if_neg hmhz, List.map_cons, ih, List.mem_cons, hne, false_or]
        split <;> rfl

theorem nodup_appendTo {bs : List BandwidthChannels} (h : (bs.map (·.mhz)).Nodup) :
    ((appendTo bw ch bs).map (·.mhz)).Nodup := by
  rw [mhz_appendTo]
  split
  · exact h
  · next hnew =>
    refine List.nodup_append.2 ⟨h, List.nodup_singleton _, fun x hx y hy heq => hnew ?_⟩
    rwa [← List.mem_singleton.1 hy, ← heq]

/-- Sorting changes no tuple. -/
theorem mem_tuplesOf_normalize : t ∈ tuplesOf c.normalize ↔ t ∈ tuplesOf c := by
  rw [mem_tuplesOf, mem_tuplesOf]
  simp only [Country.normalize, List.mem_map, List.mem_mergeSort, exists_exists_and_eq_and,
    BandwidthChannels.normalize]

end Tuples

/-- **Looking a channel up**, in the entry of a country and then in that of a
width, finds it if it is a tuple: no code and no width is there twice. -/
theorem lookup_iff {cs : List Country} (hcodes : (cs.map Country.code).Nodup)
    (hwidths : ∀ c ∈ cs, (c.bandwidths.map (·.mhz)).Nodup) (code : String) (bw ch : ℕ) :
    (match cs.find? fun c => c.code = code with
      | none => false
      | some c => decide (ch ∈ c.channelsAt bw)) = true ↔ (code, bw, ch) ∈ tuples cs := by
  rw [mem_tuples]
  simp only [mem_tuplesOf]
  cases hfind : cs.find? fun c => c.code = code with
  | none =>
      refine iff_of_false Bool.false_ne_true ?_
      rintro ⟨c, hc, hcode, -⟩
      exact List.find?_eq_none.1 hfind c hc (decide_eq_true hcode)
  | some c =>
      obtain ⟨hc, hcode⟩ := (Grouped.find?_eq_some_iff hcodes).1 hfind
      have hlisted : ch ∈ c.channelsAt bw ↔ ∃ b ∈ c.bandwidths, b.mhz = bw ∧ ch ∈ b.channels := by
        unfold Country.channelsAt
        cases hwidth : c.bandwidths.find? fun b => b.mhz = bw with
        | none =>
            refine iff_of_false List.not_mem_nil ?_
            rintro ⟨b, hb, hmhz, -⟩
            exact List.find?_eq_none.1 hwidth b hb (decide_eq_true hmhz)
        | some b =>
            obtain ⟨hb, hmhz⟩ := (Grouped.find?_eq_some_iff (hwidths c hc)).1 hwidth
            refine ⟨fun hch => ⟨b, hb, hmhz, hch⟩, ?_⟩
            rintro ⟨b', hb', hmhz', hch⟩
            rwa [List.inj_on_of_nodup_map (hwidths c hc) hb hb' (hmhz.trans hmhz'.symm)]
      simp only [decide_eq_true_eq, hlisted]
      constructor
      · intro hlegal
        exact ⟨c, hc, hcode, hlegal⟩
      · rintro ⟨c', hc', hcode', hlegal⟩
        rwa [List.inj_on_of_nodup_map hcodes hc hc' (hcode.trans hcode'.symm)]

/-! ## The loop -/

/-- A country of the loop: each width once, and no group empty. -/
structure Grown (c : Country) : Prop where
  widths : (c.bandwidths.map (·.mhz)).Nodup
  wide : c.bandwidths ≠ []
  tuned : ∀ b ∈ c.bandwidths, b.channels ≠ []

/-- **What has been seen is what is grouped**, once each. -/
structure Loading.Sound (s : Loading) : Prop where
  nodup : s.seen.Nodup
  listed : (tuples s.byCode).Perm s.seen
  codes : (s.byCode.map Country.code).Nodup
  grown : ∀ c ∈ s.byCode, Grown c

namespace Loading

variable {s : Loading} {t : Tuple} {name : String}

theorem Sound.empty : Sound ⟨[], []⟩ := ⟨List.nodup_nil, List.Perm.refl _, List.nodup_nil, nofun⟩

theorem grown_appendChannel {c : Country} (hwidths : (c.bandwidths.map (·.mhz)).Nodup)
    (htuned : ∀ b ∈ c.bandwidths, b.channels ≠ []) {bw ch : ℕ} :
    Grown ((c.named name).appendChannel bw ch) :=
  ⟨nodup_appendTo hwidths, appendTo_ne_nil _, tuned_appendTo htuned⟩

/-- **A new tuple** goes to the group it belongs to, or opens one. -/
theorem Sound.add (h : s.Sound) : (s.add t name).Sound := by
  unfold Loading.add
  split_ifs with hseen hknown
  · exact h
  · obtain ⟨c, hc, hcode⟩ : ∃ c ∈ s.byCode, c.code = t.1 := by simpa using hknown
    obtain ⟨before, after, hsplit, hmap⟩ := Grouped.map_at_key h.codes hc
      fun c => (c.named name).appendChannel t.2.1 t.2.2
    rw [hcode] at hmap
    refine ⟨List.nodup_cons.2 ⟨hseen, h.nodup⟩, ?_, ?_, fun c' hc' => ?_⟩
    · dsimp only
      rw [hmap, tuples, List.flatMap_append, List.flatMap_cons]
      refine List.Perm.trans ?_ (h.listed.cons t)
      rw [hsplit, tuples, List.flatMap_append, List.flatMap_cons]
      refine ((tuplesOf_appendChannel.append_right _).append_left _).trans ?_
      rw [hcode]
      exact List.perm_middle
    · dsimp only
      rw [hmap, List.map_append, List.map_cons]
      have hcodes := h.codes
      rwa [hsplit, List.map_append, List.map_cons] at hcodes
    · dsimp only at hc'
      obtain ⟨old, hold, rfl⟩ := List.mem_map.1 hc'
      split
      · exact grown_appendChannel (h.grown old hold).widths (h.grown old hold).tuned
      · exact h.grown old hold
  · have hnew : ∀ c ∈ s.byCode, c.code ≠ t.1 := by simpa using hknown
    refine ⟨List.nodup_cons.2 ⟨hseen, h.nodup⟩, ?_, ?_, fun c' hc' => ?_⟩
    · dsimp only
      rw [tuples, List.flatMap_append]
      exact List.perm_append_comm.trans (h.listed.cons t)
    · dsimp only
      rw [List.map_append, List.nodup_append]
      refine ⟨h.codes, List.nodup_singleton _, fun code hcode code' hcode' heq => ?_⟩
      obtain ⟨c, hc, rfl⟩ := List.mem_map.1 hcode
      exact hnew c hc (heq.trans (List.mem_singleton.1 hcode'))
    · dsimp only at hc'
      rcases List.mem_append.1 hc' with hold | hadded
      · exact h.grown c' hold
      · rw [List.mem_singleton.1 hadded]
        exact grown_appendChannel (c := ⟨t.1, name, []⟩) List.nodup_nil nofun

theorem Sound.turn (h : s.Sound) (u : Unicode) (cols : ColumnIndices) (row : List String) :
    (s.turn u cols row).Sound := by
  unfold Loading.turn
  split
  · exact h
  · exact h.add

theorem mem_seen_add {t' : Tuple} : t' ∈ (s.add t name).seen ↔ t' ∈ s.seen ∨ t' = t := by
  unfold Loading.add
  split_ifs with hseen hknown
  · exact ⟨.inl, fun h => h.elim id fun heq => heq ▸ hseen⟩
  · rw [List.mem_cons, or_comm]
  · rw [List.mem_cons, or_comm]

/-- **The loop** keeps its groups, and has seen what its rows give. -/
theorem sound_foldl (u : Unicode) (cols : ColumnIndices) (rows : List (List String)) (h : s.Sound) :
    (rows.foldl (Loading.turn u cols) s).Sound ∧
      ∀ t, t ∈ (rows.foldl (Loading.turn u cols) s).seen ↔
        t ∈ s.seen ∨ ∃ row ∈ rows, ∃ name, readRow u cols row = some (t, name) := by
  induction rows generalizing s with
  | nil => exact ⟨h, fun t => by simp⟩
  | cons row rows ih =>
      obtain ⟨hsound, hseen⟩ := ih (h.turn u cols row)
      refine ⟨hsound, fun t => ?_⟩
      rw [List.foldl_cons, hseen]
      have hturn : t ∈ (s.turn u cols row).seen ↔
          t ∈ s.seen ∨ ∃ name, readRow u cols row = some (t, name) := by
        unfold Loading.turn
        cases hrow : readRow u cols row with
        | none => simp
        | some e =>
            obtain ⟨t', name⟩ := e
            simp only [mem_seen_add, Option.some.injEq, Prod.mk.injEq, exists_eq_right', eq_comm]
      rw [hturn, or_assoc]
      simp only [List.mem_cons, exists_eq_or_imp]

end Loading

/-! ## The database -/

/-- **In order, each once**: the countries by their codes, the widths of each by
their megahertz, the channels of each by their numbers. -/
structure Ordered (cs : List Country) : Prop where
  codes : Grouped.Sorted Country.code cs
  widths : ∀ c ∈ cs, Grouped.Sorted BandwidthChannels.mhz c.bandwidths
  channels : ∀ c ∈ cs, ∀ b ∈ c.bandwidths, b.channels.Pairwise (· < ·)

/-- A country of the database: sorted, and no group empty. -/
structure Normal (c : Country) : Prop where
  widths : Grouped.Sorted BandwidthChannels.mhz c.bandwidths
  channels : ∀ b ∈ c.bandwidths, b.channels.Pairwise (· < ·)
  wide : c.bandwidths ≠ []
  tuned : ∀ b ∈ c.bandwidths, b.channels ≠ []

/-- The database is well kept: an entry under each code, the codes in order. -/
structure DB.Kept (d : DB) : Prop where
  entries : (d.byCode.map Country.code).Nodup
  codes : d.codes.Pairwise (· < ·)
  perm : d.codes.Perm (d.byCode.map Country.code)
  normal : ∀ c ∈ d.byCode, Normal c

theorem pairwise_mergeSort {α : Type} [LinearOrder α] {l : List α} (h : l.Nodup) :
    (l.mergeSort fun a b => a ≤ b).Pairwise (· < ·) := by
  have hkeys : (l.map id).Nodup := by rwa [List.map_id]
  exact Grouped.sorted_mergeSort hkeys

/-- **Sorting a country** leaves each width and each channel once. -/
theorem Grown.normalize {c : Country} (h : Grown c) (htuples : (tuplesOf c).Nodup) :
    Normal c.normalize := by
  have hwidths := Grouped.sorted_mergeSort h.widths
  have hmem : ∀ b ∈ c.normalize.bandwidths, ∃ b' ∈ c.bandwidths, b'.normalize = b := by
    intro b hb
    obtain ⟨b', hb', rfl⟩ := List.mem_map.1 hb
    exact ⟨b', List.mem_mergeSort.1 hb', rfl⟩
  refine ⟨List.pairwise_map.2 hwidths, fun b hb => ?_, fun hnil => h.wide ?_, fun b hb => ?_⟩
  · obtain ⟨b', hb', rfl⟩ := hmem b hb
    have hall : (b'.channels.map fun ch => (c.code, b'.mhz, ch)).Sublist (tuplesOf c) :=
      sublist_flatMap (f := fun b => b.channels.map fun ch => (c.code, b.mhz, ch)) hb'
    exact pairwise_mergeSort ((htuples.sublist hall).of_map _)
  · have hlength := congrArg List.length hnil
    rw [Country.normalize, List.length_map, List.length_mergeSort, List.length_nil] at hlength
    exact List.length_eq_zero_iff.1 hlength
  · obtain ⟨b', hb', rfl⟩ := hmem b hb
    intro hnil
    have hlength := congrArg List.length hnil
    rw [BandwidthChannels.normalize, List.length_mergeSort, List.length_nil] at hlength
    exact h.tuned b' hb' (List.length_eq_zero_iff.1 hlength)

theorem Loading.Sound.kept {s : Loading} (h : s.Sound) :
    let byCode := s.byCode.map Country.normalize
    DB.Kept ⟨byCode, (byCode.map Country.code).mergeSort fun a b => a ≤ b⟩ := by
  have hcodes : ((s.byCode.map Country.normalize).map Country.code).Nodup := by
    rw [List.map_map]
    exact h.codes
  refine ⟨hcodes, pairwise_mergeSort hcodes, List.mergeSort_perm _ _, fun c hc => ?_⟩
  obtain ⟨c', hc', rfl⟩ := List.mem_map.1 hc
  exact (h.grown c' hc').normalize ((h.listed.nodup_iff.2 h.nodup).sublist (sublist_flatMap hc'))

namespace DB.Kept

variable {d : DB} {c : Country} {u : Unicode}

/-- `Countries` lists the entries. -/
theorem mem_countries (h : d.Kept) : c ∈ d.countries ↔ c ∈ d.byCode := by
  rw [DB.countries, List.mem_filterMap]
  constructor
  · rintro ⟨code, -, hfind⟩
    exact ((Grouped.find?_eq_some_iff h.entries).1 hfind).1
  · intro hc
    exact ⟨c.code, h.perm.mem_iff.2 (List.mem_map_of_mem hc),
      (Grouped.find?_eq_some_iff h.entries).2 ⟨hc, rfl⟩⟩

/-- And lists them in order. -/
theorem ordered (h : d.Kept) : Ordered d.countries := by
  refine ⟨?_, fun c hc => (h.normal c (h.mem_countries.1 hc)).widths,
    fun c hc => (h.normal c (h.mem_countries.1 hc)).channels⟩
  refine List.Pairwise.filterMap _ (fun code code' hlt c hc c' hc' => ?_) h.codes
  obtain ⟨-, rfl⟩ := (Grouped.find?_eq_some_iff h.entries).1 hc
  obtain ⟨-, rfl⟩ := (Grouped.find?_eq_some_iff h.entries).1 hc'
  exact hlt

/-- **The two views agree**: a channel is legal in a country if the tuple is
listed. -/
theorem isLegalChannel_iff (h : d.Kept) {country : String} {bw ch : ℕ} :
    d.isLegalChannel u country bw ch = true ↔ (u.toUpper country, bw, ch) ∈ tuples d.countries := by
  have hlookup := lookup_iff h.entries (fun c hc => (h.normal c hc).widths.nodup)
    (u.toUpper country) bw ch
  rw [mem_tuples] at hlookup ⊢
  simp only [h.mem_countries]
  exact hlookup

end DB.Kept

/-! ## What the rows say -/

/-- **The row grants the channel**: it is long enough for the four columns, its
country is the one in question but for case and is not empty, and its width and
channel are these numbers. -/
structure Grants (u : Unicode) (cols : ColumnIndices) (row : List String) (country : String)
    (bw ch : ℕ) : Prop where
  long : cols.code < row.length ∧ cols.bw < row.length ∧ cols.channel < row.length ∧
    cols.name < row.length
  named : trimmed (row.getD cols.code "") ≠ ""
  country : u.toUpper (trimmed (row.getD cols.code "")) = u.toUpper country
  bw : parseUint (trimmed (row.getD cols.bw "")) = some bw
  channel : parseUint (trimmed (row.getD cols.channel "")) = some ch

theorem maxIndex_lt_iff {cols : ColumnIndices} {n : ℕ} : cols.maxIndex < n ↔
    cols.code < n ∧ cols.bw < n ∧ cols.channel < n ∧ cols.name < n := by
  simp only [ColumnIndices.maxIndex, List.foldl_cons, List.foldl_nil]
  split_ifs <;> omega

/-- What a row is read as. -/
theorem readRow_eq_some {u : Unicode} {cols : ColumnIndices} {row : List String} {t : Tuple}
    {name : String} : readRow u cols row = some (t, name) ↔
      cols.maxIndex < row.length ∧ u.toUpper (trimmed (row.getD cols.code "")) ≠ "" ∧
        u.toUpper (trimmed (row.getD cols.code "")) = t.1 ∧
        parseUint (trimmed (row.getD cols.bw "")) = some t.2.1 ∧
        parseUint (trimmed (row.getD cols.channel "")) = some t.2.2 ∧
        trimmed (row.getD cols.name "") = name := by
  obtain ⟨code, bw, ch⟩ := t
  rw [← Nat.not_le]
  unfold readRow
  by_cases hlong : row.length ≤ cols.maxIndex
  · simp [hlong]
  · rw [if_neg hlong]
    cases hbw : parseUint (trimmed (row.getD cols.bw "")) with
    | none => simp
    | some bw' =>
        cases hch : parseUint (trimmed (row.getD cols.channel "")) with
        | none => simp
        | some ch' => simp [hlong, and_assoc]

/-- A row is read where it grants something, and as what it grants. -/
theorem readRow_iff {u : Unicode} {cols : ColumnIndices} {row : List String} {country : String}
    {bw ch : ℕ} : (∃ name, readRow u cols row = some ((u.toUpper country, bw, ch), name)) ↔
      Grants u cols row country bw ch := by
  simp only [readRow_eq_some, ne_eq, u.toUpper_eq_empty, maxIndex_lt_iff]
  constructor
  · rintro ⟨name, hlong, hnamed, hcountry, hbw, hch, -⟩
    exact ⟨hlong, hnamed, hcountry, hbw, hch⟩
  · rintro ⟨hlong, hnamed, hcountry, hbw, hch⟩
    exact ⟨_, hlong, hnamed, hcountry, hbw, hch, rfl⟩

/-- A country's display name apart. -/
def nameless (c : Country) : String × List BandwidthChannels := (c.code, c.bandwidths)

/-- **Two databases of the same tuples** list the same, names apart. -/
theorem nameless_eq {d d' : DB} (h : d.Kept) (h' : d'.Kept)
    (htuples : ∀ t, t ∈ tuples d.countries ↔ t ∈ tuples d'.countries) :
    d.countries.map nameless = d'.countries.map nameless := by
  have hsorted : ∀ {d : DB}, d.Kept → Grouped.Sorted Prod.fst (d.countries.map nameless) :=
    fun hd => List.pairwise_map.2 hd.ordered.codes
  have hnormal : ∀ {d : DB}, d.Kept → ∀ g ∈ d.countries.map nameless,
      Normal ⟨g.1, "", g.2⟩ := by
    intro d hd g hg
    obtain ⟨c, hc, rfl⟩ := List.mem_map.1 hg
    obtain ⟨hwidths, hchannels, hwide, htuned⟩ := hd.normal c (hd.mem_countries.1 hc)
    exact ⟨hwidths, hchannels, hwide, htuned⟩
  have hmember : ∀ {d : DB} k (b : ℕ × ℕ), (∃ g ∈ d.countries.map nameless, g.1 = k ∧
      ∃ w ∈ g.2, w.mhz = b.1 ∧ b.2 ∈ w.channels) ↔ (k, b.1, b.2) ∈ tuples d.countries := by
    intro d k b
    simp only [mem_tuples, mem_tuplesOf, List.mem_map, exists_exists_and_eq_and, nameless]
  have hfull : ∀ {d : DB}, d.Kept → ∀ g ∈ d.countries.map nameless,
      ∃ b : ℕ × ℕ, ∃ w ∈ g.2, w.mhz = b.1 ∧ b.2 ∈ w.channels := by
    intro d hd g hg
    obtain ⟨w, hw⟩ := List.exists_mem_of_ne_nil _ (hnormal hd g hg).wide
    obtain ⟨ch, hch⟩ := List.exists_mem_of_ne_nil _ ((hnormal hd g hg).tuned w hw)
    exact ⟨(w.mhz, ch), w, hw, rfl, hch⟩
  refine (hsorted h).ext (R := fun g (b : ℕ × ℕ) => ∃ w ∈ g.2, w.mhz = b.1 ∧ b.2 ∈ w.channels)
    (hsorted h') (hfull h) (hfull h') (fun g hg g' hg' hcode hsame => ?_) fun k b => ?_
  · refine Prod.ext hcode ?_
    have hn := hnormal h g hg
    have hn' := hnormal h' g' hg'
    -- the same argument one level down: a width is told by its channels
    refine hn.widths.ext (R := fun w ch => ch ∈ w.channels) hn'.widths
      (fun w hw => List.exists_mem_of_ne_nil _ (hn.tuned w hw))
      (fun w hw => List.exists_mem_of_ne_nil _ (hn'.tuned w hw))
      (fun w hw w' hw' hmhz hch => ?_) fun mhz ch => hsame (mhz, ch)
    have hchannels : w.channels = w'.channels :=
      List.Pairwise.eq_of_mem_iff (hn.channels w hw) (hn'.channels w' hw') hch
    cases w
    cases w'
    rw [BandwidthChannels.mk.injEq]
    exact ⟨hchannels, hmhz⟩
  · rw [hmember, hmember]
    exact htuples _

/-- The database of a table is well kept, and lists what its rows give. -/
theorem kept_of_parse {u : Unicode} {header : List String} {rows : List (List String)} {d : DB}
    {cols : ColumnIndices} (hcols : indexColumns u header = some cols)
    (h : parse u header rows = some d) : d.Kept ∧
      ∀ t, t ∈ tuples d.countries ↔ ∃ row ∈ rows, ∃ name, readRow u cols row = some (t, name) := by
  rw [parse, hcols, Option.map_some, Option.some.injEq] at h
  subst h
  obtain ⟨hsound, hseen⟩ := Loading.sound_foldl u cols rows .empty
  have hkept := hsound.kept
  refine ⟨hkept, fun t => ?_⟩
  rw [mem_tuples]
  simp only [hkept.mem_countries, List.mem_map, exists_exists_and_eq_and, mem_tuplesOf_normalize]
  rw [← mem_tuples, hsound.listed.mem_iff, hseen]
  simp

/-- **The regulatory table**, for every list of rows under a header that has the
columns. A channel is legal exactly when some row grants it. `Countries` lists a
tuple exactly when it is legal, under its code in upper case, in order and once.
And rows in another order give the same answers, display names apart. -/
theorem parse_spec (u : Unicode) (header : List String) (rows : List (List String)) (d : DB)
    (h : parse u header rows = some d) :
    (∃ cols, indexColumns u header = some cols ∧ ∀ country bw ch,
      d.isLegalChannel u country bw ch = true ↔ ∃ row ∈ rows, Grants u cols row country bw ch) ∧
    (∀ country bw ch, (u.toUpper country, bw, ch) ∈ tuples d.countries ↔
      d.isLegalChannel u country bw ch = true) ∧
    (∀ t ∈ tuples d.countries, u.toUpper t.1 = t.1) ∧ Ordered d.countries ∧
    ∀ rows', rows'.Perm rows → ∃ d', parse u header rows' = some d' ∧
      (∀ country bw ch,
        d'.isLegalChannel u country bw ch = d.isLegalChannel u country bw ch) ∧
      d'.countries.map nameless = d.countries.map nameless := by
  obtain ⟨cols, hcols, -⟩ := Option.map_eq_some_iff.1 h
  obtain ⟨hkept, htuples⟩ := kept_of_parse hcols h
  refine ⟨⟨cols, hcols, fun country bw ch => ?_⟩, fun _ _ _ => hkept.isLegalChannel_iff.symm,
    fun t ht => ?_, hkept.ordered, fun rows' hperm => ?_⟩
  · rw [hkept.isLegalChannel_iff, htuples]
    simp only [readRow_iff]
  · obtain ⟨row, -, name, hread⟩ := (htuples t).1 ht
    rw [← (readRow_eq_some.1 hread).2.2.1, u.toUpper_toUpper]
  · have hparse : ∃ d', parse u header rows' = some d' := by
      rw [parse, hcols]
      exact ⟨_, rfl⟩
    obtain ⟨d', hd'⟩ := hparse
    obtain ⟨hkept', htuples'⟩ := kept_of_parse hcols hd'
    have hsame : ∀ t, t ∈ tuples d'.countries ↔ t ∈ tuples d.countries := fun t => by
      rw [htuples, htuples']
      simp only [hperm.mem_iff]
    refine ⟨d', hd', fun country bw ch => ?_, nameless_eq hkept' hkept hsame⟩
    rw [Bool.eq_iff_iff, hkept.isLegalChannel_iff, hkept'.isLegalChannel_iff, hsame]

/-- A table with a row cut short, a row that cannot be read and a row that is
there twice. -/
def usTable : List (List String) :=
  [["US", "2", "42", "USA"], ["EU", "1"], ["JP", "x", "9", "Japan"], ["us ", "2", "42", ""]]

theorem parse_spec_us :
    ∃ d, parse .ascii ["country_code", "bw", "s1g_chan", "country"] usTable = some d ∧
      d.isLegalChannel .ascii "us" 2 42 = true ∧ ("US", 2, 42) ∈ tuples d.countries ∧
      Ordered d.countries := by
  obtain ⟨d, hd⟩ : ∃ d, parse .ascii ["country_code", "bw", "s1g_chan", "country"] usTable =
    some d := ⟨_, rfl⟩
  obtain ⟨⟨cols, hcols, hlegal⟩, hlisted, -, hordered, -⟩ := parse_spec _ _ _ d hd
  obtain rfl := Option.some.inj hcols
  have hus : d.isLegalChannel .ascii "us" 2 42 = true :=
    (hlegal "us" 2 42).2 ⟨["US", "2", "42", "USA"], List.mem_cons_self,
      ⟨by decide, by decide, by decide, by decide, by decide⟩⟩
  exact ⟨d, hd, hus, (hlisted "us" 2 42).2 hus, hordered⟩

/-! ## The database of the other modules -/

/-- A row as its columns are read, unless it is cut short. -/
def toRow (cols : ColumnIndices) (row : List String) : Option Row :=
  if row.length ≤ cols.maxIndex then none
  else
    some ⟨row.getD cols.code "", row.getD cols.name "",
      parseUint (trimmed (row.getD cols.bw "")), parseUint (trimmed (row.getD cols.channel ""))⟩

/-- What has been seen is what is legal. -/
theorem Loading.Sound.isLegalIn_iff {s : Loading} (h : s.Sound) (code : String) (bw ch : ℕ) :
    isLegalIn s.byCode code bw ch = true ↔ (Network.toUpper code, bw, ch) ∈ s.seen := by
  rw [← h.listed.mem_iff, ← lookup_iff h.codes fun c hc => (h.grown c hc).widths]
  unfold isLegalIn
  cases s.byCode.find? fun c => c.code = Network.toUpper code <;> rfl

/-- A turn of the loop, as the other modules have it. -/
theorem byCode_turn {s : Loading} (h : s.Sound) (cols : ColumnIndices) (row : List String) :
    (s.turn .ascii cols row).byCode =
      (toRow cols row).elim s.byCode (Network.addRow s.byCode) := by
  unfold Loading.turn readRow toRow
  by_cases hlong : row.length ≤ cols.maxIndex
  · rw [if_pos hlong, if_pos hlong]
    rfl
  · rw [if_neg hlong, if_neg hlong, Option.elim_some, Network.addRow]
    cases parseUint (trimmed (row.getD cols.bw "")) with
    | none => rfl
    | some bw =>
        cases parseUint (trimmed (row.getD cols.channel "")) with
        | none => rfl
        | some ch =>
            have hupper : Unicode.ascii.toUpper (trimmed (row.getD cols.code "")) =
                Network.toUpper (trimmed (row.getD cols.code "")) := rfl
            have hlegal := h.isLegalIn_iff (Network.toUpper (trimmed (row.getD cols.code ""))) bw ch
            rw [Network.toUpper_toUpper] at hlegal
            dsimp only
            rw [hupper]
            generalize Network.toUpper (trimmed (row.getD cols.code "")) = code at hlegal
            by_cases hempty : code = ""
            · rw [if_pos hempty, if_pos hempty]
            · rw [if_neg hempty, if_neg hempty]
              dsimp only
              unfold Loading.add
              by_cases hseen : (code, bw, ch) ∈ s.seen
              · rw [if_pos hseen, if_pos (hlegal.2 hseen)]
              · rw [if_neg hseen, if_neg fun hl => hseen (hlegal.1 hl)]
                simp [Country.named, Country.appendChannel, appendTo]

/-- **The database the other modules use** is this one, of runes that are ASCII. -/
theorem countries_eq_parse {header : List String} {rows : List (List String)} {d : DB}
    {cols : ColumnIndices} (hcols : indexColumns .ascii header = some cols)
    (h : parse .ascii header rows = some d) :
    d.countries = (Network.DB.parse (rows.filterMap (toRow cols))).countries := by
  have hfold : ∀ {s : Loading}, s.Sound → (rows.foldl (Loading.turn .ascii cols) s).byCode =
      (rows.filterMap (toRow cols)).foldl Network.addRow s.byCode := by
    clear h
    induction rows with
    | nil => exact fun _ => rfl
    | cons row rows ih =>
        intro s hs
        rw [List.foldl_cons, ih (hs.turn .ascii cols row), byCode_turn hs, List.filterMap_cons]
        cases toRow cols row <;> rfl
  have hkept := (kept_of_parse hcols h).1
  rw [parse, hcols, Option.map_some, Option.some.injEq] at h
  subst h
  refine hkept.ordered.codes.eq_of_mem_iff (Grouped.sorted_mergeSort ?_) fun c => ?_
  · have hentries := hkept.entries
    rwa [hfold .empty] at hentries
  · rw [hkept.mem_countries, Network.DB.parse]
    dsimp only
    rw [hfold .empty, List.mem_mergeSort]

end MorseRegDB

end Network

end OpenManet
