import OpenManet.Gnss.Model
import OpenManet.Lib.Bytes
import OpenManet.Lib.Decimal
import OpenManet.Lib.Text
/-!
# The GNSS service — the sentence a position is sent as

`internal/gpsd/nmea.go`: a report as a GGA sentence, fields between commas, a
dollar sign before them, an asterisk and a checksum after them. A coordinate is
its whole degrees and its minutes, and these are cut apart before the minutes
are rounded.

The numbers of a report are rationals here and its time is in nanoseconds since
the epoch. All that is printed is ASCII, so a character is a byte.
-/

namespace OpenManet

namespace Gnss

open Decimal (digits fixed fixedPadded units readDigits readPoint)

/-! ## The sentence -/

/-- `Timestamp.UTC().Format("150405.00")`: what does not fit is cut off. -/
def timeStr (timestamp : ℤ) : List Char :=
  let ns := (timestamp % 86400000000000).toNat
  digits 2 (ns / 3600000000000) ++ digits 2 (ns / 60000000000 % 60) ++
    digits 2 (ns / 1000000000 % 60) ++ '.' :: digits 2 (ns % 1000000000 / 10000000)

/-- The whole degrees of a coordinate. -/
def degInt (coordinate : ℚ) : ℕ := ⌊|coordinate|⌋.toNat

/-- The minutes that are left. -/
def minutes (coordinate : ℚ) : ℚ := (|coordinate| - degInt coordinate) * 60

/-- The degrees, at least `w` digits of them, and the minutes. -/
def coordinateStr (w : ℕ) (coordinate : ℚ) : List Char :=
  digits w (degInt coordinate) ++ fixedPadded 8 5 (minutes coordinate)

/-- The letter of a hemisphere. -/
def hemisphere (positive negative : Char) (coordinate : ℚ) : List Char :=
  [if coordinate < 0 then negative else positive]

variable (pos : PositionReport ℚ ℤ)

/-- The quality indicator. -/
def quality : List Char :=
  if 2 ≤ pos.mode then if 0 < pos.dgpsStation then ['2'] else ['1'] else ['0']

def numSat : List Char :=
  if 0 < pos.satellitesUsed then digits 2 pos.satellitesUsed.toNat else ['0', '0']

def hdop : List Char := if 0 < pos.hdop then fixed 1 pos.hdop else []

def geoidHeight : List Char := if pos.geoidSeparation ≠ 0 then fixed 1 pos.geoidSeparation else []

def dgpsAge : List Char := if 0 < pos.dgpsAge then fixed 1 pos.dgpsAge else []

def dgpsID : List Char := if 0 < pos.dgpsStation then digits 4 pos.dgpsStation.toNat else []

/-- What stands between the commas. -/
def ggaFields : List (List Char) :=
  ["GPGGA".toList, timeStr pos.timestamp, coordinateStr 2 pos.latitude,
    hemisphere 'N' 'S' pos.latitude, coordinateStr 3 pos.longitude,
    hemisphere 'E' 'W' pos.longitude, quality pos, numSat pos, hdop pos, fixed 1 pos.altitude,
    ['M'], geoidHeight pos, ['M'], dgpsAge pos, dgpsID pos]

/-- `calculateNMEAChecksum`. -/
def calculateNMEAChecksum (sentence : List Char) : UInt8 :=
  sentence.foldl (fun checksum c => checksum ^^^ UInt8.ofNat c.toNat) 0

/-- `formatGGA`. -/
def formatGGA : List Char :=
  let sentence := [','].intercalate (ggaFields pos)
  '$' :: sentence ++ '*' :: (Bytes.hexByte (calculateNMEAChecksum sentence)).map Text.upperRune

/-- `ToNMEA`. -/
def toNMEA (g : GPSService ℚ ℤ) : List Char := if g.isValid then formatGGA g.position else []

/-! ## What a receiver reads -/

/-- The number of a hexadecimal digit in capitals. -/
def hexValue (c : Char) : ℕ := if c.isDigit then c.toNat - 48 else c.toNat - 55

/-- A coordinate of `w` digits of degrees: the degrees, and the minutes in units
of their last decimal. -/
def readCoordinate (w : ℕ) (field : List Char) : Option (ℕ × ℕ) := do
  let (deg, rest) ← readDigits w field
  let (min, rest) ← readDigits 2 rest
  let rest ← readPoint rest
  let (decimals, rest) ← readDigits 5 rest
  if rest = [] then some (deg, 100000 * min + decimals) else none

/-- A time of day, in hundredths of a second. -/
def readTime (field : List Char) : Option ℕ := do
  let (h, rest) ← readDigits 2 field
  let (m, rest) ← readDigits 2 rest
  let (s, rest) ← readDigits 2 rest
  let rest ← readPoint rest
  let (decimals, rest) ← readDigits 2 rest
  if rest = [] ∧ h < 24 ∧ m < 60 ∧ s < 60 then some (((h * 60 + m) * 60 + s) * 100 + decimals)
  else none

/-- The coordinate that a field and the letter after it give. -/
def coordinateOf (negative : Char) (read : ℕ × ℕ) (letter : List Char) : ℚ :=
  (if letter = [negative] then -1 else 1) * (read.1 + read.2 / 6000000)

/-- **A sentence around its body**: a dollar sign, the body, an asterisk and two
digits that spell the exclusive or of its characters. -/
structure Framed (sentence body : List Char) : Prop where
  shape : ∃ high low, sentence = '$' :: body ++ ['*', high, low] ∧
    16 * hexValue high + hexValue low = body.foldl (fun x c => x ^^^ c.toNat) 0
  apart : '$' ∉ body ∧ '*' ∉ body

/-- **A field gives a coordinate back**: it has its layout, the letter is that of
the sign, and what they spell is the coordinate to half a unit. -/
structure Encodes (w : ℕ) (positive negative : Char) (coordinate : ℚ) (field letter : List Char)
    (read : ℕ × ℕ) : Prop where
  layout : readCoordinate w field = some read
  hemisphere : letter = if coordinate < 0 then [negative] else [positive]
  value : |coordinateOf negative read letter - coordinate| ≤ 1 / 2 / 6000000

/-- **The sentence is well framed**, its fields are the fifteen of a GGA, and the
time and both coordinates are read back; `lat` and `lon` are what is read. -/
def Encoded (pos : PositionReport ℚ ℤ) (lat lon : ℕ × ℕ) : Prop :=
  ∃ body, Framed (formatGGA pos) body ∧
    let fields := body.splitOn ','
    fields.length = 15 ∧ fields.getD 0 [] = "GPGGA".toList ∧
    (∃ t, readTime (fields.getD 1 []) = some t ∧
      (t : ℤ) = pos.timestamp % 86400000000000 / 10000000) ∧
    Encodes 2 'N' 'S' pos.latitude (fields.getD 2 []) (fields.getD 3 []) lat ∧
    Encodes 3 'E' 'W' pos.longitude (fields.getD 4 []) (fields.getD 5 []) lon

/-- The minutes are printed below sixty. -/
def BelowSixty (read : ℕ × ℕ) : Prop := read.2 < 6000000

/-- The minutes of a coordinate do not round up to sixty. -/
def Clear (coordinate : ℚ) : Prop := minutes coordinate < 60 - 1 / 2 / 100000

/-! ## The checksum -/

/-- A character the sentence is made of, between its commas. -/
def plain (c : Char) : Bool := c.isAlphanum || c = '.' || c = '-'

theorem plain_ne {c : Char} (h : plain c = true) : c ≠ ',' ∧ c ≠ '$' ∧ c ≠ '*' := by
  refine ⟨?_, ?_, ?_⟩ <;>
    · rintro rfl
      revert h
      decide

theorem plain_lt {c : Char} (h : plain c = true) : c.toNat < 256 := by
  unfold plain Char.isAlphanum Char.isAlpha Char.isUpper Char.isLower Char.isDigit at h
  simp only [Bool.or_eq_true, Bool.and_eq_true, decide_eq_true_eq, ge_iff_le,
    UInt32.le_iff_toNat_le] at h
  rcases h with (h | rfl) | rfl
  · change c.val.toNat < 256
    have hletters : 'Z'.val.toNat = 90 ∧ 'z'.val.toNat = 122 ∧ '9'.val.toNat = 57 := by decide
    omega
  · decide
  · decide

/-- The checksum of a text is the exclusive or of its characters. -/
theorem toNat_calculateNMEAChecksum {s : List Char} (hs : ∀ c ∈ s, c.toNat < 256) :
    (calculateNMEAChecksum s).toNat = s.foldl (fun x c => x ^^^ c.toNat) 0 := by
  suffices h : ∀ checksum : UInt8,
      (s.foldl (fun checksum c => checksum ^^^ UInt8.ofNat c.toNat) checksum).toNat =
        s.foldl (fun x c => x ^^^ c.toNat) checksum.toNat from h 0
  induction s with
  | nil => exact fun _ => rfl
  | cons c s ih =>
      intro checksum
      have hbyte : (UInt8.ofNat c.toNat).toNat = c.toNat := by
        rw [UInt8.toNat_ofNat']
        exact Nat.mod_eq_of_lt (hs c List.mem_cons_self)
      rw [List.foldl_cons, List.foldl_cons, ih fun d hd => hs d (List.mem_cons_of_mem c hd),
        UInt8.toNat_xor, hbyte]

theorem hexValue_hexDigit : ∀ n < 16, hexValue (Text.upperRune (Bytes.hexDigit n)) = n := by decide

/-- The checksum is read back. -/
theorem hexValue_hexByte (b : UInt8) :
    16 * hexValue (Text.upperRune (Bytes.hexDigit (b.toNat / 16))) +
      hexValue (Text.upperRune (Bytes.hexDigit (b.toNat % 16))) = b.toNat := by
  have hb : b.toNat < 256 := b.toNat_lt
  rw [hexValue_hexDigit _ (by omega), hexValue_hexDigit _ (by omega)]
  omega

/-! ## The fields -/

theorem plain_of_isDigit {c : Char} (h : c.isDigit = true) : plain c = true := by
  simp [plain, Char.isAlphanum, h]

theorem plain_digits {w n : ℕ} {c : Char} (h : c ∈ digits w n) : plain c = true :=
  plain_of_isDigit (Decimal.isDigit_of_mem_digits h)

theorem plain_fixed {p : ℕ} {q : ℚ} {c : Char} (h : c ∈ fixed p q) : plain c = true := by
  rcases Decimal.mem_fixed h with h | rfl | rfl
  · exact plain_of_isDigit h
  · rfl
  · rfl

/-- **The cut** between degrees and minutes: nothing is lost, and the minutes are
below sixty before they are rounded. -/
theorem degInt_le (coordinate : ℚ) :
    (degInt coordinate : ℚ) ≤ |coordinate| ∧ |coordinate| < degInt coordinate + 1 := by
  have hfloor : ((degInt coordinate : ℕ) : ℚ) = ⌊|coordinate|⌋ := by
    rw [degInt]
    exact_mod_cast congrArg (Int.cast (R := ℚ))
      (Int.toNat_of_nonneg (Int.floor_nonneg.2 (abs_nonneg coordinate)))
  rw [hfloor]
  exact ⟨Int.floor_le _, Int.lt_floor_add_one _⟩

theorem minutes_nonneg (coordinate : ℚ) : 0 ≤ minutes coordinate := by
  have := (degInt_le coordinate).1
  unfold minutes
  linarith

theorem minutes_lt (coordinate : ℚ) : minutes coordinate < 60 := by
  have := (degInt_le coordinate).2
  unfold minutes
  linarith

theorem degInt_lt {coordinate bound : ℚ} {n : ℕ} (hlow : -bound ≤ coordinate)
    (hhigh : coordinate ≤ bound) (hbound : bound < n) : degInt coordinate < n := by
  have habs : |coordinate| ≤ bound := abs_le.2 ⟨hlow, hhigh⟩
  have hdeg := (degInt_le coordinate).1
  have hlt : (degInt coordinate : ℚ) < n := by linarith
  exact_mod_cast hlt

/-- The minutes take two digits, whatever they round to. -/
theorem units_minutes_lt (coordinate : ℚ) : units 5 (minutes coordinate) < 10000000 := by
  refine (Decimal.units_lt_iff (minutes_nonneg coordinate) (by decide)).2 ?_
  have := minutes_lt coordinate
  push_cast
  linarith

/-- **They are printed below sixty** exactly when they do not round up to it. -/
theorem units_minutes_lt_iff (coordinate : ℚ) :
    units 5 (minutes coordinate) < 6000000 ↔ Clear coordinate := by
  rw [Decimal.units_lt_iff (minutes_nonneg coordinate) (by decide), Clear]
  push_cast
  constructor <;>
    · intro h
      linarith

/-- A coordinate is digits around a point. -/
theorem coordinateStr_eq (w : ℕ) (coordinate : ℚ) :
    coordinateStr w coordinate = digits w (degInt coordinate) ++
      (digits 2 (units 5 (minutes coordinate) / 100000) ++
        '.' :: digits 5 (units 5 (minutes coordinate) % 100000)) := by
  rw [coordinateStr]
  exact congrArg _
    (Decimal.fixedPadded_of_nonneg (w := 2) (p := 5) (by decide) (minutes_nonneg coordinate))

/-- **A coordinate is read** as the degrees it was cut at and the minutes it was
rounded to. -/
theorem readCoordinate_coordinateStr {w : ℕ} {coordinate : ℚ} (hw : 0 < w)
    (hdeg : degInt coordinate < 10 ^ w) : readCoordinate w (coordinateStr w coordinate) =
      some (degInt coordinate, units 5 (minutes coordinate)) := by
  have hmin : units 5 (minutes coordinate) / 100000 < 10 ^ 2 := by
    have := units_minutes_lt coordinate
    omega
  have hdecimals : readDigits 5 (digits 5 (units 5 (minutes coordinate) % 100000)) =
      some (units 5 (minutes coordinate) % 100000, []) := by
    have := Decimal.readDigits_digits (w := 5) (by decide)
      (Nat.mod_lt (units 5 (minutes coordinate)) (by decide)) []
    rwa [List.append_nil] at this
  rw [coordinateStr_eq, readCoordinate, Decimal.readDigits_digits hw hdeg]
  simp only [Option.bind_eq_bind, Option.bind_some, Decimal.readDigits_digits (by decide) hmin,
    Decimal.readPoint_cons, hdecimals, if_true, Nat.div_add_mod]

/-- **The time is read**, cut off at a hundredth of a second. -/
theorem readTime_timeStr (timestamp : ℤ) : ∃ t, readTime (timeStr timestamp) = some t ∧
    (t : ℤ) = timestamp % 86400000000000 / 10000000 := by
  obtain ⟨ns, hns⟩ := Int.eq_ofNat_of_zero_le
    (Int.emod_nonneg timestamp (by decide : (86400000000000 : ℤ) ≠ 0))
  have hday : ns < 86400000000000 := by omega
  rw [timeStr, hns, Int.toNat_natCast]
  have hdecimals : readDigits 2 (digits 2 (ns % 1000000000 / 10000000)) =
      some (ns % 1000000000 / 10000000, []) := by
    have := Decimal.readDigits_digits (w := 2) (n := ns % 1000000000 / 10000000) (by decide)
      (by omega) []
    rwa [List.append_nil] at this
  have hh : ns / 3600000000000 < 10 ^ 2 := by omega
  have hm : ns / 60000000000 % 60 < 10 ^ 2 := by omega
  have hs : ns / 1000000000 % 60 < 10 ^ 2 := by omega
  have hin : ns / 3600000000000 < 24 ∧ ns / 60000000000 % 60 < 60 ∧ ns / 1000000000 % 60 < 60 := by
    omega
  refine ⟨ns / 10000000, ?_, by omega⟩
  rw [readTime, List.append_assoc, List.append_assoc, Decimal.readDigits_digits (by decide) hh]
  simp only [Option.bind_eq_bind, Option.bind_some, Decimal.readDigits_digits (by decide) hm,
    Decimal.readDigits_digits (by decide) hs, Decimal.readPoint_cons, hdecimals, hin, and_self,
    if_true, Option.some.injEq]
  omega

/-- **A coordinate is given back**, to half a unit of what is printed. -/
theorem encodes_coordinate {w : ℕ} {positive negative : Char} {coordinate : ℚ} (hw : 0 < w)
    (hletters : positive ≠ negative) (hdeg : degInt coordinate < 10 ^ w) :
    Encodes w positive negative coordinate (coordinateStr w coordinate)
      (hemisphere positive negative coordinate)
      (degInt coordinate, units 5 (minutes coordinate)) where
  layout := readCoordinate_coordinateStr hw hdeg
  hemisphere := by
    unfold Gnss.hemisphere
    split <;> rfl
  value := by
    have hunits := Decimal.abs_units_sub_le (p := 5) (minutes_nonneg coordinate)
    have hmagnitude : |(degInt coordinate + units 5 (minutes coordinate) / 6000000 : ℚ)
        - abs coordinate| ≤ 1 / 2 / 6000000 := by
      rw [abs_le] at hunits ⊢
      unfold minutes at hunits ⊢
      constructor <;> linarith [hunits.1, hunits.2]
    by_cases hneg : coordinate < 0
    · rw [coordinateOf, Gnss.hemisphere, if_pos hneg, if_pos rfl, ← abs_neg]
      rw [abs_of_neg hneg] at hmagnitude
      convert hmagnitude using 2
      ring
    · have hletter : [positive] ≠ [negative] := fun heq => hletters (List.head_eq_of_cons_eq heq)
      rw [coordinateOf, Gnss.hemisphere, if_neg hneg, if_neg hletter, one_mul]
      rwa [abs_of_nonneg (not_lt.1 hneg)] at hmagnitude

/-! ## The sentence -/

section Sentence

variable (pos : PositionReport ℚ ℤ)

/-- A field that is there or not. -/
theorem plain_ite {p : Prop} [Decidable p] {l m : List Char} (hl : ∀ c ∈ l, plain c = true)
    (hm : ∀ c ∈ m, plain c = true) : ∀ c ∈ if p then l else m, plain c = true := by
  split <;> assumption

theorem plain_of_all {l : List Char} (h : l.all plain = true) : ∀ c ∈ l, plain c = true :=
  List.all_eq_true.1 h

/-- Nothing a field is made of separates fields or frames a sentence. -/
theorem plain_ggaFields : ∀ l ∈ ggaFields pos, ∀ c ∈ l, plain c = true := by
  have hletter : ∀ positive negative coordinate, plain positive = true → plain negative = true →
      ∀ c ∈ hemisphere positive negative coordinate, plain c = true := by
    intro positive negative coordinate hpositive hnegative c hc
    rw [List.mem_singleton.1 hc]
    split <;> assumption
  have hcoordinate : ∀ w coordinate, ∀ c ∈ coordinateStr w coordinate, plain c = true := by
    intro w coordinate c hc
    rw [coordinateStr_eq] at hc
    simp only [List.mem_append, List.mem_cons] at hc
    rcases hc with hc | hc | rfl | hc
    · exact plain_digits hc
    · exact plain_digits hc
    · rfl
    · exact plain_digits hc
  have htime : ∀ c ∈ timeStr pos.timestamp, plain c = true := by
    intro c hc
    simp only [timeStr, List.mem_append, List.mem_cons] at hc
    rcases hc with ((hc | hc) | hc) | rfl | hc
    · exact plain_digits hc
    · exact plain_digits hc
    · exact plain_digits hc
    · rfl
    · exact plain_digits hc
  have hfixed : ∀ q, ∀ c ∈ fixed 1 q, plain c = true := fun q c hc => plain_fixed hc
  have hquality : ∀ c ∈ quality pos, plain c = true :=
    plain_ite (plain_ite (plain_of_all rfl) (plain_of_all rfl)) (plain_of_all rfl)
  simp only [ggaFields, List.forall_mem_cons, List.not_mem_nil, false_imp_iff, implies_true,
    and_true]
  exact ⟨plain_of_all rfl, htime, hcoordinate _ _, hletter _ _ _ rfl rfl, hcoordinate _ _,
    hletter _ _ _ rfl rfl, hquality, plain_ite (fun _ hc => plain_digits hc) (plain_of_all rfl),
    plain_ite (hfixed _) nofun, hfixed _, rfl, plain_ite (hfixed _) nofun, rfl,
    plain_ite (hfixed _) nofun, plain_ite (fun _ hc => plain_digits hc) nofun⟩

/-- What stands in a joined text is a separator or stands in a part. -/
theorem mem_intercalate {α : Type*} {x a : α} {ls : List (List α)}
    (ha : a ∈ [x].intercalate ls) : a = x ∨ ∃ l ∈ ls, a ∈ l := by
  induction ls with
  | nil => cases ha
  | cons l ls ih =>
      cases ls with
      | nil => exact .inr ⟨l, List.mem_cons_self, by simpa using ha⟩
      | cons l' ls =>
          rw [List.intercalate_cons_cons, List.append_assoc, List.mem_append, List.mem_append] at ha
          rcases ha with ha | ha | ha
          · exact .inr ⟨l, List.mem_cons_self, ha⟩
          · exact .inl (List.mem_singleton.1 ha)
          · refine (ih ha).imp_right ?_
            rintro ⟨m, hm, ham⟩
            exact ⟨m, List.mem_cons_of_mem l hm, ham⟩

/-- A character of the body is plain or a comma. -/
theorem mem_body {c : Char} (hc : c ∈ [','].intercalate (ggaFields pos)) :
    plain c = true ∨ c = ',' := by
  rcases mem_intercalate hc with rfl | ⟨l, hl, hmem⟩
  · exact .inr rfl
  · exact .inl (plain_ggaFields pos l hl c hmem)

/-- **The sentence is framed** around its fields. -/
theorem framed_formatGGA : Framed (formatGGA pos) ([','].intercalate (ggaFields pos)) where
  shape := by
    refine ⟨_, _, rfl, ?_⟩
    rw [← toNat_calculateNMEAChecksum fun c hc => ?_]
    · exact hexValue_hexByte _
    · rcases mem_body pos hc with hplain | rfl
      · exact plain_lt hplain
      · decide
  apart := by
    constructor <;>
      · intro hmem
        rcases mem_body pos hmem with hplain | hcomma
        · revert hplain
          decide
        · revert hcomma
          decide

/-- The fields are read off the body. -/
theorem splitOn_body : ([','].intercalate (ggaFields pos)).splitOn ',' = ggaFields pos :=
  List.splitOn_intercalate ','
    (fun _ hl hcomma => (plain_ne (plain_ggaFields pos _ hl _ hcomma)).1 rfl) (List.cons_ne_nil _ _)

/-- A sentence has one body. -/
theorem Framed.unique {sentence body body' : List Char} (h : Framed sentence body)
    (h' : Framed sentence body') : body = body' := by
  obtain ⟨high, low, hshape, -⟩ := h.shape
  obtain ⟨high', low', hshape', -⟩ := h'.shape
  have heq := hshape.symm.trans hshape'
  exact (List.append_inj' (List.cons.inj heq).2 rfl).1

variable {pos}

/-- What a receiver reads is what was cut and rounded. -/
theorem encoded_iff {lat lon : ℕ × ℕ} (hlat : -90 ≤ pos.latitude ∧ pos.latitude ≤ 90)
    (hlon : -180 ≤ pos.longitude ∧ pos.longitude ≤ 180) : Encoded pos lat lon ↔
      lat = (degInt pos.latitude, units 5 (minutes pos.latitude)) ∧
        lon = (degInt pos.longitude, units 5 (minutes pos.longitude)) := by
  have hlatDeg : degInt pos.latitude < 10 ^ 2 := degInt_lt hlat.1 hlat.2 (by norm_num)
  have hlonDeg : degInt pos.longitude < 10 ^ 3 := degInt_lt hlon.1 hlon.2 (by norm_num)
  constructor
  · rintro ⟨body, hframed, hfields⟩
    rw [hframed.unique (framed_formatGGA pos), splitOn_body] at hfields
    obtain ⟨-, -, -, hlatRead, hlonRead⟩ := hfields
    constructor
    · exact Option.some.inj (hlatRead.layout.symm.trans
        (readCoordinate_coordinateStr (by decide) hlatDeg))
    · exact Option.some.inj (hlonRead.layout.symm.trans
        (readCoordinate_coordinateStr (by decide) hlonDeg))
  · rintro ⟨rfl, rfl⟩
    refine ⟨_, framed_formatGGA pos, ?_⟩
    rw [splitOn_body]
    exact ⟨rfl, rfl, readTime_timeStr pos.timestamp,
      encodes_coordinate (by decide) (by decide) hlatDeg,
      encodes_coordinate (by decide) (by decide) hlonDeg⟩

end Sentence

/-- **The sentence of a position**, for every latitude, longitude, altitude and
time. It is framed by a right checksum, it has its fields, and the letters, the
degrees and the minutes give both coordinates back to half a unit. The minutes
are below sixty exactly where those of neither coordinate round up to it. -/
theorem formatGGA_encodes (pos : PositionReport ℚ ℤ)
    (hlat : -90 ≤ pos.latitude ∧ pos.latitude ≤ 90)
    (hlon : -180 ≤ pos.longitude ∧ pos.longitude ≤ 180) :
    (∃ lat lon, Encoded pos lat lon) ∧
      ((∃ lat lon, Encoded pos lat lon ∧ BelowSixty lat ∧ BelowSixty lon) ↔
        Clear pos.latitude ∧ Clear pos.longitude) := by
  simp only [encoded_iff hlat hlon]
  refine ⟨⟨_, _, rfl, rfl⟩, ?_⟩
  rw [← units_minutes_lt_iff, ← units_minutes_lt_iff]
  constructor
  · rintro ⟨_, _, ⟨rfl, rfl⟩, hbelow⟩
    exact hbelow
  · intro hbelow
    exact ⟨_, _, ⟨rfl, rfl⟩, hbelow⟩

/-- A report of two coordinates, on a fix with nothing else known. -/
def reportAt (latitude longitude : ℚ) : PositionReport ℚ ℤ :=
  ⟨0, latitude, longitude, 16, 0, 0, 0, true, 3, 8, 0, 0, 0, 0, 0, 0, 0, 0⟩

/-- Away from a whole degree the sentence is right. -/
theorem formatGGA_encodes_city : ∃ lat lon, Encoded (reportAt (377749 / 10000) (-1224194 / 10000))
    lat lon ∧ BelowSixty lat ∧ BelowSixty lon :=
  (formatGGA_encodes (reportAt (377749 / 10000) (-1224194 / 10000))
    ⟨by decide +kernel, by decide +kernel⟩ ⟨by decide +kernel, by decide +kernel⟩).2.2
    ⟨by unfold Clear; decide +kernel, by unfold Clear; decide +kernel⟩

/-- **Sixty minutes.** Six hundred-millionths of a degree below the eleventh, the
sentence says ten degrees and sixty minutes. -/
theorem formatGGA_sixty : ¬ ∀ pos : PositionReport ℚ ℤ,
    -90 ≤ pos.latitude ∧ pos.latitude ≤ 90 → -180 ≤ pos.longitude ∧ pos.longitude ≤ 180 →
      ∃ lat lon, Encoded pos lat lon ∧ BelowSixty lat ∧ BelowSixty lon := by
  intro h
  have hlat : (-90 : ℚ) ≤ 1099999994 / 100000000 ∧ (1099999994 / 100000000 : ℚ) ≤ 90 := by norm_num
  have hlon : (-180 : ℚ) ≤ 20 ∧ (20 : ℚ) ≤ 180 := by norm_num
  obtain ⟨lat, lon, hencoded, hbelow, -⟩ := h (reportAt (1099999994 / 100000000) 20) hlat hlon
  obtain ⟨rfl, -⟩ := (encoded_iff hlat hlon).1 hencoded
  revert hbelow
  unfold BelowSixty
  decide +kernel

end Gnss

end OpenManet
