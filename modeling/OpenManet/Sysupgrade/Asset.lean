import OpenManet.Lib.Text
import OpenManet.Lib.Split
import Mathlib.Data.List.Infix
import Mathlib.Data.List.Perm.Basic
/-!
# The asset of a board

`internal/sysupgrade/asset.go`: which of the files of a release is flashed.
An entry of the release's manifest decides; without one the name of the file
does, which has to end like a sysupgrade image and to have in it every token
of the board's id and of the target.

A token is looked for as a substring, so a short one is found inside a longer
word of the name too, and a board that is not known asks for nothing.
-/

namespace OpenManet

namespace Releases

/-- `Asset`. -/
structure Asset where
  name : String
  downloadURL : String
  contentType : String
  sizeBytes : ℤ
deriving DecidableEq, Repr

/-- `Manifest`. -/
structure Manifest where
  boards : String → Option String

/-- The sentinels of `asset.go`. -/
inductive Sentinel where
  | errNoMatchingAsset
  | errAmbiguousAsset
deriving DecidableEq, Repr

def Sentinel.text : Sentinel → String
  | errNoMatchingAsset => "sysupgrade: no matching asset for this hardware"
  | errAmbiguousAsset => "sysupgrade: multiple assets match this hardware"

/-- The errors of `MatchAsset`. -/
inductive MatchError where
  /-- The manifest names an asset the release has not. -/
  | missing (name : String)
  | noMatchingAsset
  | ambiguous (candidates : List String)
deriving DecidableEq, Repr

namespace MatchError

/-- The sentinel that is wrapped. -/
def sentinel : MatchError → Sentinel
  | missing _ | noMatchingAsset => .errNoMatchingAsset
  | ambiguous _ => .errAmbiguousAsset

/-- The text, with the quoting of `%q`. -/
def text (quote : String → String) : MatchError → String
  | missing name => Sentinel.errNoMatchingAsset.text ++ ": manifest names " ++ quote name ++
      " but asset is missing"
  | noMatchingAsset => Sentinel.errNoMatchingAsset.text
  | ambiguous candidates => Sentinel.errAmbiguousAsset.text ++ ": candidates=" ++
      ",".intercalate candidates

end MatchError

/-- `validSysupgradeSuffixes`. -/
def validSysupgradeSuffixes : List String :=
  ["sysupgrade.bin", "sysupgrade.img.gz", "sysupgrade.img", "sysupgrade.tar"]

/-- `strings.ReplaceAll` of one rune by another. -/
def replaceAll (s : List Char) (old new : Char) : List Char :=
  s.map fun c => if c = old then new else c

/-- `splitNonEmpty` at a dash. -/
def splitNonEmpty (s : List Char) : List String :=
  ((s.splitOn '-').filter (· ≠ [])).map String.ofList

/-- `containsAll`. -/
def containsAll (s : String) (tokens : List String) : Bool := tokens.all (Text.contains s)

section Heuristic

variable (toLower : Lowering)

/-- `tokenizeBoardName`. -/
def tokenizeBoardName (boardName : String) : List String :=
  if boardName = "" then []
  else splitNonEmpty (replaceAll (replaceAll (toLower boardName).toList ',' '-') '.' '-')

/-- `tokenizeTarget`. -/
def tokenizeTarget (target : String) : List String :=
  if target = "" then [] else splitNonEmpty (replaceAll (toLower target).toList '/' '-')

/-- `hasValidSuffix`. -/
def hasValidSuffix (name : String) : Bool :=
  validSysupgradeSuffixes.any (Text.hasSuffix (toLower name))

/-- The assets `heuristicMatch` goes by. -/
def candidates (boardName target : String) (assets : List Asset) : List Asset :=
  assets.filter fun a => hasValidSuffix toLower a.name &&
    containsAll (toLower a.name) (tokenizeBoardName toLower boardName) &&
    containsAll (toLower a.name) (tokenizeTarget toLower target)

/-- The answer there is for so many candidates. -/
def choose : List Asset → Except MatchError Asset
  | [] => .error .noMatchingAsset
  | [a] => .ok a
  | as => .error (.ambiguous (as.map (·.name)))

/-- `heuristicMatch`. -/
def heuristicMatch (boardName target : String) (assets : List Asset) : Except MatchError Asset :=
  choose (candidates toLower boardName target assets)

/-- What the manifest, if there is one, names for the board. -/
def manifestEntry (manifest : Option Manifest) (boardName : String) : Option String :=
  (manifest.bind (·.boards boardName)).filter (· ≠ "")

/-- `MatchAsset`. -/
def matchAsset (boardName target : String) (manifest : Option Manifest) (assets : List Asset) :
    Except MatchError Asset :=
  match manifestEntry manifest boardName with
  | some name =>
      match assets.find? (·.name = name) with
      | some a => .ok a
      | none => .error (.missing name)
  | none => heuristicMatch toLower boardName target assets

end Heuristic

/-! ## The heuristic -/

/-- What the heuristic asks of an asset. -/
structure Qualifies (toLower : Lowering) (boardName target : String) (a : Asset) : Prop where
  suffix : ∃ s ∈ validSysupgradeSuffixes, s.toList <:+ (toLower a.name).toList
  board : ∀ t ∈ tokenizeBoardName toLower boardName, t.toList <:+: (toLower a.name).toList
  target : ∀ t ∈ tokenizeTarget toLower target, t.toList <:+: (toLower a.name).toList

theorem contains_iff_infix {s t : String} : Text.contains s t = true ↔ t.toList <:+: s.toList := by
  unfold Text.contains
  rw [List.any_eq_true, List.infix_iff_prefix_suffix]
  simp only [List.mem_tails, List.isPrefixOf_iff_prefix]
  exact exists_congr fun _ => and_comm

theorem containsAll_iff {s : String} {tokens : List String} :
    containsAll s tokens = true ↔ ∀ t ∈ tokens, t.toList <:+: s.toList := by
  unfold containsAll
  rw [List.all_eq_true]
  exact forall₂_congr fun _ _ => contains_iff_infix

section Heuristic

variable {toLower : Lowering} {boardName target : String} {assets assets' : List Asset} {a : Asset}

theorem hasValidSuffix_iff {name : String} : hasValidSuffix toLower name = true ↔
    ∃ s ∈ validSysupgradeSuffixes, s.toList <:+ (toLower name).toList := by
  unfold hasValidSuffix
  rw [List.any_eq_true]
  exact exists_congr fun _ => and_congr_right fun _ => Text.hasSuffix_iff

theorem qualifies_iff : (hasValidSuffix toLower a.name &&
    containsAll (toLower a.name) (tokenizeBoardName toLower boardName) &&
    containsAll (toLower a.name) (tokenizeTarget toLower target)) = true ↔
      Qualifies toLower boardName target a := by
  rw [Bool.and_eq_true, Bool.and_eq_true, hasValidSuffix_iff, containsAll_iff, containsAll_iff]
  constructor
  · rintro ⟨⟨hsuffix, hboard⟩, htarget⟩
    exact ⟨hsuffix, hboard, htarget⟩
  · rintro ⟨hsuffix, hboard, htarget⟩
    exact ⟨⟨hsuffix, hboard⟩, htarget⟩

theorem choose_eq_ok_iff {as : List Asset} : choose as = .ok a ↔ as = [a] := by
  match as with
  | [] => simp [choose]
  | [b] => simp [choose]
  | b :: c :: as => simp [choose]

/-- One candidate stands for one place in the list. -/
theorem candidates_eq_singleton_iff : candidates toLower boardName target assets = [a] ↔
    ∃ before after, assets = before ++ a :: after ∧ Qualifies toLower boardName target a ∧
      ∀ b ∈ before ++ after, ¬ Qualifies toLower boardName target b := by
  unfold candidates
  rw [List.filter_eq_cons_iff]
  simp only [qualifies_iff, List.filter_eq_nil_iff]
  constructor
  · rintro ⟨before, after, rfl, hbefore, ha, hafter⟩
    refine ⟨before, after, rfl, ha, fun b hb => ?_⟩
    rcases List.mem_append.1 hb with hmem | hmem
    · exact hbefore b hmem
    · exact hafter b hmem
  · rintro ⟨before, after, rfl, ha, hothers⟩
    exact ⟨before, after, rfl, fun b hb => hothers b (List.mem_append_left _ hb), ha,
      fun b hb => hothers b (List.mem_append_right _ hb)⟩

theorem candidates_perm (h : assets.Perm assets') :
    (candidates toLower boardName target assets).Perm
      (candidates toLower boardName target assets') :=
  h.filter _

/-- The order of the candidates is told by the text of the error only. -/
theorem choose_perm {as as' : List Asset} (h : as.Perm as') :
    (choose as).mapError MatchError.sentinel = (choose as').mapError MatchError.sentinel := by
  match as, as', h with
  | [], _, h => rw [h.nil_eq]
  | [a], _, h => rw [h.singleton_eq]
  | a :: b :: as, [], h => cases h.symm.nil_eq
  | a :: b :: as, [c], h => cases h.symm.singleton_eq
  | a :: b :: as, c :: d :: as', h => rfl

/-- **Without an entry of the manifest** an asset is the answer if its name
ends like a sysupgrade image and has every token of the board's id and of the
target in it, and no other asset of the list is so. The answer, up to the text
of the error, does not depend on the order of the list. -/
theorem heuristic_answer {manifest : Option Manifest}
    (hentry : manifestEntry manifest boardName = none) :
    (∀ a, matchAsset toLower boardName target manifest assets = .ok a ↔
      ∃ before after, assets = before ++ a :: after ∧ Qualifies toLower boardName target a ∧
        ∀ b ∈ before ++ after, ¬ Qualifies toLower boardName target b) ∧
    ∀ assets', assets.Perm assets' →
      (matchAsset toLower boardName target manifest assets).mapError MatchError.sentinel =
        (matchAsset toLower boardName target manifest assets').mapError MatchError.sentinel := by
  have hmatch : ∀ assets, matchAsset toLower boardName target manifest assets =
      choose (candidates toLower boardName target assets) := by
    intro assets
    rw [matchAsset, hentry]
    rfl
  constructor
  · intro a
    rw [hmatch, choose_eq_ok_iff, candidates_eq_singleton_iff]
  · intro assets' hperm
    rw [hmatch, hmatch]
    exact choose_perm (candidates_perm hperm)

/-- The image of an MM8108 radio. -/
def mm8108Image : Asset :=
  ⟨"openmanet-1.8.0-bcm27xx-bcm2711-mm8108-usb-squashfs-sysupgrade.img.gz", "u1", "", 0⟩

/-- The image of a GW7100. -/
def gw7100Image : Asset :=
  ⟨"openmanet-1.8.0-ipq40xx-generic-gw7100-squashfs-sysupgrade.bin", "u2", "", 0⟩

theorem heuristic_answer_mm8108 :
    matchAsset .ascii "bcm2711,mm8108-usb" "bcm27xx/bcm2711" none [gw7100Image, mm8108Image] =
      .ok mm8108Image ∧
    (matchAsset .ascii "bcm2711,mm8108-usb" "bcm27xx/bcm2711" none
      [gw7100Image, mm8108Image]).mapError MatchError.sentinel =
      (matchAsset .ascii "bcm2711,mm8108-usb" "bcm27xx/bcm2711" none
        [mm8108Image, gw7100Image]).mapError MatchError.sentinel := by
  obtain ⟨hanswer, horder⟩ := @heuristic_answer .ascii "bcm2711,mm8108-usb" "bcm27xx/bcm2711"
    [gw7100Image, mm8108Image] none rfl
  refine ⟨(hanswer mm8108Image).2 ⟨[gw7100Image], [], rfl, qualifies_iff.1 (by decide +kernel),
    fun b hb => ?_⟩, horder _ (List.Perm.swap _ _ _)⟩
  rw [List.append_nil, List.mem_singleton] at hb
  subst hb
  exact fun hq => absurd (qualifies_iff.2 hq) (by decide +kernel)

end Heuristic

/-! ## Words -/

/-- At this place of the name the chunk stands between its ends and characters
that are neither letters nor digits. -/
def chunkAt (name chunk : List Char) (i : ℕ) : Bool :=
  chunk.isPrefixOf (name.drop i) && (name.take i).getLast?.all (!·.isAlphanum) &&
    (name.drop (i + chunk.length)).head?.all (!·.isAlphanum)

/-- The chunk is a word of the name. -/
def WholeChunk (name chunk : List Char) : Prop := ∃ i ≤ name.length, chunkAt name chunk i = true

instance (name chunk : List Char) : Decidable (WholeChunk name chunk) :=
  decidable_of_iff ((List.range (name.length + 1)).any (chunkAt name chunk) = true) (by
    simp only [List.any_eq_true, List.mem_range, Nat.lt_succ_iff]
    rfl)

/-- The image of a Raspberry Pi 4. -/
def rpi4Image : Asset := ⟨"openmanet-rpi4-squashfs-sysupgrade.bin", "u1", "", 0⟩

/-- The board `rpi` is given the image of another one, in whose name `rpi` is
no word; and a board that is not known is given it too. -/
theorem rpi_given_rpi4 :
    matchAsset .ascii "rpi" "" none [rpi4Image] = .ok rpi4Image ∧
    "rpi" ∈ tokenizeBoardName .ascii "rpi" ∧
    ¬ WholeChunk rpi4Image.name.toList "rpi".toList ∧
    matchAsset .ascii "" "" none [rpi4Image] = .ok rpi4Image ∧
    tokenizeBoardName .ascii "" = [] := by
  decide +kernel

end Releases

end OpenManet
