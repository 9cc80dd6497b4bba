import OpenManet.Lib.JsText
import Mathlib.Data.Nat.Notation
/-!
# The browser — release notes

`util/renderReleaseNotes.js`: the body of a release, in a small part of
Markdown, becomes React elements. Blocks are separated by blank lines and are
headings, lists or paragraphs. Within a block the spans are found pattern by
pattern, not place by place: the first bold one of a text is taken, or without
any the first italic one, then code, then a link, and what is before and after
it is rendered on its own, one level down. There are five levels; below them a
text stays as it is.

Keys are left out, and so are the attributes of a link that are always the
same, its target and `rel`.
-/

namespace OpenManet

namespace ReleaseNotes

abbrev Text : Type := List Char

/-- The elements. A fragment is an array among the children. -/
inductive Tag where
  | h (level : ℕ)
  | p
  | ul
  | li
  | strong
  | em
  | code
  | a (href : Text)
  | fragment
deriving DecidableEq

inductive Node where
  | text (s : Text)
  | elem (tag : Tag) (children : List Node)

/-! ## Spans -/

/-- `PATTERNS`, in their order. -/
inductive Kind where
  | bold
  | italic
  | code
  | link
deriving DecidableEq

def kinds : List Kind := [.bold, .italic, .code, .link]

/-- A match: its groups, and what follows it. -/
structure Match where
  text : Text
  url : Text
  after : Text
deriving DecidableEq

open JsText in
/-- The expression of a kind at one place, behind a character or at the
start. -/
def matchAt (kind : Kind) (prev : Option Char) (s : Text) : Option Match :=
  match kind with
  | .bold => do
    let s ← literal ['*', '*'] s
    let (text, s) ← run (fun c => c ≠ '*') s
    let after ← literal ['*', '*'] s
    some { text := text, url := [], after := after }
  | .italic =>
    if prev = some '*' then none
    else do
      let s ← literal ['*'] s
      let (text, s) ← run (fun c => c ≠ '*' && c ≠ '\n') s
      let after ← literal ['*'] s
      if after.head? = some '*' then none else some { text := text, url := [], after := after }
  | .code => do
    let s ← literal ['\x60'] s
    let (text, s) ← run (fun c => c ≠ '\x60' && c ≠ '\n') s
    let after ← literal ['\x60'] s
    some { text := text, url := [], after := after }
  | .link => do
    let s ← literal ['['] s
    let (text, s) ← run (fun c => c ≠ ']') s
    let s ← literal [']', '('] s
    let (url, s) ← run (fun c => c ≠ ')') s
    let after ← literal [')'] s
    some { text := text, url := url, after := after }

/-- The first match from a place on, with what is before it. -/
def exec (kind : Kind) : Option Char → Text → Option (Text × Match)
  | _, [] => none
  | prev, c :: s =>
    match matchAt kind prev (c :: s) with
    | some m => some ([], m)
    | none => (exec kind (some c) s).map fun r => (c :: r.1, r.2)

/-- The text begins with another, in either case. -/
def beginsWith (s : Text) (url : Text) : Bool := (url.take s.length).map Char.toLower = s

/-- `SAFE_URL_RE`. -/
def safeUrl (url : Text) : Bool :=
  beginsWith "http://".toList url || beginsWith "https://".toList url ||
    beginsWith "mailto:".toList url

/-- `build`, with the text of a span rendered by `recurse`. -/
def build (recurse : Text → List Node) (kind : Kind) (m : Match) : Node :=
  match kind with
  | .bold => .elem .strong (recurse m.text)
  | .italic => .elem .em (recurse m.text)
  | .code => .elem .code [.text m.text]
  | .link =>
    let url := JsText.trim m.url
    if safeUrl url then .elem (.a url) (recurse m.text)
    -- the label stays, as an array among the children
    else .elem .fragment (recurse m.text)

/-- The first kind that matches, with its match. -/
def firstMatch (text : Text) : Option (Kind × Text × Match) :=
  kinds.findSome? fun kind => (exec kind none text).map fun r => (kind, r.1, r.2)

/-- `inlinePass`, by the levels that are left: none where `depth > 4`. -/
def inlinePass : ℕ → Text → List Node
  | 0, text => if text = [] then [] else [.text text]
  | levels + 1, text =>
    if text = [] then []
    else
      match firstMatch text with
      | none => [.text text]
      | some (kind, before, m) =>
        inlinePass levels before ++ build (inlinePass levels) kind m :: inlinePass levels m.after

def renderInline (text : Text) : List Node := inlinePass 5 text

/-! ## Blocks -/

/-- `replace(/\r\n?/g, '\n')`. -/
def normalizeNewlines : Text → Text
  | [] => []
  | '\r' :: '\n' :: s => '\n' :: normalizeNewlines s
  | c :: s => (if c = '\r' then '\n' else c) :: normalizeNewlines s

/-- A turn of the loop of `splitBlocks`, on the blocks and the lines of the one
begun. -/
def splitTurn (st : List Text × List Text) (line : Text) : List Text × List Text :=
  if JsText.trim line = [] then
    if st.2 ≠ [] then (st.1 ++ [['\n'].intercalate st.2], []) else st
  else (st.1, st.2 ++ [line])

def splitBlocks (body : Text) : List Text :=
  let (blocks, cur) := ((normalizeNewlines body).splitOn '\n').foldl splitTurn ([], [])
  if cur ≠ [] then blocks ++ [['\n'].intercalate cur] else blocks

/-- `matchHeading`: the level and the text. Behind white space alone the text is
its last character, if another one is before it. -/
def matchHeading (block : Text) : Option (ℕ × Text) :=
  let level := (block.takeWhile (· = '#')).length
  let rest := block.dropWhile (· = '#')
  let white := rest.takeWhile JsText.isSpace
  let tail := rest.dropWhile JsText.isSpace
  if level = 0 ∨ 3 < level ∨ white = [] ∨ '\n' ∈ block then none
  else if tail = [] then
    ((white.drop 1).reverse.find? fun c => !JsText.isLineTerminator c).map fun c => (level, [c])
  else
    let text := JsText.trim tail
    if text.any JsText.isLineTerminator then none else some (level, text)

/-- The expression of `matchList` on a line. -/
def matchItem (line : Text) : Option Text :=
  match line.dropWhile JsText.isSpace with
  | [] => none
  | c :: rest =>
    let item := rest.dropWhile JsText.isSpace
    if (c = '-' ∨ c = '*') ∧ rest.takeWhile JsText.isSpace ≠ [] ∧
        ¬item.any JsText.isLineTerminator then some item
    else none

/-- `matchList`: the items, where every line is one. -/
def matchList (block : Text) : Option (List Text) := (block.splitOn '\n').mapM matchItem

/-- `flushList`. -/
def flushList (out : List Node) (buffer : Option (List Text)) : List Node :=
  match buffer with
  | none => out
  | some [] => out
  | some (item :: items) =>
    out ++ [.elem .ul ((item :: items).map fun text => .elem .li (renderInline text))]

/-- A turn of the loop of `renderReleaseNotes`, on the elements and the items of
the list begun. -/
def renderTurn (st : List Node × Option (List Text)) (block : Text) :
    List Node × Option (List Text) :=
  match matchHeading block with
  | some (level, text) => (flushList st.1 st.2 ++ [.elem (.h level) (renderInline text)], none)
  | none =>
    match matchList block with
    | some items => (st.1, some (st.2.getD [] ++ items))
    | none => (flushList st.1 st.2 ++ [.elem .p (renderInline block)], none)

def renderBlocks (blocks : List Text) : List Node :=
  let (out, buffer) := blocks.foldl renderTurn ([], none)
  flushList out buffer

def renderReleaseNotes (body : Text) : List Node :=
  if JsText.trim body = [] then [] else renderBlocks (splitBlocks body)

end ReleaseNotes

end OpenManet
