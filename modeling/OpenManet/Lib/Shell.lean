import Mathlib.Data.List.Basic
/-!
# The shell command language

What a POSIX shell takes a script for, before it runs any of it: the tokens
(quoting, word splitting at blanks and operators, comments), then the simple
commands with their assignments, words and redirections.

The tokens are found by a machine that takes the script character by
character. A word keeps of each of its characters whether it was quoted, for
this is what later decides which of them are expanded; `Word.literal?` is the
text of a word in which nothing is.

The language is the one of simple commands, one behind the other or in the
background. What goes beyond it (pipelines, compound commands, here-documents,
command substitution, parameters in braces) is refused, and so is a script
that ends within a quotation.
-/

namespace OpenManet

namespace Shell

/-- Why a script is not taken. -/
inductive Refusal where
  | unterminated
  | unsupported
  | syntaxError
deriving DecidableEq, Repr

/-! ## Words -/

/-- A piece of a word: a character as it stands, one that quoting has made
literal, or a parameter to expand. -/
inductive Piece where
  | plain (c : Char)
  | quoted (c : Char)
  | param (name : List Char)
deriving DecidableEq, Repr

/-- A word. -/
abbrev Word := List Piece

/-- The characters that start a pattern or name a home directory, where they
are not quoted. -/
def globChars : List Char := ['*', '?', '[', '~']

/-- The character a piece stands for, unless it may be expanded. -/
def Piece.literal? : Piece → Option Char
  | plain c => if c ∈ globChars then none else some c
  | quoted c => some c
  | param _ => none

/-- The text of a word in which nothing is expanded. -/
def Word.literal? (w : Word) : Option String := (w.mapM Piece.literal?).map String.ofList

/-- The text of a word none of whose characters is quoted. -/
def Word.bare? (w : Word) : Option (List Char) :=
  w.mapM fun
    | .plain c => some c
    | _ => none

/-! ## Tokens -/

inductive Token where
  | word (w : Word)
  | ioNumber (digits : List Char)
  | op (o : List Char)
  | newline
deriving DecidableEq, Repr

/-- The operators. -/
def operators : List (List Char) :=
  [['&'], ['&', '&'], ['('], [')'], [';'], [';', ';'], ['|'], ['|', '|'], ['<'], ['>'],
    ['<', '<'], ['>', '>'], ['<', '&'], ['>', '&'], ['<', '>'], ['<', '<', '-'], ['>', '|']]

def isOperator (o : List Char) : Bool := operators.contains o

theorem isOperator_iff {o : List Char} : isOperator o = true ↔ o ∈ operators :=
  List.contains_iff_mem

/-- The parameters with names of one character that is no letter. -/
def specialParams : List Char := ['@', '*', '#', '?', '-', '$', '!', '0', '1', '2', '3', '4', '5',
  '6', '7', '8', '9']

/-- A character that can begin a name. -/
def nameStart (c : Char) : Bool := c.isAlpha || c = '_'

/-- A character of a name. -/
def nameChar (c : Char) : Bool := c.isAlphanum || c = '_'

/-- Where the machine is. The word that has been begun goes along with it;
outside of quotes there may be none. -/
inductive State where
  | bare (w : Option Word)
  | escape (w : Option Word)
  | single (w : Word)
  | double (w : Word)
  | doubleEscape (w : Word)
  /-- Behind a `$`, in double quotes or not. -/
  | dollar (w : Word) (inDouble : Bool)
  | name (w : Word) (n : List Char) (inDouble : Bool)
  | operator (o : List Char)
  | comment
deriving DecidableEq, Repr

/-- The word there is with one more piece. -/
def push (w : Option Word) (p : Piece) : Option Word := some (w.getD [] ++ [p])

/-- The token of a word that ends before `next`. A number right before a
redirection is the file descriptor of it. -/
def delimited (w : Option Word) (next : Option Char) : List Token :=
  match w with
  | none => []
  | some w =>
      match w.bare? with
      | some digits =>
          if digits ≠ [] ∧ digits.all Char.isDigit ∧ (next = some '<' ∨ next = some '>') then
            [.ioNumber digits]
          else [.word w]
      | none => [.word w]

/-- A character outside of quotes. -/
def bareStep (w : Option Word) (c : Char) : Except Refusal (List Token × State) :=
  if c = '\\' then .ok ([], .escape w)
  else if c = '\'' then .ok ([], .single (w.getD []))
  else if c = '"' then .ok ([], .double (w.getD []))
  else if c = '`' then .error .unsupported
  else if c = '$' then .ok ([], .dollar (w.getD []) false)
  else if isOperator [c] then .ok (delimited w (some c), .operator [c])
  else if c = '\n' then .ok (delimited w (some c) ++ [.newline], .bare none)
  else if c = ' ' ∨ c = '\t' then .ok (delimited w (some c), .bare none)
  else if c = '#' ∧ w = none then .ok ([], .comment)
  else .ok ([], .bare (push w (.plain c)))

/-- A character in double quotes. -/
def doubleStep (w : Word) (c : Char) : Except Refusal (List Token × State) :=
  if c = '"' then .ok ([], .bare (some w))
  else if c = '\\' then .ok ([], .doubleEscape w)
  else if c = '`' then .error .unsupported
  else if c = '$' then .ok ([], .dollar w true)
  else .ok ([], .double (w ++ [.quoted c]))

/-- A character behind a word, in double quotes or not. -/
def resume (w : Word) (inDouble : Bool) (c : Char) : Except Refusal (List Token × State) :=
  if inDouble then doubleStep w c else bareStep (some w) c

/-- The state behind a piece of a word. -/
def State.within (w : Word) (inDouble : Bool) : State :=
  if inDouble then .double w else .bare (some w)

/-- One character. -/
def step : State → Char → Except Refusal (List Token × State)
  | .bare w, c => bareStep w c
  | .escape w, c => .ok ([], .bare (if c = '\n' then w else push w (.quoted c)))
  | .single w, c =>
      .ok ([], if c = '\'' then .bare (some w) else .single (w ++ [.quoted c]))
  | .double w, c => doubleStep w c
  | .doubleEscape w, c =>
      if c = '\n' then .ok ([], .double w)
      else if c ∈ ['$', '`', '"', '\\'] then .ok ([], .double (w ++ [.quoted c]))
      else .ok ([], .double (w ++ [.quoted '\\', .quoted c]))
  | .dollar w inDouble, c =>
      if c = '{' ∨ c = '(' then .error .unsupported
      else if c ∈ specialParams then .ok ([], .within (w ++ [.param [c]]) inDouble)
      else if nameStart c then .ok ([], .name w [c] inDouble)
      else resume (w ++ [.quoted '$']) inDouble c
  | .name w n inDouble, c =>
      if nameChar c then .ok ([], .name w (n ++ [c]) inDouble)
      else resume (w ++ [.param n]) inDouble c
  | .operator o, c =>
      if isOperator (o ++ [c]) then .ok ([], .operator (o ++ [c]))
      else (bareStep none c).map fun out => (.op o :: out.1, out.2)
  | .comment, c => .ok (if c = '\n' then ([.newline], .bare none) else ([], .comment))

/-- The end of the script. -/
def finish : State → Except Refusal (List Token)
  | .bare w => .ok (delimited w none)
  | .dollar w false => .ok [.word (w ++ [.quoted '$'])]
  | .name w n false => .ok [.word (w ++ [.param n])]
  | .operator o => .ok [.op o]
  | .comment => .ok []
  | .escape _ | .single _ | .double _ | .doubleEscape _ | .dollar _ true | .name _ _ true =>
      .error .unterminated

/-- The tokens of a text from a state on, and the state at its end. -/
def run : State → List Char → Except Refusal (List Token × State)
  | q, [] => .ok ([], q)
  | q, c :: cs =>
      match step q c with
      | .error e => .error e
      | .ok (ts, q') => (run q' cs).map fun out => (ts ++ out.1, out.2)

/-- The tokens of a script. -/
def tokens (cs : List Char) : Except Refusal (List Token) :=
  match run (.bare none) cs with
  | .error e => .error e
  | .ok (ts, q) => (finish q).map fun last => ts ++ last

/-! ## Commands -/

/-- What a redirection does. -/
inductive Redirection where
  | read
  | write
  | append
  | dupIn
  | dupOut
  | readWrite
  | clobber
deriving DecidableEq, Repr

def redirection? (o : List Char) : Option Redirection :=
  if o = ['<'] then some .read
  else if o = ['>'] then some .write
  else if o = ['>', '>'] then some .append
  else if o = ['<', '&'] then some .dupIn
  else if o = ['>', '&'] then some .dupOut
  else if o = ['<', '>'] then some .readWrite
  else if o = ['>', '|'] then some .clobber
  else none

/-- The file descriptor that is redirected where none is given. -/
def Redirection.defaultFd : Redirection → ℕ
  | read | dupIn | readWrite => 0
  | write | append | dupOut | clobber => 1

structure Redirect where
  fd : ℕ
  kind : Redirection
  target : Word
deriving DecidableEq, Repr

/-- A simple command. -/
structure Command where
  assigns : List (List Char × Word)
  words : List Word
  redirects : List Redirect
deriving DecidableEq, Repr

def Command.empty : Command := ⟨[], [], []⟩

/-- The words that begin or end a compound command. -/
def reserved : List (List Char) :=
  [['!'], ['{'], ['}'], ['c', 'a', 's', 'e'], ['d', 'o'], ['d', 'o', 'n', 'e'],
    ['e', 'l', 'i', 'f'], ['e', 'l', 's', 'e'], ['e', 's', 'a', 'c'], ['f', 'i'], ['f', 'o', 'r'],
    ['i', 'f'], ['i', 'n'], ['t', 'h', 'e', 'n'], ['u', 'n', 't', 'i', 'l'],
    ['w', 'h', 'i', 'l', 'e']]

/-- The name and the value of an assignment: a name that is not quoted, an
equals sign, and what follows. -/
def assignment? : Word → Option (List Char × Word)
  | [] => none
  | .plain c :: w => if nameStart c then named [c] w else none
  | _ :: _ => none
where
  named (n : List Char) : Word → Option (List Char × Word)
    | .plain c :: w =>
        if c = '=' then some (n, w) else if nameChar c then named (n ++ [c]) w else none
    | _ => none

/-- A command with one more word. The ones before the command's name may be
assignments, and the first of all may not be a reserved word. -/
def Command.addWord (c : Command) (w : Word) : Except Refusal Command :=
  if c.words ≠ [] then .ok { c with words := c.words ++ [w] }
  else
    match assignment? w with
    | some a => .ok { c with assigns := c.assigns ++ [a] }
    | none =>
        if c = .empty ∧ ∃ n ∈ reserved, w.bare? = some n then .error .unsupported
        else .ok { c with words := [w] }

/-- A command of a list, and whether it runs in the background. -/
structure Item where
  command : Command
  background : Bool
deriving DecidableEq, Repr

/-- What the parser waits for: anything, a redirection for a file descriptor,
or the word of a redirection. -/
inductive Pending where
  | none
  | fd (n : ℕ)
  | target (n : ℕ) (kind : Redirection)
deriving DecidableEq, Repr

/-- The commands of a list of tokens, with a command begun. -/
def items : Command → Pending → List Token → Except Refusal (List Item)
  | c, .none, [] => .ok (if c = .empty then [] else [⟨c, false⟩])
  | _, _, [] => .error .syntaxError
  | c, .target n kind, .word w :: ts =>
      items { c with redirects := c.redirects ++ [⟨n, kind, w⟩] } .none ts
  | _, .target _ _, _ :: _ => .error .syntaxError
  | c, .fd n, .op o :: ts =>
      match redirection? o with
      | some kind => items c (.target n kind) ts
      | none => .error .unsupported
  | _, .fd _, _ :: _ => .error .syntaxError
  | c, .none, .word w :: ts =>
      match c.addWord w with
      | .error e => .error e
      | .ok c' => items c' .none ts
  | c, .none, .ioNumber digits :: ts => items c (.fd (Nat.ofDigitChars 10 digits 0)) ts
  | c, .none, .newline :: ts =>
      if c = .empty then items c .none ts
      else (items .empty .none ts).map fun is => ⟨c, false⟩ :: is
  | c, .none, .op o :: ts =>
      match redirection? o with
      | some kind => items c (.target kind.defaultFd kind) ts
      | none =>
          if o = ['&'] ∨ o = [';'] then
            if c = .empty then .error .syntaxError
            else (items .empty .none ts).map fun is => ⟨c, o = ['&']⟩ :: is
          else .error .unsupported

/-- The commands of a script. It ends at a NUL, as every argument does. -/
def parse (script : String) : Except Refusal (List Item) :=
  match tokens (script.toList.takeWhile (· ≠ '\x00')) with
  | .error e => .error e
  | .ok ts => items .empty .none ts

/-! ## Runs -/

/-- From one state the machine reads a text, yields tokens, and is in another
state. -/
def Reads (q : State) (cs : List Char) (ts : List Token) (q' : State) : Prop :=
  run q cs = .ok (ts, q')

namespace Reads

variable {q q' q'' : State} {cs cs' : List Char} {ts ts' : List Token} {c : Char}

theorem nil (q : State) : Reads q [] [] q := rfl

theorem cons (hstep : step q c = .ok (ts, q')) (h : Reads q' cs ts' q'') :
    Reads q (c :: cs) (ts ++ ts') q'' := by
  unfold Reads at h ⊢
  rw [run, hstep]
  dsimp only
  rw [h]
  rfl

/-- A character that ends no token. -/
theorem into (hstep : step q c = .ok ([], q')) (h : Reads q' cs ts q'') :
    Reads q (c :: cs) ts q'' :=
  cons hstep h

/-- One text read behind another. -/
theorem append (h : Reads q cs ts q') (h' : Reads q' cs' ts' q'') :
    Reads q (cs ++ cs') (ts ++ ts') q'' := by
  induction cs generalizing q ts with
  | nil =>
      cases h
      exact h'
  | cons c cs ih =>
      unfold Reads at h
      rw [run] at h
      cases hstep : step q c with
      | error e =>
          rw [hstep] at h
          cases h
      | ok out =>
          obtain ⟨ts₁, q₁⟩ := out
          rw [hstep] at h
          dsimp only at h
          cases hrest : run q₁ cs with
          | error e =>
              rw [hrest] at h
              cases h
          | ok out =>
              rw [hrest] at h
              cases h
              rw [List.append_assoc]
              exact cons hstep (ih hrest)

/-- An operator ends before a character that does not make it longer. -/
theorem operator {o : List Char} (h : Reads (.bare none) (c :: cs) ts q)
    (hends : o ++ [c] ∉ operators) : Reads (.operator o) (c :: cs) (.op o :: ts) q := by
  have hbare : step (.bare none) c = bareStep none c := rfl
  have hop : step (.operator o) c = (bareStep none c).map fun out => (.op o :: out.1, out.2) :=
    if_neg (mt isOperator_iff.1 hends)
  unfold Reads at h ⊢
  rw [run, hbare] at h
  rw [run, hop]
  cases hstep : bareStep none c with
  | error e =>
      rw [hstep] at h
      cases h
  | ok out =>
      rw [hstep] at h
      dsimp only [Except.map] at h ⊢
      cases hrest : run out.2 cs with
      | error e =>
          rw [hrest] at h
          cases h
      | ok last =>
          rw [hrest] at h
          cases h
          rfl

/-- The tokens of a script that is read to its end. -/
theorem tokens_eq (h : Reads (.bare none) cs ts q) (hfinish : finish q = .ok ts') :
    tokens cs = .ok (ts ++ ts') := by
  unfold Reads at h
  rw [tokens, h]
  dsimp only
  rw [hfinish]
  rfl

end Reads

/-- A word that ends before anything but a redirection is a word. -/
theorem delimited_some {w : Word} {next : Option Char}
    (hnext : ¬ (next = some '<' ∨ next = some '>')) : delimited (some w) next = [.word w] := by
  unfold delimited
  dsimp only
  split
  · rw [if_neg fun h => hnext h.2.2]
  · rfl

/-- A word that ends at a blank. -/
theorem reads_blank (w : Word) : Reads (.bare (some w)) [' '] [.word w] (.bare none) := by
  have hstep : step (.bare (some w)) ' ' = .ok ([.word w], .bare none) := by
    change Except.ok (delimited (some w) (some ' '), State.bare none) = _
    rw [delimited_some (by decide)]
  exact Reads.cons hstep (.nil _)

/-- The text of a word, piece by piece. -/
theorem literal?_map {f : Char → Piece} {cs : List Char}
    (h : ∀ c ∈ cs, (f c).literal? = some c) :
    Word.literal? (cs.map f) = some (String.ofList cs) := by
  have hpieces : (cs.map f).mapM Piece.literal? = some cs := by
    induction cs with
    | nil => rfl
    | cons c cs ih =>
        rw [List.map_cons, List.mapM_cons, h c List.mem_cons_self,
          ih fun d hd => h d (List.mem_cons_of_mem _ hd)]
        rfl
  rw [Word.literal?, hpieces]
  rfl

/-- Behind the name of a command every word is a word of the command. -/
theorem items_words {c : Command} (hnamed : c.words ≠ []) (ws : List Word) (ts : List Token) :
    items c .none (ws.map .word ++ ts) = items { c with words := c.words ++ ws } .none ts := by
  induction ws generalizing c with
  | nil => rw [List.map_nil, List.nil_append, List.append_nil]
  | cons w ws ih =>
      have hadd : c.addWord w = .ok { c with words := c.words ++ [w] } := by
        unfold Command.addWord
        rw [if_pos hnamed]
      have hnamed' : ({ c with words := c.words ++ [w] } : Command).words ≠ [] := by simp
      rw [List.map_cons, List.cons_append, items, hadd]
      dsimp only
      rw [ih hnamed', List.append_assoc, List.singleton_append]

end Shell

end OpenManet
