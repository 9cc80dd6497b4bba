import OpenManet.Lib.Shell
import Mathlib.Data.List.TakeWhile
/-!
# The wrapper script

`buildSysupgradeWrapperScript` of `internal/sysupgrade/runner.go`: the text a
root shell is given to start `sysupgrade` in the background. The path of the
binary, its arguments, the name of a downloaded file among them, and the path
of the log are put into it by `shellQuote`, which leaves a string as it is
where all its characters are safe and puts it into single quotes elsewhere.

The shell takes the script for three commands, and every string for one word.
-/

namespace OpenManet

namespace Runner

open Shell

/-! ## Quoting -/

/-- The characters `shellNeedsQuote` passes. -/
def safe (r : Char) : Bool :=
  ('A' ≤ r && r ≤ 'Z') || ('a' ≤ r && r ≤ 'z') || ('0' ≤ r && r ≤ '9') || r = '/' || r = '.' ||
    r = '_' || r = '-' || r = '+' || r = '=' || r = ':' || r = ','

/-- `shellNeedsQuote`. -/
def shellNeedsQuote (s : String) : Bool := s.toList.any fun r => !safe r

/-- What the loop of `shellQuote` writes. -/
def escaped (s : List Char) : List Char :=
  s.flatMap fun r => if r = '\'' then ['\'', '\\', '\'', '\''] else [r]

/-- `shellQuote`. -/
def shellQuote (s : String) : String :=
  if s = "" then "''"
  else if !shellNeedsQuote s then s
  else String.ofList ('\'' :: (escaped s.toList ++ ['\'']))

/-- `shellQuoteArgs`. -/
def shellQuoteArgs (args : List String) : String :=
  if args = [] then "" else " ".intercalate (args.map shellQuote)

/-- `buildSysupgradeWrapperScript`. -/
def buildSysupgradeWrapperScript (binaryPath : String) (args : List String) (logPath : String) :
    String :=
  "trap '' HUP\n" ++ shellQuote binaryPath ++ " " ++ shellQuoteArgs args ++ " >" ++
    shellQuote logPath ++ " 2>&1 </dev/null &\necho $!"

/-! ## One string -/

/-- The word a string becomes. -/
def pieces (s : String) : Word :=
  if shellNeedsQuote s then s.toList.map .quoted else s.toList.map .plain

section Quote

variable {r : Char} {s : String}

theorem ne_of_safe (h : safe r = true) {d : Char} (hd : safe d = false) : r ≠ d := by
  rintro rfl
  rw [h] at hd
  cases hd

/-- **A safe character** stands for itself, wherever it stands. -/
theorem bareStep_safe (h : safe r = true) (w : Option Word) :
    bareStep w r = .ok ([], .bare (push w (.plain r))) := by
  have hop : ¬ isOperator [r] = true := by
    rw [isOperator_iff]
    intro hmem
    simp only [operators, List.mem_cons, List.cons.injEq, List.not_mem_nil, or_false, and_true,
      reduceCtorEq, and_false, false_or] at hmem
    rcases hmem with rfl | rfl | rfl | rfl | rfl | rfl | rfl <;> cases h
  unfold bareStep
  rw [if_neg (ne_of_safe h rfl), if_neg (ne_of_safe h rfl), if_neg (ne_of_safe h rfl),
    if_neg (ne_of_safe h rfl), if_neg (ne_of_safe h rfl), if_neg hop, if_neg (ne_of_safe h rfl),
    if_neg (not_or.2 ⟨ne_of_safe h rfl, ne_of_safe h rfl⟩),
    if_neg fun hc => ne_of_safe h rfl hc.1]

/-- Safe characters are added to the word as they are. -/
theorem reads_safe {cs : List Char} (h : ∀ r ∈ cs, safe r = true) (w : Word) :
    Reads (.bare (some w)) cs [] (.bare (some (w ++ cs.map .plain))) := by
  induction cs generalizing w with
  | nil =>
      rw [List.map_nil, List.append_nil]
      exact .nil _
  | cons r cs ih =>
      have hrest := ih (fun d hd => h d (List.mem_cons_of_mem _ hd)) (w ++ [.plain r])
      rw [List.append_assoc, List.singleton_append] at hrest
      exact .into (bareStep_safe (h r List.mem_cons_self) _) hrest

/-- **The loop of `shellQuote`**: in single quotes every character is taken
for itself, and the quotation ends where the loop has ended. -/
theorem reads_escaped (cs : List Char) (w : Word) :
    Reads (.single w) (escaped cs ++ ['\'']) [] (.bare (some (w ++ cs.map .quoted))) := by
  induction cs generalizing w with
  | nil =>
      rw [List.map_nil, List.append_nil]
      exact .into rfl (.nil _)
  | cons r cs ih =>
      have hrest := ih (w ++ [.quoted r])
      rw [List.append_assoc, List.singleton_append] at hrest
      unfold escaped at hrest ⊢
      rw [List.flatMap_cons, List.append_assoc]
      by_cases hquote : r = '\''
      · -- the quotation is left for one escaped quote and taken up again
        subst hquote
        rw [if_pos rfl]
        exact .into rfl (.into rfl (.into rfl (.into rfl hrest)))
      · rw [if_neg hquote]
        have hstep : step (.single w) r = .ok ([], .single (w ++ [.quoted r])) := by
          change Except.ok ([], if r = '\'' then State.bare (some w) else _) = _
          rw [if_neg hquote]
        exact .into hstep hrest

/-- **A quoted string is one word**, or what is behind a word that has been
begun. -/
theorem reads_shellQuote (s : String) (w : Option Word) :
    Reads (.bare w) (shellQuote s).toList [] (.bare (some (w.getD [] ++ pieces s))) := by
  unfold shellQuote
  split_ifs with hempty hsafe
  · subst hempty
    have hnone : pieces "" = [] := rfl
    rw [hnone, List.append_nil]
    exact .into rfl (.into rfl (.nil _))
  · have hneeds : shellNeedsQuote s = false := by simpa using hsafe
    have hall : ∀ r ∈ s.toList, safe r = true := by
      unfold shellNeedsQuote at hneeds
      simpa using hneeds
    rw [pieces, hneeds, if_neg Bool.false_ne_true]
    obtain ⟨r, cs, hcs⟩ := List.exists_cons_of_ne_nil (mt String.toList_eq_nil_iff.1 hempty)
    rw [hcs] at hall ⊢
    have hrest := reads_safe (fun d hd => hall d (List.mem_cons_of_mem _ hd))
      (w.getD [] ++ [.plain r])
    rw [List.append_assoc, List.singleton_append] at hrest
    exact .into (bareStep_safe (hall r List.mem_cons_self) w) hrest
  · have hneeds : shellNeedsQuote s = true := by simpa using hsafe
    rw [pieces, hneeds, if_pos rfl, String.toList_ofList]
    exact .into rfl (reads_escaped _ _)

/-- The word is the string. -/
theorem literal?_pieces (s : String) : Word.literal? (pieces s) = some s := by
  unfold pieces
  split_ifs with hneeds
  · rw [literal?_map fun _ _ => rfl, String.ofList_toList]
  · have hall : ∀ r ∈ s.toList, safe r = true := by
      unfold shellNeedsQuote at hneeds
      simpa using hneeds
    rw [literal?_map fun r hr => ?_, String.ofList_toList]
    have hglob : r ∉ globChars := by
      intro hmem
      simp only [globChars, List.mem_cons, List.not_mem_nil, or_false] at hmem
      have hr := hall r hr
      rcases hmem with rfl | rfl | rfl | rfl <;> cases hr
    exact if_neg hglob

end Quote

/-! ## The script -/

section Script

/-- The arguments, and the blank behind them. -/
theorem reads_shellQuoteArgs (args : List String) :
    Reads (.bare none) ((shellQuoteArgs args).toList ++ [' '])
      (args.map fun a => .word (pieces a)) (.bare none) := by
  have hword : ∀ a, Reads (.bare none) ((shellQuote a).toList ++ [' ']) [.word (pieces a)]
      (.bare none) := fun a => (reads_shellQuote a none).append (reads_blank _)
  induction args with
  | nil => exact .into rfl (.nil _)
  | cons a args ih =>
      cases args with
      | nil => exact hword a
      | cons b args =>
          have hjoin : (shellQuoteArgs (a :: b :: args)).toList =
              (shellQuote a).toList ++ [' '] ++ (shellQuoteArgs (b :: args)).toList := by
            unfold shellQuoteArgs
            rw [if_neg (List.cons_ne_nil _ _), if_neg (List.cons_ne_nil _ _), List.map_cons,
              List.map_cons, String.intercalate_cons_cons, String.toList_append,
              String.toList_append]
            rfl
          rw [hjoin, List.append_assoc]
          exact (hword a).append ih

/-- What is put behind `>` does not make another operator of it. -/
theorem shellQuote_head (s : String) :
    ∃ c cs, (shellQuote s).toList = c :: cs ∧ ['>', c] ∉ operators := by
  unfold shellQuote
  split_ifs with hempty hsafe
  · exact ⟨'\'', ['\''], rfl, by decide⟩
  · obtain ⟨r, cs, hcs⟩ := List.exists_cons_of_ne_nil (mt String.toList_eq_nil_iff.1 hempty)
    refine ⟨r, cs, hcs, fun hmem => ?_⟩
    have hneeds : shellNeedsQuote s = false := by simpa using hsafe
    have hr : safe r = true := by
      unfold shellNeedsQuote at hneeds
      rw [hcs, List.any_cons] at hneeds
      simpa using (Bool.or_eq_false_iff.1 hneeds).1
    simp only [operators, List.mem_cons, List.cons.injEq, List.not_mem_nil, or_false, and_true,
      reduceCtorEq, and_false, false_or, true_and, Char.reduceEq, false_and] at hmem
    rcases hmem with rfl | rfl | rfl <;> cases hr
  · exact ⟨'\'', _, String.toList_ofList, by decide⟩

/-- A word as it is written. -/
def bareWord (s : String) : Word := s.toList.map .plain

/-- The script up to the binary, and behind the log. -/
def trapTokens : List Token :=
  [.word (bareWord "trap"), .word [], .word (bareWord "HUP"), .newline]

def tailTokens : List Token :=
  [.ioNumber ['2'], .op ['>', '&'], .word (bareWord "1"), .op ['<'], .word (bareWord "/dev/null"),
    .op ['&'], .newline, .word (bareWord "echo")]

/-- **The tokens of the script.** -/
theorem tokens_script (binaryPath : String) (args : List String) (logPath : String) :
    tokens (buildSysupgradeWrapperScript binaryPath args logPath).toList =
      .ok (trapTokens ++ .word (pieces binaryPath) :: (args.map fun a => .word (pieces a)) ++
        .op ['>'] :: .word (pieces logPath) :: tailTokens ++ [.word [.param ['!']]]) := by
  have htrap : Reads (.bare none) "trap '' HUP\n".toList trapTokens (.bare none) := rfl
  have htail : Reads (.bare none) "2>&1 </dev/null &\necho $!".toList tailTokens
      (.bare (some [.param ['!']])) := rfl
  have hbinary := (reads_shellQuote binaryPath none).append (reads_blank _)
  -- the log stands right behind the operator
  have hlog : Reads (.operator ['>']) ((shellQuote logPath).toList ++
      ([' '] ++ "2>&1 </dev/null &\necho $!".toList))
      (.op ['>'] :: .word (pieces logPath) :: tailTokens) (.bare (some [.param ['!']])) := by
    have hword := (reads_shellQuote logPath none).append ((reads_blank _).append htail)
    obtain ⟨c, cs, hcs, hends⟩ := shellQuote_head logPath
    rw [hcs] at hword ⊢
    exact hword.operator hends
  have hwrite : Reads (.bare none) ('>' :: _) _ _ := .into rfl hlog
  have hall := htrap.append (hbinary.append ((reads_shellQuoteArgs args).append hwrite))
  have htext : (buildSysupgradeWrapperScript binaryPath args logPath).toList =
      "trap '' HUP\n".toList ++ ((shellQuote binaryPath).toList ++ [' '] ++
        ((shellQuoteArgs args).toList ++ [' '] ++ '>' :: ((shellQuote logPath).toList ++
          ([' '] ++ "2>&1 </dev/null &\necho $!".toList)))) := by
    unfold buildSysupgradeWrapperScript
    simp only [String.toList_append, List.append_assoc]
    rfl
  have hfinish : finish (.bare (some [.param ['!']])) = .ok [.word [.param ['!']]] := rfl
  rw [htext, hall.tokens_eq hfinish]
  simp

/-! ## The commands -/

/-- `trap '' HUP`. -/
def trapCommand : Command := ⟨[], [bareWord "trap", [], bareWord "HUP"], []⟩

/-- `echo $!`. -/
def echoCommand : Command := ⟨[], [bareWord "echo", [.param ['!']]], []⟩

/-- The command that is started. -/
def started (binaryPath : String) (args : List String) (logPath : String) : Command where
  assigns := []
  words := pieces binaryPath :: args.map pieces
  redirects :=
    [⟨1, .write, pieces logPath⟩, ⟨2, .dupOut, bareWord "1"⟩, ⟨0, .read, bareWord "/dev/null"⟩]

/-- The path of a binary names a command: it is no assignment and no reserved
word. -/
theorem addWord_absolute {path : String} (habs : path.toList.head? = some '/') :
    Command.empty.addWord (pieces path) = .ok ⟨[], [pieces path], []⟩ := by
  obtain ⟨cs, hcs⟩ := List.head?_eq_some_iff.1 habs
  -- whether it is quoted or not, the word begins with the slash
  have hfirst : (∃ w, pieces path = .plain '/' :: w) ∨ ∃ w, pieces path = .quoted '/' :: w := by
    unfold pieces
    rw [hcs]
    split_ifs
    · exact .inr ⟨_, rfl⟩
    · exact .inl ⟨_, rfl⟩
  have hassign : assignment? (pieces path) = none := by
    rcases hfirst with ⟨w, hw⟩ | ⟨w, hw⟩ <;> rw [hw] <;> rfl
  have hreserved : ¬ ∃ n ∈ reserved, (pieces path).bare? = some n := by
    rintro ⟨n, hn, hbare⟩
    rcases hfirst with ⟨w, hw⟩ | ⟨w, hw⟩
    · have hhead : n.head? = some '/' := by
        rw [hw, Word.bare?, List.mapM_cons] at hbare
        obtain ⟨rest, -, rfl⟩ : ∃ rest, _ ∧ '/' :: rest = n := by
          simpa [Option.bind_eq_some_iff] using hbare
        rfl
      have hnone : ∀ n ∈ reserved, n.head? ≠ some '/' := by decide
      exact hnone n hn hhead
    · rw [hw, Word.bare?, List.mapM_cons] at hbare
      cases hbare
  have hfresh : Command.empty.words = [] := rfl
  unfold Command.addWord
  rw [if_neg (not_not.2 hfresh), hassign]
  exact if_neg fun h => hreserved h.2

/-- **The commands of the tokens.** -/
theorem items_script {binaryPath : String} (habs : binaryPath.toList.head? = some '/')
    (args : List String) (logPath : String) :
    items .empty .none (trapTokens ++ .word (pieces binaryPath) ::
        (args.map fun a => .word (pieces a)) ++ .op ['>'] :: .word (pieces logPath) ::
          tailTokens ++ [.word [.param ['!']]]) =
      .ok [⟨trapCommand, false⟩, ⟨started binaryPath args logPath, true⟩,
        ⟨echoCommand, false⟩] := by
  have htrap : ∀ ts, items .empty .none (trapTokens ++ ts) =
      (items .empty .none ts).map fun is => ⟨trapCommand, false⟩ :: is := fun ts => rfl
  have hwords : (args.map fun a => Token.word (pieces a)) = (args.map pieces).map .word := by
    rw [List.map_map]
    rfl
  have hnamed : (⟨[], [pieces binaryPath], []⟩ : Command).words ≠ [] := List.cons_ne_nil _ _
  rw [List.append_assoc, List.append_assoc, htrap, List.cons_append, items,
    addWord_absolute habs]
  dsimp only
  rw [hwords, items_words hnamed]
  rfl

end Script

/-! ## The script as the shell takes it -/

/-- A string that can be handed to a program. -/
def NulFree (s : String) : Prop := '\x00' ∉ s.toList

instance (s : String) : Decidable (NulFree s) := inferInstanceAs (Decidable ('\x00' ∉ s.toList))

theorem NulFree.shellQuote {s : String} (h : NulFree s) : NulFree (shellQuote s) := by
  unfold Runner.shellQuote
  split_ifs
  · decide
  · exact h
  · unfold NulFree escaped
    rw [String.toList_ofList]
    intro hmem
    simp only [List.mem_cons, List.mem_append, List.mem_flatMap, List.not_mem_nil, or_false,
      Char.reduceEq, false_or] at hmem
    obtain ⟨r, hr, hmem⟩ := hmem
    split_ifs at hmem
    · simp at hmem
    · cases List.mem_singleton.1 hmem
      exact h hr

theorem NulFree.append {s t : String} (hs : NulFree s) (ht : NulFree t) : NulFree (s ++ t) := by
  unfold NulFree
  rw [String.toList_append, List.mem_append]
  exact not_or.2 ⟨hs, ht⟩

theorem NulFree.shellQuoteArgs {args : List String} (h : ∀ a ∈ args, NulFree a) :
    NulFree (shellQuoteArgs args) := by
  unfold Runner.shellQuoteArgs
  split_ifs with hnone
  · decide
  · clear hnone
    induction args with
    | nil => decide
    | cons a args ih =>
        have ha := (h a List.mem_cons_self).shellQuote
        have hrest := ih fun b hb => h b (List.mem_cons_of_mem _ hb)
        cases args with
        | nil => rwa [List.map_cons, List.map_nil, String.intercalate_singleton]
        | cons b args =>
            rw [List.map_cons, List.map_cons, String.intercalate_cons_cons]
            exact (ha.append (by decide)).append hrest

/-- **Shell quoting is exact.** Of a binary with an absolute path, of any
arguments and of any log path the shell makes one command, started in the
background between the two the script has besides it. Its words are the path
and the arguments, its output goes to the log, and there is no assignment, no
expansion and no redirection but those that are written in the script. -/
theorem script_exact {binaryPath : String} {args : List String} {logPath : String}
    (habs : binaryPath.toList.head? = some '/') (hbinary : NulFree binaryPath)
    (hargs : ∀ a ∈ args, NulFree a) (hlog : NulFree logPath) :
    ∃ c, parse (buildSysupgradeWrapperScript binaryPath args logPath) =
        .ok [⟨trapCommand, false⟩, ⟨c, true⟩, ⟨echoCommand, false⟩] ∧
      c.assigns = [] ∧
      c.words.map Word.literal? = (binaryPath :: args).map some ∧
      c.redirects.map (fun r => (r.fd, r.kind, r.target.literal?)) =
        [(1, .write, some logPath), (2, .dupOut, some "1"), (0, .read, some "/dev/null")] := by
  have hnul : NulFree (buildSysupgradeWrapperScript binaryPath args logPath) := by
    have htrap : NulFree "trap '' HUP\n" := by decide
    have hblank : NulFree " " := by decide
    have hwrite : NulFree " >" := by decide
    have htail : NulFree " 2>&1 </dev/null &\necho $!" := by decide
    exact (((((htrap.append hbinary.shellQuote).append hblank).append
      (NulFree.shellQuoteArgs hargs)).append hwrite).append hlog.shellQuote).append htail
  have hwhole : (buildSysupgradeWrapperScript binaryPath args logPath).toList.takeWhile
      (· ≠ '\x00') = (buildSysupgradeWrapperScript binaryPath args logPath).toList := by
    rw [List.takeWhile_eq_self_iff]
    intro c hc
    rw [decide_eq_true_eq]
    rintro rfl
    exact hnul hc
  refine ⟨started binaryPath args logPath, ?_, rfl, ?_, ?_⟩
  · rw [parse, hwhole, tokens_script]
    exact items_script habs args logPath
  · rw [started, List.map_cons, List.map_map, literal?_pieces, List.map_cons]
    congr 1
    exact List.map_congr_left fun a _ => literal?_pieces a
  · rw [started, List.map_cons, literal?_pieces]
    rfl

/-- A name that tries to run a command of its own. -/
theorem script_exact_hostile :
    ∃ c, parse (buildSysupgradeWrapperScript "/sbin/sysupgrade" ["-v", "/tmp/a';reboot #$(b)"]
        "/tmp/log file") = .ok [⟨trapCommand, false⟩, ⟨c, true⟩, ⟨echoCommand, false⟩] ∧
      c.words.map Word.literal? =
        [some "/sbin/sysupgrade", some "-v", some "/tmp/a';reboot #$(b)"] := by
  obtain ⟨c, hparse, -, hwords, -⟩ := @script_exact "/sbin/sysupgrade"
    ["-v", "/tmp/a';reboot #$(b)"] "/tmp/log file" rfl (by decide) (by decide) (by decide)
  exact ⟨c, hparse, hwords⟩

end Runner

end OpenManet
