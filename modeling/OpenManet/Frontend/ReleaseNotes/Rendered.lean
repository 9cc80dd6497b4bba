import OpenManet.Lib.Split
import OpenManet.Frontend.ReleaseNotes.Spans
/-!
# What release notes become

Whatever the body, a link goes to a safe address: the others are never built.
A paragraph of spans is rendered as it is written where its spans are no deeper
than the levels, and otherwise the deepest stay in the text with their marks.
-/

namespace OpenManet

namespace ReleaseNotes

/-! ## Addresses -/

def Tag.hrefs : Tag → List Text
  | .a href => [href]
  | _ => []

mutual

/-- The addresses of the links of an element. -/
def Node.hrefs : Node → List Text
  | .text _ => []
  | .elem tag children => tag.hrefs ++ hrefsOf children

def hrefsOf : List Node → List Text
  | [] => []
  | node :: nodes => node.hrefs ++ hrefsOf nodes

end

theorem hrefsOf_eq (nodes : List Node) : hrefsOf nodes = nodes.flatMap Node.hrefs := by
  induction nodes with
  | nil => rw [hrefsOf, List.flatMap_nil]
  | cons node nodes ih => rw [hrefsOf, ih, List.flatMap_cons]

/-- All the links go to safe addresses. -/
def Safe (nodes : List Node) : Prop := ∀ href ∈ hrefsOf nodes, safeUrl href = true

theorem safe_nil : Safe [] := by
  intro href h
  rw [hrefsOf] at h
  exact absurd h List.not_mem_nil

theorem safe_text (s : Text) : Safe [.text s] := by
  intro href h
  simp [hrefsOf_eq, Node.hrefs] at h

theorem safe_append_iff {nodes rest : List Node} :
    Safe (nodes ++ rest) ↔ Safe nodes ∧ Safe rest := by
  simp only [Safe, hrefsOf_eq, List.flatMap_append, List.mem_append]
  exact ⟨fun h => ⟨fun x hx => h x (.inl hx), fun x hx => h x (.inr hx)⟩,
    fun h x hx => hx.elim (h.1 x) (h.2 x)⟩

theorem safe_cons_iff {node : Node} {nodes : List Node} :
    Safe (node :: nodes) ↔ Safe [node] ∧ Safe nodes := by
  rw [← List.singleton_append, safe_append_iff]

theorem safe_elem {tag : Tag} {children : List Node} (htag : ∀ href ∈ tag.hrefs, safeUrl href = true)
    (h : Safe children) : Safe [.elem tag children] := by
  intro href hmem
  rw [hrefsOf_eq, List.flatMap_singleton, Node.hrefs, List.mem_append] at hmem
  exact hmem.elim (htag href) (h href)

/-- An element that is no link. -/
theorem safe_elem_of_hrefs {tag : Tag} {children : List Node} (htag : tag.hrefs = [])
    (h : Safe children) : Safe [.elem tag children] :=
  safe_elem (fun _ hmem => absurd (htag ▸ hmem) List.not_mem_nil) h

theorem safe_build {recurse : Text → List Node} (h : ∀ s, Safe (recurse s)) (kind : Kind)
    (m : Match) : Safe [build recurse kind m] := by
  cases kind with
  | bold => exact safe_elem_of_hrefs rfl (h m.text)
  | italic => exact safe_elem_of_hrefs rfl (h m.text)
  | code => exact safe_elem_of_hrefs rfl (safe_text m.text)
  | link =>
      rw [build]
      split
      next hsafe =>
        refine safe_elem (fun href hmem => ?_) (h m.text)
        rw [Tag.hrefs, List.mem_singleton] at hmem
        rw [hmem]
        exact hsafe
      next => exact safe_elem_of_hrefs rfl (h m.text)

/-- **The spans of a text, at every level.** -/
theorem safe_inlinePass (levels : ℕ) (text : Text) : Safe (inlinePass levels text) := by
  induction levels generalizing text with
  | zero =>
      rw [inlinePass]
      split
      exacts [safe_nil, safe_text text]
  | succ levels ih =>
      rw [inlinePass]
      split
      · exact safe_nil
      · split
        · exact safe_text text
        · exact safe_append_iff.2 ⟨ih _, safe_cons_iff.2 ⟨safe_build ih _ _, ih _⟩⟩

theorem safe_renderInline (text : Text) : Safe (renderInline text) := safe_inlinePass 5 text

theorem safe_flushList {out : List Node} (h : Safe out) (buffer : Option (List Text)) :
    Safe (flushList out buffer) := by
  cases buffer with
  | none => exact h
  | some items =>
      cases items with
      | nil => exact h
      | cons item items =>
          have hitems : Safe ((item :: items).map fun text => .elem .li (renderInline text)) := by
            induction item :: items with
            | nil => exact safe_nil
            | cons text texts ih =>
                exact safe_cons_iff.2 ⟨safe_elem_of_hrefs rfl (safe_renderInline text), ih⟩
          exact safe_append_iff.2 ⟨h, safe_elem_of_hrefs rfl hitems⟩

theorem safe_renderTurn {st : List Node × Option (List Text)} (h : Safe st.1) (block : Text) :
    Safe (renderTurn st block).1 := by
  have hflush : Safe (flushList st.1 st.2) := safe_flushList h st.2
  rw [renderTurn]
  split
  · exact safe_append_iff.2 ⟨hflush, safe_elem_of_hrefs rfl (safe_renderInline _)⟩
  · split
    · exact h
    · exact safe_append_iff.2 ⟨hflush, safe_elem_of_hrefs rfl (safe_renderInline _)⟩

theorem safe_renderBlocks (blocks : List Text) : Safe (renderBlocks blocks) := by
  have hrun : ∀ st : List Node × Option (List Text), Safe st.1 →
      Safe (blocks.foldl renderTurn st).1 := by
    induction blocks with
    | nil => exact fun _ h => h
    | cons block blocks ih => exact fun st h => ih _ (safe_renderTurn h block)
  exact safe_flushList (hrun ([], none) safe_nil) _

/-- **No address of a body is an unsafe one.** -/
theorem safe_renderReleaseNotes (body : Text) : Safe (renderReleaseNotes body) := by
  rw [renderReleaseNotes]
  split
  exacts [safe_nil, safe_renderBlocks _]

/-! ## Spans -/

section Spans

variable {ps bs cs : List Piece} {span : Span} {n : ℕ}

theorem Plain.source_eq (t : Plain) : source [.plain t] = t.chars := List.append_nil t.chars

/-- Plain text stays as it is. -/
theorem inlinePass_plain (n : ℕ) (t : Plain) : inlinePass n t.chars = [.text t.chars] := by
  have hnone : firstMatch t.chars = none := by
    rw [← t.source_eq]
    refine firstMatch_eq_none fun kind => exec_eq_none (List.isChain_singleton _) fun r hr => ?_
    exact absurd hr List.not_mem_nil
  cases n with
  | zero => rw [inlinePass, if_neg t.ne]
  | succ n => rw [inlinePass, if_neg t.ne, hnone]

theorem Span.matched_after (span : Span) (after : Text) : (span.matched after).after = after := by
  cases span <;> rfl

theorem build_matched (n : ℕ) (span : Span) (after : Text) :
    build (inlinePass n) span.kind (span.matched after) = span.node := by
  cases span with
  | bold t => simp only [build, Span.kind, Span.matched, Span.node, inlinePass_plain]
  | italic t => simp only [build, Span.kind, Span.matched, Span.node, inlinePass_plain]
  | code t => simp only [build, Span.kind, Span.matched, Span.node]
  | link t url safe =>
      simp only [build, Span.kind, Span.matched, Span.node, inlinePass_plain, safe, if_true]

/-- **One level**: the root is an element, and what is before and after it is
rendered below. -/
theorem inlinePass_source (h : Alternating (bs ++ .span span :: cs))
    (hroot : Cartesian.Root (ranksOf bs) span.kind.rank (ranksOf cs)) (n : ℕ) :
    inlinePass (n + 1) (source (bs ++ .span span :: cs)) =
      inlinePass n (source bs) ++ span.node :: inlinePass n (source cs) := by
  have hne : source (bs ++ .span span :: cs) ≠ [] := by
    rw [source_append, source_cons]
    cases span <;> simp [Piece.source, Span.source]
  rw [inlinePass, if_neg hne, firstMatch_source h hroot]
  simp only [build_matched, span.matched_after]

theorem ranksOf_append_span (bs : List Piece) (span : Span) (cs : List Piece) :
    ranksOf (bs ++ .span span :: cs) = ranksOf bs ++ span.kind.rank :: ranksOf cs := by
  simp [ranksOf, Piece.kind?]

/-- The root among the pieces. -/
theorem exists_rootSpan (h : ranksOf ps ≠ []) :
    ∃ bs span cs, ps = bs ++ .span span :: cs ∧
      Cartesian.Root (ranksOf bs) span.kind.rank (ranksOf cs) := by
  obtain ⟨before, r, after, heq, hroot⟩ := Cartesian.exists_root h
  obtain ⟨bs, rest, rfl, rfl, hrest⟩ := List.filterMap_eq_append_iff.1 heq
  obtain ⟨plains, p, cs, rfl, hplains, hp, rfl⟩ := List.filterMap_eq_cons_iff.1 hrest
  cases p with
  | plain t => exact absurd hp nofun
  | span span =>
      obtain rfl : span.kind.rank = r := Option.some.inj hp
      have hranks : ranksOf (bs ++ plains) = ranksOf bs := by
        rw [ranksOf, List.filterMap_append, List.filterMap_eq_nil_iff.2 hplains, List.append_nil]
        rfl
      exact ⟨bs ++ plains, span, cs, by rw [List.append_assoc], hranks ▸ hroot⟩

/-- Without spans there is plain text at most. -/
theorem inlinePass_of_ranksOf (h : Alternating ps) (hps : ranksOf ps = []) (n : ℕ) :
    inlinePass n (source ps) = ps.map Piece.node := by
  cases ps with
  | nil => cases n <;> rfl
  | cons p ps =>
      cases p with
      | span span => exact absurd hps (List.cons_ne_nil _ _)
      | plain t =>
          cases ps with
          | nil => rw [t.source_eq, inlinePass_plain]; rfl
          | cons q ps =>
              cases q with
              | plain u => exact absurd rfl (List.isChain_cons_cons.1 h).1
              | span span => exact absurd hps (List.cons_ne_nil _ _)

theorem Alternating.sides (h : Alternating (bs ++ .span span :: cs)) :
    Alternating bs ∧ Alternating cs :=
  ⟨h.left_of_append, h.right_of_append.tail⟩

/-- **Where the levels are enough, every span is its element.** -/
theorem inlinePass_of_shallow (h : Alternating ps) (hps : Cartesian.Shallow n (ranksOf ps)) :
    inlinePass n (source ps) = ps.map Piece.node := by
  induction n generalizing ps with
  | zero => exact inlinePass_of_ranksOf h (Cartesian.shallow_zero_iff.1 hps) 0
  | succ n ih =>
      by_cases hne : ranksOf ps = []
      · exact inlinePass_of_ranksOf h hne (n + 1)
      · obtain ⟨bs, span, cs, rfl, hroot⟩ := exists_rootSpan hne
        rw [ranksOf_append_span] at hps
        obtain ⟨hbs, hcs⟩ := hroot.shallow_succ_iff.1 hps
        rw [inlinePass_source h hroot, ih h.sides.1 hbs, ih h.sides.2 hcs, List.map_append,
          List.map_cons]
        rfl

/-! ## The spans that are left -/

def Node.isElem : Node → Bool
  | .text _ => false
  | .elem _ _ => true

/-- How many elements there are. -/
def elements (nodes : List Node) : ℕ := nodes.countP Node.isElem

theorem elements_map_node (ps : List Piece) : elements (ps.map Piece.node) = (ranksOf ps).length := by
  induction ps with
  | nil => rfl
  | cons p ps ih =>
      cases p with
      | plain t => simpa [elements, ranksOf, Piece.node, Piece.kind?, Node.isElem] using ih
      | span span =>
          have helem : span.node.isElem = true := by cases span <;> rfl
          simpa [elements, ranksOf, Piece.node, Piece.kind?, helem] using ih

/-- **There are never more elements than spans, and as many only where the
levels are enough.** -/
theorem elements_inlinePass (h : Alternating ps) (n : ℕ) :
    elements (inlinePass n (source ps)) ≤ (ranksOf ps).length ∧
      (elements (inlinePass n (source ps)) = (ranksOf ps).length →
        Cartesian.Shallow n (ranksOf ps)) := by
  induction n generalizing ps with
  | zero =>
      have hnone : elements (inlinePass 0 (source ps)) = 0 := by
        rw [inlinePass]
        split <;> rfl
      rw [hnone, Cartesian.shallow_zero_iff]
      exact ⟨Nat.zero_le _, fun heq => List.eq_nil_of_length_eq_zero heq.symm⟩
  | succ n ih =>
      by_cases hne : ranksOf ps = []
      · rw [inlinePass_of_ranksOf h hne, elements_map_node, hne]
        exact ⟨le_rfl, fun _ => Cartesian.shallow_nil _⟩
      · obtain ⟨bs, span, cs, rfl, hroot⟩ := exists_rootSpan hne
        obtain ⟨hbs, hbs'⟩ := ih h.sides.1
        obtain ⟨hcs, hcs'⟩ := ih h.sides.2
        have helem : span.node.isElem = true := by cases span <;> rfl
        have hcount : elements (inlinePass (n + 1) (source (bs ++ .span span :: cs))) =
            elements (inlinePass n (source bs)) + (elements (inlinePass n (source cs)) + 1) := by
          rw [inlinePass_source h hroot, elements, List.countP_append,
            List.countP_cons_of_pos helem]
          rfl
        rw [ranksOf_append_span, hcount, List.length_append, List.length_cons,
          hroot.shallow_succ_iff]
        exact ⟨by omega, fun heq => ⟨hbs' (by omega), hcs' (by omega)⟩⟩

theorem inlinePass_eq_iff (h : Alternating ps) (n : ℕ) :
    inlinePass n (source ps) = ps.map Piece.node ↔ Cartesian.Shallow n (ranksOf ps) := by
  constructor
  · intro heq
    exact (elements_inlinePass h n).2 (by rw [heq, elements_map_node])
  · exact inlinePass_of_shallow h

end Spans

/-! ## Blocks -/

section Blocks

variable {st : List Node × Option (List Text)} {block : Text}

theorem flushList_append (nodes out : List Node) (buffer : Option (List Text)) :
    flushList (nodes ++ out) buffer = nodes ++ flushList out buffer := by
  cases buffer with
  | none => rfl
  | some items =>
      cases items with
      | nil => rfl
      | cons item items => exact List.append_assoc nodes out _

/-- What is rendered already is kept. -/
theorem renderTurn_append (nodes out : List Node) (buffer : Option (List Text)) (block : Text) :
    renderTurn (nodes ++ out, buffer) block =
      (nodes ++ (renderTurn (out, buffer) block).1, (renderTurn (out, buffer) block).2) := by
  simp only [renderTurn, flushList_append]
  cases matchHeading block with
  | some heading => simp only [List.append_assoc]
  | none =>
      cases matchList block with
      | some items => rfl
      | none => simp only [List.append_assoc]

theorem foldl_renderTurn_append (nodes out : List Node) (buffer : Option (List Text))
    (blocks : List Text) :
    blocks.foldl renderTurn (nodes ++ out, buffer) =
      (nodes ++ (blocks.foldl renderTurn (out, buffer)).1,
        (blocks.foldl renderTurn (out, buffer)).2) := by
  induction blocks generalizing out buffer with
  | nil => rfl
  | cons block blocks ih => rw [List.foldl_cons, renderTurn_append, ih, List.foldl_cons]

/-- **A paragraph stands between what is before and after it.** -/
theorem renderBlocks_append (bs cs : List Text) (hheading : matchHeading block = none)
    (hlist : matchList block = none) :
    renderBlocks (bs ++ block :: cs) =
      renderBlocks bs ++ .elem .p (renderInline block) :: renderBlocks cs := by
  have hturn : renderTurn (bs.foldl renderTurn ([], none)) block =
      (renderBlocks bs ++ [.elem .p (renderInline block)] ++ [], none) := by
    simp only [renderTurn, hheading, hlist, renderBlocks, List.append_nil]
  have hrun := foldl_renderTurn_append (renderBlocks bs ++ [.elem .p (renderInline block)]) [] none cs
  rw [renderBlocks, List.foldl_append, List.foldl_cons, hturn, hrun]
  dsimp only
  rw [flushList_append, List.append_assoc]
  rfl

end Blocks

theorem mem_normalizeNewlines {s : Text} {c : Char} (h : c ∈ normalizeNewlines s) :
    c ∈ s ∨ c = '\n' := by
  induction s using normalizeNewlines.induct with
  | case1 => exact .inl h
  | case2 s ih =>
      rw [normalizeNewlines, List.mem_cons] at h
      rcases h with rfl | h
      · exact .inr rfl
      · exact (ih h).imp_left fun h => List.mem_cons_of_mem _ (List.mem_cons_of_mem _ h)
  | case3 d s hne ih =>
      rw [normalizeNewlines, List.mem_cons] at h
      · rcases h with rfl | h
        · split
          · exact .inr rfl
          · exact .inl List.mem_cons_self
        · exact (ih h).imp_left (List.mem_cons_of_mem _)
      · exact hne

/-- A body of white space has no blocks. -/
theorem splitBlocks_of_trim {body : Text} (h : JsText.trim body = []) : splitBlocks body = [] := by
  have hlines : ∀ line ∈ (normalizeNewlines body).splitOn '\n', JsText.trim line = [] := by
    intro line hline
    refine JsText.trim_eq_nil_iff.2 fun c hc => ?_
    rcases mem_normalizeNewlines (Split.mem_of_mem_splitOn hline hc) with hc | rfl
    · exact JsText.trim_eq_nil_iff.1 h c hc
    · rfl
  have hrun : ((normalizeNewlines body).splitOn '\n').foldl splitTurn ([], []) = ([], []) := by
    generalize (normalizeNewlines body).splitOn '\n' = lines at hlines
    induction lines with
    | nil => rfl
    | cons line lines ih =>
        obtain ⟨hline, hrest⟩ := List.forall_mem_cons.1 hlines
        rw [List.foldl_cons, splitTurn, if_pos hline]
        exact ih hrest
  rw [splitBlocks, hrun]
  rfl

theorem renderReleaseNotes_eq (body : Text) :
    renderReleaseNotes body = renderBlocks (splitBlocks body) := by
  rw [renderReleaseNotes]
  split
  next h => rw [splitBlocks_of_trim h]; rfl
  next => rfl

/-! ## A body -/

/-- **What release notes become**: no link goes to an unsafe address, and the
spans of a paragraph are its elements, with the text between them as it is,
exactly where none of them is five levels deep. -/
theorem rendered_iff (body : Text) :
    (∀ href ∈ hrefsOf (renderReleaseNotes body), safeUrl href = true) ∧
      ∀ (ps : List Piece) (bs cs : List Text), Alternating ps →
        splitBlocks body = bs ++ source ps :: cs →
        matchHeading (source ps) = none → matchList (source ps) = none →
        (renderReleaseNotes body =
            renderBlocks bs ++ .elem .p (ps.map Piece.node) :: renderBlocks cs ↔
          Cartesian.Shallow 5 (ranksOf ps)) := by
  refine ⟨safe_renderReleaseNotes body, fun ps bs cs h hsplit hheading hlist => ?_⟩
  rw [renderReleaseNotes_eq, hsplit, renderBlocks_append bs cs hheading hlist,
    ← inlinePass_eq_iff h 5]
  constructor
  · intro heq
    have hcons := List.append_cancel_left heq
    injection hcons with hnode
    injection hnode
  · intro heq
    rw [renderInline, heq]

def word : Plain := { chars := ['w', 'o', 'r', 'd'], ne := by simp, plain := by simp [special] }

def address : Plain :=
  { chars := ['h', 't', 't', 'p', 's', ':', '/', '/', 'm', 'e', 's', 'h'], ne := by simp,
    plain := by simp [special] }

/-- A paragraph with one span of each kind. -/
def fourKinds : List Piece :=
  [.span (.link word address (by decide)), .plain word, .span (.code word), .plain word,
    .span (.italic word), .plain word, .span (.bold word), .plain word]

theorem rendered_fourKinds :
    renderReleaseNotes (source fourKinds) = [.elem .p (fourKinds.map Piece.node)] := by
  have hsplit : splitBlocks (source fourKinds) = [] ++ source fourKinds :: [] := by decide +kernel
  have halternating : Alternating fourKinds := by
    rw [Alternating]
    decide
  have hshallow : Cartesian.Shallow 5 (ranksOf fourKinds) :=
    Cartesian.shallow_of_length_le (by decide)
  exact ((rendered_iff (source fourKinds)).2 fourKinds [] [] halternating hsplit (by decide +kernel)
    (by decide +kernel)).2 hshallow

/-- Six spans in bold. -/
def sixBold : List Piece :=
  [.span (.bold word), .plain word, .span (.bold word), .plain word, .span (.bold word),
    .plain word, .span (.bold word), .plain word, .span (.bold word), .plain word,
    .span (.bold word)]

def Node.children : Node → List Node
  | .text _ => []
  | .elem _ children => children

/-- **The sixth stays in the text**, with its marks. -/
theorem not_rendered_sixBold :
    Alternating sixBold ∧ splitBlocks (source sixBold) = [source sixBold] ∧
      matchHeading (source sixBold) = none ∧ matchList (source sixBold) = none ∧
      renderReleaseNotes (source sixBold) ≠ [.elem .p (sixBold.map Piece.node)] := by
  refine ⟨?_, by decide +kernel, by decide +kernel, by decide +kernel, fun heq => ?_⟩
  · rw [Alternating]
    decide
  · have hcount := congrArg (fun nodes => nodes.map fun node => elements node.children) heq
    revert hcount
    decide +kernel

end ReleaseNotes

end OpenManet
