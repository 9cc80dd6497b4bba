import OpenManet.Frontend.ReleaseNotes.Model
import OpenManet.Lib.Cartesian
import Mathlib.Data.List.Chain
/-!
# Which spans are rendered

A paragraph of plain text and spans that are not nested, with plain text
between any two. Of its spans the first of the strongest kind is taken, and
what is before and after it is rendered one level down: the spans are a tree of
first minima, and those that are as deep as there are levels are left as the
characters they are written in. Five spans are never as deep; of six of one
kind the last is.
-/

namespace OpenManet

namespace ReleaseNotes

/-! ## Paragraphs of spans -/

/-- The characters plain text is without. -/
def special : List Char := ['*', '\x60', '[', ']', '(', ')', '\n', '\r']

/-- Plain text. -/
structure Plain where
  chars : Text
  ne : chars ≠ []
  plain : ∀ c ∈ chars, c ∉ special

inductive Span where
  | bold (text : Plain)
  | italic (text : Plain)
  | code (text : Plain)
  | link (text url : Plain) (safe : safeUrl (JsText.trim url.chars) = true)

namespace Span

def kind : Span → Kind
  | bold _ => .bold
  | italic _ => .italic
  | code _ => .code
  | link _ _ _ => .link

/-- As it is written, with what follows it. -/
def source : Span → Text → Text
  | bold t, s => ['*', '*'] ++ (t.chars ++ (['*', '*'] ++ s))
  | italic t, s => ['*'] ++ (t.chars ++ (['*'] ++ s))
  | code t, s => ['\x60'] ++ (t.chars ++ (['\x60'] ++ s))
  | link t url _, s => ['['] ++ (t.chars ++ ([']', '('] ++ (url.chars ++ ([')'] ++ s))))

/-- As it is to be rendered. -/
def node : Span → Node
  | bold t => .elem .strong [.text t.chars]
  | italic t => .elem .em [.text t.chars]
  | code t => .elem .code [.text t.chars]
  | link t url _ => .elem (.a (JsText.trim url.chars)) [.text t.chars]

/-- The match of its expression. -/
def matched (span : Span) (after : Text) : Match :=
  match span with
  | bold t => { text := t.chars, url := [], after := after }
  | italic t => { text := t.chars, url := [], after := after }
  | code t => { text := t.chars, url := [], after := after }
  | link t url _ => { text := t.chars, url := url.chars, after := after }

end Span

inductive Piece where
  | plain (text : Plain)
  | span (span : Span)

namespace Piece

def kind? : Piece → Option Kind
  | plain _ => none
  | span s => some s.kind

def source : Piece → Text → Text
  | plain t, s => t.chars ++ s
  | span sp, s => sp.source s

def node : Piece → Node
  | plain t => .text t.chars
  | span s => s.node

end Piece

def source (ps : List Piece) : Text := ps.foldr Piece.source []

/-- Plain text and spans in turn. -/
def Alternating (ps : List Piece) : Prop := ps.IsChain fun p q => p.kind?.isSome ≠ q.kind?.isSome

/-- The place among the expressions. -/
def Kind.rank (kind : Kind) : ℕ := kinds.idxOf kind

/-- The ranks of the spans, in their order. -/
def ranksOf (ps : List Piece) : List ℕ := ps.filterMap fun p => p.kind?.map Kind.rank

/-! ## One expression -/

/-- The character a span of the kind starts with. -/
def Kind.mark : Kind → Char
  | .bold => '*'
  | .italic => '*'
  | .code => '\x60'
  | .link => '['

section Exec

variable {kind : Kind} {prev : Option Char} {c : Char} {s t u : Text}

theorem matchAt_of_ne (h : c ≠ kind.mark) : matchAt kind prev (c :: s) = none := by
  have hmark : ∀ l, JsText.literal (kind.mark :: l) (c :: s) = none := fun l =>
    JsText.literal_of_ne (Ne.symm h)
  cases kind with
  | bold =>
      have hliteral : JsText.literal ['*', '*'] (c :: s) = none := hmark ['*']
      simp [matchAt, hliteral]
  | italic =>
      have hliteral : JsText.literal ['*'] (c :: s) = none := hmark []
      simp [matchAt, hliteral]
  | code =>
      have hliteral : JsText.literal ['\x60'] (c :: s) = none := hmark []
      simp [matchAt, hliteral]
  | link =>
      have hliteral : JsText.literal ['['] (c :: s) = none := hmark []
      simp [matchAt, hliteral]

/-- A single `*` is no bold mark. -/
theorem matchAt_bold_of_ne (h : s.head? ≠ some '*') : matchAt .bold prev ('*' :: s) = none := by
  have hmark : JsText.literal ['*', '*'] ('*' :: s) = none := by
    cases s with
    | nil => rfl
    | cons d s => simpa [JsText.literal, eq_comm] using h
  simp [matchAt, hmark]

/-- The character behind which the text after `u` begins. -/
def behind (prev : Option Char) (u : Text) : Option Char := u.foldl (fun _ c => some c) prev

theorem behind_ne (hprev : prev ≠ some '*') (hu : ∀ c ∈ u, c ≠ '*') : behind prev u ≠ some '*' := by
  induction u generalizing prev with
  | nil => exact hprev
  | cons c u ih =>
      obtain ⟨hc, hu⟩ := List.forall_mem_cons.1 hu
      exact ih (by simpa using hc) hu

/-- **Characters without the mark are passed over.** -/
theorem exec_append (hu : ∀ c ∈ u, c ≠ kind.mark) (s : Text) :
    exec kind prev (u ++ s) = (exec kind (behind prev u) s).map fun r => (u ++ r.1, r.2) := by
  induction u generalizing prev with
  | nil => cases exec kind prev s <;> simp [behind, *]
  | cons c u ih =>
      obtain ⟨hc, hu⟩ := List.forall_mem_cons.1 hu
      rw [List.cons_append, exec, matchAt_of_ne hc, ih hu, Option.map_map]
      rfl

/-- What matches at once. -/
theorem exec_of_matchAt {m : Match} (hne : s ≠ []) (h : matchAt kind prev s = some m) :
    exec kind prev s = some ([], m) := by
  cases s with
  | nil => exact absurd rfl hne
  | cons c s => rw [exec, h]

theorem exec_cons_of_none (h : matchAt kind prev (c :: s) = none) :
    exec kind prev (c :: s) = (exec kind (some c) s).map fun r => (c :: r.1, r.2) := by
  rw [exec, h]

end Exec

/-! ## The expressions and the spans -/

section Spans

variable {prev : Option Char} {s : Text}

theorem Plain.ne_of_mem (t : Plain) {c d : Char} (hc : c ∈ t.chars) (hd : d ∈ special) : c ≠ d :=
  fun h => t.plain c hc (h ▸ hd)

theorem Plain.head_ne (t : Plain) (s : Text) : (t.chars ++ s).head? ≠ some '*' := by
  obtain ⟨c, cs, hcs⟩ := List.exists_cons_of_ne_nil t.ne
  have hne : c ≠ '*' := t.ne_of_mem (hcs ▸ List.mem_cons_self) (by decide)
  rw [hcs]
  simpa using hne

/-- **A span is what its expression matches.** -/
theorem Span.matchAt (span : Span) (hprev : span.kind = .italic → prev ≠ some '*')
    (hs : s.head? ≠ some '*') :
    matchAt span.kind prev (span.source s) = some (span.matched s) := by
  have hrun : ∀ (t : Plain) (p : Char → Bool) (d : Char) (s : Text), (∀ c, c ∉ special → p c) →
      p d = false → JsText.run p (t.chars ++ d :: s) = some (t.chars, d :: s) := fun t p d s hp hd =>
    JsText.run_append t.ne (fun c hc => hp c (t.plain c hc)) hd
  have hplain : ∀ c, c ∉ special → c ≠ '*' ∧ c ≠ '\x60' ∧ c ≠ ']' ∧ c ≠ ')' ∧ c ≠ '\n' := by
    intro c hc
    simp only [special, List.mem_cons, not_or] at hc
    exact ⟨hc.1, hc.2.1, hc.2.2.2.1, hc.2.2.2.2.2.1, hc.2.2.2.2.2.2.1⟩
  cases span with
  | bold t =>
      have hopen : ∀ s, JsText.literal ['*', '*'] ('*' :: '*' :: s) = some s :=
        JsText.literal_append ['*', '*']
      have htext := hrun t (fun c => c ≠ '*') '*' ('*' :: s) (fun c hc => by simp [hplain c hc]) rfl
      simp only [Span.kind, Span.source, ReleaseNotes.matchAt, Span.matched, List.cons_append,
        List.nil_append, Option.bind_eq_bind, Option.bind_some, hopen, htext]
  | italic t =>
      have hopen : ∀ s, JsText.literal ['*'] ('*' :: s) = some s := JsText.literal_append ['*']
      have htext := hrun t (fun c => c ≠ '*' && c ≠ '\n') '*' s
        (fun c hc => by simp [hplain c hc]) rfl
      simp only [Span.kind, Span.source, ReleaseNotes.matchAt, Span.matched, List.cons_append,
        List.nil_append, Option.bind_eq_bind, Option.bind_some, hopen, htext, if_neg (hprev rfl),
        if_neg hs]
  | code t =>
      have hopen : ∀ s, JsText.literal ['\x60'] ('\x60' :: s) = some s :=
        JsText.literal_append ['\x60']
      have htext := hrun t (fun c => c ≠ '\x60' && c ≠ '\n') '\x60' s
        (fun c hc => by simp [hplain c hc]) rfl
      simp only [Span.kind, Span.source, ReleaseNotes.matchAt, Span.matched, List.cons_append,
        List.nil_append, Option.bind_eq_bind, Option.bind_some, hopen, htext]
  | link t url safe =>
      have hopen : ∀ s, JsText.literal ['['] ('[' :: s) = some s := JsText.literal_append ['[']
      have hbetween : ∀ s, JsText.literal [']', '('] (']' :: '(' :: s) = some s :=
        JsText.literal_append [']', '(']
      have hclose : JsText.literal [')'] (')' :: s) = some s := JsText.literal_append [')'] s
      have htext := hrun t (fun c => c ≠ ']') ']' ('(' :: (url.chars ++ ')' :: s))
        (fun c hc => by simp [hplain c hc]) rfl
      have hurl := hrun url (fun c => c ≠ ')') ')' s (fun c hc => by simp [hplain c hc]) rfl
      simp only [Span.kind, Span.source, ReleaseNotes.matchAt, Span.matched, List.cons_append,
        List.nil_append, Option.bind_eq_bind, Option.bind_some, hopen, htext, hbetween, hurl,
        hclose]

/-- As it is written it has the mark of another kind only where that is its
own. -/
theorem Span.ne_mark {span : Span} {kind : Kind} {c : Char} (h : span.kind.mark ≠ kind.mark)
    (hc : c ∈ span.source []) : c ≠ kind.mark := by
  have hspecial : kind.mark ∈ special := by cases kind <;> decide
  have hplain : ∀ t : Plain, c ∈ t.chars → c ≠ kind.mark := fun t hc => t.ne_of_mem hc hspecial
  have hbracket : ∀ d ∈ [']', '(', ')'], d ≠ kind.mark := by cases kind <;> simp [Kind.mark]
  cases span with
  | bold t =>
      simp only [Span.source, List.mem_append, List.mem_cons, List.not_mem_nil, or_false] at hc
      rcases hc with (rfl | rfl) | hc | rfl | rfl
      exacts [h, h, hplain t hc, h, h]
  | italic t =>
      simp only [Span.source, List.mem_append, List.mem_cons, List.not_mem_nil, or_false] at hc
      rcases hc with rfl | hc | rfl
      exacts [h, hplain t hc, h]
  | code t =>
      simp only [Span.source, List.mem_append, List.mem_cons, List.not_mem_nil, or_false] at hc
      rcases hc with rfl | hc | rfl
      exacts [h, hplain t hc, h]
  | link t url safe =>
      simp only [Span.source, List.mem_append, List.mem_cons, List.not_mem_nil, or_false] at hc
      rcases hc with rfl | hc | (rfl | rfl) | hc | rfl
      exacts [h, hplain t hc, hbracket _ (by decide), hbracket _ (by decide), hplain url hc,
        hbracket _ (by decide)]

theorem Span.source_eq (span : Span) (s : Text) : span.source s = span.source [] ++ s := by
  cases span <;> simp [Span.source]

end Spans

/-! ## The expressions and the pieces -/

section Pieces

variable {kind : Kind} {prev : Option Char} {p : Piece} {ps bs cs : List Piece} {span : Span}

theorem Piece.source_eq (p : Piece) (s : Text) : p.source s = p.source [] ++ s := by
  cases p with
  | plain t => simp [Piece.source]
  | span span => exact span.source_eq s

theorem Piece.ne_mark {c : Char} (h : ∀ k, p.kind? = some k → k.mark ≠ kind.mark)
    (hc : c ∈ p.source []) : c ≠ kind.mark := by
  cases p with
  | plain t =>
      have hspecial : kind.mark ∈ special := by cases kind <;> decide
      exact t.ne_of_mem (by simpa [Piece.source] using hc) hspecial
  | span span => exact Span.ne_mark (h span.kind rfl) hc

theorem source_cons (p : Piece) (ps : List Piece) :
    source (p :: ps) = p.source [] ++ source ps := p.source_eq (source ps)

@[simp] theorem source_append (ps qs : List Piece) : source (ps ++ qs) = source ps ++ source qs := by
  induction ps with
  | nil => rfl
  | cons p ps ih => rw [List.cons_append, source_cons, source_cons, ih, List.append_assoc]

/-- Behind a span no `*` follows. -/
theorem Alternating.head_ne (h : Alternating (.span span :: ps)) : (source ps).head? ≠ some '*' := by
  cases ps with
  | nil => nofun
  | cons p ps =>
      cases p with
      | plain t => exact t.head_ne (source ps)
      | span next => exact absurd rfl (List.isChain_cons_cons.1 h).1

/-- An expression passes over a piece of a weaker kind. -/
theorem exec_cons (h : Alternating (p :: ps)) (hp : ∀ k, p.kind? = some k → kind.rank < k.rank)
    (hprev : kind = .italic → prev ≠ some '*') :
    ∃ prev', (kind = .italic → prev' ≠ some '*') ∧
      exec kind prev (source (p :: ps)) =
        (exec kind prev' (source ps)).map fun r => (p.source [] ++ r.1, r.2) := by
  by_cases hmark : ∀ k, p.kind? = some k → k.mark ≠ kind.mark
  · have hne : ∀ c ∈ p.source [], c ≠ kind.mark := fun c hc => p.ne_mark hmark hc
    refine ⟨behind prev (p.source []), ?_, ?_⟩
    · rintro rfl
      exact behind_ne (hprev rfl) hne
    · rw [source_cons, exec_append hne]
  · -- bold, over an italic span: neither of its two marks is a bold one
    obtain ⟨rfl, t, rfl⟩ : kind = .bold ∧ ∃ t, p = .span (.italic t) := by
      cases p with
      | plain t => exact absurd (by simp [Piece.kind?]) hmark
      | span span =>
          cases span <;> cases kind <;>
            simp_all [Piece.kind?, Span.kind, Kind.mark, Kind.rank, kinds]
    have hplain : ∀ c ∈ t.chars, c ≠ Kind.bold.mark := fun c hc => t.ne_of_mem hc (by decide)
    refine ⟨some '*', fun hkind => absurd hkind (by decide), ?_⟩
    rw [source_cons]
    simp only [Piece.source, Span.source, List.cons_append, List.nil_append, List.append_assoc]
    rw [exec_cons_of_none (matchAt_bold_of_ne (t.head_ne _)), exec_append hplain,
      exec_cons_of_none (matchAt_bold_of_ne h.head_ne), Option.map_map, Option.map_map]
    rfl

theorem exec_source_append (h : Alternating (bs ++ ps))
    (hbs : ∀ r ∈ ranksOf bs, kind.rank < r) (hprev : kind = .italic → prev ≠ some '*') :
    ∃ prev', (kind = .italic → prev' ≠ some '*') ∧
      exec kind prev (source (bs ++ ps)) =
        (exec kind prev' (source ps)).map fun r => (source bs ++ r.1, r.2) := by
  induction bs generalizing prev with
  | nil =>
      refine ⟨prev, hprev, ?_⟩
      rw [List.nil_append]
      cases exec kind prev (source ps) <;> rfl
  | cons p bs ih =>
      have hp : ∀ k, p.kind? = some k → kind.rank < k.rank := fun k hk =>
        hbs k.rank (List.mem_filterMap.2 ⟨p, List.mem_cons_self, by rw [hk]; rfl⟩)
      have hbs' : ∀ r ∈ ranksOf bs, kind.rank < r := fun r hr => by
        obtain ⟨q, hq, hr⟩ := List.mem_filterMap.1 hr
        exact hbs r (List.mem_filterMap.2 ⟨q, List.mem_cons_of_mem _ hq, hr⟩)
      obtain ⟨prev₁, hprev₁, hfirst⟩ := exec_cons h hp hprev
      obtain ⟨prev₂, hprev₂, hrest⟩ := ih h.tail hbs' hprev₁
      refine ⟨prev₂, hprev₂, ?_⟩
      calc exec kind prev (source (p :: (bs ++ ps)))
          = (exec kind prev₁ (source (bs ++ ps))).map fun r => (p.source [] ++ r.1, r.2) := hfirst
        _ = ((exec kind prev₂ (source ps)).map fun r => (source bs ++ r.1, r.2)).map
              fun r => (p.source [] ++ r.1, r.2) := by rw [hrest]
        _ = (exec kind prev₂ (source ps)).map fun r => (source (p :: bs) ++ r.1, r.2) := by
              simp [Function.comp_def, source_cons]

/-- **A kind stronger than all the spans has none.** -/
theorem exec_eq_none (h : Alternating ps) (hps : ∀ r ∈ ranksOf ps, kind.rank < r) :
    exec kind none (source ps) = none := by
  rw [← List.append_nil ps] at h ⊢
  have hstart : kind = .italic → none ≠ some '*' := fun _ => nofun
  obtain ⟨prev, -, heq⟩ := exec_source_append h hps hstart
  rw [heq]
  cases prev <;> rfl

/-- **The first span of a kind is its match**, where those before it are of
weaker kinds. -/
theorem exec_eq_some (h : Alternating (bs ++ .span span :: cs))
    (hbs : ∀ r ∈ ranksOf bs, span.kind.rank < r) :
    exec span.kind none (source (bs ++ .span span :: cs)) =
      some (source bs, span.matched (source cs)) := by
  have hstart : span.kind = .italic → none ≠ some '*' := fun _ => nofun
  obtain ⟨prev, hprev, heq⟩ := exec_source_append h hbs hstart
  have hcs : Alternating (.span span :: cs) := h.right_of_append
  have hmatch := span.matchAt hprev hcs.head_ne
  have hne : span.source (source cs) ≠ [] := by cases span <;> simp [Span.source]
  have hexec : exec span.kind prev (source (.span span :: cs)) =
      some ([], span.matched (source cs)) := exec_of_matchAt hne hmatch
  rw [heq, hexec, Option.map_some, List.append_nil]

/-! ## The first match -/

theorem firstMatch_eq_none {text : Text} (h : ∀ kind, exec kind none text = none) :
    firstMatch text = none := by
  simp [firstMatch, kinds, h]

theorem firstMatch_eq_some {text : Text} {r : Text × Match} (h : exec kind none text = some r)
    (hlt : ∀ k : Kind, k.rank < kind.rank → exec k none text = none) :
    firstMatch text = some (kind, r) := by
  cases kind with
  | bold => simp [firstMatch, kinds, h]
  | italic =>
      have hbold := hlt .bold (by decide)
      simp [firstMatch, kinds, h, hbold]
  | code =>
      have hbold := hlt .bold (by decide)
      have hitalic := hlt .italic (by decide)
      simp [firstMatch, kinds, h, hbold, hitalic]
  | link =>
      have hbold := hlt .bold (by decide)
      have hitalic := hlt .italic (by decide)
      have hcode := hlt .code (by decide)
      simp [firstMatch, kinds, h, hbold, hitalic, hcode]

/-- **What is taken first is the root of the tree.** -/
theorem firstMatch_source (h : Alternating (bs ++ .span span :: cs))
    (hroot : Cartesian.Root (ranksOf bs) span.kind.rank (ranksOf cs)) :
    firstMatch (source (bs ++ .span span :: cs)) =
      some (span.kind, source bs, span.matched (source cs)) := by
  refine firstMatch_eq_some (exec_eq_some h hroot.lt) fun k hk => exec_eq_none h fun r hr => ?_
  have hranks : ranksOf (bs ++ .span span :: cs) = ranksOf bs ++ span.kind.rank :: ranksOf cs := by
    simp [ranksOf, Piece.kind?]
  rw [hranks, List.mem_append, List.mem_cons] at hr
  rcases hr with hr | rfl | hr
  · exact hk.trans (hroot.lt r hr)
  · exact hk
  · exact hk.trans_le (hroot.le r hr)

end Pieces

end ReleaseNotes

end OpenManet
