import OpenManet.Lib.Machine
import OpenManet.Security.Codec
import Mathlib.Data.List.Pairwise
/-!
# Mesh payloads — replay

Two windows guard against an envelope that comes twice. Its age is judged by
the second the sender stamped, on both sides of the receiver's clock; the
memory of its nonce is kept for as long after it was received. The first
window may close after the second: an envelope stamped ahead of the clock is
still fresh when its nonce has been forgotten. `Outlives` names these repeats,
and a run that has none accepts nothing twice.
-/

namespace OpenManet

namespace Security

open Bytes

/-- What `Decrypt` returns. -/
abbrev Answer := Option (Except DecryptError (List UInt8))

/-- A payload came out. -/
def accepted : Answer → Bool
  | some (.ok _) => true
  | _ => false

/-- One call of a run, as a step of the codec. -/
def PayloadCodec.step (c : PayloadCodec) (call : Call) : PayloadCodec × Answer :=
  match c.decrypt call with
  | none => (c, none)
  | some (answer, c') => (c', some answer)

/-- The same bytes from the same source. -/
def SameEnvelope (x y : Call) : Prop := x.source = y.source ∧ x.encrypted = y.encrypted

/-- The clock does not go back from one call to the next. -/
def ClockRuns (calls : List Call) : Prop := calls.Pairwise fun x y => x.now ≤ y.now

/-- No envelope is accepted twice from the same source. -/
def NeverTwice (c : PayloadCodec) (calls : List Call) : Prop :=
  (trace PayloadCodec.step c calls).Pairwise fun x y =>
    accepted x.2.2 = true → accepted y.2.2 = true → ¬ SameEnvelope x.2.1 y.2.1

/-- The envelope is fresh at the call, and the cipher opens it: all that
stands between it and acceptance is the memory of its nonce. -/
def PayloadCodec.Opens (c : PayloadCodec) (call : Call) : Prop :=
  ∃ header, c.readHeader call = some (.ok header) ∧ (c.openEnvelope call header).isSome = true

/-- The envelope comes again more than a window after a call with it, and is
still fresh. -/
def Outlives (c : PayloadCodec) (x y : Call) : Prop :=
  SameEnvelope x y ∧ c.Opens x ∧ c.Opens y ∧ x.now + c.replayWindow < y.now

/-- Two envelopes of a run that are not the same differ in source or nonce. -/
def NoncesDiffer (c : PayloadCodec) (calls : List Call) : Prop :=
  ∀ x ∈ calls, ∀ y ∈ calls, ∀ h h', c.readHeader x = some (.ok h) → c.readHeader y = some (.ok h') →
    x.source = y.source → h.nonce = h'.nonce → x.encrypted = y.encrypted

namespace PayloadCodec

variable {c : PayloadCodec} {call : Call} {key : String} {t : ℤ}

/-! ## One call -/

/-- The three ways a call leaves the codec. -/
theorem step_cases (c : PayloadCodec) (call : Call) :
    (c.step call).1 = c ∨ (c.step call).1 = c.pruned call.now ∨
      ∃ key, (c.step call).1 =
        { c with seen := Function.update (c.pruned call.now).seen key (some call.now) } := by
  unfold step
  rcases hcall : c.decrypt call with _ | ⟨e | p, c'⟩
  · exact .inl rfl
  · rcases decrypt_error hcall with hsame | hpruned
    · exact .inl hsame
    · exact .inr (.inl hpruned)
  · obtain ⟨header, -, -, -, hmark⟩ := decrypt_ok_iff.1 hcall
    exact .inr (.inr ⟨_, hmark⟩)

/-- A call changes the memory of the codec alone. -/
theorem step_eq_with (c : PayloadCodec) (call : Call) :
    ∃ seen, (c.step call).1 = { c with seen := seen } := by
  rcases step_cases c call with h | h | ⟨key, h⟩
  · exact ⟨c.seen, h⟩
  · exact ⟨_, h⟩
  · exact ⟨_, h⟩

@[simp] theorem step_replayWindow (c : PayloadCodec) (call : Call) :
    (c.step call).1.replayWindow = c.replayWindow := by
  obtain ⟨seen, h⟩ := step_eq_with c call
  rw [h]

@[simp] theorem step_readHeader (c : PayloadCodec) (call call' : Call) :
    (c.step call).1.readHeader call' = c.readHeader call' := by
  obtain ⟨seen, h⟩ := step_eq_with c call
  rw [h]
  rfl

@[simp] theorem step_openEnvelope (c : PayloadCodec) (call call' : Call) (header : Header) :
    (c.step call).1.openEnvelope call' header = c.openEnvelope call' header := by
  obtain ⟨seen, h⟩ := step_eq_with c call
  rw [h]
  rfl

/-- An accepted call read an envelope that opens and whose nonce was not
remembered, and remembers it. -/
theorem of_accepted (h : accepted (c.step call).2 = true) :
    ∃ header, c.readHeader call = some (.ok header) ∧ (c.openEnvelope call header).isSome = true ∧
      (c.pruned call.now).seen (replayKey call.source header.nonce) = none ∧
      (c.step call).1.seen =
        Function.update (c.pruned call.now).seen (replayKey call.source header.nonce)
          (some call.now) := by
  unfold step at h ⊢
  rcases hcall : c.decrypt call with _ | ⟨e | p, c'⟩
  · rw [hcall] at h
    cases h
  · rw [hcall] at h
    cases h
  · obtain ⟨header, hheader, hunseen, hopen, rfl⟩ := decrypt_ok_iff.1 hcall
    exact ⟨header, hheader, by rw [hopen]; rfl, hunseen, rfl⟩

/-- An envelope that opens is refused only where its nonce is remembered. -/
theorem remembered_of_refused {header : Header} (hheader : c.readHeader call = some (.ok header))
    (hopen : (c.openEnvelope call header).isSome = true)
    (h : ¬ accepted (c.step call).2 = true) :
    ∃ received, c.seen (replayKey call.source header.nonce) = some received ∧
      call.now - c.replayWindow ≤ received := by
  unfold step at h
  rw [decrypt_of_header hheader] at h
  rcases hseen : (c.pruned call.now).seen (replayKey call.source header.nonce) with _ | received
  · obtain ⟨p, hp⟩ := Option.isSome_iff_exists.1 hopen
    rw [hseen, if_neg (by simp), hp] at h
    exact absurd rfl h
  · exact ⟨received, pruneSeen_eq_some.1 hseen⟩

/-- What a call leaves remembered was so before it, or it accepted it. -/
theorem seen_step {received : ℤ} (hseen : (c.step call).1.seen key = some received) :
    c.seen key = some received ∨ accepted (c.step call).2 = true ∧ call.now = received ∧
      ∃ header, c.readHeader call = some (.ok header) ∧ replayKey call.source header.nonce = key := by
  by_cases haccept : accepted (c.step call).2 = true
  · obtain ⟨header, hheader, -, -, hupdate⟩ := of_accepted haccept
    rw [hupdate] at hseen
    by_cases hkey : key = replayKey call.source header.nonce
    · rw [hkey, Function.update_self] at hseen
      exact .inr ⟨haccept, Option.some.inj hseen, header, hheader, hkey.symm⟩
    · rw [Function.update_of_ne hkey] at hseen
      exact .inl (pruneSeen_eq_some.1 hseen).1
  · left
    unfold step at haccept hseen
    rcases hcall : c.decrypt call with _ | ⟨e | p, c'⟩
    · rw [hcall] at hseen
      exact hseen
    · rw [hcall] at hseen
      rcases decrypt_error hcall with rfl | rfl
      · exact hseen
      · exact (pruneSeen_eq_some.1 hseen).1
    · rw [hcall] at haccept
      exact absurd rfl haccept

/-- The nonce is remembered, as received at `t` or later. -/
def Remembers (c : PayloadCodec) (key : String) (t : ℤ) : Prop :=
  ∃ received, c.seen key = some received ∧ t ≤ received

/-- **What is remembered stays remembered for a window.** -/
theorem Remembers.step (h : c.Remembers key t) (hlow : t ≤ call.now)
    (hhigh : call.now ≤ t + c.replayWindow) : (c.step call).1.Remembers key t := by
  obtain ⟨received, hseen, hreceived⟩ := h
  have hkept : (c.pruned call.now).seen key = some received :=
    pruneSeen_eq_some.2 ⟨hseen, by omega⟩
  rcases step_cases c call with h | h | ⟨key', h⟩
  · rw [h]
    exact ⟨received, hseen, hreceived⟩
  · rw [h]
    exact ⟨received, hkept, hreceived⟩
  · rw [h]
    by_cases hkey : key = key'
    · subst hkey
      exact ⟨call.now, Function.update_self .., hlow⟩
    · exact ⟨received, (Function.update_of_ne hkey ..).trans hkept, hreceived⟩

/-- What is remembered, and not yet a window old, is refused. -/
theorem Remembers.refused {header : Header} (hheader : c.readHeader call = some (.ok header))
    (h : c.Remembers (replayKey call.source header.nonce) t)
    (hhigh : call.now ≤ t + c.replayWindow) : accepted (c.step call).2 = false := by
  obtain ⟨received, hseen, hreceived⟩ := h
  by_contra haccept
  obtain ⟨header', hheader', -, hunseen, -⟩ := of_accepted (by simpa using haccept)
  rw [hheader] at hheader'
  cases hheader'
  have hkept : (c.pruned call.now).seen (replayKey call.source header.nonce) = some received :=
    pruneSeen_eq_some.2 ⟨hseen, by omega⟩
  rw [hkept] at hunseen
  cases hunseen

/-! ## Whole runs -/

/-- The codecs of a run differ in their memory alone. -/
theorem trace_like (c : PayloadCodec) (calls : List Call) :
    ∀ e ∈ trace PayloadCodec.step c calls, e.1.replayWindow = c.replayWindow ∧
      e.1.readHeader = c.readHeader ∧ e.1.openEnvelope = c.openEnvelope := by
  refine trace_invariant (I := fun d : PayloadCodec => d.replayWindow = c.replayWindow ∧
    d.readHeader = c.readHeader ∧ d.openEnvelope = c.openEnvelope) (fun d call hd => ?_)
    ⟨rfl, rfl, rfl⟩
  obtain ⟨seen, hstep⟩ := step_eq_with d call
  rw [hstep]
  exact hd

/-- A run that starts with the nonce remembered has it at every call within
the window. -/
theorem Remembers.trace {calls : List Call} (h : c.Remembers key t) (hclock : ClockRuns calls)
    (hlow : ∀ call ∈ calls, t ≤ call.now) :
    ∀ e ∈ trace PayloadCodec.step c calls, e.2.1.now ≤ t + c.replayWindow →
      e.1.Remembers key t := by
  induction calls generalizing c with
  | nil => intro e he; simp at he
  | cons call calls ih =>
      intro e he hhigh
      rcases List.mem_cons.1 he with rfl | he
      · exact h
      · have hmem : e.2.1 ∈ calls := by
          rw [← trace_inputs PayloadCodec.step (c.step call).1 calls]
          exact List.mem_map_of_mem he
        -- the clock has not gone back, so this call is within the window too
        have hnow : call.now ≤ e.2.1.now := (List.pairwise_cons.1 hclock).1 _ hmem
        have hstep := h.step (hlow call List.mem_cons_self) (by omega)
        have hrest := ih hstep (List.pairwise_cons.1 hclock).2
          (fun x hx => hlow x (List.mem_cons_of_mem _ hx)) e he
        rw [step_replayWindow] at hrest
        exact hrest hhigh

end PayloadCodec

open PayloadCodec

/-- Equal bytes are read alike. -/
theorem nonce_eq {c c' : PayloadCodec} {x y : Call} {h h' : Header}
    (hx : c.readHeader x = some (.ok h)) (hy : c'.readHeader y = some (.ok h'))
    (hsame : x.encrypted = y.encrypted) : h.nonce = h'.nonce := by
  obtain ⟨hbytes, -, hlen, -⟩ := readHeader_ok_iff.1 hx
  obtain ⟨hbytes', -, hlen', -⟩ := readHeader_ok_iff.1 hy
  rw [hbytes, hbytes'] at hsame
  exact (envelope_inj hsame (hlen.trans hlen'.symm)).2.1

/-- What follows an accepted call does not accept its envelope again. -/
theorem not_accepted_again {c : PayloadCodec} {call : Call} {calls : List Call}
    (hclock : ClockRuns (call :: calls)) (hnone : ∀ y ∈ calls, ¬ Outlives c call y)
    (haccept : accepted (c.step call).2 = true) :
    ∀ e ∈ trace PayloadCodec.step (c.step call).1 calls, accepted e.2.2 = true →
      ¬ SameEnvelope call e.2.1 := by
  intro e he haccept' hsame
  obtain ⟨header, hheader, hopen, -, hseen⟩ := of_accepted haccept
  have hmem : e.2.1 ∈ calls := by
    rw [← trace_inputs PayloadCodec.step (c.step call).1 calls]
    exact List.mem_map_of_mem he
  have hlike := trace_like (c.step call).1 calls e he
  rw [trace_answer PayloadCodec.step he] at haccept'
  obtain ⟨header', hheader', hopen', -⟩ := of_accepted haccept'
  by_cases hhigh : e.2.1.now ≤ call.now + c.replayWindow
  · -- the nonce is still remembered
    have hremembers : (c.step call).1.Remembers (replayKey call.source header.nonce) call.now :=
      ⟨call.now, by rw [hseen, Function.update_self], le_rfl⟩
    have hthere := hremembers.trace (List.pairwise_cons.1 hclock).2 (List.pairwise_cons.1 hclock).1
      e he (by rwa [step_replayWindow])
    rw [hsame.1, nonce_eq hheader hheader' hsame.2] at hthere
    have hrefused := hthere.refused hheader' (by rw [hlike.1, step_replayWindow]; exact hhigh)
    rw [haccept'] at hrefused
    cases hrefused
  · -- it is forgotten, so the envelope has outlived it
    rw [hlike.2.1, step_readHeader] at hheader'
    rw [hlike.2.2, step_openEnvelope] at hopen'
    exact hnone _ hmem ⟨hsame, ⟨header, hheader, hopen⟩, ⟨header', hheader', hopen'⟩, by omega⟩

/-- Where no envelope outlives the memory of its nonce, none is accepted
twice. -/
theorem neverTwice_of_not_outlives {c : PayloadCodec} {calls : List Call}
    (hclock : ClockRuns calls) (hnone : calls.Pairwise fun x y => ¬ Outlives c x y) :
    NeverTwice c calls := by
  induction calls generalizing c with
  | nil => exact List.Pairwise.nil
  | cons call calls ih =>
      obtain ⟨hhead, htail⟩ := List.pairwise_cons.1 hnone
      refine List.pairwise_cons.2 ⟨fun e he haccept => ?_, ?_⟩
      · exact not_accepted_again hclock hhead haccept e he
      · refine ih (List.pairwise_cons.1 hclock).2 (htail.imp fun {x y} hxy hout => hxy ?_)
        have hlike : ∀ z, PayloadCodec.Opens (c.step call).1 z → c.Opens z := by
          rintro z ⟨header, hheader, hopen⟩
          rw [step_readHeader] at hheader
          rw [step_openEnvelope] at hopen
          exact ⟨header, hheader, hopen⟩
        obtain ⟨hsame, hx, hy, hlate⟩ := hout
        rw [step_replayWindow] at hlate
        exact ⟨hsame, hlike x hx, hlike y hy, hlate⟩

/-! ## The converse -/

/-- What a fresh codec remembers, a call of the run has accepted. -/
theorem seen_origin {c : PayloadCodec} {calls : List Call} {key : String} {received : ℤ}
    (hseen : (after PayloadCodec.step c calls).seen key = some received) :
    c.seen key = some received ∨ ∃ d ∈ trace PayloadCodec.step c calls,
      accepted d.2.2 = true ∧ d.2.1.now = received ∧
        ∃ header, c.readHeader d.2.1 = some (.ok header) ∧
          replayKey d.2.1.source header.nonce = key := by
  induction calls generalizing c with
  | nil => exact .inl hseen
  | cons call calls ih =>
      rcases ih hseen with hhere | ⟨d, hd, haccept, hnow, header, hheader, hkey⟩
      · rcases seen_step hhere with hold | ⟨haccept, hnow, header, hheader, hkey⟩
        · exact .inl hold
        · exact .inr ⟨_, List.mem_cons_self, haccept, hnow, header, hheader, hkey⟩
      · rw [step_readHeader] at hheader
        exact .inr ⟨d, List.mem_cons_of_mem _ hd, haccept, hnow, header, hheader, hkey⟩

/-- A run that ends with an envelope that opens has accepted it, if distinct
envelopes have distinct nonces: now, or where it is remembered from. -/
theorem exists_accepted {c : PayloadCodec} {calls : List Call} {x : Call}
    (hfresh : ∀ key, c.seen key = none) (hwindow : 0 ≤ c.replayWindow)
    (hclock : ClockRuns (calls ++ [x])) (hnonces : NoncesDiffer c (calls ++ [x]))
    (hopens : c.Opens x) :
    ∃ d ∈ trace PayloadCodec.step c (calls ++ [x]), accepted d.2.2 = true ∧
      SameEnvelope d.2.1 x ∧ x.now - c.replayWindow ≤ d.2.1.now ∧ d.2.1.now ≤ x.now := by
  have hrun : trace PayloadCodec.step c (calls ++ [x]) = trace PayloadCodec.step c calls ++
      [(after PayloadCodec.step c calls, x, ((after PayloadCodec.step c calls).step x).2)] := by
    rw [trace_append]
    rfl
  obtain ⟨hlike, hheaders, hopening⟩ := trace_like c (calls ++ [x])
    (after PayloadCodec.step c calls, x, ((after PayloadCodec.step c calls).step x).2)
    (by rw [hrun]; exact List.mem_append_right _ List.mem_cons_self)
  rw [hrun]
  by_cases haccept : accepted ((after PayloadCodec.step c calls).step x).2 = true
  · have hself : x.now - c.replayWindow ≤ x.now := by omega
    exact ⟨_, List.mem_append_right _ List.mem_cons_self, haccept, ⟨rfl, rfl⟩, hself, le_rfl⟩
  · obtain ⟨header, hheader, hopen⟩ := hopens
    obtain ⟨received, hseen, hrecent⟩ := remembered_of_refused (by rw [hheaders]; exact hheader)
      (by rw [hopening]; exact hopen) haccept
    rcases seen_origin hseen with hold | ⟨d, hd, haccept', hnow, header', hheader', hkey⟩
    · rw [hfresh] at hold
      cases hold
    · have hmem : d.2.1 ∈ calls := by
        rw [← trace_inputs PayloadCodec.step c calls]
        exact List.mem_map_of_mem hd
      have hx : x ∈ calls ++ [x] := List.mem_append_right _ List.mem_cons_self
      have hlen : header'.nonce.length = header.nonce.length :=
        (readHeader_ok_iff.1 hheader').2.2.1.trans (readHeader_ok_iff.1 hheader).2.2.1.symm
      obtain ⟨hsource, hnonce⟩ := replayKey_inj hlen hkey
      have hsame := hnonces _ (List.mem_append_left _ hmem) _ hx _ _ hheader' hheader hsource hnonce
      have hbefore := (List.pairwise_append.1 hclock).2.2 _ hmem _ List.mem_cons_self
      rw [hlike, ← hnow] at hrecent
      exact ⟨d, List.mem_append_left _ hd, haccept', ⟨hsource, hsame⟩, hrecent, hbefore⟩

/-- Two calls of a run, the one before the other, and what led to them. -/
theorem exists_prefixes {calls : List Call} {x y : Call} (h : [x, y].Sublist calls) :
    ∃ before between rest, calls = (before ++ [x]) ++ between ++ [y] ++ rest := by
  obtain ⟨r, r', rfl, hx, hy⟩ := List.cons_sublist_iff.1 h
  obtain ⟨before, after, rfl⟩ := List.append_of_mem hx
  obtain ⟨before', after', rfl⟩ := List.append_of_mem (List.singleton_sublist.1 hy)
  exact ⟨before, after ++ before', after', by simp⟩

/-- An envelope that outlives the memory of its nonce is accepted twice, if
distinct envelopes have distinct nonces. -/
theorem not_outlives_of_neverTwice {c : PayloadCodec} {calls : List Call}
    (hfresh : ∀ key, c.seen key = none) (hwindow : 0 ≤ c.replayWindow) (hclock : ClockRuns calls)
    (hnonces : NoncesDiffer c calls) (htwice : NeverTwice c calls) :
    calls.Pairwise fun x y => ¬ Outlives c x y := by
  rw [List.pairwise_iff_forall_sublist]
  rintro x y hsub ⟨hsame, hx, hy, hlate⟩
  obtain ⟨before, between, rest, rfl⟩ := exists_prefixes hsub
  -- each of the two is accepted by a call no more than a window before it
  have hpre : (before ++ [x]).Sublist (before ++ [x] ++ between ++ [y] ++ rest) := by simp
  have hpre' : (before ++ [x] ++ between ++ [y]).Sublist
      (before ++ [x] ++ between ++ [y] ++ rest) := List.sublist_append_left ..
  obtain ⟨d, hd, haccept, hdx, -, hdnow⟩ := exists_accepted hfresh hwindow (hclock.sublist hpre)
    (fun u hu v hv => hnonces u (hpre.mem hu) v (hpre.mem hv)) hx
  obtain ⟨e, he, haccept', hey, henow, -⟩ := exists_accepted hfresh hwindow (hclock.sublist hpre')
    (fun u hu v hv => hnonces u (hpre'.mem hu) v (hpre'.mem hv)) hy
  have hd' : d ∈ trace PayloadCodec.step c (before ++ [x] ++ between ++ [y] ++ rest) := by
    rw [List.append_assoc, List.append_assoc, trace_append]
    exact List.mem_append_left _ hd
  have he' : e ∈ trace PayloadCodec.step c (before ++ [x] ++ between ++ [y] ++ rest) := by
    rw [trace_append]
    exact List.mem_append_left _ he
  -- so the two acceptances are not one
  have hne : d ≠ e := by
    rintro rfl
    omega
  have hsymm : Std.Symm fun u v : PayloadCodec × Call × Answer =>
      accepted u.2.2 = true → accepted v.2.2 = true → ¬ SameEnvelope u.2.1 v.2.1 :=
    ⟨fun u v h hv hu huv => h hu hv ⟨huv.1.symm, huv.2.symm⟩⟩
  exact List.Pairwise.forall htwice hd' he' hne haccept haccept'
    ⟨hdx.1.trans (hsame.1.trans hey.1.symm), hdx.2.trans (hsame.2.trans hey.2.symm)⟩

/-! ## When nothing is accepted twice -/

/-- **Nothing is accepted twice**, in any run of a codec whose clock does not
go back, as long as no envelope that opens comes again more than a window
after a call with it; and where distinct envelopes have distinct nonces this
is the only way for one to be accepted twice. -/
theorem never_accepted_twice {derive : List Char → Aead} {passphrase : List Char}
    {c : PayloadCodec} (hnew : newPayloadCodecFromPassphrase derive passphrase = .ok c)
    {calls : List Call} (hclock : ClockRuns calls) :
    ((calls.Pairwise fun x y => ¬ Outlives c x y) → NeverTwice c calls) ∧
      (NoncesDiffer c calls → NeverTwice c calls → calls.Pairwise fun x y => ¬ Outlives c x y) := by
  obtain rfl := eq_of_new hnew
  exact ⟨neverTwice_of_not_outlives hclock,
    not_outlives_of_neverTwice (fun _ => rfl) (by decide : (0 : ℤ) ≤ defaultReplayWindow) hclock⟩

/-- A codec that has accepted nothing yet, under the cipher that hides
nothing. -/
def freshCodec : PayloadCodec :=
  { aead := Aead.clear, replayWindow := defaultReplayWindow, seen := fun _ => none }

/-- A payload sealed nine minutes ahead of noon on the first of January
2026. -/
def aheadOfTime : List UInt8 × Sealing :=
  freshCodec.encryptWith ⟨List.replicate 24 7, rfl⟩ ((1767268800 + 540 + unixToInternal) * 1000000000)
    42 [104, 105]

/-- A call with it, so many seconds past noon. -/
def receiveAt (seconds : ℤ) : Call where
  history := [aheadOfTime.2]
  now := (1767268800 + seconds + unixToInternal) * 1000000000
  dataType := 42
  source := [2, 66, 66, 66, 66, 66]
  encrypted := aheadOfTime.1

/-- The rule on two calls: the second comes at once and is refused. -/
theorem refused_at_once : NeverTwice freshCodec [receiveAt 0, receiveAt 1] := by
  have hclock : ClockRuns [receiveAt 0, receiveAt 1] := by
    simp [ClockRuns, receiveAt]
  refine (@never_accepted_twice (fun _ => Aead.clear) ['m'] freshCodec rfl _ hclock).1 ?_
  exact List.pairwise_pair.2 fun hout => absurd hout.2.2.2 (by decide +kernel)

/-- Nine minutes ahead of the clock, an envelope is fresh for nineteen, and
remembered for ten: it is accepted at noon, and once more ten minutes and a
second later. -/
theorem accepted_again_once_forgotten :
    ¬ ∀ (derive : List Char → Aead), (∀ key, (derive key).Ideal) → ∀ (passphrase : List Char)
      (c : PayloadCodec), newPayloadCodecFromPassphrase derive passphrase = .ok c →
      ∀ calls, ClockRuns calls → NeverTwice c calls := by
  intro h
  have hclock : ClockRuns [receiveAt 0, receiveAt 601] := by
    simp [ClockRuns, receiveAt]
  have htwice := h (fun _ => Aead.clear) (fun _ => Aead.clear_ideal) ['m'] freshCodec rfl _ hclock
  have hfirst : accepted (freshCodec.step (receiveAt 0)).2 = true := by decide +kernel
  have hsecond : accepted ((freshCodec.step (receiveAt 0)).1.step (receiveAt 601)).2 = true := by
    decide +kernel
  exact (List.pairwise_cons.1 htwice).1 _ List.mem_cons_self hfirst hsecond ⟨rfl, rfl⟩

end Security

end OpenManet
