import OpenManet.Frontend.Whisper.Model
import Mathlib.Data.List.TakeDrop
/-!
# The frontend server — is an available model complete?

Asked of every state of a run: at most one download goroutine is live, and
whenever a status reply has said that the model is available the file held a body
that has been sent, whole.

A removal puts the state back to idle under a goroutine that goes on, and the
next download request starts a second one. And a file is there from the moment it
is opened until it is removed after a failure, with as much in it as has come.
`Placed` names the requests at which neither happens; a run is as it should be
exactly if all its requests are so placed (`available_complete_iff`).
-/

namespace OpenManet

namespace Whisper

/-- A reply that says the model is available was given over a whole one. -/
def Reply.Honest (r : Reply) : Prop :=
  r.resp.available = true → ∃ body ∈ r.bodies, r.file = some body

/-- **What is asked of a state.** -/
structure Good (s : Server) : Prop where
  single : s.goroutines.length ≤ 1
  honest : ∀ r ∈ s.replies, r.Honest

/-- No live download has the model's file open with bytes still to come, unless
what has come is a whole body already. -/
def Server.Whole (s : Server) : Prop :=
  ∀ g ∈ s.goroutines, ∀ d ∈ g.download, s.disk.path = some d.fd →
    d.left = [] ∨ d.soFar ∈ s.bodies

instance (s : Server) : Decidable s.Whole := by
  unfold Server.Whole
  infer_instance

/-- **Where requests do no harm.** A download is asked for while one is in
progress by the state, or while no goroutine is live; the state is asked for
while no live download has part of the file in place. -/
def Placed (s : Server) : Action → Prop
  | .status | .downloadStatus => s.Whole
  | .download => s.whisper.state = .downloading ∨ s.goroutines = []
  | _ => True

instance (s : Server) (a : Action) : Decidable (Placed s a) := by
  cases a <;> unfold Placed <;> infer_instance

/-! ## The disk -/

theorem Disk.content_openFile (d : Disk) : d.openFile.1.content d.openFile.2 = [] := by
  unfold openFile
  split <;> simp

theorem Disk.path_openFile (d : Disk) : d.openFile.1.path = some d.openFile.2 := by
  unfold openFile
  split
  · assumption
  · rfl

/-- What is written after what is there is appended. -/
theorem Disk.content_writeAt (d : Disk) {fd offset : ℕ} {body data : Bytes}
    (h : d.content fd = body.take offset) (hle : offset ≤ body.length) :
    (d.writeAt fd offset data).content fd = body.take offset ++ data := by
  have hlen : (body.take offset).length = offset := List.length_take_of_le hle
  simp only [writeAt, Function.update_self, h, hlen, Nat.sub_self, List.replicate_zero,
    List.append_nil]
  rw [List.take_of_length_le (by omega), List.drop_of_length_le (by omega), List.append_nil]

/-! ## The invariant -/

/-- The body a goroutine has been answered with. -/
def Goroutine.body : Goroutine → Option Bytes
  | .openFile body _ => some body
  | g => g.download.map (·.body)

/-- **What holds of the disk while at most one goroutine is live**: the file is a
whole body, or that goroutine's, and that holds what the goroutine has written. -/
structure Kept (disk : Disk) (bodies : List Bytes) (g : Option Goroutine) : Prop where
  sent : ∀ body, g.bind Goroutine.body = some body → body ∈ bodies
  written : ∀ d, g.bind Goroutine.download = some d →
    d.downloaded ≤ d.body.length ∧ disk.content d.fd = d.soFar
  file : ∀ i, disk.path = some i →
    disk.content i ∈ bodies ∨ ∃ d, g.bind Goroutine.download = some d ∧ d.fd = i

namespace Kept

variable {disk : Disk} {bodies : List Bytes}

/-- A goroutine that has no file open leaves whole ones. -/
theorem whole {g : Option Goroutine} (h : Kept disk bodies g)
    (hnone : g.bind Goroutine.download = none) (i : ℕ) (hi : disk.path = some i) :
    disk.content i ∈ bodies :=
  (h.file i hi).resolve_right fun ⟨d, hd, _⟩ => by simp [hnone] at hd

/-- A step that leaves the disk and the file at hand. -/
theorem of_same {g g' : Option Goroutine} (h : Kept disk bodies g)
    (hdownload : g'.bind Goroutine.download = g.bind Goroutine.download)
    (hbody : ∀ body, g'.bind Goroutine.body = some body → body ∈ bodies) : Kept disk bodies g' where
  sent := hbody
  written := fun d hd => h.written d (hdownload ▸ hd)
  file := fun i hi => (h.file i hi).imp id fun ⟨d, hd, hfd⟩ => ⟨d, hdownload ▸ hd, hfd⟩

/-- No file, no harm. -/
theorem removed {g : Option Goroutine} (h : Kept disk bodies g) :
    Kept disk.removeAll bodies g where
  sent := h.sent
  written := h.written
  file := fun i hi => by simp [Disk.removeAll] at hi

/-- The body of an open file is that of its download. -/
theorem body_of_download {g : Goroutine} {d : Download} (h : g.download = some d) :
    g.body = some d.body := by
  cases g <;> simp_all [Goroutine.body, Goroutine.download]

/-- **One step of the goroutine.** -/
theorem step {w : WhisperState} {g : Goroutine} {e : Event} {o : Outcome}
    (h : Kept disk bodies (some g)) (hstep : goroutineStep disk w g e = some o) :
    Kept o.disk (bodies ++ o.body.toList) o.next := by
  have hsent : ∀ d, g.download = some d → d.body ∈ bodies := fun d hd =>
    h.sent d.body (body_of_download hd)
  cases e with
  | fail why =>
      simp only [goroutineStep] at hstep
      split at hstep
      · obtain rfl := Option.some.inj hstep
        simp only [Option.toList_none, List.append_nil]
        refine h.of_same rfl fun body hbody => ?_
        change g.download.map (·.body) = some body at hbody
        obtain ⟨d, hd, rfl⟩ := Option.map_eq_some_iff.1 hbody
        exact hsent d hd
      · simp at hstep
  | response body totalSize =>
      simp only [goroutineStep] at hstep
      split at hstep
      · obtain rfl := Option.some.inj hstep
        refine ⟨fun body' hbody => ?_, fun d hd => ?_, fun i hi => Or.inl ?_⟩
        · obtain rfl := Option.some.inj hbody
          simp
        · simp [Goroutine.download] at hd
        · exact List.mem_append_left _ (h.whole rfl i hi)
      · simp at hstep
  | chunk n =>
      simp only [goroutineStep] at hstep
      split at hstep
      · rename_i d
        split at hstep
        · rename_i hn
          obtain rfl := Option.some.inj hstep
          obtain ⟨hle, hcontent⟩ := h.written d rfl
          have hleft : d.left.length = d.body.length - d.downloaded := List.length_drop
          have hnext : (if d.totalSize > 0 then
              Goroutine.progress { d with downloaded := d.downloaded + n }
              else .reading { d with downloaded := d.downloaded + n }).download =
              some { d with downloaded := d.downloaded + n } := by
            split <;> rfl
          simp only [Option.toList_none, List.append_nil]
          refine ⟨fun body hbody => ?_, fun d' hd' => ?_, fun i hi => ?_⟩
          · rw [Option.bind_some, body_of_download hnext] at hbody
            obtain rfl := Option.some.inj hbody
            exact hsent d rfl
          · rw [Option.bind_some, hnext] at hd'
            obtain rfl := Option.some.inj hd'
            refine ⟨by simp only; omega, ?_⟩
            rw [Disk.content_writeAt disk hcontent hle]
            exact (List.take_add).symm
          · by_cases hfd : i = d.fd
            · exact Or.inr ⟨_, hnext, hfd.symm⟩
            · refine Or.inl ?_
              have hother : (disk.writeAt d.fd d.downloaded (d.left.take n)).content i =
                  disk.content i := Function.update_of_ne hfd _ _
              rw [hother]
              refine (h.file i hi).resolve_right ?_
              rintro ⟨_, ⟨⟩, rfl⟩
              exact hfd rfl
        · simp at hstep
      · simp at hstep
  | proceed =>
      cases g with
      | mkdir =>
          obtain rfl := Option.some.inj hstep
          exact ⟨fun _ hbody => by simp [Goroutine.body, Goroutine.download] at hbody,
            fun _ hd => by simp [Goroutine.download] at hd,
            fun i hi => Or.inl (List.mem_append_left _ (h.whole rfl i hi))⟩
      | request => simp [goroutineStep] at hstep
      | openFile body totalSize =>
          simp only [goroutineStep] at hstep
          split at hstep
          · obtain rfl := Option.some.inj hstep
            simp only [Option.toList_none, List.append_nil]
            refine ⟨fun body' hbody => ?_, fun d hd => ?_, fun i hi => Or.inr ⟨_, rfl, ?_⟩⟩
            · obtain rfl := Option.some.inj hbody
              exact h.sent body rfl
            · obtain rfl := Option.some.inj hd
              exact ⟨Nat.zero_le _, disk.content_openFile⟩
            · exact Option.some.inj (disk.path_openFile.symm.trans hi)
          · simp at hstep
      | reading d =>
          simp only [goroutineStep] at hstep
          split at hstep
          · rename_i hleft
            obtain rfl := Option.some.inj hstep
            simp only [Option.toList_none, List.append_nil]
            refine ⟨fun _ hbody => by simp [Goroutine.body, Goroutine.download] at hbody,
              fun _ hd => by simp [Goroutine.download] at hd, fun i hi => Or.inl ?_⟩
            rcases h.file i hi with hwhole | ⟨_, ⟨⟩, rfl⟩
            · exact hwhole
            · -- All of it has been written.
              have hall : d.soFar = d.body :=
                List.take_of_length_le (List.drop_eq_nil_iff.1 hleft)
              rw [(h.written d rfl).2, hall]
              exact hsent d rfl
          · simp at hstep
      | progress d =>
          obtain rfl := Option.some.inj hstep
          simp only [Option.toList_none, List.append_nil]
          exact h.of_same rfl h.sent
      | ready =>
          obtain rfl := Option.some.inj hstep
          exact ⟨fun _ hbody => by simp at hbody, fun _ hd => by simp at hd,
            fun i hi => Or.inl (List.mem_append_left _ (h.whole rfl i hi))⟩
      | removing msg d =>
          obtain rfl := Option.some.inj hstep
          exact ⟨fun _ hbody => by simp [Goroutine.body, Goroutine.download] at hbody,
            fun _ hd => by simp [Goroutine.download] at hd,
            fun i hi => by simp [Disk.removeAll] at hi⟩
      | failed msg =>
          obtain rfl := Option.some.inj hstep
          exact ⟨fun _ hbody => by simp at hbody, fun _ hd => by simp at hd,
            fun i hi => Or.inl (List.mem_append_left _ (h.whole rfl i hi))⟩

end Kept

/-- The invariant of the server. -/
def Inv (s : Server) : Prop := Kept s.disk s.bodies s.goroutines.head?

theorem inv_start (model : Option Bytes) : Inv (start model) where
  sent := by simp [start]
  written := by simp [start]
  file i hi := by
    cases model with
    | none => simp [start] at hi
    | some body => exact Or.inl (by simp [start])

theorem good_start (model : Option Bytes) : Good (start model) :=
  ⟨by simp [start], by simp [start]⟩

/-! ## Steps -/

/-- The one goroutine that can be meant. -/
theorem eq_singleton {gs : List Goroutine} {i : ℕ} {g : Goroutine} (hsingle : gs.length ≤ 1)
    (hg : gs[i]? = some g) : gs = [g] ∧ i = 0 := by
  have hlt := (List.getElem?_eq_some_iff.1 hg).1
  obtain rfl : i = 0 := by omega
  obtain ⟨g', rfl⟩ := List.length_eq_one_iff.1 (show gs.length = 1 by omega)
  exact ⟨by simpa using hg, rfl⟩

theorem step_removed {s t : Server} (h : step s .removed = some t) :
    t = { s with whisper := ⟨.idle, "", 0⟩, removals := s.removals - 1 } := by
  simp only [step] at h
  split at h
  · exact (Option.some.inj h).symm
  · cases h

/-- The step of a goroutine that is there. -/
theorem step_goroutine {s t : Server} {i : ℕ} {e : Event} (h : step s (.goroutine i e) = some t) :
    ∃ g o, s.goroutines[i]? = some g ∧ goroutineStep s.disk s.whisper g e = some o ∧
      t = { s with
        disk := o.disk
        whisper := o.whisper
        bodies := s.bodies ++ o.body.toList
        goroutines :=
          match o.next with
          | some g => s.goroutines.set i g
          | none => s.goroutines.eraseIdx i } := by
  simp only [step] at h
  cases hg : s.goroutines[i]? with
  | none => simp [hg] at h
  | some g =>
      simp only [hg, Option.map_eq_some_iff] at h
      obtain ⟨o, ho, rfl⟩ := h
      exact ⟨g, o, rfl, ho, rfl⟩

theorem inv_step {s t : Server} {a : Action} (h : Inv s) (hgood : Good s) (hplaced : Placed s a)
    (hstep : step s a = some t) : Inv t := by
  cases a with
  | status | downloadStatus | removeFails =>
      obtain rfl := Option.some.inj hstep
      exact h
  | download =>
      obtain rfl := Option.some.inj hstep
      unfold Server.handleWhisperDownload
      split
      · exact h
      · rename_i hphase
        have hnone : s.goroutines = [] := hplaced.resolve_left hphase
        have hinv : Kept s.disk s.bodies none := by simpa [Inv, hnone] using h
        show Kept s.disk s.bodies (s.goroutines ++ [Goroutine.mkdir]).head?
        rw [hnone]
        exact hinv.of_same rfl fun _ hbody => by simp [Goroutine.body, Goroutine.download] at hbody
  | remove =>
      obtain rfl := Option.some.inj hstep
      exact Kept.removed h
  | removed =>
      obtain rfl := step_removed hstep
      exact h
  | goroutine i e =>
      obtain ⟨g, o, hg, ho, rfl⟩ := step_goroutine hstep
      obtain ⟨hsingle, rfl⟩ := eq_singleton hgood.single hg
      have hkept : Kept s.disk s.bodies (some g) := by simpa [Inv, hsingle] using h
      have hnext := hkept.step ho
      cases hn : o.next with
      | none =>
          rw [hn] at hnext
          simpa [Inv, hn, hsingle] using hnext
      | some g' =>
          rw [hn] at hnext
          simpa [Inv, hn, hsingle] using hnext

/-- A reply is honest if and only if no download has part of the file there. -/
theorem honest_iff {s : Server} (h : Inv s) (hgood : Good s) {resp : WhisperStatusResponse}
    (havailable : resp.available = s.whisperModelExists) :
    Reply.Honest ⟨resp, s.disk.file, s.bodies⟩ ↔ s.Whole := by
  have hmem : ∀ g, g ∈ s.goroutines ↔ s.goroutines.head? = some g := by
    intro g
    match hgs : s.goroutines, hgood.single with
    | [], _ => simp
    | [g'], _ => simp [eq_comm]
    | _ :: _ :: _, hle => simp at hle
  constructor
  · intro hhonest g hg d hd hpath
    obtain ⟨body, hbody, hfile⟩ := hhonest (by
      simp [havailable, Server.whisperModelExists, hpath])
    have hcontent : s.disk.content d.fd = d.soFar := (h.written d (by
      rw [(hmem g).1 hg, Option.bind_some, hd])).2
    right
    rw [Disk.file, hpath, Option.map_some, hcontent, Option.some_inj] at hfile
    exact hfile ▸ hbody
  · intro hwhole hexists
    rw [havailable, Server.whisperModelExists, Option.isSome_iff_exists] at hexists
    obtain ⟨i, hi⟩ := hexists
    refine ⟨s.disk.content i, ?_, by simp [Disk.file, hi]⟩
    rcases h.file i hi with hin | ⟨d, hd, rfl⟩
    · exact hin
    · obtain ⟨g, hg, hgd⟩ := Option.bind_eq_some_iff.1 hd
      rw [(h.written d hd).2]
      rcases hwhole g ((hmem g).2 hg) d hgd hi with hleft | hin
      · have hall : d.soFar = d.body := List.take_of_length_le (List.drop_eq_nil_iff.1 hleft)
        rw [hall]
        exact h.sent d.body (by rw [hg, Option.bind_some, Kept.body_of_download hgd])
      · exact hin

/-- One more reply. -/
theorem good_reply_iff {s : Server} (h : Inv s) (hgood : Good s) {resp : WhisperStatusResponse}
    (havailable : resp.available = s.whisperModelExists) : Good (s.reply resp) ↔ s.Whole := by
  rw [← honest_iff h hgood havailable]
  constructor
  · intro hnext
    exact hnext.honest _ (by simp [Server.reply])
  · intro hhonest
    refine ⟨hgood.single, fun r hr => ?_⟩
    rcases List.mem_append.1 hr with hr | hr
    · exact hgood.honest r hr
    · exact List.mem_singleton.1 hr ▸ hhonest

/-- **A step keeps what is asked for if and only if it is so placed.** -/
theorem good_step_iff {s t : Server} {a : Action} (h : Inv s) (hgood : Good s)
    (hstep : step s a = some t) : Good t ↔ Placed s a := by
  cases a with
  | status =>
      obtain rfl := Option.some.inj hstep
      refine good_reply_iff h hgood ?_
      unfold Server.handleWhisperStatus
      split <;> rfl
  | downloadStatus =>
      obtain rfl := Option.some.inj hstep
      exact good_reply_iff h hgood rfl
  | download =>
      obtain rfl := Option.some.inj hstep
      unfold Server.handleWhisperDownload Placed
      split
      · rename_i hphase
        exact iff_of_true hgood (Or.inl hphase)
      · rename_i hphase
        constructor
        · intro hnext
          right
          have hlen := hnext.single
          simp only [List.length_append, List.length_singleton] at hlen
          exact List.length_eq_zero_iff.1 (by omega)
        · intro hplaced
          exact ⟨by simp [hplaced.resolve_left hphase], hgood.honest⟩
  | remove | removeFails =>
      obtain rfl := Option.some.inj hstep
      exact iff_of_true ⟨hgood.single, hgood.honest⟩ trivial
  | removed =>
      obtain rfl := step_removed hstep
      exact iff_of_true ⟨hgood.single, hgood.honest⟩ trivial
  | goroutine i e =>
      obtain ⟨g, o, hg, -, rfl⟩ := step_goroutine hstep
      obtain ⟨hsingle, rfl⟩ := eq_singleton hgood.single hg
      refine iff_of_true ⟨?_, hgood.honest⟩ trivial
      cases o.next <;> simp [hsingle]

/-! ## Runs -/

/-- **An available model is complete, and downloaded once, exactly in the runs
whose requests are so placed.** -/
theorem available_complete_iff {model : Option Bytes} {as : List Action} {s : Server}
    (hrun : Run step (start model) as s) :
    Throughout step Good (start model) as ↔ Always step Placed (start model) as :=
  hrun.throughout_iff_always_of_placed (I := Inv) (H := fun _ => True) (fun _ _ => trivial)
    (inv_start model) (good_start model)
    (fun _ _ _ _ hinv hgood hplaced hstep => inv_step hinv hgood hplaced hstep)
    (fun _ _ _ _ hinv hgood hstep => good_step_iff hinv hgood hstep)

/-- A body of three bytes is downloaded, and then the state is asked for. -/
def wholeDownload : List Action :=
  [.download, .goroutine 0 .proceed, .goroutine 0 (.response [1, 2, 3] 3), .goroutine 0 .proceed,
   .goroutine 0 (.chunk 2), .goroutine 0 .proceed, .goroutine 0 (.chunk 1), .goroutine 0 .proceed,
   .goroutine 0 .proceed, .goroutine 0 .proceed, .status]

theorem available_complete_iff_wholeDownload :
    Throughout step Good (start none) wholeDownload := by
  obtain ⟨s, hs⟩ := Option.isSome_iff_exists.1
    (show (wholeDownload.foldlM step (start none)).isSome = true by decide +kernel)
  exact (available_complete_iff (Run.of_foldlM hs)).2 (by decide +kernel)

/-- The model is removed while it is being downloaded, and asked for again. -/
def removedAndAskedFor : List Action := [.download, .remove, .removed, .download]

/-- The state is asked for when two of three bytes have come. -/
def askedFor : List Action :=
  [.download, .goroutine 0 .proceed, .goroutine 0 (.response [1, 2, 3] 3), .goroutine 0 .proceed,
   .goroutine 0 (.chunk 2), .status]

/-- **Neither half holds of every run.** A removal leaves a goroutine behind that
the state does not know of, and a file is available from its first byte. -/
theorem available_incomplete :
    ¬Throughout step Good (start none) removedAndAskedFor ∧
      ¬Throughout step Good (start none) askedFor := by
  constructor
  · intro h
    have hrun : Run step (start none) removedAndAskedFor _ := Run.of_foldlM rfl
    have hgood := h.last hrun
    exact absurd hgood.single (by decide)
  · intro h
    have hrun : Run step (start none) askedFor _ := Run.of_foldlM rfl
    have hgood := h.last hrun
    obtain ⟨body, hbody, hfile⟩ := hgood.honest _ List.mem_cons_self rfl
    obtain rfl := List.mem_singleton.1 hbody
    exact absurd (Option.some.inj hfile) (by decide)

end Whisper

end OpenManet
