import OpenManet.Frontend.Captions.Model
import OpenManet.Lib.Machine
/-!
# Whose captions they are

A job that is ended by the limit of 30 seconds may still have an inference
printing, and so may one whose `full_default` has thrown after a worker was
started. The next job's hook gets these lines, and a second inference runs.
Without that every caption is of the lines printed for its own utterance:
`Placed` excludes the two, and what the steps then keep is that the job under
way, the hook and the inference are of one utterance.
-/

namespace OpenManet

namespace Captions

variable {α : Type*}

/-! ## Utterances -/

/-- The lines that have been printed for the audio of a job. -/
def linesFor (id : ℕ) (printed : List (ℕ × List Char)) : List (List Char) :=
  (printed.filter fun p => p.1 = id).map (·.2)

/-- The segments of lines, as a job collects them. -/
def transcriptOf (lines : List (List Char)) : List Char :=
  lines.flatMap fun line =>
    match segment line with
    | none => []
    | some t => t ++ [' ']

/-- **Captions belong to their utterance**: one inference runs at most, an
utterance is delivered once at most, and under the channel its audio came on,
with the segments that were printed for it. -/
structure Owned (s : State α) : Prop where
  single : s.running.length ≤ 1
  utterances : (s.jobs.map (·.id)).Nodup
  once : (s.calls.map (·.job)).Nodup
  text : ∀ c ∈ s.calls, ∃ job ∈ s.jobs, job.id = c.job ∧ job.ch = c.ch ∧
    job.audio <:+: s.fed job.ch ∧ c.text = JsText.trim (transcriptOf (linesFor c.job s.printed))

/-- The next poll of the job ends it. -/
def Flight.Ends (f : Flight α) : Prop :=
  f.finished = true ∨ ∃ elapsed ∈ f.elapsed, maxMs ≤ elapsed + pollMs

/-- **Where an action is taken.** A poll that ends a job finds its inference
over, and where `full_default` throws no worker has lines to print. -/
def Placed (s : State α) : Action α → Prop
  | .fullDefault _ (.throws lines) => lines = []
  | .poll i => ∀ f ∈ s.flights[i]?, f.Ends → ∀ inference ∈ s.running, inference.job ≠ f.job.id
  | _ => True

instance (f : Flight α) : Decidable f.Ends := by
  unfold Flight.Ends
  infer_instance

instance (s : State α) (a : Action α) : Decidable (Placed s a) := by
  unfold Placed
  split <;> infer_instance

section Lines

variable {printed : List (ℕ × List Char)} {lines : List (List Char)} {line : List Char} {i j : ℕ}

theorem linesFor_concat (i j : ℕ) (line : List Char) :
    linesFor i (printed ++ [(j, line)]) = linesFor i printed ++ if j = i then [line] else [] := by
  unfold linesFor
  split_ifs with h <;> simp [List.filter_append, h]

theorem linesFor_eq_nil (h : ∀ p ∈ printed, p.1 ≠ i) : linesFor i printed = [] := by
  unfold linesFor
  rw [List.map_eq_nil_iff, List.filter_eq_nil_iff]
  simpa using h

/-- The hook collects what the line has. -/
theorem Flight.print_transcript (f : Flight α) (line : List Char)
    (h : f.transcript = transcriptOf lines) :
    (f.print line).transcript = transcriptOf (lines ++ [line]) := by
  unfold Flight.print transcriptOf
  rw [List.flatMap_append, ← transcriptOf, ← h]
  cases hseg : segment line with
  | none => simp [hseg]
  | some t => simp [hseg]

end Lines

/-! ## The invariant -/

/-- The job under way, the hook and the inference are of one utterance. -/
inductive Work (s : State α) : Prop
  | idle : s.flights = [] → s.whisperBusy = false → s.hook = none → s.running = [] → Work s
  | busy (f : Flight α) : s.flights = [f] → s.whisperBusy = true → s.hook = some f.job.id →
      f.transcript = transcriptOf (linesFor f.job.id s.printed) →
      (∀ inference ∈ s.running, inference.job = f.job.id) → s.running.length ≤ 1 →
      (f.elapsed = none → s.running = []) → Work s

/-- The rest of the state has no part in it. -/
theorem Work.of_eq {s t : State α} (h : Work s) (hflights : t.flights = s.flights)
    (hbusy : t.whisperBusy = s.whisperBusy) (hhook : t.hook = s.hook)
    (hrunning : t.running = s.running) (hprinted : t.printed = s.printed) : Work t := by
  rcases h with ⟨h₁, h₂, h₃, h₄⟩ | ⟨f, h₁, h₂, h₃, h₄, h₅, h₆, h₇⟩
  · exact .idle (hflights.trans h₁) (hbusy.trans h₂) (hhook.trans h₃) (hrunning.trans h₄)
  · exact .busy f (hflights.trans h₁) (hbusy.trans h₂) (hhook.trans h₃) (hprinted ▸ h₄)
      (hrunning ▸ h₅) (hrunning ▸ h₆) (hrunning ▸ h₇)

/-- **What every well placed step keeps**, the jobs that are over being
`finished`. -/
structure Inv (s : State α) (finished : List (Job α)) : Prop where
  jobs : s.jobs = finished ++ (s.flights.map (·.job) ++ s.transcribeQueue)
  numbered : s.jobs.map (·.id) = List.range s.jobs.length
  audio : ∀ job ∈ s.jobs, job.audio <:+: s.fed job.ch
  buffered : ∀ ch, (s.chState ch).audioBuf.flatten <:+ s.fed ch
  work : Work s
  printed : ∀ p ∈ s.printed, p.1 ∈ (finished ++ s.flights.map (·.job)).map (·.id)
  calls : (s.calls.map (·.job)).Sublist (finished.map (·.id))
  delivered : ∀ c ∈ s.calls, (∃ job ∈ finished, job.id = c.job ∧ job.ch = c.ch) ∧
    c.text = JsText.trim (transcriptOf (linesFor c.job s.printed))

namespace Inv

variable {s t : State α} {finished : List (Job α)} {f : Flight α} {ch : ℕ} {a : Action α}

theorem nodup (h : Inv s finished) : (s.jobs.map (·.id)).Nodup := by
  rw [h.numbered]
  exact List.nodup_range

theorem owned (h : Inv s finished) : Owned s where
  single := by
    rcases h.work with ⟨-, -, -, hrunning⟩ | ⟨f, -, -, -, -, -, hsingle, -⟩
    · rw [hrunning]
      exact Nat.zero_le 1
    · exact hsingle
  utterances := h.nodup
  once := by
    have hover : (finished.map (·.id)).Sublist (s.jobs.map (·.id)) := by
      rw [h.jobs, List.map_append]
      exact List.sublist_append_left _ _
    exact h.nodup.sublist (h.calls.trans hover)
  text := by
    intro c hc
    obtain ⟨⟨job, hjob, hid, hch⟩, htext⟩ := h.delivered c hc
    have hmem : job ∈ s.jobs := by
      rw [h.jobs]
      exact List.mem_append_left _ hjob
    exact ⟨job, hmem, hid, hch, h.audio job hmem, htext⟩

theorem initial : Inv (Captions.initial : State α) [] where
  jobs := rfl
  numbered := rfl
  audio := by simp [Captions.initial]
  buffered := fun _ => List.suffix_refl _
  work := .idle rfl rfl rfl rfl
  printed := by simp [Captions.initial]
  calls := List.Sublist.refl _
  delivered := by simp [Captions.initial]

/-- Another state of the channels. -/
theorem chState (h : Inv s finished) {chState : ℕ → ChState α}
    (hbuf : ∀ ch, (chState ch).audioBuf.flatten <:+ s.fed ch) :
    Inv { s with chState := chState } finished where
  jobs := h.jobs
  numbered := h.numbered
  audio := h.audio
  buffered := hbuf
  work := h.work.of_eq rfl rfl rfl rfl rfl
  printed := h.printed
  calls := h.calls
  delivered := h.delivered

theorem setCh (h : Inv s finished) {cs : ChState α} (hbuf : cs.audioBuf.flatten <:+ s.fed ch) :
    Inv (s.setCh ch cs) finished := by
  refine h.chState fun ch' => ?_
  rcases eq_or_ne ch' ch with rfl | hne
  · rw [Function.update_self]
    exact hbuf
  · rw [Function.update_of_ne hne]
    exact h.buffered ch'

theorem setPending (h : Inv s finished) (ch : ℕ) (pending : Bool) :
    Inv (s.setPending ch pending) finished :=
  h.setCh (h.buffered ch)

theorem reset (h : Inv s finished) : Inv s.reset finished := by
  refine h.chState fun ch => ?_
  split_ifs
  · exact List.nil_suffix
  · exact h.buffered ch

theorem feedAudio (h : Inv s finished) (ch : ℕ) (pcm48k : List α) (srcIP : String) (now : ℤ) :
    Inv (s.feedAudio ch pcm48k srcIP now) finished := by
  unfold State.feedAudio
  split_ifs
  · refine ⟨h.jobs, h.numbered, fun job hjob => ?_, fun ch' => ?_, h.work.of_eq rfl rfl rfl rfl rfl,
      h.printed, h.calls, h.delivered⟩
    · -- what has been fed goes on
      refine (h.audio job hjob).trans ?_
      show s.fed job.ch <:+: Function.update s.fed ch _ job.ch
      rcases eq_or_ne job.ch ch with heq | hne
      · rw [heq, Function.update_self]
        exact (List.prefix_append _ _).isInfix
      · simp only [Function.update_of_ne hne]
        exact List.infix_refl _
    · show (Function.update s.chState ch _ ch').audioBuf.flatten <:+ Function.update s.fed ch _ ch'
      rcases eq_or_ne ch' ch with rfl | hne
      · rw [Function.update_self, Function.update_self, List.flatten_append, List.flatten_singleton]
        obtain ⟨before, hfed⟩ := h.buffered ch'
        exact ⟨before, by rw [← List.append_assoc, hfed]⟩
      · rw [Function.update_of_ne hne, Function.update_of_ne hne]
        exact h.buffered ch'
  · exact h

/-! ## The queue -/

theorem processQueue (h : Inv s finished) : Inv s.processQueue finished := by
  unfold State.processQueue
  split_ifs with hbusy
  · exact h
  cases hqueue : s.transcribeQueue with
  | nil => exact h
  | cons job rest =>
      rcases h.work with ⟨hflights, -, hhook, hrunning⟩ | ⟨f, -, hb, -⟩
      · have hjobs : s.jobs = finished ++ job :: rest := by
          rw [h.jobs, hflights, hqueue, List.map_nil, List.nil_append]
        have hdistinct : job.id ∉ finished.map (·.id) := by
          have hnodup := h.nodup
          rw [hjobs, List.map_append, List.map_cons] at hnodup
          exact fun hmem => (List.nodup_append.1 hnodup).2.2 _ hmem _ List.mem_cons_self rfl
        have hprinted : ∀ p ∈ s.printed, p.1 ∈ finished.map (·.id) := by
          have hall := h.printed
          rwa [hflights, List.map_nil, List.append_nil] at hall
        refine ⟨?_, h.numbered, h.audio, h.buffered, ?_, fun p hp => ?_, h.calls, h.delivered⟩
        · rw [hjobs, hflights]
          rfl
        · -- nothing has been printed for it yet
          refine .busy _ (by rw [hflights]; rfl) rfl rfl ?_ ?_ ?_ fun _ => hrunning
          · have hnone : linesFor job.id s.printed = [] :=
              linesFor_eq_nil fun p hp heq => hdistinct (heq ▸ hprinted p hp)
            exact (congrArg transcriptOf hnone).symm
          · rw [hrunning]
            simp
          · rw [hrunning]
            exact Nat.zero_le 1
        · rw [hflights, List.map_append]
          exact List.mem_append_left _ (hprinted p hp)
      · exact absurd hb hbusy

/-- An utterance is queued. -/
theorem queue (h : Inv s finished) (job : Job α) (hid : job.id = s.jobs.length)
    (haudio : job.audio <:+: s.fed job.ch) :
    Inv { s with transcribeQueue := s.transcribeQueue ++ [job], jobs := s.jobs ++ [job] } finished where
  jobs := by
    show s.jobs ++ [job] = _
    rw [h.jobs]
    simp
  numbered := by
    show (s.jobs ++ [job]).map (·.id) = List.range (s.jobs ++ [job]).length
    rw [List.map_append, h.numbered, List.length_append, List.length_singleton, List.range_succ,
      List.map_singleton, hid]
  audio := by
    intro j hj
    rcases List.mem_append.1 hj with hj | hj
    · exact h.audio j hj
    · exact List.mem_singleton.1 hj ▸ haudio
  buffered := h.buffered
  work := h.work.of_eq rfl rfl rfl rfl rfl
  printed := h.printed
  calls := h.calls
  delivered := h.delivered

theorem queueTranscribe (h : Inv s finished) (ch : ℕ) : Inv (s.queueTranscribe ch) finished := by
  unfold State.queueTranscribe
  dsimp only
  have hcleared : ∀ pending, Inv (s.setCh ch
      { s.chState ch with audioBuf := [], pendingTranscribe := pending }) finished := fun pending =>
    h.setCh List.nil_suffix
  split_ifs
  · exact h
  · exact hcleared false
  · refine processQueue (queue (hcleared true) _ rfl ?_)
    exact ((List.take_prefix _ _).isInfix).trans (h.buffered ch).isInfix

theorem checkSilenceAndTranscribe (h : Inv s finished) (now : ℤ) :
    Inv (s.checkSilenceAndTranscribe now) finished := by
  unfold State.checkSilenceAndTranscribe
  have hturns : ∀ chs : List ℕ,
      Inv (chs.foldl (fun s ch => s.checkChannel now ch) s) finished := by
    intro chs
    induction chs generalizing s with
    | nil => exact h
    | cons ch chs ih =>
        refine ih ?_
        unfold State.checkChannel
        dsimp only
        split_ifs
        · exact h
        · exact h
        · exact h.queueTranscribe ch
  split_ifs
  · exact hturns channels
  · exact h

/-! ## The job under way -/

/-- It is the only one, and no other utterance has its number. -/
theorem current (h : Inv s finished) {i : ℕ} (hf : s.flights[i]? = some f) :
    i = 0 ∧ s.flights = [f] ∧ s.whisperBusy = true ∧ s.hook = some f.job.id ∧
      f.transcript = transcriptOf (linesFor f.job.id s.printed) ∧
      (∀ inference ∈ s.running, inference.job = f.job.id) ∧ s.running.length ≤ 1 ∧
      (f.elapsed = none → s.running = []) ∧ f.job.id ∉ finished.map (·.id) := by
  rcases h.work with ⟨hflights, -⟩ | ⟨g, hflights, hbusy, hhook, htext, hown, hsingle, hwait⟩
  · rw [hflights] at hf
    cases hf
  · have hnodup := h.nodup
    rw [h.jobs, hflights, List.map_append, List.map_append, List.map_singleton,
      List.map_singleton] at hnodup
    have hnot : g.job.id ∉ finished.map (·.id) := fun hmem =>
      (List.nodup_append.1 hnodup).2.2 _ hmem _ (List.mem_append_left _ List.mem_cons_self) rfl
    rw [hflights] at hf
    cases i with
    | zero =>
        obtain rfl := Option.some.inj hf
        exact ⟨rfl, hflights, hbusy, hhook, htext, hown, hsingle, hwait, hnot⟩
    | succ i => cases hf

/-- A job is over, with its inference, delivered or not. -/
theorem ended (h : Inv s finished) {i : ℕ} (hf : s.flights[i]? = some f) (hrunning : s.running = [])
    {calls : List Call} (hcalls : calls = s.calls ∨ calls = s.calls ++
      [{ job := f.job.id, ch := f.job.ch, ip := f.job.ip, text := JsText.trim f.transcript }]) :
    Inv (State.endJob { s with flights := s.flights.eraseIdx i, calls := calls } f)
      (finished ++ [f.job]) := by
  obtain ⟨rfl, hflights, -, -, htext, -, -, -, -⟩ := h.current hf
  have hover : Inv { s with flights := [], calls := calls, hook := none, whisperBusy := false }
      (finished ++ [f.job]) := by
    refine ⟨?_, h.numbered, h.audio, h.buffered, .idle rfl rfl rfl hrunning, fun p hp => ?_, ?_,
      fun c hc => ?_⟩
    · show s.jobs = _
      rw [h.jobs, hflights]
      simp
    · have hmem := h.printed p hp
      rw [hflights] at hmem
      simpa using hmem
    · rw [List.map_append, List.map_singleton]
      rcases hcalls with rfl | rfl
      · exact h.calls.trans (List.sublist_append_left _ _)
      · rw [List.map_append, List.map_singleton]
        exact h.calls.append (List.Sublist.refl _)
    · have hold : ∀ c ∈ s.calls, (∃ job ∈ finished ++ [f.job], job.id = c.job ∧ job.ch = c.ch) ∧
          c.text = JsText.trim (transcriptOf (linesFor c.job s.printed)) := by
        intro c hc
        obtain ⟨⟨job, hjob, hsame⟩, htext⟩ := h.delivered c hc
        exact ⟨⟨job, List.mem_append_left _ hjob, hsame⟩, htext⟩
      rcases hcalls with rfl | rfl
      · exact hold c hc
      · rcases List.mem_append.1 hc with hc | hc
        · exact hold c hc
        · obtain rfl := List.mem_singleton.1 hc
          exact ⟨⟨f.job, by simp, rfl, rfl⟩, by rw [htext]⟩
  have hnext := (hover.setPending f.job.ch false).processQueue
  have herase : s.flights.eraseIdx 0 = [] := by rw [hflights]; rfl
  unfold State.endJob
  rw [herase]
  exact hnext

/-- The job under way goes on being polled, with an inference of its own or
none. -/
theorem polled (h : Inv s finished) {i : ℕ} (hf : s.flights[i]? = some f) (elapsed : ℕ)
    {running : List Inference} (hown : ∀ inference ∈ running, inference.job = f.job.id)
    (hsingle : running.length ≤ 1) :
    Inv { s with flights := s.flights.set i { f with elapsed := some elapsed }, running := running }
      finished := by
  obtain ⟨rfl, hflights, hbusy, hhook, htext, -⟩ := h.current hf
  have hset : s.flights.set 0 { f with elapsed := some elapsed } =
      [{ f with elapsed := some elapsed }] := by rw [hflights]; rfl
  rw [hset]
  refine ⟨?_, h.numbered, h.audio, h.buffered, ?_, fun p hp => ?_, h.calls, h.delivered⟩
  · show s.jobs = _
    rw [h.jobs, hflights]
    rfl
  · exact .busy _ rfl hbusy hhook htext hown hsingle fun hwait => by cases hwait
  · have hmem := h.printed p hp
    rw [hflights] at hmem
    exact hmem

theorem fullDefault (h : Inv s finished) {i : ℕ} (hf : s.flights[i]? = some f)
    (hwait : f.elapsed = none) {result : Result} (hplaced : Placed s (.fullDefault i result)) :
    ∃ finished, Inv (s.fullDefault i f result) finished := by
  obtain ⟨-, -, -, -, -, -, -, hstart, -⟩ := h.current hf
  have hrunning := hstart hwait
  cases result with
  | throws lines =>
      obtain rfl : lines = [] := hplaced
      exact ⟨_, h.ended hf hrunning (.inl rfl)⟩
  | returns lines =>
      refine ⟨finished, ?_⟩
      by_cases hlines : lines = []
      · simp only [State.fullDefault, State.startInference, if_pos hlines]
        exact h.polled hf 0 (by simp [hrunning]) (by simp [hrunning])
      · simp only [State.fullDefault, State.startInference, if_neg hlines]
        exact h.polled hf 0 (by simp [hrunning]) (by simp [hrunning])

theorem poll (h : Inv s finished) {i elapsed : ℕ} (hf : s.flights[i]? = some f)
    (helapsed : f.elapsed = some elapsed) (hplaced : Placed s (.poll i)) :
    ∃ finished, Inv (s.poll i f (elapsed + pollMs)) finished := by
  obtain ⟨-, -, -, -, -, hown, hsingle, -, -⟩ := h.current hf
  unfold State.poll
  split_ifs with hends
  · have hover : s.running = [] := by
      refine List.eq_nil_iff_forall_not_mem.2 fun inference hin => ?_
      exact hplaced f hf (hends.imp_right fun hlimit => ⟨elapsed, helapsed, hlimit⟩) inference hin
        (hown inference hin)
    refine ⟨_, h.ended hf hover ?_⟩
    dsimp only
    split_ifs
    · exact .inr rfl
    · exact .inl rfl
  · exact ⟨finished, h.polled hf _ hown hsingle⟩

/-- A line goes to the job whose audio it was printed for. -/
theorem print (h : Inv s finished) {k : ℕ} {inference : Inference} {line : List Char}
    {rest : List (List Char)} (hk : s.running[k]? = some inference) :
    Inv (s.print k inference line rest) finished := by
  rcases h.work with ⟨-, -, -, hrunning⟩ | ⟨f, hflights, hbusy, hhook, htext, hown, hsingle, hwait⟩
  · rw [hrunning] at hk
    cases hk
  have hf : s.flights[0]? = some f := by rw [hflights]; rfl
  obtain ⟨-, -, -, -, -, -, -, -, hnot⟩ := h.current hf
  have hjob : inference.job = f.job.id := hown _ (List.mem_of_getElem? hk)
  have hprint : (s.print k inference line rest).flights = [f.print line] := by
    unfold State.print
    simp [hhook, hflights]
  have hleft : ∀ inference' ∈ (s.print k inference line rest).running,
      inference'.job = f.job.id := by
    intro inference' hin
    unfold State.print at hin
    dsimp only at hin
    split_ifs at hin
    · exact hown _ (List.mem_of_mem_eraseIdx hin)
    · rcases List.mem_or_eq_of_mem_set hin with hin | rfl
      · exact hown _ hin
      · exact hjob
  have hlen : (s.print k inference line rest).running.length ≤ 1 := by
    unfold State.print
    dsimp only
    split_ifs
    · exact Nat.le_trans (List.length_eraseIdx_le _ _) hsingle
    · rw [List.length_set]
      exact hsingle
  refine ⟨?_, h.numbered, h.audio, h.buffered, ?_, fun p hp => ?_, h.calls, fun c hc => ?_⟩
  · rw [hprint]
    show s.jobs = _
    rw [h.jobs, hflights]
    rfl
  · refine .busy (f.print line) hprint hbusy hhook ?_ hleft hlen fun hnone => ?_
    · show _ = transcriptOf (linesFor f.job.id (s.printed ++ [(inference.job, line)]))
      rw [linesFor_concat, if_pos hjob]
      exact f.print_transcript line htext
    · have hempty := hwait hnone
      rw [hempty] at hk
      cases hk
  · rw [hprint]
    have hall := h.printed
    rw [hflights] at hall
    rcases List.mem_append.1 hp with hp | hp
    · exact hall p hp
    · obtain rfl := List.mem_singleton.1 hp
      show inference.job ∈ _
      rw [hjob]
      simp [Flight.print]
  · -- the utterances that are over have been delivered as they were
    obtain ⟨⟨job, hin, hid, hch⟩, hsame⟩ := h.delivered c hc
    refine ⟨⟨job, hin, hid, hch⟩, ?_⟩
    have hne : inference.job ≠ c.job := by
      rw [hjob, ← hid]
      exact fun heq => hnot (heq ▸ List.mem_map.2 ⟨job, hin, rfl⟩)
    show c.text = JsText.trim (transcriptOf (linesFor c.job (s.printed ++ [(inference.job, line)])))
    rw [linesFor_concat, if_neg hne, List.append_nil]
    exact hsame

/-- **One step.** -/
theorem step (h : Inv s finished) (hplaced : Placed s a) (hstep : step s a = some t) :
    ∃ finished, Inv t finished := by
  cases a with
  | whisperReady ready =>
      obtain rfl := Option.some.inj hstep
      exact ⟨finished, h.jobs, h.numbered, h.audio, h.buffered, h.work.of_eq rfl rfl rfl rfl rfl,
        h.printed, h.calls, h.delivered⟩
  | feedAudio ch pcm48k srcIP now =>
      obtain rfl := Option.some.inj hstep
      exact ⟨finished, h.feedAudio ch pcm48k srcIP now⟩
  | checkSilenceAndTranscribe now =>
      obtain rfl := Option.some.inj hstep
      exact ⟨finished, h.checkSilenceAndTranscribe now⟩
  | reset =>
      obtain rfl := Option.some.inj hstep
      exact ⟨finished, h.reset⟩
  | fullDefault i result =>
      unfold Captions.step at hstep
      dsimp only at hstep
      split at hstep
      · cases hstep
      · rename_i f hf
        split_ifs at hstep with hwait
        obtain rfl := Option.some.inj hstep
        exact h.fullDefault hf hwait hplaced
  | poll i =>
      unfold Captions.step at hstep
      dsimp only at hstep
      split at hstep
      · cases hstep
      · rename_i f hf
        obtain ⟨elapsed, helapsed, rfl⟩ := Option.map_eq_some_iff.1 hstep
        exact h.poll hf helapsed hplaced
  | print k =>
      unfold Captions.step at hstep
      dsimp only at hstep
      split at hstep
      · cases hstep
      · rename_i inference hk
        split at hstep
        · cases hstep
        · obtain rfl := Option.some.inj hstep
          exact ⟨finished, h.print hk⟩

end Inv

/-- **Captions belong to their utterance** in every state of a run whose actions
are well placed. -/
theorem owned_throughout {actions : List (Action α)}
    (hplaced : Always step Placed (initial : State α) actions) :
    Throughout step Owned (initial : State α) actions :=
  Throughout.of_invariant (I := fun s => ∃ finished, Inv s finished) hplaced ⟨[], Inv.initial⟩
    (fun _ _ _ h ha hstep => h.choose_spec.step ha hstep) fun _ h => h.choose_spec.owned

/-! ## Two runs -/

/-- A second and a half of silence, at the rate it is fed with. -/
def utterance : List ℤ := List.replicate 24000 0

def segmentLine : List Char := "[00:00:00.000 --> 00:00:02.000]   alpha".toList

def timingsLine : List Char := "whisper_print_timings: total time".toList

/-- An utterance whose inference is done in time. -/
def promptActions : List (Action ℤ) :=
  [.whisperReady true, .feedAudio 1 utterance "10.41.0.1" 0, .checkSilenceAndTranscribe 2000,
    .fullDefault 0 (.returns [segmentLine, timingsLine]), .poll 0, .print 0, .print 0, .poll 0]

theorem owned_promptActions :
    Always step Placed initial promptActions ∧ Throughout step Owned initial promptActions := by
  have hplaced : Always step Placed initial promptActions := by decide +kernel
  exact ⟨hplaced, owned_throughout hplaced⟩

/-- Two utterances; the inference of the first has printed nothing when its 30
seconds are over. -/
def slowActions : List (Action ℤ) :=
  [.whisperReady true, .feedAudio 1 utterance "10.41.0.1" 0, .feedAudio 2 utterance "10.41.0.2" 0,
    .checkSilenceAndTranscribe 2000, .fullDefault 0 (.returns [segmentLine, timingsLine])] ++
  List.replicate 150 (.poll 0) ++ [.fullDefault 0 (.returns [timingsLine])]

/-- And then prints. -/
def lateActions : List (Action ℤ) := [.print 0, .print 0, .poll 0]

/-- Two inferences run, and what the first prints becomes the second utterance's
caption, on another channel. -/
theorem not_owned_slowActions :
    ∃ s t, Run step initial slowActions s ∧ s.running.length = 2 ∧ Run step s lateActions t ∧
      t.calls = [{ job := 1, ch := 2, ip := "10.41.0.2", text := "alpha".toList }] ∧
      linesFor 1 t.printed = [] ∧ ¬Owned s ∧ ¬Owned t := by
  have hrun : (slowActions.foldlM step initial).any (fun s => decide (s.running.length = 2) &&
      (lateActions.foldlM step s).any fun t =>
        decide (t.calls = [{ job := 1, ch := 2, ip := "10.41.0.2", text := "alpha".toList }] ∧
          linesFor 1 t.printed = [])) = true := by decide +kernel
  obtain ⟨s, hs, hrest⟩ := (Option.any_eq_true _ _).1 hrun
  rw [Bool.and_eq_true, decide_eq_true_eq] at hrest
  obtain ⟨t, ht, hlate⟩ := (Option.any_eq_true _ _).1 hrest.2
  obtain ⟨hcalls, hlines⟩ := of_decide_eq_true hlate
  refine ⟨s, t, .of_foldlM hs, hrest.1, .of_foldlM ht, hcalls, hlines, fun howned => ?_,
    fun howned => ?_⟩
  · have hsingle := howned.single
    omega
  · obtain ⟨job, -, -, -, -, htext⟩ := howned.text _ (hcalls ▸ List.mem_cons_self)
    rw [hlines] at htext
    exact absurd htext (by decide)

end Captions

end OpenManet
