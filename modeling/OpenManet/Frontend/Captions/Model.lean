import OpenManet.Lib.JsText
import Mathlib.Logic.Function.Basic
import Mathlib.Data.Int.Notation
/-!
# The browser — captions

`services/whisperService.js`: audio is collected channel by channel, an
utterance is queued when its channel falls silent, and the queue is worked off
one job at a time. `whisper.cpp` prints on a worker what it recognises; the one
output hook there is belongs to the job under way, and a job is over when a line
of timings has come or after 30 seconds of polls.

Whose audio a line was printed for is not known to the program. The state
records it, with what was fed, queued and delivered; no function reads these.
Samples are of any type, times are those of `Date.now`, and the model is ready
or not whenever the environment says so. What an inference prints, when, and
whether `full_default` throws is up to the environment; the consumer does not
throw.
-/

namespace OpenManet

namespace Captions

/-! ## Lines of output -/

/-- A run of digits of a regular expression. -/
def digits : ℕ → List Char → Option (List Char)
  | 0, s => some s
  | n + 1, c :: s => if c.isDigit then digits n s else none
  | _ + 1, [] => none

/-- A time such as `00:00:02.000`. -/
def time (s : List Char) : Option (List Char) := do
  let s ← digits 2 s
  let s ← JsText.literal [':'] s
  let s ← digits 2 s
  let s ← JsText.literal [':'] s
  let s ← digits 2 s
  let s ← JsText.literal ['.'] s
  digits 3 s

/-- The regular expression of a segment at one place: what its group matches. -/
def segmentAt (s : List Char) : Option (List Char) := do
  let s ← JsText.literal ['['] s
  let s ← time s
  let s ← JsText.literal "-->".toList (s.dropWhile JsText.isSpace)
  let s ← time (s.dropWhile JsText.isSpace)
  let s ← JsText.literal [']'] s
  some ((s.dropWhile JsText.isSpace).takeWhile fun c => !JsText.isLineTerminator c)

/-- The text of a line that has a segment. -/
def segment (text : List Char) : Option (List Char) :=
  match text.tails.findSome? segmentAt with
  | none => none
  | some group => if JsText.trim group = [] then none else some (JsText.trim group)

def isTimings (text : List Char) : Bool :=
  text.tails.any fun s => "whisper_print_timings".toList.isPrefixOf s

/-! ## State -/

def whisperRate : ℕ := 16000

def whisperSilenceMs : ℤ := 1500

/-- `WHISPER_MIN_SEC * WHISPER_RATE`. -/
def minSamples : ℕ := whisperRate / 2

/-- `WHISPER_MAX_SEC * WHISPER_RATE`. -/
def maxSamples : ℕ := 30 * whisperRate

def pollMs : ℕ := 200

def maxMs : ℕ := 30000

/-- The channels of `CHANNELS_DEF`. -/
def channels : List ℕ := [1, 2, 3, 4, 5]

variable {α : Type*}

structure ChState (α : Type*) where
  audioBuf : List (List α)
  srcIP : String
  lastRx : ℤ
  pendingTranscribe : Bool

def ChState.empty : ChState α where
  audioBuf := []
  srcIP := ""
  lastRx := 0
  pendingTranscribe := false

/-- A queued utterance; they are numbered as they are queued. -/
structure Job (α : Type*) where
  id : ℕ
  ch : ℕ
  ip : String
  audio : List α
deriving DecidableEq

/-- A job whose processing has begun: its variables, and its timer. -/
structure Flight (α : Type*) where
  job : Job α
  transcript : List Char
  finished : Bool
  printCount : ℕ
  /-- None before `full_default` is called, and while it is polled. -/
  elapsed : Option ℕ
deriving DecidableEq

/-- An inference on the worker: the job whose audio it was given, and the lines
it has still to print. -/
structure Inference where
  job : ℕ
  lines : List (List Char)
deriving DecidableEq

/-- A call of `onTranscript`. -/
structure Call where
  job : ℕ
  ch : ℕ
  ip : String
  text : List Char
deriving DecidableEq

structure State (α : Type*) where
  /-- `whisperReady`, with an instance. -/
  whisperReady : Bool
  whisperBusy : Bool
  chState : ℕ → ChState α
  transcribeQueue : List (Job α)
  /-- `_whisperOutputHook`, by the job whose variables it writes. -/
  hook : Option ℕ
  flights : List (Flight α)
  running : List Inference
  /-- What has been fed, by channel, at the rate of the model. -/
  fed : ℕ → List α
  /-- The jobs that have been queued. -/
  jobs : List (Job α)
  /-- The lines that have been printed, each with its inference's job. -/
  printed : List (ℕ × List Char)
  /-- The calls of `onTranscript`. -/
  calls : List Call

/-- What `full_default` does, with what a worker it has started will print. -/
inductive Result where
  | returns (lines : List (List Char))
  | throws (lines : List (List Char))

/-- What `_whisperOutputHook` does to the variables of its job. -/
def Flight.print (f : Flight α) (text : List Char) : Flight α :=
  { f with
    printCount := f.printCount + 1
    transcript :=
      match segment text with
      | none => f.transcript
      | some t => f.transcript ++ t ++ [' ']
    finished := f.finished || isTimings text }

def initial : State α where
  whisperReady := false
  whisperBusy := false
  chState := fun _ => .empty
  transcribeQueue := []
  hook := none
  flights := []
  running := []
  fed := fun _ => []
  jobs := []
  printed := []
  calls := []

namespace State

variable (s : State α)

def setCh (ch : ℕ) (cs : ChState α) : State α :=
  { s with chState := Function.update s.chState ch cs }

def setPending (ch : ℕ) (pending : Bool) : State α :=
  s.setCh ch { s.chState ch with pendingTranscribe := pending }

/-! ## Feeding -/

/-- Every third sample, of whole threes. -/
def downsample : List α → List α
  | a :: _ :: _ :: rest => a :: downsample rest
  | _ => []

def feedAudio (ch : ℕ) (pcm48k : List α) (srcIP : String) (now : ℤ) : State α :=
  if ch ∈ channels then
    let cs := s.chState ch
    let ds := downsample pcm48k
    { s.setCh ch { cs with audioBuf := cs.audioBuf ++ [ds], lastRx := now, srcIP := srcIP } with
      fed := Function.update s.fed ch (s.fed ch ++ ds) }
  else s

/-! ## The queue -/

/-- `processQueue`, up to its `setTimeout`. -/
def processQueue : State α :=
  if s.whisperBusy then s
  else
    match s.transcribeQueue with
    | [] => s
    | job :: rest =>
      { s with
        whisperBusy := true
        transcribeQueue := rest
        hook := some job.id
        flights := s.flights ++
          [{ job := job, transcript := [], finished := false, printCount := 0, elapsed := none }] }

def queueTranscribe (ch : ℕ) : State α :=
  let cs := s.chState ch
  if cs.pendingTranscribe then s
  else
    let audio := cs.audioBuf.flatten
    if audio.length < minSamples then
      s.setCh ch { cs with audioBuf := [], pendingTranscribe := false }
    else
      let job : Job α :=
        { id := s.jobs.length, ch := ch, ip := cs.srcIP, audio := audio.take maxSamples }
      processQueue
        { s.setCh ch { cs with audioBuf := [], pendingTranscribe := true } with
          transcribeQueue := s.transcribeQueue ++ [job]
          jobs := s.jobs ++ [job] }

/-- The turn of `checkSilenceAndTranscribe` for a channel. -/
def checkChannel (now : ℤ) (ch : ℕ) : State α :=
  let cs := s.chState ch
  if cs.audioBuf.length = 0 then s
  else if now - cs.lastRx < whisperSilenceMs then s
  else s.queueTranscribe ch

def checkSilenceAndTranscribe (now : ℤ) : State α :=
  if s.whisperReady then channels.foldl (fun s ch => s.checkChannel now ch) s else s

def reset : State α :=
  { s with chState := fun ch => if ch ∈ channels then .empty else s.chState ch }

/-! ## A job -/

/-- A worker has been given the audio of a job, and will print the lines. -/
def startInference (job : ℕ) (lines : List (List Char)) : State α :=
  if lines = [] then s else { s with running := s.running ++ [{ job := job, lines := lines }] }

/-- The end of a job, delivered or failed. -/
def endJob (f : Flight α) : State α :=
  processQueue { s.setPending f.job.ch false with hook := none, whisperBusy := false }

/-- The timer of the job has fired: `full_default` is called. -/
def fullDefault (i : ℕ) (f : Flight α) : Result → State α
  | .returns lines =>
    { s.startInference f.job.id lines with flights := s.flights.set i { f with elapsed := some 0 } }
  | .throws lines =>
    endJob { s.startInference f.job.id lines with flights := s.flights.eraseIdx i } f

def finalize (f : Flight α) : State α :=
  let cleaned := JsText.trim f.transcript
  endJob
    { s with
      calls :=
        if cleaned ≠ [] ∧ cleaned ≠ "[BLANK_AUDIO]".toList ∧ 1 < (cleaned.map Utf16.units).sum then
          s.calls ++ [{ job := f.job.id, ch := f.job.ch, ip := f.job.ip, text := cleaned }]
        else s.calls }
    f

/-- A turn of the `setInterval` of a job. -/
def poll (i : ℕ) (f : Flight α) (elapsed : ℕ) : State α :=
  if f.finished ∨ maxMs ≤ elapsed then finalize { s with flights := s.flights.eraseIdx i } f
  else { s with flights := s.flights.set i { f with elapsed := some elapsed } }

/-- A worker prints a line, and the hook gets it. -/
def print (k : ℕ) (inference : Inference) (line : List Char) (rest : List (List Char)) : State α :=
  { s with
    printed := s.printed ++ [(inference.job, line)]
    running :=
      if rest = [] then s.running.eraseIdx k
      else s.running.set k { inference with lines := rest }
    flights :=
      match s.hook with
      | none => s.flights
      | some id => s.flights.map fun f => if f.job.id = id then f.print line else f }

end State

/-! ## Steps -/

inductive Action (α : Type*) where
  | whisperReady (ready : Bool)
  | feedAudio (ch : ℕ) (pcm48k : List α) (srcIP : String) (now : ℤ)
  | checkSilenceAndTranscribe (now : ℤ)
  | reset
  /-- The `setTimeout` of the flight at this place fires. -/
  | fullDefault (i : ℕ) (result : Result)
  /-- The `setInterval` of the flight at this place fires. -/
  | poll (i : ℕ)
  /-- The inference at this place prints its next line. -/
  | print (k : ℕ)

def step (s : State α) : Action α → Option (State α)
  | .whisperReady ready => some { s with whisperReady := ready }
  | .feedAudio ch pcm48k srcIP now => some (s.feedAudio ch pcm48k srcIP now)
  | .checkSilenceAndTranscribe now => some (s.checkSilenceAndTranscribe now)
  | .reset => some s.reset
  | .fullDefault i result =>
    match s.flights[i]? with
    | none => none
    | some f => if f.elapsed = none then some (s.fullDefault i f result) else none
  | .poll i =>
    match s.flights[i]? with
    | none => none
    | some f => f.elapsed.map fun elapsed => s.poll i f (elapsed + pollMs)
  | .print k =>
    match s.running[k]? with
    | none => none
    | some inference =>
      match inference.lines with
      | [] => none
      | line :: rest => some (s.print k inference line rest)

end Captions

end OpenManet
