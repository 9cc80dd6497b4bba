import OpenManet.Lib.Machine
import Mathlib.Logic.Function.Basic
import Mathlib.Data.Int.Notation
/-!
# The frontend server — the caption model

`internal/frontend/whisper.go`: a model file that is downloaded by a goroutine,
removed by a request and served to browsers as soon as it is there. The state the
replies carry is guarded by a mutex; the file is not, and a reply says the model
is available if the file exists.

One hold of the mutex is one step, and so is each access to the disk: making or
removing the directory, opening the file, writing what one `Read` returned. A file
is an inode: one that is removed while it is open is written on, and one that is
opened again is truncated. What the model server sends, in which pieces, and
where anything fails is up to the environment; a body of no announced length has
a `ContentLength` below one. A wrong method is answered before anything else and
is no step.
-/

namespace OpenManet

namespace Whisper

/-- The download states. -/
inductive Phase where
  | idle
  | ready
  | downloading
  | error
  deriving DecidableEq

abbrev Bytes : Type := List UInt8

/-! ## The disk -/

/-- `whisperDir`: whether it is there, the file under `whisperModelFile`, and
every inode there has been. -/
structure Disk where
  dir : Bool := false
  path : Option ℕ := none
  content : ℕ → Bytes := fun _ => []
  next : ℕ := 0

namespace Disk

variable (d : Disk)

/-- What a `Stat` or a `Get` of the model finds. -/
def file : Option Bytes := d.path.map d.content

/-- `os.MkdirAll`. -/
def mkdirAll : Disk := { d with dir := true }

/-- `os.RemoveAll`. -/
def removeAll : Disk := { d with dir := false, path := none }

/-- `os.OpenFile` with `O_CREATE|O_WRONLY|O_TRUNC`, in a directory that is
there. -/
def openFile : Disk × ℕ :=
  match d.path with
  | some i => ({ d with content := Function.update d.content i [] }, i)
  | none =>
      ({ d with
        path := some d.next
        content := Function.update d.content d.next []
        next := d.next + 1 }, d.next)

/-- A write at an offset. -/
def writeAt (fd offset : ℕ) (data : Bytes) : Disk :=
  let old := d.content fd
  { d with
    content := Function.update d.content fd
      (old.take offset ++ List.replicate (offset - old.length) 0 ++ data ++
        old.drop (offset + data.length)) }

end Disk

/-! ## The goroutine -/

/-- What can go wrong in `downloadWhisperModel`. -/
inductive Failure where
  | mkdir (err : String)
  | url (err : String)
  | download (err : String)
  | status (code : ℕ)
  | create (err : String)
  | write (err : String)
  | read (err : String)

/-- The message it is reported with. -/
def Failure.msg : Failure → String
  | mkdir err => "failed to create whisper directory: " ++ err
  | url err => "invalid download URL: " ++ err
  | download err => "download failed: " ++ err
  | status code => "download returned status " ++ toString code
  | create err => "failed to create file: " ++ err
  | write err => "write failed: " ++ err
  | read err => "read failed: " ++ err

/-- A download whose file is open: the body that is being sent, its announced
length, the inode, and how much has been written. -/
structure Download where
  body : Bytes
  totalSize : ℤ
  fd : ℕ
  downloaded : ℕ

namespace Download

/-- What is still to come. -/
def left (d : Download) : Bytes := d.body.drop d.downloaded

/-- What has been written. -/
def soFar (d : Download) : Bytes := d.body.take d.downloaded

end Download

/-- Where a goroutine of `downloadWhisperModel` stands. -/
inductive Goroutine where
  | mkdir
  | request
  | openFile (body : Bytes) (totalSize : ℤ)
  /-- At `resp.Body.Read`. -/
  | reading (d : Download)
  /-- It has written what was read. -/
  | progress (d : Download)
  | ready
  /-- `setError`, at its `RemoveAll`, with the file if it had been opened. -/
  | removing (msg : String) (d : Option Download)
  | failed (msg : String)

/-- Which failures there are where. What is written before a write fails has been
written. -/
def Goroutine.fails : Goroutine → Failure → Bool
  | .mkdir, .mkdir _ => true
  | .request, .url _ | .request, .download _ => true
  | .request, .status code => code ≠ 200
  | .openFile _ _, .create _ => true
  | .reading _, .write _ | .reading _, .read _ | .progress _, .write _ => true
  | _, _ => false

/-- The file a goroutine has open. -/
def Goroutine.download : Goroutine → Option Download
  | .reading d | .progress d => some d
  | .removing _ d => d
  | _ => none

/-- What `whisperState` holds. -/
structure WhisperState where
  state : Phase
  err : String
  progress : ℤ

/-- What happens to a goroutine. -/
inductive Event where
  /-- Its next step goes as it should. -/
  | proceed
  /-- The model server answers 200. -/
  | response (body : Bytes) (totalSize : ℤ)
  /-- `Read` returns so many bytes, and they are written. -/
  | chunk (n : ℕ)
  | fail (why : Failure)

/-- What a goroutine's step leaves: the disk, the state, the body it is sent, and
where it stands, if it has not returned. -/
structure Outcome where
  disk : Disk
  whisper : WhisperState
  body : Option Bytes := none
  next : Option Goroutine

/-- **The steps of `downloadWhisperModel`.** -/
def goroutineStep (disk : Disk) (w : WhisperState) (g : Goroutine) : Event → Option Outcome
  | .fail why =>
      if g.fails why then some { disk, whisper := w, next := some (.removing why.msg g.download) }
      else none
  | .response body totalSize =>
      match g with
      | .request =>
          some { disk, whisper := w, body := some body, next := some (.openFile body totalSize) }
      | _ => none
  | .chunk n =>
      match g with
      | .reading d =>
          if 0 < n ∧ n ≤ 32 * 1024 ∧ n ≤ d.left.length then
            let disk := disk.writeAt d.fd d.downloaded (d.left.take n)
            let d := { d with downloaded := d.downloaded + n }
            some { disk, whisper := w, next := some (if d.totalSize > 0 then .progress d else .reading d) }
          else none
      | _ => none
  | .proceed =>
      match g with
      | .mkdir => some { disk := disk.mkdirAll, whisper := w, next := some .request }
      | .request => none
      | .openFile body totalSize =>
          if disk.dir then
            let (disk, fd) := disk.openFile
            some { disk, whisper := w, next := some (.reading ⟨body, totalSize, fd, 0⟩) }
          else none
      | .reading d => if d.left = [] then some { disk, whisper := w, next := some .ready } else none
      | .progress d =>
          some { disk
                 whisper := { w with progress := (d.downloaded * 100 : ℤ).tdiv d.totalSize }
                 next := some (.reading d) }
      | .ready => some { disk, whisper := { w with state := .ready, progress := 100 }, next := none }
      | .removing msg _ => some { disk := disk.removeAll, whisper := w, next := some (.failed msg) }
      | .failed msg => some { disk, whisper := { w with state := .error, err := msg }, next := none }

/-! ## The server -/

/-- `whisperStatusResponse`. -/
structure WhisperStatusResponse where
  state : Phase
  err : String
  progress : ℤ
  available : Bool

/-- A status reply, with what stood under the model's path when it was made, and
the bodies that had been sent by then. -/
structure Reply where
  resp : WhisperStatusResponse
  file : Option Bytes
  bodies : List Bytes

/-- The server: its state, the goroutines that are live, how many removals are
between the directory and the state, and what is kept for the record. -/
structure Server where
  disk : Disk
  whisper : WhisperState := ⟨.idle, "", 0⟩
  goroutines : List Goroutine := []
  removals : ℕ := 0
  bodies : List Bytes := []
  replies : List Reply := []

namespace Server

variable (s : Server)

/-- `whisperModelExists`. -/
def whisperModelExists : Bool := s.disk.path.isSome

/-- What both status handlers read. -/
def response : WhisperStatusResponse :=
  ⟨s.whisper.state, s.whisper.err, s.whisper.progress, s.whisperModelExists⟩

/-- What `handleWhisperStatus` answers. -/
def handleWhisperStatus : WhisperStatusResponse :=
  if s.response.available ∧ s.response.state = .idle then { s.response with state := .ready }
  else s.response

/-- What `handleWhisperDownloadStatus` answers. -/
def handleWhisperDownloadStatus : WhisperStatusResponse := s.response

/-- An answer is given. -/
def reply (resp : WhisperStatusResponse) : Server :=
  { s with replies := s.replies ++ [⟨resp, s.disk.file, s.bodies⟩] }

/-- `handleWhisperDownload`; a download that is in progress is a conflict. -/
def handleWhisperDownload : Server :=
  if s.whisper.state = .downloading then s
  else { s with whisper := ⟨.downloading, "", 0⟩, goroutines := s.goroutines ++ [.mkdir] }

end Server

/-- Who does what next. -/
inductive Action where
  | status
  | downloadStatus
  | download
  /-- `handleWhisperRemove`, its `RemoveAll`. -/
  | remove
  /-- The `RemoveAll` fails, and that is the answer. -/
  | removeFails
  /-- `handleWhisperRemove`, its state. -/
  | removed
  | goroutine (i : ℕ) (e : Event)

/-- The machine. -/
def step (s : Server) : Action → Option Server
  | .status => some (s.reply s.handleWhisperStatus)
  | .downloadStatus => some (s.reply s.handleWhisperDownloadStatus)
  | .download => some s.handleWhisperDownload
  | .remove => some { s with disk := s.disk.removeAll, removals := s.removals + 1 }
  | .removeFails => some s
  | .removed =>
      if s.removals > 0 then
        some { s with whisper := ⟨.idle, "", 0⟩, removals := s.removals - 1 }
      else none
  | .goroutine i e =>
      match s.goroutines[i]? with
      | none => none
      | some g =>
          (goroutineStep s.disk s.whisper g e).map fun o =>
            { s with
              disk := o.disk
              whisper := o.whisper
              bodies := s.bodies ++ o.body.toList
              goroutines :=
                match o.next with
                | some g => s.goroutines.set i g
                | none => s.goroutines.eraseIdx i }

/-- The server as it starts: no model, or one that an earlier run of the daemon
had downloaded. -/
def start (model : Option Bytes) : Server where
  disk :=
    match model with
    | none => {}
    | some body => { dir := true, path := some 0, content := fun _ => body, next := 1 }
  bodies := model.toList

end Whisper

end OpenManet
