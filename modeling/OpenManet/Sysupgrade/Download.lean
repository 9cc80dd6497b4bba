import OpenManet.Sysupgrade.Checksum
import Mathlib.Data.Int.Notation
/-!
# Downloading and verifying an image

`internal/sysupgrade/download.go`, and the part of `runUpgrade` before the
runner: the sums file is fetched and looked up, the image streamed into the
destination file and hashed on the way, and the two digests compared.
Everything that can fail on that way is an input: `Env` holds the answers of
the file system and of the two requests, and a cancelled context shows up as
a request that fails or a copy that stops. The hash is a parameter.

The functions return the destination file as they leave it, with the failure
if there was one; `runUpgrade` succeeds when it gets to the runner.
-/

namespace OpenManet

namespace Sysupgrade

/-- `Asset`, as far as it is read here. -/
structure Asset where
  name : Bytes
  sizeBytes : ℤ := 0
deriving DecidableEq, Repr

/-- The name of the sums asset, `sha256sums`. -/
def sumsName : Bytes := [115, 104, 97, 50, 53, 54, 115, 117, 109, 115]

/-- The body of a download as the copy loop meets it, one turn at a time. -/
inductive Feed where
  /-- A read, written out. -/
  | chunk (bytes : Bytes) (rest : Feed)
  /-- A read that reports the end. -/
  | eof (bytes : Bytes)
  /-- A read that fails. -/
  | broken (bytes : Bytes)
  /-- A write that fails, with part of the read on disk. -/
  | unwritten (written : Bytes)
  /-- The context is cancelled. -/
  | canceled
deriving DecidableEq, Repr

/-- The answers of the file system and the network. -/
structure Env where
  /-- The request for the sums file. -/
  sums : Option Reply
  /-- `os.MkdirAll` and `Statfs` of the space check. -/
  spaceDir : Bool := true
  free : Option ℤ := some 0
  destDir : Bool := true
  /-- The request for the image: its status and body. -/
  image : Option (ℕ × Feed)
  create : Bool := true
  sync : Bool := true
  close : Bool := true
  /-- `os.Remove` of the destination file. -/
  remove : Bool := true
  /-- `os.MkdirAll` before the runner. -/
  logDir : Bool := true

section Model

variable (sha256 : Bytes → Bytes) (env : Env)

/-- `freeSpaceMargin`. -/
def freeSpaceMargin : ℤ := 11

/-- `preflightSpace`. -/
def preflightSpace (wantBytes : ℤ) : Except Failure Unit :=
  if wantBytes ≤ 0 then .ok ()
  else if !env.spaceDir then .error .mkdir
  else
    match env.free with
    | none => .error .statfs
    | some free =>
      if free < wantBytes * freeSpaceMargin / 10 then .error .insufficientSpace else .ok ()

/-- `copyWithProgress` into the file and the hash. -/
def copyWithProgress : Feed → Bytes → Bytes → Bytes × Bytes × Except Failure Unit
  | .chunk bytes rest, file, hashed => copyWithProgress rest (file ++ bytes) (hashed ++ bytes)
  | .eof bytes, file, hashed => (file ++ bytes, hashed ++ bytes, .ok ())
  | .broken bytes, file, hashed => (file ++ bytes, hashed ++ bytes, .error .read)
  | .unwritten written, file, hashed => (file ++ written, hashed, .error .write)
  | .canceled, file, hashed => (file, hashed, .error .canceled)

/-- The file after `os.Remove`. -/
def Env.removed (file : Bytes) : Option Bytes := if env.remove then none else some file

/-- `streamDownloadVerify` from the destination file on. -/
def streamInto (feed : Feed) (expectedHex : Bytes) : Option Bytes × Except Failure Unit :=
  let (file, hashed, copied) := copyWithProgress feed [] []
  match copied with
  | .error e => (env.removed file, .error e)
  | .ok () =>
    if !env.sync then (env.removed file, .error .fsync)
    else if !env.close then (env.removed file, .error .close)
    else if expectedHex.isEmpty then (some file, .ok ())
    else
      match verifyDigest expectedHex (hexEncode (sha256 hashed)) with
      | .error e => (env.removed file, .error e)
      | .ok () => (some file, .ok ())

/-- `streamDownloadVerify`. -/
def streamDownloadVerify (asset : Asset) (expectedHex : Bytes) (dest : Option Bytes) :
    Option Bytes × Except Failure Unit :=
  match preflightSpace env asset.sizeBytes with
  | .error e => (dest, .error e)
  | .ok () =>
    if !env.destDir then (dest, .error .mkdir)
    else
      match env.image with
      | none => (dest, .error .request)
      | some (statusCode, feed) =>
        if statusCode ≠ 200 then (dest, .error .status)
        else if !env.create then (dest, .error .create)
        else streamInto sha256 env feed expectedHex

/-- `downloadAndVerify`. -/
def downloadAndVerify (assets : List Asset) (asset : Asset) (dest : Option Bytes) :
    Option Bytes × Except Failure Unit :=
  match assets.find? fun a => a.name == sumsName with
  | none => (dest, .error .checksumNotFound)
  | some _ =>
    match fetchSHA256Sum env.sums asset.name with
    | .error e => (dest, .error e)
    | .ok expected =>
      if expected.isEmpty then (dest, .error .checksumNotFound)
      else streamDownloadVerify sha256 env asset expected dest

/-- `runUpgrade` up to the call of the runner. -/
def runUpgradeToRunner (assets : List Asset) (asset : Asset) (dest : Option Bytes) :
    Option Bytes × Except Failure Unit :=
  match downloadAndVerify sha256 env assets asset dest with
  | (dest, .error e) => (dest, .error e)
  | (dest, .ok ()) => if !env.logDir then (dest, .error .mkdirLog) else (dest, .ok ())

end Model

/-- The failures before the destination file is created. -/
def Failure.beforeCreate : Failure → Bool
  | .canceled | .read | .write | .fsync | .close | .checksumMismatch | .mkdirLog => false
  | _ => true

/-! ## The copy -/

/-- **A copy that ends has hashed what it wrote.** -/
theorem copyWithProgress_ok {feed : Feed} {file hashed file' hashed' : Bytes}
    (h : copyWithProgress feed file hashed = (file', hashed', .ok ())) (heq : file = hashed) :
    file' = hashed' := by
  induction feed generalizing file hashed with
  | chunk bytes rest ih => exact ih h (by rw [heq])
  | eof bytes =>
      simp only [copyWithProgress, Prod.mk.injEq] at h
      rw [← h.1, ← h.2.1, heq]
  | broken bytes | unwritten written | canceled => simp [copyWithProgress] at h

theorem copyWithProgress_error {feed : Feed} {file hashed file' hashed' : Bytes} {e : Failure}
    (h : copyWithProgress feed file hashed = (file', hashed', .error e)) :
    e.beforeCreate = false := by
  induction feed generalizing file hashed with
  | chunk bytes rest ih => exact ih h
  | eof bytes => simp [copyWithProgress] at h
  | broken bytes | unwritten written | canceled =>
      simp only [copyWithProgress, Prod.mk.injEq, Except.error.injEq] at h
      rw [← h.2.2]
      rfl

/-! ## The download -/

section Download

variable {sha256 : Bytes → Bytes} {env : Env} {asset : Asset} {expected : Bytes}
variable {dest d : Option Bytes}

/-- What the download leaves behind: a file with the digest expected, or no
file. -/
theorem streamInto_ok {feed : Feed} (hne : expected.isEmpty = false)
    (hlower : toLower expected = expected)
    (h : streamInto sha256 env feed expected = (d, .ok ())) :
    ∃ file, d = some file ∧ hexEncode (sha256 file) = expected := by
  unfold streamInto at h
  rcases hcopy : copyWithProgress feed [] [] with ⟨file, hashed, copied⟩
  rw [hcopy] at h
  cases copied with
  | error e => simp at h
  | ok u =>
      have heq := copyWithProgress_ok hcopy rfl
      subst heq
      simp only [hne, Bool.false_eq_true, if_false] at h
      split at h
      · simp at h
      split at h
      · simp at h
      split at h
      · simp at h
      · rename_i hverify
        simp only [Prod.mk.injEq, and_true] at h
        exact ⟨file, h.symm, ((verifyDigest_eq_ok hlower).1 hverify).symm⟩

theorem verifyDigest_error {a b : Bytes} {e : Failure} (h : verifyDigest a b = .error e) :
    e = .checksumMismatch := by
  unfold verifyDigest at h
  split at h
  · cases h
  · exact (Except.error.inj h).symm

theorem streamInto_error {feed : Feed} {e : Failure}
    (h : streamInto sha256 env feed expected = (d, .error e)) :
    e.beforeCreate = false ∧ ∃ file, d = env.removed file := by
  unfold streamInto at h
  rcases hcopy : copyWithProgress feed [] [] with ⟨file, hashed, copied⟩
  rw [hcopy] at h
  cases copied with
  | error e' =>
      simp only [Prod.mk.injEq, Except.error.injEq] at h
      exact ⟨h.2 ▸ copyWithProgress_error hcopy, file, h.1.symm⟩
  | ok u =>
      dsimp only at h
      split at h
      · cases h; exact ⟨rfl, file, rfl⟩
      split at h
      · cases h; exact ⟨rfl, file, rfl⟩
      split at h
      · cases h
      split at h
      · rename_i hverify
        cases h
        exact ⟨by rw [verifyDigest_error hverify]; rfl, file, rfl⟩
      · cases h

/-- Before the destination file is created it is left as it was. -/
theorem streamDownloadVerify_cases :
    (∃ e, e.beforeCreate = true ∧
      streamDownloadVerify sha256 env asset expected dest = (dest, .error e)) ∨
    ∃ feed, streamDownloadVerify sha256 env asset expected dest =
      streamInto sha256 env feed expected := by
  unfold streamDownloadVerify
  cases hspace : preflightSpace env asset.sizeBytes with
  | error e =>
      refine .inl ⟨e, ?_, rfl⟩
      unfold preflightSpace at hspace
      split at hspace
      · cases hspace
      split at hspace
      · cases hspace; rfl
      split at hspace
      · cases hspace; rfl
      split at hspace
      · cases hspace; rfl
      · cases hspace
  | ok u =>
      dsimp only
      split
      · exact .inl ⟨.mkdir, rfl, rfl⟩
      split
      · exact .inl ⟨.request, rfl, rfl⟩
      split
      · exact .inl ⟨.status, rfl, rfl⟩
      split
      · exact .inl ⟨.create, rfl, rfl⟩
      · exact .inr ⟨_, rfl⟩

end Download

/-! ## The lookup -/

/-- A digest that was looked up is the one the part of the sums file that was
read lists first for the asset. -/
theorem fetchSHA256Sum_ok {reply : Option Reply} {name digest : Bytes}
    (h : fetchSHA256Sum reply name = .ok digest) :
    ∃ r, reply = some r ∧ Lists (linesFrom [] r.readSums) name digest := by
  unfold fetchSHA256Sum at h
  cases reply with
  | none => cases h
  | some r =>
      dsimp only at h
      split at h
      · cases h
      · exact ⟨r, rfl, (scanSums_eq_ok.1 h).1⟩

theorem scanSums_error {name : Bytes} {broken : Bool} {lines : List Bytes} {e : Failure}
    (h : scanSums name broken lines = .error e) : e.beforeCreate = true := by
  induction lines with
  | nil =>
      simp only [scanSums, Except.error.injEq] at h
      rw [← h]
      split <;> rfl
  | cons line rest ih =>
      simp only [scanSums] at h
      split at h
      · split at h
        · split at h
          · cases h
          · cases h; rfl
        · exact ih h
      · exact ih h

theorem fetchSHA256Sum_error {reply : Option Reply} {name : Bytes} {e : Failure}
    (h : fetchSHA256Sum reply name = .error e) : e.beforeCreate = true := by
  unfold fetchSHA256Sum at h
  cases reply with
  | none => cases h; rfl
  | some r =>
      dsimp only at h
      split at h
      · cases h; rfl
      · exact scanSums_error h

theorem Lists.toLower_eq {lines : List Bytes} {name digest : Bytes} (h : Lists lines name digest) :
    toLower digest = digest := by
  obtain ⟨-, -, -, field, -, -, rfl, -⟩ := h
  exact toLower_toLower field

/-- `downloadAndVerify` stops short of the download, or is the download
against the digest looked up. -/
theorem downloadAndVerify_cases {sha256 : Bytes → Bytes} {env : Env} {assets : List Asset}
    {asset : Asset} {dest : Option Bytes} :
    (∃ e, e.beforeCreate = true ∧
      downloadAndVerify sha256 env assets asset dest = (dest, .error e)) ∨
    ∃ a r expected, a ∈ assets ∧ a.name = sumsName ∧ env.sums = some r ∧
      Lists (linesFrom [] r.readSums) asset.name expected ∧ expected.isEmpty = false ∧
      downloadAndVerify sha256 env assets asset dest =
        streamDownloadVerify sha256 env asset expected dest := by
  unfold downloadAndVerify
  cases hfind : assets.find? fun a => a.name == sumsName with
  | none => exact .inl ⟨.checksumNotFound, rfl, rfl⟩
  | some a =>
      dsimp only
      cases hfetch : fetchSHA256Sum env.sums asset.name with
      | error e => exact .inl ⟨e, fetchSHA256Sum_error hfetch, rfl⟩
      | ok expected =>
          obtain ⟨r, hr, hlists⟩ := fetchSHA256Sum_ok hfetch
          dsimp only
          cases hempty : expected.isEmpty with
          | true => exact .inl ⟨.checksumNotFound, rfl, rfl⟩
          | false =>
              exact .inr ⟨a, r, expected, List.mem_of_find?_eq_some hfind,
                by simpa using List.find?_some hfind, hr, hlists, hempty, rfl⟩

/-! ## To the runner -/

/-- **What is flashed was verified, and what is not is cleaned up.** The
runner gets a file whose digest is the one that the part of the sums file
that was read lists first for the asset's name. Where the upgrade stops
before it, a destination file it had not come to create is as it was, and
one it had created is gone if it could be removed. -/
theorem flash_verified (sha256 : Bytes → Bytes) (env : Env) (assets : List Asset) (asset : Asset)
    (dest : Option Bytes) :
    (∀ d, runUpgradeToRunner sha256 env assets asset dest = (d, .ok ()) →
      ∃ a r file, a ∈ assets ∧ a.name = sumsName ∧ env.sums = some r ∧ d = some file ∧
        Lists (linesFrom [] r.readSums) asset.name (hexEncode (sha256 file))) ∧
    (∀ d e, runUpgradeToRunner sha256 env assets asset dest = (d, .error e) → e ≠ .mkdirLog →
      (e.beforeCreate = true → d = dest) ∧
      (e.beforeCreate = false → env.remove = true → d = none)) := by
  constructor
  · intro d h
    unfold runUpgradeToRunner at h
    obtain ⟨e, -, heq⟩ | ⟨a, r, expected, ha, hname, hr, hlists, hne, heq⟩ :=
      @downloadAndVerify_cases sha256 env assets asset dest
    · simp [heq] at h
    obtain ⟨e, -, heq'⟩ | ⟨feed, heq'⟩ := @streamDownloadVerify_cases sha256 env asset expected dest
    · simp [heq, heq'] at h
    rw [heq, heq'] at h
    split at h
    · cases h
    · rename_i d' hstream
      split at h
      · cases h
      · cases h
        obtain ⟨file, hd, hhash⟩ := streamInto_ok hne hlists.toLower_eq hstream
        exact ⟨a, r, file, ha, hname, hr, hd, hhash ▸ hlists⟩
  · intro d e h hlog
    unfold runUpgradeToRunner at h
    obtain ⟨e', he', heq⟩ | ⟨a, r, expected, -, -, -, -, -, heq⟩ :=
      @downloadAndVerify_cases sha256 env assets asset dest
    · rw [heq] at h
      cases h
      exact ⟨fun _ => rfl, fun hcon => absurd (he'.symm.trans hcon) nofun⟩
    obtain ⟨e', he', heq'⟩ | ⟨feed, heq'⟩ :=
      @streamDownloadVerify_cases sha256 env asset expected dest
    · rw [heq, heq'] at h
      cases h
      exact ⟨fun _ => rfl, fun hcon => absurd (he'.symm.trans hcon) nofun⟩
    rw [heq, heq'] at h
    split at h
    · rename_i d' e' hstream
      cases h
      obtain ⟨hafter, file, rfl⟩ := streamInto_error hstream
      exact ⟨fun hcon => absurd (hafter.symm.trans hcon) nofun,
        fun _ hremove => by simp [Env.removed, hremove]⟩
    · split at h
      · cases h; exact absurd rfl hlog
      · cases h

/-! ## Three runs -/

/-- An asset named `f`, and the sums file beside it. -/
def assetF : Asset := { name := [102] }

/-- The lines `ab  f.sig` and `cd  f`. -/
def sumsText : Bytes := [97, 98, 32, 32, 102, 46, 115, 105, 103, 10, 99, 100, 32, 32, 102, 10]

/-- The image is one byte long, and its digest too. -/
def envF (sums : Option Reply) : Env := { sums, image := some (200, .eof [7]) }

/-- The digest listed for `f` is the image's, and the runner gets it. -/
theorem flash_verified_f :
    runUpgradeToRunner (fun _ => [0xCD]) (envF (some { body := sumsText }))
        [{ name := sumsName }, assetF] assetF none = (some [7], .ok ()) ∧
      Lists (linesFrom [] sumsText) [102] (hexEncode [0xCD]) := by
  have hrun : runUpgradeToRunner (fun _ => [0xCD]) (envF (some { body := sumsText }))
      [{ name := sumsName }, assetF] assetF none = (some [7], .ok ()) := by decide +kernel
  obtain ⟨a, r, file, -, -, hr, -, hlists⟩ := (flash_verified (fun _ => [0xCD])
    (envF (some { body := sumsText })) [{ name := sumsName }, assetF] assetF none).1 _ hrun
  obtain rfl : { body := sumsText } = r := Option.some.inj hr
  exact ⟨hrun, hlists⟩

/-- **What the code does not promise.** A file left by an earlier run stays
when the lookup fails; a verified image stays when the last directory cannot
be made; and a sums file that breaks off inside the line of `f.sig` is read
as listing `f`, with the wrong digest. -/
theorem flash_unverified :
    runUpgradeToRunner (fun _ => [0xCD]) (envF none) [{ name := sumsName }, assetF] assetF
        (some [0]) = (some [0], .error .sumsRequest) ∧
    runUpgradeToRunner (fun _ => [0xCD]) { envF (some { body := sumsText }) with logDir := false }
        [{ name := sumsName }, assetF] assetF none = (some [7], .error .mkdirLog) ∧
    runUpgradeToRunner (fun _ => [0xAB])
        (envF (some { body := sumsText.take 5, broken := true }))
        [{ name := sumsName }, assetF] assetF none = (some [7], .ok ()) ∧
    scanSums [102] false (linesFrom [] sumsText) = .ok [99, 100] ∧
      hexEncode [0xAB] ≠ [99, 100] := by
  decide +kernel

end Sysupgrade

end OpenManet
