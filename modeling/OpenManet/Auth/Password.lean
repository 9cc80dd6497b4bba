import Mathlib.Data.List.Basic
/-!
# The password of the device

`ChpasswdSetter` hands a password to the first of two tools that the device
has, over their standard input. What would break the line one of them reads
is turned away first.
-/

namespace OpenManet

namespace Auth

/-- What the setter finds on the device, and what the tools answer. -/
structure Tools where
  /-- The path of a tool on the search path. -/
  lookPath : String → Option String
  isFile : String → Bool
  /-- The complaint of a run of a tool, given its arguments and its input. -/
  run : String → List String → String → Option String

structure ChpasswdSetter where
  path : String
  passwdPath : String

def commonChpasswdPaths : List String :=
  ["/usr/sbin/chpasswd", "/sbin/chpasswd", "/bin/chpasswd", "/usr/bin/chpasswd"]

def commonPasswdPaths : List String :=
  ["/usr/bin/passwd", "/bin/passwd", "/usr/sbin/passwd", "/sbin/passwd"]

def errInvalidPasswordInput : String := "username or password contains invalid characters"

/-- The characters of the line format. -/
def breaksLine (s : String) : Bool := s.toList.any fun c => c = '\n' || c = '\r' || c = ':'

def validatePasswordInput (username newPassword : String) : Except String Unit :=
  if username = "" then .error errInvalidPasswordInput
  else if breaksLine username then .error errInvalidPasswordInput
  else if breaksLine newPassword then .error errInvalidPasswordInput
  else .ok ()

/-- The path of a tool, empty where there is none. -/
def resolveTool (X : Tools) (override name : String) (fallbacks : List String) : String :=
  if override ≠ "" then override
  else
    match X.lookPath name with
    | some resolved => resolved
    | none => (fallbacks.find? X.isFile).getD ""

def runChpasswd (X : Tools) (path username newPassword : String) : Except String Unit :=
  match X.run path [] (username ++ ":" ++ newPassword ++ "\n") with
  | some complaint => .error ("chpasswd: " ++ complaint)
  | none => .ok ()

def runPasswd (X : Tools) (path username newPassword : String) : Except String Unit :=
  match X.run path [username] (newPassword ++ "\n" ++ newPassword ++ "\n") with
  | some complaint => .error ("passwd: " ++ complaint)
  | none => .ok ()

def ChpasswdSetter.setPassword (c : ChpasswdSetter) (X : Tools) (username newPassword : String) :
    Except String Unit := do
  validatePasswordInput username newPassword
  let path := resolveTool X c.path "chpasswd" commonChpasswdPaths
  if path ≠ "" then runChpasswd X path username newPassword
  else
    let path := resolveTool X c.passwdPath "passwd" commonPasswdPaths
    if path ≠ "" then runPasswd X path username newPassword
    else .error "neither chpasswd nor passwd is available on this device"

/-- The commands succeed: one of the tools is there, and no run complains. -/
structure ChpasswdSetter.Works (c : ChpasswdSetter) (X : Tools) : Prop where
  found : resolveTool X c.path "chpasswd" commonChpasswdPaths ≠ "" ∨
    resolveTool X c.passwdPath "passwd" commonPasswdPaths ≠ ""
  runs : ∀ path args input, X.run path args input = none

/-- **A password is set** exactly where its input is taken, once the commands
succeed. -/
theorem ChpasswdSetter.setPassword_eq_ok_iff {c : ChpasswdSetter} {X : Tools} (hworks : c.Works X)
    (username newPassword : String) :
    c.setPassword X username newPassword = .ok () ↔
      validatePasswordInput username newPassword = .ok () := by
  unfold ChpasswdSetter.setPassword
  cases validatePasswordInput username newPassword with
  | error text => exact iff_of_false (fun h => by cases h) (fun h => by cases h)
  | ok _ =>
      refine iff_of_true ?_ rfl
      show (if resolveTool X c.path "chpasswd" commonChpasswdPaths ≠ "" then _ else _) = _
      split
      · rw [runChpasswd, hworks.runs]
      · next hno =>
        rw [if_pos (hworks.found.resolve_left hno), runPasswd, hworks.runs]

theorem validatePasswordInput_eq_ok_iff {username newPassword : String} :
    validatePasswordInput username newPassword = .ok () ↔
      username ≠ "" ∧ breaksLine username = false ∧ breaksLine newPassword = false := by
  unfold validatePasswordInput
  split_ifs with hempty huser hpass <;> simp_all

end Auth

end OpenManet
