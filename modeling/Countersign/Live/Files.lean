import Countersign.Bytes

/-!
# Files of the system

What the system does with files for the daemon. A failure comes back as the system's words for it and
its number.
-/

set_option autoImplicit false

namespace Countersign.Live

def errorNumber (code : UInt32) : Nat := code.toInt32.toInt.natAbs

def reason : IO.Error → String
  | .alreadyExists _ code details | .interrupted _ code details | .noFileOrDirectory _ code details
  | .invalidArgument _ code details | .permissionDenied _ code details
  | .resourceExhausted _ code details | .inappropriateType _ code details
  | .noSuchThing _ code details | .otherError code details | .resourceBusy code details
  | .resourceVanished code details | .unsupportedOperation code details
  | .hardwareFault code details | .unsatisfiedConstraints code details
  | .illegalOperation code details | .protocolError code details | .timeExpired code details =>
    s!"{details.capitalize} (os error {errorNumber code})"
  | .unexpectedEof => "unexpected end of file"
  | .userError message => message

def outcome {α : Type} (action : IO α) : IO (Except String α) := do
  match ← action.toBaseIO with
  | .ok a => return .ok a
  | .error e => return .error (reason e)

def isPresent (path : String) : IO Bool := do
  ((← IO.currentDir) / path).pathExists

def readFile (path : String) : IO Bytes := do
  return (← IO.FS.readBinFile path).toList

def writeFile (path : String) (content : Bytes) : IO Unit :=
  IO.FS.writeBinFile path ⟨content.toArray⟩

def keepPrivate (path : String) : IO Unit :=
  IO.setAccessRights path { user := { read := true, write := true } }

end Countersign.Live
