import ZoomConfig.CommandLine
/-!
The program on the disk of a machine.

Everything that the program decides is decided by `CommandLine.run`; here files are read and texts
are printed.
-/
namespace ZoomConfig

/-- The cause that the system numbers in this way; some numbers come with a minus sign. -/
def FileError.ofCode? (code : UInt32) : Option FileError :=
  match if code.toNat < Nat.pow 2 31 then code.toNat else Nat.pow 2 32 - code.toNat with
  | 2 => some .notFound
  | 13 => some .denied
  | 20 => some .notDirectory
  | 21 => some .isDirectory
  | 36 => some .nameTooLong
  | 40 => some .tooManyLinks
  | _ => none

/-- The cause of a failure of the system. -/
def FileError.ofSystem (e : IO.Error) : FileError :=
  let known : Option FileError := match e with
    | .noFileOrDirectory .. => some .notFound
    | .permissionDenied .. => some .denied
    | .inappropriateType _ code _ => ofCode? code
    | .invalidArgument _ code _ => ofCode? code
    | .resourceExhausted _ code _ => ofCode? code
    | _ => none
  known.getD (.other (toString e))

/-- What an action gives, or the cause of its failure. -/
def tryFile {α : Type} (act : IO α) : IO (Except FileError α) := do
  match ← act.toBaseIO with
  | .ok a => return .ok a
  | .error e => return .error (.ofSystem e)

/-- The files on the disk. -/
def diskFiles : Files IO where
  isFile path := do
    match ← tryFile (do return (← (← IO.FS.realPath path).metadata).type) with
    | .ok .file => return true
    | _ => return false
  readText path := do
    match ← tryFile (IO.FS.readBinFile path) with
    | .error e => return .error e
    | .ok bytes =>
      match String.fromUTF8? bytes with
      | some text => return .ok text
      | none => return .error .notText
  realPath path := tryFile (do return (← IO.FS.realPath path).toString)

end ZoomConfig

/-- Runs the program and prints what it has to say. -/
def main (args : List String) : IO UInt32 := do
  let dir := (← IO.currentDir).toString
  let outcome ← ZoomConfig.CommandLine.run ZoomConfig.diskFiles dir (fun n => IO.getEnv n) args
  IO.print outcome.output
  IO.eprint outcome.complaint
  return outcome.exitCode.toUInt32
