import StubInsertion.CommandLine.Program

/-!
# The command line

The calls of the program on the files and outputs of a machine, and the entry point. The standard
library reports no permission bits, so a replaced file gets the usual ones.
-/

namespace StubInsertion

/-- The error of a call, by number and wording where the operating system gave them. -/
def fileErrorOf : IO.Error → FileError
  | .alreadyExists _ code text | .invalidArgument _ code text | .permissionDenied _ code text
  | .resourceExhausted _ code text | .inappropriateType _ code text | .noSuchThing _ code text
  | .interrupted _ code text | .noFileOrDirectory _ code text | .otherError code text
  | .resourceBusy code text | .resourceVanished code text | .unsupportedOperation code text
  | .hardwareFault code text | .unsatisfiedConstraints code text | .illegalOperation code text
  | .protocolError code text | .timeExpired code text => .refusedWith code.toNat text
  | .unexpectedEof => .shortWrite
  | .userError text => .refusedWith 5 text

/-- A call with its error as a value. -/
def callFiles {α : Type} (call : IO α) : IO (Except FileError α) := do
  match ← call.toBaseIO with
  | .ok a => return .ok a
  | .error e => return .error (fileErrorOf e)

/-- A call on a path, which has to be a text without the byte 0. -/
def callPath {α : Type} (p : Path) (call : String → IO α) : IO (Except FileError α) :=
  if p.bytes.contains 0 then return .error .nulInPath
  else match Utf8.toString? p.bytes with
    | some name => callFiles (call name)
    | none => return .error (.refused .invalidArgument)

/-- The rights that permission bits give to one class of users. -/
def accessRight (bits : Nat) : IO.AccessRight :=
  ⟨bits / 4 % 2 = 1, bits / 2 % 2 = 1, bits % 2 = 1⟩

instance : FileCalls IO where
  Handle := IO.FS.Handle
  status p := callPath p fun name => do
    let resolved ← IO.FS.realPath name
    let _ ← resolved.metadata
    return 0o644
  contents p := callPath p fun name => return (← IO.FS.readBinFile name).toList
  create p := callPath p fun name => IO.FS.Handle.mk name .write
  write handle bytes := callFiles do
    handle.write ⟨bytes.toArray⟩
    handle.flush
  sync handle := callFiles handle.flush
  setMode p mode := callPath p fun name =>
    IO.setAccessRights name ⟨accessRight (mode / 64), accessRight (mode / 8), accessRight mode⟩
  rename p q := do
    match Utf8.toString? q.bytes with
    | some target => callPath p fun source => IO.FS.rename source target
    | none => return .error (.refused .invalidArgument)
  unlink p := callPath p fun name => IO.FS.removeFile name

instance : Console IO where
  print bytes := callFiles do
    let output ← IO.getStdout
    output.write ⟨bytes.toArray⟩
    output.flush
  complain bytes := do
    let _ ← callFiles do (← IO.getStderr).write ⟨bytes.toArray⟩

end StubInsertion

/-- Run the program with the arguments of the command line. -/
def main (args : List String) : IO UInt32 := do
  let exit : StubInsertion.Program.Exit ←
    StubInsertion.Program.run StubInsertion.Toml.plainWording (args.map StubInsertion.utf8)
  return UInt32.ofNat exit.code
