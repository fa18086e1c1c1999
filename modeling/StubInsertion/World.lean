import StubInsertion.Calls
import StubInsertion.Files.Operations

/-!
# Worlds

A world is what a run can see and change: a file system and two outputs. It also remembers the file
system after each call so far, so that it can be said what a run that is cut short leaves behind.

* **Outputs.** A `Sink` takes bytes, perhaps only so many, and refuses the rest.
* **Calls.** `World` offers all calls of the program, as operations on its file system. Whether one
  succeeds is settled by the file system alone (see `Files.Operations` for what that leaves out).
-/

namespace StubInsertion

/-- Where output goes: the bytes taken so far, the room left, and the error once there is none. -/
structure Sink where
  taken : Bytes
  room : Option Nat
  refusal : FileError
  deriving DecidableEq, Repr

namespace Sink

/-- An output that takes everything. -/
def unlimited : Sink := ⟨[], none, .shortWrite⟩

/-- An output that takes `n` bytes. -/
def limited (n : Nat) : Sink := ⟨[], some n, .shortWrite⟩

/-- A device without space. -/
def full : Sink := ⟨[], some 0, .refused .noSpace⟩

/-- Write bytes; of bytes that do not fit the first ones are taken. -/
def write (s : Sink) (bytes : Bytes) : Except FileError Unit × Sink :=
  match s.room with
  | none => (.ok (), { s with taken := s.taken ++ bytes })
  | some room =>
    let rest := { s with taken := s.taken ++ bytes.take room, room := some (room - bytes.length) }
    if bytes.length ≤ room then (.ok (), rest) else (.error s.refusal, rest)

end Sink

/-- What a run can see and change. -/
structure World where
  files : FileSystem
  /-- the file system after each call so far, the last one first -/
  past : List FileSystem
  output : Sink
  /-- what stands on standard error, without the lines of the log -/
  errors : Bytes

namespace World

/-- A world before a run. -/
def of (files : FileSystem) (output : Sink) : World := ⟨files, [], output, []⟩

/-- A call that only looks at the file system. -/
def look {α : Type} (f : FileSystem → Except FileError α) : StateM World (Except FileError α) :=
  fun w => (f w.files, { w with past := w.files :: w.past })

/-- A call that changes the file system, if it succeeds. -/
def change (f : FileSystem → Except FileError FileSystem) : StateM World (Except FileError Unit) :=
  fun w => match f w.files with
    | .ok files => (.ok (), { w with files, past := files :: w.past })
    | .error e => (.error e, { w with past := w.files :: w.past })

/-- Opening a file changes the file system and gives the node that was opened. -/
def opened (f : FileSystem → Except FileError (NodeId × FileSystem)) :
    StateM World (Except FileError NodeId) :=
  fun w => match f w.files with
    | .ok (i, files) => (.ok i, { w with files, past := files :: w.past })
    | .error e => (.error e, { w with past := w.files :: w.past })

instance : FileCalls (StateM World) where
  Handle := NodeId
  status p := look (·.status p)
  contents p := look (·.contents p)
  create p := opened (·.create p)
  write i bytes := change (·.write i bytes)
  sync i := look (·.sync i)
  setMode p mode := change (·.setMode p mode)
  rename p q := change (·.rename p q)
  unlink p := change (·.unlink p)

instance : Console (StateM World) where
  print bytes := fun w => let (answer, output) := w.output.write bytes; (answer, { w with output })
  complain bytes := fun w => ((), { w with errors := w.errors ++ bytes })

end World

/-- Run something that may fail in a world. -/
def runIn {α : Type} (w : World) (action : ExceptT Failure (StateM World) α) :
    Except Failure α × World := action.run.run w

end StubInsertion
