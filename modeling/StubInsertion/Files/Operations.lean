import StubInsertion.Files.Walk

/-!
# Operations on a file system

What the calls of the operating system do to a file system. Each operation either succeeds, with the
file system after it, or fails for a reason and changes nothing.

* **Reading.** `status`, `contents`, `text`.
* **Writing.** `create` opens a file for writing, every link followed, and empties it; `write` and
  `sync` act on the node that was opened; `setMode` follows links.
* **Names.** `rename` and `unlink` act on the last name itself, never on what a link there points
  to.
* **Making.** `putFile`, `putDirectory`, `putSymlink` and `putHardLink` make an entry, with the
  directories above it.

The calls are those of a user who may do everything, on a disk that has space and works: the names,
the links and the kinds of the entries are the only reasons to refuse one. Permissions are kept but
never asked, and no call on a regular file fails for want of space, of a quota or of a working disk.
-/

namespace StubInsertion

namespace FileSystem

variable (fs : FileSystem)

/-! ### Reading -/

/-- The permissions of what the path names. -/
def status (p : Path) : Except FileError Mode := do
  let i ← fs.resolve p
  match fs.node? i with
  | some node => .ok node.mode
  | none => .error (.refused .notFound)

/-- All bytes of what the path names. Reading an endless device never ends; here it is refused, as if
memory ran out at once. -/
def contents (p : Path) : Except FileError Bytes := do
  let i ← fs.resolve p
  match fs.node? i with
  | some (.file _ data) => .ok data
  | some (.directory ..) => .error (.refused .isADirectory)
  | some (.device _ .null) => .ok []
  | some (.device _ .full) => .error (.refused .outOfMemory)
  | _ => .error (.refused .notFound)

/-- The text of a file, which has to be UTF-8. -/
def text (p : Path) : Except FileError String := do
  match Utf8.toString? (← fs.contents p) with
  | some s => .ok s
  | none => .error .notUtf8

/-! ### Writing -/

/-- The permissions of a file that a program makes without saying more. -/
def creationMode : Mode := 0o644

/-- Open a file for writing: an existing one is emptied, a missing one is made. -/
def create (p : Path) : Except FileError (NodeId × FileSystem) := do
  p.admit
  match fs.find .create p with
  | .error e => .error (.refused e)
  | .ok (.vacant slot) => .ok (fs.fresh, fs.add slot (.file creationMode []))
  | .ok (.node i) => match fs.node? i with
    | some (.file mode _) => .ok (i, fs.setNode i (.file mode []))
    | some (.device ..) => .ok (i, fs)
    | some (.directory ..) => .error (.refused .isADirectory)
    | _ => .error (.refused .notFound)

/-- Write bytes to an empty file that was opened. -/
def write (i : NodeId) (data : Bytes) : Except FileError FileSystem :=
  match fs.node? i with
  | some (.file mode _) => .ok (fs.setNode i (.file mode data))
  | some (.device _ .full) => .error (.refused .noSpace)
  | _ => .ok fs

/-- Wait until a file that was opened is on the disk. There is no disk behind a device. -/
def sync (i : NodeId) : Except FileError Unit :=
  match fs.node? i with
  | some (.device ..) => .error (.refused .invalidArgument)
  | _ => .ok ()

/-- Give what the path names these permissions. -/
def setMode (p : Path) (mode : Mode) : Except FileError FileSystem := do
  let i ← fs.resolve p
  match fs.node? i with
  | some node => .ok (fs.setNode i (node.withMode mode))
  | none => .error (.refused .notFound)

/-! ### Names -/

/-- The node of a slot that a call is to act on. -/
def occupant (slot : Slot) : Except FileError NodeId :=
  if slot.name.length > maxName then .error (.refused .nameTooLong)
  else match fs.holds slot with
    | some i => .ok i
    | none => .error (.refused .notFound)

/-- Is `dir` the directory `i` or below it? The walk upwards takes at most `steps` steps. -/
def isBelow (i : NodeId) : (steps : Nat) → (dir : NodeId) → Bool
  | 0, dir => dir = i
  | steps + 1, dir => dir = i || (fs.above dir != dir && isBelow i steps (fs.above dir))

/-- Is `i` a directory at or above the directory `dir`? -/
def encloses (i dir : NodeId) : Bool :=
  fs.isDirectory i && fs.isBelow i fs.nodes.bindings.length dir

/-- Why the node `i` must not take the place of what `slot` holds, if so. -/
def replaceable (i : NodeId) (slot : Slot) : Except Errno Unit :=
  match fs.holds slot with
  | none => .ok ()
  | some old =>
    if fs.isDirectory i then
      if !fs.isDirectory old then .error .notADirectory
      else if !(fs.namesIn old).isEmpty then .error .notEmpty
      else .ok ()
    else if fs.isDirectory old then .error .isADirectory
    else .ok ()

/-- Move the node `i` from one slot to another. A directory learns what is above it now. -/
def move (i : NodeId) (source target : Slot) : FileSystem :=
  let moved := { fs with slots := fs.slots.erase source }.hold target i
  match moved.node? i with
  | some (.directory mode _) => moved.setNode i (.directory mode target.dir)
  | _ => moved

/-- Give the entry at `p` the name `q`, in the place of what is there. Two names of one file are
left as they are. -/
def rename (p q : Path) : Except FileError FileSystem := do
  if p.bytes.contains 0 || q.bytes.contains 0 then .error .nulInPath
  match ← fs.entry p, ← fs.entry q with
  | .slot source slash, .slot target slash' =>
    let i ← fs.occupant source
    if target.name.length > maxName then .error (.refused .nameTooLong)
    if !fs.isDirectory i && (slash || slash') then .error (.refused .notADirectory)
    if fs.encloses i target.dir then .error (.refused .invalidArgument)
    if (fs.holds target).any (fs.encloses · source.dir) then .error (.refused .notEmpty)
    if fs.holds target = some i then .ok fs
    else match fs.replaceable i target with
      | .error e => .error (.refused e)
      | .ok () => .ok (fs.move i source target)
  | _, _ => .error (.refused .busy)

/-- Remove the entry at `p`, which must not be a directory. -/
def unlink (p : Path) : Except FileError FileSystem := do
  match ← fs.entry p with
  | .dots => .error (.refused .isADirectory)
  | .slot slot slash =>
    let i ← fs.occupant slot
    if fs.isDirectory i then .error (.refused .isADirectory)
    else if slash then .error (.refused .notADirectory)
    else .ok (fs.vacate slot)

/-! ### Making entries -/

/-- Make a directory under a vacant name, or keep the one that is there. -/
def putName (dir : NodeId) (name : Name) : Except FileError (NodeId × FileSystem) :=
  if name = Path.dot then .ok (dir, fs)
  else if name = Path.dotDot then .ok (fs.above dir, fs)
  else match fs.walk .visit maxLinks dir [name] false with
    | .ok (.node i) => .ok (i, fs)
    | .ok (.vacant slot) => .ok (fs.fresh, fs.add slot (.directory 0o755 slot.dir))
    | .error e => .error (.refused e)

/-- Make the missing directories of a list of names; gives the last one. -/
def putNames (fs : FileSystem) (dir : NodeId) : List Name → Except FileError (NodeId × FileSystem)
  | [] => .ok (dir, fs)
  | name :: rest => do
    let (i, fs) ← fs.putName dir name
    fs.putNames i rest

/-- Make the missing directories above the last name of a path. -/
def putParents (p : Path) : Except FileError FileSystem := do
  return (← fs.putNames (fs.start p) p.names.dropLast).2

/-- Make a directory with these permissions, or give them to the one that is there. -/
def putDirectory (p : Path) (mode : Mode) : Except FileError FileSystem := do
  let (i, fs) ← fs.putNames (fs.start p) p.names
  return fs.setNode i (.directory mode (fs.above i))

/-- Make a file with these contents and permissions, or give them to the one that is there. -/
def putFile (p : Path) (data : Bytes) (mode : Mode) : Except FileError FileSystem := do
  let fs ← fs.putParents p
  let (i, fs) ← fs.create p
  let fs ← fs.write i data
  fs.setMode p mode

/-- Put a node under a vacant name. -/
def putEntry (p : Path) (i : NodeId) : Except FileError FileSystem := do
  match ← fs.entry p with
  | .slot slot _ =>
    if (fs.holds slot).isSome then .error (.refused .taken) else .ok (fs.hold slot i)
  | .dots => .error (.refused .taken)

/-- Make a symbolic link. -/
def putSymlink (p target : Path) : Except FileError FileSystem := do
  let fs ← fs.putParents p
  (fs.setNode fs.fresh (.symlink target)).putEntry p fs.fresh

/-- Make a second name for the entry at `target`. -/
def putHardLink (p target : Path) : Except FileError FileSystem := do
  let fs ← fs.putParents p
  match ← fs.entry target with
  | .slot slot _ => fs.putEntry p (← fs.occupant slot)
  | .dots => .error (.refused .isADirectory)

end FileSystem

end StubInsertion
