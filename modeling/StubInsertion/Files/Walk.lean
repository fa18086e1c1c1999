import StubInsertion.Files.Error
import StubInsertion.Files.FileSystem

/-!
# Looking up paths

Names are looked up one after the other. A symbolic link on the way is replaced by its target; at
most forty links are followed in one walk.

* **Admission.** `admit` refuses paths that cannot be looked up at all.
* **Following.** `find` follows every link, the last one too, and says what the path names: a node,
  or a name that is vacant in a directory.
* **Entries.** `entry` follows the links on the way only and gives the slot of the last name, for
  calls that act on the name itself.
-/

namespace StubInsertion

/-- The number of links that one walk follows. -/
def maxLinks : Nat := 40

/-- The length of the longest name. -/
def maxName : Nat := 255

/-- The length of the longest path. -/
def maxPath : Nat := 4095

/-- Why a path cannot be looked up at all, if so. -/
def Path.admit (p : Path) : Except FileError Unit :=
  if p.bytes.contains 0 then .error .nulInPath
  else if p.bytes.isEmpty then .error (.refused .notFound)
  else if p.bytes.length > maxPath then .error (.refused .nameTooLong)
  else .ok ()

/-- What a walk looks for: something that is there, or a name under which a file can be made. -/
inductive Intent
  | visit
  | create
  deriving DecidableEq, Repr

/-- What a path names once every link is followed. -/
inductive Found
  | node (i : NodeId)
  | vacant (slot : Slot)
  deriving DecidableEq, Repr

/-- The last name of a path, no link followed there. -/
inductive Entry
  /-- a name in a directory, with the slash after it if there is one -/
  | slot (slot : Slot) (slash : Bool)
  /-- the path ends in `.` or `..`, or is the root -/
  | dots
  deriving DecidableEq, Repr

namespace FileSystem

variable (fs : FileSystem)

/-- Look up the names one after the other from the directory `dir`; `slash` says that a directory is
asked for. A link is handed to `jump`, with the directory from which its target starts. -/
def walkFrom (intent : Intent)
    (jump : NodeId → List Name → Bool → Except Errno Found) :
    NodeId → List Name → Bool → Except Errno Found
  | dir, [], slash =>
    if slash && !fs.isDirectory dir then .error .notADirectory else .ok (.node dir)
  | dir, name :: rest, slash =>
    if !fs.isDirectory dir then .error .notADirectory
    else if name = Path.dot then walkFrom intent jump dir rest slash
    else if name = Path.dotDot then walkFrom intent jump (fs.above dir) rest slash
    else if rest.isEmpty && slash && intent = .create then .error .isADirectory
    else if name.length > maxName then .error .nameTooLong
    else match fs.holds ⟨dir, name⟩ with
      | none => if rest.isEmpty && !slash then .ok (.vacant ⟨dir, name⟩) else .error .notFound
      | some i => match fs.node? i with
        | some (.symlink target) =>
          jump (if target.isAbsolute then fs.root else dir) (target.names ++ rest)
            (if rest.isEmpty then slash || target.endsInSlash else slash)
        | _ => walkFrom intent jump i rest slash

/-- Look up the names, following at most `links` links. -/
def walk (intent : Intent) : (links : Nat) → NodeId → List Name → Bool → Except Errno Found
  | 0 => fs.walkFrom intent fun _ _ _ => .error .tooManyLinks
  | links + 1 => fs.walkFrom intent (walk intent links)

/-- Where the names of a path are looked up first. -/
def start (p : Path) : NodeId := if p.isAbsolute then fs.root else fs.here

/-- What the path names, every link followed. -/
def find (intent : Intent) (p : Path) : Except Errno Found :=
  fs.walk intent maxLinks (fs.start p) p.names p.endsInSlash

/-- The node that the path names, every link followed. -/
def resolve (p : Path) : Except FileError NodeId := do
  p.admit
  match fs.find .visit p with
  | .ok (.node i) => .ok i
  | .ok (.vacant _) => .error (.refused .notFound)
  | .error e => .error (.refused e)

/-- The slot of the path's last name. -/
def entry (p : Path) : Except FileError Entry := do
  p.admit
  match p.names.getLast? with
  | none => .ok .dots
  | some name =>
    match fs.walk .visit maxLinks (fs.start p) p.names.dropLast true with
    | .error e => .error (.refused e)
    | .ok (.vacant _) => .error (.refused .notFound)
    | .ok (.node dir) =>
      if name = Path.dot || name = Path.dotDot then .ok .dots
      else .ok (.slot ⟨dir, name⟩ p.endsInSlash)

end FileSystem

end StubInsertion
