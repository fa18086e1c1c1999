import StubInsertion.Text.Utf8

/-!
# Paths

A path is a string of bytes; `/` separates names and nothing else has a meaning until a path is
looked up.

* **Names.** `pieces` cuts a path at the slashes, `names` drops the empty pieces.
* **Relatives.** `parent?` drops the last name, `join` reads one path relative to another, `sibling`
  adds a suffix to the last name.
* **Display.** `display` shows a path in a message.
-/

namespace StubInsertion

/-- A path, as the operating system takes it. -/
structure Path where
  bytes : Bytes
  deriving DecidableEq, Repr

/-- One component of a path. -/
abbrev Name := Bytes

namespace Path

/-- The byte between names. -/
def slash : UInt8 := 0x2f

/-- The name of the directory itself. -/
def dot : Name := [0x2e]

/-- The name of the directory above. -/
def dotDot : Name := [0x2e, 0x2e]

/-- A path written as text. -/
def ofString (s : String) : Path := ⟨utf8 s⟩

/-- The pieces between the slashes of some bytes, empty ones too. -/
def split : Bytes → List Name
  | [] => [[]]
  | b :: rest =>
    if b = slash then [] :: split rest
    else match split rest with
      | [] => [[b]]
      | piece :: more => (b :: piece) :: more

/-- The bytes whose pieces these are. -/
def unsplit : List Name → Bytes
  | [] => []
  | [piece] => piece
  | piece :: more => piece ++ slash :: unsplit more

/-- Does the path start at the root? -/
def isAbsolute (p : Path) : Bool := p.bytes.head? = some slash

/-- The names in the path, `.` and `..` among them. -/
def names (p : Path) : List Name := (split p.bytes).filter fun piece => !piece.isEmpty

/-- Does the path end in a slash, and so ask for a directory? -/
def endsInSlash (p : Path) : Bool := p.bytes.getLast? = some slash

/-- The path as it is shown in messages. -/
def display (p : Path) : String := Utf8.display p.bytes

/-- The path with a suffix added to its last name. -/
def sibling (p : Path) (suffix : Bytes) : Path := ⟨p.bytes ++ suffix⟩

/-- The pieces after the leading slash of an absolute path, or all pieces of a relative one. -/
def pieces (p : Path) : List Name :=
  split (if p.isAbsolute then p.bytes.tail else p.bytes)

/-- The pieces without those at the end that name nothing: empty ones and `.`, except for a `.` with
which a relative path starts. -/
def trimEnd (absolute : Bool) : List Name → List Name
  | [] => []
  | first :: more =>
    let more := (more.reverse.dropWhile fun piece => piece.isEmpty || piece == dot).reverse
    if more.isEmpty && (first.isEmpty || (absolute && first == dot)) then [] else first :: more

/-- The path without its last name and the slashes around it; `none` if it has no name. -/
def parent? (p : Path) : Option Path :=
  match trimEnd p.isAbsolute p.pieces with
  | [] => none
  | named =>
    let above := unsplit (trimEnd p.isAbsolute named.dropLast)
    some ⟨if p.isAbsolute then slash :: above else above⟩

/-- The path `p` read from the directory `base`. -/
def join (base p : Path) : Path :=
  if p.isAbsolute then p
  else if base.bytes.isEmpty || base.endsInSlash then ⟨base.bytes ++ p.bytes⟩
  else ⟨base.bytes ++ slash :: p.bytes⟩

end Path

end StubInsertion
