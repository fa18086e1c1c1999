import StubInsertion.Block.Default
import StubInsertion.Files.Path
import StubInsertion.Toml.Diagnostic
import StubInsertion.Toml.Document

/-!
# Configuration

A configuration may give another marker and name the file that holds the block. It is a TOML
document with the keys `marker` and `block_file`, both optional, and no others.

* **Entries.** `check` says what is wrong with one; `stringOf` what is wrong with a value that is no
  string.
* **Reading.** `Config.ofTable` checks a document's entries in ascending order of their keys and
  reports the first that does not fit; `Config.parse` reads a document, and takes the words for one
  that is no TOML as given.
-/

namespace StubInsertion

/-- What a configuration can change. -/
structure Config where
  marker : String
  blockFile : Option Path
  deriving DecidableEq, Repr

namespace Config

/-- The key of the marker. -/
def markerKey : String := "marker"

/-- The key of the file that holds the block. -/
def blockFileKey : String := "block_file"

/-- Without an entry the built-in block and its marker are used. -/
def default : Config := ⟨Block.defaultMarker, none⟩

/-- The string that a value is, or what is wrong with it; `wanted` describes the string. A number
that is too large, or none at all, is reported as such. -/
def stringOf (wanted : String) : Toml.Value → Except Toml.Problem String
  | .string text => .ok text
  | .integer none => .error .unusableInteger
  | .integer (some n) =>
    if Toml.fitsSigned 128 n || Toml.fitsUnsigned 128 n then
      .error (.wrongKind (.integer n) wanted)
    else .error .unusableInteger
  | .float x => match x.text? with
    | some text => .error (.wrongKind (.float text) wanted)
    | none => .error .floatTooLarge
  | .boolean b => .error (.wrongKind (.boolean b) wanted)
  | .array _ | .tables .. => .error (.wrongKind .sequence wanted)
  | .dateTime | .table .. => .error (.wrongKind .map wanted)

/-- What is wrong with an entry, if anything. -/
def check (document : List Char) (entry : Toml.Key × Toml.Span × Toml.Value) :
    Except Toml.Diagnostic Unit :=
  let (key, span, value) := entry
  let wanted? := if key.name = markerKey then some "a string"
    else if key.name = blockFileKey then some "path string" else none
  match wanted? with
  | none => .error ⟨document, key.span, .unknownKey key.name [markerKey, blockFileKey]⟩
  | some wanted => match stringOf wanted value with
    | .ok _ => .ok ()
    | .error problem => .error ⟨document, span, problem⟩

/-- The string under a key. -/
def text? (t : Toml.Table) (key : String) : Option String :=
  match t.get? key with
  | some (.string text) => some text
  | _ => none

/-- The entries in ascending order of their keys. -/
def inOrder (t : Toml.Table) : Toml.Table :=
  List.mergeSort t fun a b => (compare a.1.name.toList b.1.name.toList).isLE

/-- The configuration that a document's entries make. -/
def ofTable (document : List Char) (t : Toml.Table) : Except Toml.Diagnostic Config := do
  (inOrder t).forM (check document)
  return ⟨(text? t markerKey).getD default.marker, (text? t blockFileKey).map .ofString⟩

/-- Read a configuration. -/
def parse (words : Toml.Wording) (text : String) : Except Toml.Fault Config :=
  let document := text.toList
  match Toml.parse document with
  | .ok t => (ofTable document t).mapError .misfit
  | .error rest => .error (.malformed (words document rest))

end Config

end StubInsertion
