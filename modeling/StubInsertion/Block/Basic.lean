import StubInsertion.Text.Quoted
import StubInsertion.Text.Search

/-!
# Stub blocks

A block is the text that is put into a source file, together with the marker by which a later run
recognises the file. The type holds only blocks that a later run does recognise: the marker is more
than white space, stands on a single line and occurs in the text.

* **Checking.** `Block.make` accepts a marker and a text or says why not; the reasons are tried in
  the order of `Rejection`'s constructors.
-/

namespace StubInsertion

/-- Does the text hold a line feed or a carriage return? -/
def hasLineBreak (s : String) : Bool := s.toList.any fun c => c = '\n' || c = '\r'

/-- A text to insert and the marker that it carries. -/
structure Block where
  marker : String
  text : String
  marker_not_blank : Text.isBlank marker = false
  marker_one_line : hasLineBreak marker = false
  marker_in_text : (utf8 marker).occursIn (utf8 text) = true
  deriving DecidableEq

namespace Block

/-- Why a marker and a text make no block. -/
inductive Rejection
  /-- the marker is empty or white space -/
  | blankMarker
  /-- the marker spans lines -/
  | brokenMarker
  /-- the text would not be recognised again -/
  | markerNotInText (marker : String)
  deriving DecidableEq, Repr

/-- The wording of a rejection. -/
def Rejection.message : Rejection → String
  | .blankMarker => "marker must not be empty"
  | .brokenMarker => "marker must fit on a single line"
  | .markerNotInText marker => "stub block does not contain marker " ++ Text.quoted marker

/-- The block with this marker and this text, if the text can be recognised by the marker. -/
def make (marker text : String) : Except Rejection Block :=
  match blank : Text.isBlank marker with
  | true => .error .blankMarker
  | false =>
    match broken : hasLineBreak marker with
    | true => .error .brokenMarker
    | false =>
      if carried : (Pattern.of (utf8 marker)).occursIn (utf8 text) then
        .ok ⟨marker, text, blank, broken, Pattern.occursIn_of .. ▸ carried⟩
      else .error (.markerNotInText marker)

/-- The bytes that are inserted. -/
def bytes (b : Block) : Bytes := utf8 b.text

/-- The bytes by which a marked file is recognised. -/
def mark (b : Block) : Bytes := utf8 b.marker

end Block

end StubInsertion
