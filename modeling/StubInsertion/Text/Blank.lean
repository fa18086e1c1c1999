/-!
# White space of Unicode

The characters with the property White_Space, and the texts made of nothing else.
-/

namespace StubInsertion.Text

/-- The ranges of the property White_Space. -/
def whiteSpace : List (Nat × Nat) :=
  [(0x09, 0x0d), (0x20, 0x20), (0x85, 0x85), (0xa0, 0xa0), (0x1680, 0x1680), (0x2000, 0x200a),
   (0x2028, 0x2029), (0x202f, 0x202f), (0x205f, 0x205f), (0x3000, 0x3000)]

/-- Is the code point in one of the ranges? -/
def inRanges (ranges : List (Nat × Nat)) (code : Nat) : Bool :=
  ranges.any fun r => r.1 ≤ code && code ≤ r.2

/-- Does the character have the property White_Space? -/
def isWhiteSpace (c : Char) : Bool := inRanges whiteSpace c.toNat

/-- Is there nothing but white space in the text? -/
def isBlank (s : String) : Bool := s.toList.all isWhiteSpace

end StubInsertion.Text
