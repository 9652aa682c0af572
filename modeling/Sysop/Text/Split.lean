/-
Sysop/Text/Split.lean

A text cut at every occurrence of one character.  There is one part more than there
are cuts, so even the empty text has a part.
-/

namespace Sysop

namespace Text

/-- The parts of a text whose current part, reversed, is `acc`. -/
def splitFrom (sep : Char) (acc : List Char) : List Char → List String
  | [] => [String.ofList acc.reverse]
  | c :: r =>
    if c = sep then String.ofList acc.reverse :: splitFrom sep [] r
    else splitFrom sep (c :: acc) r

/-- The parts of a text between the given characters. -/
def split (sep : Char) (s : String) : List String :=
  splitFrom sep [] s.toList

end Text

end Sysop
