/-
Sysop/Text/Blank.lean

White space in the sense of the Unicode property White_Space: trimming, cutting
into words, and the lines of a text file.

A word never holds a blank (`words` drops them all), and a line never holds a
line feed; a carriage return is dropped only in front of the line feed that ends
its line, so a lone one stays in the line.
-/

namespace Sysop

namespace Text

/-! ### The property -/

/-- The code points with the property White_Space, as closed ranges. -/
def blankRanges : List (Nat × Nat) :=
  [(0x09, 0x0D), (0x20, 0x20), (0x85, 0x85), (0xA0, 0xA0), (0x1680, 0x1680),
   (0x2000, 0x200A), (0x2028, 0x2029), (0x202F, 0x202F), (0x205F, 0x205F),
   (0x3000, 0x3000)]

/-- A blank character. -/
def isBlank (c : Char) : Bool :=
  blankRanges.any fun r => r.1 ≤ c.toNat && c.toNat ≤ r.2

/-! ### Trimming and words -/

/-- The text without the blanks at its two ends. -/
def trim (cs : List Char) : List Char :=
  ((cs.dropWhile isBlank).reverse.dropWhile isBlank).reverse

/-- The words of a text whose current word, reversed, is `acc`. -/
def wordsFrom (acc : List Char) : List Char → List (List Char)
  | [] => if acc.isEmpty then [] else [acc.reverse]
  | c :: r =>
    if isBlank c then
      if acc.isEmpty then wordsFrom [] r else acc.reverse :: wordsFrom [] r
    else wordsFrom (c :: acc) r

/-- The maximal runs of characters that are not blank. -/
def words (cs : List Char) : List (List Char) :=
  wordsFrom [] cs

/-! ### Lines -/

/-- A line, reversed, without the carriage return in front of its line feed. -/
def closeLine : List Char → List Char
  | '\r' :: acc => acc.reverse
  | acc => acc.reverse

/-- The lines of a text whose current line, reversed, is `acc`. -/
def linesFrom (acc : List Char) : List Char → List (List Char)
  | [] => if acc.isEmpty then [] else [acc.reverse]
  | c :: r =>
    if c = '\n' then closeLine acc :: linesFrom [] r else linesFrom (c :: acc) r

/-- The lines of a text, each ended by a line feed, by a carriage return and a
line feed, or by the end of the text. -/
def lines (cs : List Char) : List (List Char) :=
  linesFrom [] cs

end Text

end Sysop
