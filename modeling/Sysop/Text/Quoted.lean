/-
Sysop/Text/Quoted.lean

A text between double quotes, as reports of settings show it.  The quote and the
backslash are written after a backslash, so are the line feed, the carriage
return, the tab and the null character by their letters; what cannot be printed
is written by its code point; every other character stands for itself.
-/
import Sysop.Text.Numeral
import Sysop.Text.Unprintable

namespace Sysop

namespace Text

/-- The written form of one character inside the quotes. -/
def escape (c : Char) : List Char :=
  if c = '\x00' then ['\x5c', '0']
  else if c = '\t' then ['\x5c', 't']
  else if c = '\r' then ['\x5c', 'r']
  else if c = '\n' then ['\x5c', 'n']
  else if c = '\x22' ∨ c = '\x5c' then ['\x5c', c]
  else if isUnprintable c then
    ['\x5c', 'u', '\x7b'] ++ Nat.toDigits 16 c.toNat ++ ['\x7d']
  else [c]

/-- The text in double quotes. -/
def quote (s : String) : String :=
  String.ofList ('\x22' :: s.toList.flatMap escape ++ ['\x22'])

/-- An optional text: quoted, or the word that says there is none. -/
def quoteOption : Option String → String
  | some s => "Some(" ++ quote s ++ ")"
  | none => "None"

end Text

end Sysop
