/-
Sysop/Text/Numeral.lean

Decimal numerals below a bound: ASCII digits after at most one plus sign, with
any number of leading zeros.
-/

namespace Sysop

namespace Numeral

/-- The value of a run of digits in a base, read from the left. -/
def valueOf (base : Nat) (digits : List Nat) : Nat :=
  digits.foldl (fun n d => n * base + d) 0

/-- The value of an ASCII decimal digit. -/
def digit? (c : Char) : Option Nat :=
  if '0' ≤ c ∧ c ≤ '9' then some (c.toNat - '0'.toNat) else none

/-- The value of an ASCII hexadecimal digit, in either case. -/
def hexDigit? (c : Char) : Option Nat :=
  if '0' ≤ c ∧ c ≤ '9' then some (c.toNat - '0'.toNat)
  else if 'a' ≤ c ∧ c ≤ 'f' then some (c.toNat - 'a'.toNat + 10)
  else if 'A' ≤ c ∧ c ≤ 'F' then some (c.toNat - 'A'.toNat + 10)
  else none

/-- The digits of a numeral after its optional plus sign. -/
def unsigned : List Char → List Char
  | '+' :: r => r
  | cs => cs

/-- The numeral's value, if it is a numeral and its value is below the limit. -/
def parse? (limit : Nat) (s : String) : Option Nat :=
  match (unsigned s.toList).mapM digit? with
  | none => none
  | some [] => none
  | some ds => if valueOf 10 ds < limit then some (valueOf 10 ds) else none

/-- A number in lower-case hexadecimal. -/
def hex (n : Nat) : String :=
  String.ofList (Nat.toDigits 16 n)

/-- A number in decimal. -/
def decimal (n : Nat) : String :=
  String.ofList (Nat.toDigits 10 n)

end Numeral

end Sysop
