/-
Sysop/Text/Utf8.lean

UTF-8, read one byte at a time.

A byte string is scanned into pieces: a character, or a fault that stands for
one maximal invalid run.  Two readings are built on the one scan:

    decodeLossy bs    every fault becomes U+FFFD,
    decode? bs        a text only if there is no fault.

`encode` is the other direction.
-/

namespace Sysop

/-- A byte string. -/
abbrev Bytes := List UInt8

namespace Utf8

/-- A character that has begun: its value so far, the bytes still owed, and the
range in which the next byte has to lie. -/
structure Partial where
  value : Nat
  owed : Nat
  low : UInt8
  high : UInt8
  deriving DecidableEq, Repr

/-- One result of the scan: a character, or `none` for an invalid run. -/
abbrev Piece := Option Char

/-! ### One byte -/

/-- A byte between characters: what it yields and what it opens. -/
def lead (b : UInt8) : List Piece × Option Partial :=
  if b < 0x80 then ([some (Char.ofNat b.toNat)], none)
  else if b < 0xC2 then ([none], none)
  else if b < 0xE0 then ([], some ⟨b.toNat - 0xC0, 1, 0x80, 0xBF⟩)
  else if b = 0xE0 then ([], some ⟨0, 2, 0xA0, 0xBF⟩)
  else if b = 0xED then ([], some ⟨0xD, 2, 0x80, 0x9F⟩)
  else if b < 0xF0 then ([], some ⟨b.toNat - 0xE0, 2, 0x80, 0xBF⟩)
  else if b = 0xF0 then ([], some ⟨0, 3, 0x90, 0xBF⟩)
  else if b < 0xF4 then ([], some ⟨b.toNat - 0xF0, 3, 0x80, 0xBF⟩)
  else if b = 0xF4 then ([], some ⟨4, 3, 0x80, 0x8F⟩)
  else ([none], none)

/-- The byte continues the character that has begun. -/
def Partial.Continues (p : Partial) (b : UInt8) : Prop :=
  p.low ≤ b ∧ b ≤ p.high

instance (p : Partial) (b : UInt8) : Decidable (p.Continues b) :=
  inferInstanceAs (Decidable (_ ∧ _))

/-- The value with one more byte of six bits. -/
def Partial.grow (p : Partial) (b : UInt8) : Nat :=
  p.value * 64 + (b.toNat - 0x80)

/-- One byte of the scan.  A byte that cannot continue the character that has
begun ends it as a fault and is read again as the first byte of the next one. -/
def step : Option Partial → UInt8 → List Piece × Option Partial
  | none, b => lead b
  | some p, b =>
    if p.Continues b then
      if p.owed = 1 then ([some (Char.ofNat (p.grow b))], none)
      else ([], some ⟨p.grow b, p.owed - 1, 0x80, 0xBF⟩)
    else (none :: (lead b).1, (lead b).2)

/-! ### The scan and its readings -/

/-- The pieces of a byte string, from between characters or inside one. -/
def scan : Option Partial → Bytes → List Piece
  | none, [] => []
  | some _, [] => [none]
  | s, b :: r => (step s b).1 ++ scan (step s b).2 r

/-- The pieces of a byte string. -/
def pieces (bs : Bytes) : List Piece :=
  scan none bs

/-- The character that stands for an invalid run. -/
def replacement : Char := '\uFFFD'

/-- The text with every invalid run replaced. -/
def decodeLossy (bs : Bytes) : String :=
  String.ofList ((pieces bs).map (·.getD replacement))

/-- The text of valid UTF-8. -/
def decode? (bs : Bytes) : Option String :=
  ((pieces bs).mapM id).map String.ofList

/-- The bytes of a text. -/
def encode (s : String) : Bytes :=
  s.toList.flatMap String.utf8EncodeChar

/-- Valid UTF-8: the scan meets no fault. -/
def Valid (bs : Bytes) : Prop :=
  none ∉ pieces bs

instance (bs : Bytes) : Decidable (Valid bs) :=
  inferInstanceAs (Decidable (¬ _))

/-! ### Small facts -/

theorem lead_ascii {b : UInt8} (h : b < 0x80) :
    lead b = ([some (Char.ofNat b.toNat)], none) := by
  simp [lead, h]

end Utf8

end Sysop
