/-
Sysop/Base64.lean

Base64 with the standard alphabet and required padding.

The reader is strict: every group but the last holds four symbols, the last one
is padded to four bytes, and the bits that its last symbol does not use are zero.
So a byte string has one written form, the one `encode` gives.  A fault names the
place of the first byte that rules the text out.
-/
import Sysop.Text.Numeral
import Sysop.Text.Utf8

namespace Sysop

namespace Base64

/-! ### Faults -/

/-- Why a text is not base64. -/
inductive Fault
  | invalidByte (offset : Nat) (byte : UInt8)
  | invalidLength (length : Nat)
  | invalidLastSymbol (offset : Nat) (byte : UInt8)
  | invalidPadding
  deriving DecidableEq, Repr

/-- The text of a fault. -/
def Fault.message : Fault → String
  | .invalidByte i b =>
    "Invalid symbol " ++ Numeral.decimal b.toNat ++ ", offset " ++ Numeral.decimal i ++ "."
  | .invalidLength n => "Invalid input length: " ++ Numeral.decimal n
  | .invalidLastSymbol i b =>
    "Invalid last symbol " ++ Numeral.decimal b.toNat ++ ", offset " ++ Numeral.decimal i ++ "."
  | .invalidPadding => "Invalid padding"

/-! ### The alphabet -/

/-- The padding byte. -/
def padByte : UInt8 := 0x3D

/-- The value of a symbol of the alphabet. -/
def value? (b : UInt8) : Option Nat :=
  let n := b.toNat
  if 0x41 ≤ n ∧ n ≤ 0x5A then some (n - 0x41)
  else if 0x61 ≤ n ∧ n ≤ 0x7A then some (n - 0x61 + 26)
  else if 0x30 ≤ n ∧ n ≤ 0x39 then some (n - 0x30 + 52)
  else if n = 0x2B then some 62
  else if n = 0x2F then some 63
  else none

/-- The symbol of a value below sixty-four. -/
def symbol (v : Nat) : UInt8 :=
  if v < 26 then UInt8.ofNat (v + 0x41)
  else if v < 52 then UInt8.ofNat (v - 26 + 0x61)
  else if v < 62 then UInt8.ofNat (v - 52 + 0x30)
  else if v = 62 then 0x2B
  else 0x2F

/-- A symbol is read back as its value. -/
theorem value?_symbol : ∀ v < 64, value? (symbol v) = some v := by
  decide

/-- The padding byte is no symbol. -/
theorem value?_padByte : value? padByte = none := rfl

/-! ### Writing -/

/-- The written form: three bytes to four symbols, padded at the end. -/
def encode : Bytes → Bytes
  | a :: b :: c :: r =>
    symbol (a.toNat / 4) :: symbol (a.toNat % 4 * 16 + b.toNat / 16)
      :: symbol (b.toNat % 16 * 4 + c.toNat / 64) :: symbol (c.toNat % 64) :: encode r
  | [a, b] =>
    [symbol (a.toNat / 4), symbol (a.toNat % 4 * 16 + b.toNat / 16),
      symbol (b.toNat % 16 * 4), padByte]
  | [a] => [symbol (a.toNat / 4), symbol (a.toNat % 4 * 16), padByte, padByte]
  | [] => []

/-- The written form as a text. -/
def encodeText (bs : Bytes) : String :=
  String.ofList ((encode bs).map fun b => Char.ofNat b.toNat)

/-- The written form as a text without its padding. -/
def encodeUnpadded (bs : Bytes) : String :=
  String.ofList (((encode bs).filter (· ≠ padByte)).map fun b => Char.ofNat b.toNat)

/-! ### Reading -/

/-- The value of the byte at an offset. -/
def valueAt (offset : Nat) (b : UInt8) : Except Fault Nat :=
  match value? b with
  | some v => .ok v
  | none => .error (.invalidByte offset b)

/-- The first of the three bytes of four values. -/
def byte0 (a b : Nat) : UInt8 := UInt8.ofNat (a * 4 + b / 16)

/-- The second of the three bytes of four values. -/
def byte1 (b c : Nat) : UInt8 := UInt8.ofNat (b % 16 * 16 + c / 4)

/-- The third of the three bytes of four values. -/
def byte2 (c d : Nat) : UInt8 := UInt8.ofNat (c % 4 * 64 + d)

/-- The three bytes of a full group at an offset. -/
def group (offset : Nat) (a b c d : UInt8) : Except Fault Bytes := do
  let va ← valueAt offset a
  let vb ← valueAt (offset + 1) b
  let vc ← valueAt (offset + 2) c
  let vd ← valueAt (offset + 3) d
  return [byte0 va vb, byte1 vb vc, byte2 vc vd]

/-- The symbols of the last group: their bytes and values in order, and the count
of padding bytes.  `place` counts the bytes of the group so far and `padAt` is the
place of the first padding byte. -/
def lastSymbols (start place : Nat) (padAt : Option Nat) :
    Bytes → Except Fault (List (UInt8 × Nat) × Nat)
  | [] => .ok ([], 0)
  | b :: r =>
    if b = padByte then
      if place < 2 then .error (.invalidByte (start + place) padByte)
      else do
        let (symbols, pads) ← lastSymbols start (place + 1) (some (padAt.getD place)) r
        return (symbols, pads + 1)
    else
      match padAt with
      | some p => .error (.invalidByte (start + p) padByte)
      | none => do
        let v ← valueAt (start + place) b
        let (symbols, pads) ← lastSymbols start (place + 1) none r
        return ((b, v) :: symbols, pads)

/-- The bytes of the values of the last group, whose last symbol must not hold
bits that no byte takes. -/
def lastBytes (start : Nat) : List (UInt8 × Nat) → Except Fault Bytes
  | [(_, a), (s, b)] =>
    if b % 16 = 0 then .ok [byte0 a b] else .error (.invalidLastSymbol (start + 1) s)
  | [(_, a), (_, b), (s, c)] =>
    if c % 4 = 0 then .ok [byte0 a b, byte1 b c] else .error (.invalidLastSymbol (start + 2) s)
  | [(_, a), (_, b), (_, c), (_, d)] => .ok [byte0 a b, byte1 b c, byte2 c d]
  | _ => .ok []

/-- The bytes of the last group. -/
def lastGroup (start : Nat) (bs : Bytes) : Except Fault Bytes := do
  let (symbols, pads) ← lastSymbols start 0 none bs
  if ¬ (start = 0 ∧ bs = []) ∧ symbols.length < 2 then
    .error (.invalidLength (start + symbols.length))
  else if (symbols.length + pads) % 4 ≠ 0 then .error .invalidPadding
  else lastBytes start symbols

/-- The bytes of a text whose groups begin at an offset. -/
def decodeFrom (offset : Nat) : Bytes → Except Fault Bytes
  | a :: b :: c :: d :: e :: r => do
    let front ← group offset a b c d
    let rest ← decodeFrom (offset + 4) (e :: r)
    return front ++ rest
  | bs => lastGroup offset bs

/-- A single byte beyond full groups that is neither a symbol nor padding. -/
def strayLast (bs : Bytes) : Option Fault :=
  match bs.getLast? with
  | some b =>
    if bs.length % 4 = 1 ∧ b ≠ padByte ∧ value? b = none then
      some (.invalidByte (bs.length - 1) b)
    else none
  | none => none

/-- The bytes that a base64 text stands for. -/
def decode (bs : Bytes) : Except Fault Bytes :=
  match strayLast bs with
  | some f => .error f
  | none => decodeFrom 0 bs

end Base64

end Sysop
