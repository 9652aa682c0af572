/-
Sysop/Address.lean

Internet addresses and their texts.

An address of version 4 is four decimal octets without leading zeros.  One of
version 6 is eight hexadecimal groups, of which one run of zeros may be left out
with two colons and the last two may be written as an address of version 4.  The
text of an address leaves out its first longest run of two zeros or more.
-/
import Sysop.Text.Numeral

namespace Sysop

/-- An internet address of version 4 or 6. -/
inductive IpAddress
  | v4 (a b c d : UInt8)
  | v6 (groups : Vector UInt16 8)
  deriving DecidableEq, Repr

/-- An address and a port. -/
structure SocketAddress where
  ip : IpAddress
  port : UInt16
  deriving DecidableEq, Repr

namespace Address

/-! ### Reading numbers -/

/-- Numbers of one kind inside an address. -/
structure NumberKind where
  base : Nat
  digit? : Char → Option Nat
  width : Nat
  leadingZeros : Bool
  limit : Nat

/-- An octet of version 4. -/
def octetKind : NumberKind := ⟨10, Numeral.digit?, 3, false, UInt8.size⟩

/-- A group of version 6. -/
def groupKind : NumberKind := ⟨16, Numeral.hexDigit?, 4, true, UInt16.size⟩

/-- The digits at the front of a text: their characters and the rest. -/
def NumberKind.digits (k : NumberKind) (cs : List Char) : List Char × List Char :=
  cs.span fun c => (k.digit? c).isSome

/-- A number at the front of a text, and the rest. -/
def NumberKind.read? (k : NumberKind) (cs : List Char) : Option (Nat × List Char) :=
  let (ds, rest) := k.digits cs
  let n := Numeral.valueOf k.base (ds.filterMap k.digit?)
  if ds = [] ∨ k.width < ds.length then none
  else if k.leadingZeros = false ∧ ds.head? = some '0' ∧ 1 < ds.length then none
  else if n < k.limit then some (n, rest)
  else none

/-- The rest of a text that begins with the given character. -/
def skip? (c : Char) : List Char → Option (List Char)
  | x :: r => if x = c then some r else none
  | [] => none

/-! ### Reading addresses -/

/-- Four octets with dots between them, and the rest. -/
def readV4? (cs : List Char) : Option ((Nat × Nat × Nat × Nat) × List Char) := do
  let (a, r) ← octetKind.read? cs
  let (b, r) ← skip? '.' r >>= octetKind.read?
  let (c, r) ← skip? '.' r >>= octetKind.read?
  let (d, r) ← skip? '.' r >>= octetKind.read?
  return ((a, b, c, d), r)

/-- The text after the colon that every item but the first has in front. -/
def separated? (isFirst : Bool) (cs : List Char) : Option (List Char) :=
  if isFirst then some cs else skip? ':' cs

/-- As many groups as there are, up to `left` of them: their values, whether the
last two were written as an address of version 4, and the rest. -/
def readGroups : Nat → Bool → List Char → List Nat × Bool × List Char
  | 0, _, cs => ([], false, cs)
  | left + 1, isFirst, cs =>
    match if left = 0 then none else separated? isFirst cs >>= readV4? with
    | some ((a, b, c, d), r) => ([a * 256 + b, c * 256 + d], true, r)
    | none =>
      match separated? isFirst cs >>= groupKind.read? with
      | some (g, r) =>
        let (gs, dotted, r') := readGroups left false r
        (g :: gs, dotted, r')
      | none => ([], false, cs)

/-- The eight groups of an address of version 6, and the rest. -/
def readV6? (cs : List Char) : Option (List Nat × List Char) :=
  let (head, dotted, r) := readGroups 8 true cs
  if head.length = 8 then some (head, r)
  else if dotted then none
  else
    match skip? ':' r >>= skip? ':' with
    | none => none
    | some r =>
      let (tail, _, r') := readGroups (7 - head.length) true r
      some (head ++ List.replicate (8 - head.length - tail.length) 0 ++ tail, r')

end Address

namespace IpAddress

open Address

/-- The address of version 4 of four numbers. -/
def ofOctets : Nat × Nat × Nat × Nat → IpAddress
  | (a, b, c, d) => .v4 (UInt8.ofNat a) (UInt8.ofNat b) (UInt8.ofNat c) (UInt8.ofNat d)

/-- The address of version 6 of eight numbers. -/
def ofGroups (gs : List Nat) : IpAddress :=
  .v6 (Vector.ofFn fun i => UInt16.ofNat (gs.getD i.val 0))

/-- An address at the front of a text, and the rest. -/
def read? (cs : List Char) : Option (IpAddress × List Char) :=
  match readV4? cs with
  | some (octets, r) => some (ofOctets octets, r)
  | none =>
    match readV6? cs with
    | some (gs, r) => some (ofGroups gs, r)
    | none => none

/-- The address that a text is. -/
def parse? (s : String) : Option IpAddress :=
  match read? s.toList with
  | some (ip, []) => some ip
  | _ => none

/-! ### Text -/

/-- What a walk over groups knows: the run of zeros that it is in and the longest
run so far, each as its start and its length. -/
structure ZeroRuns where
  index : Nat := 0
  current : Nat × Nat := (0, 0)
  longest : Nat × Nat := (0, 0)

/-- One group of the walk. -/
def ZeroRuns.next (z : ZeroRuns) (g : Nat) : ZeroRuns :=
  if g = 0 then
    let current := if z.current.2 = 0 then (z.index, 1) else (z.current.1, z.current.2 + 1)
    ⟨z.index + 1, current, if z.longest.2 < current.2 then current else z.longest⟩
  else ⟨z.index + 1, (0, 0), z.longest⟩

/-- The start and the length of the first longest run of zeros. -/
def longestZeros (gs : List Nat) : Nat × Nat :=
  (gs.foldl ZeroRuns.next {}).longest

/-- Groups with colons between them. -/
def joinGroups (gs : List Nat) : String :=
  String.intercalate ":" (gs.map Numeral.hex)

/-- Four octets with dots between them. -/
def joinOctets (a b c d : Nat) : String :=
  String.intercalate "." ([a, b, c, d].map Numeral.decimal)

/-- The text of eight groups.  An address of version 4 in the last two of them,
behind a group of ones, keeps its dots. -/
def groupsText (gs : List Nat) : String :=
  match gs with
  | [0, 0, 0, 0, 0, 0xFFFF, x, y] =>
    "::ffff:" ++ joinOctets (x / 256) (x % 256) (y / 256) (y % 256)
  | gs =>
    let (start, len) := longestZeros gs
    if 1 < len then joinGroups (gs.take start) ++ "::" ++ joinGroups (gs.drop (start + len))
    else joinGroups gs

/-- The groups of an address of version 6 as numbers. -/
def groupValues (groups : Vector UInt16 8) : List Nat :=
  groups.toList.map UInt16.toNat

/-- The text of an address. -/
def text : IpAddress → String
  | .v4 a b c d => joinOctets a.toNat b.toNat c.toNat d.toNat
  | .v6 groups => groupsText (groupValues groups)

/-- The address that stands for every address of version 4 of the host. -/
def anyV4 : IpAddress := .v4 0 0 0 0

end IpAddress

namespace SocketAddress

open Address

/-- The text of a socket address: version 6 stands in square brackets. -/
def text (a : SocketAddress) : String :=
  match a.ip with
  | .v4 .. => a.ip.text ++ ":" ++ Numeral.decimal a.port.toNat
  | .v6 .. => "[" ++ a.ip.text ++ "]:" ++ Numeral.decimal a.port.toNat

/-- A port: decimal digits, leading zeros allowed. -/
def port? (cs : List Char) : Option UInt16 :=
  match cs.mapM Numeral.digit? with
  | none => none
  | some [] => none
  | some ds =>
    let n := Numeral.valueOf 10 ds
    if n < UInt16.size then some (UInt16.ofNat n) else none

/-- The socket address that a text is. -/
def parse? (s : String) : Option SocketAddress :=
  match skip? '[' s.toList with
  | some r => do
    let (gs, r) ← readV6? r
    let r ← skip? ']' r >>= skip? ':'
    let port ← port? r
    return ⟨IpAddress.ofGroups gs, port⟩
  | none => do
    let (octets, r) ← readV4? s.toList
    let r ← skip? ':' r
    let port ← port? r
    return ⟨IpAddress.ofOctets octets, port⟩

end SocketAddress

end Sysop
