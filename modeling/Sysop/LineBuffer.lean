/-
Sysop/LineBuffer.lean

Bytes from a terminal, cut into lines as they come in.

A line ends with a carriage return, a line feed, or the first followed by the
second; the pair is one end even if it arrives in two chunks.  A line is cut at
the limit of the buffer, and a full buffer without an end is a line by itself.
The limit counts bytes before they become text.
-/
import Sysop.Text.Utf8

namespace Sysop

/-- The bytes that are no line yet. -/
structure LineBuffer where
  pending : Bytes := []
  limit : Nat := 1024
  /-- The last line was ended by a carriage return at the very end of the input,
  so a line feed that comes next belongs to it. -/
  skipFeed : Bool := false
  deriving DecidableEq, Repr

namespace LineBuffer

/-! ### Bytes that end lines -/

/-- The carriage return. -/
def cr : UInt8 := 0x0D

/-- The line feed. -/
def lf : UInt8 := 0x0A

/-- A byte inside a line. -/
def isInner (b : UInt8) : Bool :=
  b != cr && b != lf

/-! ### Operations -/

/-- A buffer with nothing in it. -/
def empty (limit : Nat) : LineBuffer :=
  { limit }

/-- The bytes without the line feed at their front. -/
def dropFeed : Bytes → Bytes
  | [] => []
  | b :: r => if b = lf then r else b :: r

/-- More bytes have come in. -/
def extend (b : LineBuffer) (data : Bytes) : LineBuffer :=
  if b.skipFeed ∧ data ≠ [] then
    { b with pending := b.pending ++ dropFeed data, skipFeed := false }
  else { b with pending := b.pending ++ data }

/-- The buffer after a line that was ended by a byte with `rest` behind it. -/
def afterEnd (b : LineBuffer) (ending : UInt8) (rest : Bytes) : LineBuffer :=
  if ending = cr then
    if rest = [] then { b with pending := [], skipFeed := true }
    else { b with pending := dropFeed rest }
  else { b with pending := rest }

/-- The text of the bytes of a line, as many as the limit allows. -/
def cut (b : LineBuffer) (line : Bytes) : String :=
  Utf8.decodeLossy (line.take b.limit)

/-- The next line and the buffer behind it, if there is a line. -/
def nextLine? (b : LineBuffer) : Option (String × LineBuffer) :=
  let line := b.pending.takeWhile isInner
  match b.pending.dropWhile isInner with
  | ending :: rest => some (b.cut line, b.afterEnd ending rest)
  | [] =>
    if b.limit ≤ line.length then some (b.cut line, { b with pending := line.drop b.limit })
    else none

/-- The buffer with nothing in it. -/
def clear (b : LineBuffer) : LineBuffer :=
  { b with pending := [], skipFeed := false }

/-- What is left as a last line, and the buffer with nothing in it. -/
def takeRemaining (b : LineBuffer) : String × LineBuffer :=
  (b.cut b.pending, b.clear)

/-! ### Histories -/

/-- One use of a buffer. -/
inductive Act
  | extend (data : Bytes)
  | next
  | take
  | clear
  deriving DecidableEq, Repr

/-- The text that a use gives, if it gives one, and the buffer after it. -/
def perform (b : LineBuffer) : Act → Option String × LineBuffer
  | .extend data => (none, b.extend data)
  | .next =>
    match b.nextLine? with
    | some (line, b') => (some line, b')
    | none => (none, b)
  | .take =>
    let (line, b') := b.takeRemaining
    (some line, b')
  | .clear => (none, b.clear)

/-- The texts that a history gives, use by use, each with the buffer after it. -/
def performAll (b : LineBuffer) : List Act → List (Option String × LineBuffer)
  | [] => []
  | act :: rest => b.perform act :: (b.perform act).2.performAll rest

/-! ### Small facts -/

@[simp] theorem limit_extend (b : LineBuffer) (data : Bytes) :
    (b.extend data).limit = b.limit := by
  unfold extend
  split <;> rfl

@[simp] theorem extend_nil (b : LineBuffer) : b.extend [] = b := by
  simp [extend]

end LineBuffer

end Sysop
