/-
Sysop/Wire.lean

The wire format of keys: numbers of four bytes, highest first, and strings with
their length in front.  What is written is read back with whatever follows it.
-/
import Sysop.Text.Utf8

namespace Sysop

namespace Wire

/-! ### Numbers -/

/-- The four bytes of a number below two to the thirty-two, highest first. -/
def be32 (n : Nat) : Bytes :=
  [UInt8.ofNat (n / 0x1000000), UInt8.ofNat (n / 0x10000), UInt8.ofNat (n / 0x100), UInt8.ofNat n]

/-- The number of four bytes. -/
def number (a b c d : UInt8) : Nat :=
  a.toNat * 0x1000000 + b.toNat * 0x10000 + c.toNat * 0x100 + d.toNat

/-- A number at the front, and what follows it. -/
def readNumber? : Bytes → Option (Nat × Bytes)
  | a :: b :: c :: d :: r => some (number a b c d, r)
  | _ => none

/-! ### Strings -/

/-- A string: its length, then its bytes. -/
def string (bs : Bytes) : Bytes :=
  be32 bs.length ++ bs

/-- The first `n` bytes and the rest, if there are that many. -/
def take? (n : Nat) (bs : Bytes) : Option (Bytes × Bytes) :=
  if n ≤ bs.length then some (bs.take n, bs.drop n) else none

/-- A string at the front, and what follows it. -/
def readString? (bs : Bytes) : Option (Bytes × Bytes) := do
  let (n, r) ← readNumber? bs
  take? n r

/-- An integer in the shortest form: no zero byte in front that its sign does not
need. -/
def isInteger : Bytes → Bool
  | [0] => false
  | 0 :: b :: _ => 0x80 ≤ b
  | _ => true

/-- An integer at the front, and what follows it. -/
def readInteger? (bs : Bytes) : Option (Bytes × Bytes) := do
  let (n, r) ← readString? bs
  if isInteger n then some (n, r) else none

/-! ### Small facts -/

theorem number_be32 {n : Nat} (h : n < 0x100000000) :
    number (UInt8.ofNat (n / 0x1000000)) (UInt8.ofNat (n / 0x10000))
      (UInt8.ofNat (n / 0x100)) (UInt8.ofNat n) = n := by
  simp only [number, UInt8.toNat_ofNat']
  omega

/-- Four bytes are the written form of their number. -/
theorem be32_number (a b c d : UInt8) : be32 (number a b c d) = [a, b, c, d] := by
  have ha := a.toNat_lt
  have hb := b.toNat_lt
  have hc := c.toNat_lt
  have hd := d.toNat_lt
  simp only [be32, number, List.cons.injEq, and_true]
  refine ⟨?_, ?_, ?_, ?_⟩ <;>
    · apply UInt8.toNat_inj.mp
      simp only [UInt8.toNat_ofNat']
      omega

/-- A number is read back. -/
theorem readNumber?_be32 {n : Nat} (h : n < 0x100000000) (r : Bytes) :
    readNumber? (be32 n ++ r) = some (n, r) := by
  simp only [be32, List.cons_append, List.nil_append, readNumber?, number_be32 h]

/-- What is read as a number is its written form. -/
theorem eq_append_of_readNumber? {bs r : Bytes} {n : Nat} (h : readNumber? bs = some (n, r)) :
    bs = be32 n ++ r ∧ n < 0x100000000 := by
  unfold readNumber? at h
  split at h
  · rename_i a b c d r'
    simp only [Option.some.injEq, Prod.mk.injEq] at h
    obtain ⟨rfl, rfl⟩ := h
    have ha := a.toNat_lt
    have hb := b.toNat_lt
    have hc := c.toNat_lt
    have hd := d.toNat_lt
    refine ⟨by simp [be32_number], ?_⟩
    simp only [number]
    omega
  · simp at h

/-- A string is read back. -/
theorem readString?_string {bs : Bytes} (h : bs.length < 0x100000000) (r : Bytes) :
    readString? (string bs ++ r) = some (bs, r) := by
  simp [readString?, string, readNumber?_be32 h, take?]

end Wire

end Sysop
