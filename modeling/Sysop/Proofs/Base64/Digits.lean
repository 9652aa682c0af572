/-
Sysop/Proofs/Base64/Digits.lean

The written form of bytes as one number in two bases.

Bytes are the digits of a number in base 256, and a base64 text shows digits in base 64.  A
byte is worth eight bits and a digit six, so the number of the text is that of the bytes with
a few zero bits behind it, two for each padding sign (`Spells`).  Nothing is said about
groups here: that the written form comes in groups of three bytes is how it is computed.

Counts and numbers leave only one list of digits (`Spells.unique`), so bytes have one written
form, the one that `encode` computes.

Main result: `written_iff`.
-/
import Mathlib.Data.Nat.Digits.Lemmas
import Sysop.Proofs.Base64

namespace Sysop

/-! ### Digits -/

namespace Numeral

variable {base : Nat} {xs ys : List Nat}

/-- The value of digits read from the left is that of their reverse read from the right. -/
theorem valueOf_eq_ofDigits (base : Nat) (xs : List Nat) :
    valueOf base xs = Nat.ofDigits base xs.reverse := by
  induction xs using List.reverseRecOn with
  | nil => rfl
  | append_singleton xs d ih =>
    rw [List.reverse_append, List.reverse_singleton, List.singleton_append, Nat.ofDigits_cons,
      ← ih, valueOf, List.foldl_append]
    show valueOf base xs * base + d = _
    rw [Nat.mul_comm, Nat.add_comm]

theorem valueOf_append (base : Nat) (xs ys : List Nat) :
    valueOf base (xs ++ ys) = valueOf base xs * base ^ ys.length + valueOf base ys := by
  simp only [valueOf_eq_ofDigits, List.reverse_append, Nat.ofDigits_append, List.length_reverse]
  rw [Nat.mul_comm, Nat.add_comm]

/-- Digits are known from their count and their value. -/
theorem eq_of_valueOf_eq (hbase : 1 < base) (hlen : xs.length = ys.length)
    (hxs : ∀ d ∈ xs, d < base) (hys : ∀ d ∈ ys, d < base)
    (h : valueOf base xs = valueOf base ys) : xs = ys := by
  rw [valueOf_eq_ofDigits, valueOf_eq_ofDigits] at h
  refine List.reverse_injective (Nat.ofDigits_inj_of_len_eq hbase ?_ ?_ ?_ h)
  · rw [List.length_reverse, List.length_reverse, hlen]
  · exact fun d hd => hxs d (List.mem_reverse.mp hd)
  · exact fun d hd => hys d (List.mem_reverse.mp hd)

end Numeral

namespace Base64

open Numeral (valueOf valueOf_append)

/-! ### Digits that spell bytes -/

/-- The symbols of the digits, from zero on. -/
def alphabet : List Char :=
  "ABCDEFGHIJKLMNOPQRSTUVWXYZabcdefghijklmnopqrstuvwxyz0123456789+/".toList

/-- The digits of a group of three bytes. -/
def groupDigits (a b c : UInt8) : List Nat :=
  [a.toNat / 4, a.toNat % 4 * 16 + b.toNat / 16, b.toNat % 16 * 4 + c.toNat / 64, c.toNat % 64]

/-- A group is one number in both bases. -/
theorem valueOf_groupDigits (a b c : UInt8) :
    valueOf 64 (groupDigits a b c) = valueOf 256 [a.toNat, b.toNat, c.toNat] := by
  have hb := b.toNat_lt
  have hc := c.toNat_lt
  simp only [groupDigits, valueOf, List.foldl_cons, List.foldl_nil]
  omega

/-- Digits and a number of padding signs that stand for bytes. -/
structure Spells (digits : List Nat) (pads : Nat) (bs : Bytes) : Prop where
  digit_lt : ∀ d ∈ digits, d < 64
  pads_lt : pads < 3
  /-- Six bits a digit are eight bits a byte and two bits a padding sign. -/
  count : 3 * digits.length = 4 * bs.length + pads
  /-- The bits that no byte takes are zero. -/
  value : valueOf 64 digits = valueOf 256 (bs.map UInt8.toNat) * 4 ^ pads

/-- A text is the written form of bytes. -/
def Written (text : List Char) (bs : Bytes) : Prop :=
  ∃ digits pads, Spells digits pads bs ∧
    text = digits.map (alphabet.getD · '=') ++ List.replicate pads '='

namespace Spells

variable {digits digits' : List Nat} {pads pads' : Nat} {bs : Bytes}

/-- Bytes are spelt in one way. -/
theorem unique (h : Spells digits pads bs) (h' : Spells digits' pads' bs) :
    digits = digits' ∧ pads = pads' := by
  have hcount := h.count
  have hcount' := h'.count
  have hpads := h.pads_lt
  have hpads' := h'.pads_lt
  -- three divides what the two numbers of padding signs differ by
  obtain rfl : pads = pads' := by omega
  refine ⟨Numeral.eq_of_valueOf_eq (by decide) (by omega) h.digit_lt h'.digit_lt ?_, rfl⟩
  rw [h.value, h'.value]

/-- The same bits, in digits of six and in bytes of eight. -/
theorem pow_eq (h : Spells digits pads bs) : 64 ^ digits.length = 256 ^ bs.length * 4 ^ pads := by
  calc 64 ^ digits.length
      = 4 ^ (3 * digits.length) := by rw [Nat.pow_mul]
    _ = 4 ^ (4 * bs.length + pads) := by rw [h.count]
    _ = 256 ^ bs.length * 4 ^ pads := by rw [Nat.pow_add, Nat.pow_mul]

/-- Three bytes in front are four digits in front. -/
theorem group (a b c : UInt8) (h : Spells digits pads bs) :
    Spells (groupDigits a b c ++ digits) pads (a :: b :: c :: bs) where
  digit_lt := by
    simp only [groupDigits, List.cons_append, List.nil_append, List.forall_mem_cons]
    exact ⟨first_lt a, second_lt a b, third_lt b c, fourth_lt c, h.digit_lt⟩
  pads_lt := h.pads_lt
  count := by
    have hcount := h.count
    simp only [groupDigits, List.length_append, List.length_cons, List.length_nil]
    omega
  value := by
    calc valueOf 64 (groupDigits a b c ++ digits)
        = valueOf 64 (groupDigits a b c) * 64 ^ digits.length + valueOf 64 digits :=
          valueOf_append ..
      _ = valueOf 256 [a.toNat, b.toNat, c.toNat] * (256 ^ bs.length * 4 ^ pads)
            + valueOf 256 (bs.map UInt8.toNat) * 4 ^ pads := by
          rw [valueOf_groupDigits, h.pow_eq, h.value]
      _ = (valueOf 256 [a.toNat, b.toNat, c.toNat] * 256 ^ (bs.map UInt8.toNat).length
            + valueOf 256 (bs.map UInt8.toNat)) * 4 ^ pads := by
          rw [List.length_map]
          ring
      _ = valueOf 256 ([a.toNat, b.toNat, c.toNat] ++ bs.map UInt8.toNat) * 4 ^ pads := by
          rw [valueOf_append]

end Spells

/-! ### The written form -/

/-- What is written are digits that spell the bytes, and padding. -/
theorem exists_spells_encode (bs : Bytes) :
    ∃ digits pads, Spells digits pads bs ∧
      encode bs = digits.map symbol ++ List.replicate pads padByte := by
  induction bs using encode.induct with
  | case1 a b c r ih =>
    obtain ⟨digits, pads, hspells, hencode⟩ := ih
    exact ⟨_, pads, hspells.group a b c, by rw [encode, hencode]; rfl⟩
  -- a group that is not full: its last digit has two low bits of no byte, or four
  | case2 a b =>
    have hb := b.toNat_lt
    refine ⟨[a.toNat / 4, a.toNat % 4 * 16 + b.toNat / 16, b.toNat % 16 * 4], 1, ?_, rfl⟩
    refine ⟨?_, by decide, rfl, ?_⟩
    · simpa using ⟨first_lt a, second_lt a b, third_lt_of_two b⟩
    · simp only [valueOf, List.map_cons, List.map_nil, List.foldl_cons, List.foldl_nil]
      omega
  | case3 a =>
    refine ⟨[a.toNat / 4, a.toNat % 4 * 16], 2, ⟨?_, by decide, rfl, ?_⟩, rfl⟩
    · simpa using ⟨first_lt a, second_lt_of_one a⟩
    · simp only [valueOf, List.map_cons, List.map_nil, List.foldl_cons, List.foldl_nil]
      omega
  | case4 => exact ⟨[], 0, ⟨by simp, by decide, rfl, rfl⟩, rfl⟩

theorem ofNat_symbol : ∀ v < 64, Char.ofNat (symbol v).toNat = alphabet.getD v '=' := by
  decide +kernel

theorem written_encodeText (bs : Bytes) : Written (encodeText bs).toList bs := by
  obtain ⟨digits, pads, hspells, hencode⟩ := exists_spells_encode bs
  refine ⟨digits, pads, hspells, ?_⟩
  rw [encodeText, String.toList_ofList, hencode, List.map_append, List.map_map,
    List.map_replicate]
  have hsymbols : digits.map ((fun b : UInt8 => Char.ofNat b.toNat) ∘ symbol)
      = digits.map (alphabet.getD · '=') :=
    List.map_congr_left fun d hd => ofNat_symbol d (hspells.digit_lt d hd)
  rw [hsymbols]
  rfl

/-- Bytes have one written form. -/
theorem written_iff {text : List Char} {bs : Bytes} :
    Written text bs ↔ text = (encodeText bs).toList := by
  constructor
  · rintro ⟨digits, pads, hspells, rfl⟩
    obtain ⟨digits', pads', hspells', htext⟩ := written_encodeText bs
    obtain ⟨rfl, rfl⟩ := hspells.unique hspells'
    exact htext.symm
  · rintro rfl
    exact written_encodeText bs

end Base64

end Sysop
