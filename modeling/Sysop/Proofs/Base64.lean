/-
Sysop/Proofs/Base64.lean

What is written in base64 is read back.

The proofs go by groups of three bytes, as `encode` does: a full group is four symbols that
`group` reads (`group_symbols`), and the last group is read by `lastGroup`, whose three shapes
are `lastGroup_one`, `lastGroup_two` and `lastGroup_three`.

Main results: `decode_encode`, and `decode_encodeText` for the written form as a text.
-/
import Mathlib.Data.List.Basic
import Sysop.Base64
import Sysop.Proofs.Text.Blank
import Sysop.Proofs.Text.Utf8

namespace Sysop

namespace Base64

/-! ### Symbols -/

theorem symbol_ne_padByte {v : Nat} (hv : v < 64) : symbol v ≠ padByte := by
  intro h
  have hvalue := value?_symbol v hv
  rw [h, value?_padByte] at hvalue
  cases hvalue

theorem valueAt_symbol {v : Nat} (hv : v < 64) (offset : Nat) :
    valueAt offset (symbol v) = .ok v := by
  rw [valueAt, value?_symbol v hv]

/-! ### Three bytes in four values -/

variable (a b c : UInt8)

theorem first_lt : a.toNat / 4 < 64 := by
  have ha := a.toNat_lt
  omega

theorem second_lt : a.toNat % 4 * 16 + b.toNat / 16 < 64 := by
  have hb := b.toNat_lt
  omega

theorem third_lt : b.toNat % 16 * 4 + c.toNat / 64 < 64 := by
  have hc := c.toNat_lt
  omega

/-- The second value of a group of one byte. -/
theorem second_lt_of_one : a.toNat % 4 * 16 < 64 := by
  omega

/-- The third value of a group of two bytes. -/
theorem third_lt_of_two : b.toNat % 16 * 4 < 64 := by
  omega

theorem fourth_lt : c.toNat % 64 < 64 :=
  Nat.mod_lt _ (by decide)

theorem byte0_values (n : Nat) (hn : n < 16) :
    byte0 (a.toNat / 4) (a.toNat % 4 * 16 + n) = a := by
  have hsum : a.toNat / 4 * 4 + (a.toNat % 4 * 16 + n) / 16 = a.toNat := by omega
  rw [byte0, hsum, UInt8.ofNat_toNat]

theorem byte1_values (m n : Nat) (hn : n < 4) :
    byte1 (m * 16 + b.toNat / 16) (b.toNat % 16 * 4 + n) = b := by
  have hb := b.toNat_lt
  have hsum : (m * 16 + b.toNat / 16) % 16 * 16 + (b.toNat % 16 * 4 + n) / 4 = b.toNat := by
    omega
  rw [byte1, hsum, UInt8.ofNat_toNat]

theorem byte2_values (m : Nat) :
    byte2 (m * 4 + c.toNat / 64) (c.toNat % 64) = c := by
  have hc := c.toNat_lt
  have hsum : (m * 4 + c.toNat / 64) % 4 * 64 + c.toNat % 64 = c.toNat := by omega
  rw [byte2, hsum, UInt8.ofNat_toNat]

/-! ### Groups -/

theorem group_symbols (offset : Nat) :
    group offset (symbol (a.toNat / 4)) (symbol (a.toNat % 4 * 16 + b.toNat / 16))
      (symbol (b.toNat % 16 * 4 + c.toNat / 64)) (symbol (c.toNat % 64)) = .ok [a, b, c] := by
  have hb := b.toNat_lt
  have hc := c.toNat_lt
  simp only [group, valueAt_symbol (first_lt a), valueAt_symbol (second_lt a b),
    valueAt_symbol (third_lt b c), valueAt_symbol (fourth_lt c)]
  show Except.ok _ = _
  rw [byte0_values a _ (by omega), byte1_values b _ _ (by omega), byte2_values]

theorem lastSymbols_symbol {v : Nat} (hv : v < 64) (start place : Nat) (r : Bytes) :
    lastSymbols start place none (symbol v :: r)
      = (lastSymbols start (place + 1) none r).map fun p => ((symbol v, v) :: p.1, p.2) := by
  rw [lastSymbols, if_neg (symbol_ne_padByte hv), valueAt_symbol hv]
  rfl

theorem lastGroup_one (start : Nat) :
    lastGroup start (encode [a]) = .ok [a] := by
  have hsymbols : lastSymbols start 0 none (encode [a])
      = .ok ([(symbol (a.toNat / 4), a.toNat / 4),
          (symbol (a.toNat % 4 * 16), a.toNat % 4 * 16)], 2) := by
    rw [encode, lastSymbols_symbol (first_lt a), lastSymbols_symbol (second_lt_of_one a)]
    rfl
  have hbytes := byte0_values a 0 (by decide)
  rw [Nat.add_zero] at hbytes
  simp [lastGroup, hsymbols, bind, Except.bind, lastBytes, hbytes]

theorem lastGroup_two (start : Nat) :
    lastGroup start (encode [a, b]) = .ok [a, b] := by
  have hb := b.toNat_lt
  have hsymbols : lastSymbols start 0 none (encode [a, b])
      = .ok ([(symbol (a.toNat / 4), a.toNat / 4),
          (symbol (a.toNat % 4 * 16 + b.toNat / 16), a.toNat % 4 * 16 + b.toNat / 16),
          (symbol (b.toNat % 16 * 4), b.toNat % 16 * 4)], 1) := by
    rw [encode, lastSymbols_symbol (first_lt a), lastSymbols_symbol (second_lt a b),
      lastSymbols_symbol (third_lt_of_two b)]
    rfl
  have hbyte1 := byte1_values b (a.toNat % 4) 0 (by decide)
  rw [Nat.add_zero] at hbyte1
  simp [lastGroup, hsymbols, bind, Except.bind, lastBytes, byte0_values a (b.toNat / 16) (by omega),
    hbyte1]

theorem lastGroup_three (start : Nat) :
    lastGroup start (encode [a, b, c]) = .ok [a, b, c] := by
  have hb := b.toNat_lt
  have hc := c.toNat_lt
  have hsymbols : lastSymbols start 0 none (encode [a, b, c])
      = .ok ([(symbol (a.toNat / 4), a.toNat / 4),
          (symbol (a.toNat % 4 * 16 + b.toNat / 16), a.toNat % 4 * 16 + b.toNat / 16),
          (symbol (b.toNat % 16 * 4 + c.toNat / 64), b.toNat % 16 * 4 + c.toNat / 64),
          (symbol (c.toNat % 64), c.toNat % 64)], 0) := by
    rw [encode, lastSymbols_symbol (first_lt a), lastSymbols_symbol (second_lt a b),
      lastSymbols_symbol (third_lt b c), lastSymbols_symbol (fourth_lt c)]
    rfl
  simp [lastGroup, hsymbols, bind, Except.bind, lastBytes, byte0_values a (b.toNat / 16) (by omega),
    byte1_values b (a.toNat % 4) (c.toNat / 64) (by omega), byte2_values]

/-! ### Whole texts -/

variable {a b c}

theorem exists_encode_cons {bs : Bytes} (h : bs ≠ []) : ∃ s r, encode bs = s :: r := by
  fun_cases encode bs with
  | case1 => exact ⟨_, _, rfl⟩
  | case2 => exact ⟨_, _, rfl⟩
  | case3 => exact ⟨_, _, rfl⟩
  | case4 => exact absurd rfl h

theorem decodeFrom_encode {bs : Bytes} (h : bs ≠ []) :
    ∀ offset, decodeFrom offset (encode bs) = .ok bs := by
  induction bs using encode.induct with
  | case1 a b c r ih =>
    intro offset
    by_cases hr : r = []
    · subst hr
      exact lastGroup_three a b c offset
    · obtain ⟨s, r', hencode⟩ := exists_encode_cons hr
      have hrest := ih hr (offset + 4)
      rw [hencode] at hrest
      rw [encode, hencode, decodeFrom, group_symbols, hrest]
      rfl
  | case2 a b => exact fun offset => lastGroup_two a b offset
  | case3 a => exact fun offset => lastGroup_one a offset
  | case4 => exact absurd rfl h

theorem length_encode_mod (bs : Bytes) : (encode bs).length % 4 = 0 := by
  induction bs using encode.induct with
  | case1 a b c r ih =>
    simp only [encode, List.length_cons]
    omega
  | case2 a b => simp [encode]
  | case3 a => simp [encode]
  | case4 => rfl

theorem strayLast_encode (bs : Bytes) : strayLast (encode bs) = none := by
  have hlen := length_encode_mod bs
  unfold strayLast
  split
  · rw [if_neg (by omega)]
  · rfl

/-- What is written is read back. -/
theorem decode_encode (bs : Bytes) : decode (encode bs) = .ok bs := by
  by_cases h : bs = []
  · rw [h]
    rfl
  · rw [decode, strayLast_encode]
    exact decodeFrom_encode h 0

/-! ### The written form as a text -/

/-- Only symbols and padding are written. -/
theorem eq_of_mem_encode {bs : Bytes} {s : UInt8} (h : s ∈ encode bs) :
    s = padByte ∨ ∃ v < 64, s = symbol v := by
  induction bs using encode.induct with
  | case1 a b c r ih =>
    simp only [encode, List.mem_cons] at h
    rcases h with rfl | rfl | rfl | rfl | h
    · exact .inr ⟨_, first_lt a, rfl⟩
    · exact .inr ⟨_, second_lt a b, rfl⟩
    · exact .inr ⟨_, third_lt b c, rfl⟩
    · exact .inr ⟨_, fourth_lt c, rfl⟩
    · exact ih h
  | case2 a b =>
    simp only [encode, List.mem_cons, List.not_mem_nil, or_false] at h
    rcases h with rfl | rfl | rfl | rfl
    · exact .inr ⟨_, first_lt a, rfl⟩
    · exact .inr ⟨_, second_lt a b, rfl⟩
    · exact .inr ⟨_, third_lt_of_two b, rfl⟩
    · exact .inl rfl
  | case3 a =>
    simp only [encode, List.mem_cons, List.not_mem_nil, or_false] at h
    rcases h with rfl | rfl | rfl | rfl
    · exact .inr ⟨_, first_lt a, rfl⟩
    · exact .inr ⟨_, second_lt_of_one a, rfl⟩
    · exact .inl rfl
    · exact .inl rfl
  | case4 => cases h

theorem symbol_isPlain : ∀ v < 64, Text.isBlank (Char.ofNat (symbol v).toNat) = false ∧
    String.utf8EncodeChar (Char.ofNat (symbol v).toNat) = [symbol v] := by
  decide +kernel

/-- What is written is one byte for each character, and none of them is blank. -/
theorem isPlain_of_mem_encode {bs : Bytes} {s : UInt8} (h : s ∈ encode bs) :
    Text.isBlank (Char.ofNat s.toNat) = false ∧
      String.utf8EncodeChar (Char.ofNat s.toNat) = [s] := by
  rcases eq_of_mem_encode h with rfl | ⟨v, hv, rfl⟩
  · decide +kernel
  · exact symbol_isPlain v hv

theorem solid_encodeText (bs : Bytes) : Text.Solid (encodeText bs).toList := by
  intro c hc
  rw [encodeText, String.toList_ofList, List.mem_map] at hc
  obtain ⟨s, hs, rfl⟩ := hc
  exact (isPlain_of_mem_encode hs).1

/-- The bytes of the text are those that were written. -/
theorem encode_encodeText (bs : Bytes) : Utf8.encode (encodeText bs) = encode bs := by
  have hbytes : ∀ s ∈ encode bs, String.utf8EncodeChar (Char.ofNat s.toNat) = [s] :=
    fun s hs => (isPlain_of_mem_encode hs).2
  rw [Utf8.encode, encodeText, String.toList_ofList, List.flatMap_map]
  calc (encode bs).flatMap (fun s => String.utf8EncodeChar (Char.ofNat s.toNat))
      = (encode bs).flatMap (fun s => [s]) := List.flatMap_congr hbytes
    _ = encode bs := List.flatMap_singleton' _

theorem decode_encodeText (bs : Bytes) : decode (Utf8.encode (encodeText bs)) = .ok bs := by
  rw [encode_encodeText, decode_encode]

end Base64

end Sysop
