/-
Sysop/Proofs/Base64/Canonical.lean

A text that is read as base64 is the written form of the bytes it is read as.

So no two texts stand for the same bytes: there is no other padding, no bit that is not read,
and no symbol more or less.  The proof turns every step of the reader around.  A byte with a
value is the symbol of this value (`symbol_of_value?`), four values are the four values of
the three bytes they make (`encode_bytes`), and a last group is symbols and then padding
(`LastGroup`), whose count leaves the three shapes in which `encode` ends.

Main result: `decode_eq_ok_iff`.
-/
import Sysop.Proofs.Base64

namespace Sysop

namespace Base64

/-! ### Steps of the reader -/

/-- Where a step and then the others give something, the step gave something first. -/
theorem ok_of_bind {α β : Type} {x : Except Fault α} {f : α → Except Fault β} {out : β}
    (h : x >>= f = .ok out) : ∃ a, x = .ok a ∧ f a = .ok out := by
  cases x with
  | error fault => cases h
  | ok a => exact ⟨a, rfl, h⟩

theorem symbol_of_value?_ofNat : ∀ n < 256, ∀ v ∈ value? (UInt8.ofNat n),
    v < 64 ∧ symbol v = UInt8.ofNat n := by
  decide +kernel

variable {offset start place v : Nat} {b : UInt8}

/-- A byte with a value is the symbol of this value. -/
theorem symbol_of_value? (h : value? b = some v) : v < 64 ∧ symbol v = b := by
  have hsymbol := symbol_of_value?_ofNat b.toNat b.toNat_lt
  rw [UInt8.ofNat_toNat] at hsymbol
  exact hsymbol v h

theorem symbol_of_valueAt (h : valueAt offset b = .ok v) : v < 64 ∧ symbol v = b := by
  unfold valueAt at h
  split at h
  · rename_i hvalue
    obtain rfl := Except.ok.inj h
    exact symbol_of_value? hvalue
  · cases h

/-! ### Values of bytes -/

theorem toNat_byte0 {a b : Nat} (ha : a < 64) (hb : b < 64) :
    (byte0 a b).toNat = a * 4 + b / 16 := by
  rw [byte0, UInt8.toNat_ofNat', Nat.mod_eq_of_lt (by omega)]

theorem toNat_byte1 {b c : Nat} (hc : c < 64) :
    (byte1 b c).toNat = b % 16 * 16 + c / 4 := by
  rw [byte1, UInt8.toNat_ofNat', Nat.mod_eq_of_lt (by omega)]

theorem toNat_byte2 {c d : Nat} (hd : d < 64) :
    (byte2 c d).toNat = c % 4 * 64 + d := by
  rw [byte2, UInt8.toNat_ofNat', Nat.mod_eq_of_lt (by omega)]

/-- The three bytes of four values are written as the symbols of these values. -/
theorem encode_bytes {a b c d : Nat} (ha : a < 64) (hb : b < 64) (hc : c < 64) (hd : d < 64)
    (r : Bytes) : encode (byte0 a b :: byte1 b c :: byte2 c d :: r)
      = symbol a :: symbol b :: symbol c :: symbol d :: encode r := by
  have hfirst : (a * 4 + b / 16) / 4 = a := by omega
  have hsecond : (a * 4 + b / 16) % 4 * 16 + (b % 16 * 16 + c / 4) / 16 = b := by omega
  have hthird : (b % 16 * 16 + c / 4) % 16 * 4 + (c % 4 * 64 + d) / 64 = c := by omega
  have hfourth : (c % 4 * 64 + d) % 64 = d := by omega
  rw [encode, toNat_byte0 ha hb, toNat_byte1 hc, toNat_byte2 hd, hfirst, hsecond, hthird, hfourth]

/-- Three values, of which the last has no bit that is not taken. -/
theorem encode_two_bytes {a b c : Nat} (ha : a < 64) (hb : b < 64) (hc : c < 64)
    (hrest : c % 4 = 0) :
    encode [byte0 a b, byte1 b c] = [symbol a, symbol b, symbol c, padByte] := by
  have hfirst : (a * 4 + b / 16) / 4 = a := by omega
  have hsecond : (a * 4 + b / 16) % 4 * 16 + (b % 16 * 16 + c / 4) / 16 = b := by omega
  have hthird : (b % 16 * 16 + c / 4) % 16 * 4 = c := by omega
  rw [encode, toNat_byte0 ha hb, toNat_byte1 hc, hfirst, hsecond, hthird]

/-- Two values, of which the last has no bit that is not taken. -/
theorem encode_one_byte {a b : Nat} (ha : a < 64) (hb : b < 64) (hrest : b % 16 = 0) :
    encode [byte0 a b] = [symbol a, symbol b, padByte, padByte] := by
  have hfirst : (a * 4 + b / 16) / 4 = a := by omega
  have hsecond : (a * 4 + b / 16) % 4 * 16 = b := by omega
  rw [encode, toNat_byte0 ha hb, hfirst, hsecond]

/-! ### Groups -/

theorem encode_of_group {a b c d : UInt8} {out : Bytes} (h : group offset a b c d = .ok out) :
    ∀ r, encode (out ++ r) = a :: b :: c :: d :: encode r := by
  obtain ⟨va, ha, h⟩ := ok_of_bind h
  obtain ⟨vb, hb, h⟩ := ok_of_bind h
  obtain ⟨vc, hc, h⟩ := ok_of_bind h
  obtain ⟨vd, hd, h⟩ := ok_of_bind h
  obtain rfl := Except.ok.inj h
  obtain ⟨hva, rfl⟩ := symbol_of_valueAt ha
  obtain ⟨hvb, rfl⟩ := symbol_of_valueAt hb
  obtain ⟨hvc, rfl⟩ := symbol_of_valueAt hc
  obtain ⟨hvd, rfl⟩ := symbol_of_valueAt hd
  exact encode_bytes hva hvb hvc hvd

/-- Symbols with their values, and then padding. -/
structure LastGroup (bs : Bytes) (symbols : List (UInt8 × Nat)) (pads : Nat) : Prop where
  bytes_eq : bs = symbols.map Prod.fst ++ List.replicate pads padByte
  symbol_eq : ∀ s ∈ symbols, s.2 < 64 ∧ s.1 = symbol s.2

namespace LastGroup

variable {bs : Bytes} {symbols : List (UInt8 × Nat)} {pads : Nat}

theorem length_eq (h : LastGroup bs symbols pads) : symbols.length + pads = bs.length := by
  rw [h.bytes_eq, List.length_append, List.length_map, List.length_replicate]

theorem nil : LastGroup [] [] 0 :=
  ⟨rfl, by simp⟩

theorem pad (h : LastGroup bs [] pads) : LastGroup (padByte :: bs) [] (pads + 1) :=
  ⟨by rw [h.bytes_eq]; rfl, by simp⟩

theorem symbol (h : LastGroup bs symbols pads) (hvalue : valueAt offset b = .ok v) :
    LastGroup (b :: bs) ((b, v) :: symbols) pads := by
  obtain ⟨hv, hb⟩ := symbol_of_valueAt hvalue
  refine ⟨by rw [h.bytes_eq]; rfl, ?_⟩
  intro s hs
  rcases List.mem_cons.mp hs with rfl | hs
  · exact ⟨hv, hb.symm⟩
  · exact h.symbol_eq s hs

end LastGroup

/-- What is read as symbols and padding is so, and no symbol comes behind padding. -/
theorem lastGroup_of_lastSymbols {bs : Bytes} :
    ∀ {place : Nat} {padAt : Option Nat} {out : List (UInt8 × Nat) × Nat},
      lastSymbols start place padAt bs = .ok out →
        LastGroup bs out.1 out.2 ∧ (padAt ≠ none → out.1 = []) := by
  induction bs with
  | nil =>
    intro place padAt out h
    obtain rfl := Except.ok.inj h
    exact ⟨.nil, fun _ => rfl⟩
  | cons b r ih =>
    intro place padAt out h
    unfold lastSymbols at h
    split at h
    · rename_i hb
      subst hb
      split at h
      · cases h
      · -- the place of this padding byte is kept, so only padding follows
        obtain ⟨⟨symbols, pads⟩, hrest, h⟩ := ok_of_bind h
        obtain rfl := Except.ok.inj h
        obtain ⟨hgroup, hsymbols⟩ := ih hrest
        obtain rfl : symbols = [] := hsymbols (by simp)
        exact ⟨hgroup.pad, fun _ => rfl⟩
    · split at h
      · cases h
      · obtain ⟨v, hvalue, h⟩ := ok_of_bind h
        obtain ⟨⟨symbols, pads⟩, hrest, h⟩ := ok_of_bind h
        obtain rfl := Except.ok.inj h
        exact ⟨(ih hrest).1.symbol hvalue, fun hne => absurd rfl hne⟩

/-- The bytes of two, three or four symbols are written as these symbols, filled up with
padding. -/
theorem encode_of_lastBytes {bs out : Bytes} {symbols : List (UInt8 × Nat)} {pads : Nat}
    (hgroup : LastGroup bs symbols pads) (hcount : symbols.length + pads = 4)
    (hleast : 2 ≤ symbols.length) (h : lastBytes start symbols = .ok out) : encode out = bs := by
  have hsymbol := hgroup.symbol_eq
  have hpads : pads = 4 - symbols.length := by omega
  rw [hgroup.bytes_eq]
  unfold lastBytes at h
  split at h
  · rename_i s₁ a s₂ b
    obtain rfl : pads = 2 := hpads
    split at h
    · rename_i hrest
      obtain rfl := Except.ok.inj h
      simp only [List.forall_mem_cons] at hsymbol
      obtain ⟨⟨ha, hs₁⟩, ⟨hb, hs₂⟩, -⟩ := hsymbol
      rw [encode_one_byte ha hb hrest, ← hs₁, ← hs₂]
      rfl
    · cases h
  · rename_i s₁ a s₂ b s₃ c
    obtain rfl : pads = 1 := hpads
    split at h
    · rename_i hrest
      obtain rfl := Except.ok.inj h
      simp only [List.forall_mem_cons] at hsymbol
      obtain ⟨⟨ha, hs₁⟩, ⟨hb, hs₂⟩, ⟨hc, hs₃⟩, -⟩ := hsymbol
      rw [encode_two_bytes ha hb hc hrest, ← hs₁, ← hs₂, ← hs₃]
      rfl
    · cases h
  · rename_i s₁ a s₂ b s₃ c s₄ d
    obtain rfl : pads = 0 := hpads
    obtain rfl := Except.ok.inj h
    simp only [List.forall_mem_cons] at hsymbol
    obtain ⟨⟨ha, hs₁⟩, ⟨hb, hs₂⟩, ⟨hc, hs₃⟩, ⟨hd, hs₄⟩, -⟩ := hsymbol
    rw [encode_bytes ha hb hc hd, ← hs₁, ← hs₂, ← hs₃, ← hs₄]
    rfl
  · -- no other count of symbols lies between two and four
    rename_i htwo hthree hfour
    exfalso
    match symbols with
    | [s, t] => exact htwo _ _ _ _ rfl
    | [s, t, u] => exact hthree _ _ _ _ _ _ rfl
    | [s, t, u, w] => exact hfour _ _ _ _ _ _ _ _ rfl
    | [] | [_] => simp at hleast
    | _ :: _ :: _ :: _ :: _ :: more =>
      simp only [List.length_cons] at hcount
      omega

/-- The last group has at most four bytes, and is written as it was read. -/
theorem encode_of_lastGroup {bs out : Bytes} (hlen : bs.length ≤ 4)
    (h : lastGroup start bs = .ok out) : encode out = bs := by
  obtain ⟨⟨symbols, pads⟩, hsymbols, h⟩ := ok_of_bind h
  have hgroup : LastGroup bs symbols pads := (lastGroup_of_lastSymbols hsymbols).1
  have hcount := hgroup.length_eq
  dsimp only at h
  split at h
  · cases h
  rename_i hshort
  split at h
  · cases h
  rename_i hmod
  by_cases hbs : bs = []
  · -- the count of symbols is not looked at for the empty text alone
    subst hbs
    rw [List.length_nil] at hcount
    obtain rfl : symbols = [] := List.length_eq_zero_iff.mp (by omega)
    obtain rfl := Except.ok.inj h
    rfl
  · have hleast : 2 ≤ symbols.length := by
      by_contra hfew
      exact hshort ⟨fun hempty => hbs hempty.2, by omega⟩
    exact encode_of_lastBytes hgroup (by omega) hleast h

/-! ### Whole texts -/

theorem encode_of_decodeFrom {s : Bytes} :
    ∀ {out : Bytes}, decodeFrom offset s = .ok out → encode out = s := by
  fun_induction decodeFrom offset s with
  | case1 offset a b c d e r ih =>
    intro out h
    obtain ⟨front, hfront, h⟩ := ok_of_bind h
    obtain ⟨rest, hrest, h⟩ := ok_of_bind h
    obtain rfl := Except.ok.inj h
    rw [encode_of_group hfront, ih hrest]
  | case2 offset s hshort =>
    intro out h
    refine encode_of_lastGroup ?_ h
    match s with
    | [] | [_] | [_, _] | [_, _, _] | [_, _, _, _] => simp
    | a :: b :: c :: d :: e :: r => exact absurd rfl (hshort a b c d e r)

/-- A text is read as bytes exactly if it is the written form of these bytes. -/
theorem decode_eq_ok_iff {s bs : Bytes} : decode s = .ok bs ↔ s = encode bs := by
  constructor
  · intro h
    unfold decode at h
    split at h
    · cases h
    · exact (encode_of_decodeFrom h).symm
  · rintro rfl
    exact decode_encode bs

end Base64

end Sysop
