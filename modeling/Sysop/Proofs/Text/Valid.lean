/-
Sysop/Proofs/Text/Valid.lean

Valid UTF-8 is a written text, and only the text it is read as is written so.

A scan without a fault goes through whole characters: the first byte says how many are owed
(`lead_cases`), and each of them is six bits behind the mark 0x80, within the range that the
scan asks for (`exists_further`).  These are the bytes that the character is written with
(`utf8EncodeChar_two`, `utf8EncodeChar_three`, `utf8EncodeChar_four`), because the first range
leaves out long forms, surrogates and values that are too large.

Main result: `decode?_eq_some_iff`.
-/
import Sysop.Proofs.Text.Utf8

namespace Sysop

namespace Utf8

/-! ### Faultless scans -/

variable {bs r : Bytes} {p : Partial}

/-- What stands for no fault, in the order of the text. -/
theorem mapM_id_eq_some {ps : List Piece} {cs : List Char} (h : ps.mapM id = some cs) :
    ps = cs.map some := by
  induction ps generalizing cs with
  | nil =>
    obtain rfl : [] = cs := by simpa using h
    rfl
  | cons piece ps ih =>
    cases piece with
    | none => simp at h
    | some c =>
      cases hrest : ps.mapM id with
      | none => simp [hrest] at h
      | some cs' =>
        obtain rfl : c :: cs' = cs := by simpa [hrest] using h
        rw [ih hrest, List.map_cons]

/-- A character that has begun goes on with six bits behind the mark. -/
theorem exists_further (hlow : 0x80 ≤ p.low.toNat) (hhigh : p.high.toNat ≤ 0xBF)
    (h : none ∉ scan (some p) bs) :
    ∃ m r, m < 64 ∧ p.low.toNat ≤ m + 0x80 ∧ m + 0x80 ≤ p.high.toNat ∧
      bs = UInt8.ofNat (m + 0x80) :: r := by
  cases bs with
  | nil => exact absurd List.mem_cons_self h
  | cons b r =>
    by_cases hb : p.Continues b
    · have hfirst : p.low.toNat ≤ b.toNat := UInt8.le_iff_toNat_le.mp hb.1
      have hlast : b.toNat ≤ p.high.toNat := UInt8.le_iff_toNat_le.mp hb.2
      have hbyte : b.toNat - 0x80 + 0x80 = b.toNat := by omega
      exact ⟨b.toNat - 0x80, r, by omega, by omega, by omega, by rw [hbyte, UInt8.ofNat_toNat]⟩
    · rw [scan, step, if_neg hb] at h
      exact absurd (List.mem_append_left _ List.mem_cons_self) h

/-- The same in the middle of a character, where every such byte goes. -/
theorem exists_middle {value owed : Nat}
    (h : none ∉ scan (some ⟨value, owed, 0x80, 0xBF⟩) bs) :
    ∃ m r, m < 64 ∧ bs = UInt8.ofNat (m + 0x80) :: r := by
  obtain ⟨m, r, hm, -, -, hbs⟩ :=
    exists_further (p := ⟨value, owed, 0x80, 0xBF⟩) (Nat.le_refl 0x80) (Nat.le_refl 0xBF) h
  exact ⟨m, r, hm, hbs⟩

/-! ### The bytes of a character -/

theorem toNat_val_ofNat {n : Nat} (h : n.isValidChar) : (Char.ofNat n).val.toNat = n :=
  toNat_ofNat_of_isValidChar h

theorem utf8EncodeChar_one {v : Nat} (h : v < 0x80) :
    String.utf8EncodeChar (Char.ofNat v) = [UInt8.ofNat v] := by
  simp only [String.utf8EncodeChar, toNat_val_ofNat (.inl (by omega : v < 0xD800))]
  rw [if_pos (by omega)]

theorem utf8EncodeChar_two {k m : Nat} (hk : k < 32) (hlong : 2 ≤ k) (hm : m < 64) :
    String.utf8EncodeChar (Char.ofNat (k * 64 + m))
      = [UInt8.ofNat (k + 0xC0), UInt8.ofNat (m + 0x80)] := by
  have hfirst : (k * 64 + m) / 64 % 32 = k := by omega
  have hlast : (k * 64 + m) % 64 = m := by omega
  simp only [String.utf8EncodeChar, toNat_val_ofNat (.inl (by omega : k * 64 + m < 0xD800))]
  rw [if_neg (by omega), if_pos (by omega), hfirst, hlast]

theorem utf8EncodeChar_three {k m n : Nat} (hk : k < 16) (hm : m < 64) (hn : n < 64)
    (hlong : k = 0 → 0x20 ≤ m) (hsurrogate : k = 0xD → m < 0x20) :
    String.utf8EncodeChar (Char.ofNat ((k * 64 + m) * 64 + n))
      = [UInt8.ofNat (k + 0xE0), UInt8.ofNat (m + 0x80), UInt8.ofNat (n + 0x80)] := by
  have hvalid : ((k * 64 + m) * 64 + n).isValidChar := by
    unfold Nat.isValidChar
    omega
  have hfirst : ((k * 64 + m) * 64 + n) / 4096 % 16 = k := by omega
  have hsecond : ((k * 64 + m) * 64 + n) / 64 % 64 = m := by omega
  have hlast : ((k * 64 + m) * 64 + n) % 64 = n := by omega
  simp only [String.utf8EncodeChar, toNat_val_ofNat hvalid]
  rw [if_neg (by omega), if_neg (by omega), if_pos (by omega), hfirst, hsecond, hlast]

theorem utf8EncodeChar_four {k m n l : Nat} (hk : k < 5) (hm : m < 64) (hn : n < 64)
    (hl : l < 64) (hlong : k = 0 → 0x10 ≤ m) (hlarge : k = 4 → m < 0x10) :
    String.utf8EncodeChar (Char.ofNat (((k * 64 + m) * 64 + n) * 64 + l))
      = [UInt8.ofNat (k + 0xF0), UInt8.ofNat (m + 0x80), UInt8.ofNat (n + 0x80),
        UInt8.ofNat (l + 0x80)] := by
  have hvalid : (((k * 64 + m) * 64 + n) * 64 + l).isValidChar := by
    unfold Nat.isValidChar
    omega
  have hfirst : (((k * 64 + m) * 64 + n) * 64 + l) / 262144 % 8 = k := by omega
  have hsecond : (((k * 64 + m) * 64 + n) * 64 + l) / 4096 % 64 = m := by omega
  have hthird : (((k * 64 + m) * 64 + n) * 64 + l) / 64 % 64 = n := by omega
  have hlast : (((k * 64 + m) * 64 + n) * 64 + l) % 64 = l := by omega
  simp only [String.utf8EncodeChar, toNat_val_ofNat hvalid]
  rw [if_neg (by omega), if_neg (by omega), if_neg (by omega), hfirst, hsecond, hthird, hlast]

/-! ### Characters off the front -/

/-- A byte between characters is a character, a fault, or opens a character of two, three or
four bytes. -/
theorem lead_cases : ∀ n < 256, n < 0x80 ∨ lead (UInt8.ofNat n) = ([none], none) ∨
    (∃ k < 32, 2 ≤ k ∧ n = k + 0xC0) ∨ (∃ k < 16, n = k + 0xE0) ∨ ∃ k < 5, n = k + 0xF0 := by
  decide +kernel

/-- The bytes begin with a character as it is written. -/
def BeginsWithChar (bs : Bytes) : Prop :=
  ∃ c r, bs = String.utf8EncodeChar c ++ r

theorem beginsWithChar_two {k : Nat} (hk : k < 32) (hlong : 2 ≤ k)
    (h : none ∉ scan none (UInt8.ofNat (k + 0xC0) :: r)) :
    BeginsWithChar (UInt8.ofNat (k + 0xC0) :: r) := by
  rw [scan, step, lead_two k hk hlong, List.nil_append] at h
  obtain ⟨m, r, hm, rfl⟩ := exists_middle h
  exact ⟨Char.ofNat (k * 64 + m), r, by rw [utf8EncodeChar_two hk hlong hm]; rfl⟩

theorem beginsWithChar_three {k : Nat} (hk : k < 16)
    (h : none ∉ scan none (UInt8.ofNat (k + 0xE0) :: r)) :
    BeginsWithChar (UInt8.ofNat (k + 0xE0) :: r) := by
  rw [scan, step, lead_three k hk, List.nil_append] at h
  have hleast : 0x80 ≤ (if k = 0 then (0xA0 : UInt8) else 0x80).toNat := by split <;> decide
  have hmost : (if k = 0xD then (0x9F : UInt8) else 0xBF).toNat ≤ 0xBF := by split <;> decide
  obtain ⟨m, r, hm, hlow, hhigh, rfl⟩ := exists_further hleast hmost h
  rw [scan_second (by simp) hm hlow hhigh] at h
  obtain ⟨n, r, hn, rfl⟩ := exists_middle h
  have hlong : k = 0 → 0x20 ≤ m := by
    rintro rfl
    have : 160 ≤ m + 128 := hlow
    omega
  have hsurrogate : k = 0xD → m < 0x20 := by
    rintro rfl
    have : m + 128 ≤ 159 := hhigh
    omega
  exact ⟨Char.ofNat ((k * 64 + m) * 64 + n), r,
    by rw [utf8EncodeChar_three hk hm hn hlong hsurrogate]; rfl⟩

theorem beginsWithChar_four {k : Nat} (hk : k < 5)
    (h : none ∉ scan none (UInt8.ofNat (k + 0xF0) :: r)) :
    BeginsWithChar (UInt8.ofNat (k + 0xF0) :: r) := by
  rw [scan, step, lead_four k hk, List.nil_append] at h
  have hleast : 0x80 ≤ (if k = 0 then (0x90 : UInt8) else 0x80).toNat := by split <;> decide
  have hmost : (if k = 4 then (0x8F : UInt8) else 0xBF).toNat ≤ 0xBF := by split <;> decide
  obtain ⟨m, r, hm, hlow, hhigh, rfl⟩ := exists_further hleast hmost h
  rw [scan_second (by simp) hm hlow hhigh] at h
  obtain ⟨n, r, hn, rfl⟩ := exists_middle h
  rw [scan_middle (by simp) hn] at h
  obtain ⟨l, r, hl, rfl⟩ := exists_middle h
  have hlong : k = 0 → 0x10 ≤ m := by
    rintro rfl
    have : 144 ≤ m + 128 := hlow
    omega
  have hlarge : k = 4 → m < 0x10 := by
    rintro rfl
    have : m + 128 ≤ 143 := hhigh
    omega
  exact ⟨Char.ofNat (((k * 64 + m) * 64 + n) * 64 + l), r,
    by rw [utf8EncodeChar_four hk hm hn hl hlong hlarge]; rfl⟩

theorem beginsWithChar {b : UInt8} (h : none ∉ scan none (b :: r)) : BeginsWithChar (b :: r) := by
  rw [← UInt8.ofNat_toNat (x := b)] at h ⊢
  rcases lead_cases b.toNat b.toNat_lt with
    hascii | hfault | ⟨k, hk, hlong, hb⟩ | ⟨k, hk, hb⟩ | ⟨k, hk, hb⟩
  · exact ⟨Char.ofNat b.toNat, r, by rw [utf8EncodeChar_one hascii]; rfl⟩
  · rw [scan, step, hfault] at h
    exact absurd List.mem_cons_self h
  · rw [hb] at h ⊢
    exact beginsWithChar_two hk hlong h
  · rw [hb] at h ⊢
    exact beginsWithChar_three hk h
  · rw [hb] at h ⊢
    exact beginsWithChar_four hk h

/-! ### Whole texts -/

/-- Bytes that are scanned into characters are these characters as they are written. -/
theorem eq_flatMap_of_scan {cs : List Char} (h : scan none bs = cs.map some) :
    bs = cs.flatMap String.utf8EncodeChar := by
  induction cs generalizing bs with
  | nil =>
    cases bs with
    | nil => rfl
    | cons b r =>
      -- the character at the front would be a piece
      obtain ⟨c, r', hbs⟩ := beginsWithChar (b := b) (r := r) (by simp [h])
      rw [hbs, scan_utf8EncodeChar] at h
      cases h
  | cons c cs ih =>
    cases bs with
    | nil => cases h
    | cons b r =>
      obtain ⟨c', r', hbs⟩ := beginsWithChar (b := b) (r := r) (by simp [h])
      rw [hbs, scan_utf8EncodeChar, List.map_cons, List.cons.injEq] at h
      obtain ⟨hc, hrest⟩ := h
      obtain rfl := Option.some.inj hc
      rw [hbs, ih hrest, List.flatMap_cons]

/-- A byte string is read as a text exactly if it is the text as it is written. -/
theorem decode?_eq_some_iff {s : String} : decode? bs = some s ↔ bs = encode s := by
  constructor
  · intro h
    rw [decode?, Option.map_eq_some_iff] at h
    obtain ⟨cs, hcs, rfl⟩ := h
    rw [encode, String.toList_ofList]
    exact eq_flatMap_of_scan (mapM_id_eq_some hcs)
  · rintro rfl
    exact decode?_encode s

/-- Without a fault every piece is a character. -/
theorem exists_map_some_of_not_mem {ps : List Piece} (h : none ∉ ps) :
    ∃ cs : List Char, ps = cs.map some := by
  refine ⟨ps.map (·.getD replacement), ?_⟩
  rw [List.map_map]
  refine (List.map_id ps).symm.trans (List.map_congr_left fun piece hmem => ?_)
  cases piece with
  | none => exact absurd hmem h
  | some c => rfl

/-- Bytes are valid exactly if they are some text as it is written. -/
theorem valid_iff : Valid bs ↔ ∃ s, bs = encode s := by
  constructor
  · intro h
    obtain ⟨cs, hcs⟩ := exists_map_some_of_not_mem h
    refine ⟨String.ofList cs, ?_⟩
    rw [encode, String.toList_ofList]
    exact eq_flatMap_of_scan hcs
  · rintro ⟨s, rfl⟩
    rw [Valid, pieces_encode]
    simp

theorem encode_injective {s t : String} (h : encode s = encode t) : s = t := by
  have hs := decode?_encode s
  rw [h, decode?_encode] at hs
  exact (Option.some.inj hs).symm

end Utf8

end Sysop
