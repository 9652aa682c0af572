/-
Sysop/Proofs/Text/Utf8.lean

A text written as UTF-8 is read back as itself.

The bytes of one character, between characters, are one piece of the scan
(`scan_utf8EncodeChar`): the first byte says how many are to come and in which range the
second lies, and every further byte adds six bits.  So the pieces of a written text are its
characters (`pieces_encode`), and both readings give the text back.

Of byte strings that nobody wrote as a text this much holds: a character of one byte that is
read in them stands for that very byte (`mem_of_mem_decodeLossy`).  More bytes never make
such a character, because the range of the second byte rules out the long forms of small
characters; `Partial.Wide` is the invariant that says so.
-/
import Sysop.Text.Utf8

namespace Sysop

namespace Utf8

/-! ### First bytes -/

/-- The first byte of a character of two bytes. -/
theorem lead_two : ∀ k < 32, 2 ≤ k →
    lead (UInt8.ofNat (k + 0xC0)) = ([], some ⟨k, 1, 0x80, 0xBF⟩) := by
  decide

/-- The first byte of a character of three bytes. -/
theorem lead_three : ∀ k < 16,
    lead (UInt8.ofNat (k + 0xE0)) = ([], some ⟨k, 2, if k = 0 then 0xA0 else 0x80,
      if k = 0xD then 0x9F else 0xBF⟩) := by
  decide

/-- The first byte of a character of four bytes. -/
theorem lead_four : ∀ k < 5,
    lead (UInt8.ofNat (k + 0xF0)) = ([], some ⟨k, 3, if k = 0 then 0x90 else 0x80,
      if k = 4 then 0x8F else 0xBF⟩) := by
  decide

/-! ### Further bytes -/

theorem toNat_further {m : Nat} (h : m < 64) : (UInt8.ofNat (m + 0x80)).toNat = m + 0x80 := by
  have hsmall : m + 0x80 < 2 ^ 8 := by omega
  rw [UInt8.toNat_ofNat', Nat.mod_eq_of_lt hsmall]

variable {p : Partial} {m : Nat} {r : Bytes}

theorem continues_further (h : m < 64) (hlow : p.low.toNat ≤ m + 0x80)
    (hhigh : m + 0x80 ≤ p.high.toNat) : p.Continues (UInt8.ofNat (m + 0x80)) := by
  refine ⟨UInt8.le_iff_toNat_le.mpr ?_, UInt8.le_iff_toNat_le.mpr ?_⟩
  · rw [toNat_further h]
    exact hlow
  · rw [toNat_further h]
    exact hhigh

theorem grow_further (h : m < 64) : p.grow (UInt8.ofNat (m + 0x80)) = p.value * 64 + m := by
  have hbyte := toNat_further h
  unfold Partial.grow
  omega

/-- The second byte of a character of which more bytes are owed. -/
theorem scan_second (howed : p.owed ≠ 1) (h : m < 64) (hlow : p.low.toNat ≤ m + 0x80)
    (hhigh : m + 0x80 ≤ p.high.toNat) :
    scan (some p) (UInt8.ofNat (m + 0x80) :: r)
      = scan (some ⟨p.value * 64 + m, p.owed - 1, 0x80, 0xBF⟩) r := by
  rw [scan, step, if_pos (continues_further h hlow hhigh), if_neg howed, grow_further h,
    List.nil_append]

/-- A byte in the middle of a character. -/
theorem scan_middle {value owed : Nat} (howed : owed ≠ 1) (h : m < 64) :
    scan (some ⟨value, owed, 0x80, 0xBF⟩) (UInt8.ofNat (m + 0x80) :: r)
      = scan (some ⟨value * 64 + m, owed - 1, 0x80, 0xBF⟩) r := by
  refine scan_second howed h ?_ ?_
  · show 128 ≤ m + 128
    omega
  · show m + 128 ≤ 191
    omega

/-- The last byte of a character. -/
theorem scan_last {value : Nat} (h : m < 64) :
    scan (some ⟨value, 1, 0x80, 0xBF⟩) (UInt8.ofNat (m + 0x80) :: r)
      = some (Char.ofNat (value * 64 + m)) :: scan none r := by
  have hcontinues : (Partial.mk value 1 0x80 0xBF).Continues (UInt8.ofNat (m + 0x80)) := by
    refine continues_further h ?_ ?_
    · show 128 ≤ m + 128
      omega
    · show m + 128 ≤ 191
      omega
  rw [scan, step, if_pos hcontinues, if_pos rfl, grow_further h]
  rfl

/-! ### Characters of each length -/

theorem scan_one {v : Nat} (h : v < 0x80) :
    scan none (UInt8.ofNat v :: r) = some (Char.ofNat v) :: scan none r := by
  have hbyte : (UInt8.ofNat v).toNat = v := by
    rw [UInt8.toNat_ofNat', Nat.mod_eq_of_lt (by omega)]
  have hascii : UInt8.ofNat v < 0x80 := by
    rw [UInt8.lt_iff_toNat_lt, hbyte]
    exact h
  rw [scan, step, lead_ascii hascii, hbyte]
  rfl

theorem scan_two {k : Nat} (hk : k < 32) (hlong : 2 ≤ k) (hm : m < 64) :
    scan none (UInt8.ofNat (k + 0xC0) :: UInt8.ofNat (m + 0x80) :: r)
      = some (Char.ofNat (k * 64 + m)) :: scan none r := by
  rw [scan, step, lead_two k hk hlong, List.nil_append]
  exact scan_last hm

/-- A long form of a small character begins with 0, and a surrogate with 0xD; the second byte
is bounded in these two cases. -/
theorem scan_three {k n : Nat} (hk : k < 16) (hm : m < 64) (hn : n < 64)
    (hlong : k = 0 → 0x20 ≤ m) (hsurrogate : k = 0xD → m < 0x20) :
    scan none (UInt8.ofNat (k + 0xE0) :: UInt8.ofNat (m + 0x80) :: UInt8.ofNat (n + 0x80) :: r)
      = some (Char.ofNat ((k * 64 + m) * 64 + n)) :: scan none r := by
  rw [scan, step, lead_three k hk, List.nil_append]
  show scan (some _) _ = _
  rw [scan_second (by simp) hm ?_ ?_]
  · exact scan_last hn
  · show (if k = 0 then (0xA0 : UInt8) else 0x80).toNat ≤ m + 128
    split
    · show 160 ≤ m + 128
      omega
    · show 128 ≤ m + 128
      omega
  · show m + 128 ≤ (if k = 0xD then (0x9F : UInt8) else 0xBF).toNat
    split
    · show m + 128 ≤ 159
      omega
    · show m + 128 ≤ 191
      omega

/-- A long form of a smaller character begins with 0, and 4 may begin what is no character;
the second byte is bounded in these two cases. -/
theorem scan_four {k n l : Nat} (hk : k < 5) (hm : m < 64) (hn : n < 64) (hl : l < 64)
    (hlong : k = 0 → 0x10 ≤ m) (hlarge : k = 4 → m < 0x10) :
    scan none (UInt8.ofNat (k + 0xF0) :: UInt8.ofNat (m + 0x80) :: UInt8.ofNat (n + 0x80)
        :: UInt8.ofNat (l + 0x80) :: r)
      = some (Char.ofNat (((k * 64 + m) * 64 + n) * 64 + l)) :: scan none r := by
  rw [scan, step, lead_four k hk, List.nil_append]
  show scan (some _) _ = _
  rw [scan_second (by simp) hm ?_ ?_]
  · show scan (some ⟨k * 64 + m, 2, 0x80, 0xBF⟩) _ = _
    rw [scan_middle (by simp) hn]
    exact scan_last hl
  · show (if k = 0 then (0x90 : UInt8) else 0x80).toNat ≤ m + 128
    split
    · show 144 ≤ m + 128
      omega
    · show 128 ≤ m + 128
      omega
  · show m + 128 ≤ (if k = 4 then (0x8F : UInt8) else 0xBF).toNat
    split
    · show m + 128 ≤ 143
      omega
    · show m + 128 ≤ 191
      omega

/-! ### Written texts -/

/-- The bytes of a character are read as that character. -/
theorem scan_utf8EncodeChar (c : Char) (r : Bytes) :
    scan none (String.utf8EncodeChar c ++ r) = some c :: scan none r := by
  have hvalid : c.val.toNat < 0xD800 ∨ 0xDFFF < c.val.toNat ∧ c.val.toNat < 0x110000 := c.valid
  have hchar : Char.ofNat c.val.toNat = c := Char.ofNat_toNat c
  generalize hv : c.val.toNat = v at hvalid hchar
  -- one case for each length of the written form
  simp only [String.utf8EncodeChar, hv]
  split
  · rw [List.cons_append, List.nil_append, scan_one (by omega), hchar]
  split
  · have hvalue : v / 64 % 32 * 64 + v % 64 = v := by omega
    simp only [List.cons_append, List.nil_append]
    rw [scan_two (by omega) (by omega) (by omega), hvalue, hchar]
  split
  · have hvalue : (v / 4096 % 16 * 64 + v / 64 % 64) * 64 + v % 64 = v := by omega
    simp only [List.cons_append, List.nil_append]
    rw [scan_three (by omega) (by omega) (by omega) (by omega) (by omega), hvalue, hchar]
  · have hvalue :
        ((v / 262144 % 8 * 64 + v / 4096 % 64) * 64 + v / 64 % 64) * 64 + v % 64 = v := by
      omega
    simp only [List.cons_append, List.nil_append]
    rw [scan_four (by omega) (by omega) (by omega) (by omega) (by omega) (by omega), hvalue,
      hchar]

/-- Written characters are read one by one, whatever comes behind them. -/
theorem scan_flatMap_append (cs : List Char) (r : Bytes) :
    scan none (cs.flatMap String.utf8EncodeChar ++ r) = cs.map some ++ scan none r := by
  induction cs with
  | nil => rfl
  | cons c cs ih =>
    rw [List.flatMap_cons, List.append_assoc, scan_utf8EncodeChar, ih, List.map_cons,
      List.cons_append]

/-- The pieces of a written text are its characters. -/
theorem pieces_encode (s : String) : pieces (encode s) = s.toList.map some := by
  have hscan := scan_flatMap_append s.toList []
  rw [List.append_nil] at hscan
  rw [pieces, encode, hscan]
  exact List.append_nil _

/-- A written text is valid and is read as itself. -/
theorem decode?_encode (s : String) : decode? (encode s) = some s := by
  have hmap : (s.toList.map some).mapM id = some s.toList := by
    rw [List.mapM_map]
    show s.toList.mapM (fun c => (pure (id c) : Option Char)) = some s.toList
    rw [List.mapM_pure, List.map_id]
    rfl
  rw [decode?, pieces_encode, hmap, Option.map_some, String.ofList_toList]

/-- Nothing in a written text is replaced. -/
theorem decodeLossy_encode (s : String) : decodeLossy (encode s) = s := by
  have hmap : (s.toList.map some).map (·.getD replacement) = s.toList := by
    rw [List.map_map]
    exact List.map_id s.toList
  rw [decodeLossy, pieces_encode, hmap, String.ofList_toList]

/-! ### Characters of one byte -/

/-- Whatever completes the character is too large for a single byte: with one byte owed the
value has two more bits than six, and the smallest next byte keeps it so. -/
def Partial.Wide (p : Partial) : Prop :=
  (p.owed = 1 → 2 ≤ p.value) ∧ 2 ≤ p.value * 64 + (p.low.toNat - 0x80)

instance (p : Partial) : Decidable p.Wide :=
  inferInstanceAs (Decidable (_ ∧ _))

theorem wide_lead_ofNat : ∀ n < 256, ∀ p ∈ (lead (UInt8.ofNat n)).2, p.Wide := by
  decide +kernel

theorem wide_lead {b : UInt8} : ∀ p ∈ (lead b).2, p.Wide := by
  have hlead := wide_lead_ofNat b.toNat b.toNat_lt
  rwa [UInt8.ofNat_toNat] at hlead

theorem toNat_ofNat_of_isValidChar {n : Nat} (h : n.isValidChar) : (Char.ofNat n).toNat = n := by
  rw [Char.ofNat, dif_pos h]
  rfl

theorem eq_of_mem_lead {b : UInt8} {c : Char} (h : some c ∈ (lead b).1) :
    b < 0x80 ∧ c = Char.ofNat b.toNat := by
  unfold lead at h
  split at h
  · rename_i hascii
    exact ⟨hascii, by simpa using h⟩
  · -- a byte of a longer character yields nothing, any other byte a fault
    repeat' split at h
    all_goals simp at h

theorem wide_step {s : Option Partial} {b : UInt8} (hs : ∀ p ∈ s, p.Wide) :
    ∀ p ∈ (step s b).2, p.Wide := by
  cases s with
  | none => exact wide_lead
  | some p =>
    obtain ⟨-, hmore⟩ := hs p rfl
    intro q hq
    simp only [step] at hq
    split at hq
    · rename_i hcontinues
      split at hq
      · cases hq
      · obtain rfl := Option.some.inj hq
        have hlow : p.low.toNat ≤ b.toNat := UInt8.le_iff_toNat_le.mp hcontinues.1
        have hvalue : 2 ≤ p.grow b := by
          unfold Partial.grow
          omega
        refine ⟨fun _ => hvalue, ?_⟩
        show 2 ≤ p.grow b * 64 + _
        omega
    · exact wide_lead q hq

variable {c : Char}

theorem eq_of_mem_step {s : Option Partial} {b : UInt8} (hs : ∀ p ∈ s, p.Wide)
    (hpos : 0 < c.toNat) (hascii : c.toNat < 0x80) (h : some c ∈ (step s b).1) :
    UInt8.ofNat c.toNat = b := by
  have hlead : some c ∈ (lead b).1 → UInt8.ofNat c.toNat = b := by
    intro hmem
    obtain ⟨hb, rfl⟩ := eq_of_mem_lead hmem
    have hsmall : b.toNat < 0x80 := UInt8.lt_iff_toNat_lt.mp hb
    have hchar : (Char.ofNat b.toNat).toNat = b.toNat :=
      toNat_ofNat_of_isValidChar (.inl (by omega))
    rw [hchar, UInt8.ofNat_toNat]
  cases s with
  | none => exact hlead h
  | some p =>
    simp only [step] at h
    split at h
    · rename_i hcontinues
      split at h
      · rename_i howed
        -- the value is at least 0x80, so the character is none of one byte
        exfalso
        obtain ⟨hlast, -⟩ := hs p rfl
        have hvalue : 0x80 ≤ p.grow b := by
          have := hlast howed
          unfold Partial.grow
          omega
        have hc : c = Char.ofNat (p.grow b) := by simpa using h
        by_cases hvalid : (p.grow b).isValidChar
        · rw [hc, toNat_ofNat_of_isValidChar hvalid] at hascii
          omega
        · rw [hc, Char.ofNat, dif_neg hvalid] at hpos
          exact absurd hpos (by decide)
      · cases h
    · rcases List.mem_cons.mp h with hnone | hmem
      · cases hnone
      · exact hlead hmem

/-- A character of one byte comes from that byte.  The null character is left out: it would
also stand for a value that is no character. -/
theorem mem_of_mem_scan {bs : Bytes} (hpos : 0 < c.toNat) (hascii : c.toNat < 0x80) :
    ∀ {s : Option Partial}, (∀ p ∈ s, p.Wide) → some c ∈ scan s bs →
      UInt8.ofNat c.toNat ∈ bs := by
  induction bs with
  | nil =>
    intro s _ h
    cases s <;> simp [scan] at h
  | cons b r ih =>
    intro s hs h
    rw [scan, List.mem_append] at h
    rcases h with hstep | hrest
    · rw [eq_of_mem_step hs hpos hascii hstep]
      exact List.mem_cons_self
    · exact List.mem_cons_of_mem b (ih (wide_step hs) hrest)

theorem mem_of_mem_decodeLossy {bs : Bytes} (hpos : 0 < c.toNat) (hascii : c.toNat < 0x80)
    (h : c ∈ (decodeLossy bs).toList) : UInt8.ofNat c.toNat ∈ bs := by
  rw [decodeLossy, String.toList_ofList, List.mem_map] at h
  obtain ⟨piece, hpiece, hc⟩ := h
  cases piece with
  | none =>
    -- the replacement is no character of one byte
    obtain rfl : replacement = c := hc
    exact absurd hascii (by decide)
  | some c' =>
    obtain rfl : c' = c := hc
    exact mem_of_mem_scan hpos hascii (by simp) hpiece

end Utf8

end Sysop
