/-
Sysop/Proofs/Text/Cut.lean

What is read of bytes that are cut anywhere.

Bytes can be read in two parts: `read` says what the first part yields and where it stops
(`scan_append`).  It stops between characters only if it has yielded something (`read_ne_nil`), so
the first bytes of a character alone are one fault (`scan_of_cut`).  Hence a written text, cut
after `n` bytes, is read as what is whole before the cut, with one U+FFFD behind it exactly if

    CutsInside n s front c    the cut is inside the character `c`, which has `front` before it.

A fault takes at least one byte and is written with three, so a text is at most three times as
long as the bytes it is read from (`utf8ByteSize_decodeLossy_le`), and no shorter bound holds
(`utf8ByteSize_decodeLossy_replicate`).
-/
import Mathlib.Tactic.SplitIfs
import Sysop.Proofs.Text.Valid

namespace Sysop

namespace Utf8

variable {s : Option Partial} {a b : Bytes}

/-! ### Reading in two parts -/

/-- What bytes yield before more of them come, and the character that they leave begun. -/
def read : Option Partial → Bytes → List Piece × Option Partial
  | s, [] => ([], s)
  | s, b :: r => ((step s b).1 ++ (read (step s b).2 r).1, (read (step s b).2 r).2)

theorem scan_append (s : Option Partial) (a b : Bytes) :
    scan s (a ++ b) = (read s a).1 ++ scan (read s a).2 b := by
  induction a generalizing s with
  | nil => rfl
  | cons x r ih => rw [List.cons_append, scan, ih, read, List.append_assoc]

/-- A byte between characters is a character, a fault, or opens a character. -/
theorem lead_shapes (x : UInt8) :
    (x < 0x80 ∧ lead x = ([some (Char.ofNat x.toNat)], none)) ∨ lead x = ([none], none) ∨
      ∃ p, lead x = ([], some p) := by
  rcases lead_cases x.toNat x.toNat_lt with
    hascii | hfault | ⟨k, hk, hlong, hx⟩ | ⟨k, hk, hx⟩ | ⟨k, hk, hx⟩
  · have hascii : x < 0x80 := UInt8.lt_iff_toNat_lt.mpr hascii
    exact .inl ⟨hascii, lead_ascii hascii⟩
  · rw [UInt8.ofNat_toNat] at hfault
    exact .inr (.inl hfault)
  · have hlead := lead_two k hk hlong
    rw [← hx, UInt8.ofNat_toNat] at hlead
    exact .inr (.inr ⟨_, hlead⟩)
  · have hlead := lead_three k hk
    rw [← hx, UInt8.ofNat_toNat] at hlead
    exact .inr (.inr ⟨_, hlead⟩)
  · have hlead := lead_four k hk
    rw [← hx, UInt8.ofNat_toNat] at hlead
    exact .inr (.inr ⟨_, hlead⟩)

theorem lead_ne_nil {x : UInt8} (h : (lead x).2 = none) : (lead x).1 ≠ [] := by
  rcases lead_shapes x with ⟨-, hlead⟩ | hlead | ⟨p, hlead⟩
  · rw [hlead]
    exact List.cons_ne_nil _ _
  · rw [hlead]
    exact List.cons_ne_nil _ _
  · rw [hlead] at h
    cases h

theorem step_ne_nil {x : UInt8} (h : (step s x).2 = none) : (step s x).1 ≠ [] := by
  cases s with
  | none => exact lead_ne_nil h
  | some p =>
    simp only [step] at h ⊢
    by_cases hcontinues : p.Continues x
    · by_cases howed : p.owed = 1
      · rw [if_pos hcontinues, if_pos howed]
        exact List.cons_ne_nil _ _
      · rw [if_pos hcontinues, if_neg howed] at h
        cases h
    · rw [if_neg hcontinues]
      exact List.cons_ne_nil _ _

/-- Reading stops between characters only behind a character or a fault. -/
theorem read_ne_nil (ha : a ≠ []) (h : (read s a).2 = none) : (read s a).1 ≠ [] := by
  induction a generalizing s with
  | nil => exact absurd rfl ha
  | cons x r ih =>
    by_cases hr : r = []
    · subst hr
      exact List.append_ne_nil_of_left_ne_nil (step_ne_nil h) _
    · exact List.append_ne_nil_of_right_ne_nil _ (ih hr h)

/-- Every byte is part of what is read. -/
theorem scan_ne_nil (hb : b ≠ []) : scan s b ≠ [] := by
  rw [← List.append_nil b, scan_append]
  cases hs : (read s b).2 with
  | none => exact List.append_ne_nil_of_left_ne_nil (read_ne_nil hb hs) _
  | some p => exact List.append_ne_nil_of_right_ne_nil _ (List.cons_ne_nil none [])

/-- The first bytes of a character, but not all of them, are one fault. -/
theorem scan_of_cut {c : Char} (hc : String.utf8EncodeChar c = a ++ b) (ha : a ≠ []) (hb : b ≠ []) :
    scan none a = [none] := by
  have hwhole : scan none (a ++ b) = [some c] := by
    have hscan := scan_utf8EncodeChar c []
    rwa [List.append_nil, hc] at hscan
  rw [scan_append] at hwhole
  -- the character is read from the second part, so the first has yielded nothing
  have hnil : (read none a).1 = [] := by
    cases hfirst : (read none a).1 with
    | nil => rfl
    | cons piece more =>
      rw [hfirst, List.cons_append] at hwhole
      have hrest := (List.append_eq_nil_iff.mp (List.cons.inj hwhole).2).2
      exact absurd hrest (scan_ne_nil hb)
  have hscan := scan_append none a []
  rw [List.append_nil, hnil, List.nil_append] at hscan
  rw [hscan]
  cases hs : (read none a).2 with
  | none => exact absurd hnil (read_ne_nil ha hs)
  | some p => rfl

/-! ### Written texts, cut -/

theorem length_encode (s : String) : (encode s).length = s.utf8ByteSize := by
  conv => rhs; rw [← String.ofList_toList (s := s)]
  rw [← String.size_toByteArray, String.toByteArray_ofList, List.utf8Encode, encode]
  simp

theorem encode_ofList (cs : List Char) :
    encode (String.ofList cs) = cs.flatMap String.utf8EncodeChar := by
  rw [encode, String.toList_ofList]

theorem encode_push (s : String) (c : Char) :
    encode (s.push c) = encode s ++ String.utf8EncodeChar c := by
  rw [encode, encode, String.toList_push, List.flatMap_append, List.flatMap_singleton]

/-- The cut after `n` bytes of `s` is inside the character `c`, which has `front` before it. -/
structure CutsInside (n : Nat) (s front : String) (c : Char) : Prop where
  begins : (front.push c).toList <+: s.toList
  after : front.utf8ByteSize < n
  before : n < (front.push c).utf8ByteSize

variable {n : Nat} {text front : String} {c : Char}

/-- Of bytes that are cut inside a character, the characters before it are read, and a fault. -/
theorem CutsInside.decodeLossy_take (h : CutsInside n text front c) :
    decodeLossy ((encode text).take n) = front.push replacement := by
  obtain ⟨⟨back, htext⟩, hafter, hbefore⟩ := h
  rw [String.utf8ByteSize_push, ← String.length_utf8EncodeChar] at hbefore
  have hencode : encode text =
      encode front ++ (String.utf8EncodeChar c ++ back.flatMap String.utf8EncodeChar) := by
    rw [← List.append_assoc, ← encode_push, encode, ← htext, List.flatMap_append]
    rfl
  have htake : (encode text).take n =
      encode front ++ (String.utf8EncodeChar c).take (n - front.utf8ByteSize) := by
    rw [hencode, List.take_append, List.take_of_length_le (by rw [length_encode]; omega),
      length_encode, List.take_append_of_le_length (by omega)]
  have hcut : scan none ((String.utf8EncodeChar c).take (n - front.utf8ByteSize)) = [none] := by
    refine scan_of_cut (List.take_append_drop _ _).symm ?_ ?_
    · exact List.ne_nil_of_length_pos (by rw [List.length_take]; omega)
    · exact List.ne_nil_of_length_pos (by rw [List.length_drop]; omega)
  rw [htake, decodeLossy, pieces, encode, scan_flatMap_append, hcut, ← String.toList_inj,
    String.toList_ofList, String.toList_push, List.map_append, List.map_map]
  exact congrArg (· ++ [replacement]) (List.map_id front.toList)

/-- A cut is between two characters or inside one. -/
theorem take_flatMap_cases (cs : List Char) (n : Nat) :
    (∃ front, front <+: cs ∧ (cs.flatMap String.utf8EncodeChar).take n =
        front.flatMap String.utf8EncodeChar) ∨
      ∃ front c, front ++ [c] <+: cs ∧ (front.flatMap String.utf8EncodeChar).length < n ∧
        n < ((front ++ [c]).flatMap String.utf8EncodeChar).length := by
  induction cs generalizing n with
  | nil => exact .inl ⟨[], List.nil_prefix, by simp⟩
  | cons c cs ih =>
    by_cases hzero : n = 0
    · exact .inl ⟨[], List.nil_prefix, by simp [hzero]⟩
    by_cases hinside : n < (String.utf8EncodeChar c).length
    · refine .inr ⟨[], c, ⟨cs, rfl⟩, Nat.pos_of_ne_zero hzero, ?_⟩
      rw [List.nil_append, List.flatMap_singleton]
      exact hinside
    · -- the first character is whole, so the cut is one of the others
      rcases ih (n - (String.utf8EncodeChar c).length) with
        ⟨front, hfront, htake⟩ | ⟨front, c', hfront, hafter, hbefore⟩
      · refine .inl ⟨c :: front, List.cons_prefix_cons.mpr ⟨rfl, hfront⟩, ?_⟩
        rw [List.flatMap_cons, List.flatMap_cons, List.take_append, htake,
          List.take_of_length_le (by omega)]
      · refine .inr ⟨c :: front, c', List.cons_prefix_cons.mpr ⟨rfl, hfront⟩, ?_, ?_⟩
        · rw [List.flatMap_cons, List.length_append]
          omega
        · rw [List.cons_append, List.flatMap_cons, List.length_append]
          omega

/-- Bytes that are not cut inside a character are a text as it is written. -/
theorem exists_take_encode (h : ¬ ∃ front c, CutsInside n text front c) :
    ∃ front : String, front.toList <+: text.toList ∧ (encode text).take n = encode front := by
  rcases take_flatMap_cases text.toList n with
    ⟨front, hfront, htake⟩ | ⟨front, c, hfront, hafter, hbefore⟩
  · exact ⟨String.ofList front, by rwa [String.toList_ofList], by rwa [encode_ofList]⟩
  · refine absurd ⟨String.ofList front, c, ?_, ?_, ?_⟩ h
    · rwa [String.toList_push, String.toList_ofList]
    · rwa [← length_encode, encode_ofList]
    · rw [List.flatMap_append, List.flatMap_singleton] at hbefore
      rwa [← length_encode, encode_push, encode_ofList]

/-- **A cut keeps within its bytes and within the text exactly if it is inside no character.** -/
theorem within_iff :
    ((decodeLossy ((encode text).take n)).utf8ByteSize ≤ n ∧
        (decodeLossy ((encode text).take n)).toList <+: text.toList) ↔
      ¬ ∃ front c, CutsInside n text front c := by
  constructor
  · rintro ⟨hsize, hprefix⟩ ⟨front, c, hcut⟩
    rw [hcut.decodeLossy_take] at hsize hprefix
    -- U+FFFD stands where `c` stood, so it is `c`, and has more bytes than were kept of it
    have hpush := List.prefix_of_prefix_length_le hprefix hcut.begins (by simp)
    rw [String.toList_push, String.toList_push, List.prefix_append_right_inj] at hpush
    have hc : replacement = c := (List.cons_prefix_cons.mp hpush).1
    have hbefore := hcut.before
    rw [← hc] at hbefore
    exact absurd hsize (Nat.not_le_of_lt hbefore)
  · intro hnot
    obtain ⟨front, hfront, htake⟩ := exists_take_encode hnot
    have hlength := congrArg List.length htake
    rw [List.length_take, length_encode front] at hlength
    rw [htake, decodeLossy_encode]
    exact ⟨by omega, hfront⟩

/-! ### How long a text can be -/

/-- The bytes that a text of these pieces is written with. -/
def written (ps : List Piece) : Nat :=
  (String.ofList (ps.map fun piece => piece.getD replacement)).utf8ByteSize

theorem utf8ByteSize_decodeLossy (bs : Bytes) :
    (decodeLossy bs).utf8ByteSize = written (pieces bs) :=
  rfl

theorem written_append (ps qs : List Piece) : written (ps ++ qs) = written ps + written qs := by
  rw [written, List.map_append, String.ofList_append, String.utf8ByteSize_append]
  rfl

/-- What a character that has begun may still cost: the fault that it is, if it goes wrong. -/
def due : Option Partial → Nat
  | none => 0
  | some _ => 3

theorem written_some (c : Char) : written [some c] = c.utf8Size := by
  rw [← String.length_utf8EncodeChar, written, ← length_encode, encode_ofList]
  exact congrArg List.length (List.flatMap_singleton String.utf8EncodeChar c)

theorem utf8Size_replacement : replacement.utf8Size = 3 := by
  decide

theorem written_fault : written [none] = 3 :=
  utf8Size_replacement

theorem written_ascii {x : UInt8} (h : x < 0x80) : written [some (Char.ofNat x.toNat)] = 1 := by
  have hone := congrArg List.length (utf8EncodeChar_one (UInt8.lt_iff_toNat_lt.mp h))
  rwa [String.length_utf8EncodeChar, ← written_some] at hone

/-- A first byte costs at most three. -/
theorem written_lead (x : UInt8) : written (lead x).1 + due (lead x).2 ≤ 3 := by
  rcases lead_shapes x with ⟨hascii, hlead⟩ | hlead | ⟨p, hlead⟩
  · rw [hlead, written_ascii hascii]
    show 1 + 0 ≤ 3
    decide
  · rw [hlead, written_fault]
    decide
  · rw [hlead]
    exact Nat.le_refl 3

/-- A byte costs at most three. -/
theorem written_step (s : Option Partial) (x : UInt8) :
    written (step s x).1 + due (step s x).2 ≤ 3 + due s := by
  cases s with
  | none => exact written_lead x
  | some p =>
    simp only [step]
    split_ifs
    · -- a character has at most four bytes, and three were due for it
      show written [some (Char.ofNat (p.grow x))] + 0 ≤ 3 + 3
      have hfour := Char.utf8Size_le_four (Char.ofNat (p.grow x))
      rw [written_some]
      omega
    · show written [] + 3 ≤ 3 + 3
      decide
    · have hlead := written_lead x
      show written ([none] ++ (lead x).1) + due (lead x).2 ≤ 3 + 3
      rw [written_append, written_fault]
      omega

theorem written_scan (s : Option Partial) (bs : Bytes) :
    written (scan s bs) ≤ 3 * bs.length + due s := by
  induction bs generalizing s with
  | nil =>
    cases s with
    | none => exact Nat.zero_le _
    | some p => exact Nat.le_of_eq written_fault
  | cons x r ih =>
    have hstep := written_step s x
    have hrest := ih (step s x).2
    rw [scan, written_append, List.length_cons]
    omega

/-- A text is at most three times as long as the bytes it is read from. -/
theorem utf8ByteSize_decodeLossy_le (bs : Bytes) :
    (decodeLossy bs).utf8ByteSize ≤ 3 * bs.length := by
  rw [utf8ByteSize_decodeLossy]
  exact written_scan none bs

/-- Bytes that no character begins with are as many faults. -/
theorem pieces_replicate (n : Nat) : pieces (List.replicate n 0xFF) = List.replicate n none := by
  induction n with
  | zero => rfl
  | succ n ih => rw [List.replicate_succ, List.replicate_succ, ← ih]; rfl

theorem utf8ByteSize_decodeLossy_replicate (n : Nat) :
    (decodeLossy (List.replicate n 0xFF)).utf8ByteSize = 3 * n := by
  rw [utf8ByteSize_decodeLossy, pieces_replicate]
  induction n with
  | zero => rfl
  | succ n ih =>
    rw [List.replicate_succ, ← List.singleton_append, written_append, written_fault, ih]
    omega

end Utf8

end Sysop
