/-
Sysop/Proofs/LineBuffer/FirstLine.lean

The first line that a stream of bytes gives, and when it is complete.

A line is complete when an end has come or when as many bytes have come as the limit allows
(`Completes`).  What comes after that does not change it (`firstLine_append`), so the pieces
in which the stream comes do not matter.  A buffer that has dropped nothing yet tells just
this line (`nextLine?_of_completes`).
-/
import Mathlib.Data.List.TakeWhile
import Sysop.Proofs.LineBuffer.NextLine
import Sysop.Proofs.Text.Utf8

namespace Sysop

namespace LineBuffer

/-! ### Complete lines -/

/-- The bytes hold a whole line: one of them ends it, or they are as many as the limit. -/
def Completes (limit : Nat) (bs : Bytes) : Prop :=
  ¬ Inner bs ∨ limit ≤ bs.length

instance (limit : Nat) (bs : Bytes) : Decidable (Completes limit bs) :=
  inferInstanceAs (Decidable (_ ∨ _))

/-- The bytes of the first line: those before the first end, as many as the limit allows. -/
def firstLine (limit : Nat) (bs : Bytes) : Bytes :=
  (bs.takeWhile isInner).take limit

variable {limit : Nat} {bs : Bytes}

theorem not_completes_iff : ¬ Completes limit bs ↔ Inner bs ∧ bs.length < limit := by
  rw [Completes, not_or, not_not, not_le]

theorem inner_append_iff {more : Bytes} : Inner (bs ++ more) ↔ Inner bs ∧ Inner more :=
  List.forall_mem_append

theorem Completes.append (h : Completes limit bs) (more : Bytes) :
    Completes limit (bs ++ more) := by
  rcases h with hend | hfull
  · exact .inl fun hinner => hend (inner_append_iff.mp hinner).1
  · refine .inr (hfull.trans ?_)
    rw [List.length_append]
    exact Nat.le_add_right _ _

/-- A line that is complete stays as it is. -/
theorem firstLine_append (h : Completes limit bs) (more : Bytes) :
    firstLine limit (bs ++ more) = firstLine limit bs := by
  unfold firstLine
  by_cases hinner : Inner bs
  · -- there is no end in it, so the limit cuts it off
    have hfull : limit ≤ bs.length := h.resolve_left (not_not.mpr hinner)
    have hself : bs.takeWhile isInner = bs := List.takeWhile_eq_self_iff.mpr hinner
    rw [List.takeWhile_append_of_pos hinner, hself, List.take_append_of_le_length hfull]
  · have hshort : (bs.takeWhile isInner).length ≠ bs.length := by
      intro heq
      have hself := (List.takeWhile_prefix isInner (l := bs)).eq_of_length heq
      exact hinner (List.takeWhile_eq_self_iff.mp hself)
    rw [List.takeWhile_append, if_neg hshort]

theorem inner_firstLine : Inner (firstLine limit bs) := by
  intro b hb
  exact inner_takeWhile bs b (List.mem_of_mem_take hb)

/-- The text of bytes inside a line ends no line. -/
theorem not_mem_decodeLossy {c : Char} (hinner : Inner bs) (hc : c = '\r' ∨ c = '\n') :
    c ∉ (Utf8.decodeLossy bs).toList := by
  intro hmem
  have hbyte : isInner (UInt8.ofNat c.toNat) = false := by
    rcases hc with rfl | rfl <;> decide
  have hpos : 0 < c.toNat := by
    rcases hc with rfl | rfl <;> decide
  have hascii : c.toNat < 0x80 := by
    rcases hc with rfl | rfl <;> decide
  have hself := hinner _ (Utf8.mem_of_mem_decodeLossy hpos hascii hmem)
  rw [hbyte] at hself
  cases hself

/-! ### Buffers -/

variable {b : LineBuffer}

theorem nextLine?_eq_none (h : ¬ Completes b.limit b.pending) : b.nextLine? = none :=
  nextLine?_eq_none_iff.mpr (not_completes_iff.mp h)

/-- A buffer that holds a whole line tells it. -/
theorem nextLine?_of_completes (h : Completes b.limit b.pending) :
    ∃ b', b.nextLine? = some (Utf8.decodeLossy (firstLine b.limit b.pending), b') := by
  rcases hnext : b.nextLine? with - | ⟨text, b'⟩
  · exact absurd h (not_completes_iff.mpr (nextLine?_eq_none_iff.mp hnext))
  · rw [text_of_nextLine? hnext]
    exact ⟨b', rfl⟩

/-- What remains in a buffer without a whole line is told as it is. -/
theorem takeRemaining_of_not_completes (h : ¬ Completes b.limit b.pending) :
    b.takeRemaining.1 = Utf8.decodeLossy b.pending := by
  obtain ⟨-, hshort⟩ := not_completes_iff.mp h
  rw [takeRemaining, cut, List.take_of_length_le hshort.le]

end LineBuffer

end Sysop
