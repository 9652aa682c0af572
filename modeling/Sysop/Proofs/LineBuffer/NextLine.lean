/-
Sysop/Proofs/LineBuffer/NextLine.lean

What one request for a line does to a buffer.

There are two kinds of lines: the bytes before the first end, and a full buffer
without an end (`nextLine?_cases`).  There is none exactly when the buffer holds no
end and is not full (`nextLine?_eq_none_iff`).  A line takes bytes out of the buffer,
so asking again and again comes to an end.
-/
import Mathlib.Data.List.TakeWhile
import Sysop.Proofs.LineBuffer.Split

namespace Sysop

namespace LineBuffer

/-! ### The next line -/

/-- What the next line is: the bytes before the first end, or a full buffer without
an end. -/
theorem nextLine?_cases {b b' : LineBuffer} {text : String}
    (h : b.nextLine? = some (text, b')) :
    (∃ line ending rest, b.pending = line ++ ending :: rest ∧ Inner line ∧
        isInner ending = false ∧ text = b.cut line ∧ b' = b.afterEnd ending rest) ∨
      (Inner b.pending ∧ b.limit ≤ b.pending.length ∧ text = b.cut b.pending ∧
        b' = { b with pending := b.pending.drop b.limit }) := by
  -- what stands before the first end and what is left make the pending bytes
  have happ : b.pending.takeWhile isInner ++ b.pending.dropWhile isInner = b.pending :=
    List.takeWhile_append_dropWhile
  have hinner : Inner (b.pending.takeWhile isInner) := inner_takeWhile b.pending
  simp only [nextLine?] at h
  split at h
  · rename_i ending rest hdrop
    obtain ⟨rfl, rfl⟩ := Prod.mk.injEq .. ▸ Option.some.inj h
    have hending : isInner ending = false := by
      have := List.head?_dropWhile_not isInner b.pending
      rw [hdrop] at this
      simpa using this
    rw [hdrop] at happ
    exact .inl ⟨_, ending, rest, happ.symm, hinner, hending, rfl, rfl⟩
  · rename_i hdrop
    rw [hdrop, List.append_nil] at happ
    rw [happ] at h hinner
    split at h
    · rename_i hfull
      obtain ⟨rfl, rfl⟩ := Prod.mk.injEq .. ▸ Option.some.inj h
      exact .inr ⟨hinner, hfull, rfl, rfl⟩
    · cases h

/-- There is no next line exactly when nothing that is pending ends a line and the
buffer is not full. -/
theorem nextLine?_eq_none_iff {b : LineBuffer} :
    b.nextLine? = none ↔ Inner b.pending ∧ b.pending.length < b.limit := by
  have happ : b.pending.takeWhile isInner ++ b.pending.dropWhile isInner = b.pending :=
    List.takeWhile_append_dropWhile
  constructor
  · intro h
    simp only [nextLine?] at h
    split at h
    · cases h
    · rename_i hdrop
      rw [hdrop, List.append_nil] at happ
      rw [happ] at h
      split at h
      · cases h
      · rename_i hfull
        exact ⟨happ ▸ inner_takeWhile b.pending, Nat.lt_of_not_le hfull⟩
  · rintro ⟨hinner, hshort⟩
    have htake : b.pending.takeWhile isInner = b.pending :=
      List.takeWhile_eq_self_iff.mpr hinner
    have hdrop : b.pending.dropWhile isInner = [] :=
      List.dropWhile_eq_nil_iff.mpr hinner
    simp only [nextLine?, htake, hdrop, if_neg (Nat.not_le_of_lt hshort)]

/-- The text of a line is read from the bytes before the first end, or from all of them. -/
theorem text_of_nextLine? {b b' : LineBuffer} {text : String}
    (h : b.nextLine? = some (text, b')) : text = b.cut (b.pending.takeWhile isInner) := by
  rcases nextLine?_cases h with
    ⟨line, ending, rest, hpending, hline, hending, rfl, -⟩ | ⟨hinner, -, rfl, -⟩
  · rw [hpending, takeWhile_append_ending hline hending]
  · rw [List.takeWhile_eq_self_iff.mpr hinner]

@[simp] theorem limit_afterEnd (b : LineBuffer) (ending : UInt8) (rest : Bytes) :
    (b.afterEnd ending rest).limit = b.limit := by
  unfold afterEnd
  split
  · split <;> rfl
  · rfl

/-- After a line with an end, what is behind the end is pending. -/
theorem pending_afterEnd (b : LineBuffer) (ending : UInt8) (rest : Bytes) :
    (b.afterEnd ending rest).pending = behind ending rest := by
  unfold afterEnd behind
  split
  · split
    · rename_i hrest
      rw [hrest]
      rfl
    · rfl
  · rfl

theorem length_pending_afterEnd_le (b : LineBuffer) (ending : UInt8) (rest : Bytes) :
    (b.afterEnd ending rest).pending.length ≤ rest.length := by
  rw [pending_afterEnd]
  exact (behind_suffix ending rest).length_le

theorem limit_of_nextLine? {b b' : LineBuffer} {text : String}
    (h : b.nextLine? = some (text, b')) : b'.limit = b.limit := by
  rcases nextLine?_cases h with ⟨_, ending, rest, _, _, _, _, rfl⟩ | ⟨_, _, _, rfl⟩
  · exact limit_afterEnd b ending rest
  · rfl

/-- A line takes bytes out of the buffer. -/
theorem length_pending_of_nextLine? {b b' : LineBuffer} {text : String}
    (hlimit : 0 < b.limit) (h : b.nextLine? = some (text, b')) :
    b'.pending.length < b.pending.length := by
  rcases nextLine?_cases h with
    ⟨line, ending, rest, hpending, _, _, _, rfl⟩ | ⟨_, hfull, _, rfl⟩
  · have hle := length_pending_afterEnd_le b ending rest
    rw [hpending, List.length_append, List.length_cons]
    omega
  · show (b.pending.drop b.limit).length < b.pending.length
    rw [List.length_drop]
    omega

end LineBuffer

end Sysop
