/-
Sysop/Proofs/LineBuffer/History.lean

What holds of a buffer after every history.

A history is followed from its end: one use more is one step of the buffer (`after_concat`).  The
limit stays (`limit_after`), a feed is to be skipped only while nothing is pending (`calm_after`),
and what is pending are always the last bytes of the input (`pending_suffix_fed`).
-/
import Sysop.Proofs.LineBuffer.Drain

namespace Sysop

namespace LineBuffer

/-! ### One use more -/

theorem fed_append (acts more : List Act) : fed (acts ++ more) = fed acts ++ fed more :=
  List.flatMap_append

theorem after_concat (b : LineBuffer) (acts : List Act) (act : Act) :
    b.after (acts ++ [act]) = ((b.after acts).perform act).2 := by
  rw [after_append]
  rfl

theorem limit_perform (b : LineBuffer) (act : Act) : (b.perform act).2.limit = b.limit := by
  cases act with
  | extend data => exact limit_extend b data
  | next =>
    rcases hnext : b.nextLine? with - | ⟨text, b'⟩
    · rw [perform_next_of_none hnext]
    · rw [perform_next_of_some hnext]
      exact limit_of_nextLine? hnext
  | take => rfl
  | clear => rfl

theorem limit_after (limit : Nat) (acts : List Act) : ((empty limit).after acts).limit = limit := by
  induction acts using List.reverseRecOn with
  | nil => rfl
  | append_singleton acts act ih => rw [after_concat, limit_perform, ih]

theorem Calm.perform {b : LineBuffer} (h : b.Calm) (act : Act) : (b.perform act).2.Calm := by
  cases act with
  | extend data => exact h.extend data
  | next =>
    rcases hnext : b.nextLine? with - | ⟨text, b'⟩
    · rw [perform_next_of_none hnext]
      exact h
    · rw [perform_next_of_some hnext]
      exact h.nextLine? hnext
  | take => exact fun _ => rfl
  | clear => exact fun _ => rfl

theorem calm_after (limit : Nat) (acts : List Act) : ((empty limit).after acts).Calm := by
  induction acts using List.reverseRecOn with
  | nil => exact calm_empty limit
  | append_singleton acts act ih =>
    rw [after_concat]
    exact ih.perform act

/-! ### What is pending -/

/-- More bytes go behind the pending ones, all of them but a feed that is skipped. -/
theorem exists_pending_extend (b : LineBuffer) (data : Bytes) :
    ∃ kept, (b.extend data).pending = b.pending ++ kept ∧
      (kept = data ∧ ¬ (b.skipFeed = true ∧ data.head? = some lf) ∨
        data = lf :: kept ∧ b.skipFeed = true) := by
  by_cases hdrops : b.skipFeed = true ∧ data.head? = some lf
  · obtain ⟨hskip, hhead⟩ := hdrops
    obtain ⟨kept, rfl⟩ := List.head?_eq_some_iff.mp hhead
    refine ⟨kept, ?_, .inr ⟨rfl, hskip⟩⟩
    rw [extend, if_pos ⟨hskip, List.cons_ne_nil _ _⟩, dropFeed_lf_cons]
  · refine ⟨data, ?_, .inl ⟨rfl, hdrops⟩⟩
    unfold extend
    split
    · rename_i hskip
      have hhead : data.head? ≠ some lf := fun hhead => hdrops ⟨hskip.1, hhead⟩
      rw [dropFeed_of_head hhead]
    · rfl

/-- What comes in goes behind what is pending. -/
theorem pending_extend_suffix {b : LineBuffer} (h : b.Calm) (data : Bytes) :
    (b.extend data).pending <:+ b.pending ++ data := by
  obtain ⟨kept, hextend, ⟨rfl, -⟩ | ⟨rfl, hskip⟩⟩ := exists_pending_extend b data
  · rw [hextend]
  · -- only a buffer with nothing in it skips a feed
    rw [hextend, h hskip]
    exact List.suffix_cons lf kept

/-- A line is taken from the front. -/
theorem pending_nextLine?_suffix {b b' : LineBuffer} {text : String}
    (h : b.nextLine? = some (text, b')) : b'.pending <:+ b.pending := by
  rcases nextLine?_cases h with ⟨line, ending, rest, hpending, _, _, _, rfl⟩ | ⟨_, _, _, rfl⟩
  · rw [pending_afterEnd, hpending]
    exact (behind_suffix ending rest).trans
      ((List.suffix_cons ending rest).trans (List.suffix_append line _))
  · exact List.drop_suffix _ _

/-- The pending bytes are the last ones of the input. -/
theorem pending_suffix_fed (limit : Nat) (acts : List Act) :
    ((empty limit).after acts).pending <:+ fed acts := by
  -- from the end of the history: what comes in goes behind both, and a line is taken from the front
  induction acts using List.reverseRecOn with
  | nil => exact List.suffix_rfl
  | append_singleton acts act ih =>
    have hcalm := calm_after limit acts
    rw [after_concat, fed_append]
    generalize (empty limit).after acts = b at ih hcalm
    cases act with
    | extend data =>
      show (b.extend data).pending <:+ fed acts ++ (data ++ [])
      rw [List.append_nil]
      exact (pending_extend_suffix hcalm data).trans (List.suffix_append_self_iff.mpr ih)
    | next =>
      rw [show fed [.next] = [] from rfl, List.append_nil]
      rcases hnext : b.nextLine? with - | ⟨text, b'⟩
      · rw [perform_next_of_none hnext]
        exact ih
      · rw [perform_next_of_some hnext]
        exact (pending_nextLine?_suffix hnext).trans ih
    | take => exact List.nil_suffix
    | clear => exact List.nil_suffix

end LineBuffer

end Sysop
