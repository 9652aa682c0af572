/-
Sysop/Proofs/LineBuffer/Accounting.lean

Where the bytes of a buffer go when a line is taken out of it.

    pending = line ++ excess ++ ending ++ what is pending then

`line` is what the text is read from, `excess` is cut off because the line is longer than the
limit, and `ending` is what ends the line.  Only a line that has an end is cut so; a full buffer
without an end gives as many bytes as the limit and keeps the others (`Takes`).

A line takes at least one byte, so there are at most as many lines as bytes
(`length_drainLines_le`).  A buffer that has told all its lines is smaller than its limit.

Main result: `line_accounts_for_bytes`.
-/
import Sysop.Proofs.LineBuffer.Drain

namespace Sysop

namespace LineBuffer

variable {b b' : LineBuffer} {text : String}

/-! ### One line -/

/-- What can end a line that is taken from `pending` in front of `rest`. -/
inductive Ends (pending rest : Bytes) : Bytes → Prop
  | pair : Ends pending rest [cr, lf]
  | alone : rest.head? ≠ some lf → Ends pending rest [cr]
  | feed : Ends pending rest [lf]
  | full : Inner pending → Ends pending rest []

/-- `Takes b line excess ending b'`: a line takes these bytes out of `b`, and leaves `b'`. -/
structure Takes (b : LineBuffer) (line excess ending : Bytes) (b' : LineBuffer) : Prop where
  pending : b.pending = line ++ excess ++ ending ++ b'.pending
  fits : line.length ≤ b.limit
  line_inner : Inner line
  excess_inner : Inner excess
  of_excess : excess ≠ [] → line.length = b.limit ∧ ending ≠ []
  ends : Ends b.pending b'.pending ending

/-- The end that a byte begins, a return with the feed behind it. -/
theorem exists_ends {ending : UInt8} (h : isInner ending = false) (pending rest : Bytes) :
    ∃ whole, ending :: rest = whole ++ behind ending rest ∧ whole ≠ [] ∧
      Ends pending (behind ending rest) whole := by
  rcases eq_cr_or_eq_lf h with rfl | rfl
  · rw [behind, if_pos rfl]
    by_cases hhead : rest.head? = some lf
    · obtain ⟨r, rfl⟩ := List.head?_eq_some_iff.mp hhead
      rw [dropFeed_lf_cons]
      exact ⟨[cr, lf], rfl, by simp, .pair⟩
    · rw [dropFeed_of_head hhead]
      exact ⟨[cr], rfl, by simp, .alone hhead⟩
  · rw [behind, if_neg lf_ne_cr]
    exact ⟨[lf], rfl, by simp, .feed⟩

/-- Every line takes its bytes so, and its text is read from the bytes of the line alone. -/
theorem exists_takes (h : b.nextLine? = some (text, b')) :
    ∃ line excess ending, text = Utf8.decodeLossy line ∧ Takes b line excess ending b' := by
  rcases nextLine?_cases h with
    ⟨whole, ending, rest, hpending, hinner, hending, rfl, rfl⟩ | ⟨hinner, hfull, rfl, rfl⟩
  · obtain ⟨ends, hends, hne, hcases⟩ := exists_ends hending b.pending rest
    refine ⟨whole.take b.limit, whole.drop b.limit, ends, rfl, ?_, ?_, ?_, ?_, ?_, ?_⟩
    · rw [pending_afterEnd, List.append_assoc, ← hends, List.take_append_drop, hpending]
    · exact List.length_take_le _ _
    · exact fun c hc => hinner c (List.mem_of_mem_take hc)
    · exact fun c hc => hinner c (List.mem_of_mem_drop hc)
    · -- there is an excess only if the limit cuts the line
      intro hexcess
      have hlong : b.limit < whole.length := by
        rw [← not_le, ← List.drop_eq_nil_iff]
        exact hexcess
      exact ⟨List.length_take_of_le hlong.le, hne⟩
    · rw [pending_afterEnd]
      exact hcases
  · refine ⟨b.pending.take b.limit, [], [], rfl, ?_, ?_, ?_, inner_nil, ?_, .full hinner⟩
    · rw [List.append_nil, List.append_nil, List.take_append_drop]
    · exact List.length_take_le _ _
    · exact fun c hc => hinner c (List.mem_of_mem_take hc)
    · exact fun hexcess => absurd rfl hexcess

/-! ### All lines -/

/-- Each line takes a byte. -/
theorem length_drainLines_le (hlimit : 0 < b.limit) : b.drainLines.length ≤ b.pending.length := by
  induction b, hlimit using drain_induction with
  | done b hlimit hnone =>
    rw [drainLines_of_none hnone]
    exact Nat.zero_le _
  | line b text b' hlimit hlimit' hnext ih =>
    have hless := length_pending_of_nextLine? hlimit hnext
    rw [(drain_of_some hlimit hnext).1, List.length_cons]
    omega

/-- As many requests as there are lines tell these lines, and drain the buffer. -/
theorem nexts_length_drainLines (hlimit : 0 < b.limit) :
    b.texts (List.replicate b.drainLines.length .next) = b.drainLines ∧
      b.after (List.replicate b.drainLines.length .next) = b.drained := by
  induction b, hlimit using drain_induction with
  | done b hlimit hnone =>
    rw [drainLines_of_none hnone, drained_of_none hnone]
    exact ⟨rfl, rfl⟩
  | line b text b' hlimit hlimit' hnext ih =>
    obtain ⟨hlines, hdrained⟩ := drain_of_some hlimit hnext
    obtain ⟨ihlines, ihdrained⟩ := ih
    rw [hlines, hdrained, List.length_cons, List.replicate_succ, texts_cons, after_cons,
      perform_next_of_some hnext, ihlines, ihdrained]
    exact ⟨rfl, rfl⟩

/-- **A line accounts for every byte that it takes, and takes at least one.**  There is none
exactly if no end is pending and less than the limit, and then nothing is taken.  So asking
again and again comes to an end, after at most as many lines as bytes were pending, and leaves
less than the limit and no end. -/
theorem line_accounts_for_bytes (hlimit : 0 < b.limit) :
    (b.nextLine? = none ↔ Inner b.pending ∧ b.pending.length < b.limit) ∧
    (b.nextLine? = none → b.perform .next = (none, b)) ∧
    (∀ text b', b.nextLine? = some (text, b') →
      ∃ line excess ending, text = Utf8.decodeLossy line ∧ Takes b line excess ending b' ∧
        b'.pending.length < b.pending.length) ∧
    ∃ n ≤ b.pending.length, (b.texts (List.replicate n .next)).length = n ∧
      (b.after (List.replicate n .next)).nextLine? = none ∧
      Inner (b.after (List.replicate n .next)).pending ∧
      (b.after (List.replicate n .next)).pending.length < b.limit := by
  refine ⟨nextLine?_eq_none_iff, perform_next_of_none, ?_, ?_⟩
  · intro text b' hnext
    obtain ⟨line, excess, ending, htext, htakes⟩ := exists_takes hnext
    exact ⟨line, excess, ending, htext, htakes, length_pending_of_nextLine? hlimit hnext⟩
  · obtain ⟨htexts, hafter⟩ := nexts_length_drainLines hlimit
    have hnone := nextLine?_drained hlimit
    obtain ⟨hinner, hshort⟩ := nextLine?_eq_none_iff.mp hnone
    rw [limit_drained hlimit] at hshort
    refine ⟨b.drainLines.length, length_drainLines_le hlimit, ?_⟩
    rw [htexts, hafter]
    exact ⟨rfl, hnone, hinner, hshort⟩

/-- A line longer than the limit, with a pair at its end. -/
def crowded : LineBuffer where
  pending := [0x61, 0x62, 0x63, 0x0D, 0x0A, 0x64]
  limit := 2

theorem crowded_accounts :
    0 < crowded.limit ∧ crowded.nextLine? = some ("ab", { pending := [0x64], limit := 2 }) ∧
      ∃ line excess ending, "ab" = Utf8.decodeLossy line ∧
        Takes crowded line excess ending { pending := [0x64], limit := 2 } ∧ 1 < 6 := by
  have hlimit : 0 < crowded.limit := by decide
  have hnext : crowded.nextLine? = some ("ab", { pending := [0x64], limit := 2 }) := rfl
  exact ⟨hlimit, hnext, (line_accounts_for_bytes hlimit).2.2.1 _ _ hnext⟩

end LineBuffer

end Sysop
