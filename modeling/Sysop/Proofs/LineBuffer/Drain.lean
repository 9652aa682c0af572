/-
Sysop/Proofs/LineBuffer/Drain.lean

Taking lines out of a buffer until there is none.

`drainLines b` are the lines that `b` tells then, and `drained b` is the buffer after them.  Both
go line by line (`drainLines_of_some`, `drained_of_some`), so what one line keeps, a drain keeps:
`drain_induction` is the induction that all proofs about drains use.

A line that is there stays the next line when more bytes come in (`nextLine?_extend`), unless the
buffer is full without an end and an end comes.
-/
import Sysop.Proofs.LineBuffer.Chunking

namespace Sysop

namespace LineBuffer

variable {b b' : LineBuffer} {text : String}

/-! ### Draining -/

/-- As many requests as a drain can need: one for each byte. -/
def asks (b : LineBuffer) : List Act :=
  List.replicate b.pending.length .next

/-- The lines that are told until there is none. -/
def drainLines (b : LineBuffer) : List String :=
  b.texts b.asks

/-- The buffer when there is no line any more. -/
def drained (b : LineBuffer) : LineBuffer :=
  b.after b.asks

theorem nextLine?_drained (hlimit : 0 < b.limit) : b.drained.nextLine? = none :=
  nextLine?_after_nexts hlimit (Nat.le_refl _)

theorem texts_append (b : LineBuffer) (acts more : List Act) :
    b.texts (acts ++ more) = b.texts acts ++ (b.after acts).texts more := by
  induction acts generalizing b with
  | nil => rfl
  | cons act acts ih =>
    rw [List.cons_append, texts_cons, texts_cons, ih, after_cons, List.append_assoc]

theorem texts_nexts_of_none (h : b.nextLine? = none) (n : Nat) :
    b.texts (List.replicate n .next) = [] := by
  induction n with
  | zero => rfl
  | succ n ih => rw [List.replicate_succ, texts_cons, perform_next_of_none h, ih]; rfl

theorem drainLines_of_none (h : b.nextLine? = none) : b.drainLines = [] :=
  texts_nexts_of_none h _

theorem drained_of_none (h : b.nextLine? = none) : b.drained = b :=
  after_nexts_of_none h _

/-- Asking more often than a drain needs tells nothing more. -/
theorem nexts_eq_drain (hlimit : 0 < b.limit) {n : Nat} (hn : b.pending.length ≤ n) :
    b.texts (List.replicate n .next) = b.drainLines ∧
      b.after (List.replicate n .next) = b.drained := by
  obtain ⟨more, rfl⟩ := Nat.exists_eq_add_of_le hn
  have hnone := nextLine?_drained hlimit
  rw [List.replicate_add, texts_append, after_append]
  show b.drainLines ++ b.drained.texts _ = _ ∧ b.drained.after _ = _
  rw [texts_nexts_of_none hnone, after_nexts_of_none hnone, List.append_nil]
  exact ⟨rfl, rfl⟩

/-- A drain takes the next line and drains what is behind it. -/
theorem drain_of_some (hlimit : 0 < b.limit) (h : b.nextLine? = some (text, b')) :
    b.drainLines = text :: b'.drainLines ∧ b.drained = b'.drained := by
  have hless := length_pending_of_nextLine? hlimit h
  obtain ⟨n, hn⟩ : ∃ n, b.pending.length = n + 1 := Nat.exists_eq_succ_of_ne_zero (by omega)
  have hlimit' : 0 < b'.limit := by
    rw [limit_of_nextLine? h]
    exact hlimit
  obtain ⟨htexts, hafter⟩ := nexts_eq_drain hlimit' (n := n) (by omega)
  unfold drainLines drained asks
  rw [hn, List.replicate_succ, texts_cons, after_cons, perform_next_of_some h]
  show text :: b'.texts _ = _ ∧ b'.after _ = _
  rw [htexts, hafter]
  exact ⟨rfl, rfl⟩

/-- What holds of a buffer without a next line, and of each buffer of which it holds behind its
next line, holds of all. -/
theorem drain_induction {motive : ∀ b : LineBuffer, 0 < b.limit → Prop}
    (done : ∀ b hlimit, b.nextLine? = none → motive b hlimit)
    (line : ∀ b text b' hlimit hlimit', b.nextLine? = some (text, b') → motive b' hlimit' →
      motive b hlimit)
    (b : LineBuffer) (hlimit : 0 < b.limit) : motive b hlimit := by
  -- each line takes bytes away, so the number of pending bytes goes down
  induction hlength : b.pending.length using Nat.strong_induction_on generalizing b with
  | _ n ih =>
    rcases hnext : b.nextLine? with - | ⟨text, b'⟩
    · exact done b hlimit hnext
    · have hless := length_pending_of_nextLine? hlimit hnext
      have hlimit' : 0 < b'.limit := by
        rw [limit_of_nextLine? hnext]
        exact hlimit
      exact line b text b' hlimit hlimit' hnext (ih _ (hlength ▸ hless) b' hlimit' rfl)

/-! ### More bytes -/

/-- A feed is to be skipped only by a buffer with nothing in it. -/
def Calm (b : LineBuffer) : Prop :=
  b.skipFeed = true → b.pending = []

theorem calm_empty (limit : Nat) : (empty limit).Calm :=
  fun _ => rfl

theorem extend_of_not_skip (hskip : b.skipFeed = false) (data : Bytes) :
    b.extend data = { b with pending := b.pending ++ data } := by
  rw [extend, if_neg (by simp [hskip])]

theorem skipFeed_extend {data : Bytes} (hdata : data ≠ []) : (b.extend data).skipFeed = false := by
  unfold extend
  split
  · rfl
  · rename_i hcond
    have hskip : ¬ b.skipFeed = true := fun hskip => hcond ⟨hskip, hdata⟩
    exact Bool.eq_false_iff.mpr hskip

theorem Calm.extend (h : b.Calm) (data : Bytes) : (b.extend data).Calm := by
  by_cases hdata : data = []
  · rw [hdata, extend_nil]
    exact h
  · intro hskip
    rw [skipFeed_extend hdata] at hskip
    cases hskip

/-- Chunks that come one right after the other are one chunk. -/
theorem extend_append (b : LineBuffer) (data more : Bytes) :
    b.extend (data ++ more) = (b.extend data).extend more := by
  by_cases hdata : data = []
  · rw [hdata, extend_nil, List.nil_append]
  · rw [extend_of_not_skip (skipFeed_extend hdata)]
    unfold extend
    by_cases hskip : b.skipFeed = true
    · simp [hskip, hdata, dropFeed_append hdata]
    · simp [hskip]

/-- A buffer that tells a line has no feed to skip. -/
theorem Calm.skipFeed_eq_false (h : b.Calm) (hlimit : 0 < b.limit)
    (hnext : b.nextLine? = some (text, b')) : b.skipFeed = false := by
  have hless := length_pending_of_nextLine? hlimit hnext
  apply Bool.eq_false_iff.mpr
  intro hskip
  rw [h hskip] at hless
  exact absurd hless (Nat.not_lt_zero _)

/-- A buffer that holds an end has no feed to skip. -/
theorem Calm.skipFeed_of_end (h : b.Calm) {line rest : Bytes} {ending : UInt8}
    (hpending : b.pending = line ++ ending :: rest) : b.skipFeed = false := by
  apply Bool.eq_false_iff.mpr
  intro hskip
  rw [h hskip] at hpending
  exact List.append_ne_nil_of_right_ne_nil line (List.cons_ne_nil ending rest) hpending.symm

theorem Calm.nextLine? (h : b.Calm) (hnext : b.nextLine? = some (text, b')) : b'.Calm := by
  rcases nextLine?_cases hnext with ⟨_, _, _, hpending, _, _, _, rfl⟩ | ⟨_, _, _, rfl⟩
  · exact pending_afterEnd_of_skip (h.skipFeed_of_end hpending)
  · intro hskip
    show b.pending.drop b.limit = []
    rw [h hskip, List.drop_nil]

theorem Calm.drained (h : b.Calm) (hlimit : 0 < b.limit) : b.drained.Calm := by
  revert h
  induction b, hlimit using drain_induction with
  | done b hlimit hnone =>
    intro h
    rw [drained_of_none hnone]
    exact h
  | line b text b' hlimit hlimit' hnext ih =>
    intro h
    rw [(drain_of_some hlimit hnext).2]
    exact ih (h.nextLine? hnext)

theorem limit_drained (hlimit : 0 < b.limit) : b.drained.limit = b.limit := by
  induction b, hlimit using drain_induction with
  | done b hlimit hnone => rw [drained_of_none hnone]
  | line b text b' hlimit hlimit' hnext ih =>
    rw [(drain_of_some hlimit hnext).2, ih, limit_of_nextLine? hnext]

/-- The next line of a buffer that holds an end. -/
theorem nextLine?_of_end {line rest : Bytes} {ending : UInt8}
    (hpending : b.pending = line ++ ending :: rest) (hline : Inner line)
    (hending : isInner ending = false) :
    b.nextLine? = some (b.cut line, b.afterEnd ending rest) := by
  have htake : b.pending.takeWhile isInner = line := by
    rw [hpending, takeWhile_append_ending hline hending]
  have hdrop : b.pending.dropWhile isInner = ending :: rest := by
    rw [hpending, dropWhile_append_ending hline hending]
  simp only [nextLine?, htake, hdrop]

/-- The next line of a full buffer without an end. -/
theorem nextLine?_of_full (hinner : Inner b.pending) (hfull : b.limit ≤ b.pending.length) :
    b.nextLine? = some (b.cut b.pending, { b with pending := b.pending.drop b.limit }) := by
  have htake : b.pending.takeWhile isInner = b.pending := List.takeWhile_eq_self_iff.mpr hinner
  have hdrop : b.pending.dropWhile isInner = [] := List.dropWhile_eq_nil_iff.mpr hinner
  simp only [nextLine?, htake, hdrop, if_pos hfull]

/-- Behind an end it does not matter when the next bytes come. -/
theorem afterEnd_extend (hskip : b.skipFeed = false) (ending : UInt8) (rest more : Bytes) :
    (b.extend more).afterEnd ending (rest ++ more) = (b.afterEnd ending rest).extend more := by
  rw [extend_of_not_skip hskip]
  unfold afterEnd
  by_cases hcr : ending = cr
  · by_cases hrest : rest = []
    · -- the return is the last byte, so a feed at the front of the next chunk belongs to it
      by_cases hmore : more = []
      · simp [hcr, hrest, hmore]
      · simp [hcr, hrest, hmore, extend, hskip]
    · simp [hcr, hrest, extend, hskip, dropFeed_append hrest]
  · simp [hcr, extend, hskip]

/-- A line that is there stays the next line when more bytes come in, if it has an end or if
no end comes. -/
theorem nextLine?_extend (hskip : b.skipFeed = false) (hnext : b.nextLine? = some (text, b'))
    (more : Bytes) (hmore : ¬ Inner b.pending ∨ Inner more) :
    (b.extend more).nextLine? = some (text, b'.extend more) := by
  have hextend := extend_of_not_skip hskip more
  rcases nextLine?_cases hnext with
    ⟨line, ending, rest, hpending, hline, hending, rfl, rfl⟩ | ⟨hinner, hfull, rfl, rfl⟩
  · have hpending' : (b.extend more).pending = line ++ ending :: (rest ++ more) := by
      rw [hextend]
      show b.pending ++ more = _
      rw [hpending, List.append_assoc, List.cons_append]
    rw [nextLine?_of_end hpending' hline hending, afterEnd_extend hskip, hextend]
    rfl
  · have hinner' : Inner (b.pending ++ more) :=
      List.forall_mem_append.mpr ⟨hinner, hmore.resolve_left (not_not_intro hinner)⟩
    have hfull' : b.limit ≤ (b.pending ++ more).length := by
      rw [List.length_append]
      omega
    have hskip' : { b with pending := b.pending.drop b.limit }.skipFeed = false := hskip
    rw [hextend, nextLine?_of_full hinner' hfull', extend_of_not_skip hskip']
    simp only [cut, List.take_append_of_le_length hfull, List.drop_append_of_le_length hfull]

end LineBuffer

end Sysop
