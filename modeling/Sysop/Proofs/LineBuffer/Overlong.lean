/-
Sysop/Proofs/LineBuffer/Overlong.lean

Lines that do not fit, read in chunks.

A full buffer without an end is a line by itself, and what it holds beyond the limit begins
another one.  If the end is there, what is beyond the limit is dropped (`exists_pieces`).  So the
lines depend on the chunks when an end comes late (`Late`): after as many bytes of its line as
the limit allows, and in a later chunk.  A late end gives more lines than the stream in one
piece, and nothing else does (`readLines_of_chunks`).  What is left in the buffer does not depend
on the chunks.

Main result: `readLines_eq_iff`.
-/
import Sysop.Proofs.LineBuffer.Drain

namespace Sysop

namespace LineBuffer

variable {b b' : LineBuffer} {text : String} {more : Bytes}

/-! ### Reading in chunks -/

/-- The lines that a buffer tells when it is drained after each chunk. -/
def readLines (b : LineBuffer) : List Bytes → List String
  | [] => []
  | chunk :: chunks => (b.extend chunk).drainLines ++ (b.extend chunk).drained.readLines chunks

/-- The buffer after the chunks. -/
def readThrough (b : LineBuffer) : List Bytes → LineBuffer
  | [] => b
  | chunk :: chunks => (b.extend chunk).drained.readThrough chunks

/-- With `after` an end comes for a line that has as many bytes in `before` as the limit. -/
def Late (limit : Nat) (before after : Bytes) : Prop :=
  limit ≤ (split before).tail.length ∧ ¬ Inner after

/-- Between two of the chunks, an end is late. -/
def CutsLate (limit : Nat) (chunks : List Bytes) : Prop :=
  ∃ before after, chunks = before ++ after ∧ Late limit before.flatten after.flatten

/-! ### One piece -/

/-- The lines of the buffer are its lines with an end, each cut at the limit, and then pieces of
the bytes after the last end, each as long as the limit. -/
structure Pieces (b : LineBuffer) (pieces : List Bytes) : Prop where
  lines : b.drainLines = (split b.pending).lines.map b.cut ++ pieces.map Utf8.decodeLossy
  length : ∀ piece ∈ pieces, piece.length = b.limit
  tail : pieces.flatten ++ b.drained.pending = (split b.pending).tail

theorem exists_pieces (hlimit : 0 < b.limit) : ∃ pieces, b.Pieces pieces := by
  induction b, hlimit using drain_induction with
  | done b hlimit hnone =>
    obtain ⟨hinner, -⟩ := nextLine?_eq_none_iff.mp hnone
    refine ⟨[], ?_, by simp, ?_⟩
    · rw [drainLines_of_none hnone, split_inner hinner]
      rfl
    · rw [drained_of_none hnone, split_inner hinner]
      rfl
  | line b text b' hlimit hlimit' hnext ih =>
    obtain ⟨pieces, hlines, hlength, htail⟩ := ih
    obtain ⟨hdrain, hdrained⟩ := drain_of_some hlimit hnext
    have hlimits := limit_of_nextLine? hnext
    have hcut : b'.cut = b.cut := by
      funext line
      rw [cut, cut, hlimits]
    rcases nextLine?_cases hnext with
      ⟨line, ending, rest, hpending, hline, hending, rfl, rfl⟩ | ⟨hinner, hfull, rfl, rfl⟩
    · -- a line with an end is one of the lines of the cut
      have hsplit : split b.pending = (split (b.afterEnd ending rest).pending).push line := by
        rw [hpending, split_append_ending hline hending, pending_afterEnd]
      refine ⟨pieces, ?_, fun piece hpiece => (hlength piece hpiece).trans hlimits, ?_⟩
      · rw [hdrain, hlines, hcut, hsplit]
        rfl
      · rw [hdrained, htail, hsplit]
        rfl
    · -- a full buffer without an end is a piece
      have hinner' : Inner (b.pending.drop b.limit) :=
        fun c hc => hinner c (List.mem_of_mem_drop hc)
      refine ⟨b.pending.take b.limit :: pieces, ?_, ?_, ?_⟩
      · rw [hdrain, hlines, split_inner hinner, split_inner hinner']
        rfl
      · intro piece hpiece
        rcases List.mem_cons.mp hpiece with rfl | hpiece
        · exact List.length_take_of_le hfull
        · exact hlength piece hpiece
      · rw [hdrained, List.flatten_cons, List.append_assoc, htail, split_inner hinner,
          split_inner hinner']
        exact List.take_append_drop _ _

/-! ### One more chunk -/

/-- Without an end there is a next line only if the buffer is full. -/
theorem nextLine?_of_inner (hnext : b.nextLine? = some (text, b')) (hinner : Inner b.pending) :
    b.limit ≤ b.pending.length ∧ b' = { b with pending := b.pending.drop b.limit } := by
  rcases nextLine?_cases hnext with
    ⟨line, ending, rest, hpending, _, hending, _, _⟩ | ⟨_, hfull, _, hb'⟩
  · have hself := hinner ending (by simp [hpending])
    rw [hending] at hself
    cases hself
  · exact ⟨hfull, hb'⟩

/-- A line that has an end leaves the line under way as it is. -/
theorem tail_split_of_nextLine? (hnext : b.nextLine? = some (text, b'))
    (hend : ¬ Inner b.pending) : (split b'.pending).tail = (split b.pending).tail := by
  rcases nextLine?_cases hnext with
    ⟨line, ending, rest, hpending, hline, hending, _, rfl⟩ | ⟨hinner, _, _, _⟩
  · rw [hpending, split_append_ending hline hending, pending_afterEnd]
    rfl
  · exact absurd hinner hend

/-- The next line does not make an end late. -/
theorem not_late_of_nextLine? (h : ¬ Late b.limit b.pending more)
    (hnext : b.nextLine? = some (text, b')) (hkeeps : ¬ Inner b.pending ∨ Inner more) :
    ¬ Late b'.limit b'.pending more := by
  rw [limit_of_nextLine? hnext]
  rcases hkeeps with hend | hinner
  · unfold Late
    rw [tail_split_of_nextLine? hnext hend]
    exact h
  · exact fun hlate => hlate.2 hinner

/-- Without a late end, the next line has an end or no end comes. -/
theorem keeps_of_nextLine? (h : ¬ Late b.limit b.pending more)
    (hnext : b.nextLine? = some (text, b')) : ¬ Inner b.pending ∨ Inner more := by
  by_cases hinner : Inner b.pending
  · right
    by_contra hend
    refine h ⟨?_, hend⟩
    rw [split_inner hinner]
    exact (nextLine?_of_inner hnext hinner).1
  · exact .inl hinner

/-- **Without a late end, draining before more bytes come in changes nothing.** -/
theorem drain_extend (hlimit : 0 < b.limit) (hcalm : b.Calm)
    (hnot : ¬ Late b.limit b.pending more) :
    (b.extend more).drainLines = b.drainLines ++ (b.drained.extend more).drainLines ∧
      (b.extend more).drained = (b.drained.extend more).drained := by
  induction b, hlimit using drain_induction with
  | done b hlimit hnone =>
    rw [drainLines_of_none hnone, drained_of_none hnone]
    exact ⟨rfl, rfl⟩
  | line b text b' hlimit hlimit' hnext ih =>
    -- the line is told first on both sides, and what is behind it is a smaller buffer
    have hkeeps := keeps_of_nextLine? hnot hnext
    have hskip := hcalm.skipFeed_eq_false hlimit hnext
    have hnext' := nextLine?_extend hskip hnext more hkeeps
    obtain ⟨hlines, hdrained⟩ := drain_of_some hlimit hnext
    obtain ⟨hlines', hdrained'⟩ := drain_of_some (by rw [limit_extend]; exact hlimit) hnext'
    obtain ⟨ihlines, ihdrained⟩ := ih (hcalm.nextLine? hnext)
      (not_late_of_nextLine? hnot hnext hkeeps)
    rw [hlines, hdrained, hlines', hdrained', ihlines, ihdrained]
    exact ⟨rfl, rfl⟩

/-! ### A late end -/

theorem exists_end_of_not_inner {s : Bytes} (h : ¬ Inner s) :
    ∃ front ending rest, s = front ++ ending :: rest ∧ Inner front ∧ isInner ending = false := by
  induction s with
  | nil => exact absurd inner_nil h
  | cons b s ih =>
    cases hb : isInner b with
    | false => exact ⟨[], b, s, rfl, inner_nil, hb⟩
    | true =>
      obtain ⟨front, ending, rest, rfl, hfront, hending⟩ :=
        ih fun hinner => h (inner_cons_iff.mpr ⟨hb, hinner⟩)
      exact ⟨b :: front, ending, rest, rfl, inner_cons_iff.mpr ⟨hb, hfront⟩, hending⟩

/-- The end of the line under way: whatever of the line is in the buffer, the buffer behind the
end is the same. -/
theorem exists_nextLine?_extend (hinner : Inner b.pending) (hskip : b.skipFeed = false)
    {front : Bytes} (hfront : Inner front) {ending : UInt8} (hending : isInner ending = false)
    (rest : Bytes) :
    ∃ text, (b.extend (front ++ ending :: rest)).nextLine? =
      some (text, (empty b.limit).afterEnd ending rest) := by
  have hextend := extend_of_not_skip hskip (front ++ ending :: rest)
  have hpending : (b.extend (front ++ ending :: rest)).pending =
      (b.pending ++ front) ++ ending :: rest := by
    rw [hextend, List.append_assoc]
  have hline : Inner (b.pending ++ front) := List.forall_mem_append.mpr ⟨hinner, hfront⟩
  have hbehind : (b.extend (front ++ ending :: rest)).afterEnd ending rest =
      (empty b.limit).afterEnd ending rest := by
    rw [hextend]
    unfold afterEnd empty
    simp [hskip]
  rw [nextLine?_of_end hpending hline hending, hbehind]
  exact ⟨_, rfl⟩

/-- A buffer without an end has no feed to skip after it is drained. -/
theorem skipFeed_drained_of_inner (hlimit : 0 < b.limit) (hinner : Inner b.pending)
    (hskip : b.skipFeed = false) : b.drained.skipFeed = false := by
  induction b, hlimit using drain_induction with
  | done b hlimit hnone =>
    rw [drained_of_none hnone]
    exact hskip
  | line b text b' hlimit hlimit' hnext ih =>
    obtain ⟨-, rfl⟩ := nextLine?_of_inner hnext hinner
    rw [(drain_of_some hlimit hnext).2]
    exact ih (fun c hc => hinner c (List.mem_of_mem_drop hc)) hskip

/-- The end comes when the buffer is full of its line. -/
theorem drain_extend_of_full (hlimit : 0 < b.limit) (hskip : b.skipFeed = false)
    (hinner : Inner b.pending) (hfull : b.limit ≤ b.pending.length) (hend : ¬ Inner more) :
    (b.extend more).drainLines.length <
        (b.drainLines ++ (b.drained.extend more).drainLines).length ∧
      (b.extend more).drained = (b.drained.extend more).drained := by
  obtain ⟨front, ending, rest, rfl, hfront, hending⟩ := exists_end_of_not_inner hend
  have hinner' : Inner b.drained.pending := (nextLine?_eq_none_iff.mp (nextLine?_drained hlimit)).1
  have hskip' := skipFeed_drained_of_inner hlimit hinner hskip
  -- both are at the same point behind the end, but the drained buffer has told lines before
  obtain ⟨text, hnext⟩ := exists_nextLine?_extend hinner hskip hfront hending rest
  obtain ⟨text', hnext'⟩ := exists_nextLine?_extend hinner' hskip' hfront hending rest
  rw [limit_drained hlimit] at hnext'
  obtain ⟨hlines, hdrained⟩ := drain_of_some (by rw [limit_extend]; exact hlimit) hnext
  obtain ⟨hlines', hdrained'⟩ :=
    drain_of_some (by rw [limit_extend, limit_drained hlimit]; exact hlimit) hnext'
  have htold := (drain_of_some hlimit (nextLine?_of_full hinner hfull)).1
  rw [hlines, hdrained, hlines', hdrained', htold]
  constructor
  · simp only [List.length_append, List.length_cons]
    omega
  · rfl

/-- **With a late end, draining before it comes in tells more lines**, and leaves the same
buffer. -/
theorem drain_extend_of_late (hlimit : 0 < b.limit) (hcalm : b.Calm)
    (hlate : Late b.limit b.pending more) :
    (b.extend more).drainLines.length <
        (b.drainLines ++ (b.drained.extend more).drainLines).length ∧
      (b.extend more).drained = (b.drained.extend more).drained := by
  induction b, hlimit using drain_induction with
  | done b hlimit hnone =>
    obtain ⟨hinner, hshort⟩ := nextLine?_eq_none_iff.mp hnone
    have hfull := hlate.1
    rw [split_inner hinner] at hfull
    exact absurd hshort (Nat.not_lt_of_le hfull)
  | line b text b' hlimit hlimit' hnext ih =>
    have hskip := hcalm.skipFeed_eq_false hlimit hnext
    by_cases hinner : Inner b.pending
    · -- the buffer holds nothing but the line whose end is late
      have hfull := hlate.1
      rw [split_inner hinner] at hfull
      exact drain_extend_of_full hlimit hskip hinner hfull hlate.2
    · have hnext' := nextLine?_extend hskip hnext more (.inl hinner)
      obtain ⟨hlines, hdrained⟩ := drain_of_some hlimit hnext
      obtain ⟨hlines', hdrained'⟩ := drain_of_some (by rw [limit_extend]; exact hlimit) hnext'
      have hlate' : Late b'.limit b'.pending more := by
        rw [limit_of_nextLine? hnext]
        unfold Late
        rw [tail_split_of_nextLine? hnext hinner]
        exact hlate
      obtain ⟨ihlines, ihdrained⟩ := ih (hcalm.nextLine? hnext) hlate'
      rw [hlines, hdrained, hlines', hdrained', ihdrained]
      exact ⟨Nat.succ_lt_succ ihlines, rfl⟩

/-! ### Many chunks -/

/-- Between two of the chunks that a buffer reads, an end is late. -/
def ReadsLate (b : LineBuffer) (chunks : List Bytes) : Prop :=
  ∃ before after, chunks = before ++ after ∧
    Late b.limit (b.extend before.flatten).pending after.flatten

theorem readsLate_empty_iff {limit : Nat} {chunks : List Bytes} :
    (empty limit).ReadsLate chunks ↔ CutsLate limit chunks := by
  simp [ReadsLate, CutsLate, extend, empty]

theorem not_late_of_nextLine?_eq_none (hnone : b.nextLine? = none) (more : Bytes) :
    ¬ Late b.limit b.pending more := by
  obtain ⟨hinner, hshort⟩ := nextLine?_eq_none_iff.mp hnone
  rintro ⟨hfull, -⟩
  rw [split_inner hinner] at hfull
  exact absurd hshort (Nat.not_lt_of_le hfull)

/-- A drain takes nothing of a line under way that fits. -/
theorem tail_split_drained_extend (hlimit : 0 < b.limit) (hcalm : b.Calm)
    (hfits : (split b.pending).tail.length < b.limit) (more : Bytes) :
    (split (b.drained.extend more).pending).tail = (split (b.extend more).pending).tail := by
  induction b, hlimit using drain_induction with
  | done b hlimit hnone => rw [drained_of_none hnone]
  | line b text b' hlimit hlimit' hnext ih =>
    -- the next line has an end, because what has none fits
    have hend : ¬ Inner b.pending := by
      intro hinner
      rw [split_inner hinner] at hfits
      exact absurd hfits (Nat.not_lt_of_le (nextLine?_of_inner hnext hinner).1)
    have hskip := hcalm.skipFeed_eq_false hlimit hnext
    have hnext' := nextLine?_extend hskip hnext more (.inl hend)
    have hend' : ¬ Inner (b.extend more).pending := by
      rw [extend_of_not_skip hskip]
      exact fun hinner => hend fun c hc => hinner c (List.mem_append_left _ hc)
    have hfits' : (split b'.pending).tail.length < b'.limit := by
      rw [tail_split_of_nextLine? hnext hend, limit_of_nextLine? hnext]
      exact hfits
    rw [(drain_of_some hlimit hnext).2, ih (hcalm.nextLine? hnext) hfits',
      tail_split_of_nextLine? hnext' hend']

/-- Draining a buffer changes no later lateness, unless the end was late for it already. -/
theorem late_drained_extend_iff (hlimit : 0 < b.limit) (hcalm : b.Calm) {after : Bytes}
    (hnot : ¬ Late b.limit b.pending (more ++ after)) :
    Late b.drained.limit (b.drained.extend more).pending after ↔
      Late b.limit (b.extend more).pending after := by
  unfold Late
  by_cases hinner : Inner after
  · simp [hinner]
  · have hend : ¬ Inner (more ++ after) :=
      fun h => hinner fun c hc => h c (List.mem_append_right _ hc)
    have hfits : (split b.pending).tail.length < b.limit := by
      by_contra hfull
      exact hnot ⟨Nat.le_of_not_lt hfull, hend⟩
    rw [tail_split_drained_extend hlimit hcalm hfits, limit_drained hlimit]

/-- An end is late after the first chunk, or later. -/
theorem readsLate_cons_iff (hlimit : 0 < b.limit) (hcalm : b.Calm) (hnone : b.nextLine? = none)
    (chunk : Bytes) (chunks : List Bytes) :
    b.ReadsLate (chunk :: chunks) ↔
      Late b.limit (b.extend chunk).pending chunks.flatten ∨
        (b.extend chunk).drained.ReadsLate chunks := by
  have hcalm' := hcalm.extend chunk
  have hlimit' : 0 < (b.extend chunk).limit := by
    rw [limit_extend]
    exact hlimit
  by_cases hfirst : Late b.limit (b.extend chunk).pending chunks.flatten
  · have hlate : b.ReadsLate (chunk :: chunks) := by
      refine ⟨[chunk], chunks, rfl, ?_⟩
      rw [List.flatten_cons, List.flatten_nil, List.append_nil]
      exact hfirst
    exact ⟨fun _ => .inl hfirst, fun _ => hlate⟩
  · -- the first chunk does not matter, so the cuts behind it are compared one by one
    have hsame : ∀ before after, chunks = before ++ after →
        (Late (b.extend chunk).drained.limit
            ((b.extend chunk).drained.extend before.flatten).pending after.flatten ↔
          Late b.limit (b.extend (chunk :: before).flatten).pending after.flatten) := by
      intro before after hchunks
      rw [hchunks, List.flatten_append, ← limit_extend b chunk] at hfirst
      rw [List.flatten_cons, extend_append, late_drained_extend_iff hlimit' hcalm' hfirst,
        limit_extend]
    rw [or_iff_right hfirst]
    constructor
    · rintro ⟨before, after, hchunks, hlate⟩
      cases before with
      | nil =>
        rw [List.flatten_nil, extend_nil] at hlate
        exact absurd hlate (not_late_of_nextLine?_eq_none hnone _)
      | cons first before =>
        obtain ⟨rfl, hrest⟩ := List.cons.inj hchunks
        exact ⟨before, after, hrest, (hsame before after hrest).mpr hlate⟩
    · rintro ⟨before, after, hchunks, hlate⟩
      exact ⟨chunk :: before, after, by rw [hchunks, List.cons_append],
        (hsame before after hchunks).mp hlate⟩

/-- Reading in chunks tells the lines of one piece unless an end is late, and then more. -/
theorem readLines_of_chunks (chunks : List Bytes) (hlimit : 0 < b.limit) (hcalm : b.Calm)
    (hnone : b.nextLine? = none) :
    (¬ b.ReadsLate chunks → b.readLines chunks = (b.extend chunks.flatten).drainLines) ∧
      (b.ReadsLate chunks →
        (b.extend chunks.flatten).drainLines.length < (b.readLines chunks).length) ∧
      b.readThrough chunks = (b.extend chunks.flatten).drained := by
  induction chunks generalizing b with
  | nil =>
    rw [List.flatten_nil, extend_nil, drained_of_none hnone, drainLines_of_none hnone]
    refine ⟨fun _ => rfl, ?_, rfl⟩
    rintro ⟨before, after, hchunks, hlate⟩
    obtain ⟨rfl, rfl⟩ := List.append_eq_nil_iff.mp hchunks.symm
    exact absurd inner_nil hlate.2
  | cons chunk chunks ih =>
    have hcalm' := hcalm.extend chunk
    have hlimit' : 0 < (b.extend chunk).limit := by
      rw [limit_extend]
      exact hlimit
    have hlimit'' : 0 < (b.extend chunk).drained.limit := by
      rw [limit_drained hlimit']
      exact hlimit'
    obtain ⟨hsame, hmore, hthrough⟩ :=
      ih hlimit'' (hcalm'.drained hlimit') (nextLine?_drained hlimit')
    rw [readsLate_cons_iff hlimit hcalm hnone, List.flatten_cons, extend_append]
    unfold readLines readThrough
    rw [hthrough, List.length_append]
    by_cases hfirst : Late b.limit (b.extend chunk).pending chunks.flatten
    · -- late after this chunk: one line more here, and none less in the chunks behind it
      have hleast : ((b.extend chunk).drained.extend chunks.flatten).drainLines.length ≤
          ((b.extend chunk).drained.readLines chunks).length := by
        by_cases hlate : (b.extend chunk).drained.ReadsLate chunks
        · exact (hmore hlate).le
        · rw [hsame hlate]
      rw [← limit_extend b chunk] at hfirst
      obtain ⟨hless, hdrained⟩ := drain_extend_of_late hlimit' hcalm' hfirst
      rw [limit_extend] at hfirst
      rw [List.length_append] at hless
      exact ⟨fun hnot => absurd (.inl hfirst) hnot, fun _ => by omega, hdrained.symm⟩
    · rw [or_iff_right hfirst]
      rw [← limit_extend b chunk] at hfirst
      obtain ⟨hlines, hdrained⟩ := drain_extend hlimit' hcalm' hfirst
      rw [hlines, List.length_append]
      refine ⟨fun hnot => by rw [hsame hnot], fun hlate => ?_, hdrained.symm⟩
      have hless := hmore hlate
      omega

/-! ### Which streams can be cut late -/

/-- The line under way in a stream is a line of the stream that goes on, up to the next end. -/
theorem Splits.mem_lines {s t : Bytes} {lines : List Bytes} (h : Splits s lines t) (ht : t ≠ [])
    {front : Bytes} (hfront : Inner front) {ending : UInt8} (hending : isInner ending = false)
    (rest : Bytes) : t ++ front ∈ (split (s ++ (front ++ ending :: rest))).lines := by
  induction h with
  | tail hinner =>
    rw [← List.append_assoc,
      split_append_ending (List.forall_mem_append.mpr ⟨hinner, hfront⟩) hending]
    exact List.mem_cons_self
  | feed hline _ ih =>
    rw [List.append_assoc, List.cons_append, split_append_ending hline not_isInner_lf, behind,
      if_neg lf_ne_cr]
    exact List.mem_cons_of_mem _ (ih ht)
  | pair hline _ ih =>
    rw [List.append_assoc, List.cons_append, List.cons_append,
      split_append_ending hline not_isInner_cr, behind, if_pos rfl, dropFeed_lf_cons]
    exact List.mem_cons_of_mem _ (ih ht)
  | @alone line r lines t hline hhead hr ih =>
    rw [List.append_assoc, List.cons_append, split_append_ending hline not_isInner_cr, behind,
      if_pos rfl]
    -- the line under way is behind the return, so something is, and it is no feed
    cases r with
    | nil =>
      have hnil : split [] = ⟨lines, t⟩ := hr.eq_split
      exact absurd (congrArg Split.tail hnil).symm ht
    | cons c r =>
      rw [dropFeed_of_head (by simpa using hhead)]
      exact List.mem_cons_of_mem _ (ih ht)

/-- A line of a stream is the line under way right before its end. -/
theorem Splits.exists_append {s t : Bytes} {lines : List Bytes} (h : Splits s lines t)
    {line : Bytes} (hmem : line ∈ lines) :
    ∃ before after, s = before ++ after ∧ (split before).tail = line ∧ ¬ Inner after := by
  have hends : ∀ {ending : UInt8} (r : Bytes), isInner ending = false → ¬ Inner (ending :: r) := by
    intro ending r hending hinner
    rw [(inner_cons_iff.mp hinner).1] at hending
    cases hending
  induction h with
  | tail _ => cases hmem
  | @feed first r lines t hfirst _ ih =>
    rcases List.mem_cons.mp hmem with rfl | hmem
    · exact ⟨line, lf :: r, rfl, by rw [split_inner hfirst], hends r not_isInner_lf⟩
    · obtain ⟨before, after, rfl, htail, hend⟩ := ih hmem
      refine ⟨first ++ lf :: before, after, by simp, ?_, hend⟩
      rw [split_append_ending hfirst not_isInner_lf, behind, if_neg lf_ne_cr]
      exact htail
  | @pair first r lines t hfirst _ ih =>
    rcases List.mem_cons.mp hmem with rfl | hmem
    · exact ⟨line, cr :: lf :: r, rfl, by rw [split_inner hfirst], hends _ not_isInner_cr⟩
    · obtain ⟨before, after, rfl, htail, hend⟩ := ih hmem
      refine ⟨first ++ cr :: lf :: before, after, by simp, ?_, hend⟩
      rw [split_append_ending hfirst not_isInner_cr, behind, if_pos rfl, dropFeed_lf_cons]
      exact htail
  | @alone first r lines t hfirst hhead _ ih =>
    rcases List.mem_cons.mp hmem with rfl | hmem
    · exact ⟨line, cr :: r, rfl, by rw [split_inner hfirst], hends r not_isInner_cr⟩
    · obtain ⟨before, after, rfl, htail, hend⟩ := ih hmem
      refine ⟨first ++ cr :: before, after, by simp, ?_, hend⟩
      have hhead' : before.head? ≠ some lf := by
        intro hfeed
        rw [List.head?_append, hfeed] at hhead
        exact hhead rfl
      rw [split_append_ending hfirst not_isInner_cr, behind, if_pos rfl, dropFeed_of_head hhead']
      exact htail

/-- A stream can be cut late exactly if one of its lines is as long as the limit. -/
theorem exists_late_iff {limit : Nat} (hlimit : 0 < limit) (stream : Bytes) :
    (∃ before after, stream = before ++ after ∧ Late limit before after) ↔
      ∃ line ∈ (split stream).lines, limit ≤ line.length := by
  constructor
  · rintro ⟨before, after, rfl, hfull, hend⟩
    obtain ⟨front, ending, rest, rfl, hfront, hending⟩ := exists_end_of_not_inner hend
    have ht : (split before).tail ≠ [] := List.ne_nil_of_length_pos (by omega)
    refine ⟨_, (splits_split_both before).1.mem_lines ht hfront hending rest, ?_⟩
    rw [List.length_append]
    omega
  · rintro ⟨line, hmem, hfull⟩
    obtain ⟨before, after, hstream, rfl, hend⟩ :=
      (splits_split_both stream).1.exists_append hmem
    exact ⟨before, after, hstream, hfull, hend⟩

/-! ### The lines of a stream in chunks -/

theorem readLines_one (b : LineBuffer) (chunk : Bytes) :
    b.readLines [chunk] = (b.extend chunk).drainLines :=
  List.append_nil _

theorem nextLine?_empty {limit : Nat} (hlimit : 0 < limit) : (empty limit).nextLine? = none :=
  nextLine?_eq_none_iff.mpr ⟨inner_nil, hlimit⟩

/-- An empty buffer that reads a stream in one piece. -/
theorem exists_pieces_readLines {limit : Nat} (hlimit : 0 < limit) (stream : Bytes) :
    ∃ pieces : List Bytes,
      (empty limit).readLines [stream] =
        ((split stream).lines.map fun line => Utf8.decodeLossy (line.take limit)) ++
          pieces.map Utf8.decodeLossy ∧
      (∀ piece ∈ pieces, piece.length = limit) ∧
      pieces.flatten ++ ((empty limit).readThrough [stream]).pending = (split stream).tail := by
  have hextend : (empty limit).extend stream = { empty limit with pending := stream } :=
    extend_of_not_skip rfl stream
  obtain ⟨pieces, hlines, hlength, htail⟩ :=
    exists_pieces (b := { empty limit with pending := stream }) hlimit
  refine ⟨pieces, ?_, hlength, ?_⟩
  · rw [readLines_one, hextend, hlines]
    rfl
  · show pieces.flatten ++ ((empty limit).extend stream).drained.pending = (split stream).tail
    rw [hextend]
    exact htail

/-- An empty buffer that reads in chunks, compared with one that reads them in one piece. -/
theorem readLines_empty_of_chunks {limit : Nat} (hlimit : 0 < limit) {stream : Bytes}
    {chunks : List Bytes} (hflatten : chunks.flatten = stream) :
    ((empty limit).readLines chunks = (empty limit).readLines [stream] ↔
        ¬ CutsLate limit chunks) ∧
      ((empty limit).readLines [stream]).length ≤ ((empty limit).readLines chunks).length ∧
      (empty limit).readThrough chunks = (empty limit).readThrough [stream] := by
  subst hflatten
  obtain ⟨hsame, hmore, hthrough⟩ :=
    readLines_of_chunks chunks hlimit (calm_empty limit) (nextLine?_empty hlimit)
  rw [readsLate_empty_iff] at hsame hmore
  rw [readLines_one]
  by_cases hlate : CutsLate limit chunks
  · have hless := hmore hlate
    have hne : (empty limit).readLines chunks ≠
        ((empty limit).extend chunks.flatten).drainLines := by
      intro heq
      rw [heq] at hless
      exact absurd hless (Nat.lt_irrefl _)
    exact ⟨⟨fun heq => absurd heq hne, fun hnot => absurd hlate hnot⟩, hless.le, hthrough⟩
  · have heq := hsame hlate
    exact ⟨⟨fun _ => hlate, fun _ => heq⟩, by rw [heq], hthrough⟩

/-- **When the chunks matter.**  A buffer that reads a stream in one piece tells its lines, cut at
the limit, and then the bytes after the last end, in pieces as long as the limit.  If it is
drained after each chunk, it tells the same, unless an end comes late; then it tells more.  What
is left in the buffer never depends on the chunks.  So the chunks of a stream do not matter
exactly if all its lines are shorter than the limit. -/
theorem readLines_eq_iff {limit : Nat} (hlimit : 0 < limit) (stream : Bytes) :
    (∃ pieces : List Bytes,
      (empty limit).readLines [stream] =
        ((split stream).lines.map fun line => Utf8.decodeLossy (line.take limit)) ++
          pieces.map Utf8.decodeLossy ∧
      (∀ piece ∈ pieces, piece.length = limit) ∧
      pieces.flatten ++ ((empty limit).readThrough [stream]).pending = (split stream).tail) ∧
    (∀ chunks, chunks.flatten = stream →
      ((empty limit).readLines chunks = (empty limit).readLines [stream] ↔
          ¬ CutsLate limit chunks) ∧
        ((empty limit).readLines [stream]).length ≤ ((empty limit).readLines chunks).length ∧
        (empty limit).readThrough chunks = (empty limit).readThrough [stream]) ∧
    ((∀ chunks, chunks.flatten = stream →
      (empty limit).readLines chunks = (empty limit).readLines [stream]) ↔
        ∀ line ∈ (split stream).lines, line.length < limit) := by
  have hchunks := fun (chunks : List Bytes) (hflatten : chunks.flatten = stream) =>
    readLines_empty_of_chunks hlimit hflatten
  refine ⟨exists_pieces_readLines hlimit stream, hchunks, ?_⟩
  constructor
  · intro hagree line hmem
    -- a line that does not fit is cut right before its end
    by_contra hfull
    obtain ⟨before, after, rfl, hlate⟩ :=
      (exists_late_iff hlimit stream).mpr ⟨line, hmem, Nat.le_of_not_lt hfull⟩
    have hflatten : [before, after].flatten = before ++ after := by simp
    refine (hchunks [before, after] hflatten).1.mp (hagree _ hflatten) ?_
    exact ⟨[before], [after], rfl, by simpa using hlate⟩
  · intro hshort chunks hflatten
    refine (hchunks chunks hflatten).1.mpr ?_
    rintro ⟨before, after, rfl, hlate⟩
    obtain ⟨line, hmem, hfull⟩ := (exists_late_iff hlimit stream).mp
      ⟨before.flatten, after.flatten, by rw [← hflatten, List.flatten_append], hlate⟩
    exact absurd (hshort line hmem) (Nat.not_lt_of_le hfull)

/-- A line that just fits, and its feed in another chunk: an empty line is told after it. -/
theorem readLines_late_feed :
    ¬ (∀ line ∈ (split [0x61, 0x62, 0x63, 0x64, 0x0A]).lines, line.length < 4) ∧
      CutsLate 4 [[0x61, 0x62, 0x63, 0x64], [0x0A]] ∧
      (empty 4).readLines [[0x61, 0x62, 0x63, 0x64], [0x0A]] ≠
        (empty 4).readLines [[0x61, 0x62, 0x63, 0x64, 0x0A]] := by
  have hlate : CutsLate 4 [[0x61, 0x62, 0x63, 0x64], [0x0A]] :=
    ⟨[[0x61, 0x62, 0x63, 0x64]], [[0x0A]], rfl, by decide, by decide⟩
  have hlimit : 0 < 4 := by decide
  obtain ⟨-, hchunks, hagree⟩ := readLines_eq_iff hlimit [0x61, 0x62, 0x63, 0x64, 0x0A]
  have hne := fun heq => (hchunks [[0x61, 0x62, 0x63, 0x64], [0x0A]] rfl).1.mp heq hlate
  exact ⟨fun hshort => hne (hagree.mpr hshort _ rfl), hlate, hne⟩

/-- Not even a line that has an end and is too long is told in one way, whatever the chunks. -/
theorem not_forall_readLines_eq :
    ¬ ∀ (limit : Nat) (stream : Bytes) (chunks chunks' : List Bytes), 0 < limit →
      (∃ line ∈ (split stream).lines, limit ≤ line.length) →
      chunks.flatten = stream → chunks'.flatten = stream →
      (empty limit).readLines chunks = (empty limit).readLines chunks' := by
  intro hall
  have hone : (empty 4).readLines [[0x61, 0x62, 0x63, 0x64, 0x0A]] = ["abcd"] := rfl
  have htwo : (empty 4).readLines [[0x61, 0x62, 0x63, 0x64], [0x0A]] = ["abcd", ""] := rfl
  have heq := hall 4 [0x61, 0x62, 0x63, 0x64, 0x0A] [[0x61, 0x62, 0x63, 0x64, 0x0A]]
    [[0x61, 0x62, 0x63, 0x64], [0x0A]] (by decide)
    ⟨[0x61, 0x62, 0x63, 0x64], by decide, by decide⟩ rfl rfl
  rw [hone, htwo] at heq
  cases heq

end LineBuffer

end Sysop
