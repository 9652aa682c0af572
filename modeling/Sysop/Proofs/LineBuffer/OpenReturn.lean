/-
Sysop/Proofs/LineBuffer/OpenReturn.lean

When a buffer skips a feed.

A carriage return at the very end of the input may be the first half of a pair.  It is open from
when it ends a line until more bytes come in or the buffer is emptied:

    OpenReturn limit acts i     after the history, the return at place `i` of the input is open

This is said of the history alone: the place is the last one of the input, a line was asked for
that the return ended, and nothing was thrown away since (`AskedSince`).  The flag of the buffer
says the same (`skipFeed_iff`), by induction from the end of the history, with one law for each
use.  Every limit is allowed, zero too.

Main result: `skips_only_open_pairs`.
-/
import Sysop.Proofs.LineBuffer.History

namespace Sysop

namespace LineBuffer

/-! ### What was asked for -/

/-- A line was asked for when `P` held of the history, and nothing was thrown away since. -/
def AskedSince (P : List Act → Prop) (acts : List Act) : Prop :=
  ∃ before after, acts = before ++ .next :: after ∧ P before ∧ Reads after

variable {P : List Act → Prop} {acts : List Act} {act : Act}

theorem not_askedSince_nil : ¬ AskedSince P [] := by
  rintro ⟨before, after, h, -⟩
  exact List.append_ne_nil_of_right_ne_nil before (List.cons_ne_nil _ _) h.symm

/-- One use more either asks now, or leaves it at what was asked before. -/
theorem askedSince_concat_iff :
    AskedSince P (acts ++ [act]) ↔
      (act = .next ∧ P acts) ∨ (act ≠ .take ∧ act ≠ .clear) ∧ AskedSince P acts := by
  constructor
  · rintro ⟨before, after, h, hP, hreads⟩
    -- either the request is the last use, or the last use is behind it
    rcases List.eq_nil_or_concat after with rfl | ⟨after, last, rfl⟩
    · obtain ⟨rfl, hact⟩ := List.append_inj' h rfl
      exact .inl ⟨(List.cons.inj hact).1, hP⟩
    · rw [List.concat_eq_append] at h hreads
      rw [← List.cons_append, ← List.append_assoc] at h
      obtain ⟨rfl, hact⟩ := List.append_inj' h rfl
      obtain rfl := (List.cons.inj hact).1
      refine .inr ⟨hreads act (by simp), before, after, rfl, hP, fun a ha => hreads a ?_⟩
      exact List.mem_append_left _ ha
  · rintro (⟨rfl, hP⟩ | ⟨hact, before, after, rfl, hP, hreads⟩)
    · exact ⟨acts, [], rfl, hP, fun a ha => by cases ha⟩
    · refine ⟨before, after ++ [act], by simp, hP, fun a ha => ?_⟩
      rcases List.mem_append.mp ha with ha | ha
      · exact hreads a ha
      · rw [List.mem_singleton.mp ha]
        exact hact

/-! ### Open returns -/

/-- The line that comes next after the history is ended by the return at place `i` of the input:
`front` is no longer pending, and `line` is the line. -/
def EndsAt (limit i : Nat) (acts : List Act) : Prop :=
  ∃ front line rest, fed acts = front ++ (line ++ cr :: rest) ∧
    ((empty limit).after acts).pending = line ++ cr :: rest ∧ Inner line ∧
    i = front.length + line.length

/-- The return at place `i` is the last byte of the input.  It has ended a line, and nothing was
thrown away since. -/
structure OpenReturn (limit : Nat) (acts : List Act) (i : Nat) : Prop where
  byte : (fed acts)[i]? = some cr
  last : (fed acts).length = i + 1
  asked : AskedSince (EndsAt limit i) acts

variable {limit i : Nat}

/-- A place where a line ends is a place of the input. -/
theorem EndsAt.lt (h : EndsAt limit i acts) : i < (fed acts).length := by
  obtain ⟨front, line, rest, hfed, -, -, rfl⟩ := h
  rw [hfed]
  simp only [List.length_append, List.length_cons]
  omega

theorem AskedSince.lt (h : AskedSince (EndsAt limit i) acts) : i < (fed acts).length := by
  obtain ⟨before, after, rfl, hends, -⟩ := h
  rw [fed_append, List.length_append]
  exact Nat.lt_add_right _ hends.lt

/-- The line that comes next is ended by the last byte of the input. -/
theorem exists_endsAt_iff :
    (∃ i, EndsAt limit i acts ∧ (fed acts).length = i + 1) ↔
      ∃ line, ((empty limit).after acts).pending = line ++ [cr] ∧ Inner line := by
  constructor
  · rintro ⟨i, ⟨front, line, rest, hfed, hpending, hinner, rfl⟩, hlast⟩
    rw [hfed] at hlast
    simp only [List.length_append, List.length_cons] at hlast
    -- nothing is behind the last byte
    have hrest : rest = [] := List.length_eq_zero_iff.mp (by omega)
    rw [hrest] at hpending
    exact ⟨line, hpending, hinner⟩
  · rintro ⟨line, hpending, hinner⟩
    -- the pending bytes end the input, so their last byte is that of the input
    obtain ⟨front, hfed⟩ := pending_suffix_fed limit acts
    rw [hpending] at hfed
    refine ⟨front.length + line.length,
      ⟨front, line, [], hfed.symm, hpending, hinner, rfl⟩, ?_⟩
    rw [← hfed]
    simp only [List.length_append, List.length_cons, List.length_nil]
    omega

theorem EndsAt.byte (h : EndsAt limit i acts) : (fed acts)[i]? = some cr := by
  obtain ⟨front, line, rest, hfed, -, -, rfl⟩ := h
  rw [hfed, ← List.append_assoc, ← List.length_append]
  simp

/-! ### One use more -/

/-- Any byte that comes in closes a return. -/
theorem openReturn_extend_iff {data : Bytes} :
    OpenReturn limit (acts ++ [.extend data]) i ↔ data = [] ∧ OpenReturn limit acts i := by
  have hfed : fed (acts ++ [.extend data]) = fed acts ++ data := by
    rw [fed_append]
    exact congrArg (fed acts ++ ·) (List.append_nil data)
  constructor
  · rintro ⟨hbyte, hlast, hasked⟩
    rw [askedSince_concat_iff] at hasked
    have hasked : AskedSince (EndsAt limit i) acts := by
      simpa using hasked
    -- the return was in the input already, so it is the last byte only of an empty chunk
    have hlt := hasked.lt
    rw [hfed, List.length_append] at hlast
    have hdata : data = [] := List.length_eq_zero_iff.mp (by omega)
    rw [hfed, hdata, List.append_nil] at hbyte
    exact ⟨hdata, hbyte, by omega, hasked⟩
  · rintro ⟨rfl, hbyte, hlast, hasked⟩
    rw [List.append_nil] at hfed
    exact ⟨by rw [hfed]; exact hbyte, by rw [hfed]; exact hlast,
      askedSince_concat_iff.mpr (.inr ⟨by simp, hasked⟩)⟩

/-- A request opens the return at the end of the input, if it ends the line, and closes none. -/
theorem openReturn_next_iff :
    OpenReturn limit (acts ++ [.next]) i ↔
      (EndsAt limit i acts ∧ (fed acts).length = i + 1) ∨ OpenReturn limit acts i := by
  have hfed : fed (acts ++ [.next]) = fed acts := by
    rw [fed_append]
    exact List.append_nil _
  constructor
  · rintro ⟨hbyte, hlast, hasked⟩
    rw [hfed] at hbyte hlast
    rcases askedSince_concat_iff.mp hasked with ⟨-, hends⟩ | ⟨-, hasked⟩
    · exact .inl ⟨hends, hlast⟩
    · exact .inr ⟨hbyte, hlast, hasked⟩
  · rintro (⟨hends, hlast⟩ | ⟨hbyte, hlast, hasked⟩)
    · exact ⟨by rw [hfed]; exact hends.byte, by rw [hfed]; exact hlast,
        askedSince_concat_iff.mpr (.inl ⟨rfl, hends⟩)⟩
    · exact ⟨by rw [hfed]; exact hbyte, by rw [hfed]; exact hlast,
        askedSince_concat_iff.mpr (.inr ⟨by simp, hasked⟩)⟩

/-- Throwing the input away closes every return. -/
theorem not_openReturn_of_thrown (hact : act = .take ∨ act = .clear) :
    ¬ OpenReturn limit (acts ++ [act]) i := by
  rintro ⟨-, -, hasked⟩
  rcases askedSince_concat_iff.mp hasked with ⟨rfl, -⟩ | ⟨⟨htake, hclear⟩, -⟩
  · simp at hact
  · exact hact.elim htake hclear

theorem skipFeed_extend_iff {b : LineBuffer} {data : Bytes} :
    (b.extend data).skipFeed = true ↔ data = [] ∧ b.skipFeed = true := by
  by_cases hdata : data = []
  · rw [hdata, extend_nil]
    simp
  · rw [skipFeed_extend hdata]
    simp [hdata]

/-- A line sets the flag when a return ends it and nothing is left. -/
theorem skipFeed_afterEnd_iff {b : LineBuffer} {ending : UInt8} {rest : Bytes}
    (hskip : b.skipFeed = false) :
    (b.afterEnd ending rest).skipFeed = true ↔ ending = cr ∧ rest = [] := by
  unfold afterEnd
  split_ifs <;> simp [*]

theorem skipFeed_next_iff {b : LineBuffer} (h : b.Calm) :
    (b.perform .next).2.skipFeed = true ↔
      (∃ line, b.pending = line ++ [cr] ∧ Inner line) ∨ b.skipFeed = true := by
  -- a return that is pending ends a line
  have hnone : Inner b.pending → ¬ ∃ line, b.pending = line ++ [cr] ∧ Inner line := by
    rintro hinner ⟨line, hpending, -⟩
    have hcr := hinner cr (by simp [hpending])
    rw [not_isInner_cr] at hcr
    cases hcr
  rcases hnext : b.nextLine? with - | ⟨text, b'⟩
  · obtain ⟨hinner, -⟩ := nextLine?_eq_none_iff.mp hnext
    rw [perform_next_of_none hnext]
    exact ⟨.inr, fun hor => hor.resolve_left (hnone hinner)⟩
  · rw [perform_next_of_some hnext]
    rcases nextLine?_cases hnext with
      ⟨line, ending, rest, hpending, hline, hending, -, rfl⟩ | ⟨hinner, -, -, rfl⟩
    · have hskip := h.skipFeed_of_end hpending
      rw [skipFeed_afterEnd_iff hskip, hskip, hpending]
      constructor
      · rintro ⟨rfl, rfl⟩
        exact .inl ⟨line, rfl, hline⟩
      · rintro (⟨line', heq, hline'⟩ | hfalse)
        · -- both sides stop at the first end, which is one and the same
          have hends := congrArg (List.dropWhile isInner) heq
          rw [dropWhile_append_ending hline hending,
            dropWhile_append_ending hline' not_isInner_cr] at hends
          exact List.cons.inj hends
        · cases hfalse
    · exact ⟨.inr, fun hor => hor.resolve_left (hnone hinner)⟩

/-! ### Every history -/

/-- **The flag is exact.**  It is set as long as a return is open. -/
theorem skipFeed_iff (limit : Nat) (acts : List Act) :
    ((empty limit).after acts).skipFeed = true ↔ ∃ i, OpenReturn limit acts i := by
  induction acts using List.reverseRecOn with
  | nil =>
    constructor
    · intro h
      cases h
    · rintro ⟨i, h⟩
      exact absurd h.asked not_askedSince_nil
  | append_singleton acts act ih =>
    rw [after_concat]
    cases act with
    | extend data =>
      simp only [openReturn_extend_iff, exists_and_left, ← ih]
      exact skipFeed_extend_iff
    | next =>
      simp only [openReturn_next_iff, exists_or, exists_endsAt_iff, ← ih]
      exact skipFeed_next_iff (calm_after limit acts)
    | take =>
      simp only [not_openReturn_of_thrown (.inl rfl), exists_false, iff_false]
      exact Bool.false_ne_true
    | clear =>
      simp only [not_openReturn_of_thrown (.inr rfl), exists_false, iff_false]
      exact Bool.false_ne_true

/-- **A feed is skipped exactly if it completes a pair whose return has ended a line.**  The flag
is set exactly if nothing is pending and the last byte of the input is a return that has ended a
line, with nothing thrown away since.  Of a chunk at most the first byte is dropped, a feed right
behind such a return, and all other bytes are appended in their order.  A return that bytes have
followed is never open again, so it drops no second feed. -/
theorem skips_only_open_pairs (limit : Nat) (acts : List Act) :
    (((empty limit).after acts).skipFeed = true ↔
      ((empty limit).after acts).pending = [] ∧ ∃ i, OpenReturn limit acts i) ∧
    (∀ data, ∃ kept,
      ((empty limit).after (acts ++ [.extend data])).pending =
          ((empty limit).after acts).pending ++ kept ∧
        (kept = data ∧ ¬ ((∃ i, OpenReturn limit acts i) ∧ data.head? = some lf) ∨
          data = lf :: kept ∧ ∃ i, OpenReturn limit acts i)) ∧
    ∀ i data later, OpenReturn limit acts i → data ≠ [] →
      ¬ OpenReturn limit (acts ++ .extend data :: later) i := by
  refine ⟨?_, fun data => ?_, ?_⟩
  · rw [← skipFeed_iff]
    exact ⟨fun hskip => ⟨calm_after limit acts hskip, hskip⟩, And.right⟩
  · rw [after_concat, ← skipFeed_iff]
    exact exists_pending_extend _ data
  · intro i data later hopen hdata hopen'
    have hlast := hopen.last
    have hlast' := hopen'.last
    have hpos := List.length_pos_iff.mpr hdata
    rw [fed_append, fed_extend_cons, List.length_append, List.length_append] at hlast'
    omega

/-- A line and the first half of a pair, an empty chunk, and a request that finds nothing. -/
def halfPair : List Act :=
  [.extend [0x61, 0x0D], .next, .extend [], .next]

theorem halfPair_skips :
    (∃ i, OpenReturn 4 halfPair i) ∧ ∃ kept,
      ((empty 4).after (halfPair ++ [.extend [0x0A, 0x0A]])).pending = kept ∧
        [0x0A, 0x0A] = lf :: kept := by
  obtain ⟨hflag, hdrops, -⟩ := skips_only_open_pairs 4 halfPair
  have hopen : ∃ i, OpenReturn 4 halfPair i := (hflag.mp rfl).2
  obtain ⟨kept, hpending, ⟨-, hnot⟩ | ⟨hkept, -⟩⟩ := hdrops [0x0A, 0x0A]
  · exact absurd ⟨hopen, rfl⟩ hnot
  · exact ⟨hopen, kept, hpending, hkept⟩

end LineBuffer

end Sysop
