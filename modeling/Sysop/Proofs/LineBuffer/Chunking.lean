/-
Sysop/Proofs/LineBuffer/Chunking.lean

A buffer that is filled chunk by chunk reads the lines of the whole stream.

While a stream comes in, `unread b rest` is what the buffer `b` has not told yet when
`rest` is still to come.  `Tracks` ties it to the stream: the lines told so far and the
cut of the unread part make the cut of the stream.  Each use of the buffer keeps this
(`Tracks.extend`, `Tracks.nextLine`), so every history does (`Tracks.after`).

Main result: `texts_eq_split`.  It is about streams whose lines all fit; how a line
that does not fit is cut depends on the chunks.
-/
import Mathlib.Data.List.Infix
import Mathlib.Tactic.ByContra
import Sysop.Proofs.LineBuffer.NextLine

namespace Sysop

namespace LineBuffer

/-! ### Histories -/

/-- The bytes that a history puts into a buffer. -/
def fed (acts : List Act) : Bytes :=
  acts.flatMap fun
    | .extend data => data
    | _ => []

/-- The buffer after a history. -/
def after (b : LineBuffer) (acts : List Act) : LineBuffer :=
  acts.foldl (fun b act => (b.perform act).2) b

/-- The texts that a history gives, in order. -/
def texts (b : LineBuffer) (acts : List Act) : List String :=
  (b.performAll acts).filterMap (·.1)

/-- A history that takes in bytes and takes out lines, in any order. -/
def Reads (acts : List Act) : Prop :=
  ∀ act ∈ acts, act ≠ .take ∧ act ≠ .clear

instance (acts : List Act) : Decidable (Reads acts) :=
  inferInstanceAs (Decidable (∀ act ∈ acts, _))

@[simp] theorem fed_extend_cons (data : Bytes) (acts : List Act) :
    fed (.extend data :: acts) = data ++ fed acts := rfl

@[simp] theorem fed_next_cons (acts : List Act) : fed (.next :: acts) = fed acts := rfl

@[simp] theorem after_nil (b : LineBuffer) : b.after [] = b := rfl

@[simp] theorem after_cons (b : LineBuffer) (act : Act) (acts : List Act) :
    b.after (act :: acts) = (b.perform act).2.after acts := rfl

theorem after_append (b : LineBuffer) (acts more : List Act) :
    b.after (acts ++ more) = (b.after acts).after more :=
  List.foldl_append

@[simp] theorem texts_nil (b : LineBuffer) : b.texts [] = [] := rfl

theorem texts_cons (b : LineBuffer) (act : Act) (acts : List Act) :
    b.texts (act :: acts) = (b.perform act).1.toList ++ (b.perform act).2.texts acts := by
  unfold texts
  rw [performAll, List.filterMap_cons]
  cases (b.perform act).1 with
  | none => rfl
  | some text => rfl

theorem perform_next_of_some {b b' : LineBuffer} {text : String}
    (h : b.nextLine? = some (text, b')) : b.perform .next = (some text, b') := by
  simp only [perform, h]

theorem perform_next_of_none {b : LineBuffer} (h : b.nextLine? = none) :
    b.perform .next = (none, b) := by
  simp only [perform, h]

/-! ### Draining -/

theorem after_nexts_of_none {b : LineBuffer} (h : b.nextLine? = none) (n : Nat) :
    b.after (List.replicate n .next) = b := by
  induction n with
  | zero => rfl
  | succ n ih => rw [List.replicate_succ, after_cons, perform_next_of_none h, ih]

/-- Asking for as many lines as bytes are pending leaves no next line. -/
theorem nextLine?_after_nexts {n : Nat} :
    ∀ {b : LineBuffer}, 0 < b.limit → b.pending.length ≤ n →
      (b.after (List.replicate n .next)).nextLine? = none := by
  induction n with
  | zero =>
    intro b hlimit hlen
    have hnil : b.pending = [] := List.length_eq_zero_iff.mp (Nat.le_zero.mp hlen)
    rw [List.replicate_zero, after_nil, nextLine?_eq_none_iff, hnil]
    exact ⟨inner_nil, hlimit⟩
  | succ n ih =>
    intro b hlimit hlen
    rcases hnext : b.nextLine? with - | ⟨text, b'⟩
    · rw [after_nexts_of_none hnext]
      exact hnext
    · rw [List.replicate_succ, after_cons, perform_next_of_some hnext]
      -- each line takes bytes away, so one asking less is enough from here
      have hless : b'.pending.length < b.pending.length :=
        length_pending_of_nextLine? hlimit hnext
      have hlen' : b'.pending.length ≤ n := by omega
      refine ih ?_ hlen'
      show 0 < b'.limit
      rw [limit_of_nextLine? hnext]
      exact hlimit

/-! ### What is not told yet -/

/-- No run of bytes inside lines is as long as the limit. -/
def RunsShorter (limit : Nat) (stream : Bytes) : Prop :=
  ∀ run, run <:+: stream → Inner run → run.length < limit

theorem runsShorter_iff {limit : Nat} {stream : Bytes} :
    RunsShorter limit stream ↔
      ∀ front ∈ stream.tails, ∀ run ∈ front.inits, Inner run → run.length < limit := by
  constructor
  · intro h front hfront run hrun
    exact h run (List.infix_iff_prefix_suffix.mpr
      ⟨front, (List.mem_inits _ _).mp hrun, (List.mem_tails _ _).mp hfront⟩)
  · intro h run hrun
    obtain ⟨front, hprefix, hsuffix⟩ := List.infix_iff_prefix_suffix.mp hrun
    exact h front ((List.mem_tails _ _).mpr hsuffix) run ((List.mem_inits _ _).mpr hprefix)

instance (limit : Nat) (stream : Bytes) : Decidable (RunsShorter limit stream) :=
  decidable_of_iff _ runsShorter_iff.symm

/-- The part of a stream that a buffer has not told yet when `rest` is still to
come. -/
def unread (b : LineBuffer) (rest : Bytes) : Bytes :=
  if b.skipFeed then dropFeed rest else b.pending ++ rest

theorem unread_of_skip {b : LineBuffer} (h : b.skipFeed = true) (rest : Bytes) :
    b.unread rest = dropFeed rest := by
  rw [unread, if_pos h]

theorem unread_of_not_skip {b : LineBuffer} (h : b.skipFeed = false) (rest : Bytes) :
    b.unread rest = b.pending ++ rest := by
  rw [unread, if_neg (by simp [h])]

theorem unread_with_pending {b : LineBuffer} (h : b.skipFeed = false) (bs rest : Bytes) :
    { b with pending := bs }.unread rest = bs ++ rest := by
  rw [unread, if_neg (by simp [h])]

/-- Bytes that come in are no longer to come. -/
theorem unread_extend {b : LineBuffer} (hskip : b.skipFeed = true → b.pending = [])
    (data rest : Bytes) : (b.extend data).unread rest = b.unread (data ++ rest) := by
  by_cases hdata : data = []
  · rw [hdata, extend_nil, List.nil_append]
  · cases hs : b.skipFeed with
    | true =>
      -- the feed of a pair that the chunks cut apart is dropped here
      have hb : b.extend data = { b with pending := dropFeed data, skipFeed := false } := by
        rw [extend, if_pos ⟨hs, hdata⟩, hskip hs, List.nil_append]
      rw [hb, unread_of_skip hs, dropFeed_append hdata]
      rfl
    | false =>
      have hb : b.extend data = { b with pending := b.pending ++ data } := by
        rw [extend, if_neg (by simp [hs])]
      rw [hb, unread_with_pending hs, unread_of_not_skip hs, List.append_assoc]

/-- A line that has an end leaves unread what is behind the end. -/
theorem unread_afterEnd {b : LineBuffer} (hskip : b.skipFeed = false) (ending : UInt8)
    (more rest : Bytes) :
    (b.afterEnd ending more).unread rest = behind ending (more ++ rest) := by
  unfold afterEnd behind
  by_cases hcr : ending = cr
  · rw [if_pos hcr, if_pos hcr]
    by_cases hmore : more = []
    · rw [if_pos hmore, hmore]
      rfl
    · rw [if_neg hmore, dropFeed_append hmore]
      exact unread_with_pending hskip _ rest
  · rw [if_neg hcr, if_neg hcr]
    exact unread_with_pending hskip _ rest

/-- A feed is skipped only by a buffer with nothing in it. -/
theorem pending_afterEnd_of_skip {b : LineBuffer} (hskip : b.skipFeed = false)
    {ending : UInt8} {more : Bytes} (h : (b.afterEnd ending more).skipFeed = true) :
    (b.afterEnd ending more).pending = [] := by
  unfold afterEnd at h ⊢
  split at h
  · split at h
    · rename_i hcr hmore
      rw [if_pos hcr, if_pos hmore]
    · rw [hskip] at h
      cases h
  · rw [hskip] at h
    cases h

/-! ### Following a stream -/

/-- The buffer follows the stream: what it told and the cut of what it has not told
make the cut of the stream. -/
structure Tracks (stream : Bytes) (b : LineBuffer) (rest : Bytes) (told : List Bytes) :
    Prop where
  short : RunsShorter b.limit stream
  skip : b.skipFeed = true → b.pending = []
  suffix : b.unread rest <:+ stream
  lines : (split stream).lines = told ++ (split (b.unread rest)).lines
  tail : (split stream).tail = (split (b.unread rest)).tail

namespace Tracks

variable {stream : Bytes} {b : LineBuffer} {rest : Bytes} {told : List Bytes}

theorem start {limit : Nat} (h : RunsShorter limit stream) :
    Tracks stream (empty limit) stream [] where
  short := h
  skip := fun hs => by cases hs
  suffix := List.suffix_rfl
  lines := rfl
  tail := rfl

theorem limit_pos (h : Tracks stream b rest told) : 0 < b.limit :=
  h.short [] List.nil_infix inner_nil

/-- What is pending lies in the stream. -/
theorem pending_infix (h : Tracks stream b rest told) : b.pending <:+: stream := by
  cases hs : b.skipFeed with
  | true =>
    rw [h.skip hs]
    exact List.nil_infix
  | false =>
    have hsuffix := h.suffix
    rw [unread_of_not_skip hs] at hsuffix
    exact (List.prefix_append b.pending rest).isInfix.trans hsuffix.isInfix

theorem extend {data : Bytes} (h : Tracks stream b (data ++ rest) told) :
    Tracks stream (b.extend data) rest told := by
  have hunread := unread_extend h.skip data rest
  refine ⟨?_, ?_, ?_, ?_, ?_⟩
  · rw [limit_extend]
    exact h.short
  · intro hs
    unfold LineBuffer.extend at hs ⊢
    split at hs
    · cases hs
    · rename_i hcond
      have hdata : data = [] := by
        by_contra hdata
        exact hcond ⟨hs, hdata⟩
      rw [if_neg hcond, hdata, List.append_nil]
      exact h.skip hs
  · rw [hunread]
    exact h.suffix
  · rw [hunread]
    exact h.lines
  · rw [hunread]
    exact h.tail

/-- The next line of a buffer that follows a stream is the next line of the stream. -/
theorem nextLine {b' : LineBuffer} {text : String} (h : Tracks stream b rest told)
    (hnext : b.nextLine? = some (text, b')) :
    ∃ line, text = Utf8.decodeLossy line ∧ Tracks stream b' rest (told ++ [line]) := by
  rcases nextLine?_cases hnext with
    ⟨line, ending, more, hpending, hline, hending, htext, rfl⟩ | ⟨hinner, hfull, _, _⟩
  -- a buffer that is to skip a feed is empty and has no next line
  · have hskip : b.skipFeed = false := by
      cases hs : b.skipFeed with
      | false => rfl
      | true =>
        rw [h.skip hs] at hpending
        cases line <;> cases hpending
    -- the line is a run of the stream, so no byte of it is cut off
    have hshort : line.length < b.limit := by
      refine h.short line ?_ hline
      refine List.IsInfix.trans ?_ h.pending_infix
      rw [hpending]
      exact (List.prefix_append line _).isInfix
    have hunread : b.unread rest = line ++ ending :: (more ++ rest) := by
      rw [unread_of_not_skip hskip, hpending, List.append_assoc, List.cons_append]
    have hunread' := unread_afterEnd hskip ending more rest
    have hcut := split_append_ending hline hending (more ++ rest)
    refine ⟨line, ?_, ?_, ?_, ?_, ?_, ?_⟩
    · rw [htext, cut, List.take_of_length_le hshort.le]
    · rw [limit_afterEnd]
      exact h.short
    · exact pending_afterEnd_of_skip hskip
    · rw [hunread']
      refine (behind_suffix ending (more ++ rest)).trans (List.IsSuffix.trans ?_ h.suffix)
      rw [hunread]
      exact (List.suffix_cons ending _).trans (List.suffix_append line _)
    · rw [h.lines, hunread, hunread', hcut]
      simp [Split.push]
    · rw [h.tail, hunread, hunread', hcut]
      rfl
  · -- a full buffer without an end would be a run as long as the limit
    have hshort := h.short b.pending h.pending_infix hinner
    omega

/-- A history that reads keeps a buffer on its stream. -/
theorem after {acts : List Act} (hreads : Reads acts) :
    ∀ {b : LineBuffer} {told : List Bytes}, Tracks stream b (fed acts ++ rest) told →
      ∃ lines, b.texts acts = lines.map Utf8.decodeLossy ∧
        Tracks stream (b.after acts) rest (told ++ lines) := by
  induction acts with
  | nil =>
    intro b told h
    refine ⟨[], rfl, ?_⟩
    rw [List.append_nil]
    exact h
  | cons act acts ih =>
    -- induction on the history, for every buffer and all that it has told
    intro b told h
    have hacts : Reads acts := fun a ha => hreads a (List.mem_cons_of_mem _ ha)
    rw [texts_cons, after_cons]
    cases act with
    | extend data =>
      rw [fed_extend_cons, List.append_assoc] at h
      exact ih hacts h.extend
    | next =>
      rw [fed_next_cons] at h
      rcases hnext : b.nextLine? with - | ⟨text, b'⟩
      · rw [perform_next_of_none hnext]
        exact ih hacts h
      · rw [perform_next_of_some hnext]
        obtain ⟨line, htext, h'⟩ := h.nextLine hnext
        obtain ⟨lines, htexts, hafter⟩ := ih hacts h'
        refine ⟨line :: lines, ?_, ?_⟩
        · rw [htext, htexts]
          rfl
        · rw [List.append_assoc] at hafter
          exact hafter
    | take => exact absurd rfl (hreads .take List.mem_cons_self).1
    | clear => exact absurd rfl (hreads .clear List.mem_cons_self).2

/-- When the whole stream is in and there is no next line, what is pending is the
tail. -/
theorem done (h : Tracks stream b [] told) (hnone : b.nextLine? = none) :
    split stream = ⟨told, b.pending⟩ := by
  obtain ⟨hinner, -⟩ := nextLine?_eq_none_iff.mp hnone
  have hunread : b.unread [] = b.pending := by
    cases hs : b.skipFeed with
    | true => rw [unread_of_skip hs, h.skip hs, dropFeed_nil]
    | false => rw [unread_of_not_skip hs, List.append_nil]
  have hlines : (split stream).lines = told := by
    rw [h.lines, hunread, split_inner hinner, List.append_nil]
  have htail : (split stream).tail = b.pending := by
    rw [h.tail, hunread, split_inner hinner]
  rw [← hlines, ← htail]

end Tracks

/-! ### Reading in chunks -/

/-- **A buffer reads the lines of the stream, however the stream comes in.**  At any
time the texts so far are the first lines of the stream; when all of it is in and
there is no next line they are all its lines, and what remains is its tail; and asking
often enough gets there. -/
theorem texts_eq_split {limit : Nat} {stream : Bytes} (hshort : RunsShorter limit stream) :
    (∀ acts, Reads acts → fed acts <+: stream →
      (empty limit).texts acts <+: (split stream).lines.map Utf8.decodeLossy) ∧
    (∀ acts, Reads acts → fed acts = stream → ((empty limit).after acts).nextLine? = none →
      (empty limit).texts acts = (split stream).lines.map Utf8.decodeLossy ∧
        ((empty limit).after acts).takeRemaining.1 = Utf8.decodeLossy (split stream).tail) ∧
    (∀ acts, Reads acts → fed acts = stream → ∀ n, stream.length ≤ n →
      ((empty limit).after (acts ++ List.replicate n .next)).nextLine? = none) := by
  have start : Tracks stream (empty limit) stream [] := Tracks.start hshort
  refine ⟨?_, ?_, ?_⟩
  · rintro acts hreads ⟨rest, hfed⟩
    rw [← hfed] at start
    obtain ⟨lines, htexts, h⟩ := start.after hreads
    rw [hfed, List.nil_append] at h
    rw [htexts, h.lines, List.map_append]
    exact List.prefix_append _ _
  · intro acts hreads hfed hnone
    rw [← List.append_nil stream, ← hfed] at start
    obtain ⟨lines, htexts, h⟩ := start.after hreads
    rw [List.append_nil, hfed, List.nil_append] at h
    have hsplit : split stream = ⟨lines, ((empty limit).after acts).pending⟩ := h.done hnone
    have hlen : ((empty limit).after acts).pending.length
        ≤ ((empty limit).after acts).limit :=
      (nextLine?_eq_none_iff.mp hnone).2.le
    refine ⟨?_, ?_⟩
    · rw [htexts, hsplit]
    · rw [hsplit, takeRemaining, cut, List.take_of_length_le hlen]
  · intro acts hreads hfed n hn
    rw [← List.append_nil stream, ← hfed] at start
    obtain ⟨lines, -, h⟩ := start.after hreads
    rw [List.append_nil, hfed] at h
    rw [after_append]
    exact nextLine?_after_nexts h.limit_pos (h.pending_infix.length_le.trans hn)

/-- A history whose chunks cut a character, a pair of ends and nothing at all. -/
def jagged : List Act :=
  [.extend [0xC3], .next, .extend [0xA9, 0x0D], .next, .extend [], .next,
    .extend [0x0A, 0x0D], .next, .extend [0x62]]

theorem texts_jagged :
    RunsShorter 3 [0xC3, 0xA9, 0x0D, 0x0A, 0x0D, 0x62] ∧ Reads jagged ∧
      fed jagged = [0xC3, 0xA9, 0x0D, 0x0A, 0x0D, 0x62] ∧
      ((empty 3).after jagged).nextLine? = none ∧
      (empty 3).texts jagged = ["\u00E9", ""] ∧
      ((empty 3).after jagged).takeRemaining.1 = "b" := by
  have hshort : RunsShorter 3 [0xC3, 0xA9, 0x0D, 0x0A, 0x0D, 0x62] :=
    runsShorter_iff.mpr (by decide +kernel)
  have hreads : Reads jagged := by decide
  have hfed : fed jagged = [0xC3, 0xA9, 0x0D, 0x0A, 0x0D, 0x62] := by decide
  have hnone : ((empty 3).after jagged).nextLine? = none := rfl
  obtain ⟨htexts, htail⟩ := (texts_eq_split hshort).2.1 jagged hreads hfed hnone
  exact ⟨hshort, hreads, hfed, hnone, htexts, htail⟩

end LineBuffer

end Sysop
