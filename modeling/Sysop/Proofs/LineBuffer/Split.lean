/-
Sysop/Proofs/LineBuffer/Split.lean

A whole byte stream cut into lines at once, without a buffer.

    split s = (the lines of s that have an end, the bytes after the last end)

A line ends with a carriage return that a line feed follows, or with one of the two
alone.  `Splits` says which cuts of a stream are right; `split` makes one byte by
byte, and it is the only right one (`splits_iff`).

A reader that meets a stream in pieces needs one equation: the first end cuts off
the bytes before it, and what is behind it is cut by itself (`split_append_ending`).
-/
import Sysop.LineBuffer

namespace Sysop

namespace LineBuffer

/-! ### Bytes inside lines -/

/-- No byte of the string ends a line. -/
def Inner (bs : Bytes) : Prop :=
  ∀ b ∈ bs, isInner b = true

instance (bs : Bytes) : Decidable (Inner bs) :=
  inferInstanceAs (Decidable (∀ b ∈ bs, _))

@[simp] theorem inner_nil : Inner [] := by
  intro b hb
  cases hb

theorem inner_cons_iff {b : UInt8} {bs : Bytes} :
    Inner (b :: bs) ↔ isInner b = true ∧ Inner bs := by
  simp [Inner]

theorem isInner_iff {b : UInt8} : isInner b = true ↔ b ≠ cr ∧ b ≠ lf := by
  simp [isInner]

theorem inner_takeWhile (bs : Bytes) : Inner (bs.takeWhile isInner) := by
  exact List.all_eq_true.mp List.all_takeWhile

/-- The bytes before the first end. -/
theorem takeWhile_append_ending {line : Bytes} {ending : UInt8} (hline : Inner line)
    (hending : isInner ending = false) (rest : Bytes) :
    (line ++ ending :: rest).takeWhile isInner = line := by
  rw [List.takeWhile_append_of_pos hline, List.takeWhile_cons_of_neg (by simp [hending]),
    List.append_nil]

/-- The first end and what is behind it. -/
theorem dropWhile_append_ending {line : Bytes} {ending : UInt8} (hline : Inner line)
    (hending : isInner ending = false) (rest : Bytes) :
    (line ++ ending :: rest).dropWhile isInner = ending :: rest := by
  rw [List.dropWhile_append_of_pos hline, List.dropWhile_cons_of_neg (by simp [hending])]

theorem lf_ne_cr : lf ≠ cr := by
  decide

/-- A byte that ends lines is one of two. -/
theorem eq_cr_or_eq_lf {b : UInt8} (h : isInner b = false) : b = cr ∨ b = lf := by
  by_cases hcr : b = cr
  · exact .inl hcr
  · by_cases hlf : b = lf
    · exact .inr hlf
    · rw [isInner_iff.mpr ⟨hcr, hlf⟩] at h
      cases h

/-! ### A feed at the front -/

@[simp] theorem dropFeed_nil : dropFeed [] = [] := rfl

@[simp] theorem dropFeed_lf_cons (r : Bytes) : dropFeed (lf :: r) = r := by
  simp [dropFeed]

theorem dropFeed_of_head {r : Bytes} (h : r.head? ≠ some lf) : dropFeed r = r := by
  cases r with
  | nil => rfl
  | cons b r =>
    have hb : b ≠ lf := by simpa using h
    simp [dropFeed, hb]

theorem dropFeed_append {d : Bytes} (h : d ≠ []) (r : Bytes) :
    dropFeed (d ++ r) = dropFeed d ++ r := by
  cases d with
  | nil => exact absurd rfl h
  | cons b d =>
    by_cases hb : b = lf
    · simp [dropFeed, hb]
    · simp [dropFeed, hb]

theorem dropFeed_suffix (r : Bytes) : dropFeed r <:+ r := by
  cases r with
  | nil => exact List.suffix_rfl
  | cons b r =>
    by_cases hb : b = lf
    · subst hb
      rw [dropFeed_lf_cons]
      exact List.suffix_cons lf r
    · have hkeep : dropFeed (b :: r) = b :: r := dropFeed_of_head (by simpa using hb)
      exact ⟨[], by rw [hkeep, List.nil_append]⟩

/-! ### Cuts -/

/-- A stream cut into lines: those that have an end, and the bytes after the last
end. -/
structure Split where
  lines : List Bytes
  tail : Bytes
  deriving DecidableEq, Repr

/-- The cut with one more line in front. -/
def Split.push (line : Bytes) (s : Split) : Split :=
  ⟨line :: s.lines, s.tail⟩

/-- The cut with more bytes at the front of its first line. -/
def Split.prepend (front : Bytes) : Split → Split
  | ⟨[], tail⟩ => ⟨[], front ++ tail⟩
  | ⟨line :: lines, tail⟩ => ⟨(front ++ line) :: lines, tail⟩

/-- The cut of a stream.  Right after a carriage return, a line feed belongs to the
end that is over. -/
def splitFrom : Bool → Bytes → Split
  | _, [] => ⟨[], []⟩
  | afterReturn, b :: r =>
    if b = lf then
      if afterReturn then splitFrom false r else (splitFrom false r).push []
    else if b = cr then (splitFrom true r).push []
    else (splitFrom false r).prepend [b]

/-- The cut of a stream. -/
def split (s : Bytes) : Split :=
  splitFrom false s

/-- Both ends in one stream: the pair ends one line. -/
example : split [0x61, 0x0D, 0x0A, 0x0A, 0x62] = ⟨[[0x61], []], [0x62]⟩ := by decide

theorem Split.prepend_nil (s : Split) : s.prepend [] = s := by
  obtain ⟨lines, tail⟩ := s
  cases lines with
  | nil => rfl
  | cons line lines => rfl

theorem Split.prepend_prepend (a b : Bytes) (s : Split) :
    (s.prepend b).prepend a = s.prepend (a ++ b) := by
  obtain ⟨lines, tail⟩ := s
  cases lines with
  | nil => simp [prepend]
  | cons line lines => simp [prepend]

theorem Split.prepend_push_nil (line : Bytes) (s : Split) :
    (s.push []).prepend line = s.push line := by
  simp [push, prepend]

/-! ### Equations of the cut -/

@[simp] theorem split_nil : split [] = ⟨[], []⟩ := rfl

theorem splitFrom_true (r : Bytes) : splitFrom true r = split (dropFeed r) := by
  cases r with
  | nil => rfl
  | cons b r =>
    by_cases hb : b = lf
    · simp [splitFrom, split, hb]
    · rw [dropFeed_of_head (by simpa using hb)]
      simp [splitFrom, split, hb]

theorem split_lf_cons (r : Bytes) : split (lf :: r) = (split r).push [] := by
  simp [split, splitFrom]

theorem split_cr_cons (r : Bytes) : split (cr :: r) = (split (dropFeed r)).push [] := by
  rw [← splitFrom_true]
  simp [split, splitFrom, lf_ne_cr.symm]

theorem split_inner_cons {b : UInt8} (h : isInner b = true) (r : Bytes) :
    split (b :: r) = (split r).prepend [b] := by
  obtain ⟨hcr, hlf⟩ := isInner_iff.mp h
  simp [split, splitFrom, hcr, hlf]

theorem split_inner_append {line : Bytes} (h : Inner line) (r : Bytes) :
    split (line ++ r) = (split r).prepend line := by
  induction line with
  | nil => exact (Split.prepend_nil _).symm
  | cons b line ih =>
    obtain ⟨hb, hline⟩ := inner_cons_iff.mp h
    rw [List.cons_append, split_inner_cons hb, ih hline, Split.prepend_prepend]
    rfl

/-- The cut of a stream without ends is its tail. -/
theorem split_inner {s : Bytes} (h : Inner s) : split s = ⟨[], s⟩ := by
  have hs := split_inner_append h []
  rw [List.append_nil] at hs
  rw [hs, split_nil]
  simp [Split.prepend]

/-- The stream behind an end that begins with the given byte. -/
def behind (ending : UInt8) (r : Bytes) : Bytes :=
  if ending = cr then dropFeed r else r

theorem behind_suffix (ending : UInt8) (r : Bytes) : behind ending r <:+ r := by
  unfold behind
  split
  · exact dropFeed_suffix r
  · exact List.suffix_rfl

/-- The first end of a stream cuts off the bytes before it. -/
theorem split_append_ending {line : Bytes} (hline : Inner line) {ending : UInt8}
    (hending : isInner ending = false) (r : Bytes) :
    split (line ++ ending :: r) = (split (behind ending r)).push line := by
  rw [split_inner_append hline]
  -- after a return the feed of a pair is dropped, after a feed nothing is
  rcases eq_cr_or_eq_lf hending with rfl | rfl
  · rw [split_cr_cons, Split.prepend_push_nil, behind, if_pos rfl]
  · rw [split_lf_cons, Split.prepend_push_nil, behind, if_neg lf_ne_cr]

/-! ### The right cuts -/

/-- `Splits s lines tail`: cutting `s` at every end gives `lines`, and leaves
`tail`. -/
inductive Splits : Bytes → List Bytes → Bytes → Prop
  | tail {t} : Inner t → Splits t [] t
  | feed {line r lines t} :
      Inner line → Splits r lines t → Splits (line ++ lf :: r) (line :: lines) t
  | pair {line r lines t} :
      Inner line → Splits r lines t → Splits (line ++ cr :: lf :: r) (line :: lines) t
  | alone {line r lines t} :
      Inner line → r.head? ≠ some lf → Splits r lines t →
        Splits (line ++ cr :: r) (line :: lines) t

theorem not_isInner_cr : isInner cr = false := by
  decide

theorem not_isInner_lf : isInner lf = false := by
  decide

/-- There is no other right cut than `split`. -/
theorem Splits.eq_split {s : Bytes} {lines : List Bytes} {t : Bytes}
    (h : Splits s lines t) : split s = ⟨lines, t⟩ := by
  induction h with
  | tail ht => exact split_inner ht
  | feed hline _ ih =>
    rw [split_append_ending hline not_isInner_lf, behind, if_neg lf_ne_cr, ih]
    rfl
  | pair hline _ ih =>
    rw [split_append_ending hline not_isInner_cr, behind, if_pos rfl, dropFeed_lf_cons, ih]
    rfl
  | alone hline hhead _ ih =>
    rw [split_append_ending hline not_isInner_cr, behind, if_pos rfl,
      dropFeed_of_head hhead, ih]
    rfl

/-- A byte inside the first line keeps a cut right. -/
theorem Splits.prepend {b : UInt8} (hb : isInner b = true) {r : Bytes} {s : Split}
    (h : Splits r s.lines s.tail) :
    Splits (b :: r) (s.prepend [b]).lines (s.prepend [b]).tail := by
  obtain ⟨lines, tail⟩ := s
  cases h with
  | tail ht => exact .tail (inner_cons_iff.mpr ⟨hb, ht⟩)
  | feed hline hr => exact .feed (inner_cons_iff.mpr ⟨hb, hline⟩) hr
  | pair hline hr => exact .pair (inner_cons_iff.mpr ⟨hb, hline⟩) hr
  | alone hline hhead hr => exact .alone (inner_cons_iff.mpr ⟨hb, hline⟩) hhead hr

/-- A carriage return at the front keeps a cut right, with or without a feed behind
it. -/
theorem Splits.push_return {r : Bytes} {s : Split}
    (h : Splits (dropFeed r) s.lines s.tail) :
    Splits (cr :: r) (s.push []).lines (s.push []).tail := by
  by_cases hhead : r.head? = some lf
  · obtain ⟨r', rfl⟩ := List.head?_eq_some_iff.mp hhead
    rw [dropFeed_lf_cons] at h
    exact .pair inner_nil h
  · rw [dropFeed_of_head hhead] at h
    exact .alone inner_nil hhead h

/-- `split` is a right cut, also of what is behind a feed at the front. -/
theorem splits_split_both (s : Bytes) :
    Splits s (split s).lines (split s).tail ∧
      Splits (dropFeed s) (split (dropFeed s)).lines (split (dropFeed s)).tail := by
  induction s with
  | nil => exact ⟨.tail inner_nil, .tail inner_nil⟩
  | cons b r ih =>
    -- both at once: a carriage return asks for the cut behind a feed, not for that of `r`
    obtain ⟨hr, hdrop⟩ := ih
    by_cases hlf : b = lf
    · subst hlf
      rw [split_lf_cons, dropFeed_lf_cons]
      exact ⟨.feed inner_nil hr, hr⟩
    · have hhead : (b :: r).head? ≠ some lf := by simpa using hlf
      rw [dropFeed_of_head hhead, and_self_iff]
      by_cases hcr : b = cr
      · subst hcr
        rw [split_cr_cons]
        exact Splits.push_return hdrop
      · have hb : isInner b = true := isInner_iff.mpr ⟨hcr, hlf⟩
        rw [split_inner_cons hb]
        exact Splits.prepend hb hr

/-- The right cuts of a stream are one: `split`. -/
theorem splits_iff {s : Bytes} {lines : List Bytes} {t : Bytes} :
    Splits s lines t ↔ split s = ⟨lines, t⟩ := by
  constructor
  · exact Splits.eq_split
  · intro h
    have hs := (splits_split_both s).1
    rw [h] at hs
    exact hs

end LineBuffer

end Sysop
