/-
Sysop/Proofs/Text/Blank.lean

How texts are trimmed, cut into words and cut into lines.

* Blanks around a text are not seen by `words`, so a trimmed text has the same words
  (`words_trim`), and the words come off one by one (`words_word_append`).
* A line feed ends a line (`lines_cons`), and the carriage return in front of it does not
  matter once the line is trimmed (`trim_closed`).
-/
import Mathlib.Data.List.TakeWhile
import Sysop.Text.Blank

namespace Sysop

namespace Text

/-! ### Blanks -/

/-- Nothing but blanks. -/
def Blank (cs : List Char) : Prop :=
  ∀ c ∈ cs, isBlank c = true

/-- No blank at all. -/
def Solid (cs : List Char) : Prop :=
  ∀ c ∈ cs, isBlank c = false

instance (cs : List Char) : Decidable (Blank cs) :=
  List.decidableBAll (fun c => isBlank c = true) cs

instance (cs : List Char) : Decidable (Solid cs) :=
  List.decidableBAll (fun c => isBlank c = false) cs

/-- The text is over, or a blank comes. -/
def Breaks (cs : List Char) : Prop :=
  cs = [] ∨ ∃ c r, cs = c :: r ∧ isBlank c = true

theorem breaks_of_blank {cs rest : List Char} (h : Blank cs) (hne : cs ≠ []) :
    Breaks (cs ++ rest) := by
  obtain ⟨c, r, rfl⟩ := List.exists_cons_of_ne_nil hne
  exact .inr ⟨c, r ++ rest, rfl, h c List.mem_cons_self⟩

theorem Blank.reverse {cs : List Char} (h : Blank cs) : Blank cs.reverse :=
  fun c hc => h c (List.mem_reverse.mp hc)

/-! ### Words -/

theorem wordsFrom_solid_append {word : List Char} (h : Solid word) (acc rest : List Char) :
    wordsFrom acc (word ++ rest) = wordsFrom (word.reverse ++ acc) rest := by
  induction word generalizing acc with
  | nil => rfl
  | cons c word ih =>
    have hc : ¬ isBlank c = true := by simp [h c List.mem_cons_self]
    have hword : Solid word := fun d hd => h d (List.mem_cons_of_mem c hd)
    rw [List.cons_append, wordsFrom, if_neg hc, ih hword, List.reverse_cons, List.append_assoc,
      List.singleton_append]

theorem words_blank_append {front : List Char} (h : Blank front) (cs : List Char) :
    words (front ++ cs) = words cs := by
  induction front with
  | nil => rfl
  | cons c front ih =>
    have hfront : Blank front := fun d hd => h d (List.mem_cons_of_mem c hd)
    rw [List.cons_append, words, wordsFrom, if_pos (h c List.mem_cons_self)]
    exact ih hfront

/-- A word comes off the front. -/
theorem words_word_append {word rest : List Char} (hword : Solid word) (hne : word ≠ [])
    (hrest : Breaks rest) : words (word ++ rest) = word :: words rest := by
  have hacc : ¬ word.reverse.isEmpty = true := by simpa using hne
  rw [words, wordsFrom_solid_append hword, List.append_nil]
  rcases hrest with rfl | ⟨c, r, rfl, hc⟩
  · rw [wordsFrom, if_neg hacc, List.reverse_reverse]
    rfl
  · rw [wordsFrom, if_pos hc, if_neg hacc, List.reverse_reverse, words, wordsFrom, if_pos hc]
    rfl

theorem wordsFrom_append_blank {back : List Char} (h : Blank back) (acc cs : List Char) :
    wordsFrom acc (cs ++ back) = wordsFrom acc cs := by
  induction cs generalizing acc with
  | nil =>
    cases back with
    | nil => rfl
    | cons c back =>
      have hback : Blank back := fun d hd => h d (List.mem_cons_of_mem c hd)
      have hrest : wordsFrom [] back = [] := by
        rw [← List.append_nil back]
        exact words_blank_append hback []
      have hc : isBlank c = true := h c List.mem_cons_self
      simp only [List.nil_append, wordsFrom, if_pos hc, hrest]
  | cons c cs ih => simp only [List.cons_append, wordsFrom, ih]

/-! ### Trimming -/

/-- Blanks are all that is trimmed. -/
theorem exists_trim (cs : List Char) :
    ∃ front back, Blank front ∧ Blank back ∧ cs = front ++ trim cs ++ back := by
  refine ⟨cs.takeWhile isBlank, ((cs.dropWhile isBlank).reverse.takeWhile isBlank).reverse,
    ?_, ?_, ?_⟩
  · exact fun c hc => List.mem_takeWhile_imp hc
  · exact Blank.reverse fun c hc => List.mem_takeWhile_imp hc
  · rw [trim, List.append_assoc, ← List.reverse_append, List.takeWhile_append_dropWhile,
      List.reverse_reverse, List.takeWhile_append_dropWhile]

/-- A trimmed text has the same words. -/
theorem words_trim (cs : List Char) : words (trim cs) = words cs := by
  obtain ⟨front, back, hfront, hback, hcs⟩ := exists_trim cs
  rw [List.append_assoc] at hcs
  calc words (trim cs)
      = words (trim cs ++ back) := (wordsFrom_append_blank hback [] _).symm
    _ = words (front ++ (trim cs ++ back)) := (words_blank_append hfront _).symm
    _ = words cs := by rw [← hcs]

theorem trim_blank_append {front : List Char} (h : Blank front) (cs : List Char) :
    trim (front ++ cs) = trim cs := by
  rw [trim, List.dropWhile_append_of_pos h]
  rfl

theorem trim_append_blank {back : List Char} (h : Blank back) (cs : List Char) :
    trim (cs ++ back) = trim cs := by
  unfold trim
  rw [List.dropWhile_append]
  split
  · rename_i hnil
    have hback : back.dropWhile isBlank = [] := List.dropWhile_eq_nil_iff.mpr h
    rw [hback, List.isEmpty_iff.mp hnil]
  · rw [List.reverse_append, List.dropWhile_append_of_pos h.reverse]

theorem trim_eq_nil_iff {cs : List Char} : trim cs = [] ↔ Blank cs := by
  constructor
  · intro htrim
    obtain ⟨front, back, hfront, hback, hcs⟩ := exists_trim cs
    rw [htrim, List.append_nil] at hcs
    rw [hcs]
    exact fun c hc => (List.mem_append.mp hc).elim (hfront c) (hback c)
  · intro hblank
    have htrim := trim_blank_append hblank []
    rwa [List.append_nil] at htrim

/-- A text that does not begin with a blank still begins as it did. -/
theorem trim_cons {c : Char} (h : isBlank c = false) (cs : List Char) :
    ∃ r, trim (c :: cs) = c :: r := by
  obtain ⟨front, back, hfront, hback, hcs⟩ := exists_trim (c :: cs)
  have hc : ¬ isBlank c = true := by simp [h]
  cases front with
  | cons d front =>
    obtain ⟨rfl, -⟩ := List.cons.inj hcs
    exact absurd (hfront c List.mem_cons_self) hc
  | nil =>
    rw [List.nil_append] at hcs
    cases htrim : trim (c :: cs) with
    | cons d r =>
      rw [htrim] at hcs
      obtain ⟨rfl, -⟩ := List.cons.inj hcs
      exact ⟨r, rfl⟩
    | nil =>
      rw [htrim, List.nil_append] at hcs
      exact absurd (hback c (hcs ▸ List.mem_cons_self)) hc

/-- A text without blanks is trimmed already. -/
theorem trim_of_solid {cs : List Char} (h : Solid cs) : trim cs = cs := by
  have hdrop : ∀ {ds : List Char}, Solid ds → ds.dropWhile isBlank = ds := by
    intro ds hds
    cases ds with
    | nil => rfl
    | cons d ds => exact List.dropWhile_cons_of_neg (by simp [hds d List.mem_cons_self])
  rw [trim, hdrop h, hdrop fun c hc => h c (List.mem_reverse.mp hc), List.reverse_reverse]

/-! ### Lines -/

/-- No line feed. -/
def OneLine (cs : List Char) : Prop :=
  '\n' ∉ cs

instance (cs : List Char) : Decidable (OneLine cs) :=
  inferInstanceAs (Decidable (¬ _))

/-- A line as `lines` gives it when a line feed ends it. -/
def closed (line : List Char) : List Char :=
  closeLine line.reverse

/-- Closing takes away at most a blank at the end. -/
theorem trim_closed (line : List Char) : trim (closed line) = trim line := by
  unfold closed closeLine
  split
  · rename_i acc hacc
    have hline : line = acc.reverse ++ ['\r'] := by
      rw [← List.reverse_reverse line, hacc, List.reverse_cons]
    have hblank : Blank ['\r'] := by decide
    rw [hline, trim_append_blank hblank]
  · rw [List.reverse_reverse]

theorem linesFrom_oneLine_append {line : List Char} (h : OneLine line) (acc rest : List Char) :
    linesFrom acc (line ++ rest) = linesFrom (line.reverse ++ acc) rest := by
  induction line generalizing acc with
  | nil => rfl
  | cons c line ih =>
    have hc : c ≠ '\n' := fun heq => h (heq ▸ List.mem_cons_self)
    have hline : OneLine line := fun hmem => h (List.mem_cons_of_mem c hmem)
    rw [List.cons_append, linesFrom, if_neg hc, ih hline, List.reverse_cons, List.append_assoc,
      List.singleton_append]

/-- A line feed ends a line. -/
theorem lines_cons {line : List Char} (h : OneLine line) (rest : List Char) :
    lines (line ++ '\n' :: rest) = closed line :: lines rest := by
  rw [lines, linesFrom_oneLine_append h, List.append_nil, linesFrom, if_pos rfl]
  rfl

/-- The end of the text ends a line that is not empty. -/
theorem lines_last {line : List Char} (h : OneLine line) (hne : line ≠ []) :
    lines line = [line] := by
  have hacc : ¬ line.reverse.isEmpty = true := by simpa using hne
  have hlast := linesFrom_oneLine_append h [] []
  rw [List.append_nil, List.append_nil, linesFrom, if_neg hacc, List.reverse_reverse] at hlast
  exact hlast

/-- Lines, each ended by a line feed, come off the front. -/
theorem lines_append {front : List (List Char)} (h : ∀ line ∈ front, OneLine line)
    (rest : List Char) :
    lines (front.flatMap (· ++ ['\n']) ++ rest) = front.map closed ++ lines rest := by
  induction front with
  | nil => rfl
  | cons line front ih =>
    have hfront : ∀ other ∈ front, OneLine other :=
      fun other hmem => h other (List.mem_cons_of_mem line hmem)
    rw [List.flatMap_cons, List.append_assoc, List.append_assoc, List.singleton_append,
      lines_cons (h line List.mem_cons_self), ih hfront]
    rfl

end Text

end Sysop
