/-
Sysop/Proofs/Text/Words.lean

Which words a text is cut into, as a relation.

`Cut cs ws` says that `cs` is the words `ws` in their order, each without a blank in it, with
blanks between any two of them and with whatever blanks at the two ends.  `words` computes
the relation (`cut_iff`), so a text has one list of words, while a list of words has many
texts.
-/
import Sysop.Proofs.Text.Blank

namespace Sysop

namespace Text

theorem blank_nil : Blank [] := by
  simp [Blank]

theorem solid_nil : Solid [] := by
  simp [Solid]

/-- The text is these words, set apart by blanks. -/
inductive Cut : List Char → List (List Char) → Prop
  /-- What is left is blank. -/
  | done {cs : List Char} : Blank cs → Cut cs []
  /-- A word behind blanks, up to the next blank or the end. -/
  | word {indent word rest : List Char} {ws : List (List Char)} :
      Blank indent → Solid word → word ≠ [] → Breaks rest → Cut rest ws →
      Cut (indent ++ (word ++ rest)) (word :: ws)

namespace Cut

variable {cs word : List Char} {ws : List (List Char)}

theorem blank_append {front : List Char} (hfront : Blank front) (h : Cut cs ws) :
    Cut (front ++ cs) ws := by
  have happend : ∀ {more : List Char}, Blank more → Blank (front ++ more) :=
    fun hmore c hc => (List.mem_append.mp hc).elim (hfront c) (hmore c)
  cases h with
  | done hblank => exact .done (happend hblank)
  | word hindent hsolid hne hbreaks hrest =>
    rw [← List.append_assoc]
    exact .word (happend hindent) hsolid hne hbreaks hrest

theorem words_eq (h : Cut cs ws) : words cs = ws := by
  induction h with
  | done hblank =>
    have hwords := words_blank_append hblank []
    rwa [List.append_nil] at hwords
  | word hindent hsolid hne hbreaks _ ih =>
    rw [words_blank_append hindent, words_word_append hsolid hne hbreaks, ih]

/-- A word that ends here, as the scan keeps it: its characters in reverse. -/
theorem reverse_append {acc : List Char} (hacc : Solid acc) (hne : ¬ acc.isEmpty = true)
    (hbreaks : Breaks cs) (h : Cut cs ws) : Cut (acc.reverse ++ cs) (acc.reverse :: ws) := by
  have hsolid : Solid acc.reverse := fun c hc => hacc c (List.mem_reverse.mp hc)
  rw [← List.nil_append (acc.reverse ++ cs)]
  exact .word blank_nil hsolid (by simpa using hne) hbreaks h

/-- The scan cuts what it has kept of the current word together with what it has not seen. -/
theorem wordsFrom_reverse {acc : List Char} (hacc : Solid acc) :
    Cut (acc.reverse ++ cs) (wordsFrom acc cs) := by
  induction cs generalizing acc with
  | nil =>
    have hnil : Cut [] [] := .done blank_nil
    rw [wordsFrom]
    split
    · rename_i hempty
      rw [List.isEmpty_iff.mp hempty]
      exact hnil
    · rename_i hempty
      exact reverse_append hacc hempty (.inl rfl) hnil
  | cons c r ih =>
    rw [wordsFrom]
    split
    · rename_i hc
      have hblank : Blank [c] := fun d hd => by rwa [List.mem_singleton.mp hd]
      have hrest : Cut (c :: r) (wordsFrom [] r) := blank_append hblank (ih solid_nil)
      split
      · rename_i hempty
        rw [List.isEmpty_iff.mp hempty]
        exact hrest
      · rename_i hempty
        exact reverse_append hacc hempty (.inr ⟨c, r, rfl, hc⟩) hrest
    · rename_i hc
      have hsolid : Solid (c :: acc) := by
        intro d hd
        rcases List.mem_cons.mp hd with rfl | hd
        · simpa using hc
        · exact hacc d hd
      have hrest := ih hsolid
      rwa [List.reverse_cons, List.append_assoc, List.singleton_append] at hrest

/-- A word has something in it, and no blank. -/
theorem word_of_mem (h : Cut cs ws) (hmem : word ∈ ws) : Solid word ∧ word ≠ [] := by
  induction h with
  | done => cases hmem
  | word _ hsolid hne _ _ ih =>
    rcases List.mem_cons.mp hmem with rfl | hmem
    · exact ⟨hsolid, hne⟩
    · exact ih hmem

end Cut

theorem cut_words (cs : List Char) : Cut cs (words cs) :=
  Cut.wordsFrom_reverse solid_nil

/-- The words of a text are those it is cut into. -/
theorem cut_iff {cs : List Char} {ws : List (List Char)} : Cut cs ws ↔ words cs = ws :=
  ⟨Cut.words_eq, fun h => h ▸ cut_words cs⟩

end Text

end Sysop
