/-
Sysop/Proofs/Key/Selection.lean

Which line of a key file counts.

A line ends with a line feed, with or without a carriage return in front of it, or with the
text.  Blank lines and comments are notes.  A text is one of two things, and no text is
neither (`comesFirst_or_onlyNotes`):

* notes, then a line that is no note, then nothing or a line end and any text.  The key is
  that of this line, and so is the fault if it gives none (`ofText_of_comesFirst`).
* notes alone.  There is no key (`ofText_of_onlyNotes`).

Main result: `ofFile_reads_first_line`; `ofFile_eq_ok_iff` says which files give a key.
-/
import Sysop.Proofs.Key.File
import Sysop.Proofs.Text.Valid

namespace Sysop

namespace AllowedKey

open Text (Blank OneLine)

variable {line back cs : List Char} {files : Files} {path : String} {key : AllowedKey}

/-! ### Notes -/

theorem passedOver_iff : PassedOver line ↔ holdsKey line = false := by
  refine ⟨holdsKey_of_passedOver, fun h => ?_⟩
  obtain ⟨front, back, hfront, -, hline⟩ := Text.exists_trim line
  unfold holdsKey at h
  split at h
  · rename_i htrim
    exact .inl (Text.trim_eq_nil_iff.mp htrim)
  · rename_i c r htrim
    obtain rfl : c = '#' := by simpa using h
    rw [htrim, List.append_assoc] at hline
    exact .inr ⟨front, r ++ back, hline, hfront⟩

/-- Blanks behind a line do not make it a note. -/
theorem passedOver_append_iff (hback : Blank back) :
    PassedOver (line ++ back) ↔ PassedOver line := by
  rw [passedOver_iff, passedOver_iff, holdsKey, holdsKey, Text.trim_append_blank hback]

theorem ofLine_append (hback : Blank back) : ofLine (line ++ back) = ofLine line := by
  rw [← ofLine_trim (line ++ back), Text.trim_append_blank hback, ofLine_trim]

/-! ### Line ends -/

/-- What ends a line. -/
inductive LineEnd
  | lf
  | crlf
  deriving DecidableEq, Repr

/-- The characters of a line end. -/
def LineEnd.text : LineEnd → List Char
  | .lf => ['\n']
  | .crlf => ['\r', '\n']

/-- The characters of a line end in front of its line feed. -/
def LineEnd.carriage : LineEnd → List Char
  | .lf => []
  | .crlf => ['\r']

theorem LineEnd.text_eq (e : LineEnd) : e.text = e.carriage ++ ['\n'] := by
  cases e <;> rfl

theorem LineEnd.blank_carriage (e : LineEnd) : Blank e.carriage := by
  cases e <;> decide

theorem LineEnd.oneLine_carriage (e : LineEnd) : OneLine e.carriage := by
  cases e <;> decide

/-- A line and what ends it. -/
structure EndedLine where
  line : List Char
  ending : LineEnd
  deriving DecidableEq, Repr

/-- A whole line that is passed over. -/
structure EndedLine.IsNote (l : EndedLine) : Prop where
  oneLine : OneLine l.line
  passedOver : PassedOver l.line

/-- The line with all that comes in front of its line feed. -/
def EndedLine.kept (l : EndedLine) : List Char :=
  l.line ++ l.ending.carriage

/-- The text of lines. -/
def textOf (ls : List EndedLine) : List Char :=
  ls.flatMap fun l => l.line ++ l.ending.text

theorem textOf_cons_append (l : EndedLine) (ls : List EndedLine) (rest : List Char) :
    textOf (l :: ls) ++ rest = l.line ++ l.ending.text ++ (textOf ls ++ rest) :=
  List.append_assoc _ _ _

theorem textOf_eq (ls : List EndedLine) :
    textOf ls = (ls.map EndedLine.kept).flatMap (· ++ ['\n']) := by
  rw [textOf, List.flatMap_map]
  refine List.flatMap_congr fun l _ => ?_
  rw [EndedLine.kept, List.append_assoc, LineEnd.text_eq]

theorem oneLine_append {more : List Char} (h : OneLine line) (hmore : OneLine more) :
    OneLine (line ++ more) :=
  fun hmem => (List.mem_append.mp hmem).elim h hmore

theorem EndedLine.IsNote.kept {l : EndedLine} (h : l.IsNote) :
    OneLine l.kept ∧ PassedOver l.kept :=
  ⟨oneLine_append h.oneLine l.ending.oneLine_carriage,
    (passedOver_append_iff l.ending.blank_carriage).mpr h.passedOver⟩

/-! ### The two kinds of texts -/

/-- Nothing follows a line, or a line end and any text. -/
def Continues (rest : List Char) : Prop :=
  rest = [] ∨ ∃ (e : LineEnd) (more : List Char), rest = e.text ++ more

/-- What comes in front of the line feed is blank, if there is a line feed. -/
theorem Continues.exists_blank {rest : List Char} (h : Continues rest) :
    ∃ back more, rest = back ++ more ∧ Blank back ∧ OneLine back ∧
      (more = [] ∨ ∃ more', more = '\n' :: more') := by
  rcases h with rfl | ⟨e, more, rfl⟩
  · exact ⟨[], [], rfl, by simp [Blank], by simp [OneLine], .inl rfl⟩
  · refine ⟨e.carriage, '\n' :: more, ?_, e.blank_carriage, e.oneLine_carriage, .inr ⟨more, rfl⟩⟩
    rw [LineEnd.text_eq, List.append_assoc, List.singleton_append]

/-- The line is the first of the text that is no note. -/
structure ComesFirst (line text : List Char) : Prop where
  oneLine : OneLine line
  counts : ¬ PassedOver line
  exists_parts : ∃ notes rest, text = textOf notes ++ (line ++ rest) ∧
    (∀ l ∈ notes, l.IsNote) ∧ Continues rest

/-- The text has no line but notes, the last of which may have no end. -/
def OnlyNotes (text : List Char) : Prop :=
  ∃ notes last, text = textOf notes ++ last ∧ (∀ l ∈ notes, l.IsNote) ∧
    OneLine last ∧ PassedOver last

theorem ComesFirst.note {l : EndedLine} (hl : l.IsNote) (h : ComesFirst line cs) :
    ComesFirst line (l.line ++ l.ending.text ++ cs) := by
  obtain ⟨notes, rest, rfl, hnotes, hrest⟩ := h.exists_parts
  exact ⟨h.oneLine, h.counts, l :: notes, rest, (textOf_cons_append l notes _).symm,
    List.forall_mem_cons.mpr ⟨hl, hnotes⟩, hrest⟩

theorem OnlyNotes.note {l : EndedLine} (hl : l.IsNote) (h : OnlyNotes cs) :
    OnlyNotes (l.line ++ l.ending.text ++ cs) := by
  obtain ⟨notes, last, rfl, hnotes, hlast⟩ := h
  exact ⟨l :: notes, last, (textOf_cons_append l notes last).symm,
    List.forall_mem_cons.mpr ⟨hl, hnotes⟩, hlast⟩

/-- The same for a text whose first line has begun with `acc`. -/
theorem comesFirst_or_onlyNotes_append {acc : List Char} (hacc : OneLine acc)
    (text : List Char) :
    (∃ line, ComesFirst line (acc ++ text)) ∨ OnlyNotes (acc ++ text) := by
  induction text generalizing acc with
  | nil =>
    rw [List.append_nil]
    by_cases hnote : PassedOver acc
    · exact .inr ⟨[], acc, rfl, by simp, hacc, hnote⟩
    · refine .inl ⟨acc, hacc, hnote, [], [], ?_, by simp, .inl rfl⟩
      rw [List.append_nil]
      rfl
  | cons c r ih =>
    by_cases hc : c = '\n'
    · subst hc
      by_cases hnote : PassedOver acc
      · -- the line is a note, and the rest of the text begins a new one
        have hl : EndedLine.IsNote ⟨acc, .lf⟩ := ⟨hacc, hnote⟩
        have htext : acc ++ '\n' :: r = acc ++ LineEnd.lf.text ++ ([] ++ r) := by
          simp [LineEnd.text]
        rw [htext]
        have hnext : OneLine ([] : List Char) := List.not_mem_nil
        rcases ih hnext with ⟨line, hfirst⟩ | hnotes
        · exact .inl ⟨line, hfirst.note hl⟩
        · exact .inr (hnotes.note hl)
      · exact .inl ⟨acc, hacc, hnote, [], '\n' :: r, rfl, by simp, .inr ⟨.lf, r, rfl⟩⟩
    · have hlonger : OneLine (acc ++ [c]) :=
        oneLine_append hacc fun hmem => hc (List.mem_singleton.mp hmem).symm
      rw [← List.singleton_append, ← List.append_assoc]
      exact ih hlonger

/-- Every text is of one of the two kinds. -/
theorem comesFirst_or_onlyNotes (text : List Char) :
    (∃ line, ComesFirst line text) ∨ OnlyNotes text := by
  have hstart : OneLine ([] : List Char) := List.not_mem_nil
  exact comesFirst_or_onlyNotes_append hstart text

/-! ### The key of a text -/

/-- The parts of a text as those of a key file. -/
theorem ComesFirst.exists_keyFile (h : ComesFirst line cs) :
    ∃ (f : KeyFile) (back : List Char), Blank back ∧ f.line = line ++ back ∧ f.text = cs := by
  obtain ⟨honeLine, -, notes, rest, hparts, hnotes, hrest⟩ := h
  obtain ⟨back, more, rfl, hblank, hback, hmore⟩ := hrest.exists_blank
  refine ⟨{
    front := notes.map EndedLine.kept
    line := line ++ back
    rest := more
    passedOver := List.forall_mem_map.mpr fun l hl => (hnotes l hl).kept.2
    front_oneLine := List.forall_mem_map.mpr fun l hl => (hnotes l hl).kept.1
    line_oneLine := oneLine_append honeLine hback
    rest_ends := hmore }, back, hblank, rfl, ?_⟩
  rw [hparts, textOf_eq, ← List.append_assoc line]
  rfl

/-- The first line that is no note is the one that counts. -/
theorem ofText_of_comesFirst (path : String) (h : ComesFirst line cs) :
    ofText path cs = ofLine line := by
  obtain ⟨f, back, hback, hline, rfl⟩ := h.exists_keyFile
  have hholds : holdsKey f.line = true := by
    rw [hline, ← Bool.not_eq_false, ← passedOver_iff, passedOver_append_iff hback]
    exact h.counts
  rw [ofText_text path f hholds, hline, ofLine_append hback]

/-- Notes give no key. -/
theorem ofText_of_onlyNotes (path : String) (h : OnlyNotes cs) :
    ofText path cs = .error (.allowedKey ("no key found in " ++ path)) := by
  obtain ⟨notes, last, rfl, hnotes, hlast, hover⟩ := h
  have honeLine : ∀ other ∈ notes.map EndedLine.kept, OneLine other :=
    List.forall_mem_map.mpr fun l hl => (hnotes l hl).kept.1
  have hoverKept : ∀ other ∈ notes.map EndedLine.kept, PassedOver other :=
    List.forall_mem_map.mpr fun l hl => (hnotes l hl).kept.2
  have hlines : (Text.lines last).find? holdsKey = none := by
    by_cases hnil : last = []
    · rw [hnil]
      rfl
    · rw [Text.lines_last hlast hnil]
      exact List.find?_eq_none.mpr (by simp [holdsKey_of_passedOver hover])
  have hfind : (Text.lines (textOf notes ++ last)).find? holdsKey = none := by
    rw [textOf_eq, Text.lines_append honeLine, List.find?_append,
      find?_closed_of_passedOver hoverKept, hlines]
    rfl
  rw [ofText, hfind]

/-! ### The key of a file -/

theorem ofFile_of_text (h : files path = .ok (Utf8.encode (String.ofList cs))) :
    ofFile files path = ofText path cs := by
  rw [ofFile, Files.readText, h]
  simp only [Utf8.decode?_encode, String.toList_ofList]

theorem ofFile_of_error {fault : IoFault} (h : files path = .error fault) :
    ofFile files path = .error (.allowedKeyFile path fault) := by
  rw [ofFile, Files.readText, h]

/-- Bytes that are no text are not read, wherever the fault in them is. -/
theorem ofFile_of_not_utf8 {content : Bytes} (h : files path = .ok content)
    (hutf8 : ∀ s, content ≠ Utf8.encode s) :
    ofFile files path = .error (.allowedKeyFile path .notUtf8) := by
  have hdecode : Utf8.decode? content = none := by
    cases hread : Utf8.decode? content with
    | none => rfl
    | some s => exact absurd (Utf8.decode?_eq_some_iff.mp hread) (hutf8 s)
  rw [ofFile, Files.readText, h]
  simp only [hdecode]

/-- A file gives a key exactly if the first line that is no note does. -/
theorem ofFile_eq_ok_iff :
    ofFile files path = .ok key ↔ ∃ text line, files path = .ok (Utf8.encode (String.ofList text)) ∧
      ComesFirst line text ∧ ofLine line = .ok key := by
  constructor
  · intro h
    cases hfile : files path with
    | error fault =>
      rw [ofFile_of_error hfile] at h
      cases h
    | ok content =>
      by_cases hutf8 : ∃ s, content = Utf8.encode s
      · obtain ⟨s, rfl⟩ := hutf8
        rw [← String.ofList_toList (s := s)] at hfile
        rw [ofFile_of_text hfile] at h
        rcases comesFirst_or_onlyNotes s.toList with ⟨line, hfirst⟩ | hnotes
        · rw [ofText_of_comesFirst path hfirst] at h
          exact ⟨s.toList, line, by rw [String.ofList_toList], hfirst, h⟩
        · rw [ofText_of_onlyNotes path hnotes] at h
          cases h
      · rw [ofFile_of_not_utf8 hfile (not_exists.mp hutf8)] at h
        cases h
  · rintro ⟨text, line, hfile, hfirst, hline⟩
    rw [ofFile_of_text hfile, ofText_of_comesFirst path hfirst, hline]

/-- **The first line that is no note decides.**  A file gives what this line gives, be it a key
or a fault, and nothing in front of it or behind it matters; every other text is notes alone
and gives no key; and a file that cannot be read, or is no text, is a fault of the file. -/
theorem ofFile_reads_first_line (files : Files) (path : String) :
    (∀ text line, files path = .ok (Utf8.encode (String.ofList text)) → ComesFirst line text →
      ofFile files path = ofLine line) ∧
    (∀ text, files path = .ok (Utf8.encode (String.ofList text)) → OnlyNotes text →
      ofFile files path = .error (.allowedKey ("no key found in " ++ path))) ∧
    (∀ text, (∃ line, ComesFirst line text) ∨ OnlyNotes text) ∧
    (∀ content, files path = .ok content → (∀ s, content ≠ Utf8.encode s) →
      ofFile files path = .error (.allowedKeyFile path .notUtf8)) ∧
    ∀ fault, files path = .error fault →
      ofFile files path = .error (.allowedKeyFile path fault) := by
  refine ⟨fun text line hfile hfirst => ?_, fun text hfile hnotes => ?_, comesFirst_or_onlyNotes,
    fun _ => ofFile_of_not_utf8, fun _ => ofFile_of_error⟩
  · rw [ofFile_of_text hfile, ofText_of_comesFirst path hfirst]
  · rw [ofFile_of_text hfile, ofText_of_onlyNotes path hnotes]

/-- A line without a key is not passed over for one that has a key. -/
example : ofText "keys" "\t# old\r\n\u00a0\n ssh-rsa\r\nx AAAAAXg=\n".toList =
    .error (.allowedKey "missing key data after 'ssh-rsa'") := by
  decide +kernel

end AllowedKey

end Sysop
