/-
Sysop/Proofs/Key/Line.lean

Which lines give a key, and which key it is.

* The bytes of a key begin with its name as a string, and nothing else is asked of them
  (`readAlgorithm?_eq_some_iff`).
* A base64 text gives the key of the bytes that it is the written form of
  (`ofBase64_eq_ok_iff`).
* A line gives the key of its second word, if the first word is the name of this key
  (`ofLine_eq_ok_iff`); the other words are not looked at (`ofLine_congr`).

Each of these goes both ways, so the lines that give a key are known from their words alone
(`KeyLine`).  Main result: `line_gives_key_iff`.
-/
import Sysop.Proofs.Base64.Canonical
import Sysop.Proofs.Key.File
import Sysop.Proofs.Text.Valid
import Sysop.Proofs.Text.Words

namespace Sysop

/-! ### Strings on the wire -/

namespace Wire

variable {bs front rest : Bytes}

theorem take?_eq_some_iff {n : Nat} :
    take? n bs = some (front, rest) ↔ bs = front ++ rest ∧ front.length = n := by
  unfold take?
  constructor
  · intro h
    split at h
    · rename_i hlen
      obtain ⟨rfl, rfl⟩ := Prod.mk.inj (Option.some.inj h)
      exact ⟨(List.take_append_drop n bs).symm, List.length_take_of_le hlen⟩
    · cases h
  · rintro ⟨rfl, rfl⟩
    rw [if_pos (by simp), List.take_left, List.drop_left]

/-- What is read as a string is its written form, behind which the rest comes. -/
theorem readString?_eq_some_iff :
    readString? bs = some (front, rest) ↔
      bs = string front ++ rest ∧ front.length < 0x100000000 := by
  constructor
  · intro h
    obtain ⟨⟨n, r⟩, hnumber, htake⟩ := Option.bind_eq_some_iff.mp h
    obtain ⟨rfl, hn⟩ := eq_append_of_readNumber? hnumber
    obtain ⟨rfl, rfl⟩ := take?_eq_some_iff.mp htake
    exact ⟨(List.append_assoc _ _ _).symm, hn⟩
  · rintro ⟨rfl, hlen⟩
    exact readString?_string hlen rest

end Wire

namespace AllowedKey

open Text (Solid Cut)

variable {bs : Bytes} {name : String} {line other data : List Char} {key : AllowedKey}

/-! ### Names in bytes -/

/-- The bytes begin with a name: the count of its bytes in four bytes, then its bytes. -/
def BeginsWithName (bs : Bytes) (name : String) : Prop :=
  (Utf8.encode name).length < 0x100000000 ∧
    ∃ parts, bs = Wire.string (Utf8.encode name) ++ parts

/-- The name of a key is not empty; any other name in front of bytes is read. -/
theorem readAlgorithm?_eq_some_iff :
    readAlgorithm? bs = some name ↔ name ≠ "" ∧ BeginsWithName bs name := by
  constructor
  · intro h
    unfold readAlgorithm? at h
    split at h
    · cases h
    · rename_i front parts hstring
      obtain ⟨hbs, hlen⟩ := Wire.readString?_eq_some_iff.mp hstring
      split at h
      · cases h
      · rename_i hne
        obtain rfl := Utf8.decode?_eq_some_iff.mp h
        exact ⟨fun hempty => hne (hempty ▸ rfl), hlen, parts, hbs⟩
  · rintro ⟨hne, hlen, parts, rfl⟩
    exact readAlgorithm?_string hne hlen parts

theorem ofBytes_eq_ok_iff : ofBytes bs = .ok key ↔ bs = key.bytes := by
  constructor
  · exact fun h => (bytes_of_ofBytes h).symm
  · rintro rfl
    exact ofBytes_of_named key.named

/-- A base64 text gives the key that it is the written form of, blanks around it aside. -/
theorem ofBase64_eq_ok_iff :
    ofBase64 data = .ok key ↔ Text.trim data = (Base64.encodeText key.bytes).toList := by
  constructor
  · intro h
    unfold ofBase64 at h
    split at h
    · rename_i bs hdecode
      obtain rfl := ofBytes_eq_ok_iff.mp h
      -- the text is known from its bytes, and these are the written form of the key
      rw [Base64.decode_eq_ok_iff, ← Base64.encode_encodeText] at hdecode
      rw [← Utf8.encode_injective hdecode, String.toList_ofList]
    · cases h
  · intro h
    rw [ofBase64, h, String.ofList_toList, Base64.decode_encodeText]
    exact ofBytes_eq_ok_iff.mpr rfl

/-! ### Lines -/

/-- The line of a key: its name, the base64 text of its bytes, and any words after them; and
the bytes begin with the name. -/
structure KeyLine (line : List Char) (name : String) (bs : Bytes) : Prop where
  cut : ∃ more, Cut line (name.toList :: (Base64.encodeText bs).toList :: more)
  named : BeginsWithName bs name

/-- A word of a line is a base64 text as it stands. -/
theorem ofBase64_word {ws : List (List Char)} (hcut : Cut line ws) (hdata : data ∈ ws) :
    ofBase64 data = .ok key ↔ data = (Base64.encodeText key.bytes).toList := by
  rw [ofBase64_eq_ok_iff, Text.trim_of_solid (hcut.word_of_mem hdata).1]

theorem ofLine_eq_ok_iff : ofLine line = .ok key ↔ KeyLine line key.algorithm key.bytes := by
  constructor
  · intro h
    have hcut := Text.cut_words line
    unfold ofLine at h
    split at h
    · cases h
    · cases h
    · rename_i declared data more hwords
      rw [hwords] at hcut
      split at h
      · cases h
      · rename_i found hfound
        split at h
        · rename_i hname
          obtain rfl := Except.ok.inj h
          have hdata := (ofBase64_word hcut (by simp)).mp hfound
          have hdeclared : declared = found.algorithm.toList := by
            rw [hname, String.toList_ofList]
          rw [hdata, hdeclared] at hcut
          exact ⟨⟨more, hcut⟩, (readAlgorithm?_eq_some_iff.mp found.named).2⟩
        · cases h
  · rintro ⟨⟨more, hcut⟩, -⟩
    have hdata : ofBase64 (Base64.encodeText key.bytes).toList = .ok key :=
      (ofBase64_word hcut (by simp)).mpr rfl
    rw [ofLine, hcut.words_eq]
    simp only [hdata, String.ofList_toList, if_pos]

/-- Only the first two words of a line are looked at. -/
theorem ofLine_congr (h : (Text.words line).take 2 = (Text.words other).take 2) :
    ofLine line = ofLine other := by
  unfold ofLine
  generalize Text.words line = ws at h
  generalize Text.words other = vs at h
  -- words beyond the second are in neither result
  match ws, vs with
  | [], [] => rfl
  | [_], [_] =>
    obtain rfl := List.singleton_inj.mp h
    rfl
  | _ :: _ :: _, _ :: _ :: _ =>
    simp only [List.take_succ_cons, List.take_zero, List.cons.injEq, and_true] at h
    obtain ⟨rfl, rfl⟩ := h
    rfl
  | [], _ :: _ | _ :: _, [] | [_], _ :: _ :: _ | _ :: _ :: _, [_] => simp at h

/-- A name with a blank in it is on no line, so its bytes are on no line. -/
theorem bytes_ne_of_ofLine (hname : BeginsWithName bs name) (hblank : ¬ Solid name.toList)
    (h : ofLine line = .ok key) : key.bytes ≠ bs := by
  rintro rfl
  have hne : name ≠ "" := by
    rintro rfl
    exact hblank Text.solid_nil
  -- bytes begin with one name only, so a key with these bytes has the name
  have hread : readAlgorithm? key.bytes = some name :=
    readAlgorithm?_eq_some_iff.mpr ⟨hne, hname⟩
  obtain rfl := Option.some.inj (hread.symm.trans key.named)
  obtain ⟨more, hcut⟩ := (ofLine_eq_ok_iff.mp h).cut
  exact hblank (hcut.word_of_mem List.mem_cons_self).1

/-- **A line gives a key exactly if it is the line of this key.**  Its words are the name and
the base64 text in their one written form, and the bytes begin with the name.  So lines whose
first two words are the same give the same result, whatever blanks stand between them and
whatever words follow, and bytes whose name has a blank in it come from no line. -/
theorem line_gives_key_iff (line : List Char) :
    (∀ name bs, (∃ key, ofLine line = .ok key ∧ key.algorithm = name ∧ key.bytes = bs) ↔
      KeyLine line name bs) ∧
    (∀ other ws vs, Cut line ws → Cut other vs → ws.take 2 = vs.take 2 →
      ofLine line = ofLine other) ∧
    ∀ name bs, BeginsWithName bs name → ¬ Solid name.toList →
      ∀ key, ofLine line = .ok key → key.bytes ≠ bs := by
  refine ⟨fun name bs => ⟨?_, fun hline => ?_⟩, fun other ws vs hline hother h => ?_,
    fun name bs hname hblank key => bytes_ne_of_ofLine hname hblank⟩
  · rintro ⟨key, h, rfl, rfl⟩
    exact ofLine_eq_ok_iff.mp h
  · obtain ⟨more, hcut⟩ := hline.cut
    have hne : name ≠ "" := by
      rintro rfl
      exact (hcut.word_of_mem List.mem_cons_self).2 rfl
    have hread : readAlgorithm? bs = some name :=
      readAlgorithm?_eq_some_iff.mpr ⟨hne, hline.named⟩
    exact ⟨⟨bs, name, hread⟩, ofLine_eq_ok_iff.mpr hline, rfl, rfl⟩
  · obtain rfl := Text.cut_iff.mp hline
    obtain rfl := Text.cut_iff.mp hother
    exact ofLine_congr h

/-- Bits that no byte takes have to be zero: the text that ends in `h` is not the one that is
written. -/
example : ofLine "x AAAAAXh=".toList =
    .error (.allowedKey "Invalid last symbol 104, offset 6.") := by
  decide +kernel

end AllowedKey

end Sysop
