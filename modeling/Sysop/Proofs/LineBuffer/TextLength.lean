/-
Sysop/Proofs/LineBuffer/TextLength.lean

How long the texts of a buffer are, and what of its line a text keeps.

The limit counts the bytes that a text is read from (`text_of_perform`), not those that it is
written with.  What cannot be read becomes U+FFFD, of three bytes, so a text can have three times
as many bytes as the limit.  Even of a line that is valid UTF-8, a text keeps within the limit and
within the line only if the limit is inside no character of the line; else U+FFFD stands for that
character.

Main result: `keeps_limit_iff_not_cutsInside`.
-/
import Sysop.Proofs.LineBuffer.History
import Sysop.Proofs.Text.Cut

namespace Sysop

namespace LineBuffer

variable {b b' : LineBuffer} {act : Act} {text : String}

/-! ### The bytes of a text -/

/-- The bytes that have come for the line that a use asks for: those before the first end, or all
that are left. -/
def lineBytes (b : LineBuffer) : Act → Bytes
  | .take => b.pending
  | _ => b.pending.takeWhile isInner

/-- A text is read from the bytes of its line, as many as the limit allows. -/
theorem text_of_perform (h : (b.perform act).1 = some text) : text = b.cut (b.lineBytes act) := by
  cases act with
  | extend data => cases h
  | next =>
    rcases hnext : b.nextLine? with - | ⟨line, b'⟩
    · rw [perform_next_of_none hnext] at h
      cases h
    · rw [perform_next_of_some hnext] at h
      obtain rfl := Option.some.inj h
      exact text_of_nextLine? hnext
  | take => exact (Option.some.inj h).symm
  | clear => cases h

theorem lineBytes_begins_pending (b : LineBuffer) (act : Act) : b.lineBytes act <+: b.pending := by
  cases act with
  | take => exact List.prefix_rfl
  | _ => exact List.takeWhile_prefix isInner

/-! ### The limit -/

/-- After the history, the use gives the text. -/
def Tells (limit : Nat) (acts : List Act) (act : Act) (text : String) : Prop :=
  (((empty limit).after acts).perform act).1 = some text

variable {limit : Nat} {acts : List Act}

theorem Tells.eq_decodeLossy (h : Tells limit acts act text) :
    text = Utf8.decodeLossy ((((empty limit).after acts).lineBytes act).take limit) := by
  have htext := text_of_perform h
  rwa [cut, limit_after] at htext

/-- Bytes that can be read are as many as the text is written with. -/
theorem Tells.utf8ByteSize_le_of_valid (h : Tells limit acts act text)
    (hvalid : Utf8.Valid ((((empty limit).after acts).lineBytes act).take limit)) :
    text.utf8ByteSize ≤ limit := by
  obtain ⟨s, hs⟩ := Utf8.valid_iff.mp hvalid
  have hlength := congrArg List.length hs
  rw [List.length_take, Utf8.length_encode] at hlength
  rw [h.eq_decodeLossy, hs, Utf8.decodeLossy_encode]
  omega

theorem Tells.utf8ByteSize_le (h : Tells limit acts act text) : text.utf8ByteSize ≤ 3 * limit := by
  rw [h.eq_decodeLossy]
  refine (Utf8.utf8ByteSize_decodeLossy_le _).trans ?_
  rw [List.length_take]
  omega

/-- As many bytes as the limit, none of which can be read. -/
theorem tells_replicate (limit : Nat) :
    Tells limit [.extend (List.replicate limit 0xFF)] .next
      (Utf8.decodeLossy (List.replicate limit 0xFF)) := by
  have hinner : Inner (List.replicate limit 0xFF) := by
    intro c hc
    rw [List.eq_of_mem_replicate hc]
    decide
  have hextend : (empty limit).extend (List.replicate limit 0xFF) =
      { empty limit with pending := List.replicate limit 0xFF } :=
    extend_of_not_skip rfl _
  have hnext := nextLine?_of_full (b := { empty limit with pending := List.replicate limit 0xFF })
    hinner (by simp [empty])
  show (((empty limit).extend (List.replicate limit 0xFF)).perform .next).1 = _
  rw [hextend, perform_next_of_some hnext, cut, List.take_of_length_le (by simp [empty])]

/-- **What the limit bounds.**  After every history, a text is read from bytes of the input, at
most as many as the limit, and all of these are bytes of its line.  It has at most three times as
many bytes as the limit, and there is a text that has them, whatever the limit.  Of a line that is
valid UTF-8, it keeps within the limit and begins the line exactly if the limit is inside no
character of the line; otherwise it is what stands before that character, and U+FFFD. -/
theorem keeps_limit_iff_not_cutsInside (limit : Nat) :
    (∀ acts act text, Tells limit acts act text →
      ((empty limit).after acts).lineBytes act <:+: fed acts ∧
      text = Utf8.decodeLossy ((((empty limit).after acts).lineBytes act).take limit) ∧
      text.utf8ByteSize ≤ 3 * limit ∧
      (Utf8.Valid ((((empty limit).after acts).lineBytes act).take limit) →
        text.utf8ByteSize ≤ limit) ∧
      ∀ s, ((empty limit).after acts).lineBytes act = Utf8.encode s →
        ((text.utf8ByteSize ≤ limit ∧ text.toList <+: s.toList) ↔
          ¬ ∃ front c, Utf8.CutsInside limit s front c) ∧
        ∀ front c, Utf8.CutsInside limit s front c → text = front.push Utf8.replacement) ∧
    ∃ acts act text, Tells limit acts act text ∧ text.utf8ByteSize = 3 * limit := by
  constructor
  · intro acts act text htells
    refine ⟨?_, htells.eq_decodeLossy, htells.utf8ByteSize_le, htells.utf8ByteSize_le_of_valid, ?_⟩
    · exact (lineBytes_begins_pending _ act).isInfix.trans (pending_suffix_fed limit acts).isInfix
    · intro s hs
      have htext := htells.eq_decodeLossy
      rw [hs] at htext
      rw [htext]
      exact ⟨Utf8.within_iff, fun front c hcut => hcut.decodeLossy_take⟩
  · exact ⟨_, _, _, tells_replicate limit, Utf8.utf8ByteSize_decodeLossy_replicate limit⟩

/-- Four bytes of a line, the last of them the first half of a character. -/
def cutName : List Act :=
  [.extend [0x61, 0x62, 0x63, 0xC3, 0xA9, 0x0A]]

theorem tells_cutName : Tells 4 cutName .next "abc\uFFFD" := rfl

theorem lineBytes_cutName : ((empty 4).after cutName).lineBytes .next = Utf8.encode "abc\u00E9" := by
  decide

theorem cutName_is_cut :
    Utf8.CutsInside 4 "abc\u00E9" "abc" '\u00E9' ∧ "abc\uFFFD" = "abc".push Utf8.replacement := by
  have hcut : Utf8.CutsInside 4 "abc\u00E9" "abc" '\u00E9' :=
    ⟨List.prefix_rfl, by decide, by decide⟩
  exact ⟨hcut, (((keeps_limit_iff_not_cutsInside 4).1 cutName .next _ tells_cutName).2.2.2.2 _
    lineBytes_cutName).2 _ _ hcut⟩

/-- A text can have more bytes than the limit, and need not begin its line, even if the line is
valid UTF-8. -/
theorem not_forall_within_limit :
    (¬ ∀ limit acts act text, Tells limit acts act text → text.utf8ByteSize ≤ limit) ∧
      ¬ ∀ limit acts act text s, Tells limit acts act text →
        ((empty limit).after acts).lineBytes act = Utf8.encode s → text.toList <+: s.toList := by
  constructor
  · intro hall
    exact absurd (hall 4 cutName .next _ tells_cutName) (by decide)
  · intro hall
    exact absurd (hall 4 cutName .next _ _ tells_cutName lineBytes_cutName) (by decide)

end LineBuffer

end Sysop
