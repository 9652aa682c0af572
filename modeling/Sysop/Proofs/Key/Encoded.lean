/-
Sysop/Proofs/Key/Encoded.lean

Keys and base64 texts, one to one.

The base64 text of bytes gives the key of these bytes, with any blanks around it
(`ofBase64_between`).  In the other direction a text that gives a key is, once trimmed, the
text that its bytes are written as, so it has no blank inside and no group that is short
(`solid_encodeText`, `length_encodeText_mod`).  Every other text is refused, and always with a
reason (`exists_reason_of_ofBase64`).  Which text is the written form of bytes is known
without the writer (`Base64.written_iff`).

Main result: `ofBase64_inverts_encodeText`.
-/
import Sysop.Proofs.Base64.Digits
import Sysop.Proofs.Key.Line

namespace Sysop

/-! ### The written form -/

namespace Base64

/-- Padding fills up the last group. -/
theorem length_encodeText_mod (bs : Bytes) : (encodeText bs).toList.length % 4 = 0 := by
  rw [encodeText, String.toList_ofList, List.length_map]
  exact length_encode_mod bs

end Base64

namespace AllowedKey

open Text (Blank Solid)

variable {bs : Bytes} {cs front back : List Char} {key : AllowedKey} {fault : ConfigFault}

/-! ### Reading what was written -/

/-- Only the trimmed text is read. -/
theorem ofBase64_congr {other : List Char} (h : Text.trim cs = Text.trim other) :
    ofBase64 cs = ofBase64 other := by
  simp only [ofBase64, h]

/-- Blanks around a base64 text do not matter. -/
theorem ofBase64_between (hfront : Blank front) (hback : Blank back) (bs : Bytes) :
    ofBase64 (front ++ (Base64.encodeText bs).toList ++ back) = ofBytes bs := by
  have htrim : Text.trim (front ++ (Base64.encodeText bs).toList ++ back)
      = Text.trim (Base64.encodeText bs).toList := by
    rw [Text.trim_append_blank hback, Text.trim_blank_append hfront]
  calc ofBase64 (front ++ (Base64.encodeText bs).toList ++ back)
      = ofBase64 (Base64.encodeText bs).toList := ofBase64_congr htrim
    _ = ofBytes bs := ofBase64_encodeText bs

/-! ### Refusals -/

theorem exists_reason_of_ofBytes (h : ofBytes bs = .error fault) :
    ∃ reason, fault = .allowedKey reason := by
  unfold ofBytes at h
  split at h
  · cases h
  · exact ⟨_, (Except.error.inj h).symm⟩

theorem exists_reason_of_ofBase64 (h : ofBase64 cs = .error fault) :
    ∃ reason, fault = .allowedKey reason := by
  unfold ofBase64 at h
  split at h
  · exact exists_reason_of_ofBytes h
  · exact ⟨_, (Except.error.inj h).symm⟩

/-! ### Both directions -/

/-- **Keys and base64 texts go one to one, blanks around the text aside.**  The text of bytes
gives what the bytes give; a text that gives a key is the text of its bytes, so no other text
gives the same key, and none with a blank inside or with a short group gives any; and a text
that is not the text of a key is refused. -/
theorem ofBase64_inverts_encodeText (cs : List Char) :
    (∀ text bs, Base64.Written text bs ↔ text = (Base64.encodeText bs).toList) ∧
    (∀ front bs back, Blank front → Blank back →
      cs = front ++ (Base64.encodeText bs).toList ++ back → ofBase64 cs = ofBytes bs) ∧
    (∀ key, ofBase64 cs = .ok key → Text.trim cs = (Base64.encodeText key.bytes).toList ∧
      Solid (Text.trim cs) ∧ (Text.trim cs).length % 4 = 0) ∧
    (∀ other key, ofBase64 cs = .ok key → ofBase64 other = .ok key →
      Text.trim cs = Text.trim other) ∧
    ((∀ bs key, ofBytes bs = .ok key → Text.trim cs ≠ (Base64.encodeText bs).toList) →
      ∃ reason, ofBase64 cs = .error (.allowedKey reason)) := by
  refine ⟨fun _ _ => Base64.written_iff, ?_, fun key h => ?_, fun other key h hother => ?_,
    fun hno => ?_⟩
  · rintro front bs back hfront hback rfl
    exact ofBase64_between hfront hback bs
  · have htrim := ofBase64_eq_ok_iff.mp h
    rw [htrim]
    exact ⟨rfl, Base64.solid_encodeText _, Base64.length_encodeText_mod _⟩
  · rw [ofBase64_eq_ok_iff.mp h, ofBase64_eq_ok_iff.mp hother]
  · cases hread : ofBase64 cs with
    | ok key => exact absurd (ofBase64_eq_ok_iff.mp hread) (hno _ key (ofBytes_eq_ok_iff.mpr rfl))
    | error fault =>
      obtain ⟨reason, rfl⟩ := exists_reason_of_ofBase64 hread
      exact ⟨reason, rfl⟩

/-- The text of a key gives the key, and without its padding it gives none. -/
example : ofBase64 " AAAAB3NzaC1yc2E=\n".toList = .ok
      ⟨[0, 0, 0, 7, 0x73, 0x73, 0x68, 0x2D, 0x72, 0x73, 0x61], "ssh-rsa", by decide⟩ ∧
    ofBase64 "AAAAB3NzaC1yc2E".toList = .error (.allowedKey "Invalid padding") := by
  decide +kernel

end AllowedKey

end Sysop
