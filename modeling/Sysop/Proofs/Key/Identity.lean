/-
Sysop/Proofs/Key/Identity.lean

What an allowed key is: its bytes.

* Bytes are a key exactly if a name stands at their front: the count of its bytes in four
  bytes, then its bytes, which are a text and not empty (`exists_ofBytes_iff`).  For a given
  count this is a check of the bytes behind it (`exists_nameAtFront_be32_iff`).
* In whatever way a key is made, its bytes are those that its source shows and its algorithm
  is the name at the front of them (`exists_make_iff`).
* So the algorithm says nothing that the bytes do not say: keys are equal if their bytes are
  (`beq_iff`), and an offered key matches if its encoding makes the same key
  (`matches_iff_ofBytes`).

Main result: `allowedKeys_are_their_bytes`.
-/
import Sysop.Proofs.Key.Encoded
import Sysop.Proofs.Key.Selection

namespace Sysop

/-! ### Numbers on the wire -/

namespace Wire

/-- A number is known from its four bytes. -/
theorem be32_inj {m n : Nat} (hm : m < 0x100000000) (hn : n < 0x100000000)
    (h : be32 m = be32 n) : m = n := by
  have hread := readNumber?_be32 hm []
  rw [h, readNumber?_be32 hn] at hread
  exact (Prod.mk.inj (Option.some.inj hread)).1.symm

end Wire

namespace AllowedKey

variable {bs name rest : Bytes} {s : String} {key : AllowedKey} {q : PublicKey}

/-! ### Names at the front of bytes -/

/-- The bytes are the count of the bytes of a name, the name, and anything else. -/
structure NameAtFront (bs name rest : Bytes) : Prop where
  parts : bs = Wire.be32 name.length ++ name ++ rest
  /-- The count fits in four bytes. -/
  short : name.length < 0x100000000
  nonempty : 1 ≤ name.length
  utf8 : Utf8.Valid name

/-- The name that is read is the one at the front. -/
theorem exists_nameAtFront_encode_iff :
    (∃ rest, NameAtFront bs (Utf8.encode s) rest) ↔ readAlgorithm? bs = some s := by
  rw [readAlgorithm?_eq_some_iff]
  constructor
  · rintro ⟨rest, hparts, hshort, hnonempty, -⟩
    refine ⟨?_, hshort, rest, hparts⟩
    rintro rfl
    exact absurd hnonempty (by decide)
  · rintro ⟨hne, hshort, rest, hparts⟩
    exact ⟨rest, hparts, hshort, List.length_pos_iff.mpr (encode_ne_nil hne),
      Utf8.valid_iff.mpr ⟨s, rfl⟩⟩

/-- Bytes are a key exactly if a name stands at their front. -/
theorem exists_ofBytes_iff :
    (∃ key, ofBytes bs = .ok key) ↔ ∃ name rest, NameAtFront bs name rest := by
  constructor
  · rintro ⟨key, h⟩
    rw [ofBytes_eq_ok_iff.mp h]
    obtain ⟨rest, hfront⟩ := exists_nameAtFront_encode_iff.mpr key.named
    exact ⟨_, rest, hfront⟩
  · rintro ⟨name, rest, hfront⟩
    obtain ⟨s, rfl⟩ := Utf8.valid_iff.mp hfront.utf8
    exact ⟨_, ofBytes_of_named (exists_nameAtFront_encode_iff.mp ⟨rest, hfront⟩)⟩

theorem ofBytes_of_not_nameAtFront (h : ¬ ∃ name rest, NameAtFront bs name rest) :
    ofBytes bs = .error (.allowedKey "key blob does not start with an algorithm name") := by
  unfold ofBytes
  split
  · rename_i s hread
    obtain ⟨rest, hfront⟩ := exists_nameAtFront_encode_iff.mpr hread
    exact absurd ⟨_, rest, hfront⟩ h
  · rfl

/-- A count in front of bytes asks for that many bytes, at least one, which are a text. -/
theorem exists_nameAtFront_be32_iff {n : Nat} {bs : Bytes} (hn : n < 0x100000000) :
    (∃ name rest, NameAtFront (Wire.be32 n ++ bs) name rest) ↔
      1 ≤ n ∧ n ≤ bs.length ∧ Utf8.Valid (bs.take n) := by
  constructor
  · rintro ⟨name, rest, hparts, hshort, hnonempty, hutf8⟩
    rw [List.append_assoc] at hparts
    -- both counts take four bytes, so the bytes behind them are the same
    obtain ⟨hcount, rfl⟩ := List.append_inj hparts rfl
    obtain rfl : n = name.length := Wire.be32_inj hn hshort hcount
    rw [List.take_left, List.length_append]
    exact ⟨hnonempty, Nat.le_add_right _ _, hutf8⟩
  · rintro ⟨hnonempty, hlong, hutf8⟩
    have hlen : (bs.take n).length = n := List.length_take_of_le hlong
    refine ⟨bs.take n, bs.drop n, ?_, by rwa [hlen], by rwa [hlen], hutf8⟩
    rw [hlen, List.append_assoc, List.take_append_drop]

/-! ### Where keys come from -/

/-- What a key can be made from. -/
inductive Source
  | bytes (bs : Bytes)
  | base64 (text : List Char)
  | line (text : List Char)
  | file (files : Files) (path : String)
  | builtin

/-- The key that is made from a source. -/
def Source.make : Source → Except ConfigFault AllowedKey
  | .bytes bs => ofBytes bs
  | .base64 text => ofBase64 text
  | .line text => ofLine text
  | .file files path => ofFile files path
  | .builtin => AllowedKey.builtin

/-- A line shows bytes in base64 as its second word, and their name as its first one. -/
def LineShows (line : List Char) (name : String) (bs : Bytes) : Prop :=
  ∃ text more, Text.Cut line (name.toList :: text :: more) ∧ Base64.Written text bs

/-- A source shows bytes, and the name too if it is a line or a file. -/
def Source.Shows (name : String) (bs : Bytes) : Source → Prop
  | .bytes given => given = bs
  | .base64 text => Base64.Written (Text.trim text) bs
  | .line text => LineShows text name bs
  | .file files path => ∃ text line, files path = .ok (Utf8.encode (String.ofList text)) ∧
      ComesFirst line text ∧ LineShows line name bs
  | .builtin => Base64.Written (Text.trim builtinText.toList) bs

theorem ofBase64_eq_ok_iff_written (text : List Char) :
    ofBase64 text = .ok key ↔ Base64.Written (Text.trim text) key.bytes :=
  ofBase64_eq_ok_iff.trans Base64.written_iff.symm

theorem ofLine_eq_ok_iff_lineShows (line : List Char) :
    ofLine line = .ok key ↔ LineShows line key.algorithm key.bytes := by
  rw [ofLine_eq_ok_iff]
  constructor
  · rintro ⟨⟨more, hcut⟩, -⟩
    exact ⟨_, more, hcut, Base64.written_iff.mpr rfl⟩
  · rintro ⟨text, more, hcut, hwritten⟩
    obtain rfl := Base64.written_iff.mp hwritten
    exact ⟨⟨more, hcut⟩, (readAlgorithm?_eq_some_iff.mp key.named).2⟩

/-- A source makes the key that it shows. -/
theorem make_eq_ok_iff (source : Source) :
    source.make = .ok key ↔ source.Shows key.algorithm key.bytes := by
  cases source with
  | bytes bs => exact ofBytes_eq_ok_iff
  | base64 text => exact ofBase64_eq_ok_iff_written text
  | line text => exact ofLine_eq_ok_iff_lineShows text
  | file files path =>
    simp only [Source.make, Source.Shows, ofFile_eq_ok_iff, ofLine_eq_ok_iff_lineShows]
  | builtin => exact ofBase64_eq_ok_iff_written builtinText.toList

/-- The bytes of a key that is made are those that its source shows, and its algorithm is the
name at the front of them. -/
theorem exists_make_iff (source : Source) :
    (∃ key, source.make = .ok key ∧ key.algorithm = s ∧ key.bytes = bs) ↔
      source.Shows s bs ∧ ∃ rest, NameAtFront bs (Utf8.encode s) rest := by
  constructor
  · rintro ⟨key, hmake, rfl, rfl⟩
    exact ⟨(make_eq_ok_iff source).mp hmake, exists_nameAtFront_encode_iff.mpr key.named⟩
  · rintro ⟨hshows, hfront⟩
    have hnamed : readAlgorithm? bs = some s := exists_nameAtFront_encode_iff.mp hfront
    exact ⟨⟨bs, s, hnamed⟩, (make_eq_ok_iff source).mpr hshows, rfl, rfl⟩

/-! ### Comparing keys -/

/-- Keys are compared by their bytes and their algorithms, and the bytes decide. -/
theorem beq_iff (a b : AllowedKey) :
    ((a == b) = true ↔ a.bytes = b.bytes ∧ a.algorithm = b.algorithm) ∧
      ((a == b) = true ↔ a.bytes = b.bytes) := by
  rw [beq_iff_eq]
  refine ⟨⟨?_, fun h => ext_bytes h.1⟩, eq_iff_bytes_eq⟩
  rintro rfl
  exact ⟨rfl, rfl⟩

/-- An offered key matches if its encoding makes the same key. -/
theorem matches_iff_ofBytes : key.Matches q ↔ ofBytes q.encode = .ok key :=
  ofBytes_eq_ok_iff.symm

theorem NameAtFront.append (h : NameAtFront bs name rest) (extra : Bytes) :
    NameAtFront (bs ++ extra) name (rest ++ extra) :=
  { h with parts := by rw [h.parts, List.append_assoc] }

/-- Bytes behind the encoding of a key make another key, which this one does not match. -/
theorem exists_not_matches_append {extra : Bytes}
    (hname : ∃ name rest, NameAtFront q.encode name rest) (hextra : extra ≠ []) :
    ∃ key, ofBytes (q.encode ++ extra) = .ok key ∧ ¬ key.Matches q := by
  obtain ⟨name, rest, hfront⟩ := hname
  obtain ⟨key, hkey⟩ := exists_ofBytes_iff.mpr ⟨name, _, hfront.append extra⟩
  refine ⟨key, hkey, fun hmatches => hextra ?_⟩
  have hbytes : q.encode ++ extra = q.encode := (ofBytes_eq_ok_iff.mp hkey).trans hmatches.symm
  simpa using hbytes

/-- **An allowed key is its bytes.**  Bytes are a key exactly if a name stands at their front,
and all others are refused.  In whatever way a key is made, its bytes are those that its
source shows and its algorithm is the name at their front.  So two keys are equal if their
bytes are, and an offered key matches if its encoding makes an equal key; bytes behind the
encoding make a key that it never matches. -/
theorem allowedKeys_are_their_bytes :
    (∀ bs, (∃ key, ofBytes bs = .ok key) ↔ ∃ name rest, NameAtFront bs name rest) ∧
    (∀ n bs, n < 0x100000000 → ((∃ key, ofBytes (Wire.be32 n ++ bs) = .ok key) ↔
      1 ≤ n ∧ n ≤ bs.length ∧ Utf8.Valid (bs.take n))) ∧
    (∀ bs, (¬ ∃ name rest, NameAtFront bs name rest) →
      ofBytes bs = .error (.allowedKey "key blob does not start with an algorithm name")) ∧
    (∀ (source : Source) name bs,
      (∃ key, source.make = .ok key ∧ key.algorithm = name ∧ key.bytes = bs) ↔
        source.Shows name bs ∧ ∃ rest, NameAtFront bs (Utf8.encode name) rest) ∧
    (∀ a b : AllowedKey, ((a == b) = true ↔ a.bytes = b.bytes ∧ a.algorithm = b.algorithm) ∧
      ((a == b) = true ↔ a.bytes = b.bytes)) ∧
    (∀ (a : AllowedKey) (q : PublicKey), a.Matches q ↔ ofBytes q.encode = .ok a) ∧
    ∀ (q : PublicKey) (extra : Bytes), (∃ name rest, NameAtFront q.encode name rest) →
      extra ≠ [] → ∃ a, ofBytes (q.encode ++ extra) = .ok a ∧ ¬ a.Matches q := by
  refine ⟨fun _ => exists_ofBytes_iff, fun n bs hn => ?_, fun _ => ofBytes_of_not_nameAtFront,
    fun source _ _ => exists_make_iff source, beq_iff, fun _ _ => matches_iff_ofBytes,
    fun _ _ => exists_not_matches_append⟩
  rw [exists_ofBytes_iff, exists_nameAtFront_be32_iff hn]

end AllowedKey

end Sysop
