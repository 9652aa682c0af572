/-
Sysop/Proofs/Key/File.lean

From the text of a key file to the answer to an offered key.

* A file is lines that are passed over, the line of the key, and anything after it
  (`KeyFile`); only the line of the key counts (`ofText_text`).
* A line that shows a key has its name and its base64 text as first words (`ShowsKey`), and
  the key that is read off it has the bytes of the key shown (`exists_ofLine`).
* The policy that is built compares these bytes with those of the offered key.

Main result: `admits_shown_key`.
-/
import Sysop.Policy.Board
import Sysop.Proofs.Base64
import Sysop.Proofs.Settings.Checks
import Sysop.Proofs.Text.Blank

namespace Sysop

namespace AllowedKey

open Text (Blank Solid Breaks OneLine)

/-! ### Lines that are passed over -/

/-- Nothing but blanks, or a comment behind blanks. -/
def PassedOver (line : List Char) : Prop :=
  Blank line ∨ ∃ indent comment, line = indent ++ '#' :: comment ∧ Blank indent

theorem not_isBlank_mark : Text.isBlank '#' = false := by
  decide

theorem holdsKey_of_passedOver {line : List Char} (h : PassedOver line) :
    holdsKey line = false := by
  rcases h with hblank | ⟨indent, comment, rfl, hindent⟩
  · rw [holdsKey, Text.trim_eq_nil_iff.mpr hblank]
  · obtain ⟨r, hr⟩ := Text.trim_cons not_isBlank_mark comment
    rw [holdsKey, Text.trim_blank_append hindent, hr]
    rfl

/-- A line that begins with something else, behind blanks, may hold a key. -/
theorem holdsKey_of_head {indent line : List Char} {c : Char} (hindent : Blank indent)
    (hblank : Text.isBlank c = false) (hmark : c ≠ '#') :
    holdsKey (indent ++ c :: line) = true := by
  obtain ⟨r, hr⟩ := Text.trim_cons hblank line
  rw [holdsKey, Text.trim_blank_append hindent, hr]
  simpa using hmark

theorem holdsKey_closed (line : List Char) : holdsKey (Text.closed line) = holdsKey line := by
  rw [holdsKey, holdsKey, Text.trim_closed]

/-! ### Key files -/

/-- The text of a key file in its parts: the lines in front of the line of the key, which are
passed over, and what follows it, which is nothing or begins with a line feed. -/
structure KeyFile where
  front : List (List Char)
  line : List Char
  rest : List Char
  passedOver : ∀ other ∈ front, PassedOver other
  front_oneLine : ∀ other ∈ front, OneLine other
  line_oneLine : OneLine line
  rest_ends : rest = [] ∨ ∃ more, rest = '\n' :: more

/-- The whole text of a key file. -/
def KeyFile.text (f : KeyFile) : List Char :=
  f.front.flatMap (· ++ ['\n']) ++ (f.line ++ f.rest)

/-- The line of the key comes first among the lines that may hold one. -/
theorem exists_lines_eq (f : KeyFile) (h : holdsKey f.line = true) :
    ∃ line more, Text.lines (f.line ++ f.rest) = line :: more ∧
      Text.trim line = Text.trim f.line ∧ holdsKey line = true := by
  have hne : f.line ≠ [] := by
    intro hnil
    rw [hnil] at h
    cases h
  rcases f.rest_ends with hrest | ⟨more, hrest⟩
  · refine ⟨f.line, [], ?_, rfl, h⟩
    rw [hrest, List.append_nil, Text.lines_last f.line_oneLine hne]
  · refine ⟨Text.closed f.line, Text.lines more, ?_, Text.trim_closed f.line, ?_⟩
    · rw [hrest, Text.lines_cons f.line_oneLine]
    · rw [holdsKey_closed, h]

theorem ofLine_trim (cs : List Char) : ofLine (Text.trim cs) = ofLine cs := by
  rw [ofLine, ofLine, Text.words_trim]

/-- None of the lines that are passed over is found. -/
theorem find?_closed_of_passedOver {front : List (List Char)}
    (h : ∀ other ∈ front, PassedOver other) : (front.map Text.closed).find? holdsKey = none := by
  rw [List.find?_eq_none]
  intro other hmem
  obtain ⟨line, hline, rfl⟩ := List.mem_map.mp hmem
  rw [holdsKey_closed, holdsKey_of_passedOver (h line hline)]
  decide

/-- Only the line of the key counts. -/
theorem ofText_text (path : String) (f : KeyFile) (h : holdsKey f.line = true) :
    ofText path f.text = ofLine f.line := by
  obtain ⟨line, more, hlines, htrim, hholds⟩ := exists_lines_eq f h
  have hfind : (Text.lines f.text).find? holdsKey = some line := by
    rw [KeyFile.text, Text.lines_append f.front_oneLine, List.find?_append,
      find?_closed_of_passedOver f.passedOver, hlines, List.find?_cons_of_pos hholds]
    rfl
  rw [ofText, hfind]
  show ofLine (Text.trim line) = _
  rw [htrim, ofLine_trim]

/-! ### Bytes -/

/-- The name of an algorithm: it can stand in front of a key, in its bytes and on a line. -/
structure IsName (name : String) : Prop where
  ne_empty : name ≠ ""
  solid : Solid name.toList
  not_comment : name.toList.head? ≠ some '#'
  short : (Utf8.encode name).length < 0x100000000

theorem encode_ne_nil {s : String} (h : s ≠ "") : Utf8.encode s ≠ [] := by
  intro hnil
  have hdecode := Utf8.decode?_encode s
  rw [hnil] at hdecode
  exact h (Option.some.inj hdecode).symm

/-- A name in front of bytes is read. -/
theorem readAlgorithm?_string {name : String} (hne : name ≠ "")
    (hshort : (Utf8.encode name).length < 0x100000000) (parts : Bytes) :
    readAlgorithm? (Wire.string (Utf8.encode name) ++ parts) = some name := by
  rw [readAlgorithm?, Wire.readString?_string hshort]
  simp only [if_neg (encode_ne_nil hne), Utf8.decode?_encode]

theorem ofBytes_of_named {bs : Bytes} {name : String} (h : readAlgorithm? bs = some name) :
    ofBytes bs = .ok ⟨bs, name, h⟩ := by
  unfold ofBytes
  split
  · rename_i name' h'
    obtain rfl : name = name' := Option.some.inj (h.symm.trans h')
    rfl
  · rename_i h'
    rw [h] at h'
    cases h'

/-- The base64 text of bytes gives the key of these bytes. -/
theorem ofBase64_encodeText (bs : Bytes) :
    ofBase64 (Base64.encodeText bs).toList = ofBytes bs := by
  rw [ofBase64, Text.trim_of_solid (Base64.solid_encodeText bs), String.ofList_toList,
    Base64.decode_encodeText]

/-! ### Lines that show a key -/

/-- A line has a name and the base64 text of bytes as its first two words. -/
def ShowsKey (line : List Char) (name : String) (bs : Bytes) : Prop :=
  ∃ indent gap more, line = indent ++ (name.toList ++ (gap ++
      ((Base64.encodeText bs).toList ++ more))) ∧
    Blank indent ∧ Blank gap ∧ gap ≠ [] ∧ Breaks more

variable {line : List Char} {name : String} {bs : Bytes}

theorem exists_words_of_showsKey (hname : IsName name) (hbs : bs ≠ [])
    (h : ShowsKey line name bs) :
    ∃ others, Text.words line = name.toList :: (Base64.encodeText bs).toList :: others := by
  obtain ⟨indent, gap, more, rfl, hindent, hgap, hgapne, hmore⟩ := h
  have hnameNe : name.toList ≠ [] := by simpa using hname.ne_empty
  have hdataNe : (Base64.encodeText bs).toList ≠ [] := by
    obtain ⟨s, r, hencode⟩ := Base64.exists_encode_cons hbs
    simp [Base64.encodeText, hencode]
  refine ⟨Text.words more, ?_⟩
  rw [Text.words_blank_append hindent,
    Text.words_word_append hname.solid hnameNe (Text.breaks_of_blank hgap hgapne),
    Text.words_blank_append hgap, Text.words_word_append (Base64.solid_encodeText bs) hdataNe hmore]

theorem holdsKey_of_showsKey (hname : IsName name) (h : ShowsKey line name bs) :
    holdsKey line = true := by
  obtain ⟨indent, gap, more, rfl, hindent, -⟩ := h
  have hnameNe : name.toList ≠ [] := by simpa using hname.ne_empty
  obtain ⟨c, r, hcons⟩ := List.exists_cons_of_ne_nil hnameNe
  have hsolid := hname.solid
  have hmark := hname.not_comment
  rw [hcons] at hsolid hmark ⊢
  exact holdsKey_of_head hindent (hsolid c List.mem_cons_self) (by simpa using hmark)

/-- A line that shows a key is read as the bytes of this key. -/
theorem exists_ofLine (hname : IsName name) {parts : Bytes}
    (h : ShowsKey line name (Wire.string (Utf8.encode name) ++ parts)) :
    ∃ key, ofLine line = .ok key ∧ key.bytes = Wire.string (Utf8.encode name) ++ parts := by
  have hne : Wire.string (Utf8.encode name) ++ parts ≠ [] := by simp [Wire.string, Wire.be32]
  have hread := readAlgorithm?_string hname.ne_empty hname.short parts
  obtain ⟨others, hwords⟩ := exists_words_of_showsKey hname hne h
  refine ⟨⟨_, name, hread⟩, ?_, rfl⟩
  rw [ofLine, hwords]
  simp only [ofBase64_encodeText, ofBytes_of_named hread, String.ofList_toList, if_pos]

/-! ### The policy of a key file -/

theorem fault?_eq_none {s : Settings} (huser : s.allowedUser ≠ "")
    (haccept : s.acceptTimeout.nanos ≠ 0) (hshell : s.shellTimeout.nanos ≠ 0)
    (hline : s.lineTimeout.nanos ≠ 0) : s.fault? = none := by
  simp [Settings.fault?, huser, haccept, hshell, hline]

/-- A key is admitted if it is offered by the allowed user and has the bytes of the allowed
key. -/
theorem publicKey_accept_iff (c : Config) (user : String) (key : PublicKey) :
    ((BoardPolicy.ofConfig c).toPolicy.publicKey user key).value = .accept ↔
      user = c.allowedUser ∧ key.encode = c.allowedKey.bytes :=
  AuthDecision.ofBool_eq_accept_iff.trans decide_eq_true_iff

/-- A key file that shows a key lets in exactly this key, for exactly the allowed user. -/
theorem admits_shown_key {s : Settings} {loader : KeyLoader} {files : Files} {path : String}
    {f : KeyFile} {p : PublicKey} (huser : s.allowedUser ≠ "") (haccept : s.acceptTimeout.nanos ≠ 0)
    (hshell : s.shellTimeout.nanos ≠ 0) (hline : s.lineTimeout.nanos ≠ 0)
    (hhost : ∃ hostKey, s.hostKey.load loader files = .ok hostKey)
    (hkey : s.allowedKey = .file path)
    (hfile : files path = .ok (Utf8.encode (String.ofList f.text)))
    (hname : IsName p.algorithm.name) (hshows : ShowsKey f.line p.algorithm.name p.encode) :
    ∃ c, s.build loader files = .ok c ∧ ∀ user q,
      ((BoardPolicy.ofConfig c).toPolicy.publicKey user q).value = .accept ↔
        user = s.allowedUser ∧ q.encode = p.encode := by
  obtain ⟨hostKey, hhost⟩ := hhost
  obtain ⟨key, hofLine, hbytes⟩ := exists_ofLine hname hshows
  have hload : s.allowedKey.load files = .ok key := by
    rw [hkey, AllowedKeySource.load, ofFile, Files.readText, hfile]
    simp only [Utf8.decode?_encode, String.toList_ofList]
    rw [ofText_text path f (holdsKey_of_showsKey hname hshows), hofLine]
  refine ⟨s.toConfig hostKey key, ?_, fun user q => ?_⟩
  · simp only [Settings.build, fault?_eq_none huser haccept hshell hline, hhost, hload]
  · rw [publicKey_accept_iff]
    show user = s.allowedUser ∧ q.encode = key.bytes ↔ _
    rw [hbytes]
    rfl

/-! ### A key file with notes -/

/-- A key of a kind that is compared but not read. -/
def deskKey : PublicKey :=
  .other "sk-desk" [0, 0, 0, 1, 0xFB, 0xFF]

/-- A file with lines ended in two ways, two notes, an owner behind the key, and an old key. -/
def deskFile : KeyFile where
  front := ["# the key of the desk\r".toList, "".toList, "\t# not for guests".toList]
  line := " ".toList ++ ("sk-desk".toList ++ ("\t ".toList ++
    ((Base64.encodeText deskKey.encode).toList ++ "\u00a0desk@home\r".toList)))
  rest := "\n# until May\nssh-rsa AAAA\n".toList
  passedOver := by
    simp only [List.mem_cons, List.not_mem_nil, or_false]
    rintro other (rfl | rfl | rfl)
    · exact .inr ⟨[], " the key of the desk\r".toList, by decide, by decide⟩
    · exact .inl (by decide)
    · exact .inr ⟨['\t'], " not for guests".toList, by decide, by decide⟩
  front_oneLine := by decide
  line_oneLine := by decide +kernel
  rest_ends := .inr ⟨"# until May\nssh-rsa AAAA\n".toList, by decide⟩

theorem deskFile_showsKey : ShowsKey deskFile.line deskKey.algorithm.name deskKey.encode :=
  ⟨" ".toList, "\t ".toList, "\u00a0desk@home\r".toList, rfl, by decide, by decide, by decide,
    .inr ⟨'\u00a0', "desk@home\r".toList, by decide, by decide⟩⟩

theorem isName_desk : IsName deskKey.algorithm.name :=
  ⟨by decide, by decide, by decide, by decide⟩

/-- Settings that take both keys from files. -/
def deskSettings : Settings :=
  { Settings.initial none with
    hostKeyPath := "door.key"
    allowedKeyPath := some "desk.pub" }

/-- The files of the settings are the only ones there are. -/
def deskFiles : Files := fun path =>
  if path = "desk.pub" then .ok (Utf8.encode (String.ofList deskFile.text))
  else if path = "door.key" then .ok (Utf8.encode doorText)
  else .error .notUtf8

theorem load_deskSettings :
    deskSettings.hostKey.load OpenSsh.load deskFiles = .ok (doorKey, some "door.key") := by
  have hfile : deskFiles "door.key" = .ok (Utf8.encode doorText) := by
    rw [deskFiles, if_neg (by decide), if_pos rfl]
  have hhost : HasHostKey deskSettings OpenSsh.load deskFiles doorKey (some "door.key") :=
    .read rfl (load_doorText hfile)
  exact hhost.load

theorem desk_admits_its_key :
    ∃ c, deskSettings.build OpenSsh.load deskFiles = .ok c ∧ ∀ user q,
      ((BoardPolicy.ofConfig c).toPolicy.publicKey user q).value = .accept ↔
        user = "robey" ∧ q.encode = deskKey.encode :=
  admits_shown_key (f := deskFile) (p := deskKey) (by decide) (by decide) (by decide)
    (by decide) ⟨_, load_deskSettings⟩ rfl (if_pos rfl) isName_desk deskFile_showsKey

end AllowedKey

end Sysop
