/-
Sysop/Key/Allowed.lean

The key that lets its owner in.

It is kept as the bytes that were given, with the name of the algorithm that they
begin with.  Two allowed keys are the same exactly when their bytes are, because
the name is read off the bytes; an offered key matches when its encoding is those
bytes.
-/
import Sysop.Fault
import Sysop.Files
import Sysop.Key.Public
import Sysop.Text.Blank
import Sysop.Text.Quoted

namespace Sysop

/-- The name of the algorithm at the front of the bytes of a key. -/
def readAlgorithm? (bs : Bytes) : Option String :=
  match Wire.readString? bs with
  | none => none
  | some (name, _) => if name = [] then none else Utf8.decode? name

/-- The bytes of a key that is allowed in, and the name that they begin with. -/
structure AllowedKey where
  bytes : Bytes
  algorithm : String
  named : readAlgorithm? bytes = some algorithm
  deriving DecidableEq

namespace AllowedKey

/-! ### Making one -/

/-- The key of its bytes. -/
def ofBytes (bs : Bytes) : Except ConfigFault AllowedKey :=
  match h : readAlgorithm? bs with
  | some name => .ok ⟨bs, name, h⟩
  | none => .error (.allowedKey "key blob does not start with an algorithm name")

/-- The key of a base64 text, blanks around it aside. -/
def ofBase64 (cs : List Char) : Except ConfigFault AllowedKey :=
  match Base64.decode (Utf8.encode (String.ofList (Text.trim cs))) with
  | .ok bs => ofBytes bs
  | .error fault => .error (.allowedKey fault.message)

/-- The key of a public key line: the name of the algorithm, the base64 text, and
anything after them. -/
def ofLine (cs : List Char) : Except ConfigFault AllowedKey :=
  match Text.words cs with
  | [] => .error (.allowedKey "empty public key line")
  | [declared] =>
    .error (.allowedKey ("missing key data after '" ++ String.ofList declared ++ "'"))
  | declared :: data :: _ =>
    match ofBase64 data with
    | .error fault => .error fault
    | .ok key =>
      if key.algorithm = String.ofList declared then .ok key
      else .error (.allowedKey ("key type '" ++ String.ofList declared
        ++ "' does not match encoded type '" ++ key.algorithm ++ "'"))

/-- A line that may hold a key: something other than blanks and not a comment. -/
def holdsKey (line : List Char) : Bool :=
  match Text.trim line with
  | [] => false
  | c :: _ => c != '#'

/-- The key of the first line of a text that may hold one.  The path is only told. -/
def ofText (path : String) (cs : List Char) : Except ConfigFault AllowedKey :=
  match (Text.lines cs).find? holdsKey with
  | some line => ofLine (Text.trim line)
  | none => .error (.allowedKey ("no key found in " ++ path))

/-- The key of the file that a path leads to. -/
def ofFile (files : Files) (path : String) : Except ConfigFault AllowedKey :=
  match files.readText path with
  | .error fault => .error (.allowedKeyFile path fault)
  | .ok s => ofText path s.toList

/-- The base64 text of the key that is allowed if no other is given. -/
def builtinText : String :=
  "AAAAB3NzaC1yc2EAAAABIwAAAIEAyO4it3fHlmGZWJaGrfeHOVY7RWO3P9M7hp" ++
  "fAu7jJ2d7eothvfeuoRFtJwhUmZDluRdFyhFY/hFAh76PJKGAusIqIQKlkJxMC" ++
  "KDqIexkgHAfID/6mqvmnSJf0b5W8v5h2pI/stOSwTQ+pxVhwJ9ctYDhRSlF0iT" ++
  "UWT10hcuO4Ks8="

/-- The key that is allowed if no other is given. -/
def builtin : Except ConfigFault AllowedKey :=
  ofBase64 builtinText.toList

/-! ### Using one -/

/-- An offered key is this one. -/
def Matches (key : AllowedKey) (offered : PublicKey) : Prop :=
  offered.encode = key.bytes

instance (key : AllowedKey) (offered : PublicKey) : Decidable (key.Matches offered) :=
  inferInstanceAs (Decidable (_ = _))

/-- The key as reports show it: its algorithm and how many bytes it has. -/
def report (key : AllowedKey) : String :=
  "AllowedKey \x7b algorithm: " ++ Text.quote key.algorithm ++ ", len: "
    ++ Numeral.decimal key.bytes.length ++ " \x7d"

/-! ### Small facts -/

/-- The bytes decide the key. -/
theorem ext_bytes {a b : AllowedKey} (h : a.bytes = b.bytes) : a = b := by
  obtain ⟨bs, n, hn⟩ := a
  obtain ⟨cs, m, hm⟩ := b
  subst h
  obtain rfl : n = m := Option.some.inj (hn.symm.trans hm)
  rfl

/-- Equal keys are keys with equal bytes. -/
theorem eq_iff_bytes_eq {a b : AllowedKey} : a = b ↔ a.bytes = b.bytes :=
  ⟨fun h => h ▸ rfl, ext_bytes⟩

theorem bytes_of_ofBytes {bs : Bytes} {key : AllowedKey} (h : ofBytes bs = .ok key) :
    key.bytes = bs := by
  unfold ofBytes at h
  split at h
  · cases h
    rfl
  · cases h

end AllowedKey

end Sysop
