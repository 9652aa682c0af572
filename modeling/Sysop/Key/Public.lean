/-
Sysop/Key/Public.lean

Public keys, their wire encoding and their fingerprint.

An encoded key is a string with the name of its algorithm and then the parts of
the key.  Keys of three kinds are read, from the front of a byte string; what
follows the key is left alone, so `encode` of the key that was read is the part
that was read.  A key of any other kind can be offered and compared.
-/
import Sysop.Base64
import Sysop.Sha256
import Sysop.Wire

namespace Sysop

/-- A curve for keys that are points on it. -/
inductive Curve
  | nistp256
  | nistp384
  | nistp521
  deriving DecidableEq, Repr

namespace Curve

/-- The name of the curve. -/
def name : Curve → String
  | .nistp256 => "nistp256"
  | .nistp384 => "nistp384"
  | .nistp521 => "nistp521"

/-- The bytes of one coordinate. -/
def coordinate : Curve → Nat
  | .nistp256 => 32
  | .nistp384 => 48
  | .nistp521 => 66

/-- A point written with both its coordinates. -/
def isPoint (curve : Curve) : Bytes → Bool
  | [] => false
  | tag :: rest => tag = 4 ∧ rest.length = 2 * curve.coordinate

end Curve

/-- A public key. -/
inductive PublicKey
  | ed25519 (point : Bytes)
  | rsa (exponent modulus : Bytes)
  | ecdsa (curve : Curve) (point : Bytes)
  | other (name : String) (parts : Bytes)
  deriving DecidableEq, Repr

namespace PublicKey

/-! ### Names of algorithms -/

/-- The algorithms that a key can name. -/
inductive Algorithm
  | ed25519
  | rsa
  | ecdsa (curve : Curve)
  | other (name : String)
  deriving DecidableEq, Repr

/-- The name of an algorithm. -/
def Algorithm.name : Algorithm → String
  | .ed25519 => "ssh-ed25519"
  | .rsa => "ssh-rsa"
  | .ecdsa curve => "ecdsa-sha2-" ++ curve.name
  | .other name => name

/-- The algorithm of a name, if its keys are read.  The names of the two newer
signature schemes stand for keys of the same shape. -/
def Algorithm.ofName? (name : Bytes) : Option Algorithm :=
  if name = Utf8.encode "ssh-ed25519" then some .ed25519
  else if name = Utf8.encode "ssh-rsa" then some .rsa
  else if name = Utf8.encode "rsa-sha2-256" ∨ name = Utf8.encode "rsa-sha2-512" then some .rsa
  else if name = Utf8.encode "ecdsa-sha2-nistp256" then some (.ecdsa .nistp256)
  else if name = Utf8.encode "ecdsa-sha2-nistp384" then some (.ecdsa .nistp384)
  else if name = Utf8.encode "ecdsa-sha2-nistp521" then some (.ecdsa .nistp521)
  else none

/-- The algorithm of a key. -/
def algorithm : PublicKey → Algorithm
  | .ed25519 _ => .ed25519
  | .rsa .. => .rsa
  | .ecdsa curve _ => .ecdsa curve
  | .other name _ => .other name

/-! ### Encoding -/

/-- The parts of a key after the name of its algorithm. -/
def encodeParts : PublicKey → Bytes
  | .ed25519 point => Wire.string point
  | .rsa exponent modulus => Wire.string exponent ++ Wire.string modulus
  | .ecdsa curve point => Wire.string (Utf8.encode curve.name) ++ Wire.string point
  | .other _ parts => parts

/-- The wire encoding of a key. -/
def encode (key : PublicKey) : Bytes :=
  Wire.string (Utf8.encode key.algorithm.name) ++ key.encodeParts

/-- The parts of a key of a known algorithm, and what follows them. -/
def readParts? (algorithm : Algorithm) (bs : Bytes) : Option (PublicKey × Bytes) :=
  match algorithm with
  | .ed25519 => do
    let (point, r) ← Wire.readString? bs
    if point.length = 32 then some (.ed25519 point, r) else none
  | .rsa => do
    let (exponent, r) ← Wire.readInteger? bs
    let (modulus, r) ← Wire.readInteger? r
    return (.rsa exponent modulus, r)
  | .ecdsa curve => do
    let (name, r) ← Wire.readString? bs
    let (point, r) ← Wire.readString? r
    if name = Utf8.encode curve.name ∧ curve.isPoint point then some (.ecdsa curve point, r)
    else none
  | .other _ => none

/-- A key at the front of a byte string, and what follows it. -/
def read? (bs : Bytes) : Option (PublicKey × Bytes) := do
  let (name, r) ← Wire.readString? bs
  let algorithm ← Algorithm.ofName? name
  readParts? algorithm r

/-- The key at the front of a byte string. -/
def decode? (bs : Bytes) : Option PublicKey :=
  (read? bs).map (·.1)

/-- The key of a base64 text. -/
def ofBase64? (s : String) : Option PublicKey :=
  match Base64.decode (Utf8.encode s) with
  | .ok bs => decode? bs
  | .error _ => none

/-! ### Fingerprints -/

/-- The fingerprint of a key: the digest of its encoding. -/
def fingerprint (key : PublicKey) : String :=
  "SHA256:" ++ Base64.encodeUnpadded (Sha256.digest key.encode)

end PublicKey

end Sysop
