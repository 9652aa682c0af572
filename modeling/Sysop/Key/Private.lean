/-
Sysop/Key/Private.lean

Key pairs, and what reads them from files.

Which formats a file can have, when it holds a key and how a fault is told is the
business of a loader.  Whoever reads a key is given one.
-/
import Sysop.Files
import Sysop.Key.Public

namespace Sysop

/-- A key pair. -/
structure PrivateKey where
  publicKey : PublicKey
  /-- The secret part, which is kept and handed on, but never looked at. -/
  secret : Bytes
  deriving DecidableEq, Repr

/-- A loader of private keys: the key of the file that a path leads to, or the fault
as it is told. -/
abbrev KeyLoader := Files → String → Except String PrivateKey

end Sysop
