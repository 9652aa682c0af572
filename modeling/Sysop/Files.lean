/-
Sysop/Files.lean

Files as their readers see them: every path leads to bytes or to a fault.
-/
import Sysop.Fault.Io
import Sysop.Text.Utf8

namespace Sysop

/-- What every path leads to. -/
abbrev Files := String → Except IoFault Bytes

/-- The text of the file that a path leads to. -/
def Files.readText (files : Files) (path : String) : Except IoFault String :=
  match files path with
  | .error f => .error f
  | .ok content =>
    match Utf8.decode? content with
    | some s => .ok s
    | none => .error .notUtf8

end Sysop
