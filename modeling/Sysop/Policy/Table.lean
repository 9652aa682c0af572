/-
Sysop/Policy/Table.lean

A policy written down as lists: what is not listed is refused, and nothing is
logged.
-/
import Sysop.Policy

namespace Sysop

/-- Lists of what is granted. -/
structure PolicyTable where
  /-- The methods of single users. -/
  auths : List (String × List AuthMethod) := []
  /-- The methods of everybody else. -/
  otherAuths : List AuthMethod := []
  passwords : List (String × String) := []
  /-- Users and the fingerprints of their keys. -/
  keys : List (String × String) := []
  channels : List ChannelKind := []
  shell : Bool := false
  ptys : List PtyRequest := []
  execs : List Bytes := []
  subsystems : List String := []

namespace PolicyTable

/-- The methods of a user. -/
def methodsOf (t : PolicyTable) (user : String) : List AuthMethod :=
  match t.auths.find? (·.1 = user) with
  | some (_, ms) => ms
  | none => t.otherAuths

/-- The table as a policy. -/
def toPolicy (t : PolicyTable) : Policy where
  allowedAuths := t.methodsOf
  password user pw := ⟨.ofBool ((user, pw) ∈ t.passwords), []⟩
  publicKey user key := ⟨.ofBool ((user, key.fingerprint) ∈ t.keys), []⟩
  channel kind := if kind ∈ t.channels then .accept else .administrativelyProhibited
  pty request := request ∈ t.ptys
  shell := t.shell
  exec command := command ∈ t.execs
  subsystem name := name ∈ t.subsystems

end PolicyTable

end Sysop
