/-
Sysop/Owner.lean

Whose process this is: the environment variable names the owner if it holds a text
that is not empty, else the account that the process runs under does.
-/
import Sysop.Text.Blank
import Sysop.Text.Split
import Sysop.Text.Utf8

namespace Sysop

/-- What the process knows about its owner. -/
structure Owner where
  /-- The bytes of the environment variable, if it is set. -/
  environment : Option Bytes
  /-- The bytes of the name of the account, if it has one. -/
  account : Option Bytes
  deriving DecidableEq, Repr

namespace Owner

/-- The name in the environment variable, if it is usable. -/
def named? (o : Owner) : Option String :=
  (o.environment.bind Utf8.decode?).filter (· ≠ "")

/-- The name of the account, if it is a text. -/
def accountName? (o : Owner) : Option String :=
  o.account.bind Utf8.decode?

/-- The name of the owner. -/
def name? (o : Owner) : Option String :=
  o.named?.or o.accountName?

/-! ### Accounts -/

/-- The name in a line of the account table, if the line is about the given
number. -/
def accountIn? (uid : String) (line : List Char) : Option String :=
  match Text.split ':' (String.ofList line) with
  | name :: _ :: number :: _ => if number = uid then some name else none
  | _ => none

/-- The name of the account with a number, from the text of the account table. -/
def accountNamed? (table uid : String) : Option String :=
  (Text.lines table.toList).findSome? (accountIn? uid)

/-- The number of the account that a process runs under, from the text of its
status. -/
def uidIn? (status : String) : Option String :=
  (Text.lines status.toList).findSome? fun line =>
    match Text.words line with
    | label :: _ :: effective :: _ =>
      if label = "Uid:".toList then some (String.ofList effective) else none
    | _ => none

end Owner

end Sysop
