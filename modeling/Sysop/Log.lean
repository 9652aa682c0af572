/-
Sysop/Log.lean

Log records: how grave they are, which part of the program wrote them, and what
they say; and values together with the records written on the way to them.
-/

namespace Sysop

/-- How grave a record is, the gravest first. -/
inductive Level
  | error
  | warn
  | info
  | debug
  | trace
  deriving DecidableEq, Repr

namespace Level

/-- The name of a level. -/
def name : Level → String
  | .error => "ERROR"
  | .warn => "WARN"
  | .info => "INFO"
  | .debug => "DEBUG"
  | .trace => "TRACE"

/-- The place of a level, counted from the gravest. -/
def rank : Level → Nat
  | .error => 1
  | .warn => 2
  | .info => 3
  | .debug => 4
  | .trace => 5

end Level

/-- The parts of the program that write records. -/
inductive Topic
  | main
  | server
  | connection
  | handler
  | policy
  | board
  deriving DecidableEq, Repr

/-- The name of a part, as filters and log lines write it. -/
def Topic.name : Topic → String
  | .main => "bbssh"
  | .server => "bbssh::server"
  | .connection => "bbssh::server::connection"
  | .handler => "bbssh::server::handler"
  | .policy => "bbssh::policy::bbs"
  | .board => "bbssh::session::bbs"

/-- One log record. -/
structure Record where
  level : Level
  topic : Topic
  text : String
  deriving DecidableEq, Repr

/-- A value and the records written on the way to it. -/
structure Logged (α : Type) where
  value : α
  records : List Record := []

/-- The value with one more record. -/
def Logged.note {α : Type} (l : Logged α) (level : Level) (topic : Topic) (text : String) :
    Logged α :=
  ⟨l.value, l.records ++ [⟨level, topic, text⟩]⟩

/-- The record after its level. -/
def Record.line (r : Record) : String :=
  r.level.name ++ " " ++ r.text

end Sysop
