/-
Sysop/LogFilter.lean

Which log records are shown, and how.

A filter is written as directives with commas between them: a level for
everything, a name for every level of the parts whose names begin with it, or both
with an equals sign between.  After a slash may stand a text that a record has to
hold.  Of the directives that fit a record the one with the longest name decides,
and of two for the same name the last one.
-/
import Sysop.Log
import Sysop.Text.Blank
import Sysop.Text.Split

namespace Sysop

/-- A limit for the records of the parts whose names begin with a text: the least
grave level that is shown, or `none` if nothing is. -/
structure Directive where
  name : Option String
  limit : Option Level
  deriving DecidableEq, Repr

/-- Directives in ascending order of the lengths of their names, and a text that
every record has to hold. -/
structure LogFilter where
  directives : List Directive
  needle : Option String := none
  deriving DecidableEq, Repr

namespace LogFilter

/-! ### Reading -/

/-- The ASCII letters of a text in lower case. -/
def lower (s : String) : String :=
  String.ofList (s.toList.map Char.toLower)

/-- The limit with a name, in any case. -/
def limit? (s : String) : Option (Option Level) :=
  match lower s with
  | "off" => some none
  | "error" => some (some .error)
  | "warn" => some (some .warn)
  | "info" => some (some .info)
  | "debug" => some (some .debug)
  | "trace" => some (some .trace)
  | _ => none

/-- The text without blanks at its ends. -/
def trim (s : String) : String :=
  String.ofList (Text.trim s.toList)

/-- What is told of a text that is no directive. -/
def invalid (s : String) : String :=
  "invalid logging spec '" ++ s ++ "'"

/-- The directive that a text is, or what is told of it. -/
def directive (s : String) : Except String Directive :=
  match Text.split '=' s with
  | [name] =>
    match limit? name with
    | some limit => .ok ⟨none, limit⟩
    | none => .ok ⟨some name, some .trace⟩
  | [name, value] =>
    if trim value = "" then .ok ⟨some name, some .trace⟩
    else
      match limit? (trim value) with
      | some limit => .ok ⟨some name, limit⟩
      | none => .error (invalid (trim value))
  | _ => .error (invalid s)

/-- The directives with one more, which replaces an earlier one for its name. -/
def insert (ds : List Directive) (d : Directive) : List Directive :=
  if ds.any (·.name = d.name) then ds.map fun x => if x.name = d.name then d else x
  else ds ++ [d]

/-- The length of a directive's name in bytes. -/
def nameLength (d : Directive) : Nat :=
  match d.name with
  | some name => name.utf8ByteSize
  | none => 0

/-- The filter of directives: without any, errors are shown. -/
def ofDirectives (ds : List Directive) (needle : Option String) : LogFilter :=
  match ds.foldl insert [] with
  | [] => ⟨[⟨none, some .error⟩], needle⟩
  | ds => ⟨ds.mergeSort fun a b => nameLength a ≤ nameLength b, needle⟩

/-- The directives of a list of texts, and what is told of the others. -/
def readAll : List String → List Directive × List String
  | [] => ([], [])
  | s :: r =>
    let (ds, warnings) := readAll r
    if trim s = "" then (ds, warnings)
    else
      match directive (trim s) with
      | .ok d => (d :: ds, warnings)
      | .error w => (ds, w :: warnings)

/-- The filter that a text is, and what is told of its faults. -/
def read (s : String) : LogFilter × List String :=
  match Text.split '/' s with
  | [front] =>
    let (ds, warnings) := readAll (Text.split ',' front)
    (ofDirectives ds none, warnings)
  | [front, needle] =>
    let (ds, warnings) := readAll (Text.split ',' front)
    (ofDirectives ds (some needle), warnings)
  | _ => (ofDirectives [] none, [invalid s ++ " (too many '/'s)"])

/-! ### Showing -/

/-- The level is within the limit. -/
def within (level : Level) : Option Level → Bool
  | none => false
  | some limit => level.rank ≤ limit.rank

/-- The limit for the part with a name. -/
def limitFor (f : LogFilter) (topic : String) : Option Level :=
  match f.directives.reverse.find? fun d =>
    match d.name with
    | some name => topic.startsWith name
    | none => true with
  | some d => d.limit
  | none => none

/-- The text holds the other one. -/
def holds (needle : List Char) : List Char → Bool
  | [] => needle.isEmpty
  | c :: r => needle.isPrefixOf (c :: r) || holds needle r

/-- The record is shown. -/
def shows (f : LogFilter) (r : Record) : Bool :=
  within r.level (f.limitFor r.topic.name) &&
    match f.needle with
    | some needle => holds needle.toList r.text.toList
    | none => true

/-- The name of a level with blanks up to five characters. -/
def paddedName (level : Level) : String :=
  String.ofList (level.name.toList ++ List.replicate (5 - level.name.length) ' ')

/-- A line feed inside a record is followed by four spaces. -/
def indent (s : String) : String :=
  String.ofList (s.toList.flatMap fun c =>
    if c = '\n' then ['\n', ' ', ' ', ' ', ' '] else [c])

/-- The line of a record. -/
def line (r : Record) : String :=
  "[" ++ paddedName r.level ++ " " ++ r.topic.name ++ "] " ++ indent r.text ++ "\n"

/-- The lines of the records that are shown. -/
def render (f : LogFilter) (rs : List Record) : String :=
  String.join ((rs.filter f.shows).map line)

/-- What is told of the faults of a filter. -/
def warningText (w : String) : String :=
  "warning: " ++ w ++ ", ignoring it\n"

end LogFilter

end Sysop
