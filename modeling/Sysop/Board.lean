/-
Sysop/Board.lean

The board: a banner in four parts, one question, one answer, and the door.

A run sends the banner, reads one line before a deadline that is fixed when the
reading starts, sends the farewell and closes.  It stops at the first call that
fails.  `Run.calls` is the whole conversation: every call made on the terminal, in
order, with how it went.
-/
import Sysop.Clock
import Sysop.LineBuffer
import Sysop.Log
import Sysop.Terminal

namespace Sysop

namespace Board

/-! ### Texts -/

/-- The parts of the banner; the last one is the prompt. -/
def banner : List String := [
  "\r\n\r\nWelcome to my dorky little BBS!\r\n\r\n",
  "We are on fire all the time!  Hooray!  Candy corn for everyone!\r\n",
  "Happy birthday to Robot Dave!\r\n\r\n",
  "Username: "]

/-- The answer to a user name. -/
def farewell (username : String) : String :=
  "\r\nI don't like you, " ++ username ++ ".\r\n"

/-- The longest user name that is read, in bytes. -/
def nameLimit : Nat := 1024

/-! ### Calls -/

/-- What a reader got. -/
inductive Receipt
  | chunk (data : Bytes)
  | ended
  | nothing
  deriving DecidableEq, Repr

/-- A call on the terminal and how it went. -/
inductive Call
  | send (text : String) (fault : Option SessionFault)
  | receive (receipt : Receipt)
  | close (fault : Option SessionFault)
  deriving DecidableEq, Repr

/-- How a run ends: with the name that was typed, with a fault, or because the
clock cannot show the deadline. -/
inductive Outcome
  | name (username : String)
  | fault (fault : SessionFault)
  | clockOverflow
  deriving DecidableEq, Repr

/-- A whole run: its calls, the milliseconds it took, how it ended, and its log. -/
structure Run where
  calls : List Call
  elapsed : Nat
  outcome : Outcome
  log : List Record := []
  deriving DecidableEq, Repr

/-! ### Sending -/

/-- The calls that send texts, the first of them with index `i`, up to the first
that fails, and the fault if there is one. -/
def sendAll (t : Terminal) (i : Nat) : List String → List Call × Option SessionFault
  | [] => ([], none)
  | s :: r =>
    match t.sendFault i with
    | some f => ([.send s (some f)], some f)
    | none =>
      let (calls, fault) := sendAll t (i + 1) r
      (.send s none :: calls, fault)

/-! ### Reading -/

/-- The reading of one line: its calls, when it was over, and the line unless the
deadline passed. -/
structure Reading where
  calls : List Call
  ended : Nat
  line : Option String
  deriving DecidableEq, Repr

/-- A reading that the deadline ended. -/
def Reading.late (deadline : Nat) : Reading :=
  ⟨[.receive .nothing], deadline, none⟩

/-- The reading of a line from the arrivals, from the time `now` on, with `b` read
already.  What arrives at the deadline is still read. -/
def readFrom (deadline : Nat) (ending : Option Nat) (now : Nat) (b : LineBuffer) :
    List Arrival → Reading
  | [] =>
    match ending with
    | none => .late deadline
    | some w =>
      if now + w ≤ deadline then ⟨[.receive .ended], now + w, some b.takeRemaining.1⟩
      else .late deadline
  | a :: rest =>
    if now + a.wait ≤ deadline then
      match (b.extend a.data).nextLine? with
      | some (line, _) => ⟨[.receive (.chunk a.data)], now + a.wait, some line⟩
      | none =>
        let r := readFrom deadline ending (now + a.wait) (b.extend a.data) rest
        ⟨.receive (.chunk a.data) :: r.calls, r.ended, r.line⟩
    else .late deadline

/-- The reading of one line from a terminal. -/
def readLine (t : Terminal) (deadline : Nat) : Reading :=
  readFrom deadline t.ending 0 (.empty nameLimit) t.arrivals

/-! ### The whole run -/

/-- The record of the answer. -/
def answered (username : String) : Record :=
  ⟨.debug, .board, "Client answered '" ++ username ++ "'"⟩

/-- The calls after a name was read, and how they end. -/
def sayFarewell (t : Terminal) (username : String) : List Call × Outcome :=
  match t.sendFault banner.length with
  | some f => ([.send (farewell username) (some f)], .fault f)
  | none =>
    match t.closeFault with
    | some f => ([.send (farewell username) none, .close (some f)], .fault f)
    | none => ([.send (farewell username) none, .close none], .name username)

/-- The whole exchange with a terminal.  The clock is the one of the moment when the
reading starts. -/
def run (clock : Clock) (t : Terminal) (timeout : Span) : Run :=
  match sendAll t 0 banner with
  | (calls, some f) => { calls, elapsed := 0, outcome := .fault f }
  | (calls, none) =>
    if clock.Reaches timeout then
      let reading := readLine t (clock.timer timeout)
      match reading.line with
      | none =>
        { calls := calls ++ reading.calls, elapsed := reading.ended
          outcome := .fault (.lineTimeout timeout) }
      | some username =>
        let (last, outcome) := sayFarewell t username
        { calls := calls ++ reading.calls ++ last, elapsed := reading.ended, outcome
          log := [answered username] }
    else { calls, elapsed := 0, outcome := .clockOverflow }

/-! ### Views of a run -/

/-- The texts that were sent. -/
def Run.sent (r : Run) : List String :=
  r.calls.filterMap fun
    | .send text none => some text
    | _ => none

/-- The channel was closed. -/
def Run.closed (r : Run) : Bool :=
  r.calls.any fun
    | .close none => true
    | _ => false

/-- The chunks that were handed out. -/
def Run.received (r : Run) : List Bytes :=
  r.calls.filterMap fun
    | .receive (.chunk data) => some data
    | _ => none

end Board

end Sysop
