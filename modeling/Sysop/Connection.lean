/-
Sysop/Connection.lean

The driver of one connection, against everything that happens on it.

The driver waits for the first session channel, then for a shell, each for its own
time, and then runs the board on the channel.  A shell that was granted before the
channel counts.  If the transport goes away, both waits end at once.  Whoever waits
looks at what has happened before looking at the clock, so what happens at a
deadline still counts.
-/
import Sysop.Board
import Sysop.Handler
import Sysop.Settings

namespace Sysop

/-- Something that happens on a connection. -/
inductive Happening
  | callback (c : Callback)
  | transportGone
  deriving DecidableEq, Repr

/-- Something that happens, and when, in milliseconds. -/
structure Timed where
  time : Nat
  what : Happening
  deriving DecidableEq, Repr

/-- The three waits of a connection, and the clock of the moment when its driver
starts. -/
structure Patience where
  channel : Span
  shell : Span
  line : Span
  clock : Clock

/-- What the driver is doing. -/
inductive Phase
  | awaitChannel (deadline : Nat)
  | awaitShell (channel : ChannelId) (deadline : Nat)
  | board (channel : ChannelId) (since : Nat)
  | failed (fault : SessionFault) (since : Nat)
  deriving DecidableEq, Repr

/-- A connection: its callbacks, its waits and its driver. -/
structure Connection where
  handler : Handler
  patience : Patience
  phase : Phase
  log : List Record := []

namespace Connection

/-- A connection at the time when its driver starts. -/
def start (policy : Policy) (peer : Option SocketAddress) (patience : Patience) : Connection where
  handler := { policy, peer }
  patience := patience
  phase := .awaitChannel (Signal.patience patience.clock patience.channel)

/-! ### The driver -/

/-- The driver gives up; whatever it waited for stays without a waiter. -/
def fail (c : Connection) (now : Nat) (fault : SessionFault) : Connection :=
  { c with
    phase := .failed fault now
    handler := { c.handler with
      channel := c.handler.channel.dropWaiter
      shell := c.handler.shell.dropWaiter } }

/-- The driver looks for the channel. -/
def lookForChannel (c : Connection) (now : Nat) : Connection :=
  match c.phase with
  | .awaitChannel _ =>
    match c.handler.channel.poll with
    | none => c
    | some none => c.fail now (.noChannel c.patience.channel)
    | some (some id) =>
      { c with
        phase := .awaitShell id
          (now + Signal.patience (c.patience.clock.later now) c.patience.shell)
        handler := { c.handler with channel := c.handler.channel.dropWaiter }
        log := c.log ++ [⟨.info, .connection, "Authenticated!"⟩] }
  | _ => c

/-- The driver looks for the shell. -/
def lookForShell (c : Connection) (now : Nat) : Connection :=
  match c.phase with
  | .awaitShell id _ =>
    match c.handler.shell.poll with
    | none => c
    | some none => c.fail now (.noShellRequest c.patience.shell)
    | some (some ()) =>
      { c with
        phase := .board id now
        handler := { c.handler with shell := c.handler.shell.dropWaiter } }
  | _ => c

/-- The driver looks at what has happened. -/
def look (c : Connection) (now : Nat) : Connection :=
  (c.lookForChannel now).lookForShell now

/-- The deadline of the present wait passes before the given time. -/
def expire (c : Connection) (now : Nat) : Connection :=
  match c.phase with
  | .awaitChannel deadline =>
    if deadline < now then c.fail deadline (.noChannel c.patience.channel) else c
  | .awaitShell _ deadline =>
    if deadline < now then c.fail deadline (.noShellRequest c.patience.shell) else c
  | _ => c

/-! ### What happens -/

/-- One callback, or the end of the transport, with the answer. -/
def happen (c : Connection) : Happening → Option Answer × Connection
  | .callback question =>
    let r := c.handler.handle question
    (some r.answer, { c with handler := r.handler, log := c.log ++ r.records })
  | .transportGone =>
    (none, { c with handler := { c.handler with
      channel := c.handler.channel.dropNotifier
      shell := c.handler.shell.dropNotifier } })

/-- What happens at a time: deadlines before it pass, then it happens, then the
driver looks. -/
def step (c : Connection) (t : Timed) : Option Answer × Connection :=
  let (answer, c') := (c.expire t.time).happen t.what
  (answer, c'.look t.time)

/-- Everything that happens on a connection, in order. -/
def play (c : Connection) (ts : List Timed) : Connection :=
  ts.foldl (fun c t => (c.step t).2) c

/-- Nothing more happens: the wait that is left runs into its deadline. -/
def settle (c : Connection) : Connection :=
  match c.phase with
  | .awaitChannel deadline => c.fail deadline (.noChannel c.patience.channel)
  | .awaitShell _ deadline => c.fail deadline (.noShellRequest c.patience.shell)
  | _ => c

/-- A connection after everything that happens on it. -/
def run (policy : Policy) (peer : Option SocketAddress) (patience : Patience)
    (ts : List Timed) : Connection :=
  ((start policy peer patience).look 0).play ts

/-! ### The board -/

/-- The run of the board and its channel, if the driver got that far.  `terminal` is
what the board finds on a channel. -/
def boardRun? (c : Connection) (terminal : ChannelId → Terminal) :
    Option (ChannelId × Board.Run) :=
  match c.phase with
  | .board id since =>
    some (id, Board.run (c.patience.clock.later since) (terminal id) c.patience.line)
  | _ => none

/-- The texts that the board has sent on a channel. -/
def sentOn (c : Connection) (terminal : ChannelId → Terminal) (channel : ChannelId) :
    List String :=
  match c.boardRun? terminal with
  | some (id, r) => if id = channel then r.sent else []
  | none => []

/-! ### The whole session -/

/-- How a session ends. -/
inductive Outcome
  | name (username : String)
  | fault (fault : SessionFault)
  | clockOverflow
  deriving DecidableEq, Repr

/-- The end of a run of the board as the end of the session. -/
def Outcome.ofBoard : Board.Outcome → Outcome
  | .name username => .name username
  | .fault f => .fault f
  | .clockOverflow => .clockOverflow

/-- How the session of a connection ends if nothing more happens.  `terminal` is what the
board finds on a channel. -/
def outcome (c : Connection) (terminal : ChannelId → Terminal) : Outcome :=
  match c.settle.phase with
  | .board id since =>
    .ofBoard (Board.run (c.patience.clock.later since) (terminal id) c.patience.line).outcome
  | .failed f _ => .fault f
  | .awaitChannel _ => .fault (.noChannel c.patience.channel)
  | .awaitShell _ _ => .fault (.noShellRequest c.patience.shell)

/-- The session of a connection on which the given things happen, and nothing more. -/
def session (policy : Policy) (peer : Option SocketAddress) (patience : Patience)
    (ts : List Timed) (terminal : ChannelId → Terminal) : Outcome :=
  (run policy peer patience ts).outcome terminal

end Connection

/-- The waits of a configuration. -/
def Patience.ofConfig (c : Config) (clock : Clock) : Patience :=
  ⟨c.acceptTimeout, c.shellTimeout, c.lineTimeout, clock⟩

end Sysop
