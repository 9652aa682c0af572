/-
Sysop/Handler.lean

The callbacks of one connection.

The transport asks, the policy decides.  Two things are told on to whoever drives
the connection: the first session channel that was accepted, and the first shell
that was granted, on whatever channel.
-/
import Sysop.Policy
import Sysop.Signal
import Sysop.Address

namespace Sysop

/-- The number of a channel within its connection. -/
abbrev ChannelId := Nat

/-- A question of the transport. -/
inductive Callback
  | password (user password : String)
  | publicKey (user : String) (key : PublicKey)
  | authenticated
  | openChannel (kind : ChannelKind) (id : ChannelId)
  | pty (id : ChannelId) (request : PtyRequest)
  | shell (id : ChannelId)
  | exec (id : ChannelId) (command : Bytes)
  | subsystem (id : ChannelId) (name : String)
  deriving DecidableEq, Repr

/-- The answer to a login: a rejection names the methods to go on with, and says whether
it counts as a part of a login all the same. -/
inductive AuthAnswer
  | accept
  | reject (methods : MethodSet) (partly : Bool)
  deriving DecidableEq, Repr

/-- The answer to a question. -/
inductive Answer
  | auth (answer : AuthAnswer)
  | granted (yes : Bool)
  | noted
  deriving DecidableEq, Repr

/-- The state of a connection's callbacks. -/
structure Handler where
  policy : Policy
  peer : Option SocketAddress
  channel : Signal ChannelId := {}
  shell : Signal Unit := {}

/-- An answer with the state and the records after it. -/
structure Handled where
  answer : Answer
  handler : Handler
  records : List Record := []

namespace Handler

/-! ### Texts -/

/-- The peer as records show it. -/
def peerText (h : Handler) : String :=
  match h.peer with
  | some address => "Some(" ++ address.text ++ ")"
  | none => "None"

/-- A channel as records show it. -/
def channelText (id : ChannelId) : String :=
  "ChannelId(" ++ Numeral.decimal id ++ ")"

/-- A truth value as records show it. -/
def boolText : Bool → String
  | true => "true"
  | false => "false"

/-- A record of the callbacks that only developers read. -/
def debug (text : String) : Record :=
  ⟨.debug, .handler, text⟩

/-! ### Logins -/

/-- The answer that a decision gives a user.  No rejection is a part of a login. -/
def authAnswer (h : Handler) (user : String) (decision : AuthDecision) : AuthAnswer :=
  if decision.isAccept then .accept
  else .reject (AuthMethod.transportMethods (h.policy.allowedAuths user)) false

theorem authAnswer_eq_accept_iff {h : Handler} {user : String} {decision : AuthDecision} :
    h.authAnswer user decision = .accept ↔ decision = .accept := by
  cases decision <;> simp [authAnswer, AuthDecision.isAccept]

/-- A login with a password. -/
def password (h : Handler) (user pw : String) : Logged AuthAnswer :=
  let d := h.policy.password user pw
  ⟨h.authAnswer user d.value, d.records⟩

/-- A login with a key. -/
def publicKey (h : Handler) (user : String) (key : PublicKey) : Logged AuthAnswer :=
  let d := h.policy.publicKey user key
  ⟨h.authAnswer user d.value,
    d.records ++ [debug ("Public key auth for '" ++ user ++ "': " ++ d.value.name)]⟩

/-! ### Channels -/

/-- The record of a request for a channel. -/
def openRecord (h : Handler) (kind : ChannelKind) : Record :=
  debug ("Channel open '" ++ kind.name ++ "' from " ++ h.peerText ++ ": "
    ++ (h.policy.channel kind).name)

/-- The record of a session channel that nobody waits for. -/
def idleRecord (h : Handler) : Record :=
  debug ("Extra session channel from " ++ h.peerText ++ " is left idle")

/-- A request for a channel.  The first session channel is handed on. -/
def openChannel (h : Handler) (kind : ChannelKind) (id : ChannelId) : Handled :=
  if h.policy.channel kind = .accept then
    if kind = .session then
      let (delivered, channel) := h.channel.notify id
      { answer := .granted true, handler := { h with channel }
        records := h.openRecord kind :: (if delivered then [] else [h.idleRecord]) }
    else { answer := .granted true, handler := h, records := [h.openRecord kind] }
  else { answer := .granted false, handler := h, records := [h.openRecord kind] }

/-- A request for a shell.  A granted one is told on, whatever its channel. -/
def shellRequest (h : Handler) (id : ChannelId) : Handled :=
  let granted := h.policy.shell
  { answer := .granted granted
    handler := if granted then { h with shell := (h.shell.notify ()).2 } else h
    records := [debug ("Shell request on " ++ channelText id ++ ": " ++ boolText granted)] }

/-! ### All callbacks -/

/-- One callback. -/
def handle (h : Handler) : Callback → Handled
  | .password user pw =>
    let a := h.password user pw
    { answer := .auth a.value, handler := h, records := a.records }
  | .publicKey user key =>
    let a := h.publicKey user key
    { answer := .auth a.value, handler := h, records := a.records }
  | .authenticated =>
    { answer := .noted, handler := h
      records := [⟨.info, .handler, "Client " ++ h.peerText ++ " authenticated"⟩] }
  | .openChannel kind id => h.openChannel kind id
  | .pty id request =>
    let granted := h.policy.pty request
    { answer := .granted granted, handler := h
      records := [debug ("PTY request " ++ request.report ++ " on " ++ channelText id ++ ": "
        ++ boolText granted)] }
  | .shell id => h.shellRequest id
  | .exec id command =>
    let granted := h.policy.exec command
    { answer := .granted granted, handler := h
      records := [debug ("Exec request on " ++ channelText id ++ ": " ++ boolText granted)] }
  | .subsystem id name =>
    let granted := h.policy.subsystem name
    { answer := .granted granted, handler := h
      records := [debug ("Subsystem '" ++ name ++ "' request on " ++ channelText id ++ ": "
        ++ boolText granted)] }

end Handler

end Sysop
