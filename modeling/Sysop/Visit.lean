/-
Sysop/Visit.lean

A client's visit, step by step: what it asks, and what it is told.

A visit plays a script of a client against a connection.  All that the client does, it
does at once when it has come in; only waiting takes time.  The transport passes on
nothing but logins until one is accepted, and nothing once the server has ended the
session.  What the board has sent is worked out from everything that reached its
channel so far, so it does not matter in how many steps that was.  A client that has
said all leaves.
-/
import Sysop.Server

namespace Sysop

/-! ### Clients that speak some other protocol -/

namespace Greeting

/-- The bytes within which a greeting has to be found. -/
def window : Nat := 256

/-- The least length of a greeting. -/
def shortest : Nat := 8

/-- A line that greets. -/
def greets (line : Bytes) : Bool :=
  shortest ≤ line.length &&
    ((Utf8.encode "SSH-2.0-").isPrefixOf line || (Utf8.encode "SSH-1.99-").isPrefixOf line)

/-- One of the ended lines greets; `acc` is the current line, reversed. -/
def foundFrom (acc : Bytes) : Bytes → Bool
  | [] => false
  | b :: r =>
    if b = LineBuffer.lf then greets acc.reverse || foundFrom [] r else foundFrom (b :: acc) r

/-- The input holds a greeting where one is looked for. -/
def found (input : Bytes) : Bool :=
  foundFrom [] (input.take window)

/-- How the session of a client ends that sends the input and then ends it or stays
silent. -/
def outcome (c : Config) (input : Bytes) (ends : Bool) : Connection.Outcome :=
  if found input then .fault (.noChannel c.acceptTimeout)
  else if ends ∨ window ≤ input.length then .fault (.negotiation .disconnected)
  else
    match c.inactivity with
    | some idle =>
      if idle.nanos < c.acceptTimeout.nanos then .fault (.negotiation .deadlineElapsed)
      else .fault (.handshakeTimeout c.acceptTimeout)
    | none => .fault (.handshakeTimeout c.acceptTimeout)

end Greeting

/-! ### Scripts -/

/-- A step of a client. -/
inductive VisitStep
  | noAuth (user : String)
  | password (user password : String)
  | publicKey (user : String) (key : PublicKey)
  | openChannel (kind : ChannelKind)
  | pty (channel : ChannelId) (request : PtyRequest)
  | shell (channel : ChannelId)
  | exec (channel : ChannelId) (command : Bytes)
  | subsystem (channel : ChannelId) (name : String)
  | send (channel : ChannelId) (message : ChannelMessage)
  | forward
  | readPrompt (channel : ChannelId)
  | readClose (channel : ChannelId)
  | disconnect
  | awaitDisconnect
  deriving DecidableEq, Repr

/-- What a client is told. -/
inductive VisitAnswer
  | auth (answer : AuthAnswer)
  | opened (channel : ChannelId)
  | refused (reason : Nat)
  | granted (yes : Bool)
  | sent
  | forwarding (yes : Bool)
  | prompt (output : String)
  | closed (output : String) (afterEnd : Bool)
  | disconnected (reason : Nat) (message language : String)
  deriving DecidableEq, Repr

/-- The reason of a channel that the policy does not open. -/
def prohibited : Nat := 1

/-- The reason of a disconnect by the program. -/
def byApplication : Nat := 11

/-! ### Visits -/

/-- The transport passes the question on only after a login. -/
def Callback.needsLogin : Callback → Bool
  | .password .. => false
  | .publicKey .. => false
  | .authenticated => false
  | _ => true

/-- A visit so far. -/
structure Visit where
  connection : Connection
  /-- The methods that the transport names when it refuses a login itself. -/
  methods : MethodSet
  /-- A login was accepted. -/
  loggedIn : Bool := false
  channels : Nat := 0
  /-- What the client has sent on its channels, in order. -/
  sent : List (ChannelId × ChannelMessage) := []
  /-- How many characters of the board the client has read. -/
  readSoFar : Nat := 0
  /-- How the session has ended. -/
  outcome : Option Connection.Outcome := none

namespace Visit

/-- A visit at the time when the client has come in. -/
def start (server : Server) (clock : Clock) (peer : SocketAddress) : Visit where
  connection :=
    (Connection.start server.policy (some peer) (.ofConfig server.config clock)).look 0
  methods := server.methods

/-- The server has ended the session: it hangs up unless the client has had its answer. -/
def isCut (v : Visit) : Bool :=
  match v.outcome with
  | some (.name _) => false
  | some _ => true
  | none => false

/-- The transport passes a question on. -/
def passes (v : Visit) (question : Callback) : Bool :=
  !v.isCut && (v.loggedIn || !question.needsLogin)

/-- A question to the transport, with the answer of the callback if it is passed on. -/
def ask (v : Visit) (question : Callback) : Option Answer × Visit :=
  if v.passes question then
    let (answer, connection) := v.connection.step ⟨0, .callback question⟩
    (answer, { v with connection })
  else (none, v)

/-- What has reached a channel. -/
def deliveries (v : Visit) (channel : ChannelId) : List Delivery :=
  v.sent.filterMap fun (id, message) => if id = channel then some ⟨0, message⟩ else none

/-- What the board finds on a channel: a client that stays, or one that leaves, to
whom the farewell cannot be sent. -/
def terminal (v : Visit) (leaving : Bool) (id : ChannelId) : Terminal :=
  if leaving then
    let lost i := if i = Board.banner.length then some (.ssh .channelClosed) else none
    { Terminal.ofDeliveries (v.deliveries id) (some 0) with sendFault := lost }
  else Terminal.ofDeliveries (v.deliveries id) none

/-- What the board has written on a channel. -/
def output (v : Visit) (channel : ChannelId) : String :=
  String.join (v.connection.sentOn (v.terminal false) channel)

/-- The text up to the end of the first prompt in it, or all of it. -/
def upToPrompt : List Char → List Char
  | [] => []
  | c :: r =>
    let prompt := "Username: ".toList
    if prompt.isPrefixOf (c :: r) then prompt else c :: upToPrompt r

/-- The client reads what `part` takes of the text that it has not read yet. -/
def readOutput (v : Visit) (channel : ChannelId) (part : List Char → List Char) :
    String × Visit :=
  let unread := part ((v.output channel).toList.drop v.readSoFar)
  (String.ofList unread, { v with readSoFar := v.readSoFar + unread.length })

/-- The end of the session of a client that stays until it is over. -/
def waitForEnd (v : Visit) : Connection.Outcome × Visit :=
  let outcome := v.outcome.getD (v.connection.outcome (v.terminal false))
  (outcome, { v with outcome := some outcome })

/-- The end of the session of a client that leaves now.  It has missed nothing if its
name was answered already. -/
def leave (v : Visit) : Connection.Outcome × Visit :=
  match v.outcome with
  | some outcome => (outcome, v)
  | none =>
    let (_, connection) := v.connection.step ⟨0, .transportGone⟩
    let outcome :=
      match v.connection.outcome (v.terminal false) with
      | .name username => .name username
      | _ => connection.outcome (v.terminal true)
    (outcome, { v with connection, outcome := some outcome })

/-! ### Steps -/

/-- The answer to a login, and the methods that are in force after it. -/
def login (v : Visit) (question : Callback) : VisitAnswer × Visit :=
  match v.ask question with
  | (some (.auth .accept), v') =>
    (.auth .accept, ({ v' with loggedIn := true }.ask .authenticated).2)
  | (some (.auth (.reject methods partly)), v') =>
    (.auth (.reject methods partly), { v' with methods })
  | (_, v') => (.auth (.reject v'.methods false), v')

/-- The answer to a request for a channel. -/
def openChannel (v : Visit) (kind : ChannelKind) : VisitAnswer × Visit :=
  match v.ask (.openChannel kind v.channels) with
  | (some (.granted true), v') => (.opened v.channels, { v' with channels := v.channels + 1 })
  | (_, v') => (.refused prohibited, v')

/-- The answer to a request on a channel. -/
def request (v : Visit) (question : Callback) : VisitAnswer × Visit :=
  match v.ask question with
  | (some (.granted yes), v') => (.granted yes, v')
  | (_, v') => (.granted false, v')

/-- The client sends on a channel.  What it sends after the end is lost. -/
def send (v : Visit) (channel : ChannelId) (message : ChannelMessage) : Visit :=
  if v.outcome.isSome then v else { v with sent := v.sent ++ [(channel, message)] }

/-- What a client that waits for the end is told. -/
def farewellOf : Connection.Outcome → VisitAnswer
  | .fault fault => .disconnected byApplication fault.message "en"
  | _ => .disconnected byApplication "" "en"

/-- One step. -/
def step (v : Visit) : VisitStep → VisitAnswer × Visit
  | .noAuth _ => (.auth (.reject v.methods false), v)
  | .password user pw => v.login (.password user pw)
  | .publicKey user key => v.login (.publicKey user key)
  | .openChannel kind => v.openChannel kind
  | .pty id r => v.request (.pty id r)
  | .shell id => v.request (.shell id)
  | .exec id command => v.request (.exec id command)
  | .subsystem id name => v.request (.subsystem id name)
  | .send id message => (.sent, v.send id message)
  | .forward => (.forwarding false, v)
  | .readPrompt id =>
    let (text, v') := v.readOutput id upToPrompt
    (.prompt text, v')
  | .readClose id =>
    let (text, v') := v.readOutput id fun cs => cs
    (.closed text false, v')
  | .disconnect => (.sent, v.leave.2)
  | .awaitDisconnect => (farewellOf v.waitForEnd.1, v.waitForEnd.2)

/-- The answers to a script, and how the session ended. -/
def play (v : Visit) : List VisitStep → List VisitAnswer × Connection.Outcome
  | [] => ([], v.leave.1)
  | s :: rest =>
    let (answer, v') := v.step s
    let (answers, outcome) := v'.play rest
    (answer :: answers, outcome)

end Visit

/-! ### Callers of a server -/

/-- A caller: a client with a script, or someone who sends bytes and then ends or
stays silent. -/
inductive Caller
  | client (script : List VisitStep)
  | raw (input : Bytes) (ends : Bool)
  deriving DecidableEq, Repr

/-- A visitor: where it comes from, the clock when its session starts, and who it is. -/
structure Visitor where
  peer : SocketAddress
  clock : Clock
  caller : Caller

namespace Server

/-- What a visitor is told, and how its session ends. -/
def receive (s : Server) (w : Visitor) : List VisitAnswer × Connection.Outcome :=
  match w.caller with
  | .client script => (Visit.start s w.clock w.peer).play script
  | .raw input ends => ([], Greeting.outcome s.config input ends)

/-- What visitors are told one after another, if the network lets them reach the
server. -/
def receiveAll (s : Server) (net : Network) (visitors : List Visitor) :
    Option (List (List VisitAnswer × Connection.Outcome)) :=
  if net.reachable ∨ visitors = [] then some (visitors.map s.receive) else none

/-- The records of a server that serves the visitors and then waits for the next one. -/
def loop (s : Server) (visitors : List Visitor) : List Record :=
  loopRecords (visitors.map fun w => (w.peer, (s.receive w).2))

end Server

end Sysop
