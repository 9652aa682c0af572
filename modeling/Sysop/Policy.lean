/-
Sysop/Policy.lean

What a server lets its clients do.

A policy answers every question that a connection can ask: which ways to log in a
user has, whether a login, a channel or a request is granted.  Methods have names;
the transport below knows only some of them.  It is handed these in order, and makes
a set of them that it lists in its own way.
-/
import Sysop.Key.Public
import Sysop.Log
import Sysop.Text.Quoted

namespace Sysop

/-! ### Decisions -/

/-- The answer to a login. -/
inductive AuthDecision
  | accept
  | reject
  deriving DecidableEq, Repr

namespace AuthDecision

/-- The login is accepted. -/
def isAccept : AuthDecision → Bool
  | .accept => true
  | .reject => false

/-- The decision that grants a login if the condition holds. -/
def ofBool (b : Bool) : AuthDecision :=
  if b then .accept else .reject

/-- The name of a decision. -/
def name : AuthDecision → String
  | .accept => "Accept"
  | .reject => "Reject"

theorem ofBool_eq_accept_iff {b : Bool} : ofBool b = .accept ↔ b = true := by
  cases b <;> simp [ofBool]

end AuthDecision

/-! ### Ways to log in -/

/-- A way to log in. -/
inductive AuthMethod
  | gssapiKeyex
  | gssapiWithMic
  | password
  | publicKey
  deriving DecidableEq, Repr

/-- A way to log in that the transport can negotiate. -/
inductive TransportMethod
  | password
  | publicKey
  deriving DecidableEq, Repr

/-- The name of a method of the transport. -/
def TransportMethod.name : TransportMethod → String
  | .password => "password"
  | .publicKey => "publickey"

/-- A set of methods of the transport: the methods that it was made of, in order. -/
structure MethodSet where
  made : List TransportMethod
  deriving DecidableEq, Repr

namespace MethodSet

/-- Each element once, at its last place. -/
def keepLast : List TransportMethod → List TransportMethod
  | [] => []
  | m :: r => if m ∈ r then keepLast r else m :: keepLast r

/-- One way to list a set: each method once, at the last place where it was named. -/
def listLast (s : MethodSet) : List TransportMethod :=
  keepLast s.made

end MethodSet

namespace AuthMethod

/-- Every way to log in. -/
def all : List AuthMethod := [.gssapiKeyex, .gssapiWithMic, .password, .publicKey]

/-- The name of a method. -/
def name : AuthMethod → String
  | .gssapiKeyex => "gssapi-keyex"
  | .gssapiWithMic => "gssapi-with-mic"
  | .password => "password"
  | .publicKey => "publickey"

/-- The name of a method as reports show it. -/
def report : AuthMethod → String
  | .gssapiKeyex => "GssapiKeyex"
  | .gssapiWithMic => "GssapiWithMic"
  | .password => "Password"
  | .publicKey => "PublicKey"

/-- The method with a name. -/
def ofName? (s : String) : Option AuthMethod :=
  all.find? (·.name = s)

/-- The transport's method for a way to log in. -/
def transport? : AuthMethod → Option TransportMethod
  | .password => some .password
  | .publicKey => some .publicKey
  | .gssapiKeyex => none
  | .gssapiWithMic => none

/-- The names of methods with commas between them. -/
def list (ms : List AuthMethod) : String :=
  String.intercalate "," (ms.map name)

/-- The set of the methods that the transport can negotiate. -/
def transportMethods (ms : List AuthMethod) : MethodSet :=
  ⟨ms.filterMap transport?⟩

end AuthMethod

/-- How a login by a third party went about it. -/
inductive GssapiMethod
  | keyExchange
  | withMic
  deriving DecidableEq, Repr

/-- How a login by a third party ended. -/
inductive GssapiStatus
  | succeeded
  | failed
  deriving DecidableEq, Repr

/-! ### Channels and requests -/

/-- A kind of channel that a client can ask for. -/
inductive ChannelKind
  | session
  | x11
  | directTcpip
  | forwardedTcpip
  deriving DecidableEq, Repr

namespace ChannelKind

/-- Every kind of channel. -/
def all : List ChannelKind := [.session, .x11, .directTcpip, .forwardedTcpip]

/-- The name of a kind of channel. -/
def name : ChannelKind → String
  | .session => "session"
  | .x11 => "x11"
  | .directTcpip => "direct-tcpip"
  | .forwardedTcpip => "forwarded-tcpip"

/-- The name of a kind of channel as reports show it. -/
def report : ChannelKind → String
  | .session => "Session"
  | .x11 => "X11"
  | .directTcpip => "DirectTcpip"
  | .forwardedTcpip => "ForwardedTcpip"

/-- The kind with a name. -/
def ofName? (s : String) : Option ChannelKind :=
  all.find? (·.name = s)

end ChannelKind

/-- The answer to a request for a channel. -/
inductive ChannelDecision
  | accept
  | administrativelyProhibited
  deriving DecidableEq, Repr

/-- The name of an answer as reports show it. -/
def ChannelDecision.name : ChannelDecision → String
  | .accept => "Accept"
  | .administrativelyProhibited => "AdministrativelyProhibited"

/-- A request for a terminal of some size. -/
structure PtyRequest where
  term : String
  cols : Nat
  rows : Nat
  pixelWidth : Nat
  pixelHeight : Nat
  deriving DecidableEq, Repr

/-- The request as reports show it. -/
def PtyRequest.report (r : PtyRequest) : String :=
  "PtyRequest \x7b term: " ++ Text.quote r.term ++ ", cols: " ++ Numeral.decimal r.cols
    ++ ", rows: " ++ Numeral.decimal r.rows ++ ", pixel_width: " ++ Numeral.decimal r.pixelWidth
    ++ ", pixel_height: " ++ Numeral.decimal r.pixelHeight ++ " \x7d"

/-! ### Policies -/

/-- A third party's word is taken as it is. -/
def AuthDecision.ofGssapi : GssapiStatus → AuthDecision
  | .succeeded => .accept
  | .failed => .reject

/-- What a server lets its clients do. -/
structure Policy where
  allowedAuths : String → List AuthMethod
  password : String → String → Logged AuthDecision
  publicKey : String → PublicKey → Logged AuthDecision
  gssapi : String → GssapiMethod → GssapiStatus → AuthDecision := fun _ _ s => .ofGssapi s
  channel : ChannelKind → ChannelDecision
  pty : PtyRequest → Bool
  shell : Bool
  exec : Bytes → Bool := fun _ => false
  subsystem : String → Bool := fun _ => false

end Sysop
