/-
Sysop/Fault.lean

Everything that can go wrong, by who notices it: the settings, the listener, or
the session with a client.  Each fault has a text, a name for its kind, and the
chain of texts of what lies behind it.
-/
import Sysop.Address
import Sysop.Fault.Io
import Sysop.Span

namespace Sysop

/-! ### The transport -/

/-- A fault of the encrypted transport below a session. -/
inductive TransportFault
  | disconnected
  | hungUp
  | keyExchange
  | inconsistent
  | sendFailed
  | wrongChannel
  | notAuthenticated
  | connectionTimeout
  | inactivityTimeout
  | deadlineElapsed
  | channelClosed
  | badVersion
  | packetSize (n : Nat)
  | io (fault : IoFault)
  deriving DecidableEq, Repr

/-- The text of a transport fault. -/
def TransportFault.message : TransportFault → String
  | .disconnected => "Disconnected"
  | .hungUp => "Connection closed by the remote side"
  | .keyExchange => "Key exchange failed"
  | .inconsistent => "Inconsistent state of the protocol"
  | .sendFailed => "Channel send error"
  | .wrongChannel => "Channel not open"
  | .notAuthenticated => "Not yet authenticated"
  | .connectionTimeout => "Connection timeout"
  | .inactivityTimeout => "Inactivity timeout"
  | .deadlineElapsed => "deadline has elapsed"
  | .channelClosed => "channel closed"
  | .badVersion => "invalid SSH version string"
  | .packetSize n => "Bad packet size: " ++ Numeral.decimal n
  | .io fault => fault.message

/-! ### Settings -/

/-- A fault found while settings are turned into a configuration. -/
inductive ConfigFault
  | hostKey (path : String) (reason : String)
  | allowedKey (reason : String)
  | allowedKeyFile (path : String) (fault : IoFault)
  | invalid (reason : String)
  deriving DecidableEq, Repr

namespace ConfigFault

/-- The text of a fault of the settings. -/
def message : ConfigFault → String
  | .hostKey path reason => "Failed to load host key from " ++ path ++ ": " ++ reason
  | .allowedKey reason => "Invalid allowed public key: " ++ reason
  | .allowedKeyFile path fault =>
    "Failed to read allowed key file " ++ path ++ ": " ++ fault.message
  | .invalid reason => "Invalid configuration: " ++ reason

/-- The name of the kind of fault. -/
def kind : ConfigFault → String
  | .hostKey .. => "HostKey"
  | .allowedKey _ => "AllowedKey"
  | .allowedKeyFile .. => "AllowedKeyFile"
  | .invalid _ => "Invalid"

/-- The texts of what lies behind the fault. -/
def causes : ConfigFault → List String
  | .allowedKeyFile _ fault => [fault.message]
  | _ => []

end ConfigFault

/-! ### The listener -/

/-- A fault of the listener. -/
inductive ServerFault
  | bind (address : SocketAddress) (fault : IoFault)
  | accept (fault : IoFault)
  deriving DecidableEq, Repr

namespace ServerFault

/-- The text of a fault of the listener. -/
def message : ServerFault → String
  | .bind address fault => "Bind failed on " ++ address.text ++ ": " ++ fault.message
  | .accept fault => "Accept failed: " ++ fault.message

/-- The name of the kind of fault. -/
def kind : ServerFault → String
  | .bind .. => "Bind"
  | .accept _ => "Accept"

/-- The texts of what lies behind the fault. -/
def causes : ServerFault → List String
  | .bind _ fault => [fault.message]
  | .accept fault => [fault.message]

end ServerFault

/-! ### Sessions -/

/-- A fault that ends a session. -/
inductive SessionFault
  | negotiation (fault : TransportFault)
  | handshakeTimeout (after : Span)
  | noChannel (after : Span)
  | noShellRequest (after : Span)
  | lineTimeout (after : Span)
  | closed
  | ssh (fault : TransportFault)
  | io (fault : IoFault)
  deriving DecidableEq, Repr

namespace SessionFault

/-- The text of a fault of a session. -/
def message : SessionFault → String
  | .negotiation fault => "SSH negotiation failed: " ++ fault.message
  | .handshakeTimeout after => "No SSH handshake within " ++ after.text
  | .noChannel after => "No channel within " ++ after.text
  | .noShellRequest after => "Client never asked for a shell within " ++ after.text
  | .lineTimeout after => "No input line within " ++ after.text
  | .closed => "Channel closed"
  | .ssh fault => "SSH error: " ++ fault.message
  | .io fault => "I/O error: " ++ fault.message

/-- The name of the kind of fault. -/
def kind : SessionFault → String
  | .negotiation _ => "Negotiation"
  | .handshakeTimeout _ => "HandshakeTimeout"
  | .noChannel _ => "NoChannel"
  | .noShellRequest _ => "NoShellRequest"
  | .lineTimeout _ => "LineTimeout"
  | .closed => "Closed"
  | .ssh _ => "Ssh"
  | .io _ => "Io"

/-- The texts of what lies behind the fault. -/
def causes : SessionFault → List String
  | .negotiation fault => [fault.message]
  | .ssh fault => [fault.message]
  | .io fault => [fault.message]
  | _ => []

end SessionFault

/-! ### All of them -/

/-- A fault of any part of the program. -/
inductive Fault
  | config (fault : ConfigFault)
  | server (fault : ServerFault)
  | session (fault : SessionFault)
  deriving DecidableEq, Repr

namespace Fault

/-- The text of the fault with the part that it comes from in front. -/
def message : Fault → String
  | .config fault => "Configuration error: " ++ fault.message
  | .server fault => "Server error: " ++ fault.message
  | .session fault => "Session error: " ++ fault.message

/-- The name of the part that the fault comes from. -/
def group : Fault → String
  | .config _ => "Config"
  | .server _ => "Server"
  | .session _ => "Session"

/-- The name of the kind of fault within its part. -/
def kind : Fault → String
  | .config fault => fault.kind
  | .server fault => fault.kind
  | .session fault => fault.kind

/-- The texts behind the fault, from the part's own fault inwards. -/
def chain : Fault → List String
  | .config fault => fault.message :: fault.causes
  | .server fault => fault.message :: fault.causes
  | .session fault => fault.message :: fault.causes

end Fault

end Sysop
