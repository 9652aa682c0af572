/-
Sysop/Server.lean

A server that listens, and the record of serving its clients one after another.
-/
import Sysop.Connection
import Sysop.Network
import Sysop.Policy.Board

namespace Sysop

/-- A listening server. -/
structure Server where
  config : Config
  policy : Policy
  /-- Where it listens. -/
  address : SocketAddress
  /-- The methods that a client is offered first. -/
  methods : MethodSet

namespace Server

/-! ### Starting -/

/-- The record of the host key. -/
def keyRecord (c : Config) : Record :=
  ⟨.info, .server, "Read key: " ++ c.hostKey.publicKey.fingerprint⟩

/-- The record of methods that the transport cannot negotiate, if there are any. -/
def methodRecords (ms : List AuthMethod) : List Record :=
  if ms.any fun m => m.transport?.isNone then
    [⟨.debug, .server, "Policy advertises '" ++ AuthMethod.list ms
      ++ "'; the transport negotiates only what it supports"⟩]
  else []

/-- A server with a policy, listening where its configuration says. -/
def bindWith (net : Network) (c : Config) (policy : Policy) :
    Logged (Except ServerFault (Server × Network)) :=
  let advertised := policy.allowedAuths ""
  let records := keyRecord c :: methodRecords advertised
  match net.listen c.address with
  | .error fault => ⟨.error (.bind c.address fault), records⟩
  | .ok (address, net') =>
    ⟨.ok (⟨c, policy, address, AuthMethod.transportMethods advertised⟩, net'), records⟩

/-- A server with the policy of the board. -/
def bind (net : Network) (c : Config) : Logged (Except ServerFault (Server × Network)) :=
  bindWith net c (BoardPolicy.ofConfig c).toPolicy

/-! ### Serving -/

/-- The record of waiting for a client. -/
def listeningRecord : Record :=
  ⟨.info, .server, "Listening for connection ..."⟩

/-- The record of a client that has come. -/
def arrivedRecord (peer : SocketAddress) : Record :=
  ⟨.info, .server, "Got a connection from " ++ peer.text⟩

/-- The record of the end of a session. -/
def endedRecord (peer : SocketAddress) : Connection.Outcome → List Record
  | .name username =>
    [⟨.info, .server, "Session with " ++ peer.text ++ " (" ++ username ++ ") complete"⟩]
  | .fault fault =>
    [⟨.error, .server, "*** Connection from " ++ peer.text ++ " dropped: " ++ fault.message⟩]
  | .clockOverflow => []

/-- The records of serving clients one after another and then waiting for the next
one.  A session that the clock stops takes the server down with it. -/
def loopRecords : List (SocketAddress × Connection.Outcome) → List Record
  | [] => [listeningRecord]
  | (peer, .clockOverflow) :: _ => [listeningRecord, arrivedRecord peer]
  | (peer, outcome) :: rest =>
    listeningRecord :: arrivedRecord peer :: endedRecord peer outcome ++ loopRecords rest

end Server

end Sysop
