/-
Sysop/Network.lean

The host's side of listening: which addresses a socket can be bound to, which
ports are kept for the system, and who listens already.
-/
import Sysop.Address
import Sysop.Fault.Io

namespace Sysop

/-- A host's network. -/
structure Network where
  /-- Why a socket cannot be bound to an address. -/
  refuses : IpAddress → Option IoFault
  /-- The ports below this one are kept for the system. -/
  firstOpenPort : Nat := 1024
  /-- The port that is given out when none is asked for. -/
  freePort : UInt16 := 32768
  /-- Where someone listens already. -/
  listening : List SocketAddress := []
  /-- Clients can reach a listener. -/
  reachable : Bool

namespace Network

/-- The port of an address, or a free one if it has none. -/
def assign (net : Network) (a : SocketAddress) : SocketAddress :=
  if a.port = 0 then { a with port := net.freePort } else a

/-- Listen on an address: the address with its port, and the network afterwards. -/
def listen (net : Network) (a : SocketAddress) : Except IoFault (SocketAddress × Network) :=
  match net.refuses a.ip with
  | some fault => .error fault
  | none =>
    if a.port ≠ 0 ∧ a.port.toNat < net.firstOpenPort then .error .accessDenied
    else
      let bound := net.assign a
      if bound ∈ net.listening then .error .addressInUse
      else .ok (bound, { net with listening := bound :: net.listening })

/-! ### A host without interfaces -/

/-- Why a host none of whose interfaces is up refuses an address of version 6 with
the given groups.  It takes the address that stands for all of them, groups of
hosts, and addresses of version 4 in the form of version 6; one that is valid on
one link only needs the link to be named. -/
def refusesGroups (gs : List Nat) : Option IoFault :=
  let front := gs.headD 0
  if gs.all (· = 0) then none
  else if 0xFF00 ≤ front then none
  else if gs.take 6 = [0, 0, 0, 0, 0, 0xFFFF] then none
  else if 0xFE80 ≤ front ∧ front < 0xFEC0 then some .invalidArgument
  else some .addressNotAvailable

/-- A host none of whose interfaces is up: without routes it cannot tell which
addresses of version 4 are its own and takes them all, and nobody can reach it. -/
def isolated : Network where
  refuses
    | .v4 .. => none
    | .v6 groups => refusesGroups (IpAddress.groupValues groups)
  reachable := false

/-! ### A host that clients can reach -/

/-- A host that takes every address for its own and that clients can reach. -/
def welcoming : Network where
  refuses _ := none
  reachable := true

end Network

end Sysop
