/-
Sysop/Terminal.lean

What a session talks to: chunks of input that arrive in time, an end of the input
or silence, and faults of sending and closing.

A channel delivers messages.  Only its data is input: other messages are passed
over, and the first end of input or close ends what a reader gets.
-/
import Sysop.Fault
import Sysop.Text.Utf8

namespace Sysop

/-- A chunk of input and how many milliseconds a reader waits for it. -/
structure Arrival where
  wait : Nat
  data : Bytes
  deriving DecidableEq, Repr

/-- The other side of a session. -/
structure Terminal where
  arrivals : List Arrival
  /-- How long a reader waits for the end of the input after the last chunk, or
  `none` if the other side stays silent. -/
  ending : Option Nat := some 0
  /-- The fault of the send with the given index. -/
  sendFault : Nat → Option SessionFault := fun _ => none
  /-- The fault of closing. -/
  closeFault : Option SessionFault := none

/-! ### Messages of a channel -/

/-- A message that a channel delivers. -/
inductive ChannelMessage
  | data (bytes : Bytes)
  | endOfInput
  | close
  | other
  deriving DecidableEq, Repr

/-- A message and the milliseconds since the one before it. -/
structure Delivery where
  wait : Nat
  message : ChannelMessage
  deriving DecidableEq, Repr

namespace Delivery

/-- What a reader gets from deliveries when it has waited already: the chunks, and
the wait for the end.  `hangUp` is the wait for the end of the channel itself. -/
def arrivalsFrom (hangUp : Option Nat) (waited : Nat) :
    List Delivery → List Arrival × Option Nat
  | [] => ([], hangUp.map (waited + ·))
  | ⟨w, .data bytes⟩ :: r =>
    let (arrivals, ending) := arrivalsFrom hangUp 0 r
    (⟨waited + w, bytes⟩ :: arrivals, ending)
  | ⟨w, .endOfInput⟩ :: _ => ([], some (waited + w))
  | ⟨w, .close⟩ :: _ => ([], some (waited + w))
  | ⟨w, .other⟩ :: r => arrivalsFrom hangUp (waited + w) r

end Delivery

/-- The terminal of a channel that delivers messages and then hangs up or stays
silent. -/
def Terminal.ofDeliveries (ds : List Delivery) (hangUp : Option Nat) : Terminal :=
  let (arrivals, ending) := Delivery.arrivalsFrom hangUp 0 ds
  { arrivals, ending }

end Sysop
