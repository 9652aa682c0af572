/-
Sysop/Signal.lean

A one-shot signal: a notifier and a waiter that share one value.

Only the first `notify` can deliver, and it does if the waiter is still there.  A
wait ends with the value, with nothing as soon as the notifier is dropped unused,
or with nothing at its deadline.  `wait` plays a timeline of acts against one wait;
whoever looks at the waiter sees a value before the clock, so an act at the very
deadline still counts.
-/
import Sysop.Clock

namespace Sysop

/-- The state that the two halves share. -/
structure Signal (α : Type) where
  /-- The delivered value that nobody has taken yet. -/
  value : Option α := none
  /-- The notifier has been used. -/
  spent : Bool := false
  /-- The notifier has not been dropped. -/
  hasNotifier : Bool := true
  /-- The waiter has neither been dropped nor used up. -/
  hasWaiter : Bool := true
  deriving DecidableEq, Repr

namespace Signal

variable {α : Type}

/-! ### The two halves -/

/-- Deliver a value.  The answer says whether it was delivered. -/
def notify (s : Signal α) (a : α) : Bool × Signal α :=
  if s.spent then (false, s)
  else (s.hasWaiter, { s with spent := true, value := if s.hasWaiter then some a else none })

/-- The notifier goes away. -/
def dropNotifier (s : Signal α) : Signal α :=
  { s with hasNotifier := false }

/-- The waiter goes away, with the value if it holds one. -/
def dropWaiter (s : Signal α) : Signal α :=
  { s with hasWaiter := false, value := none }

/-- What a wait that looks now ends with, if it ends now. -/
def poll (s : Signal α) : Option (Option α) :=
  match s.value with
  | some a => some (some a)
  | none => if s.hasNotifier then none else some none

/-! ### Acts -/

/-- What can be done with the two halves, a wait aside. -/
inductive Act (α : Type)
  | notify (a : α)
  | isSpent
  | dropNotifier
  | dropWaiter
  deriving DecidableEq, Repr

/-- The answer to an act. -/
inductive Reply
  | answer (yes : Bool)
  | done
  | gone
  deriving DecidableEq, Repr

/-- An act: its answer and the state after it.  A half that is gone does nothing. -/
def perform (s : Signal α) : Act α → Reply × Signal α
  | .notify a =>
    if s.hasNotifier then
      let (delivered, s') := s.notify a
      (.answer delivered, s')
    else (.gone, s)
  | .isSpent => if s.hasNotifier then (.answer s.spent, s) else (.gone, s)
  | .dropNotifier => if s.hasNotifier then (.done, s.dropNotifier) else (.gone, s)
  | .dropWaiter => if s.hasWaiter then (.done, s.dropWaiter) else (.gone, s)

/-- The acts one after another: their answers and the state after them. -/
def performAll (s : Signal α) : List (Act α) → List Reply × Signal α
  | [] => ([], s)
  | act :: rest =>
    let (reply, s') := s.perform act
    let (replies, s'') := s'.performAll rest
    (reply :: replies, s'')

/-! ### Waiting -/

/-- An act and the time at which it happens, in milliseconds. -/
structure Timed (α : Type) where
  time : Nat
  act : Act α
  deriving DecidableEq, Repr

/-- How a wait went: what it ended with, when, the answers to the acts around it,
and the state in the end. -/
structure Waited (α : Type) where
  value : Option α
  ended : Nat
  replies : List Reply
  state : Signal α
  deriving DecidableEq, Repr

/-- The wait is over; the acts left over meet a signal without a waiter. -/
def finish (s : Signal α) (value : Option α) (ended : Nat) (acts : List (Timed α)) :
    Waited α :=
  let (replies, state) := s.dropWaiter.performAll (acts.map (·.act))
  ⟨value, ended, replies, state⟩

/-- An act during a wait.  The wait has used up the waiter, so nobody else holds
it. -/
def during (s : Signal α) : Act α → Reply × Signal α
  | .dropWaiter => (.gone, s)
  | act => s.perform act

/-- A wait from `now` to the deadline while acts happen in the order of their
times. -/
def wait (s : Signal α) (now deadline : Nat) : List (Timed α) → Waited α
  | [] =>
    match s.poll with
    | some value => s.finish value now []
    | none => s.finish none deadline []
  | t :: rest =>
    match s.poll with
    | some value => s.finish value now (t :: rest)
    | none =>
      if t.time ≤ deadline then
        let (reply, s') := s.during t.act
        let w := s'.wait (max now t.time) deadline rest
        { w with replies := reply :: w.replies }
      else s.finish none deadline (t :: rest)

/-- How long a wait that starts now lasts at most, in milliseconds.  A deadline that
the clock cannot show is put far away. -/
def patience (clock : Clock) (timeout : Span) : Nat :=
  clock.timer (if clock.Reaches timeout then timeout else clock.farFuture)

/-! ### Small facts -/

theorem patience_of_reaches {clock : Clock} {timeout : Span} (h : clock.Reaches timeout) :
    patience clock timeout = timeout.ceilMillis := by
  rw [patience, if_pos h, clock.timer_eq]

/-- A used notifier stays used. -/
theorem spent_notify (s : Signal α) (a : α) : (s.notify a).2.spent = true := by
  unfold notify
  split <;> simp_all

/-- A used notifier delivers nothing. -/
theorem notify_of_spent {s : Signal α} (h : s.spent = true) (a : α) :
    s.notify a = (false, s) := by
  simp [notify, h]

end Signal

end Sysop
