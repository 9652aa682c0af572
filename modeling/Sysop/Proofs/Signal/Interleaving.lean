/-
Sysop/Proofs/Signal/Interleaving.lean

A signal and one wait on it, with everything around them in any order.

A `Move` is the smallest thing that can happen: an act on one of the halves, the begin of the
wait, one look of the wait, the clock striking its deadline, or the end of the patience of
whoever waits.  A `Scene` is what there is between two moves, and `record` lists the moves of
a run with their times and with what was heard.  A look sees what has been done to the signal
before it sees the clock.  `does_step` says what a move can do.

A timeline that `wait` plays is one of these runs (`tells_wait`).
-/
import Sysop.Signal

namespace Sysop

namespace Signal

variable {α : Type}

/-! ### Moves -/

/-- What can happen next around a signal and a wait on it. -/
inductive Move (α : Type)
  | act (a : Act α)
  /-- The wait begins: its deadline is set by the clock, and it is looked at. -/
  | wait (clock : Clock) (timeout : Span)
  /-- The wait is looked at again. -/
  | look
  /-- The clock strikes the deadline of the wait, if it has come. -/
  | strike
  /-- Whoever waits gives the wait up. -/
  | giveUp

/-- A move and its time, in milliseconds. -/
structure Moment (α : Type) where
  time : Nat
  move : Move α

/-- What is heard of a move. -/
inductive Heard (α : Type)
  | reply (r : Reply)
  | pending
  | ended (value : Option α)
  deriving DecidableEq, Repr

/-- The deadline of a wait, and whether it has been struck. -/
structure Alarm where
  deadline : Nat
  struck : Bool := false
  deriving DecidableEq, Repr

/-- A signal, and the wait that is under way on it. -/
structure Scene (α : Type) where
  signal : Signal α := {}
  waiting : Option Alarm := none
  deriving DecidableEq, Repr

namespace Scene

/-- The waiter is gone, and with it a wait that was under way. -/
def close (c : Scene α) : Scene α :=
  ⟨c.signal.dropWaiter, none⟩

/-- A wait with the alarm is looked at. -/
def look (c : Scene α) (alarm : Alarm) : Heard α × Scene α :=
  match c.signal.poll with
  | some value => (.ended value, c.close)
  | none =>
    if alarm.struck then (.ended none, c.close) else (.pending, { c with waiting := some alarm })

/-- An act, during the wait or not. -/
def act (c : Scene α) (a : Act α) : Heard α × Scene α :=
  let (r, s) := if c.waiting.isSome then c.signal.during a else c.signal.perform a
  (.reply r, { c with signal := s })

/-- A move at some time: what is heard of it, and the scene after it.  A move of somebody who
is gone does nothing. -/
def step (c : Scene α) (now : Nat) : Move α → Heard α × Scene α
  | .act a => c.act a
  | .wait clock timeout =>
    if c.waiting = none ∧ c.signal.hasWaiter then c.look ⟨now + patience clock timeout, false⟩
    else (.reply .gone, c)
  | .look =>
    match c.waiting with
    | some alarm => c.look alarm
    | none => (.reply .gone, c)
  | .strike =>
    match c.waiting with
    | some alarm =>
      if alarm.deadline ≤ now then
        (.reply (.answer true), { c with waiting := some { alarm with struck := true } })
      else (.reply (.answer false), c)
    | none => (.reply .gone, c)
  | .giveUp =>
    match c.waiting with
    | some _ => (.reply .done, c.close)
    | none => (.reply .gone, c)

/-! ### What a move can do -/

/-- Whoever would make the move is still there. -/
def Can (c : Scene α) : Move α → Prop
  | .act (.notify _) => c.signal.hasNotifier = true
  | .act .isSpent => c.signal.hasNotifier = true
  | .act .dropNotifier => c.signal.hasNotifier = true
  | .act .dropWaiter => c.waiting = none ∧ c.signal.hasWaiter = true
  | .wait _ _ => c.waiting = none ∧ c.signal.hasWaiter = true
  | .look => c.waiting ≠ none
  | .strike => c.waiting ≠ none
  | .giveUp => c.waiting ≠ none

/-- The move looks at a wait with the alarm: one that begins, or one that is under way. -/
inductive LooksAt (c : Scene α) (now : Nat) : Move α → Alarm → Prop
  | begins {clock timeout} (h : c.waiting = none) (hwaiter : c.signal.hasWaiter = true) :
      LooksAt c now (.wait clock timeout) ⟨now + patience clock timeout, false⟩
  | again {alarm} (h : c.waiting = some alarm) : LooksAt c now .look alarm

/-- `Does c now move heard c'`: the move in scene `c` is heard as `heard` and leads to `c'`. -/
inductive Does (c : Scene α) (now : Nat) : Move α → Heard α → Scene α → Prop
  | notify {a} (h : c.signal.hasNotifier = true) :
      Does c now (.act (.notify a)) (.reply (.answer (c.signal.notify a).1))
        { c with signal := (c.signal.notify a).2 }
  | isSpent (h : c.signal.hasNotifier = true) :
      Does c now (.act .isSpent) (.reply (.answer c.signal.spent)) c
  | dropNotifier (h : c.signal.hasNotifier = true) :
      Does c now (.act .dropNotifier) (.reply .done) { c with signal := c.signal.dropNotifier }
  | dropWaiter (h : c.waiting = none) (hwaiter : c.signal.hasWaiter = true) :
      Does c now (.act .dropWaiter) (.reply .done) c.close
  | ends {move alarm value} (h : c.LooksAt now move alarm)
      (hvalue : c.signal.poll = some value ∨
        c.signal.poll = none ∧ alarm.struck = true ∧ value = none) :
      Does c now move (.ended value) c.close
  | pends {move alarm} (h : c.LooksAt now move alarm) (hpoll : c.signal.poll = none)
      (hstruck : alarm.struck = false) :
      Does c now move .pending { c with waiting := some alarm }
  | strikes {alarm} (h : c.waiting = some alarm) (htime : alarm.deadline ≤ now) :
      Does c now .strike (.reply (.answer true))
        { c with waiting := some { alarm with struck := true } }
  | early {alarm} (h : c.waiting = some alarm) (htime : now < alarm.deadline) :
      Does c now .strike (.reply (.answer false)) c
  | givesUp {alarm} (h : c.waiting = some alarm) :
      Does c now .giveUp (.reply .done) c.close
  | nothing {move} (h : ¬ c.Can move) : Does c now move (.reply .gone) c

theorem does_look {c : Scene α} {now : Nat} {move : Move α} {alarm : Alarm}
    (h : c.LooksAt now move alarm) : c.Does now move (c.look alarm).1 (c.look alarm).2 := by
  unfold look
  rcases hpoll : c.signal.poll with - | value
  · cases hstruck : alarm.struck with
    | true => exact .ends h (.inr ⟨hpoll, hstruck, rfl⟩)
    | false => exact .pends h hpoll hstruck
  · exact .ends h (.inl hpoll)

/-- An act of the notifier is the same during a wait and outside of one. -/
theorem act_eq_perform (c : Scene α) {a : Act α} (h : a ≠ .dropWaiter) :
    c.act a = (.reply (c.signal.perform a).1, { c with signal := (c.signal.perform a).2 }) := by
  have hduring : c.signal.during a = c.signal.perform a := by
    cases a with
    | dropWaiter => exact absurd rfl h
    | _ => rfl
  rw [act, hduring, ite_self]

theorem does_act (c : Scene α) (now : Nat) (a : Act α) :
    c.Does now (.act a) (c.act a).1 (c.act a).2 := by
  cases a with
  | notify a =>
    rw [act_eq_perform c (by simp)]
    simp only [perform]
    split
    · rename_i h
      exact .notify h
    · rename_i h
      exact .nothing h
  | isSpent =>
    rw [act_eq_perform c (by simp)]
    simp only [perform]
    split
    · rename_i h
      exact .isSpent h
    · rename_i h
      exact .nothing h
  | dropNotifier =>
    rw [act_eq_perform c (by simp)]
    simp only [perform]
    split
    · rename_i h
      exact .dropNotifier h
    · rename_i h
      exact .nothing h
  | dropWaiter =>
    obtain ⟨s, waiting⟩ := c
    rcases waiting with - | alarm
    · show Does _ now _ (.reply (s.perform .dropWaiter).1) ⟨(s.perform .dropWaiter).2, none⟩
      simp only [perform]
      split
      · rename_i h
        exact .dropWaiter rfl h
      · rename_i h
        exact .nothing fun hcan => h hcan.2
    · -- the wait has used the waiter up, so nobody else can drop it
      exact .nothing fun hcan => nomatch hcan.1

/-- A move does one of the things that `Does` lists. -/
theorem does_step (c : Scene α) (now : Nat) (move : Move α) :
    c.Does now move (c.step now move).1 (c.step now move).2 := by
  cases move with
  | act a => exact c.does_act now a
  | wait clock timeout =>
    simp only [step]
    split
    · rename_i h
      exact does_look (.begins h.1 h.2)
    · rename_i h
      exact .nothing h
  | look =>
    simp only [step]
    split
    · rename_i alarm h
      exact does_look (.again h)
    · rename_i h
      exact .nothing (not_not_intro h)
  | strike =>
    simp only [step]
    split
    · rename_i alarm h
      split
      · rename_i htime
        exact .strikes h htime
      · rename_i htime
        exact .early h (Nat.lt_of_not_le htime)
    · rename_i h
      exact .nothing (not_not_intro h)
  | giveUp =>
    simp only [step]
    split
    · rename_i alarm h
      exact .givesUp h
    · rename_i h
      exact .nothing (not_not_intro h)

/-! ### Runs -/

/-- The scene after moves one after another. -/
def play (c : Scene α) (ms : List (Moment α)) : Scene α :=
  ms.foldl (fun c m => (c.step m.time m.move).2) c

end Scene

/-! ### Records -/

/-- A move that was made, when, and what was heard of it. -/
structure Entry (α : Type) where
  time : Nat
  move : Move α
  heard : Heard α

namespace Scene

/-- A move as an entry. -/
def entry (c : Scene α) (m : Moment α) : Entry α :=
  ⟨m.time, m.move, (c.step m.time m.move).1⟩

/-- All moves of a run as entries. -/
def record (c : Scene α) : List (Moment α) → List (Entry α)
  | [] => []
  | m :: ms => c.entry m :: (c.step m.time m.move).2.record ms

@[simp] theorem play_nil (c : Scene α) : c.play [] = c := rfl

@[simp] theorem play_cons (c : Scene α) (m : Moment α) (ms : List (Moment α)) :
    c.play (m :: ms) = (c.step m.time m.move).2.play ms := rfl

@[simp] theorem record_nil (c : Scene α) : c.record [] = [] := rfl

@[simp] theorem record_cons (c : Scene α) (m : Moment α) (ms : List (Moment α)) :
    c.record (m :: ms) = c.entry m :: (c.step m.time m.move).2.record ms := rfl

theorem play_append (c : Scene α) (ms more : List (Moment α)) :
    c.play (ms ++ more) = (c.play ms).play more :=
  List.foldl_append

theorem record_append (ms more : List (Moment α)) :
    ∀ c : Scene α, c.record (ms ++ more) = c.record ms ++ (c.play ms).record more := by
  induction ms with
  | nil =>
    intro c
    rfl
  | cons m ms ih =>
    intro c
    rw [List.cons_append, record_cons, record_cons, play_cons, ih, List.cons_append]

/-- An entry of a record was made in the scene after the moves of the entries before it. -/
theorem exists_of_record_eq {es : List (Entry α)} {e : Entry α} {more : List (Entry α)}
    {ms : List (Moment α)} {c : Scene α} (h : c.record ms = es ++ e :: more) :
    ∃ before m after, ms = before ++ m :: after ∧ es = c.record before ∧
      e = (c.play before).entry m := by
  induction es generalizing c ms with
  | nil =>
    cases ms with
    | nil => cases h
    | cons m ms =>
      obtain ⟨he, -⟩ := List.cons.inj h
      exact ⟨[], m, ms, rfl, rfl, he.symm⟩
  | cons e' es ih =>
    cases ms with
    | nil => cases h
    | cons m ms =>
      obtain ⟨he, hes⟩ := List.cons.inj h
      obtain ⟨before, m', after, rfl, rfl, rfl⟩ := ih hes
      exact ⟨m :: before, m', after, rfl, by rw [record_cons, he], rfl⟩

end Scene

end Signal

end Sysop
