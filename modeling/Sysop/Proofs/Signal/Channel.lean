/-
Sysop/Proofs/Signal/Channel.lean

A signal as it is built on the one-shot channel and the time limit of a library.

A channel has a sender and a receiver, and each is used up by its use.  So few states can be
told apart, and few promises say all that is relied on (`Channel`):

* a value that is sent is taken unless the receiver was dropped;
* the receiver finds nothing as long as nothing was done, then the value, or that there will be
  none because the sender was dropped unused.

A time limit looks at what it limits before it looks at the clock (`Limit`).  The notifier of a
signal holds the sender until it notifies, the waiter holds the receiver, and a wait puts the
receiver under a limit.

Main result: `record_eq`.  Whatever library keeps these promises, nobody can tell the signal that
is built on it from `Signal`, so it is heard once, and on time.
-/
import Sysop.Proofs.Signal.OneShot
import Sysop.Proofs.Signal.Punctual

namespace Sysop

namespace Signal

/-! ### What a library promises -/

/-- What can be done with the ends of a channel. -/
inductive Use (α : Type)
  | send (a : α)
  | dropSender
  | dropReceiver

/-- A channel for one value.  A look of the receiver finds nothing yet, or the value, or that
there will be none. -/
structure Channel (α : Type) where
  State : Type
  fresh : State
  use : State → Use α → State
  /-- A value that is sent now is taken. -/
  takes : State → Bool
  look : State → Option (Option α)
  takes_fresh : takes fresh = true
  takes_unheard : takes (use fresh .dropReceiver) = false
  look_fresh : look fresh = none
  look_sent : ∀ a, look (use fresh (.send a)) = some (some a)
  look_unsent : look (use fresh .dropSender) = some none

/-- A time limit on something that is waited for.  It is told what a look at it finds and whether
the deadline has been struck, and it ends with what was found, or with nothing. -/
structure Limit (β : Type) where
  look : Option β → Bool → Option (Option β)
  look_found : ∀ b struck, look (some b) struck = some (some b)
  look_struck : look none true = some none
  look_pending : look none false = none

variable {α : Type}

/-! ### The signal on a channel -/

/-- The two halves of a signal on a channel. -/
structure Pair (ch : Channel α) where
  channel : ch.State := ch.fresh
  /-- The notifier holds the sender. -/
  hasSender : Bool := true
  hasNotifier : Bool := true
  hasWaiter : Bool := true

namespace Pair

variable {ch : Channel α}

/-- Send a value if the sender is still there. -/
def notify (p : Pair ch) (a : α) : Bool × Pair ch :=
  if p.hasSender then
    (ch.takes p.channel, { p with channel := ch.use p.channel (.send a), hasSender := false })
  else (false, p)

/-- The notifier goes away, with the sender if it holds it. -/
def dropNotifier (p : Pair ch) : Pair ch :=
  { p with
    channel := if p.hasSender then ch.use p.channel .dropSender else p.channel
    hasSender := false
    hasNotifier := false }

/-- The waiter goes away with the receiver. -/
def dropWaiter (p : Pair ch) : Pair ch :=
  { p with channel := ch.use p.channel .dropReceiver, hasWaiter := false }

/-- An act: its answer and the halves after it. -/
def perform (p : Pair ch) : Act α → Reply × Pair ch
  | .notify a =>
    if p.hasNotifier then (.answer (p.notify a).1, (p.notify a).2) else (.gone, p)
  | .isSpent => if p.hasNotifier then (.answer !p.hasSender, p) else (.gone, p)
  | .dropNotifier => if p.hasNotifier then (.done, p.dropNotifier) else (.gone, p)
  | .dropWaiter => if p.hasWaiter then (.done, p.dropWaiter) else (.gone, p)

end Pair

/-- The halves, and the wait that is under way on them. -/
structure Booth (ch : Channel α) where
  pair : Pair ch := {}
  waiting : Option Alarm := none

namespace Booth

variable {ch : Channel α}

/-- The wait is over, and the receiver goes with it. -/
def close (b : Booth ch) : Booth ch :=
  ⟨b.pair.dropWaiter, none⟩

/-- A wait is looked at: the limit is told what the receiver finds.  That there will be no value
and that the time is over are the same to whoever waits. -/
def look (b : Booth ch) (limit : Limit (Option α)) (alarm : Alarm) : Heard α × Booth ch :=
  match limit.look (ch.look b.pair.channel) alarm.struck with
  | some (some value) => (.ended value, b.close)
  | some none => (.ended none, b.close)
  | none => (.pending, { b with waiting := some alarm })

/-- A move at some time: what is heard of it, and the booth after it. -/
def step (b : Booth ch) (limit : Limit (Option α)) (now : Nat) : Move α → Heard α × Booth ch
  | .act .dropWaiter =>
    if b.waiting.isSome then (.reply .gone, b)
    else (.reply (b.pair.perform .dropWaiter).1, { b with pair := (b.pair.perform .dropWaiter).2 })
  | .act a => (.reply (b.pair.perform a).1, { b with pair := (b.pair.perform a).2 })
  | .wait clock timeout =>
    if b.waiting = none ∧ b.pair.hasWaiter then
      b.look limit ⟨now + patience clock timeout, false⟩
    else (.reply .gone, b)
  | .look =>
    match b.waiting with
    | some alarm => b.look limit alarm
    | none => (.reply .gone, b)
  | .strike =>
    match b.waiting with
    | some alarm =>
      if alarm.deadline ≤ now then
        (.reply (.answer true), { b with waiting := some { alarm with struck := true } })
      else (.reply (.answer false), b)
    | none => (.reply .gone, b)
  | .giveUp =>
    match b.waiting with
    | some _ => (.reply .done, b.close)
    | none => (.reply .gone, b)

/-- All moves of a run as entries. -/
def record (b : Booth ch) (limit : Limit (Option α)) : List (Moment α) → List (Entry α)
  | [] => []
  | m :: ms =>
    ⟨m.time, m.move, (b.step limit m.time m.move).1⟩
      :: (b.step limit m.time m.move).2.record limit ms

end Booth

/-! ### What the halves stand for -/

/-- `StandsFor p s`: the halves `p` on a channel are in the state that `s` describes.  There is
one case for each stage in the life of a channel; once nobody receives, it does not matter what
the channel holds. -/
inductive StandsFor (ch : Channel α) : Pair ch → Signal α → Prop
  | fresh : StandsFor ch ⟨ch.fresh, true, true, true⟩ ⟨none, false, true, true⟩
  | unheard :
      StandsFor ch ⟨ch.use ch.fresh .dropReceiver, true, true, false⟩ ⟨none, false, true, false⟩
  | sent {state : ch.State} {a : α} (notifier : Bool) :
      ch.look state = some (some a) →
        StandsFor ch ⟨state, false, notifier, true⟩ ⟨some a, true, notifier, true⟩
  | unsent {state : ch.State} :
      ch.look state = some none →
        StandsFor ch ⟨state, false, false, true⟩ ⟨none, false, false, true⟩
  | deaf {state : ch.State} (spent notifier : Bool) :
      (notifier = true → spent = true) →
        StandsFor ch ⟨state, false, notifier, false⟩ ⟨none, spent, notifier, false⟩

namespace StandsFor

variable {ch : Channel α} {p : Pair ch} {s : Signal α}

theorem hasWaiter_eq (h : StandsFor ch p s) : p.hasWaiter = s.hasWaiter := by
  cases h <;> rfl

theorem hasNotifier_eq (h : StandsFor ch p s) : p.hasNotifier = s.hasNotifier := by
  cases h <;> rfl

/-- The receiver finds what a look at the signal finds. -/
theorem look_eq (h : StandsFor ch p s) (hwaiter : s.hasWaiter = true) :
    ch.look p.channel = s.poll := by
  cases h with
  | fresh => exact ch.look_fresh
  | unheard => cases hwaiter
  | sent notifier hlook => exact hlook
  | unsent hlook => exact hlook
  | deaf spent notifier hspent => cases hwaiter

theorem notify (h : StandsFor ch p s) (hnotifier : s.hasNotifier = true) (a : α) :
    (p.notify a).1 = (s.notify a).1 ∧ StandsFor ch (p.notify a).2 (s.notify a).2 := by
  cases h with
  | fresh => exact ⟨ch.takes_fresh, .sent true (ch.look_sent a)⟩
  | unheard => exact ⟨ch.takes_unheard, .deaf true true fun _ => rfl⟩
  | sent notifier hlook => exact ⟨rfl, .sent notifier hlook⟩
  | unsent hlook => cases hnotifier
  | deaf spent notifier hspent =>
    obtain rfl : spent = true := hspent hnotifier
    exact ⟨rfl, .deaf true notifier hspent⟩

theorem spent_eq (h : StandsFor ch p s) (hnotifier : s.hasNotifier = true) :
    (!p.hasSender) = s.spent := by
  cases h with
  | unsent hlook => cases hnotifier
  | deaf spent notifier hspent => exact (hspent hnotifier).symm
  | _ => rfl

theorem dropNotifier (h : StandsFor ch p s) : StandsFor ch p.dropNotifier s.dropNotifier := by
  cases h with
  | fresh => exact .unsent ch.look_unsent
  | unheard => exact .deaf false false nofun
  | sent notifier hlook => exact .sent false hlook
  | unsent hlook => exact .unsent hlook
  | deaf spent notifier hspent => exact .deaf spent false nofun

theorem dropWaiter (h : StandsFor ch p s) (hwaiter : s.hasWaiter = true) :
    StandsFor ch p.dropWaiter s.dropWaiter := by
  cases h with
  | fresh => exact .unheard
  | unheard => cases hwaiter
  | sent notifier hlook => exact .deaf true notifier fun _ => rfl
  | unsent hlook => exact .deaf false false nofun
  | deaf spent notifier hspent => cases hwaiter

/-- An act is answered alike and leads to halves that stand for the signal after it. -/
theorem perform (h : StandsFor ch p s) (a : Act α) :
    (p.perform a).1 = (s.perform a).1 ∧ StandsFor ch (p.perform a).2 (s.perform a).2 := by
  cases a with
  | notify a =>
    simp only [Pair.perform, Signal.perform, h.hasNotifier_eq]
    split
    · rename_i hnotifier
      obtain ⟨hanswer, hafter⟩ := h.notify hnotifier a
      exact ⟨congrArg Reply.answer hanswer, hafter⟩
    · exact ⟨rfl, h⟩
  | isSpent =>
    simp only [Pair.perform, Signal.perform, h.hasNotifier_eq]
    split
    · rename_i hnotifier
      exact ⟨congrArg Reply.answer (h.spent_eq hnotifier), h⟩
    · exact ⟨rfl, h⟩
  | dropNotifier =>
    simp only [Pair.perform, Signal.perform, h.hasNotifier_eq]
    split
    · exact ⟨rfl, h.dropNotifier⟩
    · exact ⟨rfl, h⟩
  | dropWaiter =>
    simp only [Pair.perform, Signal.perform, h.hasWaiter_eq]
    split
    · rename_i hwaiter
      exact ⟨rfl, h.dropWaiter hwaiter⟩
    · exact ⟨rfl, h⟩

end StandsFor

/-! ### Nobody can tell -/

/-- A booth stands for a scene: the halves for the signal, with the same wait under way.  The wait
holds the waiter. -/
structure Plays {ch : Channel α} (b : Booth ch) (c : Scene α) : Prop where
  pair : StandsFor ch b.pair c.signal
  waiting : b.waiting = c.waiting
  holds : c.waiting ≠ none → c.signal.hasWaiter = true

namespace Plays

variable {ch : Channel α} {b : Booth ch} {c : Scene α}

theorem close (h : Plays b c) (hwaiter : c.signal.hasWaiter = true) : Plays b.close c.close where
  pair := h.pair.dropWaiter hwaiter
  waiting := rfl
  holds := fun hwaiting => absurd rfl hwaiting

/-- The receiver is found as the signal is, and the limit looks at it first. -/
theorem look (h : Plays b c) (hwaiter : c.signal.hasWaiter = true) (limit : Limit (Option α))
    (alarm : Alarm) :
    (b.look limit alarm).1 = (c.look alarm).1 ∧ Plays (b.look limit alarm).2 (c.look alarm).2 := by
  unfold Booth.look Scene.look
  rw [h.pair.look_eq hwaiter]
  cases c.signal.poll with
  | some value =>
    rw [limit.look_found]
    exact ⟨rfl, h.close hwaiter⟩
  | none =>
    cases alarm.struck with
    | true =>
      rw [limit.look_struck]
      exact ⟨rfl, h.close hwaiter⟩
    | false =>
      rw [limit.look_pending]
      exact ⟨rfl, h.pair, rfl, fun _ => hwaiter⟩

/-- Whoever notifies does not touch the waiter. -/
theorem hasWaiter_perform (s : Signal α) {a : Act α} (ha : a ≠ .dropWaiter) :
    (s.perform a).2.hasWaiter = s.hasWaiter := by
  cases a with
  | notify a =>
    simp only [perform, notify]
    split
    · split <;> rfl
    · rfl
  | isSpent =>
    simp only [perform]
    split <;> rfl
  | dropNotifier =>
    simp only [perform]
    split <;> rfl
  | dropWaiter => exact absurd rfl ha

/-- An act of the notifier is the same during a wait and outside of one. -/
theorem act (h : Plays b c) (limit : Limit (Option α)) (now : Nat) {a : Act α}
    (ha : a ≠ .dropWaiter) :
    (b.step limit now (.act a)).1 = (c.act a).1 ∧
      Plays (b.step limit now (.act a)).2 (c.act a).2 := by
  have hstep : b.step limit now (.act a)
      = (.reply (b.pair.perform a).1, { b with pair := (b.pair.perform a).2 }) := by
    cases a with
    | dropWaiter => exact absurd rfl ha
    | _ => rfl
  obtain ⟨hreply, hafter⟩ := h.pair.perform a
  rw [hstep, c.act_eq_perform ha, hreply]
  refine ⟨rfl, hafter, h.waiting, fun hwaiting => ?_⟩
  rw [hasWaiter_perform c.signal ha]
  exact h.holds hwaiting

/-- A move is heard alike and leads to a booth that stands for the scene after it. -/
theorem step (h : Plays b c) (limit : Limit (Option α)) (now : Nat) (move : Move α) :
    (b.step limit now move).1 = (c.step now move).1 ∧
      Plays (b.step limit now move).2 (c.step now move).2 := by
  cases move with
  | act a =>
    cases a with
    | dropWaiter =>
      obtain ⟨pair, waiting⟩ := b
      obtain ⟨s, waiting'⟩ := c
      obtain rfl : waiting = waiting' := h.waiting
      cases waiting with
      | some alarm => exact ⟨rfl, h⟩
      | none =>
        obtain ⟨hreply, hafter⟩ := h.pair.perform .dropWaiter
        exact ⟨congrArg Heard.reply hreply, hafter, rfl, fun hne => absurd rfl hne⟩
    | notify a => exact h.act limit now (by simp)
    | isSpent => exact h.act limit now (by simp)
    | dropNotifier => exact h.act limit now (by simp)
  | wait clock timeout =>
    simp only [Booth.step, Scene.step, h.waiting, h.pair.hasWaiter_eq]
    split
    · rename_i hfree
      exact h.look hfree.2 limit _
    · exact ⟨rfl, h⟩
  | look =>
    simp only [Booth.step, Scene.step, h.waiting]
    cases hwaiting : c.waiting with
    | some alarm => exact h.look (h.holds (by simp [hwaiting])) limit alarm
    | none => exact ⟨rfl, h⟩
  | strike =>
    simp only [Booth.step, Scene.step, h.waiting]
    cases hwaiting : c.waiting with
    | some alarm =>
      have hwaiter : c.signal.hasWaiter = true := h.holds (by simp [hwaiting])
      dsimp only
      split
      · exact ⟨rfl, h.pair, rfl, fun _ => hwaiter⟩
      · exact ⟨rfl, h⟩
    | none => exact ⟨rfl, h⟩
  | giveUp =>
    simp only [Booth.step, Scene.step, h.waiting]
    cases hwaiting : c.waiting with
    | some alarm => exact ⟨rfl, h.close (h.holds (by simp [hwaiting]))⟩
    | none => exact ⟨rfl, h⟩

theorem record (limit : Limit (Option α)) (ms : List (Moment α)) :
    ∀ {b : Booth ch} {c : Scene α}, Plays b c → b.record limit ms = c.record ms := by
  induction ms with
  | nil =>
    intro b c _
    rfl
  | cons m ms ih =>
    intro b c h
    obtain ⟨hheard, hafter⟩ := h.step limit m.time m.move
    rw [Booth.record, Scene.record_cons, ih hafter, hheard, Scene.entry]

end Plays

theorem plays_new (ch : Channel α) : Plays ({} : Booth ch) ({} : Scene α) where
  pair := .fresh
  waiting := rfl
  holds := fun hwaiting => absurd rfl hwaiting

/-- **A signal that is built on a channel and a time limit is heard as `Signal` is**, whatever is
done around it and a wait on it, in any order and at any times.  So it is heard once, and if no
time passes while the wait could end, the wait ends with the first news or at its deadline. -/
theorem record_eq (ch : Channel α) (limit : Limit (Option α)) (ms : List (Moment α)) :
    ({} : Booth ch).record limit ms = ({} : Scene α).record ms ∧
      OneShot (({} : Booth ch).record limit ms) ∧
      (({} : Scene α).Timely 0 ms → Punctual (({} : Booth ch).record limit ms)) := by
  have hrecord : ({} : Booth ch).record limit ms = ({} : Scene α).record ms :=
    (plays_new ch).record limit ms
  rw [hrecord]
  exact ⟨rfl, (fitting_record ms).oneShot, Scene.Timely.punctual⟩

/-! ### A library -/

/-- What the receiver of a channel finds, and whether it is there. -/
structure Slot (α : Type) where
  found : Option (Option α) := none
  isHeard : Bool := true

/-- A channel that keeps what the receiver finds. -/
instance : Inhabited (Channel α) where
  default :=
    { State := Slot α
      fresh := {}
      use
        | slot, .send a => { slot with found := some (some a) }
        | slot, .dropSender => { slot with found := some none }
        | slot, .dropReceiver => { slot with isHeard := false }
      takes := Slot.isHeard
      look := Slot.found
      takes_fresh := rfl
      takes_unheard := rfl
      look_fresh := rfl
      look_sent _ := rfl
      look_unsent := rfl }

/-- A limit that ends with what is found, or when the deadline has been struck. -/
instance {β : Type} : Inhabited (Limit β) where
  default :=
    { look found struck := found.map some <|> if struck then some none else none
      look_found _ _ := rfl
      look_struck := rfl
      look_pending := rfl }

end Signal

end Sysop
