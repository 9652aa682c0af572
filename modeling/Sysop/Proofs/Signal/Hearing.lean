/-
Sysop/Proofs/Signal/Hearing.lean

What is heard around a signal, read off what was heard before.

A record says who called the notifier, who went away and when a wait began.  `Fits past e` has
one rule for each thing that an entry can say after the record `past`, and no rule mentions
the signal: `fits_record` shows that every run keeps to these rules, by following the shared
state through the record (`Follows`).
-/
import Sysop.Proofs.Signal.Interleaving

namespace Sysop

namespace Signal

variable {α : Type}

/-! ### Entries -/

namespace Entry

/-- The value of a call of the notifier, and whether it was delivered. -/
def call? : Entry α → Option (α × Bool)
  | ⟨_, .act (.notify a), .reply (.answer delivered)⟩ => some (a, delivered)
  | _ => none

/-- The notifier goes away. -/
def Leaves (e : Entry α) : Prop :=
  e.move = .act .dropNotifier ∧ e.heard = .reply .done

/-- The deadline of a wait that begins. -/
def deadline? : Entry α → Option Nat
  | ⟨_, .wait _ _, .reply _⟩ => none
  | ⟨now, .wait clock timeout, _⟩ => some (now + patience clock timeout)
  | _ => none

/-- The deadline of the wait is struck. -/
def Strikes (e : Entry α) : Prop :=
  e.move = .strike ∧ e.heard = .reply (.answer true)

/-- The waiter goes away: it is dropped, the wait on it is given up, or the wait ends. -/
def Closes (e : Entry α) : Prop :=
  (e.move = .act .dropWaiter ∨ e.move = .giveUp) ∧ e.heard = .reply .done ∨
    ∃ value, e.heard = .ended value

/-- The entry says nothing of the notifier, of the waiter or of the deadline. -/
structure Quiet (e : Entry α) : Prop where
  call : e.call? = none
  leaves : ¬ e.Leaves
  deadline : e.deadline? = none
  strikes : ¬ e.Strikes
  closes : ¬ e.Closes

theorem quiet_gone (now : Nat) (move : Move α) : Quiet ⟨now, move, .reply .gone⟩ where
  call := by simp [call?]
  leaves := by simp [Leaves]
  deadline := by cases move <;> rfl
  strikes := by simp [Strikes]
  closes := by simp [Closes]

/-- A question that changes nothing: of the notifier, of the wait, or of the clock too early. -/
theorem quiet_of_ask {now : Nat} {move : Move α} {heard : Heard α}
    (hmove : move = .act .isSpent ∨ move = .look ∨ move = .strike)
    (hends : ∀ value, heard ≠ .ended value)
    (hstrikes : move = .strike → heard ≠ .reply (.answer true)) : Quiet ⟨now, move, heard⟩ where
  call := by rcases hmove with rfl | rfl | rfl <;> rfl
  leaves := by rcases hmove with rfl | rfl | rfl <;> simp [Leaves]
  deadline := by rcases hmove with rfl | rfl | rfl <;> rfl
  strikes := fun h => hstrikes h.1 h.2
  closes := by rcases hmove with rfl | rfl | rfl <;> simpa [Closes] using hends

end Entry

/-! ### Records so far -/

/-- The calls of the notifier, in order. -/
def calls (es : List (Entry α)) : List (α × Bool) :=
  es.filterMap (·.call?)

/-- The notifier has gone away. -/
def Left (es : List (Entry α)) : Prop :=
  ∃ e ∈ es, e.Leaves

/-- The deadline of the wait, once it has begun. -/
def deadline? (es : List (Entry α)) : Option Nat :=
  es.findSome? (·.deadline?)

/-- The deadline of the wait has been struck. -/
def Struck (es : List (Entry α)) : Prop :=
  ∃ e ∈ es, e.Strikes

/-- The waiter has gone away. -/
def Closed (es : List (Entry α)) : Prop :=
  ∃ e ∈ es, e.Closes

@[simp] theorem calls_nil : calls ([] : List (Entry α)) = [] := rfl

@[simp] theorem calls_append (es fs : List (Entry α)) : calls (es ++ fs) = calls es ++ calls fs :=
  List.filterMap_append

@[simp] theorem calls_cons (e : Entry α) (es : List (Entry α)) :
    calls (e :: es) = e.call?.toList ++ calls es := by
  cases h : e.call? <;> simp [calls, h]

@[simp] theorem not_left_nil : ¬ Left ([] : List (Entry α)) := by
  simp [Left]

@[simp] theorem left_concat {es : List (Entry α)} {e : Entry α} :
    Left (es ++ [e]) ↔ Left es ∨ e.Leaves := by
  simp [Left, or_and_right, exists_or]

@[simp] theorem deadline?_nil : deadline? ([] : List (Entry α)) = none := rfl

@[simp] theorem deadline?_append (es fs : List (Entry α)) :
    deadline? (es ++ fs) = (deadline? es).or (deadline? fs) :=
  List.findSome?_append

@[simp] theorem deadline?_cons (e : Entry α) (es : List (Entry α)) :
    deadline? (e :: es) = e.deadline?.or (deadline? es) := by
  cases h : e.deadline? <;> simp [deadline?, h]

@[simp] theorem not_struck_nil : ¬ Struck ([] : List (Entry α)) := by
  simp [Struck]

@[simp] theorem struck_concat {es : List (Entry α)} {e : Entry α} :
    Struck (es ++ [e]) ↔ Struck es ∨ e.Strikes := by
  simp [Struck, or_and_right, exists_or]

@[simp] theorem not_closed_nil : ¬ Closed ([] : List (Entry α)) := by
  simp [Closed]

@[simp] theorem closed_concat {es : List (Entry α)} {e : Entry α} :
    Closed (es ++ [e]) ↔ Closed es ∨ e.Closes := by
  simp [Closed, or_and_right, exists_or]

/-! ### The rules of a record -/

/-- Whoever would make the move is still there after the record. -/
def May (past : List (Entry α)) : Move α → Prop
  | .act (.notify _) => ¬ Left past
  | .act .isSpent => ¬ Left past
  | .act .dropNotifier => ¬ Left past
  | .act .dropWaiter => deadline? past = none ∧ ¬ Closed past
  | .wait _ _ => deadline? past = none ∧ ¬ Closed past
  | .look => deadline? past ≠ none ∧ ¬ Closed past
  | .strike => deadline? past ≠ none ∧ ¬ Closed past
  | .giveUp => deadline? past ≠ none ∧ ¬ Closed past

/-- What a look hears after the record: the first value that was delivered, else nothing if
the notifier has left or the deadline was struck, else that the wait goes on. -/
inductive Sees (past : List (Entry α)) : Heard α → Prop
  | value {a} (h : (calls past).head? = some (a, true)) : Sees past (.ended (some a))
  | nothing (h : calls past = []) (hover : Left past ∨ Struck past) : Sees past (.ended none)
  | pends (h : calls past = []) (hleft : ¬ Left past) (hstruck : ¬ Struck past) :
      Sees past .pending

/-- What an entry can say after the record. -/
inductive Fits (past : List (Entry α)) : Entry α → Prop
  | notify {now a delivered} (hmay : May past (.act (.notify a)))
      (h : delivered = true ↔ calls past = [] ∧ ¬ Closed past) :
      Fits past ⟨now, .act (.notify a), .reply (.answer delivered)⟩
  | isSpent {now spent} (hmay : May past (.act .isSpent)) (h : spent = true ↔ calls past ≠ []) :
      Fits past ⟨now, .act .isSpent, .reply (.answer spent)⟩
  | leaves {now} (hmay : May past (.act .dropNotifier)) :
      Fits past ⟨now, .act .dropNotifier, .reply .done⟩
  | drops {now} (hmay : May past (.act .dropWaiter)) :
      Fits past ⟨now, .act .dropWaiter, .reply .done⟩
  | begins {now clock timeout heard} (hmay : May past (.wait clock timeout))
      (h : Sees past heard) : Fits past ⟨now, .wait clock timeout, heard⟩
  | looks {now heard} (hmay : May past .look) (h : Sees past heard) :
      Fits past ⟨now, .look, heard⟩
  | strikes {now struck} (hmay : May past .strike)
      (h : struck = true ↔ ∃ deadline ∈ deadline? past, deadline ≤ now) :
      Fits past ⟨now, .strike, .reply (.answer struck)⟩
  | givesUp {now} (hmay : May past .giveUp) : Fits past ⟨now, .giveUp, .reply .done⟩
  | gone {now move} (h : ¬ May past move) : Fits past ⟨now, move, .reply .gone⟩

/-! ### Following a record -/

/-- A call delivers if it is the first one and the waiter is still there. -/
theorem notify_delivers_iff (s : Signal α) (a : α) :
    (s.notify a).1 = true ↔ s.spent = false ∧ s.hasWaiter = true := by
  unfold notify
  cases s.spent <;> simp

/-- The scene follows the record: what is in it can be read off what was heard so far. -/
structure Follows (past : List (Entry α)) (c : Scene α) : Prop where
  spent : c.signal.spent = true ↔ calls past ≠ []
  notifier : c.signal.hasNotifier = true ↔ ¬ Left past
  waiter : c.signal.hasWaiter = true ↔ ¬ Closed past
  value : ¬ Closed past → (calls past).head? = c.signal.value.map fun a => (a, true)
  waiting : ¬ Closed past → c.waiting.map (·.deadline) = deadline? past
  closed : Closed past → c.waiting = none
  struck : ∀ alarm ∈ c.waiting, (alarm.struck = true ↔ Struck past)
  begun : Struck past → deadline? past ≠ none

namespace Follows

variable {past : List (Entry α)} {c c' : Scene α} {now : Nat} {move : Move α} {heard : Heard α}
  {alarm : Alarm}

theorem start : Follows [] ({} : Scene α) where
  spent := by simp
  notifier := by simp
  waiter := by simp
  value := fun _ => rfl
  waiting := fun _ => rfl
  closed := by simp
  struck := by simp
  begun := by simp

/-- A wait is under way from its begin until the waiter goes away. -/
theorem waiting_ne_none_iff (h : Follows past c) :
    c.waiting ≠ none ↔ deadline? past ≠ none ∧ ¬ Closed past := by
  by_cases hclosed : Closed past
  · simp [hclosed, h.closed hclosed]
  · rw [← h.waiting hclosed]
    simp [hclosed]

/-- Nobody waits and the waiter is there: no wait has begun, and the waiter has not gone. -/
theorem free_iff (h : Follows past c) :
    c.waiting = none ∧ c.signal.hasWaiter = true ↔ deadline? past = none ∧ ¬ Closed past := by
  rw [h.waiter]
  by_cases hclosed : Closed past
  · simp [hclosed]
  · rw [← h.waiting hclosed]
    simp [hclosed]

theorem can_iff (h : Follows past c) (move : Move α) : c.Can move ↔ May past move := by
  cases move with
  | act a =>
    cases a with
    | dropWaiter => exact h.free_iff
    | _ => exact h.notifier
  | wait clock timeout => exact h.free_iff
  | _ => exact h.waiting_ne_none_iff

/-! #### One move -/

/-- An entry that says nothing new leaves the scene as it is. -/
theorem quiet (h : Follows past c) {e : Entry α} (hquiet : e.Quiet) :
    Follows (past ++ [e]) c where
  spent := by simpa [hquiet.call] using h.spent
  notifier := by simpa [hquiet.leaves] using h.notifier
  waiter := by simpa [hquiet.closes] using h.waiter
  value := by simpa [hquiet.call, hquiet.closes] using h.value
  waiting := by simpa [hquiet.deadline, hquiet.closes] using h.waiting
  closed := by simpa [hquiet.closes] using h.closed
  struck := by simpa [hquiet.strikes] using h.struck
  begun := by simpa [hquiet.deadline, hquiet.strikes] using h.begun

/-- The waiter goes away. -/
theorem close (h : Follows past c) {e : Entry α} (hcall : e.call? = none) (hleaves : ¬ e.Leaves)
    (hstrikes : ¬ e.Strikes) (hcloses : e.Closes) : Follows (past ++ [e]) c.close where
  spent := by simpa [hcall, Scene.close, dropWaiter] using h.spent
  notifier := by simpa [hleaves, Scene.close, dropWaiter] using h.notifier
  waiter := by simp [Scene.close, dropWaiter, hcloses]
  value := by simp [hcloses]
  waiting := by simp [hcloses]
  closed := fun _ => rfl
  struck := by simp [Scene.close]
  begun := by
    intro hs
    have hs' : Struck past := by simpa [hstrikes] using hs
    have hbegun := h.begun hs'
    simp [hbegun]

/-- The notifier is called. -/
theorem call (h : Follows past c) (a : α) :
    Follows (past ++ [⟨now, .act (.notify a), .reply (.answer (c.signal.notify a).1)⟩])
      { c with signal := (c.signal.notify a).2 } where
  spent := by simp [Entry.call?, spent_notify]
  notifier := by
    have hkeeps : (c.signal.notify a).2.hasNotifier = c.signal.hasNotifier := by
      unfold notify
      split <;> rfl
    simpa [hkeeps, Entry.Leaves] using h.notifier
  waiter := by
    have hkeeps : (c.signal.notify a).2.hasWaiter = c.signal.hasWaiter := by
      unfold notify
      split <;> rfl
    simpa [hkeeps, Entry.Closes] using h.waiter
  value := by
    intro hclosed
    have hopen : ¬ Closed past := by simpa [Entry.Closes] using hclosed
    -- a second call finds the value of the first one in its place
    rcases hcalls : calls past with - | ⟨first, more⟩
    · have hspent : c.signal.spent = false := by simpa [hcalls] using h.spent
      simp [notify, hspent, h.waiter.mpr hopen, hcalls, Entry.call?]
    · have hspent : c.signal.spent = true := by simp [h.spent, hcalls]
      simpa [notify_of_spent hspent, hcalls] using h.value hopen
  waiting := by simpa [Entry.deadline?, Entry.Closes] using h.waiting
  closed := by simpa [Entry.Closes] using h.closed
  struck := by simpa [Entry.Strikes] using h.struck
  begun := by simpa [Entry.deadline?, Entry.Strikes] using h.begun

/-- The notifier goes away. -/
theorem leave (h : Follows past c) :
    Follows (past ++ [⟨now, .act .dropNotifier, .reply .done⟩])
      { c with signal := c.signal.dropNotifier } where
  spent := by simpa [Entry.call?, dropNotifier] using h.spent
  notifier := by simp [Entry.Leaves, dropNotifier]
  waiter := by simpa [Entry.Closes, dropNotifier] using h.waiter
  value := by simpa [Entry.call?, Entry.Closes, dropNotifier] using h.value
  waiting := by simpa [Entry.deadline?, Entry.Closes] using h.waiting
  closed := by simpa [Entry.Closes] using h.closed
  struck := by simpa [Entry.Strikes] using h.struck
  begun := by simpa [Entry.deadline?, Entry.Strikes] using h.begun

/-- Before the wait has begun, no deadline was struck. -/
theorem not_struck_of_free (h : Follows past c) (hfree : c.waiting = none)
    (hwaiter : c.signal.hasWaiter = true) : ¬ Struck past :=
  fun hs => h.begun hs (h.free_iff.mp ⟨hfree, hwaiter⟩).1

/-- A wait begins and does not end at once. -/
theorem begins (h : Follows past c) (hfree : c.waiting = none)
    (hwaiter : c.signal.hasWaiter = true) (clock : Clock) (timeout : Span) :
    Follows (past ++ [⟨now, .wait clock timeout, .pending⟩])
      { c with waiting := some ⟨now + patience clock timeout, false⟩ } where
  spent := by simpa [Entry.call?] using h.spent
  notifier := by simpa [Entry.Leaves] using h.notifier
  waiter := by simpa [Entry.Closes] using h.waiter
  value := by simpa [Entry.call?, Entry.Closes] using h.value
  waiting := by
    have hnone := (h.free_iff.mp ⟨hfree, hwaiter⟩).1
    simp [hnone, Entry.deadline?]
  closed := by
    have hopen := h.waiter.mp hwaiter
    simp [hopen, Entry.Closes]
  struck := by
    have hnot := h.not_struck_of_free hfree hwaiter
    simp [hnot, Entry.Strikes]
  begun := by simp [Entry.deadline?]

/-- The deadline of the wait is struck. -/
theorem strike (h : Follows past c) (halarm : c.waiting = some alarm) :
    Follows (past ++ [⟨now, .strike, .reply (.answer true)⟩])
      { c with waiting := some { alarm with struck := true } } where
  spent := by simpa [Entry.call?] using h.spent
  notifier := by simpa [Entry.Leaves] using h.notifier
  waiter := by simpa [Entry.Closes] using h.waiter
  value := by simpa [Entry.call?, Entry.Closes] using h.value
  waiting := by simpa [Entry.deadline?, Entry.Closes, halarm] using h.waiting
  closed := by simpa [Entry.Closes, halarm] using h.closed
  struck := by simp [Entry.Strikes]
  begun := by
    have hbegun := (h.waiting_ne_none_iff.mp (by simp [halarm])).1
    simp [hbegun]

/-- A move keeps the scene on its record. -/
theorem step (h : Follows past c) (hdoes : c.Does now move heard c') :
    Follows (past ++ [⟨now, move, heard⟩]) c' := by
  cases hdoes with
  | @notify a _ => exact h.call a
  | isSpent _ => exact h.quiet (Entry.quiet_of_ask (by simp) (by simp) (by simp))
  | dropNotifier _ => exact h.leave
  | dropWaiter _ _ =>
    exact h.close rfl (by simp [Entry.Leaves]) (by simp [Entry.Strikes]) (by simp [Entry.Closes])
  | ends _ _ =>
    apply h.close
    · simp [Entry.call?]
    · simp [Entry.Leaves]
    · simp [Entry.Strikes]
    · simp [Entry.Closes]
  | pends hlooks _ _ =>
    cases hlooks with
    | begins hfree hwaiter => exact h.begins hfree hwaiter _ _
    | again halarm =>
      rw [← halarm]
      exact h.quiet (Entry.quiet_of_ask (by simp) (by simp) (by simp))
  | strikes halarm _ => exact h.strike halarm
  | early _ _ => exact h.quiet (Entry.quiet_of_ask (by simp) (by simp) (by simp))
  | givesUp _ =>
    exact h.close rfl (by simp [Entry.Leaves]) (by simp [Entry.Strikes]) (by simp [Entry.Closes])
  | nothing _ => exact h.quiet (Entry.quiet_gone now move)

/-! #### What is heard next -/

theorem not_closed_of_looksAt (h : Follows past c) (hlooks : c.LooksAt now move alarm) :
    ¬ Closed past := by
  cases hlooks with
  | begins _ hwaiter => exact h.waiter.mp hwaiter
  | again halarm => exact (h.waiting_ne_none_iff.mp (by simp [halarm])).2

theorem struck_iff_of_looksAt (h : Follows past c) (hlooks : c.LooksAt now move alarm) :
    alarm.struck = true ↔ Struck past := by
  cases hlooks with
  | begins hfree hwaiter => simp [h.not_struck_of_free hfree hwaiter]
  | again halarm => exact h.struck alarm (by simp [halarm])

/-- With the waiter there, a look ends the wait once the notifier was called or has left. -/
theorem poll_eq_none_iff (h : Follows past c) (hopen : ¬ Closed past) :
    c.signal.poll = none ↔ calls past = [] ∧ ¬ Left past := by
  have hvalue := h.value hopen
  rw [← h.notifier, ← List.head?_eq_none_iff, hvalue, poll]
  cases c.signal.value <;> simp

/-- A look hears the value that the signal holds, or that the notifier has left. -/
theorem sees_of_poll (h : Follows past c) (hopen : ¬ Closed past) {value : Option α}
    (hpoll : c.signal.poll = some value) : Sees past (.ended value) := by
  have hhead := h.value hopen
  unfold poll at hpoll
  rcases hvalue : c.signal.value with - | a
  · have hnone : calls past = [] := by simpa [hvalue] using hhead
    cases hthere : c.signal.hasNotifier with
    | true => simp [hvalue, hthere] at hpoll
    | false =>
      have hleft : Left past := by simpa [hthere] using h.notifier
      obtain rfl : value = none := by simpa [hvalue, hthere] using hpoll.symm
      exact .nothing hnone (.inl hleft)
  · obtain rfl : value = some a := by simpa [hvalue] using hpoll.symm
    exact .value (by simp [hhead, hvalue])

theorem fits (h : Follows past c) (hdoes : c.Does now move heard c') :
    Fits past ⟨now, move, heard⟩ := by
  have hmay := fun hcan => (h.can_iff move).mp hcan
  cases hdoes with
  | @notify a hthere =>
    refine .notify (hmay hthere) ?_
    rw [notify_delivers_iff, h.waiter, ← Bool.not_eq_true, h.spent, Classical.not_not]
  | isSpent hthere => exact .isSpent (hmay hthere) h.spent
  | dropNotifier hthere => exact .leaves (hmay hthere)
  | dropWaiter hfree hwaiter => exact .drops (hmay ⟨hfree, hwaiter⟩)
  | @ends _ alarm value hlooks hvalue =>
    have hopen := h.not_closed_of_looksAt hlooks
    have hsees : Sees past (.ended value) := by
      rcases hvalue with hpoll | ⟨hpoll, hstruck, rfl⟩
      · exact h.sees_of_poll hopen hpoll
      · have hnone := ((h.poll_eq_none_iff hopen).mp hpoll).1
        exact .nothing hnone (.inr ((h.struck_iff_of_looksAt hlooks).mp hstruck))
    cases hlooks with
    | begins hfree hwaiter => exact .begins (hmay ⟨hfree, hwaiter⟩) hsees
    | again halarm => exact .looks (hmay (by simp [Scene.Can, halarm])) hsees
  | @pends _ alarm hlooks hpoll hstruck =>
    have hopen := h.not_closed_of_looksAt hlooks
    obtain ⟨hnone, hleft⟩ := (h.poll_eq_none_iff hopen).mp hpoll
    have hnot : ¬ Struck past := by simp [← h.struck_iff_of_looksAt hlooks, hstruck]
    have hsees : Sees past .pending := .pends hnone hleft hnot
    cases hlooks with
    | begins hfree hwaiter => exact .begins (hmay ⟨hfree, hwaiter⟩) hsees
    | again halarm => exact .looks (hmay (by simp [Scene.Can, halarm])) hsees
  | @strikes alarm halarm htime =>
    have hmay' := hmay (by simp [Scene.Can, halarm])
    have hdeadline := h.waiting hmay'.2
    exact .strikes hmay' (by simp [← hdeadline, halarm, htime])
  | @early alarm halarm htime =>
    have hmay' := hmay (by simp [Scene.Can, halarm])
    have hdeadline := h.waiting hmay'.2
    exact .strikes hmay' (by simp [← hdeadline, halarm, htime])
  | givesUp halarm => exact .givesUp (hmay (by simp [Scene.Can, halarm]))
  | nothing hcannot => exact .gone fun hmay => hcannot ((h.can_iff move).mpr hmay)

/-- A run keeps the scene on its record. -/
theorem run (ms : List (Moment α)) {past : List (Entry α)} {c : Scene α} (h : Follows past c) :
    Follows (past ++ c.record ms) (c.play ms) := by
  induction ms generalizing past c with
  | nil => simpa using h
  | cons m ms ih =>
    have hstep := h.step (c.does_step m.time m.move)
    simpa [Scene.entry] using ih hstep

end Follows

/-- Every entry of a run fits what was heard before it. -/
theorem fits_record {ms : List (Moment α)} {past : List (Entry α)} {e : Entry α}
    {rest : List (Entry α)} (h : ({} : Scene α).record ms = past ++ e :: rest) : Fits past e := by
  obtain ⟨before, m, after, -, rfl, rfl⟩ := Scene.exists_of_record_eq h
  have hfollows := Follows.start.run before
  exact hfollows.fits (Scene.does_step _ m.time m.move)

end Signal

end Sysop
