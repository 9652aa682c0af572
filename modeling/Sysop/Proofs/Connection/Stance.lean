/-
Sysop/Proofs/Connection/Stance.lean

The driver of a connection as a machine with four states.

Of all that happens on a connection the driver heeds three things (`News`): a session
channel that the policy accepts, a shell that it grants, and the end of the transport.
A `Stance` is what the driver waits for, with what has come already, and `Stance.step`
says all that one happening can do to it.

`Holds c s` ties a connection to a stance: the phase says what the driver waits for, and
the two signals hold what has come and nothing else.  A step of the connection is a step
of the stance (`Holds.step`), so a run is a play of the stance that drivers start with
(`holds_run`).
-/
import Sysop.Connection

namespace Sysop

namespace Connection

/-! ### News -/

/-- What the driver of a connection learns from something that happens. -/
inductive News
  | opening (id : ChannelId)
  | shell
  | gone
  | nothing
  deriving DecidableEq, Repr

/-- The news in something that happens under a policy. -/
def news (policy : Policy) : Happening → News
  | .callback (.openChannel .session id) =>
    if policy.channel .session = .accept then .opening id else .nothing
  | .callback (.shell _) => if policy.shell then .shell else .nothing
  | .callback _ => .nothing
  | .transportGone => .gone

theorem news_eq_opening_iff {policy : Policy} {what : Happening} {id : ChannelId} :
    news policy what = .opening id ↔
      what = .callback (.openChannel .session id) ∧ policy.channel .session = .accept := by
  constructor
  · intro h
    unfold news at h
    split at h
    · split at h
      · rename_i haccept
        obtain rfl := News.opening.inj h
        exact ⟨rfl, haccept⟩
      · cases h
    · split at h <;> cases h
    · cases h
    · cases h
  · rintro ⟨rfl, haccept⟩
    simp [news, haccept]

theorem news_eq_shell_iff {policy : Policy} {what : Happening} :
    news policy what = .shell ↔
      (∃ id, what = .callback (.shell id)) ∧ policy.shell = true := by
  constructor
  · intro h
    unfold news at h
    split at h
    · split at h <;> cases h
    · rename_i id
      split at h
      · rename_i hshell
        exact ⟨⟨id, rfl⟩, hshell⟩
      · cases h
    · cases h
    · cases h
  · rintro ⟨⟨id, rfl⟩, hshell⟩
    simp [news, hshell]

theorem news_eq_gone_iff {policy : Policy} {what : Happening} :
    news policy what = .gone ↔ what = .transportGone := by
  constructor
  · intro h
    unfold news at h
    split at h
    · split at h <;> cases h
    · split at h <;> cases h
    · cases h
    · rfl
  · rintro rfl
    rfl

/-! ### What the callbacks do with it -/

@[simp] theorem policy_handle (h : Handler) (question : Callback) :
    (h.handle question).handler.policy = h.policy := by
  cases question with
  | openChannel kind id =>
    show (h.openChannel kind id).handler.policy = h.policy
    unfold Handler.openChannel
    split
    · split <;> rfl
    · rfl
  | shell id =>
    show (if h.policy.shell then { h with shell := (h.shell.notify ()).2 } else h).policy
      = h.policy
    split <;> rfl
  | _ => rfl

theorem handler_of_opening {h : Handler} {question : Callback} {id : ChannelId}
    (hnews : news h.policy (.callback question) = .opening id) :
    (h.handle question).handler = { h with channel := (h.channel.notify id).2 } := by
  obtain ⟨hwhat, haccept⟩ := news_eq_opening_iff.mp hnews
  obtain rfl := Happening.callback.inj hwhat
  simp [Handler.handle, Handler.openChannel, haccept]

theorem handler_of_shell {h : Handler} {question : Callback}
    (hnews : news h.policy (.callback question) = .shell) :
    (h.handle question).handler = { h with shell := (h.shell.notify ()).2 } := by
  obtain ⟨⟨id, hwhat⟩, hshell⟩ := news_eq_shell_iff.mp hnews
  obtain rfl := Happening.callback.inj hwhat
  simp [Handler.handle, Handler.shellRequest, hshell]

theorem handler_of_nothing {h : Handler} {question : Callback}
    (hnews : news h.policy (.callback question) = .nothing) :
    (h.handle question).handler = h := by
  cases question with
  | openChannel kind id =>
    show (h.openChannel kind id).handler = h
    unfold Handler.openChannel
    split
    · rename_i haccept
      split
      · rename_i hkind
        subst hkind
        simp [news, haccept] at hnews
      · rfl
    · rfl
  | shell id =>
    show (if h.policy.shell then { h with shell := (h.shell.notify ()).2 } else h) = h
    split
    · rename_i hshell
      simp [news, hshell] at hnews
    · rfl
  | _ => rfl

/-! ### Stances -/

/-- What the driver waits for, with what has come already. -/
inductive Stance
  | channel (deadline : Nat) (shellSeen : Bool)
  | shell (channel : ChannelId) (deadline : Nat)
  | board (channel : ChannelId) (since : Nat)
  | failed (fault : SessionFault) (since : Nat)
  deriving DecidableEq, Repr

namespace Stance

/-- The stance after something that happens at a time. -/
def step (policy : Policy) (patience : Patience) (s : Stance) (t : Timed) : Stance :=
  match s with
  | .channel deadline seen =>
    if deadline < t.time then .failed (.noChannel patience.channel) deadline
    else
      match news policy t.what with
      | .opening id =>
        if seen then .board id t.time
        else .shell id (t.time + Signal.patience (patience.clock.later t.time) patience.shell)
      | .shell => .channel deadline true
      | .gone => .failed (.noChannel patience.channel) t.time
      | .nothing => .channel deadline seen
  | .shell id deadline =>
    if deadline < t.time then .failed (.noShellRequest patience.shell) deadline
    else
      match news policy t.what with
      | .shell => .board id t.time
      | .gone => .failed (.noShellRequest patience.shell) t.time
      | _ => .shell id deadline
  | .board id since => .board id since
  | .failed fault since => .failed fault since

/-- The stance after everything that happens. -/
def play (policy : Policy) (patience : Patience) (s : Stance) (ts : List Timed) : Stance :=
  ts.foldl (step policy patience) s

/-- The stance when nothing more happens. -/
def settle (patience : Patience) : Stance → Stance
  | .channel deadline _ => .failed (.noChannel patience.channel) deadline
  | .shell _ deadline => .failed (.noShellRequest patience.shell) deadline
  | .board id since => .board id since
  | .failed fault since => .failed fault since

/-- The stance of a driver that starts. -/
def initial (patience : Patience) : Stance :=
  .channel (Signal.patience patience.clock patience.channel) false

variable {policy : Policy} {patience : Patience}

theorem step_channel_of_late {deadline : Nat} {seen : Bool} {t : Timed}
    (hlate : deadline < t.time) :
    (channel deadline seen).step policy patience t
      = .failed (.noChannel patience.channel) deadline :=
  if_pos hlate

theorem step_channel_of_opening {deadline : Nat} {seen : Bool} {t : Timed} {id : ChannelId}
    (htime : t.time ≤ deadline) (hnews : news policy t.what = .opening id) :
    (channel deadline seen).step policy patience t
      = if seen then .board id t.time
        else .shell id (t.time + Signal.patience (patience.clock.later t.time) patience.shell) := by
  rw [step, if_neg (Nat.not_lt.mpr htime), hnews]

theorem step_channel_of_shell {deadline : Nat} {seen : Bool} {t : Timed}
    (htime : t.time ≤ deadline) (hnews : news policy t.what = .shell) :
    (channel deadline seen).step policy patience t = .channel deadline true := by
  rw [step, if_neg (Nat.not_lt.mpr htime), hnews]

theorem step_channel_of_gone {deadline : Nat} {seen : Bool} {t : Timed}
    (htime : t.time ≤ deadline) (hnews : news policy t.what = .gone) :
    (channel deadline seen).step policy patience t
      = .failed (.noChannel patience.channel) t.time := by
  rw [step, if_neg (Nat.not_lt.mpr htime), hnews]

theorem step_channel_of_nothing {deadline : Nat} {seen : Bool} {t : Timed}
    (htime : t.time ≤ deadline) (hnews : news policy t.what = .nothing) :
    (channel deadline seen).step policy patience t = .channel deadline seen := by
  rw [step, if_neg (Nat.not_lt.mpr htime), hnews]

theorem step_shell_of_late {id : ChannelId} {deadline : Nat} {t : Timed}
    (hlate : deadline < t.time) :
    (shell id deadline).step policy patience t
      = .failed (.noShellRequest patience.shell) deadline :=
  if_pos hlate

theorem step_shell_of_opening {id id' : ChannelId} {deadline : Nat} {t : Timed}
    (htime : t.time ≤ deadline) (hnews : news policy t.what = .opening id') :
    (shell id deadline).step policy patience t = .shell id deadline := by
  rw [step, if_neg (Nat.not_lt.mpr htime), hnews]

theorem step_shell_of_shell {id : ChannelId} {deadline : Nat} {t : Timed}
    (htime : t.time ≤ deadline) (hnews : news policy t.what = .shell) :
    (shell id deadline).step policy patience t = .board id t.time := by
  rw [step, if_neg (Nat.not_lt.mpr htime), hnews]

theorem step_shell_of_gone {id : ChannelId} {deadline : Nat} {t : Timed}
    (htime : t.time ≤ deadline) (hnews : news policy t.what = .gone) :
    (shell id deadline).step policy patience t
      = .failed (.noShellRequest patience.shell) t.time := by
  rw [step, if_neg (Nat.not_lt.mpr htime), hnews]

theorem step_shell_of_nothing {id : ChannelId} {deadline : Nat} {t : Timed}
    (htime : t.time ≤ deadline) (hnews : news policy t.what = .nothing) :
    (shell id deadline).step policy patience t = .shell id deadline := by
  rw [step, if_neg (Nat.not_lt.mpr htime), hnews]

@[simp] theorem play_nil (s : Stance) : s.play policy patience [] = s := rfl

@[simp] theorem play_cons (s : Stance) (t : Timed) (ts : List Timed) :
    s.play policy patience (t :: ts)
      = (s.step policy patience t).play policy patience ts := rfl

@[simp] theorem play_board (id : ChannelId) (since : Nat) (ts : List Timed) :
    (Stance.board id since).play policy patience ts = .board id since := by
  induction ts with
  | nil => rfl
  | cons t ts ih => rw [play_cons]; exact ih

@[simp] theorem play_failed (fault : SessionFault) (since : Nat) (ts : List Timed) :
    (Stance.failed fault since).play policy patience ts = .failed fault since := by
  induction ts with
  | nil => rfl
  | cons t ts ih => rw [play_cons]; exact ih

theorem play_append (s : Stance) (ts us : List Timed) :
    s.play policy patience (ts ++ us)
      = (s.play policy patience ts).play policy patience us :=
  List.foldl_append

end Stance

/-! ### Connections and stances -/

/-- The signal of the shell: fresh, or with one notice in it that nobody has taken. -/
def shellSignal (seen : Bool) : Signal Unit :=
  if seen then { value := some (), spent := true } else {}

/-- The driver of the connection takes the stance. -/
def Holds (c : Connection) : Stance → Prop
  | .channel deadline seen =>
    c.phase = .awaitChannel deadline ∧ c.handler.channel = {} ∧
      c.handler.shell = shellSignal seen
  | .shell id deadline => c.phase = .awaitShell id deadline ∧ c.handler.shell = {}
  | .board id since => c.phase = .board id since
  | .failed fault since => c.phase = .failed fault since

/-! ### The driver looks -/

variable {c : Connection} {n : Nat}

theorem look_awaitChannel_none {deadline : Nat} (hphase : c.phase = .awaitChannel deadline)
    (hpoll : c.handler.channel.poll = none) : c.look n = c := by
  simp only [look, lookForChannel, lookForShell, hphase, hpoll]

theorem phase_look_awaitChannel_gone {deadline : Nat}
    (hphase : c.phase = .awaitChannel deadline)
    (hpoll : c.handler.channel.poll = some none) :
    (c.look n).phase = .failed (.noChannel c.patience.channel) n := by
  simp only [look, lookForChannel, lookForShell, fail, hphase, hpoll]

/-- The channel has come, the shell has not. -/
theorem look_awaitChannel_some {deadline : Nat} {id : ChannelId}
    (hphase : c.phase = .awaitChannel deadline)
    (hpoll : c.handler.channel.poll = some (some id)) (hshell : c.handler.shell.poll = none) :
    (c.look n).phase
        = .awaitShell id (n + Signal.patience (c.patience.clock.later n) c.patience.shell) ∧
      (c.look n).handler.shell = c.handler.shell := by
  simp only [look, lookForChannel, lookForShell, hphase, hpoll, hshell, and_self]

/-- Both the channel and the shell have come. -/
theorem phase_look_awaitChannel_both {deadline : Nat} {id : ChannelId}
    (hphase : c.phase = .awaitChannel deadline)
    (hpoll : c.handler.channel.poll = some (some id))
    (hshell : c.handler.shell.poll = some (some ())) :
    (c.look n).phase = .board id n := by
  simp only [look, lookForChannel, lookForShell, hphase, hpoll, hshell]

theorem look_awaitShell_none {id : ChannelId} {deadline : Nat}
    (hphase : c.phase = .awaitShell id deadline) (hpoll : c.handler.shell.poll = none) :
    c.look n = c := by
  simp only [look, lookForChannel, lookForShell, hphase, hpoll]

theorem phase_look_awaitShell_gone {id : ChannelId} {deadline : Nat}
    (hphase : c.phase = .awaitShell id deadline)
    (hpoll : c.handler.shell.poll = some none) :
    (c.look n).phase = .failed (.noShellRequest c.patience.shell) n := by
  simp only [look, lookForChannel, lookForShell, fail, hphase, hpoll]

theorem phase_look_awaitShell_some {id : ChannelId} {deadline : Nat}
    (hphase : c.phase = .awaitShell id deadline)
    (hpoll : c.handler.shell.poll = some (some ())) :
    (c.look n).phase = .board id n := by
  simp only [look, lookForChannel, lookForShell, hphase, hpoll]

/-! ### What never changes -/

@[simp] theorem policy_look : (c.look n).handler.policy = c.handler.policy := by
  have hchannel : (c.lookForChannel n).handler.policy = c.handler.policy := by
    unfold lookForChannel
    split
    · split <;> rfl
    · rfl
  rw [← hchannel]
  unfold look lookForShell
  split
  · split <;> rfl
  · rfl

@[simp] theorem patience_look : (c.look n).patience = c.patience := by
  have hchannel : (c.lookForChannel n).patience = c.patience := by
    unfold lookForChannel
    split
    · split <;> rfl
    · rfl
  rw [← hchannel]
  unfold look lookForShell
  split
  · split <;> rfl
  · rfl

@[simp] theorem policy_expire : (c.expire n).handler.policy = c.handler.policy := by
  unfold expire
  split
  · split <;> rfl
  · split <;> rfl
  · rfl

@[simp] theorem patience_expire : (c.expire n).patience = c.patience := by
  unfold expire
  split
  · split <;> rfl
  · split <;> rfl
  · rfl

@[simp] theorem policy_happen (what : Happening) :
    (c.happen what).2.handler.policy = c.handler.policy := by
  cases what with
  | callback question => exact policy_handle c.handler question
  | transportGone => rfl

@[simp] theorem patience_happen (what : Happening) :
    (c.happen what).2.patience = c.patience := by
  cases what with
  | callback question => rfl
  | transportGone => rfl

@[simp] theorem policy_step (t : Timed) :
    (c.step t).2.handler.policy = c.handler.policy := by
  show (((c.expire t.time).happen t.what).2.look t.time).handler.policy = c.handler.policy
  rw [policy_look, policy_happen, policy_expire]

@[simp] theorem patience_step (t : Timed) : (c.step t).2.patience = c.patience := by
  show (((c.expire t.time).happen t.what).2.look t.time).patience = c.patience
  rw [patience_look, patience_happen, patience_expire]

/-! ### What happens -/

/-- The driver has stopped waiting. -/
def Over : Phase → Prop
  | .awaitChannel _ => False
  | .awaitShell .. => False
  | .board .. => True
  | .failed .. => True

theorem look_of_over (h : Over c.phase) : c.look n = c := by
  rcases hphase : c.phase with _ | _ | _ | _
  · rw [hphase] at h
    cases h
  · rw [hphase] at h
    cases h
  · simp only [look, lookForChannel, lookForShell, hphase]
  · simp only [look, lookForChannel, lookForShell, hphase]

@[simp] theorem phase_happen (what : Happening) : (c.happen what).2.phase = c.phase := by
  cases what with
  | callback question => rfl
  | transportGone => rfl

/-- A driver that has stopped, at the latest when a deadline passed, takes no notice of
what happens. -/
theorem phase_step_of_over {t : Timed} (h : Over (c.expire t.time).phase) :
    (c.step t).2.phase = (c.expire t.time).phase := by
  have hover : Over ((c.expire t.time).happen t.what).2.phase := by
    rw [phase_happen]
    exact h
  show (((c.expire t.time).happen t.what).2.look t.time).phase = _
  rw [look_of_over hover, phase_happen]

theorem step_of_expire_eq {t : Timed} (h : c.expire t.time = c) :
    (c.step t).2 = (c.happen t.what).2.look t.time := by
  show ((c.expire t.time).happen t.what).2.look t.time = _
  rw [h]

theorem handler_happen_of_opening {what : Happening} {id : ChannelId}
    (hnews : news c.handler.policy what = .opening id) :
    (c.happen what).2.handler
      = { c.handler with channel := (c.handler.channel.notify id).2 } := by
  obtain ⟨rfl, -⟩ := news_eq_opening_iff.mp hnews
  exact handler_of_opening hnews

theorem handler_happen_of_shell {what : Happening}
    (hnews : news c.handler.policy what = .shell) :
    (c.happen what).2.handler
      = { c.handler with shell := (c.handler.shell.notify ()).2 } := by
  obtain ⟨⟨id, rfl⟩, -⟩ := news_eq_shell_iff.mp hnews
  exact handler_of_shell hnews

theorem handler_happen_of_nothing {what : Happening}
    (hnews : news c.handler.policy what = .nothing) :
    (c.happen what).2.handler = c.handler := by
  cases what with
  | callback question => exact handler_of_nothing hnews
  | transportGone => cases hnews

theorem handler_happen_of_gone {what : Happening}
    (hnews : news c.handler.policy what = .gone) :
    (c.happen what).2.handler
      = { c.handler with
          channel := c.handler.channel.dropNotifier
          shell := c.handler.shell.dropNotifier } := by
  obtain rfl := news_eq_gone_iff.mp hnews
  rfl

/-! ### One step of a driver that waits for its channel -/

section AwaitChannel

variable {deadline : Nat} {seen : Bool} {what : Happening}

/-- A channel comes: the driver goes on to the shell, or to the board if that came before. -/
theorem Holds.channel_opening {id : ChannelId} (h : c.Holds (.channel deadline seen))
    (hnews : news c.handler.policy what = .opening id) :
    ((c.happen what).2.look n).Holds
      (if seen then .board id n
        else .shell id (n + Signal.patience (c.patience.clock.later n) c.patience.shell)) := by
  obtain ⟨hphase, hchannel, hshell⟩ := h
  have hphase' : (c.happen what).2.phase = .awaitChannel deadline := by
    rw [phase_happen, hphase]
  have hhandler := handler_happen_of_opening hnews
  rw [hchannel] at hhandler
  have hpoll : (c.happen what).2.handler.channel.poll = some (some id) := by
    rw [hhandler]
    rfl
  have hshell' : (c.happen what).2.handler.shell = shellSignal seen := by
    rw [hhandler]
    exact hshell
  -- the look for the channel is followed by one for the shell
  cases seen with
  | true =>
    apply phase_look_awaitChannel_both hphase' hpoll
    rw [hshell']
    rfl
  | false =>
    have hquiet : (c.happen what).2.handler.shell.poll = none := by
      rw [hshell']
      rfl
    obtain ⟨hp, hs⟩ := look_awaitChannel_some (n := n) hphase' hpoll hquiet
    rw [patience_happen] at hp
    exact ⟨hp, hs.trans hshell'⟩

/-- A shell comes: its signal keeps it, and the driver goes on waiting. -/
theorem Holds.channel_shell (h : c.Holds (.channel deadline seen))
    (hnews : news c.handler.policy what = .shell) :
    ((c.happen what).2.look n).Holds (.channel deadline true) := by
  obtain ⟨hphase, hchannel, hshell⟩ := h
  have hphase' : (c.happen what).2.phase = .awaitChannel deadline := by
    rw [phase_happen, hphase]
  have hhandler := handler_happen_of_shell hnews
  have hchannel' : (c.happen what).2.handler.channel = {} := by
    rw [hhandler]
    exact hchannel
  have hshell' : (c.happen what).2.handler.shell = shellSignal true := by
    rw [hhandler, hshell]
    -- the signal keeps one notice, however many there are
    cases seen <;> rfl
  have hpoll : (c.happen what).2.handler.channel.poll = none := by
    rw [hchannel']
    rfl
  rw [look_awaitChannel_none hphase' hpoll]
  exact ⟨hphase', hchannel', hshell'⟩

/-- The transport goes away: the wait ends. -/
theorem Holds.channel_gone (h : c.Holds (.channel deadline seen))
    (hnews : news c.handler.policy what = .gone) :
    ((c.happen what).2.look n).Holds (.failed (.noChannel c.patience.channel) n) := by
  obtain ⟨hphase, hchannel, -⟩ := h
  have hphase' : (c.happen what).2.phase = .awaitChannel deadline := by
    rw [phase_happen, hphase]
  have hhandler := handler_happen_of_gone hnews
  have hpoll : (c.happen what).2.handler.channel.poll = some none := by
    rw [hhandler]
    -- a fresh signal without its notifier is over
    show c.handler.channel.dropNotifier.poll = some none
    rw [hchannel]
    rfl
  have hp := phase_look_awaitChannel_gone (n := n) hphase' hpoll
  rw [patience_happen] at hp
  exact hp

theorem Holds.channel_nothing (h : c.Holds (.channel deadline seen))
    (hnews : news c.handler.policy what = .nothing) :
    ((c.happen what).2.look n).Holds (.channel deadline seen) := by
  obtain ⟨hphase, hchannel, hshell⟩ := h
  have hphase' : (c.happen what).2.phase = .awaitChannel deadline := by
    rw [phase_happen, hphase]
  have hhandler := handler_happen_of_nothing hnews
  have hpoll : (c.happen what).2.handler.channel.poll = none := by
    rw [hhandler, hchannel]
    rfl
  rw [look_awaitChannel_none hphase' hpoll]
  refine ⟨hphase', ?_, ?_⟩
  · rw [hhandler]
    exact hchannel
  · rw [hhandler]
    exact hshell

theorem Holds.step_channel (h : c.Holds (.channel deadline seen)) (t : Timed) :
    (c.step t).2.Holds
      ((Stance.channel deadline seen).step c.handler.policy c.patience t) := by
  have hphase : c.phase = .awaitChannel deadline := h.1
  rcases Nat.lt_or_ge deadline t.time with hlate | htime
  -- the deadline stops the driver before anything else happens
  · have hexpire : (c.expire t.time).phase
        = .failed (.noChannel c.patience.channel) deadline := by
      simp only [expire, hphase, if_pos hlate, fail]
    rw [Stance.step_channel_of_late hlate]
    show (c.step t).2.phase = _
    rw [phase_step_of_over (by rw [hexpire]; trivial), hexpire]
  · have hexpire : c.expire t.time = c := by
      simp only [expire, hphase, if_neg (Nat.not_lt.mpr htime)]
    rw [step_of_expire_eq hexpire]
    rcases hnews : news c.handler.policy t.what with id | _ | _ | _
    · rw [Stance.step_channel_of_opening htime hnews]
      exact h.channel_opening hnews
    · rw [Stance.step_channel_of_shell htime hnews]
      exact h.channel_shell hnews
    · rw [Stance.step_channel_of_gone htime hnews]
      exact h.channel_gone hnews
    · rw [Stance.step_channel_of_nothing htime hnews]
      exact h.channel_nothing hnews

end AwaitChannel

/-! ### One step of a driver that waits for a shell -/

section AwaitShell

variable {id : ChannelId} {deadline : Nat} {what : Happening}

/-- The shell comes, and the board starts. -/
theorem Holds.shell_shell (h : c.Holds (.shell id deadline))
    (hnews : news c.handler.policy what = .shell) :
    ((c.happen what).2.look n).Holds (.board id n) := by
  obtain ⟨hphase, hshell⟩ := h
  have hphase' : (c.happen what).2.phase = .awaitShell id deadline := by
    rw [phase_happen, hphase]
  have hhandler := handler_happen_of_shell hnews
  rw [hshell] at hhandler
  apply phase_look_awaitShell_some hphase'
  rw [hhandler]
  rfl

/-- The transport goes away: the wait ends. -/
theorem Holds.shell_gone (h : c.Holds (.shell id deadline))
    (hnews : news c.handler.policy what = .gone) :
    ((c.happen what).2.look n).Holds (.failed (.noShellRequest c.patience.shell) n) := by
  obtain ⟨hphase, hshell⟩ := h
  have hphase' : (c.happen what).2.phase = .awaitShell id deadline := by
    rw [phase_happen, hphase]
  have hhandler := handler_happen_of_gone hnews
  have hpoll : (c.happen what).2.handler.shell.poll = some none := by
    rw [hhandler]
    show c.handler.shell.dropNotifier.poll = some none
    rw [hshell]
    rfl
  have hp := phase_look_awaitShell_gone (n := n) hphase' hpoll
  rw [patience_happen] at hp
  exact hp

/-- Whatever leaves the signal of the shell as it was, one more session channel for one,
leaves the driver waiting. -/
theorem Holds.shell_quiet (h : c.Holds (.shell id deadline))
    (hquiet : (c.happen what).2.handler.shell = c.handler.shell) :
    ((c.happen what).2.look n).Holds (.shell id deadline) := by
  obtain ⟨hphase, hshell⟩ := h
  have hphase' : (c.happen what).2.phase = .awaitShell id deadline := by
    rw [phase_happen, hphase]
  have hshell' : (c.happen what).2.handler.shell = {} := hquiet.trans hshell
  have hpoll : (c.happen what).2.handler.shell.poll = none := by
    rw [hshell']
    rfl
  rw [look_awaitShell_none hphase' hpoll]
  exact ⟨hphase', hshell'⟩

theorem Holds.step_shell (h : c.Holds (.shell id deadline)) (t : Timed) :
    (c.step t).2.Holds ((Stance.shell id deadline).step c.handler.policy c.patience t) := by
  have hphase : c.phase = .awaitShell id deadline := h.1
  rcases Nat.lt_or_ge deadline t.time with hlate | htime
  -- the deadline stops the driver before anything else happens
  · have hexpire : (c.expire t.time).phase
        = .failed (.noShellRequest c.patience.shell) deadline := by
      simp only [expire, hphase, if_pos hlate, fail]
    rw [Stance.step_shell_of_late hlate]
    show (c.step t).2.phase = _
    rw [phase_step_of_over (by rw [hexpire]; trivial), hexpire]
  · have hexpire : c.expire t.time = c := by
      simp only [expire, hphase, if_neg (Nat.not_lt.mpr htime)]
    rw [step_of_expire_eq hexpire]
    rcases hnews : news c.handler.policy t.what with id' | _ | _ | _
    · rw [Stance.step_shell_of_opening htime hnews]
      apply h.shell_quiet
      rw [handler_happen_of_opening hnews]
    · rw [Stance.step_shell_of_shell htime hnews]
      exact h.shell_shell hnews
    · rw [Stance.step_shell_of_gone htime hnews]
      exact h.shell_gone hnews
    · rw [Stance.step_shell_of_nothing htime hnews]
      apply h.shell_quiet
      rw [handler_happen_of_nothing hnews]

end AwaitShell

/-! ### One step -/

/-- **A step of a connection is a step of its stance.** -/
theorem Holds.step {s : Stance} (h : c.Holds s) (t : Timed) :
    (c.step t).2.Holds (s.step c.handler.policy c.patience t) := by
  cases s with
  | channel deadline seen => exact h.step_channel t
  | shell id deadline => exact h.step_shell t
  | board id since =>
    have hphase : c.phase = .board id since := h
    have hexpire : c.expire t.time = c := by simp only [expire, hphase]
    show (c.step t).2.phase = .board id since
    rw [phase_step_of_over (by rw [hexpire, hphase]; trivial), hexpire, hphase]
  | failed fault since =>
    have hphase : c.phase = .failed fault since := h
    have hexpire : c.expire t.time = c := by simp only [expire, hphase]
    show (c.step t).2.phase = .failed fault since
    rw [phase_step_of_over (by rw [hexpire, hphase]; trivial), hexpire, hphase]

/-! ### Whole plays -/

@[simp] theorem play_nil (c : Connection) : c.play [] = c := rfl

@[simp] theorem play_cons (c : Connection) (t : Timed) (ts : List Timed) :
    c.play (t :: ts) = (c.step t).2.play ts := rfl

theorem policy_play (ts : List Timed) :
    ∀ c : Connection, (c.play ts).handler.policy = c.handler.policy := by
  induction ts with
  | nil =>
    intro c
    rfl
  | cons t ts ih =>
    intro c
    rw [play_cons, ih, policy_step]

theorem patience_play (ts : List Timed) :
    ∀ c : Connection, (c.play ts).patience = c.patience := by
  induction ts with
  | nil =>
    intro c
    rfl
  | cons t ts ih =>
    intro c
    rw [play_cons, ih, patience_step]

/-- A play of a connection is a play of its stance. -/
theorem Holds.play (ts : List Timed) :
    ∀ {c : Connection} {s : Stance}, c.Holds s →
      (c.play ts).Holds (s.play c.handler.policy c.patience ts) := by
  induction ts with
  | nil =>
    intro c s h
    exact h
  | cons t ts ih =>
    intro c s h
    -- the policy and the waits are those of the connection before the step
    have h' := ih (h.step t)
    rw [policy_step, patience_step] at h'
    exact h'

variable {policy : Policy} {peer : Option SocketAddress} {patience : Patience}

/-- Before anything has happened there is nothing to see. -/
@[simp] theorem look_start :
    (start policy peer patience).look n = start policy peer patience :=
  look_awaitChannel_none rfl rfl

theorem holds_start : (start policy peer patience).Holds (.initial patience) :=
  ⟨rfl, rfl, rfl⟩

theorem run_eq_play (ts : List Timed) :
    run policy peer patience ts = (start policy peer patience).play ts := by
  rw [run, look_start]

/-- A run of a connection is a play of the stance that drivers start with. -/
theorem holds_run (ts : List Timed) :
    (run policy peer patience ts).Holds ((Stance.initial patience).play policy patience ts) := by
  rw [run_eq_play]
  exact holds_start.play ts

theorem patience_run (ts : List Timed) :
    (run policy peer patience ts).patience = patience := by
  rw [run_eq_play, patience_play]
  rfl

theorem policy_run (ts : List Timed) :
    (run policy peer patience ts).handler.policy = policy := by
  rw [run_eq_play, policy_play]
  rfl

/-- The phase that a stance is seen as. -/
def Stance.phase : Stance → Phase
  | .channel deadline _ => .awaitChannel deadline
  | .shell id deadline => .awaitShell id deadline
  | .board id since => .board id since
  | .failed fault since => .failed fault since

theorem Stance.eq_board_of_phase {s : Stance} {id : ChannelId} {since : Nat}
    (h : s.phase = .board id since) : s = .board id since := by
  cases s with
  | board id' since' =>
    obtain ⟨rfl, rfl⟩ := Phase.board.inj h
    rfl
  | _ => cases h

theorem Holds.phase_eq {s : Stance} (h : c.Holds s) : c.phase = s.phase := by
  cases s with
  | channel deadline seen => exact h.1
  | shell id deadline => exact h.1
  | board id since => exact h
  | failed fault since => exact h

theorem phase_run (ts : List Timed) :
    (run policy peer patience ts).phase
      = ((Stance.initial patience).play policy patience ts).phase :=
  (holds_run ts).phase_eq

/-- When nothing more happens, the connection and its stance end up alike. -/
theorem Holds.phase_settle {s : Stance} (h : c.Holds s) :
    c.settle.phase = (s.settle c.patience).phase := by
  have hphase := h.phase_eq
  cases s with
  | channel deadline seen =>
    simp only [Stance.phase] at hphase
    simp only [settle, hphase, fail, Stance.settle, Stance.phase]
  | shell id deadline =>
    simp only [Stance.phase] at hphase
    simp only [settle, hphase, fail, Stance.settle, Stance.phase]
  | board id since =>
    simp only [Stance.phase] at hphase
    simp only [settle, hphase, Stance.settle, Stance.phase]
  | failed fault since =>
    simp only [Stance.phase] at hphase
    simp only [settle, hphase, Stance.settle, Stance.phase]

end Connection

end Sysop
