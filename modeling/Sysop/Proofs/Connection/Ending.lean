/-
Sysop/Proofs/Connection/Ending.lean

How a session ends, from what happens on its connection.

Three things decide it: the first session channel that is opened, the first shell that is
granted, and the moment at which the transport goes away, after which nothing is heard.
`ending` says how: the channel has to come within the first wait, the shell within the
second, which begins when the channel comes; a shell that came earlier counts.

The driver takes one happening after another and knows nothing of what is still to come.
So the equation is proved for each stance that it can be in while it waits
(`settle_play_shell`, `settle_play_channel`), by induction on what is still to come, and the
main theorem `session_eq_outcome` is the case of a driver that starts.
-/
import Sysop.Proofs.Connection.BoardStart

namespace Sysop

namespace Connection

/-! ### What decides -/

/-- What happens before the transport goes away. -/
def heard (ts : List Timed) : List Timed :=
  ts.takeWhile fun t => t.what ≠ .transportGone

/-- When the transport goes away. -/
def goneAt (ts : List Timed) : Option Nat :=
  (ts.find? fun t => t.what = .transportGone).map (·.time)

/-- The deadline, or the moment at which the transport goes away if that comes first. -/
def earliest (gone : Option Nat) (deadline : Nat) : Nat :=
  match gone with
  | some n => min n deadline
  | none => deadline

/-- How the waits of a driver end, and when. -/
inductive Ending
  | noChannel (time : Nat)
  | noShell (time : Nat)
  | board (channel : ChannelId) (since : Nat)
  deriving DecidableEq, Repr

/-- How the wait for a shell ends that begins when the channel is opened. -/
def shellEnding (id : ChannelId) (opened deadline : Nat) (gone shell : Option Nat) : Ending :=
  match shell.filter (· ≤ deadline) with
  | none => .noShell (earliest gone deadline)
  | some granted => .board id (max opened granted)

/-- How both waits end: the channel has to come before a deadline, the shell within the time
that is set when the channel comes. -/
def endingOf (deadline : Nat) (wait : Nat → Nat) (gone : Option Nat)
    (opening : Option (Nat × ChannelId)) (shell : Option Nat) : Ending :=
  match opening.filter (·.1 ≤ deadline) with
  | none => .noChannel (earliest gone deadline)
  | some (opened, id) => shellEnding id opened (opened + wait opened) gone shell

/-- How the waits end on a connection on which the given things happen. -/
def ending (policy : Policy) (patience : Patience) (ts : List Timed) : Ending :=
  endingOf patience.channel.ceilMillis (fun _ => patience.shell.ceilMillis) (goneAt ts)
    (firstOpening policy (heard ts)) (firstShell policy (heard ts))

/-- The phase that the driver is left in. -/
def Ending.phase (patience : Patience) : Ending → Phase
  | .noChannel time => .failed (.noChannel patience.channel) time
  | .noShell time => .failed (.noShellRequest patience.shell) time
  | .board id since => .board id since

/-- How the session ends: with a fault, or as the board ends on the channel. -/
def Ending.outcome (patience : Patience) (terminal : ChannelId → Terminal) : Ending → Outcome
  | .noChannel _ => .fault (.noChannel patience.channel)
  | .noShell _ => .fault (.noShellRequest patience.shell)
  | .board id since =>
    .ofBoard (Board.run (patience.clock.later since) (terminal id) patience.line).outcome

variable {policy : Policy} {peer : Option SocketAddress} {patience : Patience}
variable {t : Timed} {ts : List Timed}

theorem shellEnding_of_shell {id : ChannelId} {opened deadline granted : Nat}
    {gone : Option Nat} (htime : granted ≤ deadline) :
    shellEnding id opened deadline gone (some granted) = .board id (max opened granted) := by
  rw [shellEnding, Option.filter_some, if_pos (decide_eq_true htime)]

theorem endingOf_of_opening {deadline opened : Nat} {wait : Nat → Nat} {gone shell : Option Nat}
    {id : ChannelId} (htime : opened ≤ deadline) :
    endingOf deadline wait gone (some (opened, id)) shell
      = shellEnding id opened (opened + wait opened) gone shell := by
  rw [endingOf, Option.filter_some, if_pos (decide_eq_true htime)]

/-- The second wait matters only when a channel comes in time. -/
theorem endingOf_congr {deadline : Nat} {wait wait' : Nat → Nat} {gone shell : Option Nat}
    {opening : Option (Nat × ChannelId)}
    (h : ∀ opened id, opening = some (opened, id) → opened ≤ deadline →
      wait opened = wait' opened) :
    endingOf deadline wait gone opening shell = endingOf deadline wait' gone opening shell := by
  unfold endingOf
  split
  · rfl
  · rename_i opened id hfilter
    obtain ⟨hopening, htime⟩ := Option.filter_eq_some_iff.mp hfilter
    rw [h opened id hopening (of_decide_eq_true htime)]

/-! ### What is heard -/

theorem heard_cons_of_gone (hnews : news policy t.what = .gone) : heard (t :: ts) = [] := by
  have hwhat := news_eq_gone_iff.mp hnews
  simp [heard, hwhat]

theorem heard_cons (hnews : news policy t.what ≠ .gone) : heard (t :: ts) = t :: heard ts := by
  have hwhat : t.what ≠ .transportGone := fun h => hnews (news_eq_gone_iff.mpr h)
  simp [heard, hwhat]

theorem goneAt_cons_of_gone (hnews : news policy t.what = .gone) :
    goneAt (t :: ts) = some t.time := by
  have hwhat := news_eq_gone_iff.mp hnews
  simp [goneAt, hwhat]

theorem goneAt_cons (hnews : news policy t.what ≠ .gone) : goneAt (t :: ts) = goneAt ts := by
  have hwhat : t.what ≠ .transportGone := fun h => hnews (news_eq_gone_iff.mpr h)
  simp [goneAt, hwhat]

theorem firstShell_heard_cons_of_shell (hnews : news policy t.what = .shell) :
    firstShell policy (heard (t :: ts)) = some t.time := by
  have hshell : shell? policy t = some t.time := shell?_eq_some_iff.mpr ⟨hnews, rfl⟩
  have hgone : news policy t.what ≠ .gone := by simp [hnews]
  rw [heard_cons hgone, firstShell, List.findSome?_cons, hshell]

theorem firstShell_heard_cons (hgone : news policy t.what ≠ .gone)
    (hshell : news policy t.what ≠ .shell) :
    firstShell policy (heard (t :: ts)) = firstShell policy (heard ts) := by
  rw [heard_cons hgone, firstShell, List.findSome?_cons, shell?_eq_none hshell, firstShell]

theorem firstOpening_heard_cons_of_opening {id : ChannelId}
    (hnews : news policy t.what = .opening id) :
    firstOpening policy (heard (t :: ts)) = some (t.time, id) := by
  have hopening : opening? policy t = some (t.time, id) := opening?_eq_some_iff.mpr ⟨hnews, rfl⟩
  have hgone : news policy t.what ≠ .gone := by simp [hnews]
  rw [heard_cons hgone, firstOpening, List.findSome?_cons, hopening]

theorem firstOpening_heard_cons (hgone : news policy t.what ≠ .gone)
    (hopening : ∀ id, news policy t.what ≠ .opening id) :
    firstOpening policy (heard (t :: ts)) = firstOpening policy (heard ts) := by
  rw [heard_cons hgone, firstOpening, List.findSome?_cons, opening?_eq_none hopening,
    firstOpening]

/-! ### Too late -/

theorem mem_of_mem_heard (h : t ∈ heard ts) : t ∈ ts :=
  (List.takeWhile_sublist _).mem h

theorem exists_of_firstShell {n : Nat} (h : firstShell policy (heard ts) = some n) :
    ∃ t ∈ ts, t.time = n := by
  obtain ⟨t, ht, hsome⟩ := List.exists_of_findSome?_eq_some h
  exact ⟨t, mem_of_mem_heard ht, (shell?_eq_some_iff.mp hsome).2⟩

theorem exists_of_firstOpening {n : Nat} {id : ChannelId}
    (h : firstOpening policy (heard ts) = some (n, id)) : ∃ t ∈ ts, t.time = n := by
  obtain ⟨t, ht, hsome⟩ := List.exists_of_findSome?_eq_some h
  exact ⟨t, mem_of_mem_heard ht, (opening?_eq_some_iff.mp hsome).2⟩

theorem exists_of_goneAt {n : Nat} (h : goneAt ts = some n) : ∃ t ∈ ts, t.time = n := by
  obtain ⟨t, ht, htime⟩ := Option.map_eq_some_iff.mp h
  exact ⟨t, List.mem_of_find?_eq_some ht, htime⟩

variable {deadline : Nat}

theorem firstShell_of_late (hlate : ∀ t ∈ ts, deadline < t.time) :
    (firstShell policy (heard ts)).filter (· ≤ deadline) = none := by
  rw [Option.filter_eq_none_iff]
  intro n hn
  obtain ⟨t, ht, rfl⟩ := exists_of_firstShell hn
  have := hlate t ht
  simp only [decide_eq_true_eq]
  omega

theorem firstOpening_of_late (hlate : ∀ t ∈ ts, deadline < t.time) :
    (firstOpening policy (heard ts)).filter (·.1 ≤ deadline) = none := by
  rw [Option.filter_eq_none_iff]
  rintro ⟨n, id⟩ hn
  obtain ⟨t, ht, rfl⟩ := exists_of_firstOpening hn
  have := hlate t ht
  simp only [decide_eq_true_eq]
  omega

theorem earliest_of_late (hlate : ∀ t ∈ ts, deadline < t.time) :
    earliest (goneAt ts) deadline = deadline := by
  rcases hgone : goneAt ts with _ | n
  · rfl
  · obtain ⟨t, ht, rfl⟩ := exists_of_goneAt hgone
    exact Nat.min_eq_right (Nat.le_of_lt (hlate t ht))

/-! ### The stances in which the driver waits -/

/-- Things happen one after another. -/
def InOrder (ts : List Timed) : Prop :=
  ts.Pairwise fun a b => a.time ≤ b.time

instance (ts : List Timed) : Decidable (InOrder ts) :=
  inferInstanceAs (Decidable (ts.Pairwise _))

theorem late_of_inOrder (horder : InOrder (t :: ts)) (hlate : deadline < t.time) :
    ∀ t' ∈ t :: ts, deadline < t'.time := by
  intro t' ht'
  rcases List.mem_cons.mp ht' with rfl | hmem
  · exact hlate
  · exact Nat.lt_of_lt_of_le hlate ((List.pairwise_cons.mp horder).1 t' hmem)

/-- The course of a driver that waits for a shell since its channel was opened. -/
theorem settle_play_shell (id : ChannelId) (opened deadline : Nat) (ts : List Timed) :
    InOrder ts → (∀ t ∈ ts, opened ≤ t.time) →
      (((Stance.shell id deadline).play policy patience ts).settle patience).phase
        = (shellEnding id opened deadline (goneAt ts)
            (firstShell policy (heard ts))).phase patience := by
  induction ts with
  | nil =>
    intro _ _
    rfl
  | cons t ts ih =>
    intro horder hopened
    have horder' : InOrder ts := (List.pairwise_cons.mp horder).2
    have hopened' : ∀ t' ∈ ts, opened ≤ t'.time :=
      fun t' ht' => hopened t' (List.mem_cons_of_mem t ht')
    rw [Stance.play_cons]
    rcases Nat.lt_or_ge deadline t.time with hlate | htime
    -- all that is still to come is late too
    · have hall := late_of_inOrder horder hlate
      rw [Stance.step_shell_of_late hlate, Stance.play_failed, shellEnding,
        firstShell_of_late hall, earliest_of_late hall]
      rfl
    · rcases hnews : news policy t.what with id' | _ | _ | _
      · have hgone : news policy t.what ≠ .gone := by simp [hnews]
        -- the driver has its channel and passes over one more
        rw [Stance.step_shell_of_opening htime hnews, ih horder' hopened', goneAt_cons hgone,
          firstShell_heard_cons hgone (by simp [hnews])]
      · rw [Stance.step_shell_of_shell htime hnews, Stance.play_board,
          firstShell_heard_cons_of_shell hnews, shellEnding_of_shell htime,
          Nat.max_eq_right (hopened t List.mem_cons_self)]
        rfl
      · rw [Stance.step_shell_of_gone htime hnews, Stance.play_failed,
          heard_cons_of_gone hnews, goneAt_cons_of_gone hnews]
        show Phase.failed _ t.time = Phase.failed _ (min t.time deadline)
        rw [Nat.min_eq_left htime]
      · have hgone : news policy t.what ≠ .gone := by simp [hnews]
        rw [Stance.step_shell_of_nothing htime hnews, ih horder' hopened', goneAt_cons hgone,
          firstShell_heard_cons hgone (by simp [hnews])]

/-- The course of a driver that waits for a channel, when the first shell has come early or
not yet. -/
theorem settle_play_channel (deadline : Nat) (ts : List Timed) :
    ∀ early : Option Nat, InOrder ts → (∀ n ∈ early, ∀ t ∈ ts, n ≤ t.time) →
      (((Stance.channel deadline early.isSome).play policy patience ts).settle patience).phase
        = (endingOf deadline
            (fun n => Signal.patience (patience.clock.later n) patience.shell) (goneAt ts)
            (firstOpening policy (heard ts))
            (early.or (firstShell policy (heard ts)))).phase patience := by
  induction ts with
  | nil =>
    intro early _ _
    rfl
  | cons t ts ih =>
    -- the shell that has come is carried along, so it is general in the induction
    intro early horder hearly
    obtain ⟨hbefore, horder'⟩ := List.pairwise_cons.mp horder
    have hearly' : ∀ n ∈ early, ∀ t' ∈ ts, n ≤ t'.time :=
      fun n hn t' ht' => hearly n hn t' (List.mem_cons_of_mem t ht')
    rw [Stance.play_cons]
    rcases Nat.lt_or_ge deadline t.time with hlate | htime
    -- all that is still to come is late too
    · have hall := late_of_inOrder horder hlate
      rw [Stance.step_channel_of_late hlate, Stance.play_failed, endingOf,
        firstOpening_of_late hall, earliest_of_late hall]
      rfl
    · rcases hnews : news policy t.what with id | _ | _ | _
      · have hgone : news policy t.what ≠ .gone := by simp [hnews]
        rw [Stance.step_channel_of_opening htime hnews, firstOpening_heard_cons_of_opening hnews,
          endingOf_of_opening htime, goneAt_cons hgone,
          firstShell_heard_cons hgone (by simp [hnews])]
        cases early with
        | some n =>
          -- the shell came early, so the board starts with the channel
          have hn : n ≤ t.time := hearly n rfl t List.mem_cons_self
          rw [Option.some_or, shellEnding_of_shell (Nat.le_add_right_of_le hn),
            Nat.max_eq_left hn]
          show (((Stance.board id t.time).play policy patience ts).settle patience).phase = _
          rw [Stance.play_board]
          rfl
        | none =>
          rw [Option.none_or]
          exact settle_play_shell id t.time _ ts horder' hbefore
      · have hgone : news policy t.what ≠ .gone := by simp [hnews]
        -- from here on a shell has come early, if not with `t` then before
        have hsome : (early.or (some t.time)).isSome = true := by simp
        have hnow : ∀ n ∈ early.or (some t.time), ∀ t' ∈ ts, n ≤ t'.time := by
          intro n hn t' ht'
          rcases Option.or_eq_some_iff.mp hn with hn | ⟨-, hn⟩
          · exact hearly' n hn t' ht'
          · obtain rfl := Option.some.inj hn
            exact hbefore t' ht'
        have hih := ih (early.or (some t.time)) horder' hnow
        rw [hsome, Option.or_assoc, Option.some_or] at hih
        rw [Stance.step_channel_of_shell htime hnews, hih, goneAt_cons hgone,
          firstOpening_heard_cons hgone (by simp [hnews]), firstShell_heard_cons_of_shell hnews]
      · rw [Stance.step_channel_of_gone htime hnews, Stance.play_failed,
          heard_cons_of_gone hnews, goneAt_cons_of_gone hnews]
        show Phase.failed _ t.time = Phase.failed _ (min t.time deadline)
        rw [Nat.min_eq_left htime]
      · have hgone : news policy t.what ≠ .gone := by simp [hnews]
        rw [Stance.step_channel_of_nothing htime hnews, ih early horder' hearly',
          goneAt_cons hgone, firstOpening_heard_cons hgone (by simp [hnews]),
          firstShell_heard_cons hgone (by simp [hnews])]

/-! ### The whole session -/

/-- The clock can show the deadline of each wait when the wait starts: for the channel when the
driver starts, and for the shell when a channel has come in time. -/
structure InReach (policy : Policy) (patience : Patience) (ts : List Timed) : Prop where
  channel : patience.clock.Reaches patience.channel
  shell : ∀ opened id, firstOpening policy (heard ts) = some (opened, id) →
    opened ≤ patience.channel.ceilMillis → (patience.clock.later opened).Reaches patience.shell

/-- The phase in which a driver is left when nothing more happens. -/
theorem phase_settle_run (horder : InOrder ts) (hreach : InReach policy patience ts) :
    (run policy peer patience ts).settle.phase = (ending policy patience ts).phase patience := by
  have hholds : (run policy peer patience ts).Holds
      ((Stance.initial patience).play policy patience ts) := holds_run ts
  have hplay : (((Stance.channel (Signal.patience patience.clock patience.channel) false).play
      policy patience ts).settle patience).phase = _ :=
    settle_play_channel _ ts none horder (by simp)
  rw [Option.none_or, Signal.patience_of_reaches hreach.channel] at hplay
  rw [hholds.phase_settle, patience_run, Stance.initial,
    Signal.patience_of_reaches hreach.channel, hplay, ending]
  refine congrArg (Ending.phase patience) (endingOf_congr ?_)
  intro opened id hopening htime
  exact Signal.patience_of_reaches (hreach.shell opened id hopening htime)

theorem exists_firstOpening_of_ending {id : ChannelId} {since : Nat}
    (h : ending policy patience ts = .board id since) :
    ∃ opened, firstOpening policy (heard ts) = some (opened, id) := by
  unfold ending endingOf at h
  split at h
  · cases h
  · rename_i opened id' hfilter
    have hfirst := (Option.filter_eq_some_iff.mp hfilter).1
    unfold shellEnding at h
    split at h
    · cases h
    · obtain ⟨rfl, -⟩ := Ending.board.inj h
      exact ⟨opened, hfirst⟩

/-- **A session ends as the first opening, the first shell and the end of the transport say.**
Every session channel that the policy accepts is opened, but the board sends on none but the
first. -/
theorem session_eq_outcome (horder : InOrder ts) (hreach : InReach policy patience ts)
    (terminal : ChannelId → Terminal) :
    session policy peer patience ts terminal
        = (ending policy patience ts).outcome patience terminal ∧
      (run policy peer patience ts).settle.phase = (ending policy patience ts).phase patience ∧
      (∀ id text, text ∈ (run policy peer patience ts).sentOn terminal id →
        ∃ opened, firstOpening policy (heard ts) = some (opened, id)) ∧
      (∀ before t after id, ts = before ++ t :: after →
        t.what = .callback (.openChannel .session id) → policy.channel .session = .accept →
          ((run policy peer patience before).step t).1 = some (.granted true)) := by
  have hphase : (run policy peer patience ts).settle.phase
      = (ending policy patience ts).phase patience := phase_settle_run horder hreach
  refine ⟨?_, hphase, ?_, ?_⟩
  · simp only [session, outcome, hphase, patience_run]
    cases ending policy patience ts with
    | noChannel time => rfl
    | noShell time => rfl
    | board id since => rfl
  · intro id text hsent
    -- only a driver that is at the board sends, and it stays there
    obtain ⟨since, hboard⟩ := exists_phase_of_mem_sentOn hsent
    have hsettle : (run policy peer patience ts).settle.phase = .board id since := by
      simp only [settle, hboard]
    rw [hphase] at hsettle
    rcases hending : ending policy patience ts with time | time | ⟨id', since'⟩
    · rw [hending] at hsettle
      cases hsettle
    · rw [hending] at hsettle
      cases hsettle
    · rw [hending] at hsettle
      obtain ⟨rfl, rfl⟩ := Phase.board.inj hsettle
      exact exists_firstOpening_of_ending hending
  · intro before t after id _ hwhat haccept
    rw [answer_step, policy_run]
    have hopens : (exchange policy t).Opens id :=
      opens_exchange_iff.mpr (news_eq_opening_iff.mpr ⟨hwhat, haccept⟩)
    exact (Exchange.mk.inj hopens).2

/-- A shell comes first, then two channels; then the transport goes away. -/
def hastyClient : List Timed :=
  [⟨3, .callback (.shell 1)⟩, ⟨5, .callback (.openChannel .session 4)⟩,
    ⟨8, .callback (.openChannel .session 7)⟩, ⟨9, .transportGone⟩]

theorem inReach_hastyClient : InReach hospitable briefly hastyClient where
  channel := by decide
  shell := by
    intro opened id hopening _
    have hfirst : firstOpening hospitable (heard hastyClient) = some (5, 4) := by decide
    obtain ⟨rfl, rfl⟩ := Prod.mk.inj (Option.some.inj (hopening.symm.trans hfirst))
    decide

/-- The board runs on the first channel of the hasty client, from the moment it comes. -/
theorem session_hastyClient :
    InOrder hastyClient ∧ InReach hospitable briefly hastyClient ∧
      ending hospitable briefly hastyClient = .board 4 5 ∧
      session hospitable none briefly hastyClient (fun _ => { arrivals := [] })
        = (ending hospitable briefly hastyClient).outcome briefly (fun _ => { arrivals := [] }) :=
  ⟨by decide, inReach_hastyClient, by decide,
    (session_eq_outcome (by decide) inReach_hastyClient _).1⟩

end Connection

end Sysop
