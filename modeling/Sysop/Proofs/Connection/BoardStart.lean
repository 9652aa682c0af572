/-
Sysop/Proofs/Connection/BoardStart.lean

What lets the driver of a connection start the board.

What has happened accounts for every stance that the driver takes (`Grounded`): it waits
for a shell only on the first session channel that was opened, and it starts the board
only when besides a shell was granted (`exists_grantsShell_of_boardStarts`).  The shell
need not be granted on that channel: the driver learns that there is one, not where
(`board_starts_on_silent_channel`).
-/
import Sysop.Policy.Board
import Sysop.Proofs.Connection.Transcript

namespace Sysop

namespace Connection

variable {policy : Policy} {peer : Option SocketAddress} {patience : Patience}
variable {past : List Timed} {s : Stance}

/-! ### What the driver's course rests on -/

/-- What has happened accounts for the stance. -/
def Grounded (policy : Policy) (past : List Timed) : Stance → Prop
  | .channel _ seen =>
    firstOpening policy past = none ∧ (seen = true → (firstShell policy past).isSome)
  | .shell id _ => ∃ n, firstOpening policy past = some (n, id)
  | .board id _ =>
    (∃ n, firstOpening policy past = some (n, id)) ∧ (firstShell policy past).isSome
  | .failed .. => True

/-- What came first stays first. -/
theorem firstOpening_concat_of_some {n : Nat} {id : ChannelId} (t : Timed)
    (h : firstOpening policy past = some (n, id)) :
    firstOpening policy (past ++ [t]) = some (n, id) := by
  rw [firstOpening_concat, h]
  rfl

theorem isSome_firstShell_concat (t : Timed) (h : (firstShell policy past).isSome) :
    (firstShell policy (past ++ [t])).isSome := by
  rw [firstShell_concat, Option.isSome_or, h]
  rfl

theorem isSome_firstShell_concat_of_news {t : Timed} (hnews : news policy t.what = .shell) :
    (firstShell policy (past ++ [t])).isSome := by
  have hshell : shell? policy t = some t.time := shell?_eq_some_iff.mpr ⟨hnews, rfl⟩
  rw [firstShell_concat, Option.isSome_or, hshell]
  simp

/-- One more happening accounts for one more step. -/
theorem Grounded.step (h : Grounded policy past s) (t : Timed) :
    Grounded policy (past ++ [t]) (s.step policy patience t) := by
  cases s with
  | channel deadline seen =>
    obtain ⟨hnone, hseen⟩ := h
    -- nothing was opened so far, so only `t` can be the first opening
    have hconcat : firstOpening policy (past ++ [t]) = opening? policy t := by
      rw [firstOpening_concat, hnone, Option.none_or]
    rcases Nat.lt_or_ge deadline t.time with hlate | htime
    · rw [Stance.step_channel_of_late hlate]
      trivial
    · rcases hnews : news policy t.what with id | _ | _ | _
      · rw [Stance.step_channel_of_opening htime hnews]
        have hfirst : firstOpening policy (past ++ [t]) = some (t.time, id) := by
          rw [hconcat]
          exact opening?_eq_some_iff.mpr ⟨hnews, rfl⟩
        cases seen with
        | true => exact ⟨⟨t.time, hfirst⟩, isSome_firstShell_concat t (hseen rfl)⟩
        | false => exact ⟨t.time, hfirst⟩
      · rw [Stance.step_channel_of_shell htime hnews]
        refine ⟨?_, fun _ => isSome_firstShell_concat_of_news hnews⟩
        rw [hconcat]
        exact opening?_eq_none (by simp [hnews])
      · rw [Stance.step_channel_of_gone htime hnews]
        trivial
      · rw [Stance.step_channel_of_nothing htime hnews]
        refine ⟨?_, fun hs => isSome_firstShell_concat t (hseen hs)⟩
        rw [hconcat]
        exact opening?_eq_none (by simp [hnews])
  | shell id deadline =>
    obtain ⟨n, hfirst⟩ := h
    -- later openings, `t` among them, change nothing
    have hfirst' := firstOpening_concat_of_some t hfirst
    rcases Nat.lt_or_ge deadline t.time with hlate | htime
    · rw [Stance.step_shell_of_late hlate]
      trivial
    · rcases hnews : news policy t.what with id' | _ | _ | _
      · rw [Stance.step_shell_of_opening htime hnews]
        exact ⟨n, hfirst'⟩
      · rw [Stance.step_shell_of_shell htime hnews]
        exact ⟨⟨n, hfirst'⟩, isSome_firstShell_concat_of_news hnews⟩
      · rw [Stance.step_shell_of_gone htime hnews]
        trivial
      · rw [Stance.step_shell_of_nothing htime hnews]
        exact ⟨n, hfirst'⟩
  | board id since =>
    obtain ⟨⟨n, hfirst⟩, hshell⟩ := h
    exact ⟨⟨n, firstOpening_concat_of_some t hfirst⟩, isSome_firstShell_concat t hshell⟩
  | failed fault since => trivial

theorem Grounded.play (ts : List Timed) :
    ∀ {past : List Timed} {s : Stance}, Grounded policy past s →
      Grounded policy (past ++ ts) (s.play policy patience ts) := by
  induction ts with
  | nil =>
    intro past s h
    rw [List.append_nil]
    exact h
  | cons t ts ih =>
    intro past s h
    rw [List.append_cons, Stance.play_cons]
    exact ih (h.step t)

/-- Whatever happens accounts for the stance that a driver comes to. -/
theorem grounded_run (ts : List Timed) :
    Grounded policy ts ((Stance.initial patience).play policy patience ts) := by
  have hinitial : Grounded policy [] (.initial patience) :=
    ⟨rfl, fun h => Bool.noConfusion h⟩
  exact hinitial.play ts

/-! ### The start of the board -/

/-- The driver is at the board. -/
def AtBoard : Phase → Prop
  | .awaitChannel _ => False
  | .awaitShell .. => False
  | .board .. => True
  | .failed .. => False

/-- After what has happened before, this happening makes the driver start the board on the
channel. -/
structure BoardStarts (policy : Policy) (peer : Option SocketAddress) (patience : Patience)
    (past : List Timed) (t : Timed) (id : ChannelId) : Prop where
  before : ¬ AtBoard (run policy peer patience past).phase
  after : (run policy peer patience (past ++ [t])).phase = .board id t.time

/-- The board starts with the happening that lets it start. -/
theorem since_eq_of_step_eq_board {t : Timed} {id : ChannelId} {since : Nat}
    (hs : ¬ AtBoard s.phase) (h : s.step policy patience t = .board id since) :
    since = t.time := by
  cases s with
  | channel deadline seen =>
    rcases Nat.lt_or_ge deadline t.time with hlate | htime
    · rw [Stance.step_channel_of_late hlate] at h
      cases h
    · rcases hnews : news policy t.what with id' | _ | _ | _
      · rw [Stance.step_channel_of_opening htime hnews] at h
        cases seen with
        | true => exact (Stance.board.inj h).2.symm
        | false => cases h
      · rw [Stance.step_channel_of_shell htime hnews] at h
        cases h
      · rw [Stance.step_channel_of_gone htime hnews] at h
        cases h
      · rw [Stance.step_channel_of_nothing htime hnews] at h
        cases h
  | shell id' deadline =>
    rcases Nat.lt_or_ge deadline t.time with hlate | htime
    · rw [Stance.step_shell_of_late hlate] at h
      cases h
    · rcases hnews : news policy t.what with id'' | _ | _ | _
      · rw [Stance.step_shell_of_opening htime hnews] at h
        cases h
      · rw [Stance.step_shell_of_shell htime hnews] at h
        exact (Stance.board.inj h).2.symm
      · rw [Stance.step_shell_of_gone htime hnews] at h
        cases h
      · rw [Stance.step_shell_of_nothing htime hnews] at h
        cases h
  | board id' since' => exact absurd trivial hs
  | failed fault since' => cases h

/-- A driver that comes to the board in a play has started it at some time of the play. -/
theorem exists_boardStarts_append (ts : List Timed) {id : ChannelId} {since : Nat} :
    ∀ past : List Timed, ¬ AtBoard (run policy peer patience past).phase →
      (run policy peer patience (past ++ ts)).phase = .board id since →
      ∃ before t after, past ++ ts = before ++ t :: after ∧
        BoardStarts policy peer patience before t id := by
  induction ts with
  | nil =>
    intro past hpast h
    rw [List.append_nil] at h
    rw [h] at hpast
    exact absurd trivial hpast
  | cons t ts ih =>
    intro past hpast h
    -- induction on what is still to come: `t` passes over to the past
    rw [List.append_cons] at h
    rcases hnext : (run policy peer patience (past ++ [t])).phase with _ | _ | ⟨id', since'⟩ | _
    · rw [List.append_cons]
      exact ih (past ++ [t]) (by rw [hnext]; exact not_false) h
    · rw [List.append_cons]
      exact ih (past ++ [t]) (by rw [hnext]; exact not_false) h
    · -- the board starts here, and nothing changes its channel afterwards
      have hstance := hnext
      rw [phase_run] at hstance
      have hstep := Stance.eq_board_of_phase hstance
      have hid : id' = id := by
        rw [phase_run, Stance.play_append, hstep, Stance.play_board] at h
        exact (Phase.board.inj h).1
      have htime : since' = t.time := by
        rw [phase_run] at hpast
        rw [Stance.play_append] at hstep
        exact since_eq_of_step_eq_board hpast hstep
      refine ⟨past, t, ts, rfl, hpast, ?_⟩
      rw [hnext, hid, htime]
    · rw [List.append_cons]
      exact ih (past ++ [t]) (by rw [hnext]; exact not_false) h

theorem exists_boardStarts {ts : List Timed} {id : ChannelId} {since : Nat}
    (h : (run policy peer patience ts).phase = .board id since) :
    ∃ past t rest, ts = past ++ t :: rest ∧ BoardStarts policy peer patience past t id := by
  have hstart : ¬ AtBoard (run policy peer patience []).phase := by
    rw [phase_run]
    exact not_false
  exact exists_boardStarts_append ts [] hstart h

/-- Once started, the board goes on from the same time. -/
theorem BoardStarts.since_eq {t : Timed} {rest : List Timed} {id id' : ChannelId} {since : Nat}
    (h : BoardStarts policy peer patience past t id)
    (hphase : (run policy peer patience (past ++ t :: rest)).phase = .board id' since) :
    since = t.time := by
  have hstance := h.after
  rw [phase_run] at hstance
  rw [List.append_cons, phase_run, Stance.play_append, Stance.eq_board_of_phase hstance,
    Stance.play_board] at hphase
  exact (Phase.board.inj hphase).2.symm

/-- Nobody gets to the board by waiting. -/
theorem phase_eq_board_of_settle {c : Connection} {id : ChannelId} {since : Nat}
    (h : c.settle.phase = .board id since) : c.phase = .board id since := by
  unfold settle at h
  split at h
  · cases h
  · cases h
  · exact h

/-- Only the board sends anything, and only on its own channel. -/
theorem exists_phase_of_mem_sentOn {c : Connection} {terminal : ChannelId → Terminal}
    {id : ChannelId} {text : String} (h : text ∈ c.sentOn terminal id) :
    ∃ since, c.phase = .board id since := by
  unfold sentOn boardRun? at h
  rcases hphase : c.phase with _ | _ | ⟨id', since⟩ | _
  · rw [hphase] at h
    cases h
  · rw [hphase] at h
    cases h
  · simp only [hphase] at h
    split at h
    · rename_i heq
      rw [← heq]
      exact ⟨since, rfl⟩
    · cases h
  · rw [hphase] at h
    cases h

theorem BoardStarts.grounded {t : Timed} {id : ChannelId}
    (h : BoardStarts policy peer patience past t id) :
    (∃ n, firstOpening policy (past ++ [t]) = some (n, id)) ∧
      ∃ n, firstShell policy (past ++ [t]) = some n := by
  have hphase := h.after
  rw [phase_run] at hphase
  have hgrounded : Grounded policy (past ++ [t])
      ((Stance.initial patience).play policy patience (past ++ [t])) := grounded_run _
  rw [Stance.eq_board_of_phase hphase] at hgrounded
  obtain ⟨hfirst, hshell⟩ := hgrounded
  exact ⟨hfirst, Option.isSome_iff_exists.mp hshell⟩

/-- **The board starts on the first session channel that was opened, after a shell was
granted on some channel.** -/
theorem exists_grantsShell_of_boardStarts {t : Timed} {id : ChannelId}
    (h : BoardStarts policy peer patience past t id) :
    (∃ before opening after,
      runTranscript policy peer patience (past ++ [t]) = before ++ opening :: after ∧
        opening.Opens id ∧ ∀ e ∈ before, ∀ id', ¬ e.Opens id') ∧
    ∃ e ∈ runTranscript policy peer patience (past ++ [t]), e.GrantsShell := by
  obtain ⟨⟨n, hfirst⟩, ⟨m, hshell⟩⟩ := h.grounded
  rw [runTranscript_eq_map]
  exact ⟨exists_opens_of_firstOpening hfirst, exists_grantsShell_of_firstShell hshell⟩

/-- A policy that lets session channels be opened and grants shells. -/
def hospitable : Policy where
  allowedAuths _ := []
  password _ _ := ⟨.reject, []⟩
  publicKey _ _ := ⟨.reject, []⟩
  channel := BoardPolicy.channel
  pty _ := true
  shell := true

/-- Three waits of a second each. -/
def briefly : Patience :=
  ⟨.ofSeconds 1, .ofSeconds 1, .ofSeconds 1, .startingAt ⟨7200, 0, by decide, by decide⟩⟩

/-- Two session channels are opened. -/
def twoChannels : List Timed :=
  [⟨0, .callback (.openChannel .session 0)⟩, ⟨0, .callback (.openChannel .session 1)⟩]

/-- A shell is asked for on the second channel. -/
def shellOnSecond : Timed := ⟨0, .callback (.shell 1)⟩

theorem boardStarts_shellOnSecond :
    BoardStarts hospitable none briefly twoChannels shellOnSecond 0 := by
  have hbefore : (run hospitable none briefly twoChannels).phase = .awaitShell 0 1000 := by
    decide
  refine ⟨?_, by decide⟩
  rw [hbefore]
  exact not_false

/-- The board starts on the first channel although nobody asked for a shell there. -/
theorem board_starts_on_silent_channel :
    BoardStarts hospitable none briefly twoChannels shellOnSecond 0 ∧
      ¬ ∃ e ∈ runTranscript hospitable none briefly (twoChannels ++ [shellOnSecond]),
        e.GrantsShellOn 0 :=
  ⟨boardStarts_shellOnSecond, by decide⟩

theorem shell_was_granted_on_second :
    BoardStarts hospitable none briefly twoChannels shellOnSecond 0 ∧
      ∃ e ∈ runTranscript hospitable none briefly (twoChannels ++ [shellOnSecond]),
        e.GrantsShell :=
  ⟨boardStarts_shellOnSecond,
    (exists_grantsShell_of_boardStarts boardStarts_shellOnSecond).2⟩

end Connection

end Sysop
