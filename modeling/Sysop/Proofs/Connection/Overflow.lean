/-
Sysop/Proofs/Connection/Overflow.lean

Configurations whose wait for a line is longer than the clock can show.

Building asks of the wait for a line that it is not zero, and of nothing else
(`build_lineTimeout`).  A run of the board adds the wait to what the clock shows once its banner
is sent, and ends there if the clock cannot show the sum (`outcome_eq_clockOverflow_iff`).  Whether
it can depends on the moment, to the nanosecond: a wait that is just short enough when the machine
starts is too long some time later.  There are waits that are too long on every clock
(`not_reaches_longestSpan`).  The waits for the channel and for the shell are never like this: a
wait that is too long for the clock is exchanged for a long one there.

Main results: `overflows_iff`, and `not_forall_returns`, which shows one of these configurations.
-/
import Sysop.Proofs.Board.Conversation
import Sysop.Proofs.Connection.Ending
import Sysop.Proofs.Settings.Checks
import Sysop.Proofs.Settings.LastCall

namespace Sysop

/-! ### Runs of the board -/

namespace Board

variable {clock : Clock} {t : Terminal} {timeout : Span}

theorem sendAll_of_sendsWell {texts : List String} {i : Nat} (h : SendsWell t i texts.length) :
    sendAll t i texts = (sends texts, none) := by
  rcases sendAll_cases (t := t) texts i with
    ⟨hall, -⟩ | ⟨before, text, after, fault, rfl, -, hat, -⟩
  · exact hall
  · rw [h before.length (by simp)] at hat
    cases hat

/-- A run ends at the clock if it gets through its banner and the clock does not show the
deadline. -/
theorem outcome_eq_clockOverflow_iff :
    (run clock t timeout).outcome = .clockOverflow ↔
      SendsWell t 0 banner.length ∧ ¬ clock.Reaches timeout := by
  constructor
  · intro h
    by_cases hclock : clock.Reaches timeout
    · exact absurd h (course_run hclock).returns
    · refine ⟨?_, hclock⟩
      rcases sendAll_cases (t := t) banner 0 with ⟨-, hwell⟩ | ⟨_, _, _, fault, -, -, -, hfails⟩
      · exact hwell
      · simp only [run, hfails] at h
        cases h
  · rintro ⟨hwell, hclock⟩
    simp only [run, sendAll_of_sendsWell hwell, if_neg hclock]

end Board

/-! ### Sessions -/

namespace Connection

/-- A session ends at the clock if it gets to the board, and the run of the board does. -/
theorem session_eq_clockOverflow_iff {policy : Policy} {peer : Option SocketAddress}
    {patience : Patience} {ts : List Timed} {terminal : ChannelId → Terminal} :
    session policy peer patience ts terminal = .clockOverflow ↔
      ∃ id since, (run policy peer patience ts).settle.phase = .board id since ∧
        (Board.run (patience.clock.later since) (terminal id) patience.line).outcome
          = .clockOverflow := by
  rw [session, outcome, patience_run]
  cases hphase : (run policy peer patience ts).settle.phase with
  | board id since =>
    constructor
    · intro h
      refine ⟨id, since, rfl, ?_⟩
      cases houtcome :
        (Board.run (patience.clock.later since) (terminal id) patience.line).outcome with
      | clockOverflow => rfl
      | name username => simp [houtcome, Outcome.ofBoard] at h
      | fault fault => simp [houtcome, Outcome.ofBoard] at h
    · rintro ⟨id', since', heq, h⟩
      obtain ⟨rfl, rfl⟩ := Phase.board.inj heq
      simp only [h, Outcome.ofBoard]
  | _ => simp

end Connection

/-! ### Configurations -/

namespace Settings

variable {s : Settings} {loader : KeyLoader} {files : Files} {c : Config}

/-- Every wait for a line can be set, but for none at all. -/
theorem build_lineTimeout (h : s.build loader files = .ok c) {d : Span} (hd : d.nanos ≠ 0) :
    (s.apply (.lineTimeout d)).build loader files = .ok { c with lineTimeout := d } := by
  obtain ⟨hc, hmade⟩ := Config.build_eq_ok_iff.mp h
  refine Config.build_eq_ok_iff.mpr ⟨{ hc with lineTimeout := hd }, ?_⟩
  exact
    { hmade with
      hostKey := hasHostKey_iff.mpr hmade.hostKey.load
      allowedKey := hasAllowedKey_iff.mpr hmade.allowedKey.load
      lineTimeout := rfl }

/-- **A configuration that is built stops a session at the clock exactly if its wait for a line
is longer than the clock can show then.**  Every wait for a line that is not zero is accepted; the
run of the board ends at the clock if its banner is sent and what the clock shows, together with
the wait, lies past the last instant; and a session ends there if it gets to such a run. -/
theorem overflows_iff (h : s.build loader files = .ok c) :
    (∀ d : Span, d.nanos ≠ 0 →
      (s.apply (.lineTimeout d)).build loader files = .ok { c with lineTimeout := d }) ∧
    (∀ clock t, (Board.run clock t c.lineTimeout).outcome = .clockOverflow ↔
      Board.SendsWell t 0 Board.banner.length ∧
        horizon * Span.perSecond ≤ clock.now.total + s.lineTimeout.nanos) ∧
    (∀ policy peer clock ts terminal,
      Connection.session policy peer (.ofConfig c clock) ts terminal = .clockOverflow ↔
        ∃ id since,
          (Connection.run policy peer (.ofConfig c clock) ts).settle.phase = .board id since ∧
          Board.SendsWell (terminal id) 0 Board.banner.length ∧
          horizon * Span.perSecond ≤ (clock.reading since).total + s.lineTimeout.nanos) := by
  have hboard (clock : Clock) (t : Terminal) :
      (Board.run clock t c.lineTimeout).outcome = .clockOverflow ↔
        Board.SendsWell t 0 Board.banner.length ∧
          horizon * Span.perSecond ≤ clock.now.total + s.lineTimeout.nanos := by
    rw [Board.outcome_eq_clockOverflow_iff, Clock.reaches_iff, Nat.not_lt,
      (Config.madeFrom_of_build h).lineTimeout]
  refine ⟨fun d hd => build_lineTimeout h hd, hboard, fun policy peer clock ts terminal => ?_⟩
  rw [Connection.session_eq_clockOverflow_iff]
  exact exists_congr fun id => exists_congr fun since => and_congr_right fun _ =>
    hboard (clock.later since) (terminal id)

/-! ### The longest wait -/

/-- The longest span of seconds and nanoseconds that fit into their words. -/
def longestSpan : Span :=
  .of 0xFFFFFFFFFFFFFFFF 999999999

/-- No clock can show the end of the longest span. -/
theorem not_reaches_longestSpan (clock : Clock) : ¬ clock.Reaches longestSpan := by
  rw [Clock.reaches_iff, Nat.not_lt]
  calc horizon * Span.perSecond
      ≤ longestSpan.nanos := by decide
    _ ≤ clock.now.total + longestSpan.nanos := Nat.le_add_left _ _

/-- Calls that set both keys and wait for a line as long as can be said. -/
def patientCalls : List Setting :=
  [.hostKey doorKey, .allowedKey spareKey, .lineTimeout longestSpan]

/-- What is built for the calls, without any file. -/
def patientConfig : Config :=
  ((initial none).applyAll patientCalls).toConfig (doorKey, none) spareKey

theorem build_patientCalls :
    ((initial none).applyAll patientCalls).build OpenSsh.load (fun _ => .error .notUtf8) =
      .ok patientConfig :=
  rfl

/-- A client that types a name at once. -/
def promptTyper : Terminal :=
  { arrivals := [⟨0, [0x61, 0x0A]⟩] }

/-- Nothing stops the run of the board but the clock. -/
theorem promptTyper_overflows :
    ((initial none).applyAll patientCalls).build OpenSsh.load (fun _ => .error .notUtf8) =
        .ok patientConfig ∧
      (Board.run Board.hourClock promptTyper patientConfig.lineTimeout).outcome
        = .clockOverflow := by
  have hiff := (overflows_iff build_patientCalls).2.1 Board.hourClock promptTyper
  refine ⟨build_patientCalls, hiff.mpr ⟨?_, ?_⟩⟩
  · exact fun _ _ => rfl
  · decide

/-- Not every run with a configuration that is built returns. -/
theorem not_forall_returns :
    ¬ ∀ (owner : Option String) (calls : List Setting) (loader : KeyLoader) (files : Files)
      (c : Config), ((initial owner).applyAll calls).build loader files = .ok c →
        ∀ clock t, (Board.run clock t c.lineTimeout).outcome ≠ .clockOverflow := by
  intro h
  refine h none patientCalls _ _ patientConfig build_patientCalls Board.hourClock promptTyper ?_
  exact Board.outcome_eq_clockOverflow_iff.mpr ⟨fun _ _ => rfl, not_reaches_longestSpan _⟩

end Settings

end Sysop
