/-
Sysop/Proofs/Board/Deadline.lean

One deadline for a whole line, however its chunks come in.

A run on a terminal without faults ends in one of three ways, and each at a known moment:
with the chunk that completes a line (`runs_to_line`), with the end of the input
(`runs_to_end`), or at the deadline (`runs_to_deadline`).  The deadline is that of the first
wait: a chunk that comes in before it does not move it, and one that comes in just then is
still read.

Main result: `run_meetsDeadline`.
-/
import Sysop.Proofs.Board.Conversation
import Sysop.Proofs.Board.Reading

namespace Sysop

open LineBuffer (Completes firstLine)

namespace Board

variable {clock : Clock} {t : Terminal} {timeout : Span}

/-! ### Chunks that were handed out -/

/-- The chunk that a call received. -/
def Call.chunk? : Call → Option Bytes
  | .receive (.chunk data) => some data
  | _ => none

theorem received_eq (r : Run) : r.received = r.calls.filterMap Call.chunk? := rfl

theorem filterMap_chunk?_sends (texts : List String) :
    (sends texts).filterMap Call.chunk? = [] := by
  simp [sends, Call.chunk?]

theorem filterMap_chunk?_receipts (as : List Arrival) :
    (receipts as).filterMap Call.chunk? = as.map (·.data) := by
  rw [receipts, List.filterMap_map]
  exact congrFun List.filterMap_eq_map' as

/-- A run that receives chunks, and then nothing more, was handed out these chunks. -/
theorem received_of_calls {r : Run} {texts : List String} {as : List Arrival}
    {last : List Call} (hcalls : r.calls = sends texts ++ receipts as ++ last)
    (hlast : last.filterMap Call.chunk? = []) : r.received = as.map (·.data) := by
  rw [received_eq, hcalls, List.filterMap_append, List.filterMap_append,
    filterMap_chunk?_sends, filterMap_chunk?_receipts, hlast, List.nil_append, List.append_nil]

/-! ### The three ways to end -/

/-- Chunk `i` is the first that completes a line, and it comes no later than the deadline. -/
def LineInTime (t : Terminal) (timeout : Span) (i : Nat) : Prop :=
  CompletedBy t.arrivals i ∧ waitOf (t.arrivals.take i) ≤ timeout.ceilMillis

/-- The input ends `w` after the last chunk, no later than the deadline. -/
def EndInTime (t : Terminal) (timeout : Span) (w : Nat) : Prop :=
  t.ending = some w ∧ waitOf t.arrivals + w ≤ timeout.ceilMillis

/-- Without a line in time, chunks that come in time complete none. -/
theorem not_completes_of_no_line (hline : ∀ i, ¬ LineInTime t timeout i) {n : Nat}
    (htime : waitOf (t.arrivals.take n) ≤ timeout.ceilMillis) :
    ¬ Completes nameLimit (bytesOf (t.arrivals.take n)) := by
  intro hcompletes
  obtain ⟨i, hi, hfirst⟩ := exists_completedBy hcompletes
  exact hline i ⟨hfirst, (waitOf_take_mono t.arrivals hi).trans htime⟩

/-- A run that ends with the chunk that completes a line. -/
theorem runs_to_line (h : Faultless t) (hclock : clock.Reaches timeout) {i : Nat}
    (hline : LineInTime t timeout i) :
    (run clock t timeout).outcome
        = .name (Utf8.decodeLossy (firstLine nameLimit (bytesOf (t.arrivals.take i)))) ∧
      (run clock t timeout).elapsed = waitOf (t.arrivals.take i) ∧
      (run clock t timeout).received = (t.arrivals.take i).map (·.data) := by
  have hread := readLine_of_completedBy hline.1 hline.2
  rw [run_of_line_some h hclock (congrArg Reading.line hread), hread]
  exact ⟨rfl, rfl, received_of_calls rfl rfl⟩

/-- A run that ends with the end of the input. -/
theorem runs_to_end (h : Faultless t) (hclock : clock.Reaches timeout) {w : Nat}
    (hline : ∀ i, ¬ LineInTime t timeout i) (hend : EndInTime t timeout w) :
    (run clock t timeout).outcome = .name (Utf8.decodeLossy (bytesOf t.arrivals)) ∧
      (run clock t timeout).elapsed = waitOf t.arrivals + w ∧
      (run clock t timeout).received = t.arrivals.map (·.data) := by
  obtain ⟨hending, htime⟩ := hend
  have hnot : ¬ Completes nameLimit (bytesOf (t.arrivals.take t.arrivals.length)) := by
    apply not_completes_of_no_line hline
    rw [List.take_length]
    omega
  rw [List.take_length] at hnot
  have hread := readLine_of_ended hending hnot htime
  have hrun := run_of_line_some h hclock (congrArg Reading.line hread)
  rw [hread, ← List.append_assoc, List.append_assoc _ [_]] at hrun
  exact ⟨congrArg Run.outcome hrun, congrArg Run.elapsed hrun,
    received_of_calls (congrArg Run.calls hrun) rfl⟩

/-- A run that ends at the deadline. -/
theorem runs_to_deadline (h : Faultless t) (hclock : clock.Reaches timeout)
    (hline : ∀ i, ¬ LineInTime t timeout i) (hend : ∀ w, ¬ EndInTime t timeout w) :
    (run clock t timeout).outcome = .fault (.lineTimeout timeout) ∧
      (run clock t timeout).elapsed = timeout.ceilMillis ∧
      (∃ k ≤ t.arrivals.length,
        (∀ j ≤ t.arrivals.length, j ≤ k ↔ waitOf (t.arrivals.take j) ≤ timeout.ceilMillis) ∧
        (run clock t timeout).received = (t.arrivals.take k).map (·.data)) ∧
      (run clock t timeout).sent = banner ∧ (run clock t timeout).closed = false := by
  obtain ⟨k, hk, hinTime⟩ := exists_inTime t.arrivals timeout.ceilMillis
  have htime : waitOf (t.arrivals.take k) ≤ timeout.ceilMillis := (hinTime k hk).mp le_rfl
  have hlate : k < t.arrivals.length →
      timeout.ceilMillis < waitOf (t.arrivals.take (k + 1)) := by
    intro hlt
    refine Nat.lt_of_not_le fun hnext => ?_
    exact Nat.not_succ_le_self k ((hinTime (k + 1) hlt).mpr hnext)
  have hendLate : t.arrivals.length ≤ k →
      ∀ w, t.ending = some w → timeout.ceilMillis < waitOf t.arrivals + w :=
    fun _ w hw => Nat.lt_of_not_le fun hle => hend w ⟨hw, hle⟩
  have hread := readLine_of_late (not_completes_of_no_line hline htime) htime hlate hendLate
  have hrun := run_of_line_none h hclock (congrArg Reading.line hread)
  rw [hread, ← List.append_assoc] at hrun
  have hcalls := congrArg Run.calls hrun
  obtain ⟨-, houtcome, hsent, hclosed⟩ := (course_run hclock).stopsAtDeadline hcalls
  exact ⟨houtcome, congrArg Run.elapsed hrun,
    ⟨k, hk, hinTime, received_of_calls hcalls rfl⟩, hsent, hclosed⟩

/-! ### The deadline -/

/-- When a run ends, how, and with which chunks. -/
structure MeetsDeadline (t : Terminal) (timeout : Span) (r : Run) : Prop where
  /-- The first chunk that completes a line comes in time. -/
  byLine : ∀ i, LineInTime t timeout i →
    (∃ username, r.outcome = .name username) ∧ r.elapsed = waitOf (t.arrivals.take i) ∧
      r.received = (t.arrivals.take i).map (·.data)
  /-- No chunk does, and the input ends in time. -/
  byEnd : (∀ i, ¬ LineInTime t timeout i) → ∀ w, EndInTime t timeout w →
    (∃ username, r.outcome = .name username) ∧ r.elapsed = waitOf t.arrivals + w ∧
      r.received = t.arrivals.map (·.data)
  /-- All else is late: the first `k` chunks were handed out, those that came in time. -/
  byDeadline : (∀ i, ¬ LineInTime t timeout i) → (∀ w, ¬ EndInTime t timeout w) →
    r.outcome = .fault (.lineTimeout timeout) ∧ r.elapsed = timeout.ceilMillis ∧
      (∃ k ≤ t.arrivals.length,
        (∀ j ≤ t.arrivals.length, j ≤ k ↔ waitOf (t.arrivals.take j) ≤ timeout.ceilMillis) ∧
        r.received = (t.arrivals.take k).map (·.data)) ∧
      r.sent = banner ∧ r.closed = false
  /-- No chunks postpone the deadline. -/
  bounded : r.elapsed ≤ timeout.ceilMillis

/-- Each run without faults ends when the deadline says. -/
theorem run_meetsDeadline (h : Faultless t) (hclock : clock.Reaches timeout) :
    MeetsDeadline t timeout (run clock t timeout) where
  byLine _ hline :=
    have ⟨houtcome, helapsed, hreceived⟩ := runs_to_line h hclock hline
    ⟨⟨_, houtcome⟩, helapsed, hreceived⟩
  byEnd hline _ hend :=
    have ⟨houtcome, helapsed, hreceived⟩ := runs_to_end h hclock hline hend
    ⟨⟨_, houtcome⟩, helapsed, hreceived⟩
  byDeadline hline hend := runs_to_deadline h hclock hline hend
  bounded := by
    by_cases hline : ∃ i, LineInTime t timeout i
    · obtain ⟨i, hi⟩ := hline
      rw [(runs_to_line h hclock hi).2.1]
      exact hi.2
    · have hline := not_exists.mp hline
      by_cases hend : ∃ w, EndInTime t timeout w
      · obtain ⟨w, hw⟩ := hend
        rw [(runs_to_end h hclock hline hw).2.1]
        exact hw.2
      · exact (runs_to_deadline h hclock hline (not_exists.mp hend)).2.1.le

/-- A terminal that types a letter each 300 milliseconds. -/
def slowTyper : Terminal :=
  { arrivals := [⟨300, [0x62]⟩, ⟨300, [0x6F]⟩, ⟨300, [0x62]⟩, ⟨300, [0x0D]⟩] }

theorem slowTyper_meetsDeadline :
    Faultless slowTyper ∧ hourClock.Reaches (.ofSeconds 1) ∧
      MeetsDeadline slowTyper (.ofSeconds 1) (run hourClock slowTyper (.ofSeconds 1)) ∧
      (run hourClock slowTyper (.ofSeconds 1)).received = [[0x62], [0x6F], [0x62]] :=
  ⟨⟨fun _ => rfl, rfl⟩, by decide, run_meetsDeadline ⟨fun _ => rfl, rfl⟩ (by decide),
    by decide +kernel⟩

end Board

end Sysop
