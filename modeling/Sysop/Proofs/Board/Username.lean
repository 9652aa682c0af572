/-
Sysop/Proofs/Board/Username.lean

The name that a run reads is a function of the bytes that come in, not of their chunks.

The bytes that are selected are those of the first line if a line is complete in time, and
all bytes if the input ends first (`selected_of_line`, `selected_of_end`).  `Names` says what
a run does with them.

Main result: `run_names`; `outcome_eq_of_bytesOf_eq` compares two ways to cut the same bytes.
-/
import Sysop.Proofs.Board.Deadline

namespace Sysop

open LineBuffer (Completes firstLine Inner)

namespace Board

variable {clock : Clock} {t : Terminal} {timeout : Span}

/-! ### Names -/

/-- A run ends with the name that bytes spell. -/
structure Names (r : Run) (bs : Bytes) : Prop where
  /-- Bytes that are no text become replacement characters. -/
  outcome : r.outcome = .name (Utf8.decodeLossy bs)
  /-- The name is answered, and nothing is sent after that. -/
  answered : r.sent = banner ++ [farewell (Utf8.decodeLossy bs)]
  /-- The name has no end of a line in it. -/
  oneLine : ∀ c ∈ (Utf8.decodeLossy bs).toList, c ≠ '\r' ∧ c ≠ '\n'
  /-- Bytes that are a text become this text. -/
  exact : ∀ text, bs = Utf8.encode text → Utf8.decodeLossy bs = text

/-- A run that ends with the name of bytes inside a line. -/
theorem names_of_outcome (hclock : clock.Reaches timeout) {bs : Bytes} (hinner : Inner bs)
    (houtcome : (run clock t timeout).outcome = .name (Utf8.decodeLossy bs)) :
    Names (run clock t timeout) bs where
  outcome := houtcome
  answered := (((course_run hclock).name_iff _).mp houtcome).1
  oneLine c hc :=
    ⟨fun hcr => LineBuffer.not_mem_decodeLossy hinner (.inl hcr) hc,
      fun hlf => LineBuffer.not_mem_decodeLossy hinner (.inr hlf) hc⟩
  exact text htext := by
    rw [htext, Utf8.decodeLossy_encode]

/-! ### The selected bytes -/

/-- The first line of chunks is that of the chunk that completes it. -/
theorem firstLine_take {as : List Arrival} {i n : Nat} (h : CompletedBy as i) (hle : i ≤ n) :
    firstLine nameLimit (bytesOf (as.take n)) = firstLine nameLimit (bytesOf (as.take i)) := by
  obtain ⟨more, hmore⟩ := List.take_prefix_take_left hle (l := as)
  rw [← hmore, bytesOf_append]
  exact LineBuffer.firstLine_append h.completes _

/-- The first chunks hold a line: it is the name, and no chunk after it is received. -/
theorem selected_of_line (h : Faultless t) (hclock : clock.Reaches timeout) {n : Nat}
    (htime : waitOf (t.arrivals.take n) ≤ timeout.ceilMillis)
    (hcompletes : Completes nameLimit (bytesOf (t.arrivals.take n))) :
    Names (run clock t timeout) (firstLine nameLimit (bytesOf (t.arrivals.take n))) ∧
      ∃ i ≤ n, CompletedBy t.arrivals i ∧
        (run clock t timeout).received = (t.arrivals.take i).map (·.data) := by
  obtain ⟨i, hle, hfirst⟩ := exists_completedBy hcompletes
  have hline : LineInTime t timeout i :=
    ⟨hfirst, (waitOf_take_mono t.arrivals hle).trans htime⟩
  obtain ⟨houtcome, -, hreceived⟩ := runs_to_line h hclock hline
  rw [← firstLine_take hfirst hle] at houtcome
  exact ⟨names_of_outcome hclock LineBuffer.inner_firstLine houtcome, i, hle, hfirst, hreceived⟩

/-- The input ends before a line is complete: all of it is the name. -/
theorem selected_of_end (h : Faultless t) (hclock : clock.Reaches timeout) {w : Nat}
    (hend : EndInTime t timeout w) (hnot : ¬ Completes nameLimit (bytesOf t.arrivals)) :
    Names (run clock t timeout) (bytesOf t.arrivals) ∧
      (run clock t timeout).received = t.arrivals.map (·.data) := by
  have hline : ∀ i, ¬ LineInTime t timeout i :=
    fun i hi => hnot (completes_of_completedBy hi.1)
  obtain ⟨houtcome, -, hreceived⟩ := runs_to_end h hclock hline hend
  have hinner : Inner (bytesOf t.arrivals) := (LineBuffer.not_completes_iff.mp hnot).1
  exact ⟨names_of_outcome hclock hinner houtcome, hreceived⟩

/-- Two terminals that hand out the same bytes in time are told the same name. -/
theorem outcome_eq_of_bytesOf_eq {t' : Terminal} (h : Faultless t) (h' : Faultless t')
    (hclock : clock.Reaches timeout) {n n' : Nat}
    (htime : waitOf (t.arrivals.take n) ≤ timeout.ceilMillis)
    (htime' : waitOf (t'.arrivals.take n') ≤ timeout.ceilMillis)
    (hcompletes : Completes nameLimit (bytesOf (t.arrivals.take n)))
    (hbytes : bytesOf (t.arrivals.take n) = bytesOf (t'.arrivals.take n')) :
    (run clock t timeout).outcome = (run clock t' timeout).outcome := by
  have hnames := (selected_of_line h hclock htime hcompletes).1.outcome
  rw [hbytes] at hcompletes hnames
  rw [hnames, (selected_of_line h' hclock htime' hcompletes).1.outcome]

/-! ### The name -/

/-- The name that a run reads, for chunks that come in time. -/
theorem run_names (h : Faultless t) (hclock : clock.Reaches timeout) :
    (∀ n, waitOf (t.arrivals.take n) ≤ timeout.ceilMillis →
      Completes nameLimit (bytesOf (t.arrivals.take n)) →
        Names (run clock t timeout) (firstLine nameLimit (bytesOf (t.arrivals.take n))) ∧
          ∃ i ≤ n, CompletedBy t.arrivals i ∧
            (run clock t timeout).received = (t.arrivals.take i).map (·.data)) ∧
    (∀ w, EndInTime t timeout w → ¬ Completes nameLimit (bytesOf t.arrivals) →
      Names (run clock t timeout) (bytesOf t.arrivals) ∧
        (run clock t timeout).received = t.arrivals.map (·.data)) :=
  ⟨fun _ htime hcompletes => selected_of_line h hclock htime hcompletes,
    fun _ hend hnot => selected_of_end h hclock hend hnot⟩

/-- A terminal that types a name with a character of two bytes, in chunks that cut the
character apart, and does not wait for the answer. -/
def hastyTyper : Terminal :=
  { arrivals := [⟨0, []⟩, ⟨5, [0x72, 0x65, 0x6E, 0xC3]⟩, ⟨5, [0xA9, 0x0D, 0x0A, 0x79]⟩,
      ⟨5, [0x0D]⟩] }

theorem hastyTyper_names :
    Faultless hastyTyper ∧ hourClock.Reaches (.ofSeconds 1) ∧
      waitOf (hastyTyper.arrivals.take 4) ≤ (Span.ofSeconds 1).ceilMillis ∧
      Completes nameLimit (bytesOf (hastyTyper.arrivals.take 4)) ∧
      Names (run hourClock hastyTyper (.ofSeconds 1)) (Utf8.encode "ren\u00e9") :=
  ⟨⟨fun _ => rfl, rfl⟩, by decide, by decide, by decide,
    ((run_names ⟨fun _ => rfl, rfl⟩ (by decide)).1 4 (by decide) (by decide)).1⟩

end Board

end Sysop
