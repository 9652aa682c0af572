/-
Sysop/Proofs/Board/Reading.lean

How one line is read from chunks that come in over time.

Over chunks that come in time and do not complete a line, a reading only waits and gathers
bytes (`readFrom_append`).  Then one of three things ends it:

* a chunk that completes a line (`readLine_of_completedBy`),
* the end of the input (`readLine_of_ended`),
* the deadline, when the next thing would come after it (`readLine_of_late`).

Times are counted from the start of the reading: `waitOf` of the first chunks is the moment
at which the last of them comes.
-/
import Mathlib.Data.Nat.Find
import Sysop.Board
import Sysop.Proofs.LineBuffer.FirstLine

namespace Sysop

open LineBuffer (Completes firstLine)

namespace Board

/-! ### Chunks -/

/-- The bytes that chunks bring. -/
def bytesOf (as : List Arrival) : Bytes :=
  as.flatMap (·.data)

/-- How long a reader waits for chunks. -/
def waitOf : List Arrival → Nat
  | [] => 0
  | a :: as => a.wait + waitOf as

/-- The calls that receive chunks. -/
def receipts (as : List Arrival) : List Call :=
  as.map fun a => .receive (.chunk a.data)

@[simp] theorem bytesOf_nil : bytesOf [] = [] := rfl

@[simp] theorem bytesOf_cons (a : Arrival) (as : List Arrival) :
    bytesOf (a :: as) = a.data ++ bytesOf as := rfl

@[simp] theorem bytesOf_append (as more : List Arrival) :
    bytesOf (as ++ more) = bytesOf as ++ bytesOf more :=
  List.flatMap_append

@[simp] theorem waitOf_nil : waitOf [] = 0 := rfl

@[simp] theorem waitOf_cons (a : Arrival) (as : List Arrival) :
    waitOf (a :: as) = a.wait + waitOf as := rfl

@[simp] theorem waitOf_append (as more : List Arrival) :
    waitOf (as ++ more) = waitOf as + waitOf more := by
  induction as with
  | nil => simp
  | cons a as ih => rw [List.cons_append, waitOf_cons, waitOf_cons, ih, Nat.add_assoc]

theorem receipts_append (as more : List Arrival) :
    receipts (as ++ more) = receipts as ++ receipts more :=
  List.map_append

theorem waitOf_take_mono (as : List Arrival) {i j : Nat} (h : i ≤ j) :
    waitOf (as.take i) ≤ waitOf (as.take j) := by
  obtain ⟨more, hmore⟩ := List.take_prefix_take_left h (l := as)
  rw [← hmore, waitOf_append]
  exact Nat.le_add_right _ _

/-! ### The first chunk that completes a line -/

/-- The first `i` chunks complete a line, and fewer do not. -/
structure CompletedBy (as : List Arrival) (i : Nat) : Prop where
  le_length : i ≤ as.length
  completes : Completes nameLimit (bytesOf (as.take i))
  first : ∀ j < i, ¬ Completes nameLimit (bytesOf (as.take j))

variable {as : List Arrival}

theorem not_completes_nil : ¬ Completes nameLimit [] :=
  LineBuffer.not_completes_iff.mpr ⟨LineBuffer.inner_nil, by decide⟩

theorem CompletedBy.pos {i : Nat} (h : CompletedBy as i) : 0 < i := by
  refine Nat.pos_of_ne_zero ?_
  rintro rfl
  exact not_completes_nil h.completes

/-- If some chunks complete a line, one of them is the first to do so. -/
theorem exists_completedBy {n : Nat} (h : Completes nameLimit (bytesOf (as.take n))) :
    ∃ i ≤ n, CompletedBy as i := by
  have hexists : ∃ i, Completes nameLimit (bytesOf (as.take i)) := ⟨n, h⟩
  have hfirst : ∀ j < Nat.find hexists, ¬ Completes nameLimit (bytesOf (as.take j)) :=
    fun j hj => Nat.find_min hexists hj
  refine ⟨Nat.find hexists, Nat.find_min' hexists h, ?_, Nat.find_spec hexists, hfirst⟩
  -- beyond the last chunk nothing new comes
  by_contra hlong
  have hall : Completes nameLimit (bytesOf (as.take as.length)) := by
    rw [List.take_length, ← List.take_of_length_le (Nat.le_of_not_le hlong)]
    exact Nat.find_spec hexists
  exact hfirst as.length (Nat.lt_of_not_le hlong) hall

theorem completes_of_completedBy {i : Nat} (h : CompletedBy as i) :
    Completes nameLimit (bytesOf as) := by
  have happ : bytesOf (as.take i) ++ bytesOf (as.drop i) = bytesOf as := by
    rw [← bytesOf_append, List.take_append_drop]
  rw [← happ]
  exact h.completes.append _

/-- The chunks that come before a deadline are the first ones. -/
theorem exists_inTime (as : List Arrival) (deadline : Nat) :
    ∃ k ≤ as.length, ∀ j ≤ as.length, j ≤ k ↔ waitOf (as.take j) ≤ deadline := by
  refine ⟨Nat.findGreatest (fun j => waitOf (as.take j) ≤ deadline) as.length,
    Nat.findGreatest_le _, fun j hj => ⟨?_, fun htime => Nat.le_findGreatest hj htime⟩⟩
  intro hle
  have hstart : waitOf (as.take 0) ≤ deadline := Nat.zero_le _
  exact (waitOf_take_mono as hle).trans
    (Nat.findGreatest_spec (P := fun j => waitOf (as.take j) ≤ deadline) (Nat.zero_le _) hstart)

/-! ### One chunk -/

/-- The buffer of a reading that has gathered bytes. -/
def gathering (bs : Bytes) : LineBuffer :=
  { pending := bs, limit := nameLimit }

theorem extend_gathering (bs data : Bytes) :
    (gathering bs).extend data = gathering (bs ++ data) :=
  if_neg (by simp [gathering])

/-- The reading with calls before it. -/
def Reading.after (calls : List Call) (r : Reading) : Reading :=
  { r with calls := calls ++ r.calls }

variable {deadline now : Nat} {ending : Option Nat} {got : Bytes} {a : Arrival}
variable {rest : List Arrival}

theorem readFrom_cons_of_completes (htime : now + a.wait ≤ deadline)
    (h : Completes nameLimit (got ++ a.data)) :
    readFrom deadline ending now (gathering got) (a :: rest)
      = ⟨[.receive (.chunk a.data)], now + a.wait,
          some (Utf8.decodeLossy (firstLine nameLimit (got ++ a.data)))⟩ := by
  obtain ⟨b', hnext⟩ := LineBuffer.nextLine?_of_completes (b := gathering (got ++ a.data)) h
  rw [readFrom, if_pos htime, extend_gathering, hnext]
  rfl

theorem readFrom_cons_of_not_completes (htime : now + a.wait ≤ deadline)
    (h : ¬ Completes nameLimit (got ++ a.data)) :
    readFrom deadline ending now (gathering got) (a :: rest)
      = (readFrom deadline ending (now + a.wait) (gathering (got ++ a.data)) rest).after
          [.receive (.chunk a.data)] := by
  have hnext := LineBuffer.nextLine?_eq_none (b := gathering (got ++ a.data)) h
  rw [readFrom, if_pos htime, extend_gathering, hnext]
  rfl

theorem readFrom_cons_of_late (hlate : deadline < now + a.wait) :
    readFrom deadline ending now (gathering got) (a :: rest) = .late deadline := by
  rw [readFrom, if_neg (Nat.not_le_of_lt hlate)]

/-! ### The end of the chunks -/

theorem readFrom_nil_of_ended {w : Nat} (htime : now + w ≤ deadline)
    (h : ¬ Completes nameLimit got) :
    readFrom deadline (some w) now (gathering got) []
      = ⟨[.receive .ended], now + w, some (Utf8.decodeLossy got)⟩ := by
  have hremaining := LineBuffer.takeRemaining_of_not_completes (b := gathering got) h
  rw [readFrom, if_pos htime, hremaining]
  rfl

theorem readFrom_nil_of_late (hlate : ∀ w, ending = some w → deadline < now + w) :
    readFrom deadline ending now (gathering got) [] = .late deadline := by
  cases ending with
  | none => rfl
  | some w => rw [readFrom, if_neg (Nat.not_le_of_lt (hlate w rfl))]

/-! ### Many chunks -/

/-- Chunks that come in time and do not complete a line are waited for and gathered. -/
theorem readFrom_append (before rest : List Arrival) :
    ∀ {now : Nat} {got : Bytes}, now + waitOf before ≤ deadline →
      ¬ Completes nameLimit (got ++ bytesOf before) →
        readFrom deadline ending now (gathering got) (before ++ rest)
          = (readFrom deadline ending (now + waitOf before) (gathering (got ++ bytesOf before))
              rest).after (receipts before) := by
  induction before with
  | nil =>
    intro now got _ _
    rw [bytesOf_nil, List.append_nil]
    rfl
  | cons a before ih =>
    intro now got htime h
    rw [bytesOf_cons, ← List.append_assoc] at h ⊢
    rw [waitOf_cons, ← Nat.add_assoc] at htime ⊢
    have hnot : ¬ Completes nameLimit (got ++ a.data) := fun h' => h (h'.append _)
    have htime' : now + a.wait ≤ deadline := (Nat.le_add_right _ _).trans htime
    rw [List.cons_append, readFrom_cons_of_not_completes htime' hnot, ih htime h]
    rfl

/-! ### The three ends of a reading -/

variable {t : Terminal}

/-- A reading after its first chunks. -/
theorem readLine_eq_after {n : Nat} (h : ¬ Completes nameLimit (bytesOf (t.arrivals.take n)))
    (htime : waitOf (t.arrivals.take n) ≤ deadline) :
    readLine t deadline
      = (readFrom deadline t.ending (waitOf (t.arrivals.take n))
          (gathering (bytesOf (t.arrivals.take n))) (t.arrivals.drop n)).after
            (receipts (t.arrivals.take n)) := by
  have htime' : 0 + waitOf (t.arrivals.take n) ≤ deadline := by omega
  have happend : readFrom deadline t.ending 0 (gathering [])
      (t.arrivals.take n ++ t.arrivals.drop n) = _ :=
    readFrom_append (t.arrivals.take n) (t.arrivals.drop n) htime' h
  rw [List.take_append_drop, Nat.zero_add, List.nil_append] at happend
  exact happend

/-- A chunk completes a line in time. -/
theorem readLine_of_completedBy {i : Nat} (h : CompletedBy t.arrivals i)
    (htime : waitOf (t.arrivals.take i) ≤ deadline) :
    readLine t deadline
      = ⟨receipts (t.arrivals.take i), waitOf (t.arrivals.take i),
          some (Utf8.decodeLossy (firstLine nameLimit (bytesOf (t.arrivals.take i))))⟩ := by
  -- the chunk that completes the line is the last of the first `i`
  obtain ⟨j, rfl⟩ := Nat.exists_eq_succ_of_ne_zero h.pos.ne'
  have hj : j < t.arrivals.length := h.le_length
  have hnot : ¬ Completes nameLimit (bytesOf (t.arrivals.take j)) :=
    h.first j (Nat.lt_succ_self j)
  have hcompletes := h.completes
  rw [Nat.succ_eq_add_one, ← List.take_append_getElem hj] at hcompletes htime ⊢
  simp only [bytesOf_append, waitOf_append, bytesOf_cons, bytesOf_nil, waitOf_cons, waitOf_nil,
    List.append_nil, Nat.add_zero] at hcompletes htime ⊢
  rw [readLine_eq_after hnot (by omega), List.drop_eq_getElem_cons hj,
    readFrom_cons_of_completes htime hcompletes, receipts_append]
  rfl

/-- The input ends in time, and no line is complete. -/
theorem readLine_of_ended {w : Nat} (hending : t.ending = some w)
    (h : ¬ Completes nameLimit (bytesOf t.arrivals))
    (htime : waitOf t.arrivals + w ≤ deadline) :
    readLine t deadline
      = ⟨receipts t.arrivals ++ [.receive .ended], waitOf t.arrivals + w,
          some (Utf8.decodeLossy (bytesOf t.arrivals))⟩ := by
  rw [← List.take_length (l := t.arrivals)] at h
  rw [readLine_eq_after h (by rw [List.take_length]; omega), List.drop_length, hending]
  rw [List.take_length] at h ⊢
  rw [readFrom_nil_of_ended htime h]
  rfl

/-- Some chunks come in time and do not complete a line, and whatever is next comes after
the deadline. -/
theorem readLine_of_late {k : Nat} (h : ¬ Completes nameLimit (bytesOf (t.arrivals.take k)))
    (htime : waitOf (t.arrivals.take k) ≤ deadline)
    (hlate : k < t.arrivals.length → deadline < waitOf (t.arrivals.take (k + 1)))
    (hend : t.arrivals.length ≤ k →
      ∀ w, t.ending = some w → deadline < waitOf t.arrivals + w) :
    readLine t deadline
      = ⟨receipts (t.arrivals.take k) ++ [.receive .nothing], deadline, none⟩ := by
  have hnext : readFrom deadline t.ending (waitOf (t.arrivals.take k))
      (gathering (bytesOf (t.arrivals.take k))) (t.arrivals.drop k) = .late deadline := by
    rcases Nat.lt_or_ge k t.arrivals.length with hk | hk
    · have hwait := hlate hk
      rw [← List.take_append_getElem hk, waitOf_append, waitOf_cons, waitOf_nil] at hwait
      rw [List.drop_eq_getElem_cons hk]
      exact readFrom_cons_of_late (by omega)
    · rw [List.drop_of_length_le hk, List.take_of_length_le hk]
      exact readFrom_nil_of_late (hend hk)
  rw [readLine_eq_after h htime, hnext]
  rfl

end Board

end Sysop
