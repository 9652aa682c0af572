/-
Sysop/Proofs/Signal/Punctual.lean

A wait ends on time.

The first news of the notifier (a call, or its leaving) and the deadline say when a wait is due.
No wait ends before that (`Fitting.due_le`).  In a run in which no time passes while the wait
could end, it ends just then (`Scene.Timely.le_due`).
-/
import Sysop.Proofs.Signal.OneShot

namespace Sysop

namespace Signal

variable {α : Type}

/-! ### Runs without delay -/

namespace Scene

/-- Until when the wait that is under way can be left alone: until its deadline, unless it could
end now. -/
def leisure? (c : Scene α) (now : Nat) : Option Nat :=
  c.waiting.map fun alarm =>
    if c.signal.poll.isNone && !alarm.struck then alarm.deadline else now

/-- Time does not go back, and none passes while the wait could end. -/
def Timely (c : Scene α) (now : Nat) : List (Moment α) → Prop
  | [] => True
  | m :: ms =>
    now ≤ m.time ∧ (∀ limit ∈ c.leisure? now, m.time ≤ limit) ∧
      (c.step m.time m.move).2.Timely m.time ms

instance decidableTimely (c : Scene α) (now : Nat) : ∀ ms, Decidable (c.Timely now ms)
  | [] => .isTrue trivial
  | m :: ms =>
    have := decidableTimely (c.step m.time m.move).2 m.time ms
    inferInstanceAs (Decidable (_ ∧ _ ∧ _))

end Scene

/-! ### When a wait is due -/

namespace Entry

/-- A wait with the timeout begins, by the clock. -/
def Begins (e : Entry α) (clock : Clock) (timeout : Span) : Prop :=
  e.move = .wait clock timeout ∧ ∀ r, e.heard ≠ .reply r

/-- The time of news for the wait: the notifier is called, or it leaves. -/
def news? : Entry α → Option Nat
  | ⟨now, .act (.notify _), .reply (.answer _)⟩ => some now
  | ⟨now, .act .dropNotifier, .reply .done⟩ => some now
  | _ => none

theorem deadline?_of_begins {e : Entry α} {clock : Clock} {timeout : Span}
    (h : e.Begins clock timeout) :
    e.deadline? = some (e.time + patience clock timeout) := by
  obtain ⟨now, move, heard⟩ := e
  obtain ⟨rfl, hheard⟩ := h
  cases heard with
  | reply r => exact absurd rfl (hheard r)
  | _ => rfl

theorem news?_eq_none_iff {e : Entry α} : e.news? = none ↔ e.call? = none ∧ ¬ e.Leaves := by
  obtain ⟨now, move, heard⟩ := e
  rcases move with ⟨a | _ | _ | _⟩ | _ | _ | _ | _ <;>
    rcases heard with ⟨_ | _ | _⟩ | _ | _ <;> simp [news?, call?, Leaves]

theorem time_of_news? {e : Entry α} {t : Nat} (h : e.news? = some t) : e.time = t := by
  unfold news? at h
  split at h <;> simp_all

end Entry

/-- The time of the first news. -/
def news? (es : List (Entry α)) : Option Nat :=
  es.findSome? (·.news?)

/-- When a wait ends that begins and has its deadline at the given times: with the first news if
they come before the deadline, but not before it begins. -/
def due (es : List (Entry α)) (begun deadline : Nat) : Nat :=
  match news? es with
  | some t => min (max begun t) deadline
  | none => deadline

@[simp] theorem news?_nil : news? ([] : List (Entry α)) = none := rfl

@[simp] theorem news?_append (es fs : List (Entry α)) :
    news? (es ++ fs) = (news? es).or (news? fs) :=
  List.findSome?_append

@[simp] theorem news?_cons (e : Entry α) (es : List (Entry α)) :
    news? (e :: es) = e.news?.or (news? es) := by
  cases h : e.news? <;> simp [news?, h]

theorem news?_eq_none_iff {es : List (Entry α)} : news? es = none ↔ calls es = [] ∧ ¬ Left es := by
  simp [news?, calls, Left, Entry.news?_eq_none_iff, forall_and]

theorem exists_of_news?_eq {es : List (Entry α)} {t : Nat} (h : news? es = some t) :
    ∃ e ∈ es, e.time = t := by
  obtain ⟨e, hmem, he⟩ := List.exists_of_findSome?_eq_some h
  exact ⟨e, hmem, Entry.time_of_news? he⟩

theorem begun_le_due (es : List (Entry α)) {begun deadline : Nat} (h : begun ≤ deadline) :
    begun ≤ due es begun deadline := by
  unfold due
  split <;> omega

theorem due_le_deadline (es : List (Entry α)) (begun deadline : Nat) :
    due es begun deadline ≤ deadline := by
  unfold due
  split <;> omega

theorem le_due_of_le {es : List (Entry α)} {begun deadline now : Nat}
    (hnews : ∀ t ∈ news? es, now ≤ t) (hdeadline : now ≤ deadline) :
    now ≤ due es begun deadline := by
  unfold due
  split
  · rename_i t ht
    have hle := hnews t ht
    omega
  · exact hdeadline

/-! ### Not before it is due -/

/-- The entries are in the order of their times. -/
def Ordered (es : List (Entry α)) : Prop :=
  es.Pairwise fun e f => e.time ≤ f.time

/-- News that came before now, to a wait that has begun by now, are due by now. -/
theorem due_le_of_news {past rest : List (Entry α)} {begun deadline now : Nat}
    (hnews : news? past ≠ none) (hpast : ∀ e ∈ past, e.time ≤ now) (hbegun : begun ≤ now) :
    due (past ++ rest) begun deadline ≤ now := by
  obtain ⟨t, ht⟩ := Option.ne_none_iff_exists'.mp hnews
  obtain ⟨e, hmem, rfl⟩ := exists_of_news?_eq ht
  have hle := hpast e hmem
  unfold due
  rw [news?_append, ht]
  show min (max begun e.time) deadline ≤ now
  omega

namespace Fitting

variable {es : List (Entry α)} {b : Entry α} {clock : Clock} {timeout : Span}

/-- Nothing ends before the one wait begins, and it has not begun before. -/
theorem before_begin (h : Fitting es) {past rest : List (Entry α)} (hes : es = past ++ b :: rest)
    (hbegins : b.Begins clock timeout) : deadline? past = none ∧ ¬ Closed past := by
  obtain ⟨hmove, hheard⟩ := hbegins
  cases h past b rest hes with
  | begins hmay _ => exact hmay
  | looks _ _ => cases hmove
  | _ => exact absurd rfl (hheard _)

/-- The waiter does not go away before a wait begins. -/
theorem begun_le_of_closes (h : Fitting es) (hordered : Ordered es) (hb : b ∈ es)
    (hbegins : b.Begins clock timeout) {e : Entry α} (he : e ∈ es) (hcloses : e.Closes) :
    b.time ≤ e.time := by
  obtain ⟨past, rest, rfl⟩ := List.append_of_mem hb
  obtain ⟨-, hopen⟩ := h.before_begin rfl hbegins
  have hafter : e ∈ b :: rest :=
    (List.mem_append.mp he).resolve_left fun hbefore => hopen ⟨e, hbefore, hcloses⟩
  rcases List.mem_cons.mp hafter with rfl | hrest
  · exact Nat.le_refl _
  · exact List.rel_of_pairwise_cons (List.pairwise_append.mp hordered).2.1 hrest

/-- The deadline of the one wait is that of any wait that begins. -/
theorem deadline?_eq (h : Fitting es) (hb : b ∈ es) (hbegins : b.Begins clock timeout) :
    deadline? es = some (b.time + patience clock timeout) := by
  obtain ⟨past, rest, hes⟩ := List.append_of_mem hb
  obtain ⟨hnone, -⟩ := h.before_begin hes hbegins
  rw [hes, deadline?_append, deadline?_cons, hnone, Entry.deadline?_of_begins hbegins]
  rfl

/-- A deadline is struck when it has come. -/
theorem deadline_le_of_strikes (h : Fitting es) {s : Entry α} (hs : s ∈ es) (hstrikes : s.Strikes)
    {deadline : Nat} (hdeadline : deadline? es = some deadline) : deadline ≤ s.time := by
  obtain ⟨past, rest, rfl⟩ := List.append_of_mem hs
  obtain ⟨hmove, hheard⟩ := hstrikes
  cases h past s rest rfl with
  | strikes _ hstruck =>
    obtain rfl : _ = true := by simpa using hheard
    obtain ⟨d, hd, hle⟩ := hstruck.mp rfl
    have heq : d = deadline := by
      simpa [Option.mem_def.mp hd] using hdeadline
    exact heq ▸ hle
  | gone _ => cases hheard
  | _ => cases hmove

/-- A wait does not end before it is due. -/
theorem due_le (h : Fitting es) (hordered : Ordered es) (hb : b ∈ es)
    (hbegins : b.Begins clock timeout) {e : Entry α} (he : e ∈ es) {value : Option α}
    (hheard : e.heard = .ended value) :
    due es b.time (b.time + patience clock timeout) ≤ e.time := by
  have hdeadline := h.deadline?_eq hb hbegins
  have hbegun := h.begun_le_of_closes hordered hb hbegins he (.inr ⟨value, hheard⟩)
  obtain ⟨past, rest, rfl⟩ := List.append_of_mem he
  have hpast : ∀ f ∈ past, f.time ≤ e.time := fun f hf =>
    (List.pairwise_append.mp hordered).2.2 f hf e (by simp)
  have hfits := h past e rest rfl
  obtain ⟨hsees, -⟩ := hfits.sees_of_ended hheard
  by_cases hnews : news? past = none
  · -- without news, only the deadline ends the wait
    obtain ⟨hnone, hleft⟩ := news?_eq_none_iff.mp hnews
    cases hsees with
    | value hfirst => simp [hnone] at hfirst
    | nothing _ hover =>
      obtain ⟨s, hs, hstrikes⟩ := hover.resolve_left hleft
      have hstruck := h.deadline_le_of_strikes (List.mem_append_left _ hs) hstrikes hdeadline
      have hle := hpast s hs
      have hdue := due_le_deadline (past ++ e :: rest) b.time (b.time + patience clock timeout)
      omega
  · exact due_le_of_news hnews hpast hbegun

end Fitting

/-! ### Not after it is due -/

/-- No wait was left alone for too long. -/
structure OnTime (past : List (Entry α)) (c : Scene α) (now : Nat) : Prop
    extends Follows past c where
  deadline : ∀ alarm ∈ c.waiting, now ≤ alarm.deadline
  strike : ∀ alarm ∈ c.waiting, alarm.struck = true → alarm.deadline ≤ now
  news : c.waiting ≠ none → ∀ t ∈ news? past, now ≤ t

namespace OnTime

variable {past : List (Entry α)} {c c' : Scene α} {now time : Nat} {alarm : Alarm}

theorem start (now : Nat) : OnTime [] ({} : Scene α) now where
  toFollows := .start
  deadline := by simp
  strike := by simp
  news := by simp

/-- Before the next move no deadline passes. -/
theorem time_le_deadline (h : OnTime past c now) (halarm : c.waiting = some alarm)
    (htime : ∀ limit ∈ c.leisure? now, time ≤ limit) : time ≤ alarm.deadline := by
  have hlimit := htime (if c.signal.poll.isNone && !alarm.struck then alarm.deadline else now)
    (by simp [Scene.leisure?, halarm])
  have hdeadline := h.deadline alarm (by simp [halarm])
  split at hlimit <;> omega

/-- After news no time passes. -/
theorem time_le_of_news (h : OnTime past c now) (hwaiting : c.waiting ≠ none)
    (htime : ∀ limit ∈ c.leisure? now, time ≤ limit) {t : Nat} (ht : news? past = some t) :
    time ≤ t := by
  obtain ⟨alarm, halarm⟩ := Option.ne_none_iff_exists'.mp hwaiting
  have hopen := (h.waiting_ne_none_iff.mp hwaiting).2
  -- with news there is something for the wait to see
  have hpoll : c.signal.poll ≠ none := by
    rw [Ne, h.poll_eq_none_iff hopen, ← news?_eq_none_iff, ht]
    simp
  have hlimit : time ≤ now := by
    apply htime now
    simp [Scene.leisure?, halarm, hpoll]
  exact Nat.le_trans hlimit (h.news hwaiting t ht)

/-- A wait that is left to itself, whose deadline is struck, or that ends, is on time. -/
theorem keep (h : OnTime past c now) (hnow : now ≤ time)
    (htime : ∀ limit ∈ c.leisure? now, time ≤ limit) {e : Entry α} (he : e.time = time)
    (hfollows : Follows (past ++ [e]) c')
    (hkeeps : ∀ alarm' ∈ c'.waiting, ∃ alarm ∈ c.waiting, alarm'.deadline = alarm.deadline ∧
      (alarm'.struck = true → alarm.struck = true ∨ alarm.deadline ≤ time)) :
    OnTime (past ++ [e]) c' time where
  toFollows := hfollows
  deadline := by
    intro alarm' halarm'
    obtain ⟨alarm, halarm, heq, -⟩ := hkeeps alarm' halarm'
    rw [heq]
    exact h.time_le_deadline halarm htime
  strike := by
    intro alarm' halarm' hstruck'
    obtain ⟨alarm, halarm, heq, hstruck⟩ := hkeeps alarm' halarm'
    rw [heq]
    rcases hstruck hstruck' with hbefore | hle
    · exact Nat.le_trans (h.strike alarm halarm hbefore) hnow
    · exact hle
  news := by
    intro hwaiting t ht
    obtain ⟨alarm', halarm'⟩ := Option.ne_none_iff_exists'.mp hwaiting
    obtain ⟨alarm, halarm, -⟩ := hkeeps alarm' halarm'
    rw [news?_append] at ht
    rcases hpast : news? past with - | t'
    · -- the entry itself is the first news, and it is made now
      have hlast : news? [e] = some t := by simpa [hpast] using ht
      obtain ⟨e', hmem, hte⟩ := exists_of_news?_eq hlast
      obtain rfl := List.mem_singleton.mp hmem
      omega
    · obtain rfl : t' = t := by simpa [hpast] using ht
      exact h.time_le_of_news (by simp [Option.mem_def.mp halarm]) htime hpast

/-- A wait that has just begun is on time. -/
theorem begins (h : OnTime past c now) (hfree : c.waiting = none)
    (hwaiter : c.signal.hasWaiter = true) (hpoll : c.signal.poll = none) (clock : Clock)
    (timeout : Span) : OnTime (past ++ [⟨time, .wait clock timeout, .pending⟩])
      { c with waiting := some ⟨time + patience clock timeout, false⟩ } time where
  toFollows := h.toFollows.begins hfree hwaiter clock timeout
  deadline := by simp
  strike := by simp
  news := by
    have hopen := (h.free_iff.mp ⟨hfree, hwaiter⟩).2
    have hnone : news? past = none := news?_eq_none_iff.mpr ((h.poll_eq_none_iff hopen).mp hpoll)
    simp [hnone, Entry.news?]

theorem step (h : OnTime past c now) {move : Move α} {heard : Heard α} (hnow : now ≤ time)
    (htime : ∀ limit ∈ c.leisure? now, time ≤ limit) (hdoes : c.Does time move heard c') :
    OnTime (past ++ [⟨time, move, heard⟩]) c' time := by
  have hfollows := h.toFollows.step hdoes
  have hkeep := h.keep hnow htime rfl hfollows
  cases hdoes with
  | dropWaiter _ _ => exact hkeep (by simp [Scene.close])
  | ends _ _ => exact hkeep (by simp [Scene.close])
  | givesUp _ => exact hkeep (by simp [Scene.close])
  | strikes halarm hdue => exact hkeep (by simp [halarm, hdue])
  | pends hlooks hpoll _ =>
    cases hlooks with
    | begins hfree hwaiter => exact h.begins hfree hwaiter hpoll _ _
    | again halarm => exact hkeep (by simp +contextual [halarm])
  | _ =>
    apply hkeep
    intro alarm halarm
    exact ⟨alarm, halarm, rfl, .inl⟩

/-- The next move comes no later than when the wait is due, whatever the moves after it. -/
theorem le_due (h : OnTime past c now) (htime : ∀ limit ∈ c.leisure? now, time ≤ limit)
    (hopen : ¬ Closed past) {deadline : Nat} (hdeadline : deadline? past = some deadline)
    {rest : List (Entry α)} (hrest : ∀ e ∈ rest, time ≤ e.time) (begun : Nat) :
    time ≤ due (past ++ rest) begun deadline := by
  rw [← h.waiting hopen] at hdeadline
  obtain ⟨alarm, halarm, rfl⟩ := Option.map_eq_some_iff.mp hdeadline
  apply le_due_of_le
  · intro t ht
    rw [news?_append] at ht
    rcases hnews : news? past with - | t'
    · have hlater : news? rest = some t := by simpa [hnews] using ht
      obtain ⟨e, hmem, rfl⟩ := exists_of_news?_eq hlater
      exact hrest e hmem
    · obtain rfl : t' = t := by simpa [hnews] using ht
      exact h.time_le_of_news (by simp [halarm]) htime hnews
  · exact h.time_le_deadline halarm htime

end OnTime

/-- At any point of a run without delay, the wait is on time and what remains is without
delay. -/
theorem OnTime.run {more : List (Moment α)} (ms : List (Moment α)) {past : List (Entry α)}
    {c : Scene α} {now : Nat} (h : OnTime past c now) (htimely : c.Timely now (ms ++ more)) :
    ∃ now', OnTime (past ++ c.record ms) (c.play ms) now' ∧ (c.play ms).Timely now' more := by
  induction ms generalizing past c now with
  | nil => exact ⟨now, by simpa using h, htimely⟩
  | cons m ms ih =>
    obtain ⟨hnow, htime, hrest⟩ := htimely
    have hstep := h.step hnow htime (c.does_step m.time m.move)
    simpa [Scene.entry] using ih hstep hrest

/-- The entries of a run without delay are in the order of their times. -/
theorem Scene.Timely.ordered {c : Scene α} {now : Nat} {ms : List (Moment α)}
    (h : c.Timely now ms) : Ordered (c.record ms) ∧ ∀ e ∈ c.record ms, now ≤ e.time := by
  induction ms generalizing c now with
  | nil => simp [Ordered]
  | cons m ms ih =>
    obtain ⟨hnow, -, hrest⟩ := h
    obtain ⟨hordered, hlater⟩ := ih hrest
    refine ⟨List.pairwise_cons.mpr ⟨hlater, hordered⟩, ?_⟩
    intro e he
    rcases List.mem_cons.mp he with rfl | he
    · exact hnow
    · exact Nat.le_trans hnow (hlater e he)

/-- In a run without delay, nothing comes later than when the wait is due, unless the waiter has
gone before. -/
theorem Scene.Timely.le_due {ms : List (Moment α)} (htimely : ({} : Scene α).Timely 0 ms)
    {past rest : List (Entry α)} {e b : Entry α} {clock : Clock} {timeout : Span}
    (hes : ({} : Scene α).record ms = past ++ e :: rest) (hopen : ¬ Closed past)
    (hb : b ∈ past ++ e :: rest) (hbegins : b.Begins clock timeout) :
    e.time ≤ due (past ++ e :: rest) b.time (b.time + patience clock timeout) := by
  have hordered := htimely.ordered.1
  rw [hes, Ordered, List.pairwise_append, List.pairwise_cons] at hordered
  have hafter : ∀ f ∈ e :: rest, e.time ≤ f.time := by simpa using hordered.2.1.1
  rcases List.mem_append.mp hb with hpast | hrest
  · -- the wait is under way, and the scene before the entry knows its deadline
    obtain ⟨before, m, after, rfl, rfl, rfl⟩ := Scene.exists_of_record_eq hes
    obtain ⟨now, hontime, -, htime, -⟩ := (OnTime.start 0).run before htimely
    have hdeadline := (fitting_record before).deadline?_eq hpast hbegins
    exact hontime.le_due htime hopen hdeadline hafter b.time
  · have hle := hafter b hrest
    exact Nat.le_trans hle (begun_le_due _ (Nat.le_add_right _ _))

/-! ### On time -/

/-- The wait of the record ends at the time, unless the waiter goes away before. -/
structure EndsAt (es : List (Entry α)) (time : Nat) : Prop where
  ended : ∀ e ∈ es, ∀ value, e.heard = .ended value → e.time = time
  /-- The record does not go on for longer with the wait. -/
  late : ∀ past e rest, es = past ++ e :: rest → time < e.time → Closed past

/-- A wait whose deadline the clock can show ends with the first news, or at its deadline. -/
def Punctual (es : List (Entry α)) : Prop :=
  ∀ b ∈ es, ∀ clock timeout, b.Begins clock timeout → clock.Reaches timeout →
    EndsAt es (due es b.time (b.time + timeout.ceilMillis))

theorem Scene.Timely.punctual {ms : List (Moment α)} (h : ({} : Scene α).Timely 0 ms) :
    Punctual (({} : Scene α).record ms) := by
  intro b hb clock timeout hbegins hreaches
  have hfitting := fitting_record (α := α) ms
  rw [← patience_of_reaches hreaches]
  constructor
  · intro e he value hheard
    apply Nat.le_antisymm
    · obtain ⟨past, rest, hes⟩ := List.append_of_mem he
      obtain ⟨-, hopen⟩ := (hfitting past e rest hes).sees_of_ended hheard
      rw [hes] at hb ⊢
      exact h.le_due hes hopen hb hbegins
    · exact hfitting.due_le h.ordered.1 hb hbegins he hheard
  · intro past e rest hes hlate
    by_contra hopen
    rw [hes] at hb hlate
    exact absurd (h.le_due hes hopen hb hbegins) (Nat.not_le_of_lt hlate)

end Signal

end Sysop
