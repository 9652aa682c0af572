/-
Sysop/Proofs/Signal/Timeline.lean

A timeline played against a wait is a run.

`wait` plays acts with their times against one wait.  `promptly` lists the moves of the same
story: each act is followed by a look at the same time, and so is the strike of the deadline.
The run that makes these moves hears what `wait` answers, ends when `wait` ends and leaves the
same signal (`tells_wait`), and no time passes in it while the wait could end (`timely_wait`).
So what holds of every run (`heard_once`) holds of `wait`.
-/
import Sysop.Proofs.Signal.Punctual

namespace Sysop

namespace Signal

variable {α : Type}

/-! ### The moves of a timeline -/

/-- Acts at their times, but not before now. -/
def actsFrom (now : Nat) : List (Timed α) → List (Moment α)
  | [] => []
  | t :: rest => ⟨max now t.time, .act t.act⟩ :: actsFrom (max now t.time) rest

/-- The moves after a wait has begun. -/
def promptly (now deadline : Nat) : List (Timed α) → List (Moment α)
  | [] => [⟨deadline, .strike⟩, ⟨deadline, .look⟩]
  | t :: rest =>
    if t.time ≤ deadline then
      ⟨max now t.time, .act t.act⟩ :: ⟨max now t.time, .look⟩ ::
        promptly (max now t.time) deadline rest
    else ⟨deadline, .strike⟩ :: ⟨deadline, .look⟩ :: actsFrom deadline (t :: rest)

/-- The wait begins, and the moves after it. -/
def timeline (clock : Clock) (now : Nat) (timeout : Span) (acts : List (Timed α)) :
    List (Moment α) :=
  ⟨now, .wait clock timeout⟩ :: promptly now (now + patience clock timeout) acts

/-- Acts on a new signal, and then a wait with more acts. -/
def story (before : List (Timed α)) (clock : Clock) (now : Nat) (timeout : Span)
    (acts : List (Timed α)) : List (Moment α) :=
  actsFrom 0 before ++ timeline clock now timeout acts

namespace Entry

/-- The answer to an act. -/
def reply? : Entry α → Option Reply
  | ⟨_, .act _, .reply r⟩ => some r
  | _ => none

/-- What a wait ends with, and when. -/
def end? : Entry α → Option (Option α × Nat)
  | ⟨now, _, .ended value⟩ => some (value, now)
  | _ => none

end Entry

/-- A run answers the acts, ends waits and leaves the signal as given, with no wait under way. -/
structure Tells (c : Scene α) (ms : List (Moment α)) (replies : List Reply)
    (ends : List (Option α × Nat)) (s : Signal α) : Prop where
  replies : (c.record ms).filterMap (·.reply?) = replies
  ends : (c.record ms).filterMap (·.end?) = ends
  state : c.play ms = ⟨s, none⟩

namespace Tells

variable {c : Scene α} {ms : List (Moment α)} {replies : List Reply}
  {ends : List (Option α × Nat)} {s s' : Signal α} {now : Nat} {alarm : Alarm}

theorem nil (s : Signal α) : Tells ⟨s, none⟩ [] [] [] s where
  replies := rfl
  ends := rfl
  state := rfl

/-- A move that says something of the wait or of the clock, but does not end the wait. -/
theorem skip {move : Move α} {heard : Heard α} {c' : Scene α}
    (hstep : c.step now move = (heard, c')) (hmove : ∀ a, move ≠ .act a)
    (hheard : ∀ value, heard ≠ .ended value) (h : Tells c' ms replies ends s) :
    Tells c (⟨now, move⟩ :: ms) replies ends s where
  replies := by
    have hnone : (c.entry ⟨now, move⟩).reply? = none := by
      cases move <;> simp_all [Scene.entry, Entry.reply?]
    simpa [hnone, hstep] using h.replies
  ends := by
    have hnone : (c.entry ⟨now, move⟩).end? = none := by
      cases heard <;> simp_all [Scene.entry, Entry.end?]
    simpa [hnone, hstep] using h.ends
  state := by simpa [hstep] using h.state

theorem act {a : Act α} {r : Reply} {c' : Scene α} (hstep : c.step now (.act a) = (.reply r, c'))
    (h : Tells c' ms replies ends s) : Tells c (⟨now, .act a⟩ :: ms) (r :: replies) ends s where
  replies := by simpa [Scene.entry, Entry.reply?, hstep] using h.replies
  ends := by simpa [Scene.entry, Entry.end?, hstep] using h.ends
  state := by simpa [hstep] using h.state

theorem ended {move : Move α} {value : Option α} {c' : Scene α}
    (hstep : c.step now move = (.ended value, c')) (h : Tells c' ms replies ends s) :
    Tells c (⟨now, move⟩ :: ms) replies ((value, now) :: ends) s where
  replies := by simpa [Scene.entry, Entry.reply?, hstep] using h.replies
  ends := by simpa [Scene.entry, Entry.end?, hstep] using h.ends
  state := by simpa [hstep] using h.state

theorem append {ms' : List (Moment α)} {replies' : List Reply} {ends' : List (Option α × Nat)}
    (h : Tells c ms replies ends s) (h' : Tells ⟨s, none⟩ ms' replies' ends' s') :
    Tells c (ms ++ ms') (replies ++ replies') (ends ++ ends') s' where
  replies := by rw [Scene.record_append, List.filterMap_append, h.replies, h.state, h'.replies]
  ends := by rw [Scene.record_append, List.filterMap_append, h.ends, h.state, h'.ends]
  state := by rw [Scene.play_append, h.state, h'.state]

end Tells

/-! ### The same story -/

/-- A wait that could end now ends now, whatever comes later. -/
theorem wait_of_poll_eq_some {s : Signal α} {value : Option α} (h : s.poll = some value)
    (now deadline : Nat) (acts : List (Timed α)) :
    s.wait now deadline acts = s.finish value now acts := by
  cases acts <;> simp [wait, h]

theorem step_strike (s : Signal α) (deadline : Nat) :
    (⟨s, some ⟨deadline, false⟩⟩ : Scene α).step deadline .strike =
      (.reply (.answer true), ⟨s, some ⟨deadline, true⟩⟩) := by
  simp [Scene.step]

theorem step_look_of_struck {s : Signal α} (hpoll : s.poll = none) (alarm : Alarm)
    (hstruck : alarm.struck = true) (now : Nat) :
    (⟨s, some alarm⟩ : Scene α).step now .look = (.ended none, ⟨s.dropWaiter, none⟩) := by
  simp [Scene.step, Scene.look, hpoll, hstruck, Scene.close]

/-- Without a wait, the acts are performed one after another. -/
theorem tells_actsFrom (s : Signal α) (now : Nat) (acts : List (Timed α)) :
    Tells ⟨s, none⟩ (actsFrom now acts) (s.performAll (acts.map (·.act))).1 []
      (s.performAll (acts.map (·.act))).2 := by
  induction acts generalizing s now with
  | nil => exact .nil s
  | cons t rest ih => exact .act rfl (ih (s.perform t.act).2 (max now t.time))

/-- After the wait, nobody looks and no deadline is struck. -/
theorem tells_promptly (s : Signal α) (now deadline : Nat) (acts : List (Timed α)) :
    Tells ⟨s, none⟩ (promptly now deadline acts) (s.performAll (acts.map (·.act))).1 []
      (s.performAll (acts.map (·.act))).2 := by
  induction acts generalizing s now with
  | nil => exact .skip rfl nofun nofun (.skip rfl nofun nofun (.nil s))
  | cons t rest ih =>
    unfold promptly
    split
    · exact .act rfl (.skip rfl nofun nofun (ih (s.perform t.act).2 (max now t.time)))
    · exact .skip rfl nofun nofun (.skip rfl nofun nofun (tells_actsFrom s deadline (t :: rest)))

/-- A run goes as the wait did. -/
def TellsWait (c : Scene α) (ms : List (Moment α)) (w : Waited α) : Prop :=
  Tells c ms w.replies [(w.value, w.ended)] w.state

/-- A look that ends the wait, and what remains of the timeline. -/
theorem tellsWait_finish {s : Signal α} {c : Scene α} {move : Move α} {value : Option α}
    {now : Nat} {acts : List (Timed α)} {ms : List (Moment α)}
    (hstep : c.step now move = (.ended value, ⟨s.dropWaiter, none⟩))
    (hrest : Tells ⟨s.dropWaiter, none⟩ ms (s.dropWaiter.performAll (acts.map (·.act))).1 []
      (s.dropWaiter.performAll (acts.map (·.act))).2) :
    TellsWait c (⟨now, move⟩ :: ms) (s.finish value now acts) :=
  .ended hstep hrest

/-- The deadline is struck and looked at. -/
theorem tellsWait_deadline {s : Signal α} (hpoll : s.poll = none) (deadline : Nat)
    {acts : List (Timed α)} {ms : List (Moment α)}
    (hrest : Tells ⟨s.dropWaiter, none⟩ ms (s.dropWaiter.performAll (acts.map (·.act))).1 []
      (s.dropWaiter.performAll (acts.map (·.act))).2) :
    TellsWait ⟨s, some ⟨deadline, false⟩⟩ (⟨deadline, .strike⟩ :: ⟨deadline, .look⟩ :: ms)
      (s.finish none deadline acts) := by
  have hlook := step_look_of_struck hpoll ⟨deadline, true⟩ rfl deadline
  exact .skip (step_strike s deadline) nofun nofun (tellsWait_finish hlook hrest)

/-- A look before the deadline is struck either ends the wait or lets it go on. -/
theorem tellsWait_look {c : Scene α} {move : Move α} {now deadline : Nat} {acts : List (Timed α)}
    (hstep : c.step now move = c.look ⟨deadline, false⟩) (hmove : ∀ a, move ≠ .act a)
    (hpending : c.signal.poll = none → TellsWait ⟨c.signal, some ⟨deadline, false⟩⟩
      (promptly now deadline acts) (c.signal.wait now deadline acts)) :
    TellsWait c (⟨now, move⟩ :: promptly now deadline acts) (c.signal.wait now deadline acts) := by
  unfold Scene.look at hstep
  rcases hpoll : c.signal.poll with - | value
  · rw [hpoll] at hstep
    exact .skip hstep hmove nofun (hpending hpoll)
  · rw [hpoll] at hstep
    rw [wait_of_poll_eq_some hpoll]
    exact tellsWait_finish hstep (tells_promptly c.signal.dropWaiter now deadline acts)

/-- A wait that is under way and cannot end yet. -/
theorem tellsWait_waiting {s : Signal α} (hpoll : s.poll = none) (now deadline : Nat)
    (acts : List (Timed α)) :
    TellsWait ⟨s, some ⟨deadline, false⟩⟩ (promptly now deadline acts)
      (s.wait now deadline acts) := by
  -- induction on the acts, for any state in which the wait goes on
  induction acts generalizing s now with
  | nil =>
    simp only [wait, hpoll]
    exact tellsWait_deadline hpoll deadline (tells_actsFrom s.dropWaiter deadline [])
  | cons t rest ih =>
    simp only [wait, promptly, hpoll]
    split
    · exact .act rfl (tellsWait_look rfl nofun fun hnext => ih hnext (max now t.time))
    · exact tellsWait_deadline hpoll deadline (tells_actsFrom s.dropWaiter deadline (t :: rest))

/-- The run of a timeline answers what `wait` answers, ends when `wait` ends and leaves the same
signal. -/
theorem tells_wait {s : Signal α} (hwaiter : s.hasWaiter = true) (clock : Clock) (now : Nat)
    (timeout : Span) (acts : List (Timed α)) :
    TellsWait ⟨s, none⟩ (timeline clock now timeout acts)
      (s.wait now (now + patience clock timeout) acts) := by
  have hstep : (⟨s, none⟩ : Scene α).step now (.wait clock timeout) =
      (⟨s, none⟩ : Scene α).look ⟨now + patience clock timeout, false⟩ := by
    simp [Scene.step, hwaiter]
  exact tellsWait_look hstep (by simp) fun hpoll => tellsWait_waiting hpoll now _ acts

/-! ### Without delay -/

/-- Without a wait under way, time may pass. -/
theorem timely_of_le {s : Signal α} {now later : Nat} {ms : List (Moment α)} (hle : now ≤ later)
    (h : (⟨s, none⟩ : Scene α).Timely later ms) : (⟨s, none⟩ : Scene α).Timely now ms := by
  cases ms with
  | nil => trivial
  | cons m ms => exact ⟨Nat.le_trans hle h.1, nofun, h.2.2⟩

theorem timely_actsFrom_append {s : Signal α} {now later : Nat} {acts : List (Timed α)}
    {ms : List (Moment α)} (hle : now ≤ later) (hacts : ∀ t ∈ acts, t.time ≤ later)
    (h : (⟨(s.performAll (acts.map (·.act))).2, none⟩ : Scene α).Timely later ms) :
    (⟨s, none⟩ : Scene α).Timely now (actsFrom now acts ++ ms) := by
  induction acts generalizing s now with
  | nil => exact timely_of_le hle h
  | cons t rest ih =>
    obtain ⟨htime, hrest⟩ := List.forall_mem_cons.mp hacts
    exact ⟨Nat.le_max_left _ _, nofun, ih (Nat.max_le.mpr ⟨hle, htime⟩) hrest h⟩

theorem timely_actsFrom (s : Signal α) (now : Nat) (acts : List (Timed α)) :
    (⟨s, none⟩ : Scene α).Timely now (actsFrom now acts) := by
  induction acts generalizing s now with
  | nil => trivial
  | cons t rest ih =>
    exact ⟨Nat.le_max_left _ _, nofun, ih (s.perform t.act).2 (max now t.time)⟩

theorem timely_promptly (s : Signal α) {now deadline : Nat} (hdeadline : now ≤ deadline)
    (acts : List (Timed α)) : (⟨s, none⟩ : Scene α).Timely now (promptly now deadline acts) := by
  induction acts generalizing s now with
  | nil => exact ⟨hdeadline, nofun, Nat.le_refl _, nofun, trivial⟩
  | cons t rest ih =>
    unfold promptly
    split
    · rename_i htime
      have hnext : max now t.time ≤ deadline := Nat.max_le.mpr ⟨hdeadline, htime⟩
      exact ⟨Nat.le_max_left _ _, nofun, Nat.le_refl _, nofun, ih (s.perform t.act).2 hnext⟩
    · exact ⟨hdeadline, nofun, Nat.le_refl _, nofun, timely_actsFrom s deadline (t :: rest)⟩

/-- The deadline comes, and is struck and looked at with no delay. -/
theorem timely_deadline {s : Signal α} (hpoll : s.poll = none) {now deadline : Nat}
    (hdeadline : now ≤ deadline) {ms : List (Moment α)}
    (hrest : (⟨s.dropWaiter, none⟩ : Scene α).Timely deadline ms) :
    (⟨s, some ⟨deadline, false⟩⟩ : Scene α).Timely now
      (⟨deadline, .strike⟩ :: ⟨deadline, .look⟩ :: ms) := by
  have hlook := step_look_of_struck hpoll ⟨deadline, true⟩ rfl deadline
  refine ⟨hdeadline, by simp [Scene.leisure?, hpoll], Nat.le_refl _, ?_, ?_⟩
  · simp [step_strike, Scene.leisure?]
  · simpa only [step_strike, hlook] using hrest

/-- After a look with no delay comes the rest of the timeline. -/
theorem timely_look {c : Scene α} {now deadline : Nat} (hdeadline : now ≤ deadline)
    {acts : List (Timed α)} (hpending : c.signal.poll = none →
      (⟨c.signal, some ⟨deadline, false⟩⟩ : Scene α).Timely now (promptly now deadline acts)) :
    (c.look ⟨deadline, false⟩).2.Timely now (promptly now deadline acts) := by
  unfold Scene.look
  split
  · exact timely_promptly c.signal.dropWaiter hdeadline acts
  · rename_i hpoll
    exact hpending hpoll

theorem timely_waiting {s : Signal α} (hpoll : s.poll = none) {now deadline : Nat}
    (hdeadline : now ≤ deadline) (acts : List (Timed α)) :
    (⟨s, some ⟨deadline, false⟩⟩ : Scene α).Timely now (promptly now deadline acts) := by
  induction acts generalizing s now with
  | nil => exact timely_deadline hpoll hdeadline trivial
  | cons t rest ih =>
    unfold promptly
    split
    · rename_i htime
      have hnext : max now t.time ≤ deadline := Nat.max_le.mpr ⟨hdeadline, htime⟩
      refine ⟨Nat.le_max_left _ _, ?_, Nat.le_refl _, ?_, ?_⟩
      · simpa [Scene.leisure?, hpoll] using hnext
      · -- the act may be news, and then the look must follow at once
        simp only [Scene.leisure?, Option.map_eq_some_iff, Option.mem_def]
        rintro limit ⟨alarm, halarm, rfl⟩
        obtain rfl : ⟨deadline, false⟩ = alarm := Option.some.inj halarm
        split <;> simp [hnext]
      · exact timely_look hnext fun hnextpoll => ih hnextpoll hnext
    · exact timely_deadline hpoll hdeadline (timely_actsFrom s.dropWaiter deadline (t :: rest))

/-- In the run of a timeline, no time passes while the wait could end. -/
theorem timely_wait {s : Signal α} (hwaiter : s.hasWaiter = true) (clock : Clock) (now : Nat)
    (timeout : Span) (acts : List (Timed α)) :
    (⟨s, none⟩ : Scene α).Timely now (timeline clock now timeout acts) := by
  have hdeadline : now ≤ now + patience clock timeout := Nat.le_add_right _ _
  refine ⟨Nat.le_refl _, nofun, ?_⟩
  have hlook := timely_look (c := ⟨s, none⟩) hdeadline
    fun hpoll => timely_waiting hpoll hdeadline acts
  simpa [Scene.step, hwaiter] using hlook

/-! ### Heard once, on time -/

/-- Whatever is done around a new signal and a wait on it, in any order and at any times, the
signal is heard once; and if no time passes while the wait could end, the wait ends with the first
news or at its deadline.  Playing a timeline with `wait` is such a run. -/
theorem heard_once (α : Type) :
    (∀ ms : List (Moment α), OneShot (({} : Scene α).record ms) ∧
      (({} : Scene α).Timely 0 ms → Punctual (({} : Scene α).record ms))) ∧
    ∀ (before acts : List (Timed α)) (clock : Clock) (now : Nat) (timeout : Span),
      (∀ t ∈ before, t.time ≤ now) →
      ∀ (replies : List Reply) (s : Signal α),
        ({} : Signal α).performAll (before.map (·.act)) = (replies, s) → s.hasWaiter = true →
        ({} : Scene α).Timely 0 (story before clock now timeout acts) ∧
          Tells {} (story before clock now timeout acts)
            (replies ++ (s.wait now (now + patience clock timeout) acts).replies)
            [((s.wait now (now + patience clock timeout) acts).value,
              (s.wait now (now + patience clock timeout) acts).ended)]
            (s.wait now (now + patience clock timeout) acts).state := by
  refine ⟨fun ms => ⟨(fitting_record ms).oneShot, Scene.Timely.punctual⟩, ?_⟩
  intro before acts clock now timeout hbefore replies s hs hwaiter
  constructor
  · apply timely_actsFrom_append (Nat.zero_le now) hbefore
    rw [hs]
    exact timely_wait hwaiter clock now timeout acts
  · have htold := tells_actsFrom ({} : Signal α) 0 before
    rw [hs] at htold
    exact htold.append (tells_wait hwaiter clock now timeout acts)

/-- The clock of a machine that has been up for a day and a fraction of a second. -/
def dayClock : Clock := .startingAt ⟨86400, 250000000, by decide, by decide⟩

/-- A call at the very deadline, when the clock has struck but nobody has looked yet. -/
def lastMinute : List (Moment Nat) :=
  [⟨0, .wait dayClock (.of 0 4500000)⟩, ⟨2, .look⟩, ⟨5, .strike⟩, ⟨5, .act (.notify 7)⟩, ⟨5, .look⟩,
    ⟨6, .act (.notify 8)⟩, ⟨6, .act .isSpent⟩, ⟨9, .act .dropNotifier⟩]

theorem lastMinute_heard :
    OneShot (({} : Scene Nat).record lastMinute) ∧ ({} : Scene Nat).Timely 0 lastMinute ∧
      EndsAt (({} : Scene Nat).record lastMinute) 5 ∧
      ⟨5, .look, .ended (some 7)⟩ ∈ ({} : Scene Nat).record lastMinute ∧
      Tells ({} : Scene Nat)
        (story [⟨1, .isSpent⟩] dayClock 2 (.of 0 3000000) [⟨4, .dropNotifier⟩])
        [.answer false, .done] [(none, 4)] ⟨none, false, false, false⟩ := by
  obtain ⟨hruns, hwaits⟩ := heard_once Nat
  have htimely : ({} : Scene Nat).Timely 0 lastMinute := by decide
  have hends := (hruns lastMinute).2 htimely ⟨0, .wait dayClock (.of 0 4500000), .pending⟩
    (.head _) dayClock (.of 0 4500000) ⟨rfl, nofun⟩ (by decide)
  have hdue : due (({} : Scene Nat).record lastMinute) 0
      (0 + (Span.of 0 4500000).ceilMillis) = 5 := by
    decide
  have htold := (hwaits [⟨1, .isSpent⟩] [⟨4, .dropNotifier⟩] dayClock 2 (.of 0 3000000) (by decide)
    [.answer false] {} rfl rfl).2
  have hheard : ⟨5, .look, .ended (some 7)⟩ ∈ ({} : Scene Nat).record lastMinute :=
    .tail _ (.tail _ (.tail _ (.tail _ (.head _))))
  exact ⟨(hruns lastMinute).1, htimely, hdue ▸ hends, hheard, htold⟩

end Signal

end Sysop
