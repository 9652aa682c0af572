/-
Sysop/Proofs/Board/Conversation.lean

The order of a run's calls, what it receives, and what a fault does to it.

A run ends at a part of the banner that cannot be sent, or it reads a line.  Then it ends at
the deadline, at a farewell that cannot be sent, at a close that fails, or with a name.
`Course` lists these, and `course_run` is the only place that opens `run` for it: all that
`KeepsProtocol` says about calls, faults and the outcome is read off the courses.

A reader takes the chunks as the terminal hands them out, and it stops with the first one that
completes a line (`HandedOut`).

Main result: `run_keepsProtocol`, for every terminal.
-/
import Sysop.Proofs.Board.Reading

namespace Sysop

open LineBuffer (Completes)

namespace Board

/-! ### Calls -/

/-- A call without how it went. -/
inductive Ask
  | send (text : String)
  | receive
  | close
  deriving DecidableEq, Repr

/-- What a call asks of the terminal. -/
def Call.ask : Call → Ask
  | .send text _ => .send text
  | .receive _ => .receive
  | .close _ => .close

/-- The fault of a call that failed. -/
def Call.fault? : Call → Option SessionFault
  | .send _ fault => fault
  | .receive _ => none
  | .close fault => fault

/-- The whole protocol: the banner, a number of receives, the farewell, and the close. -/
def protocol (username : String) (receives : Nat) : List Ask :=
  banner.map .send ++ List.replicate receives .receive ++ [.send (farewell username), .close]

/-- The calls that send texts without a fault. -/
def sends (texts : List String) : List Call :=
  texts.map fun text => .send text none

/-- The text of a call that sent one. -/
def Call.text? : Call → Option String
  | .send text none => some text
  | _ => none

/-- How a call that sends a text went. -/
def Call.sending? : Call → Option (Option SessionFault)
  | .send _ fault => some fault
  | _ => none

/-- What a call received. -/
def Call.receipt? : Call → Option Receipt
  | .receive receipt => some receipt
  | .send .. | .close _ => none

/-- What a run received, in order. -/
def Run.receipts (r : Run) : List Receipt :=
  r.calls.filterMap Call.receipt?

theorem sent_eq (r : Run) : r.sent = r.calls.filterMap Call.text? := rfl

theorem closed_iff (r : Run) : r.closed = true ↔ .close none ∈ r.calls := by
  rw [Run.closed, List.any_eq_true]
  constructor
  · rintro ⟨c, hc, hclose⟩
    cases c with
    | close fault =>
      cases fault with
      | none => exact hc
      | some fault => cases hclose
    | send => cases hclose
    | receive => cases hclose
  · exact fun h => ⟨.close none, h, rfl⟩

/-! ### Sending -/

variable {clock : Clock} {t : Terminal} {timeout : Span}

/-- The `n` sends from index `i` on do not fail. -/
def SendsWell (t : Terminal) (i n : Nat) : Prop :=
  ∀ j < n, t.sendFault (i + j) = none

theorem sendsWell_zero (i : Nat) : SendsWell t i 0 :=
  fun j hj => absurd hj (Nat.not_lt_zero j)

theorem SendsWell.cons {i n : Nat} (hi : t.sendFault i = none) (h : SendsWell t (i + 1) n) :
    SendsWell t i (n + 1) := by
  intro j hj
  cases j with
  | zero => exact hi
  | succ j =>
    have hnext : t.sendFault (i + 1 + j) = none := h j (Nat.lt_of_succ_lt_succ hj)
    rwa [Nat.add_assoc, Nat.add_comm 1] at hnext

/-- Either all texts are sent, or some are and the next one fails. -/
theorem sendAll_cases (texts : List String) :
    ∀ i, (sendAll t i texts = (sends texts, none) ∧ SendsWell t i texts.length) ∨
      ∃ before text after fault, texts = before ++ text :: after ∧
        SendsWell t i before.length ∧ t.sendFault (i + before.length) = some fault ∧
        sendAll t i texts = (sends before ++ [.send text (some fault)], some fault) := by
  induction texts with
  | nil => exact fun i => .inl ⟨rfl, sendsWell_zero i⟩
  | cons text texts ih =>
    intro i
    cases hfault : t.sendFault i with
    | some fault =>
      refine .inr ⟨[], text, texts, fault, rfl, sendsWell_zero i, hfault, ?_⟩
      simp [sendAll, hfault, sends]
    | none =>
      rcases ih (i + 1) with
        ⟨hall, hwell⟩ | ⟨before, text', after, fault, rfl, hwell, hat, hfails⟩
      · refine .inl ⟨?_, hwell.cons hfault⟩
        simp [sendAll, hfault, hall, sends]
      · refine .inr ⟨text :: before, text', after, fault, rfl, hwell.cons hfault, ?_, ?_⟩
        · rwa [Nat.add_assoc, Nat.add_comm 1] at hat
        · simp [sendAll, hfault, hfails, sends]

/-! ### Reading -/

/-- A reading only receives, and it receives nothing only when the deadline ends it. -/
theorem calls_readFrom (deadline : Nat) (ending : Option Nat) (now : Nat) (b : LineBuffer)
    (as : List Arrival) : ∃ receipts : List Receipt, (∀ receipt ∈ receipts, receipt ≠ .nothing) ∧
      (readFrom deadline ending now b as).calls = receipts.map .receive ++
        if (readFrom deadline ending now b as).line = none then [.receive .nothing] else [] := by
  induction as generalizing now b with
  | nil =>
    cases ending with
    | none => exact ⟨[], by simp, rfl⟩
    | some w =>
      rw [readFrom]
      split
      · exact ⟨[.ended], by simp, rfl⟩
      · exact ⟨[], by simp, rfl⟩
  | cons a as ih =>
    rw [readFrom]
    split
    · split
      · exact ⟨[.chunk a.data], by simp, rfl⟩
      · obtain ⟨receipts, hreceipts, hcalls⟩ := ih (now + a.wait) (b.extend a.data)
        refine ⟨.chunk a.data :: receipts, by simpa using hreceipts, ?_⟩
        dsimp only
        rw [hcalls]
        rfl
    · exact ⟨[], by simp, rfl⟩

/-! ### What a reader is handed -/

/-- What a reader is handed that has read some bytes before: chunks up to the one that completes
a line; or all of them, which complete none, and then their end, if they have one; or some of the
first ones, which complete none, and then nothing until the deadline. -/
inductive HandedOut (ending : Option Nat) (got : Bytes) (chunks : List Bytes) :
    List Receipt → Prop
  | line (before after : List Bytes) (last : Bytes) :
      chunks = before ++ last :: after → ¬ Completes nameLimit (got ++ before.flatten) →
      Completes nameLimit (got ++ before.flatten ++ last) →
        HandedOut ending got chunks (before.map .chunk ++ [.chunk last])
  | ended : ending ≠ none → ¬ Completes nameLimit (got ++ chunks.flatten) →
        HandedOut ending got chunks (chunks.map .chunk ++ [.ended])
  | late (first after : List Bytes) :
      chunks = first ++ after → ¬ Completes nameLimit (got ++ first.flatten) →
        HandedOut ending got chunks (first.map .chunk ++ [.nothing])

/-- What a run receives: what a reader is handed, or nothing if the run does not come to read. -/
structure Receives (reads : Prop) (ending : Option Nat) (chunks : List Bytes)
    (receipts : List Receipt) : Prop where
  reading : reads → HandedOut ending [] chunks receipts
  unread : ¬ reads → receipts = []

namespace HandedOut

variable {ending : Option Nat} {got data : Bytes} {chunks : List Bytes} {receipts : List Receipt}

/-- A chunk comes before the others and completes no line. -/
theorem cons (h : HandedOut ending (got ++ data) chunks receipts) :
    HandedOut ending got (data :: chunks) (.chunk data :: receipts) := by
  cases h with
  | line before after last hchunks hnot hcompletes =>
    apply line (data :: before) after last
    · rw [hchunks, List.cons_append]
    · rwa [List.flatten_cons, ← List.append_assoc]
    · rwa [List.flatten_cons, ← List.append_assoc]
  | ended hending hnot =>
    show HandedOut ending got (data :: chunks) ((data :: chunks).map .chunk ++ [.ended])
    apply ended hending
    rwa [List.flatten_cons, ← List.append_assoc]
  | late first after hchunks hnot =>
    apply late (data :: first) after
    · rw [hchunks, List.cons_append]
    · rwa [List.flatten_cons, ← List.append_assoc]

theorem late_of_not_completes (hnot : ¬ Completes nameLimit got) :
    HandedOut ending got chunks [.nothing] :=
  late [] chunks rfl (by simpa using hnot)

end HandedOut

/-- A reading is handed what its chunks are, as long as no line is complete before. -/
theorem handedOut_readFrom (deadline : Nat) (ending : Option Nat) (as : List Arrival) :
    ∀ {now : Nat} {got : Bytes}, ¬ Completes nameLimit got →
      HandedOut ending got (as.map (·.data))
        ((readFrom deadline ending now (gathering got) as).calls.filterMap Call.receipt?) := by
  induction as with
  | nil =>
    intro now got hnot
    cases ending with
    | none => exact .late_of_not_completes hnot
    | some w =>
      rw [readFrom]
      split
      · show HandedOut (some w) got [] ([].map .chunk ++ [.ended])
        exact .ended (by simp) (by simpa using hnot)
      · exact .late_of_not_completes hnot
  | cons a as ih =>
    intro now got hnot
    rcases Nat.lt_or_ge deadline (now + a.wait) with hlate | htime
    · rw [readFrom_cons_of_late hlate]
      exact .late_of_not_completes hnot
    · by_cases hcompletes : Completes nameLimit (got ++ a.data)
      · rw [readFrom_cons_of_completes htime hcompletes]
        exact .line [] (as.map (·.data)) a.data rfl (by simpa using hnot)
          (by simpa using hcompletes)
      · rw [readFrom_cons_of_not_completes htime hcompletes]
        exact (ih hcompletes).cons

theorem handedOut_readLine (t : Terminal) (deadline : Nat) :
    HandedOut t.ending [] (t.arrivals.map (·.data))
      ((readLine t deadline).calls.filterMap Call.receipt?) :=
  handedOut_readFrom deadline t.ending t.arrivals not_completes_nil

/-! ### The courses of a run -/

/-- The last calls of a run that sent its banner, and its outcome. -/
inductive Finish (t : Terminal) (timeout : Span) : List Call → Outcome → Prop
  | late : Finish t timeout [.receive .nothing] (.fault (.lineTimeout timeout))
  | farewellFails {username : String} {fault : SessionFault} :
      t.sendFault banner.length = some fault →
        Finish t timeout [.send (farewell username) (some fault)] (.fault fault)
  | closeFails {username : String} {fault : SessionFault} :
      t.sendFault banner.length = none → t.closeFault = some fault →
        Finish t timeout [.send (farewell username) none, .close (some fault)] (.fault fault)
  | named {username : String} :
      t.sendFault banner.length = none → t.closeFault = none →
        Finish t timeout [.send (farewell username) none, .close none] (.name username)

/-- The calls of a run and its outcome. -/
inductive Course (t : Terminal) (timeout : Span) : List Call → Outcome → Prop
  | bannerFails {before after : List String} {text : String} {fault : SessionFault} :
      banner = before ++ text :: after → SendsWell t 0 before.length →
      t.sendFault before.length = some fault →
        Course t timeout (sends before ++ [.send text (some fault)]) (.fault fault)
  | reads {receipts : List Receipt} {last : List Call} {outcome : Outcome} :
      SendsWell t 0 banner.length → (∀ receipt ∈ receipts, receipt ≠ .nothing) →
      Finish t timeout last outcome →
      HandedOut t.ending [] (t.arrivals.map (·.data))
        ((receipts.map Call.receive ++ last).filterMap Call.receipt?) →
        Course t timeout (sends banner ++ receipts.map .receive ++ last) outcome

/-- A name that was read is answered, and the channel is closed. -/
theorem finish_sayFarewell (username : String) :
    Finish t timeout (sayFarewell t username).1 (sayFarewell t username).2 := by
  unfold sayFarewell
  cases hsend : t.sendFault banner.length with
  | some fault => exact .farewellFails hsend
  | none =>
    cases hclose : t.closeFault with
    | some fault => exact .closeFails hsend hclose
    | none => exact .named hsend hclose

/-- The farewell and the close receive nothing. -/
theorem filterMap_receipt?_sayFarewell (t : Terminal) (username : String) :
    (sayFarewell t username).1.filterMap Call.receipt? = [] := by
  unfold sayFarewell
  split
  · rfl
  · split <;> rfl

/-- Every run takes one of the courses. -/
theorem course_run (hclock : clock.Reaches timeout) :
    Course t timeout (run clock t timeout).calls (run clock t timeout).outcome := by
  unfold run
  rcases sendAll_cases (t := t) banner 0 with
    ⟨hall, hwell⟩ | ⟨before, text, after, fault, hbanner, hwell, hat, hfails⟩
  · have hhanded := handedOut_readLine t (clock.timer timeout)
    obtain ⟨receipts, hreceipts, hcalls⟩ :=
      calls_readFrom (clock.timer timeout) t.ending 0 (.empty nameLimit) t.arrivals
    change (readLine t (clock.timer timeout)).calls = receipts.map .receive ++
      (if (readLine t (clock.timer timeout)).line = none then [.receive .nothing] else [])
        at hcalls
    rw [hcalls] at hhanded
    simp only [hall, if_pos hclock, hcalls]
    cases hline : (readLine t (clock.timer timeout)).line with
    | none =>
      rw [if_pos hline] at hhanded
      rw [if_pos rfl, ← List.append_assoc]
      exact .reads hwell hreceipts .late hhanded
    | some username =>
      rw [if_neg (by simp [hline]), List.append_nil] at hhanded
      rw [if_neg (by simp), List.append_nil]
      refine .reads hwell hreceipts (finish_sayFarewell username) ?_
      rwa [List.filterMap_append, filterMap_receipt?_sayFarewell, List.append_nil]
  · simp only [hfails]
    rw [Nat.zero_add] at hat
    exact .bannerFails hbanner hwell hat

/-! ### Order -/

variable {calls : List Call} {outcome : Outcome}

theorem map_ask_sends (texts : List String) : (sends texts).map Call.ask = texts.map .send := by
  simp [sends, Call.ask]

theorem map_ask_receives (receipts : List Receipt) :
    (receipts.map Call.receive).map Call.ask = List.replicate receipts.length .receive := by
  rw [List.map_map]
  exact List.map_const'

/-- The calls of a course begin the protocol. -/
theorem Course.order (h : Course t timeout calls outcome) :
    ∃ username receives, calls.map Call.ask <+: protocol username receives := by
  cases h with
  | bannerFails hbanner =>
    refine ⟨"", 0, ?_⟩
    rw [protocol, hbanner, List.map_append, map_ask_sends]
    simp [Call.ask]
  | @reads receipts last outcome _ _ hfinish _ =>
    rw [List.map_append, List.map_append, map_ask_sends, map_ask_receives]
    cases hfinish with
    | late =>
      refine ⟨"", receipts.length + 1, ?_⟩
      rw [protocol, List.replicate_succ', ← List.append_assoc]
      exact List.prefix_append _ _
    | @farewellFails username =>
      refine ⟨username, receipts.length, ?_⟩
      rw [protocol, List.prefix_append_right_inj]
      exact ⟨[.close], rfl⟩
    | @closeFails username => exact ⟨username, receipts.length, List.prefix_rfl⟩
    | @named username => exact ⟨username, receipts.length, List.prefix_rfl⟩

theorem not_receive_of_mem_sends {texts : List String} {receipt : Receipt} :
    Call.receive receipt ∉ sends texts := by
  simp [sends]

/-- Something that is not in the front of a list comes behind all of it. -/
theorem prefix_of_append_eq {α : Type} {front back before after : List α} {x : α}
    (h : front ++ back = before ++ x :: after) (hx : x ∉ front) : front <+: before := by
  rcases List.append_eq_append_iff.mp h with ⟨more, rfl, -⟩ | ⟨more, rfl, hmore⟩
  · exact List.prefix_append front more
  · cases more with
    | nil => exact ⟨[], by simp⟩
    | cons y more =>
      obtain ⟨rfl, -⟩ := List.cons.inj hmore
      exact absurd (List.mem_append_right before List.mem_cons_self) hx

/-- Before anything is received the whole banner was sent. -/
theorem Course.bannerFirst (h : Course t timeout calls outcome) {before after : List Call}
    {receipt : Receipt} (hcalls : calls = before ++ .receive receipt :: after) :
    sends banner <+: before := by
  cases h with
  | bannerFails _ _ _ =>
    have hmem : Call.receive receipt ∈ before ++ .receive receipt :: after :=
      List.mem_append_right before List.mem_cons_self
    rw [← hcalls] at hmem
    simp [sends] at hmem
  | reads _ _ _ _ =>
    rw [List.append_assoc] at hcalls
    exact prefix_of_append_eq hcalls not_receive_of_mem_sends

/-! ### Faults -/

/-- A call that ends a run: it failed, or it waited until the deadline. -/
def Call.Ends (timeout : Span) (c : Call) (outcome : Outcome) : Prop :=
  (∃ fault, c.fault? = some fault ∧ outcome = .fault fault) ∨
    (c = .receive .nothing ∧ outcome = .fault (.lineTimeout timeout))

/-- A call that a run goes on after. -/
def Call.Quiet (c : Call) : Prop :=
  c.fault? = none ∧ c ≠ .receive .nothing

theorem quiet_of_mem_front {receipts : List Receipt}
    (h : ∀ receipt ∈ receipts, receipt ≠ .nothing) {c : Call}
    (hc : c ∈ sends banner ++ receipts.map .receive) : c.Quiet := by
  rcases List.mem_append.mp hc with hsend | hreceive
  · obtain ⟨text, -, rfl⟩ := List.mem_map.mp hsend
    exact ⟨rfl, by simp⟩
  · obtain ⟨receipt, hmem, rfl⟩ := List.mem_map.mp hreceive
    exact ⟨rfl, by simpa using h receipt hmem⟩

/-- Only the last call of a course can end it, and then it decides the outcome. -/
theorem Course.exists_last (h : Course t timeout calls outcome) :
    ∃ quiet last, calls = quiet ++ [last] ∧ (∀ c ∈ quiet, c.Quiet) ∧
      (last.Ends timeout outcome ∨
        (last = .close none ∧ ∃ username, outcome = .name username)) := by
  cases h with
  | @bannerFails before after text fault _ _ _ =>
    refine ⟨sends before, _, rfl, ?_, .inl (.inl ⟨fault, rfl, rfl⟩)⟩
    intro c hc
    obtain ⟨text', -, rfl⟩ := List.mem_map.mp hc
    exact ⟨rfl, by simp⟩
  | @reads receipts last outcome _ hreceipts hfinish _ =>
    have hfront : ∀ c ∈ sends banner ++ receipts.map .receive, c.Quiet :=
      fun c hc => quiet_of_mem_front hreceipts hc
    have hfarewell : ∀ text, ∀ c ∈ sends banner ++ receipts.map .receive ++ [.send text none],
        c.Quiet := by
      intro text c hc
      rcases List.mem_append.mp hc with hc | hc
      · exact hfront c hc
      · obtain rfl := List.mem_singleton.mp hc
        exact ⟨rfl, by simp⟩
    cases hfinish with
    | late => exact ⟨_, _, rfl, hfront, .inl (.inr ⟨rfl, rfl⟩)⟩
    | farewellFails _ => exact ⟨_, _, rfl, hfront, .inl (.inl ⟨_, rfl, rfl⟩)⟩
    | @closeFails username fault _ _ =>
      refine ⟨_, .close (some fault), ?_, hfarewell (farewell username),
        .inl (.inl ⟨fault, rfl, rfl⟩)⟩
      rw [List.append_assoc _ [_]]
      rfl
    | @named username _ _ =>
      refine ⟨_, .close none, ?_, hfarewell (farewell username), .inr ⟨rfl, username, rfl⟩⟩
      rw [List.append_assoc _ [_]]
      rfl

/-- A call that is not quiet is the last one, and it decides the outcome. -/
theorem Course.stops (h : Course t timeout calls outcome) {before after : List Call}
    {c : Call} (hcalls : calls = before ++ c :: after) (hc : ¬ c.Quiet) :
    after = [] ∧ c.Ends timeout outcome := by
  obtain ⟨quiet, last, rfl, hquiet, hlast⟩ := h.exists_last
  obtain ⟨more, rfl⟩ := prefix_of_append_eq hcalls fun hmem => hc (hquiet c hmem)
  rw [List.append_assoc, List.append_cancel_left_eq] at hcalls
  -- one call is left for `more`, the call in question and what comes after it
  obtain ⟨rfl, rfl, rfl⟩ : more = [] ∧ last = c ∧ after = [] := by
    cases more with
    | nil => simpa using hcalls
    | cons d more => simp at hcalls
  refine ⟨rfl, hlast.resolve_right ?_⟩
  rintro ⟨rfl, -⟩
  exact hc ⟨rfl, by simp⟩

/-! ### Texts -/

theorem filterMap_text?_sends (texts : List String) :
    (sends texts).filterMap Call.text? = texts := by
  rw [sends, List.filterMap_map]
  exact List.filterMap_some

theorem filterMap_text?_receives (receipts : List Receipt) :
    (receipts.map Call.receive).filterMap Call.text? = [] := by
  simp [Call.text?]

/-- The texts that are sent after the banner are those of the last calls. -/
theorem texts_reads (receipts : List Receipt) (last : List Call) :
    (sends banner ++ receipts.map Call.receive ++ last).filterMap Call.text?
      = banner ++ last.filterMap Call.text? := by
  rw [List.filterMap_append, List.filterMap_append, filterMap_text?_sends,
    filterMap_text?_receives, List.append_nil]

theorem close_mem_reads {receipts : List Receipt} {last : List Call}
    {fault : Option SessionFault} :
    .close fault ∈ sends banner ++ receipts.map Call.receive ++ last ↔ .close fault ∈ last := by
  simp [sends]

/-- A course that waits until the deadline sends the banner and nothing else. -/
theorem Course.texts_of_nothing (h : Course t timeout calls outcome)
    (hnothing : .receive .nothing ∈ calls) : calls.filterMap Call.text? = banner := by
  cases h with
  | bannerFails _ _ _ => simp [sends] at hnothing
  | reads _ hreceipts hfinish _ =>
    have hlast : Call.receive .nothing ∈ _ :=
      (List.mem_append.mp hnothing).resolve_left fun hmem =>
        (quiet_of_mem_front hreceipts hmem).2 rfl
    rw [texts_reads]
    cases hfinish with
    | late => rfl
    | farewellFails _ => simp at hlast
    | closeFails _ _ => simp at hlast
    | named _ _ => simp at hlast

/-- A course ends with a name, which is answered before the close, or it never closes. -/
theorem Course.named_or_open (h : Course t timeout calls outcome) :
    (∃ username, outcome = .name username ∧
        calls.filterMap Call.text? = banner ++ [farewell username] ∧ .close none ∈ calls) ∨
      ((∀ username, outcome ≠ .name username) ∧ .close none ∉ calls) := by
  cases h with
  | bannerFails _ _ _ => exact .inr ⟨by simp, by simp [sends]⟩
  | reads _ _ hfinish _ =>
    rw [texts_reads, close_mem_reads]
    cases hfinish with
    | late => exact .inr ⟨by simp, by simp⟩
    | farewellFails _ => exact .inr ⟨by simp, by simp⟩
    | closeFails _ _ => exact .inr ⟨by simp, by simp⟩
    | @named username _ _ => exact .inl ⟨username, rfl, rfl, by simp⟩

/-! ### What the terminal did -/

theorem map_sendFault {n : Nat} (h : SendsWell t 0 n) :
    (List.range n).map t.sendFault = List.replicate n none := by
  rw [List.eq_replicate_iff]
  refine ⟨by simp, ?_⟩
  intro fault hmem
  obtain ⟨i, hi, rfl⟩ := List.mem_map.mp hmem
  have hnone := h i (List.mem_range.mp hi)
  rwa [Nat.zero_add] at hnone

theorem filterMap_sending?_sends (texts : List String) :
    (sends texts).filterMap Call.sending? = List.replicate texts.length none := by
  rw [sends, List.filterMap_map]
  induction texts with
  | nil => rfl
  | cons text texts ih => exact congrArg (none :: ·) ih

theorem filterMap_sending?_receives (receipts : List Receipt) :
    (receipts.map Call.receive).filterMap Call.sending? = [] := by
  simp [Call.sending?]

/-- The sends of a course went as the terminal has it, from the first one on. -/
theorem Course.sendings (h : Course t timeout calls outcome) :
    ∃ n, calls.filterMap Call.sending? = (List.range n).map t.sendFault := by
  cases h with
  | @bannerFails before after text fault _ hwell hat =>
    refine ⟨before.length + 1, ?_⟩
    rw [List.filterMap_append, filterMap_sending?_sends, List.range_succ, List.map_append,
      map_sendFault hwell, List.map_singleton, hat]
    rfl
  | @reads receipts last outcome hwell _ hfinish _ =>
    have hfront : (sends banner ++ receipts.map Call.receive).filterMap Call.sending?
        = (List.range banner.length).map t.sendFault := by
      rw [List.filterMap_append, filterMap_sending?_sends, filterMap_sending?_receives,
        List.append_nil, map_sendFault hwell]
    rw [List.filterMap_append, hfront]
    have hlast : ∀ fault, t.sendFault banner.length = fault →
        (List.range banner.length).map t.sendFault ++ [fault]
          = (List.range (banner.length + 1)).map t.sendFault := by
      intro fault hat
      rw [List.range_succ, List.map_append, List.map_singleton, hat]
    cases hfinish with
    | late => exact ⟨banner.length, List.append_nil _⟩
    | farewellFails hat => exact ⟨banner.length + 1, hlast _ hat⟩
    | closeFails hat _ => exact ⟨banner.length + 1, hlast _ hat⟩
    | named hat _ => exact ⟨banner.length + 1, hlast _ hat⟩

/-- The close of a course went as the terminal has it. -/
theorem Course.closing (h : Course t timeout calls outcome) {fault : Option SessionFault}
    (hclose : .close fault ∈ calls) : fault = t.closeFault := by
  cases h with
  | bannerFails _ _ _ => simp [sends] at hclose
  | reads _ _ hfinish _ =>
    rw [close_mem_reads] at hclose
    cases hfinish with
    | late => simp at hclose
    | farewellFails _ => simp at hclose
    | closeFails _ hat =>
      rw [hat]
      simpa using hclose
    | named _ hat =>
      rw [hat]
      simpa using hclose

/-! ### What is received -/

theorem filterMap_receipt?_sends (texts : List String) :
    (sends texts).filterMap Call.receipt? = [] := by
  simp [sends, Call.receipt?]

/-- A course receives what its terminal hands out, if it has sent its banner. -/
theorem Course.receives (h : Course t timeout calls outcome) :
    Receives (SendsWell t 0 banner.length) t.ending (t.arrivals.map (·.data))
      (calls.filterMap Call.receipt?) := by
  cases h with
  | @bannerFails before after text fault hbanner _ hat =>
    refine ⟨fun hwell => ?_, fun _ => ?_⟩
    · have hshort : before.length < banner.length := by simp [hbanner]
      have hnone := hwell before.length hshort
      rw [Nat.zero_add, hat] at hnone
      cases hnone
    · rw [List.filterMap_append, filterMap_receipt?_sends]
      rfl
  | @reads receipts last _ hwell _ _ hhanded =>
    refine ⟨fun _ => ?_, fun hnot => absurd hwell hnot⟩
    rwa [List.append_assoc, List.filterMap_append, filterMap_receipt?_sends, List.nil_append]

/-! ### The farewell -/

theorem append_cancel {before after a b : String}
    (h : before ++ a ++ after = before ++ b ++ after) : a = b := by
  have hlists := congrArg String.toList h
  simp only [String.toList_append, List.append_cancel_left_eq,
    List.append_cancel_right_eq] at hlists
  exact String.toList_inj.mp hlists

theorem farewell_injective {a b : String} (h : farewell a = farewell b) : a = b :=
  append_cancel h

/-! ### Outcomes -/

variable {r : Run}

/-- A run that ends without a name does not close. -/
theorem Course.open_of_not_named (h : Course t timeout r.calls r.outcome)
    (hname : ∀ username, r.outcome ≠ .name username) : r.closed = false := by
  rw [Bool.eq_false_iff, Ne, closed_iff]
  rcases h.named_or_open with ⟨username, houtcome, -⟩ | ⟨-, hclosed⟩
  · exact absurd houtcome (hname username)
  · exact hclosed

theorem Course.stopsAtFault (h : Course t timeout r.calls r.outcome) {before after : List Call}
    {c : Call} {fault : SessionFault} (hcalls : r.calls = before ++ c :: after)
    (hfault : c.fault? = some fault) :
    after = [] ∧ r.outcome = .fault fault ∧ r.closed = false := by
  have hloud : ¬ c.Quiet := fun hquiet => by simp [hquiet.1] at hfault
  obtain ⟨hafter, ⟨fault', hfault', houtcome⟩ | ⟨rfl, -⟩⟩ := h.stops hcalls hloud
  · rw [hfault', Option.some.injEq] at hfault
    subst hfault
    exact ⟨hafter, houtcome, h.open_of_not_named (by simp [houtcome])⟩
  · cases hfault

theorem Course.stopsAtDeadline (h : Course t timeout r.calls r.outcome)
    {before after : List Call} (hcalls : r.calls = before ++ .receive .nothing :: after) :
    after = [] ∧ r.outcome = .fault (.lineTimeout timeout) ∧ r.sent = banner ∧
      r.closed = false := by
  have hmem : .receive .nothing ∈ r.calls := by
    rw [hcalls]
    exact List.mem_append_right before List.mem_cons_self
  have hloud : ¬ (Call.receive .nothing).Quiet := fun hquiet => hquiet.2 rfl
  obtain ⟨hafter, ⟨fault, hfault, -⟩ | ⟨-, houtcome⟩⟩ := h.stops hcalls hloud
  · cases hfault
  · exact ⟨hafter, houtcome, h.texts_of_nothing hmem, h.open_of_not_named (by simp [houtcome])⟩

/-- A fault is that of the last call, or the last call waited until the deadline. -/
theorem Course.cause (h : Course t timeout calls outcome) {fault : SessionFault}
    (houtcome : outcome = .fault fault) : ∃ before c, calls = before ++ [c] ∧
      (c.fault? = some fault ∨ c = .receive .nothing ∧ fault = .lineTimeout timeout) := by
  subst houtcome
  obtain ⟨quiet, last, hcalls, -, hends | ⟨-, username, hname⟩⟩ := h.exists_last
  · refine ⟨quiet, last, hcalls, ?_⟩
    rcases hends with ⟨fault', hfault, hsame⟩ | ⟨hlast, hsame⟩
    · exact .inl (Outcome.fault.inj hsame ▸ hfault)
    · exact .inr ⟨hlast, Outcome.fault.inj hsame⟩
  · cases hname

theorem Course.name_iff (h : Course t timeout r.calls r.outcome) (username : String) :
    r.outcome = .name username ↔
      r.sent = banner ++ [farewell username] ∧ r.closed = true := by
  rw [sent_eq, closed_iff]
  rcases h.named_or_open with ⟨username', houtcome, hsent, hclosed⟩ | ⟨hname, hclosed⟩
  · rw [houtcome, hsent, List.append_cancel_left_eq, Outcome.name.injEq]
    constructor
    · rintro rfl
      exact ⟨rfl, hclosed⟩
    · rintro ⟨hfarewell, -⟩
      exact farewell_injective (List.cons.inj hfarewell).1
  · exact iff_of_false (hname username) fun hnamed => hclosed hnamed.2

theorem Course.named_iff (h : Course t timeout r.calls r.outcome) :
    (∃ username, r.outcome = .name username) ↔ r.sent.length = 5 ∧ r.closed = true := by
  rw [sent_eq, closed_iff]
  rcases h.named_or_open with ⟨username, houtcome, hsent, hclosed⟩ | ⟨hname, hclosed⟩
  · exact iff_of_true ⟨username, houtcome⟩ ⟨by rw [hsent]; rfl, hclosed⟩
  · exact iff_of_false (fun ⟨username, hnamed⟩ => hname username hnamed)
      fun hnamed => hclosed hnamed.2

theorem Course.returns (h : Course t timeout calls outcome) : outcome ≠ .clockOverflow := by
  cases h with
  | bannerFails _ _ _ => simp
  | reads _ _ hfinish _ => cases hfinish <;> simp

/-! ### The protocol -/

/-- What a run keeps to. -/
structure KeepsProtocol (t : Terminal) (timeout : Span) (r : Run) : Prop where
  /-- The calls are the first ones of the protocol. -/
  order : ∃ username receives, r.calls.map Call.ask <+: protocol username receives
  /-- Nothing is received before the whole banner was sent. -/
  bannerFirst : ∀ before receipt after, r.calls = before ++ .receive receipt :: after →
    sends banner <+: before
  /-- Once the banner was sent, the chunks are received as the terminal hands them out, up to the
  one that completes a line, to their end or to the deadline. -/
  receives : Receives (SendsWell t 0 banner.length) t.ending (t.arrivals.map (·.data)) r.receipts
  /-- The sends go as the terminal has it, from the first one on. -/
  sendings : ∃ n, r.calls.filterMap Call.sending? = (List.range n).map t.sendFault
  /-- The close goes as the terminal has it. -/
  closing : ∀ fault, .close fault ∈ r.calls → fault = t.closeFault
  /-- A call that fails is the last one, and its fault is the outcome. -/
  stopsAtFault : ∀ before c after fault, r.calls = before ++ c :: after →
    c.fault? = some fault → after = [] ∧ r.outcome = .fault fault ∧ r.closed = false
  /-- A reader that waits until the deadline is the last call. -/
  stopsAtDeadline : ∀ before after, r.calls = before ++ .receive .nothing :: after →
    after = [] ∧ r.outcome = .fault (.lineTimeout timeout) ∧ r.sent = banner ∧ r.closed = false
  /-- There are no other faults. -/
  faults : ∀ fault, r.outcome = .fault fault → ∃ before c, r.calls = before ++ [c] ∧
    (c.fault? = some fault ∨ c = .receive .nothing ∧ fault = .lineTimeout timeout)
  /-- The name is the one that was answered. -/
  name_iff : ∀ username, r.outcome = .name username ↔
    r.sent = banner ++ [farewell username] ∧ r.closed = true
  /-- A name is returned if all five texts were sent and the channel was closed. -/
  named_iff : (∃ username, r.outcome = .name username) ↔ r.sent.length = 5 ∧ r.closed = true
  /-- The clock shows the deadline. -/
  returns : r.outcome ≠ .clockOverflow

/-- Every run keeps to the protocol, whatever the terminal does. -/
theorem run_keepsProtocol (t : Terminal) {clock : Clock} {timeout : Span}
    (hclock : clock.Reaches timeout) :
    KeepsProtocol t timeout (run clock t timeout) :=
  have h : Course t timeout (run clock t timeout).calls (run clock t timeout).outcome :=
    course_run hclock
  { order := h.order
    bannerFirst := fun _ _ _ hcalls => h.bannerFirst hcalls
    receives := h.receives
    sendings := h.sendings
    closing := fun _ hclose => h.closing hclose
    stopsAtFault := fun _ _ _ _ hcalls hfault => h.stopsAtFault hcalls hfault
    stopsAtDeadline := fun _ _ hcalls => h.stopsAtDeadline hcalls
    faults := fun _ houtcome => h.cause houtcome
    name_iff := h.name_iff
    named_iff := h.named_iff
    returns := h.returns }

/-- The clock of a machine that has been up for an hour and a fraction of a second. -/
def hourClock : Clock := .startingAt ⟨3600, 999000000, by decide, by decide⟩

/-- A terminal that types a name in two chunks and cannot be closed. -/
def stuckDoor : Terminal :=
  { arrivals := [⟨5, [0x62, 0x6F]⟩, ⟨7, [0x62, 0x0D]⟩], closeFault := some .closed }

theorem stuckDoor_keepsProtocol :
    hourClock.Reaches (.ofSeconds 60) ∧
      KeepsProtocol stuckDoor (.ofSeconds 60) (run hourClock stuckDoor (.ofSeconds 60)) ∧
      (run hourClock stuckDoor (.ofSeconds 60)).outcome = .fault .closed :=
  ⟨by decide, run_keepsProtocol stuckDoor (by decide), by decide +kernel⟩

/-! ### Terminals without faults -/

/-- Sending and closing never fail. -/
structure Faultless (t : Terminal) : Prop where
  sends : ∀ i, t.sendFault i = none
  closes : t.closeFault = none

theorem sendAll_of_faultless (h : Faultless t) (texts : List String) (i : Nat) :
    sendAll t i texts = (sends texts, none) := by
  rcases sendAll_cases (t := t) texts i with ⟨hall, -⟩ | ⟨before, _, _, fault, -, -, hat, -⟩
  · exact hall
  · rw [h.sends] at hat
    cases hat

/-- A run that reads a name answers it and closes. -/
theorem run_of_line_some (h : Faultless t) (hclock : clock.Reaches timeout) {username : String}
    (hline : (readLine t timeout.ceilMillis).line = some username) :
    run clock t timeout =
      { calls := sends banner ++ (readLine t timeout.ceilMillis).calls
          ++ [.send (farewell username) none, .close none]
        elapsed := (readLine t timeout.ceilMillis).ended
        outcome := .name username
        log := [answered username] } := by
  simp only [run, sendAll_of_faultless h, if_pos hclock, clock.timer_eq, hline, sayFarewell,
    h.sends, h.closes]

/-- A run that reads no name sends the banner and waits. -/
theorem run_of_line_none (h : Faultless t) (hclock : clock.Reaches timeout)
    (hline : (readLine t timeout.ceilMillis).line = none) :
    run clock t timeout =
      { calls := sends banner ++ (readLine t timeout.ceilMillis).calls
        elapsed := (readLine t timeout.ceilMillis).ended
        outcome := .fault (.lineTimeout timeout) } := by
  simp only [run, sendAll_of_faultless h, if_pos hclock, clock.timer_eq, hline]

end Board

end Sysop
