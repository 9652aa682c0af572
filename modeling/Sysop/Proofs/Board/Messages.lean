/-
Sysop/Proofs/Board/Messages.lean

What a run hears of the messages that its channel delivers.

A reader is handed chunks and then the end, each at a moment (`Input`).  The input of a channel
is the data before its first end, each at the moment when it is delivered, and then that end, or
the hang-up of the channel if no message ends the input (`Input.ofDeliveries`).  The input of a
terminal is read off its arrivals (`Input.ofArrivals`).

The terminal of a channel hands out just the input of the channel (`Channel.input_terminal`),
and a terminal is known from its input (`Input.ofArrivals_inj`).  So two channels with the same
input are the same to a run, whatever else they deliver (`run_eq_of_input_eq`).

Main result: `run_hears_only_input`.
-/
import Mathlib.Data.Option.Basic
import Sysop.Proofs.Board.Conversation

namespace Sysop

/-! ### Messages -/

namespace ChannelMessage

/-- The message ends the input. -/
def ends : ChannelMessage → Bool
  | .endOfInput | .close => true
  | .data _ | .other => false

/-- The bytes of data. -/
def data? : ChannelMessage → Option Bytes
  | .data bytes => some bytes
  | .endOfInput | .close | .other => none

end ChannelMessage

/-- A message and the moment at which it comes. -/
structure Moment where
  time : Nat
  message : ChannelMessage
  deriving DecidableEq, Repr

namespace Delivery

/-- Something that is passed over and takes no time. -/
def idle : Delivery :=
  ⟨0, .other⟩

/-- The messages with their moments, when the one before them came at `now`. -/
def momentsFrom (now : Nat) : List Delivery → List Moment
  | [] => []
  | d :: ds => ⟨now + d.wait, d.message⟩ :: momentsFrom (now + d.wait) ds

/-- The moment of the last message, when the one before them came at `now`. -/
def lastFrom (now : Nat) (ds : List Delivery) : Nat :=
  ds.foldl (· + ·.wait) now

/-- The bytes of the data before the first end. -/
def payloads (ds : List Delivery) : List Bytes :=
  (ds.takeWhile fun d => !d.message.ends).filterMap (·.message.data?)

end Delivery

/-! ### Inputs -/

/-- What a reader is handed, by moments: chunks, and then the end if there is one. -/
structure Input where
  chunks : List (Nat × Bytes)
  ending : Option Nat
  deriving DecidableEq, Repr

namespace Input

variable {hangUp ending ending' : Option Nat} {now w : Nat} {ds : List Delivery} {bs : Bytes}
variable {m : ChannelMessage}

/-- The chunk comes before the others. -/
def push (chunk : Nat × Bytes) (i : Input) : Input :=
  { i with chunks := chunk :: i.chunks }

/-- The input of deliveries: the data before the first end, and this end or the hang-up. -/
def ofDeliveries (hangUp : Option Nat) (now : Nat) (ds : List Delivery) : Input where
  chunks := ((Delivery.momentsFrom now ds).takeWhile fun m => !m.message.ends).filterMap
    fun m => m.message.data?.map (m.time, ·)
  ending := (((Delivery.momentsFrom now ds).find? (·.message.ends)).map (·.time)).or
    (hangUp.map (Delivery.lastFrom now ds + ·))

/-- The input of arrivals, when the one before them came at `now`. -/
def ofArrivals (ending : Option Nat) (now : Nat) : List Arrival → Input
  | [] => ⟨[], ending.map (now + ·)⟩
  | a :: as => (ofArrivals ending (now + a.wait) as).push (now + a.wait, a.data)

/-! ### One message -/

theorem ofDeliveries_nil : ofDeliveries hangUp now [] = ⟨[], hangUp.map (now + ·)⟩ := rfl

theorem lastFrom_cons (d : Delivery) :
    Delivery.lastFrom now (d :: ds) = Delivery.lastFrom (now + d.wait) ds := rfl

theorem ofDeliveries_data : ofDeliveries hangUp now (⟨w, .data bs⟩ :: ds)
    = (ofDeliveries hangUp (now + w) ds).push (now + w, bs) := by
  simp [ofDeliveries, push, Delivery.momentsFrom, ChannelMessage.ends, ChannelMessage.data?,
    lastFrom_cons]

theorem ofDeliveries_other : ofDeliveries hangUp now (⟨w, .other⟩ :: ds)
    = ofDeliveries hangUp (now + w) ds := by
  simp [ofDeliveries, Delivery.momentsFrom, ChannelMessage.ends, ChannelMessage.data?,
    lastFrom_cons]

theorem ofDeliveries_ends (h : m.ends = true) :
    ofDeliveries hangUp now (⟨w, m⟩ :: ds) = ⟨[], some (now + w)⟩ := by
  simp [ofDeliveries, Delivery.momentsFrom, h]

/-! ### Many messages -/

/-- A message of another kind that takes no time is not in the input. -/
theorem ofDeliveries_filter (hangUp : Option Nat) (now : Nat) (ds : List Delivery) :
    ofDeliveries hangUp now (ds.filter (· ≠ Delivery.idle)) = ofDeliveries hangUp now ds := by
  induction ds generalizing now with
  | nil => rfl
  | cons d ds ih =>
    by_cases hidle : d = Delivery.idle
    · rw [List.filter_cons_of_neg (by simpa using hidle), hidle, Delivery.idle, ofDeliveries_other]
      exact ih now
    · rw [List.filter_cons_of_pos (by simpa using hidle)]
      obtain ⟨w, m⟩ := d
      cases m with
      | data bs => rw [ofDeliveries_data, ofDeliveries_data, ih]
      | endOfInput => rw [ofDeliveries_ends rfl, ofDeliveries_ends rfl]
      | close => rw [ofDeliveries_ends rfl, ofDeliveries_ends rfl]
      | other => rw [ofDeliveries_other, ofDeliveries_other, ih]

/-- Nothing behind an end is in the input, and a hang-up behind it is not either. -/
theorem ofDeliveries_append_ends {last : Delivery} (hlast : last.message.ends = true)
    (hangUp hangUp' : Option Nat) (now : Nat) (before after after' : List Delivery) :
    ofDeliveries hangUp now (before ++ last :: after)
      = ofDeliveries hangUp' now (before ++ last :: after') := by
  induction before generalizing now with
  | nil =>
    rw [List.nil_append, List.nil_append, ofDeliveries_ends hlast, ofDeliveries_ends hlast]
  | cons d before ih =>
    obtain ⟨w, m⟩ := d
    rw [List.cons_append, List.cons_append]
    cases m with
    | data bs => rw [ofDeliveries_data, ofDeliveries_data, ih]
    | endOfInput => rw [ofDeliveries_ends rfl, ofDeliveries_ends rfl]
    | close => rw [ofDeliveries_ends rfl, ofDeliveries_ends rfl]
    | other => rw [ofDeliveries_other, ofDeliveries_other, ih]

/-- The arrivals of deliveries have the input of the deliveries.  A reader that has waited
already counts from the last chunk, and the deliveries from the last message. -/
theorem ofArrivals_arrivalsFrom (hangUp : Option Nat) (ds : List Delivery) :
    ∀ now waited, ofArrivals (Delivery.arrivalsFrom hangUp waited ds).2 now
        (Delivery.arrivalsFrom hangUp waited ds).1
      = ofDeliveries hangUp (now + waited) ds := by
  induction ds with
  | nil =>
    intro now waited
    rw [ofDeliveries_nil, Delivery.arrivalsFrom, ofArrivals, Option.map_map]
    congr 2
    funext n
    exact (Nat.add_assoc now waited n).symm
  | cons d ds ih =>
    intro now waited
    obtain ⟨w, m⟩ := d
    cases m with
    | data bs =>
      rw [ofDeliveries_data, Nat.add_assoc]
      exact congrArg (push _) (ih (now + (waited + w)) 0)
    | endOfInput =>
      rw [ofDeliveries_ends rfl, Nat.add_assoc]
      rfl
    | close =>
      rw [ofDeliveries_ends rfl, Nat.add_assoc]
      rfl
    | other =>
      rw [ofDeliveries_other, Nat.add_assoc]
      exact ih now (waited + w)

theorem push_inj {chunk chunk' : Nat × Bytes} {i i' : Input} (h : i.push chunk = i'.push chunk') :
    chunk = chunk' ∧ i = i' := by
  obtain ⟨hchunks, hending⟩ := Input.mk.inj h
  obtain ⟨rfl, hrest⟩ := List.cons.inj hchunks
  exact ⟨rfl, congrArg₂ Input.mk hrest hending⟩

/-- Arrivals are known from their input. -/
theorem ofArrivals_inj {as as' : List Arrival}
    (h : ofArrivals ending now as = ofArrivals ending' now as') : as = as' ∧ ending = ending' := by
  induction as generalizing now as' with
  | nil =>
    cases as' with
    | nil =>
      have hending : ending.map (now + ·) = ending'.map (now + ·) := congrArg Input.ending h
      exact ⟨rfl, Option.map_injective (fun _ _ => Nat.add_left_cancel) hending⟩
    | cons a' as' => cases congrArg Input.chunks h
  | cons a as ih =>
    cases as' with
    | nil => cases congrArg Input.chunks h
    | cons a' as' =>
      obtain ⟨w, bs⟩ := a
      obtain ⟨w', bs'⟩ := a'
      obtain ⟨hchunk, hrest⟩ := push_inj h
      obtain ⟨htime, rfl⟩ := Prod.mk.inj hchunk
      obtain rfl : w = w' := Nat.add_left_cancel htime
      obtain ⟨rfl, rfl⟩ := ih hrest
      exact ⟨rfl, rfl⟩

end Input

/-! ### Channels and terminals -/

/-- The input of a terminal. -/
def Terminal.input (t : Terminal) : Input :=
  .ofArrivals t.ending 0 t.arrivals

/-- A channel: what it delivers, how long after that it hangs up, and how its sends and its
close go. -/
structure Channel where
  deliveries : List Delivery
  hangUp : Option Nat
  sendFault : Nat → Option SessionFault := fun _ => none
  closeFault : Option SessionFault := none

namespace Channel

variable {c c' : Channel}

/-- The terminal of a channel. -/
def terminal (c : Channel) : Terminal :=
  { Terminal.ofDeliveries c.deliveries c.hangUp with
    sendFault := c.sendFault, closeFault := c.closeFault }

/-- The input of a channel. -/
def input (c : Channel) : Input :=
  .ofDeliveries c.hangUp 0 c.deliveries

/-- A terminal hands out the input of its channel. -/
theorem input_terminal (c : Channel) : c.terminal.input = c.input :=
  Input.ofArrivals_arrivalsFrom c.hangUp c.deliveries 0 0

/-- The chunks are the bytes of the data before the first end. -/
theorem map_data_arrivalsFrom (hangUp : Option Nat) (waited : Nat) (ds : List Delivery) :
    (Delivery.arrivalsFrom hangUp waited ds).1.map (·.data) = Delivery.payloads ds := by
  induction ds generalizing waited with
  | nil => rfl
  | cons d ds ih =>
    obtain ⟨w, m⟩ := d
    cases m with
    | data bs => exact congrArg (bs :: ·) (ih 0)
    | endOfInput => rfl
    | close => rfl
    | other => exact ih (waited + w)

/-- Channels with the same input are the same terminal, if sends and the close go the same. -/
theorem terminal_eq_of_input_eq (hsend : c.sendFault = c'.sendFault)
    (hclose : c.closeFault = c'.closeFault) (h : c.input = c'.input) :
    c.terminal = c'.terminal := by
  rw [← input_terminal, ← input_terminal] at h
  obtain ⟨harrivals, hending⟩ := Input.ofArrivals_inj h
  calc c.terminal
      = ⟨c.terminal.arrivals, c.terminal.ending, c.sendFault, c.closeFault⟩ := rfl
    _ = ⟨c'.terminal.arrivals, c'.terminal.ending, c'.sendFault, c'.closeFault⟩ := by
      rw [harrivals, hending, hsend, hclose]
    _ = c'.terminal := rfl

end Channel

namespace Board

/-! ### What a run is handed -/

/-- A run receives what its terminal hands out, if it comes to read: if the banner can be sent and
the clock can show the deadline. -/
theorem receives_run (clock : Clock) (t : Terminal) (timeout : Span) :
    Receives (SendsWell t 0 banner.length ∧ clock.Reaches timeout) t.ending
      (t.arrivals.map (·.data)) (run clock t timeout).receipts := by
  by_cases hclock : clock.Reaches timeout
  · have hreceives := (run_keepsProtocol t hclock).receives
    exact ⟨fun h => hreceives.reading h.1, fun h => hreceives.unread fun hwell => h ⟨hwell, hclock⟩⟩
  · refine ⟨fun h => absurd h.2 hclock, fun _ => ?_⟩
    -- without a deadline nothing comes after the banner, and the banner only sends
    unfold Run.receipts run
    rcases sendAll_cases (t := t) banner 0 with ⟨hall, -⟩ | ⟨before, _, _, _, -, -, -, hfails⟩
    · simp only [hall, if_neg hclock]
      exact filterMap_receipt?_sends banner
    · simp only [hfails]
      rw [List.filterMap_append, filterMap_receipt?_sends]
      rfl

/-! ### Two channels -/

variable {clock : Clock} {timeout : Span} {c c' : Channel}

/-- Runs on channels with the same input are the same. -/
theorem run_eq_of_input_eq (hsend : c.sendFault = c'.sendFault)
    (hclose : c.closeFault = c'.closeFault) (h : c.input = c'.input) :
    run clock c.terminal timeout = run clock c'.terminal timeout := by
  rw [Channel.terminal_eq_of_input_eq hsend hclose h]

/-- **A run hears the input of its channel and nothing else.**  It is handed the data before
the first end, each at its moment, and then the end.  So messages of other kinds that are put
in or taken out, anywhere and as many as one likes, change nothing of the run, and neither does
anything behind the first end. -/
theorem run_hears_only_input (c : Channel) (clock : Clock) (timeout : Span) :
    c.terminal.input = c.input ∧
    c.terminal.arrivals.map (·.data) = Delivery.payloads c.deliveries ∧
    Receives (SendsWell c.terminal 0 banner.length ∧ clock.Reaches timeout) c.terminal.ending
      (Delivery.payloads c.deliveries) (run clock c.terminal timeout).receipts ∧
    (∀ ds, ds.filter (· ≠ Delivery.idle) = c.deliveries.filter (· ≠ Delivery.idle) →
      run clock { c with deliveries := ds }.terminal timeout = run clock c.terminal timeout) ∧
    (∀ ds hangUp, Input.ofDeliveries hangUp 0 ds = c.input →
      run clock { c with deliveries := ds, hangUp := hangUp }.terminal timeout
        = run clock c.terminal timeout) ∧
    ∀ before last after, c.deliveries = before ++ last :: after → last.message.ends = true →
      ∀ after' hangUp,
        run clock { c with deliveries := before ++ last :: after', hangUp }.terminal timeout
          = run clock c.terminal timeout := by
  have hdata : c.terminal.arrivals.map (·.data) = Delivery.payloads c.deliveries :=
    Channel.map_data_arrivalsFrom c.hangUp 0 c.deliveries
  refine ⟨c.input_terminal, hdata, hdata ▸ receives_run clock c.terminal timeout, fun ds hds => ?_,
    fun ds hangUp h => run_eq_of_input_eq rfl rfl h,
    fun before last after hparts hlast after' hangUp => run_eq_of_input_eq rfl rfl ?_⟩
  · refine run_eq_of_input_eq rfl rfl ?_
    calc Input.ofDeliveries c.hangUp 0 ds
        = Input.ofDeliveries c.hangUp 0 (ds.filter (· ≠ Delivery.idle)) :=
          (Input.ofDeliveries_filter _ _ _).symm
      _ = Input.ofDeliveries c.hangUp 0 (c.deliveries.filter (· ≠ Delivery.idle)) := by rw [hds]
      _ = c.input := Input.ofDeliveries_filter _ _ _
  · show Input.ofDeliveries hangUp 0 _ = Input.ofDeliveries c.hangUp 0 c.deliveries
    rw [hparts]
    exact Input.ofDeliveries_append_ends hlast hangUp c.hangUp 0 before after' after

/-- A message that is passed over still takes its time. -/
example : Input.ofDeliveries none 0
      [⟨5, .other⟩, ⟨3, .data [0x61]⟩, .idle, ⟨4, .close⟩, ⟨1, .data [0x62]⟩]
    = ⟨[(8, [0x61])], some 12⟩ := by
  decide

end Board

end Sysop
