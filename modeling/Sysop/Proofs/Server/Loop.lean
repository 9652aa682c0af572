/-
Sysop/Proofs/Server/Loop.lean

The loop of a server, which takes one visitor after another.

Each session adds its records, whatever it ends with, and then the server listens again
(`loop_append`).  One end is different: a session whose deadline the clock cannot show takes the
server down, and nobody is served after it (`loop_of_not_survives`).  So the server listens in the
end exactly if it survives each of its visitors (`getLast?_loop`), and it survives whoever comes
at least a wait for a line before the last instant of the clock (`survives_of_reaches`).

Main result: `serves_visitors`, for a server that was bound on a network which clients can reach.
-/
import Sysop.Proofs.Connection.Overflow
import Sysop.Proofs.Server.Visit

namespace Sysop

namespace Server

/-! ### Records -/

/-- The records of a session that leaves the server running. -/
def sessionRecords (peer : SocketAddress) (outcome : Connection.Outcome) : List Record :=
  listeningRecord :: arrivedRecord peer :: endedRecord peer outcome

/-- A session that the clock does not stop is put down, and the loop moves on. -/
theorem loopRecords_cons {peer : SocketAddress} {outcome : Connection.Outcome}
    (h : outcome ≠ .clockOverflow) (rest : List (SocketAddress × Connection.Outcome)) :
    loopRecords ((peer, outcome) :: rest)
      = sessionRecords peer outcome ++ loopRecords rest := by
  cases outcome with
  | clockOverflow => exact absurd rfl h
  | _ => rfl

variable {s : Server} {visitors served rest : List Visitor} {w : Visitor}

/-- The server is still there after the visit. -/
def Survives (s : Server) (w : Visitor) : Prop :=
  (s.receive w).2 ≠ .clockOverflow

/-- What is put down of a visit. -/
def records (s : Server) (w : Visitor) : List Record :=
  sessionRecords w.peer (s.receive w).2

/-! ### The loop -/

theorem loop_cons (h : s.Survives w) (rest : List Visitor) :
    s.loop (w :: rest) = s.records w ++ s.loop rest :=
  loopRecords_cons h _

/-- Whatever their sessions end with, visitors that the server survives are served one after
another, and then comes the next one. -/
theorem loop_append (h : ∀ w ∈ served, s.Survives w) (rest : List Visitor) :
    s.loop (served ++ rest) = served.flatMap s.records ++ s.loop rest := by
  induction served with
  | nil => rfl
  | cons w served ih =>
    obtain ⟨hw, hserved⟩ := List.forall_mem_cons.mp h
    rw [List.cons_append, loop_cons hw, ih hserved, List.flatMap_cons, List.append_assoc]

theorem loop_of_survives (h : ∀ w ∈ visitors, s.Survives w) :
    s.loop visitors = visitors.flatMap s.records ++ [listeningRecord] := by
  calc s.loop visitors
      = s.loop (visitors ++ []) := by rw [List.append_nil]
    _ = visitors.flatMap s.records ++ [listeningRecord] := loop_append h []

/-- The session that takes the server down is the last one. -/
theorem loop_of_not_survives (h : ∀ w ∈ served, s.Survives w) (hw : ¬ s.Survives w)
    (rest : List Visitor) :
    s.loop (served ++ w :: rest)
      = served.flatMap s.records ++ [listeningRecord, arrivedRecord w.peer] := by
  have hoverflow : (s.receive w).2 = .clockOverflow := Classical.not_not.mp hw
  rw [loop_append h, loop, List.map_cons, hoverflow]
  rfl

/-- Visitors are all survived, or there is a first one that is not. -/
theorem survives_or_not (s : Server) (visitors : List Visitor) :
    (∀ w ∈ visitors, s.Survives w) ∨
      ∃ served w rest, visitors = served ++ w :: rest ∧ (∀ v ∈ served, s.Survives v) ∧
        ¬ s.Survives w := by
  induction visitors with
  | nil => exact .inl nofun
  | cons w visitors ih =>
    by_cases hw : s.Survives w
    · rcases ih with hall | ⟨served, w', rest, rfl, hserved, hw'⟩
      · exact .inl (List.forall_mem_cons.mpr ⟨hw, hall⟩)
      · exact .inr ⟨w :: served, w', rest, rfl, List.forall_mem_cons.mpr ⟨hw, hserved⟩, hw'⟩
    · exact .inr ⟨[], w, visitors, rfl, nofun, hw⟩

theorem arrivedRecord_ne_listeningRecord (peer : SocketAddress) :
    arrivedRecord peer ≠ listeningRecord := by
  intro h
  have htext : "Got a connection from " ++ peer.text = "Listening for connection ..." :=
    congrArg Record.text h
  have hhead := congrArg (fun text : String => text.toList.head?) htext
  simp at hhead

/-- The server listens in the end exactly if it survives each of its visitors. -/
theorem getLast?_loop :
    (s.loop visitors).getLast? = some listeningRecord ↔ ∀ w ∈ visitors, s.Survives w := by
  constructor
  · intro h
    rcases survives_or_not s visitors with hall | ⟨served, w, rest, rfl, hserved, hw⟩
    · exact hall
    · rw [loop_of_not_survives hserved hw] at h
      have hlast : arrivedRecord w.peer = listeningRecord := by simpa using h
      exact absurd hlast (arrivedRecord_ne_listeningRecord w.peer)
  · intro h
    rw [loop_of_survives h]
    simp

/-! ### Clocks that go far enough -/

/-- The server survives a visitor if the clock can show the end of a wait for a line that begins
when the visitor comes. -/
theorem survives_of_reaches (h : w.clock.Reaches s.config.lineTimeout) : s.Survives w := by
  intro hoverflow
  cases hcaller : w.caller with
  | raw input ends =>
    obtain ⟨fault, hfault⟩ := exists_fault_of_raw (s := s) hcaller
    rw [hfault] at hoverflow
    cases hoverflow
  | client script =>
    obtain ⟨ts, terminal, hatOnce, -, hsession⟩ := exists_session_of_client (s := s) hcaller
    rw [hsession] at hoverflow
    obtain ⟨id, since, hsettle, hrun⟩ := Connection.session_eq_clockOverflow_iff.mp hoverflow
    have hphase := Connection.phase_eq_board_of_settle hsettle
    obtain ⟨past, t, rest, rfl, hstarts⟩ := Connection.exists_boardStarts hphase
    -- the board starts with something that happens at once
    have hsince : since = 0 := (hstarts.since_eq hphase).trans (hatOnce t (by simp))
    refine (Board.outcome_eq_clockOverflow_iff.mp hrun).2 ?_
    rw [hsince, Clock.later_zero]
    exact h

/-! ### Bound servers -/

/-- A server that is bound serves with the board of its configuration, and on the network that it
was bound on. -/
theorem of_bind {net net' : Network} {config : Config}
    (h : (bind net config).value = .ok (s, net')) :
    s.config = config ∧ s.policy = config.boardPolicy ∧ net'.reachable = net.reachable := by
  unfold bind bindWith at h
  dsimp only at h
  split at h
  · cases h
  · rename_i address net'' hlisten
    obtain ⟨rfl, rfl⟩ := Prod.mk.inj (Except.ok.inj h)
    refine ⟨rfl, rfl, ?_⟩
    unfold Network.listen at hlisten
    split at hlisten
    · cases hlisten
    · dsimp only at hlisten
      split_ifs at hlisten
      obtain ⟨-, rfl⟩ := Prod.mk.inj (Except.ok.inj hlisten)
      rfl

variable {settings : Settings} {loader : KeyLoader} {files : Files} {config : Config}

/-- **A server that is bound on a network which clients can reach serves all its visitors.**  Each
is answered; if the clock can show the end of a wait for a line when they come, each session is put
down and the server listens again, whatever the visitors do; and only a client whom the
configuration admits is answered with a name. -/
theorem serves_visitors {net net' : Network} (hbuild : settings.build loader files = .ok config)
    (hbind : (bind net config).value = .ok (s, net')) (hreach : net.reachable = true)
    (hclock : ∀ w ∈ visitors, w.clock.Reaches config.lineTimeout) :
    s.receiveAll net' visitors = some (visitors.map s.receive) ∧
      s.loop visitors = visitors.flatMap s.records ++ [listeningRecord] ∧
      ∀ w ∈ visitors, ∀ username, (s.receive w).2 = .name username →
        ∃ past t id,
          Connection.BoardStarts s.policy (some w.peer) (.ofConfig config w.clock) past t id ∧
          Entitled config id
            (Connection.runTranscript s.policy (some w.peer) (.ofConfig config w.clock)
              (past ++ [t])) := by
  obtain ⟨hconfig, hpolicy, hnet⟩ := of_bind hbind
  refine ⟨?_, ?_, ?_⟩
  · rw [receiveAll, if_pos (.inl (hnet.trans hreach))]
  · refine loop_of_survives fun w hw => survives_of_reaches ?_
    rw [hconfig]
    exact hclock w hw
  · intro w _ username hname
    rw [← hconfig]
    rw [← hconfig] at hbuild hpolicy
    exact entitled_of_name hbuild hpolicy hname

/-- Someone who speaks another protocol, and a guest who first asks for a channel without a
login. -/
def evening : List Visitor := [
  ⟨⟨.anyV4, 40000⟩, .startingAt ⟨5, 100, by decide, by decide⟩, .raw [0x3F, 0x0A] true⟩,
  ⟨⟨.anyV4, 40001⟩, .startingAt ⟨9, 200, by decide, by decide⟩, .client [
    .openChannel .session, .password "guest" "any", .openChannel .session, .shell 0,
    .send 0 (.data [0x41, 0x64, 0x61, 0x0A]), .readPrompt 0]⟩]

/-- The one is dropped, the other is answered. -/
example : ((bind .welcoming Connection.guestConfig).value.toOption.bind fun (s, net) =>
      (s.receiveAll net evening).map fun visits => visits.map (·.2)) =
    some [.fault (.negotiation .disconnected), .name "Ada"] := by
  decide +kernel

end Server

end Sysop
