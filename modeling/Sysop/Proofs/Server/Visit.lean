/-
Sysop/Proofs/Server/Visit.lean

What a visitor does to its connection, and how its session ends.

A visit plays a script, step by step, against a connection.  Whatever the script says, the
connection comes about by a run on things that happen at once, the transport passes on nothing
that needs a login before one is accepted, and the end of the session, once it is known, is the
end of a session on a part of this run (`Conducts`).  A step keeps this (`Conducts.step`), so a
whole script does, and what is known of sessions holds of visits (`exists_session_of_client`).

Someone who speaks another protocol gets no session: the server looks for a greeting in what it
is sent (`found_iff`), and such a visit always ends with a fault (`exists_fault_of_raw`).

Main result: `entitled_of_name`.  A server with the board of a configuration answers with a name
only a client whom the configuration admits.
-/
import Mathlib.Tactic.SplitIfs
import Sysop.Proofs.Connection.Admission
import Sysop.Visit

namespace Sysop

open Connection

/-! ### Visits as runs -/

namespace Visit

/-- `Conducts s clock peer v ts`: the visit `v` to a server is what a client has come to by the
things `ts` that happened on its connection. -/
structure Conducts (s : Server) (clock : Clock) (peer : SocketAddress) (v : Visit)
    (ts : List Timed) : Prop where
  connection : v.connection = run s.policy (some peer) (.ofConfig s.config clock) ts
  atOnce : ∀ t ∈ ts, t.time = 0
  gate : LoginFirst (ts.map (exchange s.policy))
  loggedIn : v.loggedIn = true → ∃ login ∈ ts.map (exchange s.policy), login.AcceptsLogin
  ended : ∀ outcome, v.outcome = some outcome → ∃ past rest terminal, ts = past ++ rest ∧
    outcome = session s.policy (some peer) (.ofConfig s.config clock) past terminal

variable {s : Server} {clock : Clock} {peer : SocketAddress} {v v' : Visit} {ts : List Timed}
variable {question : Callback}

theorem conducts_start (s : Server) (clock : Clock) (peer : SocketAddress) :
    Conducts s clock peer (start s clock peer) [] where
  connection := rfl
  atOnce := nofun
  gate := by
    intro before e after h
    cases before <;> cases h
  loggedIn := nofun
  ended := nofun

/-- One more happening in a run. -/
theorem run_concat {policy : Policy} {peer : Option SocketAddress} {patience : Patience}
    (ts : List Timed) (t : Timed) :
    run policy peer patience (ts ++ [t]) = ((run policy peer patience ts).step t).2 := by
  rw [run, Connection.play, List.foldl_append]
  rfl

namespace Conducts

/-- What a client has read, sent and opened makes no difference. -/
theorem congr (h : Conducts s clock peer v ts) (hconnection : v'.connection = v.connection)
    (hlogin : v'.loggedIn = v.loggedIn) (houtcome : v'.outcome = v.outcome) :
    Conducts s clock peer v' ts where
  connection := hconnection.trans h.connection
  atOnce := h.atOnce
  gate := h.gate
  loggedIn hlogged := h.loggedIn (hlogin ▸ hlogged)
  ended outcome hended := h.ended outcome (houtcome ▸ hended)

/-- Nothing more needs to happen. -/
theorem still (h : Conducts s clock peer v ts) : ∃ more, Conducts s clock peer v (ts ++ more) :=
  ⟨[], by rw [List.append_nil]; exact h⟩

/-- Something more happens on the connection of a visit. -/
theorem happen (h : Conducts s clock peer v ts) (what : Happening)
    (hgate : what.NeedsLogin → v.loggedIn = true) :
    Conducts s clock peer { v with connection := (v.connection.step ⟨0, what⟩).2 }
      (ts ++ [⟨0, what⟩]) where
  connection := by rw [run_concat, ← h.connection]
  atOnce := by
    intro t ht
    rcases List.mem_append.mp ht with ht | ht
    · exact h.atOnce t ht
    · rw [List.mem_singleton.mp ht]
  gate := by
    rw [List.map_append]
    exact h.gate.concat fun hneeds => h.loggedIn (hgate hneeds)
  loggedIn hlogged := by
    obtain ⟨login, hlogin, haccepts⟩ := h.loggedIn hlogged
    rw [List.map_append]
    exact ⟨login, List.mem_append_left _ hlogin, haccepts⟩
  ended outcome hended := by
    obtain ⟨past, rest, terminal, rfl, hsession⟩ := h.ended outcome hended
    exact ⟨past, rest ++ [⟨0, what⟩], terminal, List.append_assoc .., hsession⟩

/-- What the transport passes on needs no login, or there was one. -/
theorem loggedIn_of_passes (hpasses : v.passes question = true)
    (hneeds : (Happening.callback question).NeedsLogin) : v.loggedIn = true := by
  have hquestion : question.needsLogin = true := by
    cases question <;> first | rfl | exact hneeds.elim
  have hboth : (!v.isCut) = true ∧ v.loggedIn = true := by
    simpa [passes, hquestion] using hpasses
  exact hboth.2

/-- A question that is not passed on changes nothing; one that is passed on happens, and is
answered by the policy. -/
theorem ask (h : Conducts s clock peer v ts) (question : Callback) :
    v.ask question = (none, v) ∨
      ∃ v', v.ask question = (answer s.policy (.callback question), v') ∧
        Conducts s clock peer v' (ts ++ [⟨0, .callback question⟩]) := by
  unfold Visit.ask
  split_ifs with hpasses
  · refine .inr ⟨{ v with connection := (v.connection.step ⟨0, .callback question⟩).2 }, ?_,
      h.happen _ (loggedIn_of_passes hpasses)⟩
    have hanswer : (v.connection.step ⟨0, .callback question⟩).1
        = answer s.policy (.callback question) := by
      rw [answer_step, h.connection, policy_run]
    rw [← hanswer]
  · exact .inl rfl

/-- A client that is asked for its login and accepted is logged in. -/
theorem login (h : Conducts s clock peer v ts) (question : Callback) :
    ∃ more, Conducts s clock peer (v.login question).2 (ts ++ more) := by
  rcases h.ask question with hask | ⟨v', hask, hv'⟩
  · rw [Visit.login, hask]
    exact h.still
  · rw [Visit.login, hask]
    split
    · rename_i v'' heq
      obtain ⟨hanswer, rfl⟩ := Prod.mk.inj heq
      -- the login that was accepted is the last thing that happened
      have hlogged : Conducts s clock peer { v' with loggedIn := true }
          (ts ++ [⟨0, .callback question⟩]) :=
        { hv' with
          loggedIn := fun _ => ⟨exchange s.policy ⟨0, .callback question⟩, by simp, hanswer⟩ }
      rcases hlogged.ask .authenticated with hask' | ⟨v₂, hask', hv₂⟩
      · refine ⟨[⟨0, .callback question⟩], ?_⟩
        rw [hask']
        exact hlogged
      · refine ⟨[⟨0, .callback question⟩] ++ [⟨0, .callback .authenticated⟩], ?_⟩
        rw [hask', ← List.append_assoc]
        exact hv₂
    · rename_i methods partly v'' heq
      obtain ⟨-, rfl⟩ := Prod.mk.inj heq
      exact ⟨_, hv'.congr rfl rfl rfl⟩
    · rename_i _ v'' _ _ heq
      obtain ⟨-, rfl⟩ := Prod.mk.inj heq
      exact ⟨_, hv'⟩

theorem openChannel (h : Conducts s clock peer v ts) (kind : ChannelKind) :
    ∃ more, Conducts s clock peer (v.openChannel kind).2 (ts ++ more) := by
  rcases h.ask (.openChannel kind v.channels) with hask | ⟨v', hask, hv'⟩
  · rw [Visit.openChannel, hask]
    exact h.still
  · refine ⟨[⟨0, .callback (.openChannel kind v.channels)⟩], ?_⟩
    rw [Visit.openChannel, hask]
    split
    · rename_i v'' heq
      obtain ⟨-, rfl⟩ := Prod.mk.inj heq
      exact hv'.congr rfl rfl rfl
    · rename_i v'' _ heq
      obtain ⟨-, rfl⟩ := Prod.mk.inj heq
      exact hv'

theorem request (h : Conducts s clock peer v ts) (question : Callback) :
    ∃ more, Conducts s clock peer (v.request question).2 (ts ++ more) := by
  rcases h.ask question with hask | ⟨v', hask, hv'⟩
  · rw [Visit.request, hask]
    exact h.still
  · refine ⟨[⟨0, .callback question⟩], ?_⟩
    rw [Visit.request, hask]
    split
    · rename_i yes v'' heq
      obtain ⟨-, rfl⟩ := Prod.mk.inj heq
      exact hv'
    · rename_i v'' _ heq
      obtain ⟨-, rfl⟩ := Prod.mk.inj heq
      exact hv'

/-- What a client waits for is the end of a session on what has happened. -/
theorem waitForEnd (h : Conducts s clock peer v ts) :
    Conducts s clock peer v.waitForEnd.2 ts := by
  refine { h with ended := fun outcome hended => ?_ }
  obtain rfl := Option.some.inj hended
  cases houtcome : v.outcome with
  | some outcome => exact h.ended outcome houtcome
  | none =>
    refine ⟨ts, [], v.terminal false, by simp, ?_⟩
    rw [session, ← h.connection]
    rfl

/-- A client that leaves has had its name answered, or its session ends as one on which the
transport goes away. -/
theorem leave (h : Conducts s clock peer v ts) :
    ∃ more, Conducts s clock peer v.leave.2 (ts ++ more) ∧
      v.leave.2.outcome = some v.leave.1 := by
  cases houtcome : v.outcome with
  | some outcome =>
    refine ⟨[], ?_, ?_⟩
    · rw [Visit.leave, houtcome, List.append_nil]
      exact h
    · rw [Visit.leave, houtcome]
      exact houtcome
  | none =>
    have hgone := h.happen .transportGone fun hneeds => hneeds.elim
    refine ⟨[⟨0, .transportGone⟩], ?_, ?_⟩
    · rw [Visit.leave, houtcome]
      refine { hgone with ended := fun outcome hended => ?_ }
      obtain rfl := Option.some.inj hended
      split
      · rename_i username hname
        refine ⟨ts, _, v.terminal false, rfl, ?_⟩
        rw [session, ← h.connection, hname]
      · refine ⟨_, [], v.terminal true, (List.append_nil _).symm, ?_⟩
        rw [session, run_concat, ← h.connection]
    · rw [Visit.leave, houtcome]

theorem step (h : Conducts s clock peer v ts) (x : VisitStep) :
    ∃ more, Conducts s clock peer (v.step x).2 (ts ++ more) := by
  cases x with
  | noAuth user => exact h.still
  | password user pw => exact h.login _
  | publicKey user key => exact h.login _
  | openChannel kind => exact h.openChannel kind
  | pty id r => exact h.request _
  | shell id => exact h.request _
  | exec id command => exact h.request _
  | subsystem id name => exact h.request _
  | send id message =>
    rw [Visit.step, send]
    split
    · exact h.still
    · exact still (h.congr rfl rfl rfl)
  | forward => exact h.still
  | readPrompt id => exact still (h.congr rfl rfl rfl)
  | readClose id => exact still (h.congr rfl rfl rfl)
  | disconnect =>
    obtain ⟨more, hleft, -⟩ := h.leave
    exact ⟨more, hleft⟩
  | awaitDisconnect => exact h.waitForEnd.still

/-- A whole script ends as a session does on things that happen at once, logins first. -/
theorem play (script : List VisitStep) :
    ∀ {v : Visit} {ts : List Timed}, Conducts s clock peer v ts →
      ∃ past terminal, (∀ t ∈ past, t.time = 0) ∧ LoginFirst (past.map (exchange s.policy)) ∧
        (v.play script).2 =
          session s.policy (some peer) (.ofConfig s.config clock) past terminal := by
  induction script with
  | nil =>
    intro v ts h
    obtain ⟨more, hleft, houtcome⟩ := h.leave
    obtain ⟨past, rest, terminal, heq, hsession⟩ := hleft.ended _ houtcome
    have hatOnce := hleft.atOnce
    have hgate := hleft.gate
    rw [heq] at hatOnce hgate
    rw [List.map_append] at hgate
    exact ⟨past, terminal, fun t ht => hatOnce t (List.mem_append_left rest ht),
      hgate.of_append, hsession⟩
  | cons x script ih =>
    intro v ts h
    obtain ⟨more, hnext⟩ := h.step x
    exact ih hnext

end Conducts

end Visit

/-! ### Those who speak another protocol -/

namespace Greeting

theorem foundFrom_eq (acc bs : Bytes) :
    foundFrom acc bs
      = (List.splitOnPPrepend (· == LineBuffer.lf) bs acc).dropLast.any greets := by
  induction bs generalizing acc with
  | nil => rfl
  | cons b r ih =>
    rw [foundFrom, List.splitOnPPrepend_cons_eq_if]
    by_cases h : b = LineBuffer.lf
    · have hne : r.splitOnP (· == LineBuffer.lf) ≠ [] := List.splitOnP_ne_nil _ _
      simp [h, ih, List.dropLast_cons_of_ne_nil hne]
    · simp [h, ih]

/-- A greeting is found if one of the lines greets that end among the first bytes. -/
theorem found_iff {input : Bytes} :
    found input = true ↔
      ∃ line ∈ ((input.take window).splitOn LineBuffer.lf).dropLast, greets line = true := by
  rw [found, foundFrom_eq, List.any_eq_true]
  rfl

end Greeting

namespace Server

variable {s : Server} {w : Visitor}

/-- Someone who speaks another protocol never gets to the board. -/
theorem exists_fault_of_raw {input : Bytes} {ends : Bool} (hcaller : w.caller = .raw input ends) :
    ∃ fault, (s.receive w).2 = .fault fault := by
  rw [receive, hcaller]
  show ∃ fault, Greeting.outcome s.config input ends = .fault fault
  unfold Greeting.outcome
  split_ifs
  · exact ⟨_, rfl⟩
  · exact ⟨_, rfl⟩
  · split
    · split_ifs
      · exact ⟨_, rfl⟩
      · exact ⟨_, rfl⟩
    · exact ⟨_, rfl⟩

/-- The session of a client ends as a session does on things that happen at once, logins first. -/
theorem exists_session_of_client {script : List VisitStep} (hcaller : w.caller = .client script) :
    ∃ ts terminal, (∀ t ∈ ts, t.time = 0) ∧
      LoginFirst (runTranscript s.policy (some w.peer) (.ofConfig s.config w.clock) ts) ∧
      (s.receive w).2
        = session s.policy (some w.peer) (.ofConfig s.config w.clock) ts terminal := by
  obtain ⟨ts, terminal, hatOnce, hgate, hsession⟩ :=
    (Visit.conducts_start s w.clock w.peer).play script
  refine ⟨ts, terminal, hatOnce, ?_, ?_⟩
  · rw [runTranscript_eq_map]
    exact hgate
  · rw [receive, hcaller]
    exact hsession

/-- A session that ends with a name came to the board. -/
theorem exists_board_of_session_eq_name {policy : Policy} {peer : Option SocketAddress}
    {patience : Patience} {ts : List Timed} {terminal : ChannelId → Terminal} {username : String}
    (h : session policy peer patience ts terminal = .name username) :
    ∃ id since, (run policy peer patience ts).phase = .board id since := by
  unfold session outcome at h
  split at h
  · rename_i id since hphase
    exact ⟨id, since, phase_eq_board_of_settle hphase⟩
  · cases h
  · cases h
  · cases h

variable {settings : Settings} {loader : KeyLoader} {files : Files} {config : Config}

/-- **Only a client whom the configuration admits is answered with a name** by a server with the
board of the configuration: it logged in, then opened the session channel that the board started
on, and was granted a shell. -/
theorem entitled_of_name (hbuild : settings.build loader files = .ok config)
    (hpolicy : s.policy = config.boardPolicy) {username : String}
    (hname : (s.receive w).2 = .name username) :
    ∃ past t id, BoardStarts s.policy (some w.peer) (.ofConfig s.config w.clock) past t id ∧
      Entitled config id (runTranscript s.policy (some w.peer) (.ofConfig s.config w.clock)
        (past ++ [t])) := by
  cases hcaller : w.caller with
  | raw input ends =>
    obtain ⟨fault, hfault⟩ := exists_fault_of_raw (s := s) hcaller
    rw [hfault] at hname
    cases hname
  | client script =>
    obtain ⟨ts, terminal, -, hgate, hsession⟩ := exists_session_of_client (s := s) hcaller
    rw [hname] at hsession
    obtain ⟨id, since, hphase⟩ := exists_board_of_session_eq_name hsession.symm
    obtain ⟨past, t, rest, rfl, hstarts⟩ := exists_boardStarts hphase
    refine ⟨past, t, id, hstarts, ?_⟩
    rw [runTranscript_eq_map] at hgate ⊢
    rw [List.append_cons, List.map_append] at hgate
    rw [hpolicy] at hgate hstarts ⊢
    exact entitled_of_boardStarts hbuild hgate.of_append hstarts

end Server

end Sysop
