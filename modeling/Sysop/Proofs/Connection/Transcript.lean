/-
Sysop/Proofs/Connection/Transcript.lean

What was asked on a connection and what was answered.

An `Exchange` is one happening with its answer, and `transcript` lists the exchanges of a
whole play.  Answers depend on the policy alone, so the transcript of a play is a map over
what happens (`transcript_eq_map`), and an exchange opens a session channel or grants a
shell exactly when there is that piece of news in it (`opens_exchange_iff`,
`grantsShell_exchange_iff`).

The first opening and the first shell of what happens are found with their times; they are
what the driver's course depends on.
-/
import Sysop.Proofs.Connection.Stance

namespace Sysop

/-- Something that happened on a connection, with the answer if there is one. -/
structure Exchange where
  what : Happening
  answer : Option Answer
  deriving DecidableEq, Repr

namespace Exchange

/-- A session channel was asked for and opened. -/
def Opens (e : Exchange) (id : ChannelId) : Prop :=
  e = ⟨.callback (.openChannel .session id), some (.granted true)⟩

/-- A shell was asked for on the channel and granted. -/
def GrantsShellOn (e : Exchange) (id : ChannelId) : Prop :=
  e = ⟨.callback (.shell id), some (.granted true)⟩

/-- A shell was asked for and granted, on whatever channel. -/
def GrantsShell (e : Exchange) : Prop :=
  ∃ id, e.GrantsShellOn id

instance (e : Exchange) (id : ChannelId) : Decidable (e.Opens id) :=
  inferInstanceAs (Decidable (_ = _))

instance (e : Exchange) (id : ChannelId) : Decidable (e.GrantsShellOn id) :=
  inferInstanceAs (Decidable (_ = _))

/-- A login was accepted. -/
def AcceptsLogin (e : Exchange) : Prop :=
  e.answer = some (.auth .accept)

instance (e : Exchange) : Decidable e.AcceptsLogin :=
  inferInstanceAs (Decidable (_ = _))

end Exchange

namespace Connection

/-- Everything that happens on a connection, with the answers. -/
def transcript (c : Connection) : List Timed → List Exchange
  | [] => []
  | t :: ts => ⟨t.what, (c.step t).1⟩ :: (c.step t).2.transcript ts

/-- The transcript of a run. -/
def runTranscript (policy : Policy) (peer : Option SocketAddress) (patience : Patience)
    (ts : List Timed) : List Exchange :=
  ((start policy peer patience).look 0).transcript ts

/-! ### Answers -/

/-- The answer of a policy. -/
def answer (policy : Policy) : Happening → Option Answer
  | .callback question =>
    some (({ policy := policy, peer := none } : Handler).handle question).answer
  | .transportGone => none

/-- Something that happens, with the answer of a policy. -/
def exchange (policy : Policy) (t : Timed) : Exchange :=
  ⟨t.what, answer policy t.what⟩

variable {policy : Policy} {peer : Option SocketAddress} {patience : Patience}

/-- The answer depends on nothing but the policy. -/
theorem answer_handle (h : Handler) (question : Callback) :
    some (h.handle question).answer = answer h.policy (.callback question) := by
  cases question with
  | openChannel kind id =>
    show some (h.openChannel kind id).answer = _
    simp only [answer, Handler.handle, Handler.openChannel]
    split
    · split <;> rfl
    · rfl
  | _ => rfl

theorem answer_step (c : Connection) (t : Timed) :
    (c.step t).1 = answer c.handler.policy t.what := by
  show ((c.expire t.time).happen t.what).1 = _
  rcases t.what with question | _
  · show some ((c.expire t.time).handler.handle question).answer = _
    rw [answer_handle, policy_expire]
  · rfl

theorem transcript_eq_map (ts : List Timed) :
    ∀ c : Connection, c.transcript ts = ts.map (exchange c.handler.policy) := by
  induction ts with
  | nil =>
    intro c
    rfl
  | cons t ts ih =>
    intro c
    rw [transcript, ih, policy_step, answer_step]
    rfl

theorem runTranscript_eq_map (ts : List Timed) :
    runTranscript policy peer patience ts = ts.map (exchange policy) := by
  rw [runTranscript, look_start, transcript_eq_map]
  rfl

/-! ### News in an exchange -/

theorem opens_exchange_iff {t : Timed} {id : ChannelId} :
    (exchange policy t).Opens id ↔ news policy t.what = .opening id := by
  rw [news_eq_opening_iff]
  constructor
  · intro h
    obtain ⟨hwhat, hanswer⟩ := Exchange.mk.inj h
    refine ⟨hwhat, ?_⟩
    rw [hwhat] at hanswer
    cases hchannel : policy.channel .session with
    | accept => rfl
    | administrativelyProhibited =>
      simp [answer, Handler.handle, Handler.openChannel, hchannel] at hanswer
  · rintro ⟨hwhat, haccept⟩
    simp [Exchange.Opens, exchange, hwhat, answer, Handler.handle, Handler.openChannel, haccept]

theorem grantsShell_exchange_iff {t : Timed} :
    (exchange policy t).GrantsShell ↔ news policy t.what = .shell := by
  rw [news_eq_shell_iff]
  constructor
  · rintro ⟨id, h⟩
    obtain ⟨hwhat, hanswer⟩ := Exchange.mk.inj h
    rw [hwhat] at hanswer
    refine ⟨⟨id, hwhat⟩, ?_⟩
    have hgranted : some (Answer.granted policy.shell) = some (.granted true) := hanswer
    exact Answer.granted.inj (Option.some.inj hgranted)
  · rintro ⟨⟨id, hwhat⟩, hshell⟩
    refine ⟨id, ?_⟩
    simp [Exchange.GrantsShellOn, exchange, hwhat, answer, Handler.handle,
      Handler.shellRequest, hshell]

/-! ### The first opening and the first shell -/

/-- The time and the channel of an opening. -/
def opening? (policy : Policy) (t : Timed) : Option (Nat × ChannelId) :=
  match news policy t.what with
  | .opening id => some (t.time, id)
  | _ => none

/-- The time of a granted shell. -/
def shell? (policy : Policy) (t : Timed) : Option Nat :=
  match news policy t.what with
  | .shell => some t.time
  | _ => none

/-- The first session channel that the policy accepts, and when. -/
def firstOpening (policy : Policy) (ts : List Timed) : Option (Nat × ChannelId) :=
  ts.findSome? (opening? policy)

/-- When the policy grants the first shell. -/
def firstShell (policy : Policy) (ts : List Timed) : Option Nat :=
  ts.findSome? (shell? policy)

theorem opening?_eq_some_iff {t : Timed} {n : Nat} {id : ChannelId} :
    opening? policy t = some (n, id) ↔ news policy t.what = .opening id ∧ t.time = n := by
  unfold opening?
  split
  · rename_i id' hnews
    rw [hnews, Option.some_inj, Prod.mk.injEq, News.opening.injEq]
    exact And.comm
  · rename_i hnews
    constructor
    · intro h
      cases h
    · rintro ⟨h, -⟩
      exact absurd h (hnews id)

theorem shell?_eq_some_iff {t : Timed} {n : Nat} :
    shell? policy t = some n ↔ news policy t.what = .shell ∧ t.time = n := by
  unfold shell?
  split
  · rename_i hnews
    rw [hnews, Option.some_inj]
    exact ⟨fun h => ⟨rfl, h⟩, fun h => h.2⟩
  · rename_i hnews
    constructor
    · intro h
      cases h
    · rintro ⟨h, -⟩
      exact absurd h hnews

theorem opening?_eq_none {t : Timed} (h : ∀ id, news policy t.what ≠ .opening id) :
    opening? policy t = none := by
  rw [Option.eq_none_iff_forall_not_mem]
  rintro ⟨n, id⟩ hmem
  exact h id (opening?_eq_some_iff.mp hmem).1

theorem shell?_eq_none {t : Timed} (h : news policy t.what ≠ .shell) :
    shell? policy t = none := by
  rw [Option.eq_none_iff_forall_not_mem]
  intro n hmem
  exact h (shell?_eq_some_iff.mp hmem).1

theorem firstOpening_concat (ts : List Timed) (t : Timed) :
    firstOpening policy (ts ++ [t]) = (firstOpening policy ts).or (opening? policy t) := by
  simp [firstOpening, List.findSome?_append]

theorem firstShell_concat (ts : List Timed) (t : Timed) :
    firstShell policy (ts ++ [t]) = (firstShell policy ts).or (shell? policy t) := by
  simp [firstShell, List.findSome?_append]

/-- The first opening stands in the transcript, and there is none before it. -/
theorem exists_opens_of_firstOpening {ts : List Timed} {n : Nat} {id : ChannelId}
    (h : firstOpening policy ts = some (n, id)) :
    ∃ before opening after, ts.map (exchange policy) = before ++ opening :: after ∧
      opening.Opens id ∧ ∀ e ∈ before, ∀ id', ¬ e.Opens id' := by
  obtain ⟨before, t, after, rfl, ht, hbefore⟩ := List.findSome?_eq_some_iff.mp h
  obtain ⟨hnews, -⟩ := opening?_eq_some_iff.mp ht
  refine ⟨before.map (exchange policy), exchange policy t, after.map (exchange policy),
    by simp, opens_exchange_iff.mpr hnews, ?_⟩
  intro e he id' hopens
  obtain ⟨t', ht', rfl⟩ := List.mem_map.mp he
  -- an opening before it would be the first
  have hsome : opening? policy t' = some (t'.time, id') :=
    opening?_eq_some_iff.mpr ⟨opens_exchange_iff.mp hopens, rfl⟩
  rw [hbefore t' ht'] at hsome
  cases hsome

/-- The first shell stands in the transcript. -/
theorem exists_grantsShell_of_firstShell {ts : List Timed} {n : Nat}
    (h : firstShell policy ts = some n) :
    ∃ e ∈ ts.map (exchange policy), e.GrantsShell := by
  obtain ⟨t, ht, hsome⟩ := List.exists_of_findSome?_eq_some h
  obtain ⟨hnews, -⟩ := shell?_eq_some_iff.mp hsome
  exact ⟨exchange policy t, List.mem_map_of_mem ht, grantsShell_exchange_iff.mpr hnews⟩

end Connection

end Sysop
