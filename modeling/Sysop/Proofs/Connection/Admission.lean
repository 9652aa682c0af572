/-
Sysop/Proofs/Connection/Admission.lean

Who gets to see the board of a configuration.

The transport lets nobody ask for a channel, or for anything on one, before a login was
accepted (`LoginFirst`).  The policy of a configuration accepts a login only from a user
whom the configuration admits (`admits_of_acceptsLogin`), and the driver starts the board
only on a session channel that was opened, after a shell was granted.  So whatever is sent
goes to an admitted user (`exists_entitled_of_sent`).
-/
import Sysop.Policy.Board
import Sysop.Proofs.Connection.BoardStart
import Sysop.Proofs.Settings.Checks

namespace Sysop

/-! ### Logins -/

/-- The policy of the board under a configuration. -/
abbrev Config.boardPolicy (c : Config) : Policy :=
  (BoardPolicy.ofConfig c).toPolicy

/-- The configuration admits who tries to log in like this: the user with a password, by
any password that is not empty, or the user with a key, by a key whose encoding is the
allowed one. -/
def Config.Admits (c : Config) : Happening → Prop
  | .callback (.password user pw) => c.passwordUser = some user ∧ user ≠ "" ∧ pw ≠ ""
  | .callback (.publicKey user key) => user = c.allowedUser ∧ key.encode = c.allowedKey.bytes
  | _ => False

/-- Something that the transport passes on only after a login. -/
def Happening.NeedsLogin : Happening → Prop
  | .callback (.password ..) => False
  | .callback (.publicKey ..) => False
  | .callback .authenticated => False
  | .callback (.openChannel ..) => True
  | .callback (.pty ..) => True
  | .callback (.shell _) => True
  | .callback (.exec ..) => True
  | .callback (.subsystem ..) => True
  | .transportGone => False

/-- Whatever needs a login comes after a login that was accepted. -/
def LoginFirst (es : List Exchange) : Prop :=
  ∀ before e after, es = before ++ e :: after → e.what.NeedsLogin →
    ∃ login ∈ before, login.AcceptsLogin

/-- A login that was accepted opens the way for everything after it. -/
theorem loginFirst_cons_of_acceptsLogin {e : Exchange} {es : List Exchange}
    (hneeds : ¬ e.what.NeedsLogin) (haccepts : e.AcceptsLogin) : LoginFirst (e :: es) := by
  intro before e' after h hneeds'
  cases before with
  | nil =>
    obtain ⟨rfl, -⟩ := List.cons.inj h
    exact absurd hneeds' hneeds
  | cons e'' before =>
    obtain ⟨rfl, -⟩ := List.cons.inj h
    exact ⟨e, List.mem_cons_self, haccepts⟩

theorem LoginFirst.of_append {es fs : List Exchange} (h : LoginFirst (es ++ fs)) :
    LoginFirst es := by
  rintro before e after rfl hneeds
  apply h before e (after ++ fs) _ hneeds
  rw [List.append_assoc, List.cons_append]

/-- One more exchange keeps the order if it needs no login or comes after one. -/
theorem LoginFirst.concat {es : List Exchange} (h : LoginFirst es) {e : Exchange}
    (he : e.what.NeedsLogin → ∃ login ∈ es, login.AcceptsLogin) : LoginFirst (es ++ [e]) := by
  intro before e' after heq hneeds
  rcases List.eq_nil_or_concat after with rfl | ⟨after', last, rfl⟩
  · obtain ⟨rfl, hlast⟩ := List.append_inj' heq rfl
    obtain rfl := (List.cons.inj hlast).1
    exact he hneeds
  · rw [List.concat_eq_append, ← List.cons_append, ← List.append_assoc] at heq
    obtain ⟨rfl, -⟩ := List.append_inj' heq rfl
    exact h before e' after' rfl hneeds

/-- A client whom the configuration admits logged in, then the session channel was opened;
and a shell was granted. -/
structure Entitled (config : Config) (id : ChannelId) (es : List Exchange) : Prop where
  login : ∃ before login between opening after,
    es = before ++ login :: (between ++ opening :: after) ∧
      login.AcceptsLogin ∧ config.Admits login.what ∧ opening.Opens id
  shell : ∃ e ∈ es, e.GrantsShell

namespace Connection

/-- The policy of a configuration accepts only logins that the configuration admits. -/
theorem admits_of_acceptsLogin {s : Settings} {loader : KeyLoader} {files : Files} {config : Config}
    (hbuild : s.build loader files = .ok config) {t : Timed}
    (h : (exchange config.boardPolicy t).AcceptsLogin) :
    config.Admits t.what := by
  obtain ⟨time, what⟩ := t
  cases what with
  | transportGone => cases h
  | callback question =>
    have hanswer := Option.some.inj h
    cases question with
    | password user pw =>
      have haccept := Handler.authAnswer_eq_accept_iff.mp (Answer.auth.inj hanswer)
      obtain ⟨huser, hpw⟩ := of_decide_eq_true (AuthDecision.ofBool_eq_accept_iff.mp haccept)
      exact ⟨huser, Settings.passwordUser_ne_empty_of_build hbuild huser, hpw⟩
    | publicKey user key =>
      have haccept := Handler.authAnswer_eq_accept_iff.mp (Answer.auth.inj hanswer)
      have hadmits : (BoardPolicy.ofConfig config).AdmitsKey user key :=
        of_decide_eq_true (AuthDecision.ofBool_eq_accept_iff.mp haccept)
      exact hadmits
    | openChannel kind id =>
      cases kind <;> cases hanswer
    | _ => cases hanswer

variable {s : Settings} {loader : KeyLoader} {files : Files} {config : Config}
variable {peer : Option SocketAddress} {clock : Clock}

/-- A board that starts after logins came first starts for an admitted user. -/
theorem entitled_of_boardStarts {patience : Patience} {past : List Timed} {t : Timed}
    {id : ChannelId} (hbuild : s.build loader files = .ok config)
    (hgate : LoginFirst ((past ++ [t]).map (exchange config.boardPolicy)))
    (hstarts : BoardStarts config.boardPolicy peer patience past t id) :
    Entitled config id ((past ++ [t]).map (exchange config.boardPolicy)) := by
  obtain ⟨⟨n, hfirst⟩, ⟨m, hshell⟩⟩ := hstarts.grounded
  obtain ⟨before, opening, after, hes, hopens, -⟩ := exists_opens_of_firstOpening hfirst
  -- the login that the transport has waited for before it passed the opening on
  have hneeds : opening.what.NeedsLogin := by
    rw [hopens]
    trivial
  obtain ⟨login, hlogin, haccepts⟩ := hgate before opening after hes hneeds
  have hadmits : config.Admits login.what := by
    have hmem : login ∈ (past ++ [t]).map (exchange config.boardPolicy) := by
      rw [hes]
      exact List.mem_append_left _ hlogin
    -- the login is an exchange under the same policy
    obtain ⟨t', -, rfl⟩ := List.mem_map.mp hmem
    exact admits_of_acceptsLogin hbuild haccepts
  obtain ⟨earlier, between, rfl⟩ := List.append_of_mem hlogin
  refine ⟨⟨earlier, login, between, opening, after, ?_, haccepts, hadmits, hopens⟩,
    exists_grantsShell_of_firstShell hshell⟩
  rw [hes, List.append_assoc, List.cons_append]

/-- **Whatever is sent on a channel is sent after a client logged in whom the configuration
admits and then opened that channel as a session, and after a shell was granted.** -/
theorem exists_entitled_of_sent {ts : List Timed} {terminal : ChannelId → Terminal}
    {id : ChannelId} {text : String} (hbuild : s.build loader files = .ok config)
    (hgate : LoginFirst (runTranscript config.boardPolicy peer (.ofConfig config clock) ts))
    (hsent : text ∈ (run config.boardPolicy peer (.ofConfig config clock) ts).sentOn terminal id) :
    ∃ past t rest, ts = past ++ t :: rest ∧
      BoardStarts config.boardPolicy peer (.ofConfig config clock) past t id ∧
      Entitled config id
        (runTranscript config.boardPolicy peer (.ofConfig config clock) (past ++ [t])) := by
  obtain ⟨since, hphase⟩ := exists_phase_of_mem_sentOn hsent
  obtain ⟨past, t, rest, rfl, hstarts⟩ := exists_boardStarts hphase
  refine ⟨past, t, rest, rfl, hstarts, ?_⟩
  rw [runTranscript_eq_map] at hgate ⊢
  rw [List.append_cons, List.map_append] at hgate
  exact entitled_of_boardStarts hbuild hgate.of_append hstarts

/-- The key that the guest house lets in. -/
def guestKey : AllowedKey where
  bytes := Wire.string (Utf8.encode "ssh-rsa")
  algorithm := "ssh-rsa"
  named := by decide

/-- Settings with keys that need no file. -/
def guestHouse : Settings :=
  { Settings.initial (some "guest") with
    givenHostKey := some doorKey
    givenAllowedKey := some guestKey }

/-- The configuration of these settings. -/
def guestConfig : Config :=
  guestHouse.toConfig (doorKey, none) guestKey

/-- The guest logs in, opens a session channel and asks for a shell on it. -/
def guestArrives : List Timed :=
  [⟨0, .callback (.password "guest" "any")⟩, ⟨5, .callback (.openChannel .session 3)⟩,
    ⟨9, .callback (.shell 3)⟩]

/-- No file can be read. -/
def noFiles : Files := fun _ => .error .notUtf8

theorem build_guestHouse : guestHouse.build OpenSsh.load noFiles = .ok guestConfig := rfl

/-- The waits of the guest house, on a machine that has been up for two hours and a half. -/
def guestPatience : Patience :=
  .ofConfig guestConfig (.startingAt ⟨9000, 500000000, by decide, by decide⟩)

theorem loginFirst_guestArrives :
    LoginFirst (runTranscript guestConfig.boardPolicy none guestPatience guestArrives) := by
  rw [runTranscript_eq_map]
  exact loginFirst_cons_of_acceptsLogin not_false (by decide)

theorem sent_to_guest :
    "Username: " ∈ (run guestConfig.boardPolicy none guestPatience guestArrives).sentOn
      (fun _ => ⟨[], none, fun _ => none, none⟩) 3 := by
  decide

/-- The guest sees the prompt, and is entitled to. -/
theorem guest_is_entitled :
    ∃ past t rest, guestArrives = past ++ t :: rest ∧
      BoardStarts guestConfig.boardPolicy none guestPatience past t 3 ∧
      Entitled guestConfig 3
        (runTranscript guestConfig.boardPolicy none guestPatience (past ++ [t])) :=
  exists_entitled_of_sent build_guestHouse loginFirst_guestArrives sent_to_guest

end Connection

end Sysop
