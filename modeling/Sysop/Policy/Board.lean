/-
Sysop/Policy/Board.lean

The policy of the board: one user may come in with any password that is not empty,
one with one key; only session channels are opened, and only a terminal and a shell
are granted on them.
-/
import Sysop.Policy
import Sysop.Settings

namespace Sysop

/-- Who may come in. -/
structure BoardPolicy where
  passwordUser : Option String
  keyUser : String
  key : AllowedKey

namespace BoardPolicy

/-- The policy of a configuration. -/
def ofConfig (c : Config) : BoardPolicy :=
  ⟨c.passwordUser, c.allowedUser, c.allowedKey⟩

/-- The password login is granted. -/
def AdmitsPassword (p : BoardPolicy) (user password : String) : Prop :=
  p.passwordUser = some user ∧ password ≠ ""

instance (p : BoardPolicy) (user password : String) :
    Decidable (p.AdmitsPassword user password) :=
  inferInstanceAs (Decidable (_ ∧ _))

/-- The login with a key is granted. -/
def AdmitsKey (p : BoardPolicy) (user : String) (key : PublicKey) : Prop :=
  user = p.keyUser ∧ p.key.Matches key

instance (p : BoardPolicy) (user : String) (key : PublicKey) :
    Decidable (p.AdmitsKey user key) :=
  inferInstanceAs (Decidable (_ ∧ _))

/-- The answer to a password, with its record. -/
def password (p : BoardPolicy) (user password : String) : Logged AuthDecision :=
  let decision := AuthDecision.ofBool (p.AdmitsPassword user password)
  ⟨decision, [⟨.debug, .policy, "Password auth for '" ++ user ++ "': " ++ decision.name⟩]⟩

/-- The answer to a key, with its record. -/
def publicKey (p : BoardPolicy) (user : String) (key : PublicKey) : Logged AuthDecision :=
  ⟨.ofBool (p.AdmitsKey user key),
    [⟨.info, .policy, "Auth attempt with key: " ++ key.fingerprint⟩]⟩

/-- The answer to a request for a channel. -/
def channel : ChannelKind → ChannelDecision
  | .session => .accept
  | _ => .administrativelyProhibited

/-- The board's policy as a policy. -/
def toPolicy (p : BoardPolicy) : Policy where
  allowedAuths _ := AuthMethod.all
  password := p.password
  publicKey := p.publicKey
  channel := channel
  pty _ := true
  shell := true

end BoardPolicy

end Sysop
