/-
Sysop/Proofs/Settings/PasswordUser.lean

Who may come in with a password.

The name goes from the owner of the process or from a call into the settings, through the
building of the configuration, which drops an empty name, into the policy of the board, which
compares it.  `PasswordUser` says whom the calls and the owner name.  The policy that comes out
accepts this user with any password that is not empty, and nobody else.

Main result: `password_accept_iff`.
-/
import Sysop.Owner
import Sysop.Policy.Board
import Sysop.Proofs.Settings.LastCall

namespace Sysop

/-! ### The owner -/

namespace Owner

/-- The environment variable holds the name as a text that is not empty. -/
def NamedBy (o : Owner) (name : String) : Prop :=
  ∃ bytes, o.environment = some bytes ∧ Utf8.decode? bytes = some name ∧ name ≠ ""

theorem named?_eq_some_iff {o : Owner} {name : String} :
    o.named? = some name ↔ o.NamedBy name := by
  rw [named?, Option.filter_eq_some_iff, Option.bind_eq_some_iff, decide_eq_true_iff]
  constructor
  · rintro ⟨⟨bytes, henvironment, hdecode⟩, hname⟩
    exact ⟨bytes, henvironment, hdecode, hname⟩
  · rintro ⟨bytes, henvironment, hdecode, hname⟩
    exact ⟨⟨bytes, henvironment, hdecode⟩, hname⟩

/-- The name of the owner is the one in the environment variable, or else that of the
account. -/
theorem name?_eq_some_iff {o : Owner} {name : String} :
    o.name? = some name ↔
      o.NamedBy name ∨ (∀ other, ¬ o.NamedBy other) ∧ o.accountName? = some name := by
  rw [name?, Option.or_eq_some_iff, named?_eq_some_iff]
  apply or_congr_right
  apply and_congr_left
  intro _
  rw [Option.eq_none_iff_forall_ne_some]
  exact forall_congr' fun other => not_congr named?_eq_some_iff

end Owner

/-! ### The user with a password -/

/-- Whom the calls and the owner of the process name as the user with a password. -/
inductive PasswordUser (o : Owner) (calls : List Setting) (user : String) : Prop
  | called (h : lastCall? .passwordUser calls = some (.passwordUser (some user)))
  | environment (h : lastCall? .passwordUser calls = none) (hname : o.NamedBy user)
  | account (h : lastCall? .passwordUser calls = none) (hno : ∀ other, ¬ o.NamedBy other)
      (hname : o.accountName? = some user)

/-- Calls that agree on the last one for the user with a password name the same. -/
theorem PasswordUser.of_lastCall?_eq {o : Owner} {calls others : List Setting} {user : String}
    (h : lastCall? .passwordUser others = lastCall? .passwordUser calls)
    (huser : PasswordUser o calls user) : PasswordUser o others user := by
  cases huser with
  | called hlast => exact .called (h.trans hlast)
  | environment hlast hname => exact .environment (h.trans hlast) hname
  | account hlast hno hname => exact .account (h.trans hlast) hno hname

/-- A call that sets the user with a password names one or nobody. -/
theorem exists_eq_passwordUser {call : Setting} (h : .passwordUser ∈ call.parts) :
    ∃ user, call = .passwordUser user := by
  cases call with
  | passwordUser user => exact ⟨user, rfl⟩
  | _ => simp [Setting.parts] at h

namespace Settings

variable {owner : Owner} {calls : List Setting} {loader : KeyLoader} {files : Files}
variable {c : Config}

/-- The settings after the calls name the user whom the calls and the owner name. -/
theorem passwordUser_applyAll_eq_some_iff {user : String} :
    ((initial owner.name?).applyAll calls).passwordUser = some user ↔
      PasswordUser owner calls user := by
  have hvalue := value_applyAll (initial owner.name?) .passwordUser calls
  rcases hlast : lastCall? .passwordUser calls with - | call
  · -- nobody called, so the name of the owner is still there
    rw [lastValue?, hlast] at hvalue
    have huser : ((initial owner.name?).applyAll calls).passwordUser = owner.name? := hvalue
    rw [huser, Owner.name?_eq_some_iff]
    constructor
    · rintro (hname | ⟨hno, hname⟩)
      · exact .environment hlast hname
      · exact .account hlast hno hname
    · intro h
      cases h with
      | called h =>
        rw [hlast] at h
        cases h
      | environment _ hname => exact .inl hname
      | account _ hno hname => exact .inr ⟨hno, hname⟩
  · obtain ⟨named, rfl⟩ := exists_eq_passwordUser (mem_of_lastCall? hlast).2
    rw [lastValue?, hlast] at hvalue
    have huser : ((initial owner.name?).applyAll calls).passwordUser = named := hvalue
    rw [huser]
    constructor
    · rintro rfl
      exact .called hlast
    · intro h
      cases h with
      | called h =>
        rw [hlast] at h
        exact Setting.passwordUser.inj (Option.some.inj h)
      | environment h _ =>
        rw [hlast] at h
        cases h
      | account h _ _ =>
        rw [hlast] at h
        cases h

/-- The policy of what was built accepts whom the calls and the owner name. -/
theorem accepts_iff_passwordUser
    (hbuild : ((initial owner.name?).applyAll calls).build loader files = .ok c)
    (user pw : String) : ((BoardPolicy.ofConfig c).toPolicy.password user pw).value = .accept ↔
      pw ≠ "" ∧ user ≠ "" ∧ PasswordUser owner calls user := by
  have haccept : ((BoardPolicy.ofConfig c).toPolicy.password user pw).value = .accept ↔
      c.passwordUser = some user ∧ pw ≠ "" :=
    AuthDecision.ofBool_eq_accept_iff.trans decide_eq_true_iff
  rw [haccept, passwordUser_eq_some_iff_of_build hbuild, passwordUser_applyAll_eq_some_iff]
  constructor
  · rintro ⟨⟨huser, hname⟩, hpw⟩
    exact ⟨hpw, hname, huser⟩
  · rintro ⟨hpw, hname, huser⟩
    exact ⟨⟨huser, hname⟩, hpw⟩

/-- **With a password that is not empty comes in whom the last call for it names, or else the
owner of the process; with an empty name, or with none, comes in nobody.**  Whatever the other
calls and the files are, and whoever reads the host key, the answers are the same. -/
theorem password_accept_iff
    (hbuild : ((initial owner.name?).applyAll calls).build loader files = .ok c) :
    (∀ user pw, ((BoardPolicy.ofConfig c).toPolicy.password user pw).value = .accept ↔
      pw ≠ "" ∧ user ≠ "" ∧ PasswordUser owner calls user) ∧
    ∀ others loader' files' c', lastCall? .passwordUser others = lastCall? .passwordUser calls →
      ((initial owner.name?).applyAll others).build loader' files' = .ok c' → ∀ user pw,
        (((BoardPolicy.ofConfig c').toPolicy.password user pw).value = .accept ↔
          ((BoardPolicy.ofConfig c).toPolicy.password user pw).value = .accept) := by
  constructor
  · exact accepts_iff_passwordUser hbuild
  · intro others loader' files' c' hlast hbuild' user pw
    have hsame : PasswordUser owner others user ↔ PasswordUser owner calls user :=
      ⟨.of_lastCall?_eq hlast.symm, .of_lastCall?_eq hlast⟩
    rw [accepts_iff_passwordUser hbuild', accepts_iff_passwordUser hbuild, hsame]

/-! ### An owner without a usable variable -/

/-- The variable is set to something that is no text, and the account is called Ada. -/
def ada : Owner :=
  ⟨some [0xFF, 0x61], some [0x61, 0x64, 0x61]⟩

/-- Calls for everything but the user with a password. -/
def deskCalls : List Setting :=
  [.allowedKey spareKey, .allowedUser "desk", .hostKey doorKey]

/-- What is built for the owner. -/
def deskConfig : Config :=
  ((initial (some "ada")).applyAll deskCalls).toConfig (doorKey, none) spareKey

theorem build_deskCalls :
    ((initial ada.name?).applyAll deskCalls).build OpenSsh.load (fun _ => .error .notUtf8) =
      .ok deskConfig :=
  rfl

theorem not_namedBy_ada (name : String) : ¬ ada.NamedBy name := by
  rintro ⟨bytes, henvironment, hdecode, -⟩
  obtain rfl := Option.some.inj henvironment
  cases hdecode

/-- The account lets its owner in, whatever else was called. -/
theorem ada_accepted :
    ((initial ada.name?).applyAll deskCalls).build OpenSsh.load (fun _ => .error .notUtf8) =
        .ok deskConfig ∧
      ((BoardPolicy.ofConfig deskConfig).toPolicy.password "ada" "any").value = .accept := by
  refine ⟨build_deskCalls, ((password_accept_iff build_deskCalls).1 "ada" "any").mpr ?_⟩
  exact ⟨by decide, by decide, .account rfl not_namedBy_ada rfl⟩

end Settings

end Sysop
