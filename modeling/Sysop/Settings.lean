/-
Sysop/Settings.lean

The settings of a server, and the configuration that they make.

A setting is changed by a call; the last call for a setting counts.  A key can be
given or be read from a file: a host key that is given counts before its path, which
stays where it is, while the two ways to set the allowed key undo each other.
Building checks the settings in a fixed order and reports the first fault: the
allowed user, the three timeouts, the host key, the allowed key.
-/
import Sysop.Key.Allowed
import Sysop.Key.Private

namespace Sysop

/-! ### Where keys come from -/

/-- Where the host key comes from. -/
inductive HostKeySource
  | file (path : String)
  | given (key : PrivateKey)
  deriving DecidableEq, Repr

/-- The host key, and the path of its file if it comes from one. -/
def HostKeySource.load (loader : KeyLoader) (files : Files) :
    HostKeySource → Except ConfigFault (PrivateKey × Option String)
  | .given key => .ok (key, none)
  | .file path =>
    match loader files path with
    | .ok key => .ok (key, some path)
    | .error reason => .error (.hostKey path reason)

/-- Where the allowed key comes from. -/
inductive AllowedKeySource
  | builtin
  | file (path : String)
  | given (key : AllowedKey)
  deriving DecidableEq

/-- The allowed key. -/
def AllowedKeySource.load (files : Files) :
    AllowedKeySource → Except ConfigFault AllowedKey
  | .builtin => AllowedKey.builtin
  | .file path => AllowedKey.ofFile files path
  | .given key => .ok key

/-! ### Settings -/

/-- Everything about a server that can be set. -/
structure Settings where
  ip : IpAddress
  port : UInt16
  backlog : UInt32
  hostKeyPath : String
  /-- The host key, if one was given after the path was set. -/
  givenHostKey : Option PrivateKey
  allowedUser : String
  givenAllowedKey : Option AllowedKey
  allowedKeyPath : Option String
  passwordUser : Option String
  acceptTimeout : Span
  shellTimeout : Span
  lineTimeout : Span
  authRejection : Span
  inactivity : Option Span
  deriving DecidableEq

/-- A call that changes a setting. -/
inductive Setting
  | bind (ip : IpAddress)
  | port (n : UInt16)
  | backlog (n : UInt32)
  | hostKeyPath (path : String)
  | hostKey (key : PrivateKey)
  | allowedUser (user : String)
  | allowedKey (key : AllowedKey)
  | allowedKeyPath (path : String)
  | passwordUser (user : Option String)
  | timeout (d : Span)
  | acceptTimeout (d : Span)
  | shellTimeout (d : Span)
  | lineTimeout (d : Span)
  | authRejection (d : Span)
  | inactivity (d : Option Span)

namespace Settings

/-- The settings before any call: everything but the password user has a fixed
value, and the password user is the owner of the process. -/
def initial (owner : Option String) : Settings where
  ip := .anyV4
  port := 2200
  backlog := 100
  hostKeyPath := "test_rsa.key"
  givenHostKey := none
  allowedUser := "robey"
  givenAllowedKey := none
  allowedKeyPath := none
  passwordUser := owner
  acceptTimeout := .ofSeconds 10
  shellTimeout := .ofSeconds 10
  lineTimeout := .ofSeconds 60
  authRejection := .ofSeconds 1
  inactivity := some (.ofSeconds 300)

/-- One call.  The general timeout is the one for the channel and the one for the
shell. -/
def apply (s : Settings) : Setting → Settings
  | .bind ip => { s with ip }
  | .port n => { s with port := n }
  | .backlog n => { s with backlog := n }
  | .hostKeyPath path => { s with hostKeyPath := path, givenHostKey := none }
  | .hostKey key => { s with givenHostKey := some key }
  | .allowedUser user => { s with allowedUser := user }
  | .allowedKey key => { s with givenAllowedKey := some key, allowedKeyPath := none }
  | .allowedKeyPath path => { s with allowedKeyPath := some path, givenAllowedKey := none }
  | .passwordUser user => { s with passwordUser := user }
  | .timeout d => { s with acceptTimeout := d, shellTimeout := d }
  | .acceptTimeout d => { s with acceptTimeout := d }
  | .shellTimeout d => { s with shellTimeout := d }
  | .lineTimeout d => { s with lineTimeout := d }
  | .authRejection d => { s with authRejection := d }
  | .inactivity d => { s with inactivity := d }

/-- Calls one after another. -/
def applyAll (s : Settings) (calls : List Setting) : Settings :=
  calls.foldl apply s

/-- Where the host key of the settings comes from. -/
def hostKey (s : Settings) : HostKeySource :=
  match s.givenHostKey with
  | some key => .given key
  | none => .file s.hostKeyPath

/-- Where the allowed key of the settings comes from. -/
def allowedKey (s : Settings) : AllowedKeySource :=
  match s.givenAllowedKey, s.allowedKeyPath with
  | some key, _ => .given key
  | none, some path => .file path
  | none, none => .builtin

end Settings

/-! ### Configurations -/

/-- The checked settings of a server. -/
structure Config where
  address : SocketAddress
  backlog : UInt32
  hostKey : PrivateKey
  /-- The file that the host key was read from. -/
  hostKeyPath : Option String
  allowedUser : String
  allowedKey : AllowedKey
  passwordUser : Option String
  acceptTimeout : Span
  shellTimeout : Span
  lineTimeout : Span
  authRejection : Span
  inactivity : Option Span
  deriving DecidableEq

/-- What the transport is told. -/
structure TransportConfig where
  keys : List PrivateKey
  authRejection : Span
  inactivity : Option Span
  deriving DecidableEq

namespace Config

/-- What the transport is told of a configuration. -/
def transport (c : Config) : TransportConfig :=
  ⟨[c.hostKey], c.authRejection, c.inactivity⟩

/-- The configuration as reports show it: what is told to the transport alone is
left out. -/
def report (c : Config) : String :=
  "ServerConfig \x7b bind_addr: " ++ c.address.text
    ++ ", backlog: " ++ Numeral.decimal c.backlog.toNat
    ++ ", host_key: " ++ Text.quote c.hostKey.publicKey.algorithm.name
    ++ ", host_key_path: " ++ Text.quoteOption c.hostKeyPath
    ++ ", allowed_user: " ++ Text.quote c.allowedUser
    ++ ", allowed_key: " ++ c.allowedKey.report
    ++ ", password_user: " ++ Text.quoteOption c.passwordUser
    ++ ", accept_timeout: " ++ c.acceptTimeout.text
    ++ ", shell_timeout: " ++ c.shellTimeout.text
    ++ ", line_timeout: " ++ c.lineTimeout.text
    ++ ", .. \x7d"

end Config

/-! ### Building -/

namespace Settings

/-- The first fault that needs no file to be seen. -/
def fault? (s : Settings) : Option ConfigFault :=
  if s.allowedUser = "" then some (.invalid "allowed user must not be empty")
  else if s.acceptTimeout.isZero then some (.invalid "accept timeout must be greater than zero")
  else if s.shellTimeout.isZero then some (.invalid "shell timeout must be greater than zero")
  else if s.lineTimeout.isZero then some (.invalid "line timeout must be greater than zero")
  else none

/-- The configuration of settings and the keys that were loaded for them. -/
def toConfig (s : Settings) (hostKey : PrivateKey × Option String) (allowedKey : AllowedKey) :
    Config where
  address := ⟨s.ip, s.port⟩
  backlog := s.backlog
  hostKey := hostKey.1
  hostKeyPath := hostKey.2
  allowedUser := s.allowedUser
  allowedKey := allowedKey
  passwordUser := s.passwordUser.filter (· ≠ "")
  acceptTimeout := s.acceptTimeout
  shellTimeout := s.shellTimeout
  lineTimeout := s.lineTimeout
  authRejection := s.authRejection
  inactivity := s.inactivity

/-- The configuration, or the first fault. -/
def build (s : Settings) (loader : KeyLoader) (files : Files) : Except ConfigFault Config :=
  match s.fault? with
  | some fault => .error fault
  | none =>
    match s.hostKey.load loader files with
    | .error fault => .error fault
    | .ok hostKey =>
      match s.allowedKey.load files with
      | .error fault => .error fault
      | .ok allowedKey => .ok (s.toConfig hostKey allowedKey)

/-! ### Small facts -/

/-- A configuration that was built is made of faultless settings and the two keys that were
loaded for them. -/
theorem exists_toConfig_of_build {s : Settings} {loader : KeyLoader} {files : Files} {c : Config}
    (h : s.build loader files = .ok c) :
    s.fault? = none ∧ ∃ hostKey allowedKey, s.hostKey.load loader files = .ok hostKey ∧
      s.allowedKey.load files = .ok allowedKey ∧ c = s.toConfig hostKey allowedKey := by
  unfold build at h
  split at h
  · cases h
  · rename_i hfault
    split at h
    · cases h
    · rename_i hostKey hhost
      split at h
      · cases h
      · rename_i allowedKey hallowed
        cases h
        exact ⟨hfault, hostKey, allowedKey, hhost, hallowed, rfl⟩

/-- A configuration keeps the password user of its settings, if the name is not empty. -/
theorem passwordUser_eq_some_iff_of_build {s : Settings} {loader : KeyLoader} {files : Files}
    {c : Config} {user : String} (h : s.build loader files = .ok c) :
    c.passwordUser = some user ↔ s.passwordUser = some user ∧ user ≠ "" := by
  obtain ⟨-, hostKey, allowedKey, -, -, rfl⟩ := exists_toConfig_of_build h
  show s.passwordUser.filter (· ≠ "") = some user ↔ _
  rw [Option.filter_eq_some_iff, decide_eq_true_iff]

/-- The password user of a configuration has a name. -/
theorem passwordUser_ne_empty_of_build {s : Settings} {loader : KeyLoader} {files : Files}
    {c : Config} {user : String} (h : s.build loader files = .ok c)
    (huser : c.passwordUser = some user) : user ≠ "" :=
  ((passwordUser_eq_some_iff_of_build h).mp huser).2

end Settings

end Sysop
