/-
Sysop/Proofs/Settings/LastCall.lean

For every part of the settings the last call counts, and nothing else does.

The settings fall into parts, and every call sets one part or two (`Setting.parts`).  A call
gives the parts that it sets values that depend on the call alone (`Setting.value?`), and leaves
all other parts as they are (`value_apply`).  So the value of a part is the one that the last call
for it gives (`value_applyAll`), and building reads nothing but these values
(`build_eq_of_value_eq`).

The two keys are parts by where they come from, not by what is stored for them: a path stays
behind a host key that is given, and differs between settings that build the same.

Main result: `build_eq_of_lastCall?_eq`.
-/
import Mathlib.Data.List.Induction
import Sysop.Proofs.Settings.Checks

namespace Sysop

/-! ### Parts -/

/-- A part of the settings that can be set by itself. -/
inductive Part
  | ip
  | port
  | backlog
  | hostKey
  | allowedUser
  | allowedKey
  | passwordUser
  | acceptTimeout
  | shellTimeout
  | lineTimeout
  | authRejection
  | inactivity
  deriving DecidableEq, Repr

/-- What a part of the settings can be. -/
def Part.Value : Part → Type
  | .ip => IpAddress
  | .port => UInt16
  | .backlog => UInt32
  | .hostKey => HostKeySource
  | .allowedUser => String
  | .allowedKey => AllowedKeySource
  | .passwordUser => Option String
  | .acceptTimeout => Span
  | .shellTimeout => Span
  | .lineTimeout => Span
  | .authRejection => Span
  | .inactivity => Option Span

/-- The parts that a call sets. -/
def Setting.parts : Setting → List Part
  | .bind _ => [.ip]
  | .port _ => [.port]
  | .backlog _ => [.backlog]
  | .hostKeyPath _ => [.hostKey]
  | .hostKey _ => [.hostKey]
  | .allowedUser _ => [.allowedUser]
  | .allowedKey _ => [.allowedKey]
  | .allowedKeyPath _ => [.allowedKey]
  | .passwordUser _ => [.passwordUser]
  | .timeout _ => [.acceptTimeout, .shellTimeout]
  | .acceptTimeout _ => [.acceptTimeout]
  | .shellTimeout _ => [.shellTimeout]
  | .lineTimeout _ => [.lineTimeout]
  | .authRejection _ => [.authRejection]
  | .inactivity _ => [.inactivity]

/-- What a call makes of a part, if it sets it. -/
def Setting.value? : Setting → (p : Part) → Option p.Value
  | .bind ip, .ip => some ip
  | .port n, .port => some n
  | .backlog n, .backlog => some n
  | .hostKeyPath path, .hostKey => some (HostKeySource.file path)
  | .hostKey key, .hostKey => some (HostKeySource.given key)
  | .allowedUser user, .allowedUser => some user
  | .allowedKey key, .allowedKey => some (AllowedKeySource.given key)
  | .allowedKeyPath path, .allowedKey => some (AllowedKeySource.file path)
  | .passwordUser user, .passwordUser => some user
  | .timeout d, .acceptTimeout => some d
  | .timeout d, .shellTimeout => some d
  | .acceptTimeout d, .acceptTimeout => some d
  | .shellTimeout d, .shellTimeout => some d
  | .lineTimeout d, .lineTimeout => some d
  | .authRejection d, .authRejection => some d
  | .inactivity d, .inactivity => some d
  | _, _ => none

theorem Setting.mem_parts_iff {call : Setting} {p : Part} :
    p ∈ call.parts ↔ (call.value? p).isSome := by
  cases call <;> cases p <;>
    first
    | exact iff_of_true (by simp [parts]) rfl
    | exact iff_of_false (by simp [parts]) nofun

/-- The last call that sets a part, if there is one. -/
def lastCall? (p : Part) (calls : List Setting) : Option Setting :=
  calls.reverse.find? (p ∈ ·.parts)

theorem lastCall?_concat (p : Part) (calls : List Setting) (call : Setting) :
    lastCall? p (calls ++ [call]) = if p ∈ call.parts then some call else lastCall? p calls := by
  rw [lastCall?, List.reverse_append, List.reverse_singleton, List.singleton_append,
    List.find?_cons]
  by_cases h : p ∈ call.parts
  · simp only [h, decide_true, if_true]
  · simp only [h, decide_false, if_false, lastCall?]

/-- What the last call for a part makes of it. -/
def lastValue? (p : Part) (calls : List Setting) : Option p.Value :=
  (lastCall? p calls).bind (·.value? p)

theorem lastValue?_concat (p : Part) (calls : List Setting) (call : Setting) :
    lastValue? p (calls ++ [call]) = (call.value? p).or (lastValue? p calls) := by
  rw [lastValue?, lastCall?_concat, lastValue?]
  by_cases h : p ∈ call.parts
  · obtain ⟨v, hv⟩ := Option.isSome_iff_exists.mp (Setting.mem_parts_iff.mp h)
    rw [if_pos h, Option.bind_some, hv, Option.some_or]
  · have hnone : call.value? p = none := by simpa [Setting.mem_parts_iff] using h
    rw [if_neg h, hnone, Option.none_or]

/-- The last call that sets a part is one of the calls, and sets the part. -/
theorem mem_of_lastCall? {p : Part} {calls : List Setting} {call : Setting}
    (h : lastCall? p calls = some call) : call ∈ calls ∧ p ∈ call.parts := by
  rw [lastCall?] at h
  have hparts := List.find?_some h
  exact ⟨List.mem_reverse.mp (List.mem_of_find?_eq_some h), of_decide_eq_true hparts⟩

namespace Settings

/-! ### Values -/

/-- What a part of the settings is. -/
def value (s : Settings) : (p : Part) → p.Value
  | .ip => s.ip
  | .port => s.port
  | .backlog => s.backlog
  | .hostKey => s.hostKey
  | .allowedUser => s.allowedUser
  | .allowedKey => s.allowedKey
  | .passwordUser => s.passwordUser
  | .acceptTimeout => s.acceptTimeout
  | .shellTimeout => s.shellTimeout
  | .lineTimeout => s.lineTimeout
  | .authRejection => s.authRejection
  | .inactivity => s.inactivity

/-- A call gives the parts that it sets their values, and leaves the other parts as they are. -/
theorem value_apply (s : Settings) (call : Setting) (p : Part) :
    (s.apply call).value p = (call.value? p).getD (s.value p) := by
  cases call <;> cases p <;> rfl

theorem applyAll_concat (s : Settings) (calls : List Setting) (call : Setting) :
    s.applyAll (calls ++ [call]) = (s.applyAll calls).apply call := by
  rw [applyAll, List.foldl_append]
  rfl

/-- After any calls a part is what the last call for it makes of it, or what it was if there
was none. -/
theorem value_applyAll (s : Settings) (p : Part) (calls : List Setting) :
    (s.applyAll calls).value p = (lastValue? p calls).getD (s.value p) := by
  induction calls using List.reverseRecOn with
  | nil => rfl
  | append_singleton calls call ih =>
    rw [applyAll_concat, value_apply, lastValue?_concat, ih]
    cases call.value? p <;> rfl

/-! ### Building -/

/-- Building reads the values of the parts and nothing else. -/
theorem build_eq_of_value_eq {s t : Settings} (h : ∀ p, s.value p = t.value p) (loader : KeyLoader)
    (files : Files) : s.build loader files = t.build loader files := by
  have hip : s.ip = t.ip := h .ip
  have hport : s.port = t.port := h .port
  have hbacklog : s.backlog = t.backlog := h .backlog
  have hhost : s.hostKey = t.hostKey := h .hostKey
  have huser : s.allowedUser = t.allowedUser := h .allowedUser
  have hkey : s.allowedKey = t.allowedKey := h .allowedKey
  have hpassword : s.passwordUser = t.passwordUser := h .passwordUser
  have haccept : s.acceptTimeout = t.acceptTimeout := h .acceptTimeout
  have hshell : s.shellTimeout = t.shellTimeout := h .shellTimeout
  have hline : s.lineTimeout = t.lineTimeout := h .lineTimeout
  have hrejection : s.authRejection = t.authRejection := h .authRejection
  have hinactivity : s.inactivity = t.inactivity := h .inactivity
  have hfault : s.fault? = t.fault? := by
    rw [fault?, fault?, huser, haccept, hshell, hline]
  have hconfig : s.toConfig = t.toConfig := by
    funext hostKey allowedKey
    simp only [toConfig, hip, hport, hbacklog, huser, hpassword, haccept, hshell, hline,
      hrejection, hinactivity]
  simp only [build, hfault, hhost, hkey, hconfig]

/-- **The last call for every part decides what is built.**  Two histories of calls that end
alike for every part build the same configuration, or fail with the same fault; and after a history
every part is what the last call for it makes of it, or what it was in the beginning. -/
theorem build_eq_of_lastCall?_eq {calls others : List Setting}
    (h : ∀ p, lastCall? p calls = lastCall? p others) (owner : Option String)
    (loader : KeyLoader) (files : Files) :
    ((initial owner).applyAll calls).build loader files =
        ((initial owner).applyAll others).build loader files ∧
      ∀ p, ((initial owner).applyAll calls).value p =
        (lastValue? p calls).getD ((initial owner).value p) := by
  constructor
  · apply build_eq_of_value_eq
    intro p
    rw [value_applyAll, value_applyAll, lastValue?, h p, lastValue?]
  · exact fun p => value_applyAll _ p calls

/-! ### Two histories -/

theorem readAlgorithm?_rsa :
    readAlgorithm? (Wire.string (Utf8.encode "ssh-rsa")) = some "ssh-rsa" := by
  decide

/-- A key that is given. -/
def spareKey : AllowedKey where
  bytes := Wire.string (Utf8.encode "ssh-rsa")
  algorithm := "ssh-rsa"
  named := readAlgorithm?_rsa

/-- Calls that change their mind about both keys, a timeout and the port. -/
def waveringCalls : List Setting :=
  [.hostKeyPath "new.key", .hostKey doorKey, .hostKeyPath "old.key", .port 22,
    .shellTimeout (.ofSeconds 1), .allowedKeyPath "desk.pub", .timeout (.ofSeconds 5),
    .hostKey doorKey, .acceptTimeout (.ofSeconds 3), .allowedKey spareKey, .port 2222]

/-- The calls that count among them, in another order. -/
def settledCalls : List Setting :=
  [.port 2222, .allowedKey spareKey, .timeout (.ofSeconds 5), .hostKey doorKey,
    .acceptTimeout (.ofSeconds 3)]

/-- What is built for both. -/
def settledConfig : Config where
  address := ⟨.anyV4, 2222⟩
  backlog := 100
  hostKey := doorKey
  hostKeyPath := none
  allowedUser := "robey"
  allowedKey := spareKey
  passwordUser := none
  acceptTimeout := .ofSeconds 3
  shellTimeout := .ofSeconds 5
  lineTimeout := .ofSeconds 60
  authRejection := .ofSeconds 1
  inactivity := some (.ofSeconds 300)

/-- The two histories leave different paths for the host key behind, and build the same. -/
theorem build_waveringCalls :
    (∀ p, lastCall? p waveringCalls = lastCall? p settledCalls) ∧
      ((initial none).applyAll waveringCalls).build OpenSsh.load (fun _ => .error .notUtf8) =
        ((initial none).applyAll settledCalls).build OpenSsh.load (fun _ => .error .notUtf8) ∧
      ((initial none).applyAll waveringCalls).build OpenSsh.load (fun _ => .error .notUtf8) =
        .ok settledConfig ∧
      ((initial none).applyAll waveringCalls).value .shellTimeout = Span.ofSeconds 5 := by
  have h : ∀ p, lastCall? p waveringCalls = lastCall? p settledCalls := by
    intro p
    cases p <;> rfl
  obtain ⟨hbuild, hvalue⟩ :=
    build_eq_of_lastCall?_eq h none OpenSsh.load (fun _ => .error .notUtf8)
  exact ⟨h, hbuild, hbuild.trans rfl, hvalue .shellTimeout⟩

end Settings

end Sysop
