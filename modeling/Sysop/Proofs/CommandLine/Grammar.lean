/-
Sysop/Proofs/CommandLine/Grammar.lean

The grammar of command lines, and that reading follows it.

A command line is a list of pairs of an option and its value (`Pair`, `spell`), and then it is
over, asks for help (`AsksForHelp`), or cannot go on (`Stuck`).  Every list of arguments splits
in this way (`exists_spell`), and none of the three ends begins with another pair, so the pairs
are as many as there can be (`prefix_spell`).  Reading takes the pairs one after another
(`parseFrom_spell`) and then does what the end says.

A pair in the middle decides nothing if a later one is about the same option; what an option is
in the end is read off the last pair for it (`get_withAll`).

Main result: `parse_follows_grammar`.
-/
import Mathlib.Data.List.Induction
import Sysop.CommandLine

namespace Sysop

namespace CommandLine

/-! ### Options and their values -/

namespace OptionName

/-- The long form of an option. -/
def long : OptionName → String
  | .bind => "--bind"
  | .port => "--port"
  | .hostKey => "--host-key"
  | .allowedUser => "--allowed-user"
  | .allowedKey => "--allowed-key"
  | .timeout => "--timeout"

/-- The short form of an option. -/
def short : OptionName → String
  | .bind => "-b"
  | .port => "-p"
  | .hostKey => "-k"
  | .allowedUser => "-u"
  | .allowedKey => "-a"
  | .timeout => "-t"

/-- The argument is the option, in one of its two forms. -/
def SpelledBy (name : OptionName) (arg : String) : Prop :=
  arg = name.long ∨ arg = name.short

instance (name : OptionName) (arg : String) : Decidable (name.SpelledBy arg) :=
  inferInstanceAs (Decidable (_ ∨ _))

/-- What the value of an option is. -/
def Value : OptionName → Type
  | .bind => IpAddress
  | .port => UInt16
  | .hostKey => String
  | .allowedUser => String
  | .allowedKey => String
  | .timeout => Nat

/-- The value of an option that a text stands for.  Names and paths are any text. -/
def read? : (name : OptionName) → String → Option name.Value
  | .bind, text => IpAddress.parse? text
  | .port, text => (Numeral.parse? UInt16.size text).map UInt16.ofNat
  | .hostKey, text => some text
  | .allowedUser, text => some text
  | .allowedKey, text => some text
  | .timeout, text => Numeral.parse? UInt64.size text

theorem ofArg?_eq_some_iff {arg : String} {name : OptionName} :
    ofArg? arg = some name ↔ name.SpelledBy arg := by
  constructor
  · intro h
    unfold ofArg? at h
    split at h <;> cases h <;> decide
  · rintro (rfl | rfl)
    · cases name <;> rfl
    · cases name <;> rfl

theorem ofArg?_eq_none_iff {arg : String} :
    ofArg? arg = none ↔ ∀ name : OptionName, ¬ name.SpelledBy arg := by
  rw [Option.eq_none_iff_forall_ne_some]
  exact forall_congr' fun name => not_congr ofArg?_eq_some_iff

end OptionName

/-- What is told of a value that an option cannot have. -/
inductive Misread : OptionName → String → String → Prop
  | address {value : String} (h : IpAddress.parse? value = none) :
      Misread .bind value ("invalid address '" ++ value ++ "'")
  | port {value : String} (h : Numeral.parse? UInt16.size value = none) :
      Misread .port value ("invalid port '" ++ value ++ "'")
  | timeout {value : String} (h : Numeral.parse? UInt64.size value = none) :
      Misread .timeout value ("invalid timeout '" ++ value ++ "'")

/-- What was given for an option. -/
def Options.get (o : Options) : (name : OptionName) → Option name.Value
  | .bind => o.bind
  | .port => o.port
  | .hostKey => o.hostKey
  | .allowedUser => o.allowedUser
  | .allowedKey => o.allowedKey
  | .timeout => o.timeout

theorem Options.ext_get {o o' : Options} (h : ∀ name, o.get name = o'.get name) : o = o' := by
  cases o
  cases o'
  rw [Options.mk.injEq]
  exact ⟨h .bind, h .port, h .hostKey, h .allowedUser, h .allowedKey, h .timeout⟩

/-- A value that the option can have takes the place of what was given for it. -/
theorem Options.exists_set {o : Options} {name : OptionName} {value : String}
    (h : (name.read? value).isSome) : ∃ o', o.set name value = .ok o' ∧
      ∀ other, o'.get other = if other = name then other.read? value else o.get other := by
  cases name with
  | bind =>
    obtain ⟨ip, hip⟩ := Option.isSome_iff_exists.mp h
    change IpAddress.parse? value = some ip at hip
    refine ⟨{ o with bind := some ip }, by simp only [set, hip], fun other => ?_⟩
    cases other with
    | bind => exact hip.symm
    | _ => rfl
  | port =>
    obtain ⟨n, hn⟩ := Option.isSome_iff_exists.mp (Option.isSome_map ▸ h)
    refine ⟨{ o with port := some (UInt16.ofNat n) }, by simp only [set, hn], fun other => ?_⟩
    cases other with
    | port =>
      rw [if_pos rfl, OptionName.read?, hn]
      rfl
    | _ => rfl
  | timeout =>
    obtain ⟨n, hn⟩ := Option.isSome_iff_exists.mp h
    change Numeral.parse? UInt64.size value = some n at hn
    refine ⟨{ o with timeout := some n }, by simp only [set, hn], fun other => ?_⟩
    cases other with
    | timeout => exact hn.symm
    | _ => rfl
  | hostKey => exact ⟨_, rfl, fun other => by cases other <;> rfl⟩
  | allowedUser => exact ⟨_, rfl, fun other => by cases other <;> rfl⟩
  | allowedKey => exact ⟨_, rfl, fun other => by cases other <;> rfl⟩

/-- A value that the option cannot have is told. -/
theorem Options.exists_set_error {name : OptionName} {value text : String}
    (h : Misread name value text) (o : Options) :
    ∃ fault, o.set name value = .error fault ∧ fault.message = text := by
  cases h with
  | address h => exact ⟨.invalidAddress value, by simp only [set, h], rfl⟩
  | port h => exact ⟨.invalidPort value, by simp only [set, h], rfl⟩
  | timeout h => exact ⟨.invalidTimeout value, by simp only [set, h], rfl⟩

/-- A text is a value of the option or is told. -/
theorem exists_misread {name : OptionName} {value : String} (h : name.read? value = none) :
    ∃ text, Misread name value text := by
  cases name with
  | bind => exact ⟨_, .address h⟩
  | port => exact ⟨_, .port (Option.map_eq_none_iff.mp h)⟩
  | timeout => exact ⟨_, .timeout h⟩
  | hostKey => cases h
  | allowedUser => cases h
  | allowedKey => cases h

theorem Misread.read?_eq_none {name : OptionName} {value text : String}
    (h : Misread name value text) : name.read? value = none := by
  cases h with
  | address h => exact h
  | port h => exact Option.map_eq_none_iff.mpr h
  | timeout h => exact h

/-! ### Pairs -/

/-- An option and a value that it can have. -/
structure Pair where
  name : OptionName
  arg : String
  value : String
  spelled : name.SpelledBy arg
  readable : (name.read? value).isSome

/-- The arguments of pairs. -/
def spell (ps : List Pair) : List String :=
  ps.flatMap fun p => [p.arg, p.value]

@[simp] theorem spell_cons (p : Pair) (ps : List Pair) :
    spell (p :: ps) = p.arg :: p.value :: spell ps := rfl

/-- The value of an option in the last pair for it, if there is one. -/
def lastValue? (ps : List Pair) (name : OptionName) : Option name.Value :=
  (ps.reverse.find? (·.name = name)).bind fun p => name.read? p.value

theorem lastValue?_concat (ps : List Pair) (p : Pair) (name : OptionName) :
    lastValue? (ps ++ [p]) name = if name = p.name then name.read? p.value
      else lastValue? ps name := by
  rw [lastValue?, List.reverse_append, List.reverse_singleton, List.singleton_append,
    List.find?_cons]
  by_cases h : name = p.name
  · rw [if_pos h]
    simp only [h, decide_true, Option.bind_some]
  · rw [if_neg h]
    simp only [Ne.symm h, decide_false, lastValue?]

/-- The options with the value of one more pair. -/
def Options.withPair (o : Options) (p : Pair) : Options :=
  (o.set p.name p.value).toOption.getD o

/-- The options with the values of pairs, one after another. -/
def Options.withAll (o : Options) (ps : List Pair) : Options :=
  ps.foldl Options.withPair o

theorem Options.set_pair (o : Options) (p : Pair) :
    o.set p.name p.value = .ok (o.withPair p) := by
  obtain ⟨o', hset, -⟩ := Options.exists_set (o := o) p.readable
  rw [withPair, hset]
  rfl

theorem Options.get_withPair (o : Options) (p : Pair) (name : OptionName) :
    (o.withPair p).get name = if name = p.name then name.read? p.value else o.get name := by
  obtain ⟨o', hset, hget⟩ := Options.exists_set (o := o) p.readable
  obtain rfl : o' = o.withPair p := Except.ok.inj (hset.symm.trans (o.set_pair p))
  exact hget name

/-- After pairs an option has the value of the last pair for it. -/
theorem get_withAll (ps : List Pair) (name : OptionName) :
    (Options.withAll {} ps).get name = lastValue? ps name := by
  induction ps using List.reverseRecOn with
  | nil => cases name <;> rfl
  | append_singleton ps p ih =>
    rw [Options.withAll, List.foldl_append, lastValue?_concat, ← ih]
    exact Options.get_withPair _ p name

/-! ### What comes after the pairs -/

/-- The first argument asks for help, whatever comes after it. -/
inductive AsksForHelp : List String → Prop
  | long (rest : List String) : AsksForHelp ("--help" :: rest)
  | short (rest : List String) : AsksForHelp ("-h" :: rest)

/-- Arguments that cannot go on, and what is told of the first that does not fit. -/
inductive Stuck : List String → String → Prop
  | valueless {name : OptionName} {arg : String} (h : name.SpelledBy arg) :
      Stuck [arg] (arg ++ " needs a value")
  | misread {name : OptionName} {arg value text : String} (h : name.SpelledBy arg)
      (hvalue : Misread name value text) (rest : List String) : Stuck (arg :: value :: rest) text
  | unknown {arg : String} (h : ∀ name : OptionName, ¬ name.SpelledBy arg)
      (hhelp : ∀ rest, ¬ AsksForHelp (arg :: rest)) (rest : List String) :
      Stuck (arg :: rest) ("unknown argument '" ++ arg ++ "'")

/-- What can come after the pairs of a command line. -/
inductive Tail : List String → Prop
  | nil : Tail []
  | help {rest : List String} (h : AsksForHelp rest) : Tail rest
  | stuck {rest : List String} {text : String} (h : Stuck rest text) : Tail rest

theorem asksForHelp_iff {arg : String} (rest : List String) :
    AsksForHelp (arg :: rest) ↔ isHelp arg = true := by
  rw [isHelp, Bool.or_eq_true, beq_iff_eq, beq_iff_eq]
  constructor
  · intro h
    cases h with
    | long => exact .inl rfl
    | short => exact .inr rfl
  · rintro (rfl | rfl)
    · exact .long rest
    · exact .short rest

/-- An argument that asks for help is no option. -/
theorem AsksForHelp.ofArg?_eq_none {arg : String} {rest : List String}
    (h : AsksForHelp (arg :: rest)) : OptionName.ofArg? arg = none := by
  cases h <;> rfl

/-- An argument that is no option asks for help or cannot go on. -/
theorem tail_of_ofArg?_eq_none {arg : String} (h : OptionName.ofArg? arg = none)
    (rest : List String) : Tail (arg :: rest) := by
  by_cases hhelp : isHelp arg = true
  · exact .help ((asksForHelp_iff rest).mpr hhelp)
  · refine .stuck (.unknown (OptionName.ofArg?_eq_none_iff.mp h) (fun others => ?_) rest)
    rwa [asksForHelp_iff]

/-- Arguments are pairs as long as they go, and then what can come after them. -/
theorem exists_spell : ∀ args : List String, ∃ ps rest, args = spell ps ++ rest ∧ Tail rest
  | [] => ⟨[], [], rfl, .nil⟩
  | [arg] => by
    cases h : OptionName.ofArg? arg with
    | none => exact ⟨[], [arg], rfl, tail_of_ofArg?_eq_none h []⟩
    | some name =>
      exact ⟨[], [arg], rfl, .stuck (.valueless (OptionName.ofArg?_eq_some_iff.mp h))⟩
  | arg :: value :: args => by
    cases h : OptionName.ofArg? arg with
    | none => exact ⟨[], arg :: value :: args, rfl, tail_of_ofArg?_eq_none h (value :: args)⟩
    | some name =>
      have hspelled := OptionName.ofArg?_eq_some_iff.mp h
      cases hvalue : name.read? value with
      | none =>
        obtain ⟨text, hmisread⟩ := exists_misread hvalue
        exact ⟨[], arg :: value :: args, rfl, .stuck (.misread hspelled hmisread args)⟩
      | some _ =>
        obtain ⟨ps, rest, rfl, htail⟩ := exists_spell args
        exact ⟨⟨name, arg, value, hspelled, by rw [hvalue]; rfl⟩ :: ps, rest, rfl, htail⟩

/-- What comes after the pairs does not begin with another pair. -/
theorem Tail.ne_pair {rest : List String} (h : Tail rest) (p : Pair) (more : List String) :
    rest ≠ p.arg :: p.value :: more := by
  have harg : OptionName.ofArg? p.arg = some p.name := OptionName.ofArg?_eq_some_iff.mpr p.spelled
  rintro rfl
  cases h with
  | help h =>
    rw [h.ofArg?_eq_none] at harg
    cases harg
  | stuck h =>
    cases h with
    | @misread name _ _ _ hspelled hmisread _ =>
      obtain rfl : name = p.name :=
        Option.some.inj ((OptionName.ofArg?_eq_some_iff.mpr hspelled).symm.trans harg)
      have hread := p.readable
      rw [hmisread.read?_eq_none] at hread
      cases hread
    | unknown hno _ _ => exact hno p.name p.spelled

/-- Pairs that begin a command line are among its pairs. -/
theorem prefix_spell {ps others : List Pair} {rest : List String} (htail : Tail rest)
    (h : spell others <+: spell ps ++ rest) : spell others <+: spell ps := by
  induction others generalizing ps with
  | nil => exact List.nil_prefix
  | cons p others ih =>
    cases ps with
    | nil =>
      obtain ⟨more, hmore⟩ := h
      exact absurd hmore.symm (htail.ne_pair p (spell others ++ more))
    | cons q ps =>
      simp only [spell_cons, List.cons_append, List.cons_prefix_cons] at h ⊢
      obtain ⟨harg, hvalue, hrest⟩ := h
      exact ⟨harg, hvalue, ih hrest⟩

/-! ### Reading -/

/-- Reading takes the pairs one after another. -/
theorem parseFrom_spell (ps : List Pair) (o : Options) (rest : List String) :
    parseFrom o (spell ps ++ rest) = parseFrom (o.withAll ps) rest := by
  induction ps generalizing o with
  | nil => rfl
  | cons p ps ih =>
    have harg : OptionName.ofArg? p.arg = some p.name :=
      OptionName.ofArg?_eq_some_iff.mpr p.spelled
    simp only [spell_cons, List.cons_append, parseFrom, harg, o.set_pair p]
    exact ih (o.withPair p)

theorem parseFrom_of_no_option {arg : String} (h : OptionName.ofArg? arg = none) (o : Options)
    (rest : List String) :
    parseFrom o (arg :: rest) =
      if isHelp arg then .ok .help else .error (.unknownArgument arg) := by
  cases rest with
  | nil => simp only [parseFrom, h]
  | cons value rest => simp only [parseFrom, h]

theorem parseFrom_help {rest : List String} (h : AsksForHelp rest) (o : Options) :
    parseFrom o rest = .ok .help := by
  cases rest with
  | nil => cases h
  | cons arg rest =>
    rw [parseFrom_of_no_option h.ofArg?_eq_none, if_pos ((asksForHelp_iff rest).mp h)]

theorem parseFrom_stuck {rest : List String} {text : String} (h : Stuck rest text)
    (o : Options) : ∃ fault, parseFrom o rest = .error fault ∧ fault.message = text := by
  cases h with
  | @valueless name arg h =>
    refine ⟨.needsValue arg, ?_, rfl⟩
    simp only [parseFrom, OptionName.ofArg?_eq_some_iff.mpr h]
  | @misread name arg value _ h hmisread rest =>
    obtain ⟨fault, hset, hmessage⟩ := Options.exists_set_error hmisread o
    refine ⟨fault, ?_, hmessage⟩
    simp only [parseFrom, OptionName.ofArg?_eq_some_iff.mpr h, hset]
  | @unknown arg hno hhelp rest =>
    refine ⟨.unknownArgument arg, ?_, rfl⟩
    rw [parseFrom_of_no_option (OptionName.ofArg?_eq_none_iff.mpr hno),
      if_neg fun hasks => hhelp rest ((asksForHelp_iff rest).mpr hasks)]

theorem parse_spell (ps : List Pair) :
    parse (spell ps) = .ok (.serve (Options.withAll {} ps)) := by
  rw [parse, ← List.append_nil (spell ps), parseFrom_spell]
  rfl

theorem parse_of_help (ps : List Pair) {rest : List String} (h : AsksForHelp rest) :
    parse (spell ps ++ rest) = .ok .help := by
  rw [parse, parseFrom_spell, parseFrom_help h]

theorem parse_of_stuck (ps : List Pair) {rest : List String} {text : String}
    (h : Stuck rest text) :
    ∃ fault, parse (spell ps ++ rest) = .error fault ∧ fault.message = text := by
  rw [parse, parseFrom_spell]
  exact parseFrom_stuck h _

/-- What comes out of arguments that are pairs and an end. -/
inductive Reading : List String → Except UsageFault Request → Prop
  | serve {ps : List Pair} {o : Options} (h : ∀ name, o.get name = lastValue? ps name) :
      Reading (spell ps) (.ok (.serve o))
  | help (ps : List Pair) {rest : List String} (h : AsksForHelp rest) :
      Reading (spell ps ++ rest) (.ok .help)
  | fault (ps : List Pair) {rest : List String} {fault : UsageFault}
      (h : Stuck rest fault.message) : Reading (spell ps ++ rest) (.error fault)

theorem reading_parse (args : List String) : Reading args (parse args) := by
  obtain ⟨ps, rest, rfl, htail⟩ := exists_spell args
  cases htail with
  | nil =>
    rw [List.append_nil, parse_spell]
    exact .serve (get_withAll ps)
  | help h =>
    rw [parse_of_help ps h]
    exact .help ps h
  | stuck h =>
    obtain ⟨fault, hfault, rfl⟩ := parse_of_stuck ps h
    rw [hfault]
    exact .fault ps h

/-- **A command line is read as its grammar says.**  Options come out exactly if the arguments
are pairs of an option and a value, each with the value of the last pair for it.  Help comes out
exactly if pairs are followed by a call for help, and anything.  All else is a fault, which tells
the first argument that does not fit after as many pairs as there can be. -/
theorem parse_follows_grammar (args : List String) :
    (∀ o, parse args = .ok (.serve o) ↔
      ∃ ps, args = spell ps ∧ ∀ name, o.get name = lastValue? ps name) ∧
    (parse args = .ok .help ↔ ∃ ps rest, args = spell ps ++ rest ∧ AsksForHelp rest) ∧
    (∀ text, (∃ fault, parse args = .error fault ∧ fault.message = text) ↔
      ∃ ps rest, args = spell ps ++ rest ∧
        (∀ others, spell others <+: args → spell others <+: spell ps) ∧ Stuck rest text) := by
  have hreading := reading_parse args
  refine ⟨fun o => ⟨fun h => ?_, ?_⟩, ⟨fun h => ?_, ?_⟩, fun text => ⟨?_, ?_⟩⟩
  · rw [h] at hreading
    cases hreading with
    | serve ho => exact ⟨_, rfl, ho⟩
  · rintro ⟨ps, rfl, ho⟩
    rw [parse_spell]
    congr 2
    exact Options.ext_get fun name => (get_withAll ps name).trans (ho name).symm
  · rw [h] at hreading
    cases hreading with
    | help ps hhelp => exact ⟨ps, _, rfl, hhelp⟩
  · rintro ⟨ps, rest, rfl, hhelp⟩
    exact parse_of_help ps hhelp
  · rintro ⟨fault, h, rfl⟩
    rw [h] at hreading
    cases hreading with
    | fault ps hstuck => exact ⟨ps, _, rfl, fun others => prefix_spell (.stuck hstuck), hstuck⟩
  · rintro ⟨ps, rest, rfl, -, hstuck⟩
    exact parse_of_stuck ps hstuck

/-- An option takes the next argument as its value, also one that looks like an option. -/
example : parse ["-u", "--help", "--port", "22", "-p", "+0023"] =
    .ok (.serve { port := some 23, allowedUser := some "--help" }) := by
  rfl

end CommandLine

end Sysop
