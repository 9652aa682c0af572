/-
Sysop/Proofs/Policy/Methods.lean

The methods that a user is told of, and those that the transport goes on with.

The first are one text, names with commas between them, and the second are a set.  No name holds
a comma, so the text gives the names back (`split_list`) and with them the methods
(`list_injective`).  What the transport can negotiate is a name of a method of its own
(`transport?_eq_some_iff`).  How the transport lists a set is its own business; all that is asked
of it is `KeepsLast`, that it keeps the last of methods that are repeated.  Then the list can be
read off the text:

    NamedIn text names    the names in the text that the transport knows, each once, in the order
                          of their last places

Main result: `list_agrees_with_transport`, also for what a rejected login goes on with.
-/
import Mathlib.Data.List.Nodup
import Mathlib.Tactic.SplitIfs
import Sysop.Handler
import Sysop.Text.Split

namespace Sysop

/-! ### Parts of a text -/

namespace Text

theorem splitFrom_eq_splitOnPPrepend (sep : Char) (acc cs : List Char) :
    splitFrom sep acc cs = (List.splitOnPPrepend (· == sep) cs acc).map String.ofList := by
  induction cs generalizing acc with
  | nil => rfl
  | cons c r ih =>
    rw [splitFrom, List.splitOnPPrepend_cons_eq_if]
    by_cases h : c = sep
    · simp [h, ih]
    · simp [h, ih]

theorem split_eq_splitOn (sep : Char) (s : String) :
    split sep s = (s.toList.splitOn sep).map String.ofList :=
  splitFrom_eq_splitOnPPrepend sep [] s.toList

/-- Parts without the character are given back by what joins them with it. -/
theorem split_intercalate {sep : Char} {parts : List String} (hne : parts ≠ [])
    (hparts : ∀ part ∈ parts, sep ∉ part.toList) :
    split sep (String.intercalate (String.singleton sep) parts) = parts := by
  have hsep : ∀ l ∈ parts.map String.toList, sep ∉ l := List.forall_mem_map.mpr hparts
  have hne' : parts.map String.toList ≠ [] := by simpa using hne
  rw [split_eq_splitOn, String.toList_intercalate, String.toList_singleton,
    List.splitOn_intercalate sep hsep hne', List.map_map]
  calc parts.map (String.ofList ∘ String.toList)
    _ = parts.map id := List.map_congr_left fun s _ => String.ofList_toList
    _ = parts := List.map_id parts

end Text

namespace AuthMethod

variable {m : AuthMethod} {t : TransportMethod} {ms : List AuthMethod}

/-! ### Names -/

theorem comma_not_mem_name (m : AuthMethod) : ',' ∉ m.name.toList := by
  cases m <;> decide

theorem name_injective : Function.Injective name := by
  intro m m' h
  cases m <;> cases m' <;> first | rfl | exact absurd h (by decide)

/-- The text is empty only if there is no method. -/
theorem split_list (ms : List AuthMethod) :
    Text.split ',' (list ms) = if ms = [] then [""] else ms.map name := by
  split_ifs with h
  · rw [h]
    rfl
  · have hparts : ∀ part ∈ ms.map name, ',' ∉ part.toList :=
      List.forall_mem_map.mpr fun m _ => comma_not_mem_name m
    exact Text.split_intercalate (by simpa using h) hparts

theorem list_injective : Function.Injective list := by
  have hempty : ∀ ms : List AuthMethod, ms.map name ≠ [""] := by
    rintro ms h
    have hmem : "" ∈ ms.map name := by simp [h]
    obtain ⟨m, -, hm⟩ := List.mem_map.mp hmem
    cases m <;> exact absurd hm (by decide)
  intro ms ms' h
  have hsplit := split_list ms
  rw [h, split_list] at hsplit
  split_ifs at hsplit with h₂ h₁ h₁
  · rw [h₁, h₂]
  · exact absurd hsplit.symm (hempty ms)
  · exact absurd hsplit (hempty ms')
  · exact (name_injective.list_map hsplit).symm

/-! ### What the transport can negotiate -/

/-- The transport has a method of this name. -/
def Negotiable (s : String) : Prop :=
  ∃ t : TransportMethod, t.name = s

/-- A method is negotiated as the transport's method of the same name. -/
theorem transport?_eq_some_iff : m.transport? = some t ↔ m.name = t.name := by
  cases m <;> cases t <;> decide

theorem transportName_injective : Function.Injective TransportMethod.name := by
  intro t t' h
  cases t <;> cases t' <;> first | rfl | exact absurd h (by decide)

/-! ### Order -/

variable {α : Type}

/-- The last place of `a` is before the last place of `b`. -/
def LastBefore (xs : List α) (a b : α) : Prop :=
  ∃ front rest, xs = front ++ a :: rest ∧ a ∉ rest ∧ b ∈ rest

/-- The first place of `a` is before the first place of `b`. -/
def FirstBefore (xs : List α) (a b : α) : Prop :=
  ∃ front rest, xs = front ++ b :: rest ∧ b ∉ front ∧ a ∈ front

theorem LastBefore.cons {xs : List α} {a b : α} (h : LastBefore xs a b) (x : α) :
    LastBefore (x :: xs) a b := by
  obtain ⟨front, rest, rfl, ha, hb⟩ := h
  exact ⟨x :: front, rest, rfl, ha, hb⟩

/-- A way to list sets keeps the last of repeated methods: it lists those that a set was made of,
each once, in the order of their last places. -/
structure KeepsLast (listing : MethodSet → List TransportMethod) : Prop where
  mem_iff : ∀ set t, t ∈ listing set ↔ t ∈ set.made
  nodup : ∀ set, (listing set).Nodup
  order : ∀ set, (listing set).Pairwise (LastBefore set.made)

/-- The methods that cannot be negotiated do not disturb the order of the others. -/
theorem LastBefore.map_name {t' : TransportMethod} (h : LastBefore (ms.filterMap transport?) t t') :
    LastBefore (ms.map name) t.name t'.name := by
  obtain ⟨front, rest, heq, ht, ht'⟩ := h
  -- the method that gives `t` at its last place is the last one of its name
  obtain ⟨before, after, rfl, -, hafter⟩ := List.filterMap_eq_append_iff.mp heq
  obtain ⟨skipped, m, later, rfl, -, hm, rfl⟩ := List.filterMap_eq_cons_iff.mp hafter
  refine ⟨(before ++ skipped).map name, later.map name, ?_, ?_, ?_⟩
  · rw [← transport?_eq_some_iff.mp hm]
    simp
  · intro hmem
    obtain ⟨m', hm', hname⟩ := List.mem_map.mp hmem
    exact ht (List.mem_filterMap.mpr ⟨m', hm', transport?_eq_some_iff.mpr hname⟩)
  · obtain ⟨m', hm', hsome⟩ := List.mem_filterMap.mp ht'
    exact List.mem_map.mpr ⟨m', hm', transport?_eq_some_iff.mp hsome⟩

/-! ### The text and the list -/

/-- The names in a text, between commas, that the transport knows, each once, in the order of
their last places. -/
structure NamedIn (text : String) (names : List String) : Prop where
  mem_iff : ∀ s, s ∈ names ↔ s ∈ Text.split ',' text ∧ Negotiable s
  nodup : names.Nodup
  order : names.Pairwise (LastBefore (Text.split ',' text))

variable {listing : MethodSet → List TransportMethod}

/-- A set lists the methods whose names are in the text. -/
theorem mem_transportMethods_iff (hlisting : KeepsLast listing) :
    t ∈ listing (transportMethods ms) ↔ t.name ∈ ms.map name := by
  rw [hlisting.mem_iff, transportMethods, List.mem_filterMap, List.mem_map]
  exact exists_congr fun m => and_congr_right fun _ => transport?_eq_some_iff

theorem namedIn_transportMethods (hlisting : KeepsLast listing) (ms : List AuthMethod) :
    NamedIn (list ms) ((listing (transportMethods ms)).map TransportMethod.name) := by
  have hnames : (listing (transportMethods ms)).Pairwise fun t t' =>
      LastBefore (ms.map name) t.name t'.name :=
    (hlisting.order _).imp LastBefore.map_name
  by_cases hms : ms = []
  · -- the empty text has one part, which names no method
    subst hms
    have hempty : listing (transportMethods []) = [] := by
      rw [List.eq_nil_iff_forall_not_mem]
      intro t ht
      simpa using (mem_transportMethods_iff hlisting).mp ht
    rw [hempty]
    refine ⟨fun s => ⟨fun h => absurd h List.not_mem_nil, ?_⟩, List.nodup_nil, List.Pairwise.nil⟩
    rintro ⟨hs, t, rfl⟩
    rw [split_list, if_pos rfl, List.mem_singleton] at hs
    cases t <;> exact absurd hs (by decide)
  · refine ⟨fun s => ?_, (hlisting.nodup _).map transportName_injective, ?_⟩
    · rw [split_list, if_neg hms, List.mem_map]
      constructor
      · rintro ⟨t, ht, rfl⟩
        exact ⟨(mem_transportMethods_iff hlisting).mp ht, t, rfl⟩
      · rintro ⟨hs, t, rfl⟩
        exact ⟨t, (mem_transportMethods_iff hlisting).mpr hs, rfl⟩
    · rw [split_list, if_neg hms]
      exact List.pairwise_map.mpr hnames

/-- **The text and the list of the transport agree.**  The text gives back the names of the
methods, so no two lists of methods have one text.  A transport that keeps the last of repeated
methods lists the names in the text that it can negotiate, each once, in the order of their last
places.  So a login that the policy rejects goes on with just these of the methods that its user is
told of, and is no part of a login. -/
theorem list_agrees_with_transport (hlisting : KeepsLast listing) :
    (∀ ms, Text.split ',' (list ms) = if ms = [] then [""] else ms.map name) ∧
    list [] = "" ∧ Function.Injective list ∧
    (∀ ms, NamedIn (list ms) ((listing (transportMethods ms)).map TransportMethod.name)) ∧
    ∀ (h : Handler) (user : String),
      (∀ pw, (h.policy.password user pw).value = .reject →
        ∃ methods, (h.handle (.password user pw)).answer = .auth (.reject methods false) ∧
          NamedIn (list (h.policy.allowedAuths user))
            ((listing methods).map TransportMethod.name)) ∧
      ∀ key, (h.policy.publicKey user key).value = .reject →
        ∃ methods, (h.handle (.publicKey user key)).answer = .auth (.reject methods false) ∧
          NamedIn (list (h.policy.allowedAuths user))
            ((listing methods).map TransportMethod.name) := by
  refine ⟨split_list, rfl, list_injective, namedIn_transportMethods hlisting,
    fun h user => ⟨?_, ?_⟩⟩
  · intro pw hreject
    refine ⟨_, ?_, namedIn_transportMethods hlisting _⟩
    simp only [Handler.handle, Handler.password, Handler.authAnswer, hreject]
    rfl
  · intro key hreject
    refine ⟨_, ?_, namedIn_transportMethods hlisting _⟩
    simp only [Handler.handle, Handler.publicKey, Handler.authAnswer, hreject]
    rfl

/-! ### One way to list a set -/

theorem mem_keepLast {ts : List TransportMethod} : t ∈ MethodSet.keepLast ts ↔ t ∈ ts := by
  induction ts with
  | nil => simp [MethodSet.keepLast]
  | cons t' r ih =>
    rw [MethodSet.keepLast]
    split_ifs with h
    · rw [ih, List.mem_cons]
      constructor
      · exact Or.inr
      · rintro (rfl | hr)
        · exact h
        · exact hr
    · rw [List.mem_cons, List.mem_cons, ih]

theorem nodup_keepLast (ts : List TransportMethod) : (MethodSet.keepLast ts).Nodup := by
  induction ts with
  | nil => exact List.nodup_nil
  | cons t r ih =>
    rw [MethodSet.keepLast]
    split_ifs with h
    · exact ih
    · exact List.nodup_cons.mpr ⟨fun hmem => h (mem_keepLast.mp hmem), ih⟩

theorem pairwise_keepLast (ts : List TransportMethod) :
    (MethodSet.keepLast ts).Pairwise (LastBefore ts) := by
  induction ts with
  | nil => exact List.Pairwise.nil
  | cons t r ih =>
    have hrest : (MethodSet.keepLast r).Pairwise (LastBefore (t :: r)) :=
      ih.imp fun h => h.cons t
    rw [MethodSet.keepLast]
    split_ifs with h
    · exact hrest
    · -- the first place of `t` is its last one, and all others are behind it
      refine List.pairwise_cons.mpr ⟨fun t' ht' => ?_, hrest⟩
      exact ⟨[], r, rfl, h, mem_keepLast.mp ht'⟩

theorem keepsLast_listLast : KeepsLast MethodSet.listLast where
  mem_iff _ _ := mem_keepLast
  nodup set := nodup_keepLast set.made
  order set := pairwise_keepLast set.made

/-- A door that nobody passes, and whose text names a method twice. -/
def strictDoor : Handler where
  policy :=
    { allowedAuths := fun _ => [.password, .gssapiKeyex, .publicKey, .password]
      password := fun _ _ => ⟨.reject, []⟩
      publicKey := fun _ _ => ⟨.reject, []⟩
      channel := fun _ => .accept
      pty := fun _ => true
      shell := true }
  peer := none

theorem strictDoor_goes_on :
    KeepsLast MethodSet.listLast ∧ (strictDoor.policy.password "ada" "pw").value = .reject ∧
      ∃ methods, (strictDoor.handle (.password "ada" "pw")).answer = .auth (.reject methods false) ∧
        NamedIn "password,gssapi-keyex,publickey,password"
          (methods.listLast.map TransportMethod.name) := by
  have hreject : (strictDoor.policy.password "ada" "pw").value = .reject := rfl
  obtain ⟨-, -, -, -, hgoesOn⟩ := list_agrees_with_transport keepsLast_listLast
  exact ⟨keepsLast_listLast, hreject, (hgoesOn strictDoor "ada").1 "pw" hreject⟩

/-- A method that is named again goes behind those named in between. -/
theorem not_forall_in_first_order :
    ¬ ∀ ms, ((transportMethods ms).listLast.map TransportMethod.name).Pairwise
      (FirstBefore (Text.split ',' (list ms))) := by
  intro hall
  have horder := hall [.password, .publicKey, .password]
  rw [split_list] at horder
  obtain ⟨front, rest, heq, hnot, hmem⟩ : FirstBefore ["password", "publickey", "password"]
      "publickey" "password" := List.rel_of_pairwise_cons horder List.mem_cons_self
  cases front with
  | nil => cases hmem
  | cons first front =>
    obtain ⟨rfl, -⟩ := List.cons.inj heq
    exact hnot List.mem_cons_self

end AuthMethod

end Sysop
