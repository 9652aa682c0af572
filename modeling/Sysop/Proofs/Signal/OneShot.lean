/-
Sysop/Proofs/Signal/OneShot.lean

A signal is heard once.

`OneShot es` ties the two ends of a signal together over a whole record: at most the first call
of the notifier delivers, and a wait ends with the value of the first call before its end, or
with nothing.
-/
import Mathlib.Data.List.Induction
import Sysop.Proofs.Signal.Hearing

namespace Sysop

namespace Signal

variable {α : Type}

/-! ### Reading a rule -/

namespace Fits

variable {past : List (Entry α)} {e : Entry α} {value : Option α}

/-- A call delivers exactly if it is the first one and the waiter is still there. -/
theorem delivered_iff (h : Fits past e) {call : α × Bool} (hcall : e.call? = some call) :
    call.2 = true ↔ calls past = [] ∧ ¬ Closed past := by
  cases h with
  | notify _ h =>
    obtain rfl := Option.some.inj hcall
    exact h
  | gone h =>
    rw [(Entry.quiet_gone _ _).call] at hcall
    cases hcall
  | _ => cases hcall

/-- Only a look ends a wait, and it sees what it ends with. -/
theorem sees_of_ended (h : Fits past e) (hheard : e.heard = .ended value) :
    Sees past (.ended value) ∧ ¬ Closed past := by
  cases h with
  | begins hmay h =>
    subst hheard
    exact ⟨h, hmay.2⟩
  | looks hmay h =>
    subst hheard
    exact ⟨h, hmay.2⟩
  | _ => cases hheard

end Fits

namespace Sees

variable {past : List (Entry α)}

/-- A wait ends with the value of the first call so far, and without a call with nothing. -/
theorem value_eq {value : Option α} (h : Sees past (.ended value)) :
    value = (calls past).head?.map (·.1) := by
  cases h with
  | value h => simp [h]
  | nothing h _ => simp [h]

theorem head?_calls {a : α} (h : Sees past (.ended (some a))) :
    (calls past).head? = some (a, true) := by
  cases h with
  | value h => exact h

end Sees

/-! ### The two ends -/

/-- Every entry of the record fits what was heard before it. -/
def Fitting (es : List (Entry α)) : Prop :=
  ∀ past e rest, es = past ++ e :: rest → Fits past e

/-- The signal of the record is heard once. -/
structure OneShot (es : List (Entry α)) : Prop where
  /-- Whatever is heard fits what was heard before. -/
  fits : Fitting es
  /-- Only the first call can deliver. -/
  once : ∀ call ∈ (calls es).tail, call.2 = false
  /-- A wait ends with the value of the first call before its end, and else with nothing. -/
  value : ∀ past e rest value, es = past ++ e :: rest → e.heard = .ended value →
    value = (calls past).head?.map (·.1)
  /-- What was delivered is what a wait ends with. -/
  received : ∀ a e value, (a, true) ∈ calls es → e ∈ es → e.heard = .ended value →
    value = some a
  /-- What a wait ends with was delivered, by the first call. -/
  delivered : ∀ a e, e ∈ es → e.heard = .ended (some a) → (calls es).head? = some (a, true)

theorem fitting_record (ms : List (Moment α)) : Fitting (({} : Scene α).record ms) :=
  fun _ _ _ => fits_record

namespace Fitting

variable {es : List (Entry α)}

theorem init {e : Entry α} (h : Fitting (es ++ [e])) : Fitting es := by
  intro past e' rest hes
  apply h past e' (rest ++ [e])
  rw [hes, List.append_assoc, List.cons_append]

/-- After the first call, no call delivers. -/
theorem once (h : Fitting es) : ∀ call ∈ (calls es).tail, call.2 = false := by
  induction es using List.reverseRecOn with
  | nil => simp
  | append_singleton es e ih =>
    intro call hmem
    rcases hfirst : calls es with - | ⟨first, more⟩
    · cases hcall : e.call? <;> simp [hfirst, hcall] at hmem
    · have hmem' : call ∈ more ∨ e.call? = some call := by
        simpa [hfirst] using hmem
      rcases hmem' with hmore | hcall
      · exact ih h.init call (by simpa [hfirst] using hmore)
      · -- the call comes after the first one, so it finds the notifier used
        have hiff := (h es e [] rfl).delivered_iff hcall
        simpa [hfirst] using hiff

/-- A call that delivered is before every end of a wait, and no call is before it. -/
theorem received (h : Fitting es) {a : α} {e : Entry α} {value : Option α}
    (hcall : (a, true) ∈ calls es) (hmem : e ∈ es) (hheard : e.heard = .ended value) :
    value = some a := by
  obtain ⟨notified, hmem', hcall'⟩ := List.mem_filterMap.mp hcall
  obtain ⟨past, rest, rfl⟩ := List.append_of_mem hmem'
  obtain ⟨hnone, hopen⟩ := ((h past notified rest rfl).delivered_iff hcall').mp rfl
  have hcloses : e.Closes := .inr ⟨value, hheard⟩
  have hafter : e ∈ notified :: rest :=
    (List.mem_append.mp hmem).resolve_left fun hbefore => hopen ⟨e, hbefore, hcloses⟩
  rcases List.mem_cons.mp hafter with rfl | hrest
  · -- a call is no end
    obtain ⟨now, move, heard⟩ := e
    obtain rfl : heard = .ended value := hheard
    simp [Entry.call?] at hcall'
  · obtain ⟨between, more, rfl⟩ := List.append_of_mem hrest
    have hfits := h (past ++ notified :: between) e more (by simp)
    have hvalue := (hfits.sees_of_ended hheard).1.value_eq
    simpa [hnone, hcall'] using hvalue

/-- A value that a wait ends with was delivered before, by the first call. -/
theorem delivered (h : Fitting es) {a : α} {e : Entry α} (hmem : e ∈ es)
    (hheard : e.heard = .ended (some a)) : (calls es).head? = some (a, true) := by
  obtain ⟨past, rest, rfl⟩ := List.append_of_mem hmem
  have hfirst := ((h past e rest rfl).sees_of_ended hheard).1.head?_calls
  rw [calls_append, List.head?_append, hfirst]
  rfl

theorem oneShot (h : Fitting es) : OneShot es where
  fits := h
  once := h.once
  value := fun past e rest _ hes hheard => ((h past e rest hes).sees_of_ended hheard).1.value_eq
  received := fun _ _ _ => h.received
  delivered := fun _ _ => h.delivered

end Fitting

end Signal

end Sysop
