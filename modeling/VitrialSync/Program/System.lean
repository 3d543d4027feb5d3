import Mathlib.Tactic.Lemma
import Mathlib.Data.List.Induction

set_option relaxedAutoImplicit false
set_option autoImplicit false

/-!
# Interleaved systems

A system of several parties is a relation between states, labelled with the event that took place.
An interleaving of the parties is a trace: a list of events, each possible in the state that the
ones before it led to.

## Main definitions

* `Program.Trace` — a list of events that leads from one state to another.

## Main results

* `Program.Trace.append_iff` — a trace in two parts.
* `Program.Trace.inv` — an invariant of every step holds at the end of a trace.
* `Program.Trace.history` — the same for a relation between the events so far and the state.
-/

namespace Program

variable {σ ℓ : Type} {step : σ → ℓ → σ → Prop}

/-- A list of events that leads from one state to another. -/
inductive Trace (step : σ → ℓ → σ → Prop) : σ → List ℓ → σ → Prop
  | nil (s : σ) : Trace step s [] s
  | cons {s s' s'' : σ} {event : ℓ} {events : List ℓ} (head : step s event s')
      (tail : Trace step s' events s'') : Trace step s (event :: events) s''

namespace Trace

/-- A trace in two parts. -/
lemma append_iff {s s'' : σ} {first second : List ℓ} :
    Trace step s (first ++ second) s'' ↔ ∃ s', Trace step s first s' ∧ Trace step s' second s'' := by
  induction first generalizing s with
  | nil =>
    constructor
    · exact fun h => ⟨s, .nil s, h⟩
    · rintro ⟨s', hfirst, hsecond⟩
      cases hfirst
      exact hsecond
  | cons event events ih =>
    constructor
    · intro h
      cases h with
      | cons head tail =>
        obtain ⟨s', hfirst, hsecond⟩ := ih.mp tail
        exact ⟨s', .cons head hfirst, hsecond⟩
    · rintro ⟨s', hfirst, hsecond⟩
      cases hfirst with
      | cons head tail => exact .cons head (ih.mpr ⟨s', tail, hsecond⟩)

/-- An invariant that every event of a trace keeps holds at its end. -/
lemma inv {I : σ → Prop} {s s' : σ} {events : List ℓ} (h : Trace step s events s') (hs : I s)
    (hstep : ∀ event ∈ events, ∀ t t', I t → step t event t' → I t') : I s' := by
  induction h with
  | nil s => exact hs
  | cons head tail ih =>
    rw [List.forall_mem_cons] at hstep
    exact ih (hstep.1 _ _ hs head) hstep.2

/-- A trace with one more event. -/
lemma concat {s s' s'' : σ} {events : List ℓ} {event : ℓ} (h : Trace step s events s')
    (hlast : step s' event s'') : Trace step s (events ++ [event]) s'' :=
  append_iff.mpr ⟨s', h, .cons hlast (.nil s'')⟩

/-- A relation between the events so far and the state, which every event keeps, holds at the end.

**Proof sketch.** By induction on the events from the last one. -/
theorem history {I : List ℓ → σ → Prop} {s s' : σ} {events : List ℓ} (h : Trace step s events s')
    (hs : I [] s)
    (hstep : ∀ past event future t t', events = past ++ event :: future → Trace step s past t →
      I past t → step t event t' → I (past ++ [event]) t') : I events s' := by
  induction events using List.reverseRecOn generalizing s' with
  | nil =>
    cases h
    exact hs
  | append_singleton events event ih =>
    obtain ⟨t, hpast, hlast⟩ := append_iff.mp h
    cases hlast with
    | cons head tail =>
      cases tail
      refine hstep events event [] t s' rfl hpast (ih hpast ?_) head
      intro past e future u u' hsplit
      exact hstep past e (future ++ [event]) u u' (by rw [hsplit, List.append_assoc, List.cons_append])

end Trace

end Program
