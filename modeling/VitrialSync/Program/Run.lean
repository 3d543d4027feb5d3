import Mathlib.Data.Int.Notation
import Mathlib.Data.Nat.Notation
import VitrialSync.Program.Raise

set_option relaxedAutoImplicit false
set_option autoImplicit false

/-!
# Loops and runs

A loop threads a state through a list of inputs and stops at the first exception; its effects are
kept only when it reaches the end. A run applies one such transaction after another: a transaction
that raises leaves the state as it was and the run goes on. For both, the iterations that completed
are listed with the states before and after them, so that a property of every iteration can be
stated, and an invariant is proved by one lemma about a single iteration.

## Main definitions

* `Program.Iteration` — one completed iteration.
* `Program.Links` — steps that lead from one state to another.
* `Program.loop`, `Program.iterations` — a loop and its completed iterations.
* `Program.run`, `Program.committed` — a run and its committed transactions.

## Main results

* `Program.loop_inv`, `Program.iterations_inv` — an invariant of every iteration holds at the end,
  and before every iteration.
* `Program.run_inv`, `Program.committed_inv` — the same for a run.
* `Program.loop_links`, `Program.run_links` — the iterations lead from the first state to the last.
* `Program.Links.count` — a number that grows by one in the steps of a kind counts them.
* `Program.loop_again` — a loop whose iterations are remembered can be repeated without a change.
-/

namespace Program

variable {σ ι ω ε : Type}

/-- An iteration that ran to its end. -/
structure Iteration (σ ι ω : Type) where
  before : σ
  input : ι
  after : σ
  output : ω

section Links

variable {τ : Type} {before after : τ → σ}

/-- Steps that lead from one state to another: each starts where the one before it ended. -/
def Links (before after : τ → σ) : List τ → σ → σ → Prop
  | [], s, s' => s = s'
  | t :: ts, s, s' => before t = s ∧ Links before after ts (after t) s'

/-- Steps in two parts. -/
lemma links_append {ts us : List τ} {s s'' : σ} :
    Links before after (ts ++ us) s s'' ↔
      ∃ s', Links before after ts s s' ∧ Links before after us s' s'' := by
  induction ts generalizing s with
  | nil => simp [Links]
  | cons t ts ih => simp [Links, ih, and_assoc]

/-- Steps of steps: each step of the outer sequence is a sequence of its own. -/
lemma Links.flatMap {υ : Type} {outset outcome : υ → σ} {f : υ → List τ} {us : List υ} {s s' : σ}
    (h : Links outset outcome us s s')
    (hf : ∀ u ∈ us, Links before after (f u) (outset u) (outcome u)) :
    Links before after (us.flatMap f) s s' := by
  induction us generalizing s with
  | nil => exact h
  | cons u us ih =>
    obtain ⟨rfl, hrest⟩ := h
    rw [List.forall_mem_cons] at hf
    rw [List.flatMap_cons, links_append]
    exact ⟨outcome u, hf.1, ih hrest hf.2⟩

/-- Steps seen through a map of their states. -/
lemma Links.map {υ ρ : Type} {outset outcome : υ → ρ} {g : τ → υ} {q : σ → ρ} {ts : List τ}
    {s s' : σ} (h : Links before after ts s s')
    (hg : ∀ t, outset (g t) = q (before t) ∧ outcome (g t) = q (after t)) :
    Links outset outcome (ts.map g) (q s) (q s') := by
  induction ts generalizing s with
  | nil => exact congrArg q h
  | cons t ts ih =>
    obtain ⟨rfl, hrest⟩ := h
    refine ⟨(hg t).1, ?_⟩
    rw [(hg t).2]
    exact ih hrest

/-- An invariant that every step keeps holds at the end. -/
lemma Links.inv {I : σ → Prop} {ts : List τ} {s s' : σ} (h : Links before after ts s s') (hs : I s)
    (hstep : ∀ t ∈ ts, I (before t) → I (after t)) : I s' := by
  induction ts generalizing s with
  | nil => exact h ▸ hs
  | cons t ts ih =>
    obtain ⟨rfl, hrest⟩ := h
    rw [List.forall_mem_cons] at hstep
    exact ih hrest (hstep.1 hs) hstep.2

/-- A number that grows by one in the steps of a kind, and in no other, counts them; an invariant
may be used for what a step does. -/
lemma Links.count {I : σ → Prop} {m : σ → ℤ} {p : τ → Bool} {ts : List τ} {s s' : σ}
    (h : Links before after ts s s') (hs : I s) (hstep : ∀ t ∈ ts, I (before t) →
      I (after t) ∧ m (after t) = m (before t) + if p t then 1 else 0) :
    m s' = m s + ts.countP p := by
  induction ts generalizing s with
  | nil =>
    obtain rfl := h
    simp
  | cons t ts ih =>
    obtain ⟨rfl, hrest⟩ := h
    rw [List.forall_mem_cons] at hstep
    obtain ⟨hkept, hcount⟩ := hstep.1 hs
    rw [ih hrest hkept hstep.2, hcount, List.countP_cons]
    split_ifs <;> push_cast <;> omega

end Links

section Loop

variable (f : σ → ι → Except ε (σ × ω))

/-- Thread a state through the inputs; the outputs are kept with their inputs. -/
def loop : List ι → σ → Except ε (σ × List (ι × ω))
  | [], s => .ok (s, [])
  | i :: is, s =>
    match f s i with
    | .error e => .error e
    | .ok (s', o) =>
      match loop is s' with
      | .error e => .error e
      | .ok (s'', os) => .ok (s'', (i, o) :: os)

/-- The iterations of a loop up to its first exception. -/
def iterations : List ι → σ → List (Iteration σ ι ω)
  | [], _ => []
  | i :: is, s =>
    match f s i with
    | .error _ => []
    | .ok (s', o) => ⟨s, i, s', o⟩ :: iterations is s'

variable {f}

/-- An iteration is a step of the body on one of the inputs. -/
lemma iterations_spec {is : List ι} {s : σ} {it : Iteration σ ι ω} (h : it ∈ iterations f is s) :
    f it.before it.input = .ok (it.after, it.output) ∧ it.input ∈ is := by
  induction is generalizing s with
  | nil => simp [iterations] at h
  | cons i is ih =>
    unfold iterations at h
    split at h
    · simp at h
    · rename_i s' o hf
      rcases List.mem_cons.mp h with rfl | h
      · exact ⟨hf, List.mem_cons_self⟩
      · exact ⟨(ih h).1, List.mem_cons_of_mem _ (ih h).2⟩

/-- An invariant that every iteration keeps holds before every iteration. -/
lemma iterations_inv {I : σ → Prop} {is : List ι} {s : σ} (hs : I s)
    (hstep : ∀ it ∈ iterations f is s, I it.before → I it.after) :
    ∀ it ∈ iterations f is s, I it.before := by
  induction is generalizing s with
  | nil => simp [iterations]
  | cons i is ih =>
    unfold iterations at hstep ⊢
    split
    · simp
    · rename_i s' o hf
      simp only [hf, List.forall_mem_cons] at hstep
      exact List.forall_mem_cons.mpr ⟨hs, ih (hstep.1 hs) hstep.2⟩

/-- An invariant that every iteration keeps holds at the end of the loop. -/
lemma loop_inv {I : σ → Prop} {is : List ι} {s s' : σ} {os : List (ι × ω)}
    (h : loop f is s = .ok (s', os)) (hs : I s)
    (hstep : ∀ it ∈ iterations f is s, I it.before → I it.after) : I s' := by
  induction is generalizing s os with
  | nil =>
    simp only [loop, Except.ok.injEq, Prod.mk.injEq] at h
    exact h.1 ▸ hs
  | cons i is ih =>
    unfold loop at h
    unfold iterations at hstep
    split at h
    · cases h
    · rename_i s₁ o hf
      simp only [hf, List.forall_mem_cons] at hstep
      split at h
      · cases h
      · rename_i s₂ os' hrest
        simp only [Except.ok.injEq, Prod.mk.injEq] at h
        obtain ⟨rfl, rfl⟩ := h
        exact ih hrest (hstep.1 hs) hstep.2

/-- The iterations of a loop that reached its end lead from its first state to its last. -/
lemma loop_links {is : List ι} {s s' : σ} {os : List (ι × ω)} (h : loop f is s = .ok (s', os)) :
    Links Iteration.before Iteration.after (iterations f is s) s s' := by
  induction is generalizing s os with
  | nil =>
    simp only [loop, Except.ok.injEq, Prod.mk.injEq] at h
    exact h.1
  | cons i is ih =>
    unfold loop at h
    unfold iterations
    split at h
    · cases h
    · rename_i s₁ o hf
      split at h
      · cases h
      · rename_i s₂ os' hrest
        simp only [Except.ok.injEq, Prod.mk.injEq] at h
        obtain ⟨rfl, rfl⟩ := h
        exact ⟨rfl, ih hrest⟩

/-- A preorder that every iteration follows relates the two ends of the loop. -/
lemma loop_rel {R : σ → σ → Prop} (hrefl : ∀ s, R s s)
    (htrans : ∀ s₁ s₂ s₃, R s₁ s₂ → R s₂ s₃ → R s₁ s₃) {is : List ι} {s s' : σ}
    {os : List (ι × ω)} (h : loop f is s = .ok (s', os))
    (hstep : ∀ it ∈ iterations f is s, R it.before it.after) : R s s' :=
  loop_inv (I := R s) h (hrefl s) fun it hit hbefore =>
    htrans s it.before it.after hbefore (hstep it hit)

/-- **Repetition.** When every iteration is remembered, so that a second body `g` answers its input
without a change in every later state, `g` goes through the whole loop again without a change.

**Proof sketch.** By induction on the inputs; the rest of the loop leads from the state after the
first iteration to a later one (`loop_rel`). -/
theorem loop_again {R : σ → σ → Prop} {Q : ω → ω → Prop} (hrefl : ∀ s, R s s)
    (htrans : ∀ s₁ s₂ s₃, R s₁ s₂ → R s₂ s₃ → R s₁ s₃) {g : σ → ι → Except ε (σ × ω)} {t : σ}
    {is : List ι} {s s' : σ} {os : List (ι × ω)} (h : loop f is s = .ok (s', os))
    (hstep : ∀ it ∈ iterations f is s, R it.before it.after)
    (hanswer : ∀ it ∈ iterations f is s, R it.after t →
      ∃ o, g t it.input = .ok (t, o) ∧ Q it.output o) (ht : R s' t) :
    ∃ os', loop g is t = .ok (t, os') ∧
      List.Forall₂ (fun a b => a.1 = b.1 ∧ Q a.2 b.2) os os' := by
  induction is generalizing s os with
  | nil =>
    simp only [loop, Except.ok.injEq, Prod.mk.injEq] at h
    exact ⟨[], rfl, h.2 ▸ List.Forall₂.nil⟩
  | cons i is ih =>
    unfold loop at h
    unfold iterations at hstep hanswer
    split at h
    · cases h
    · rename_i s₁ o hf
      simp only [hf, List.forall_mem_cons] at hstep hanswer
      split at h
      · cases h
      · rename_i s₂ os₁ hrest
        simp only [Except.ok.injEq, Prod.mk.injEq] at h
        obtain ⟨rfl, rfl⟩ := h
        have hlater : R s₁ t := htrans _ _ _ (loop_rel hrefl htrans hrest hstep.2) ht
        obtain ⟨o', hg, hQ⟩ := hanswer.1 hlater
        obtain ⟨os', hloop, hall⟩ := ih hrest hstep.2 hanswer.2
        refine ⟨(i, o') :: os', ?_, List.Forall₂.cons ⟨rfl, hQ⟩ hall⟩
        simp only [loop, hg, hloop]

end Loop

section Run

variable (f : σ → ι → Except ε (σ × ω))

/-- One transaction: an exception leaves the state as it was. -/
def commit (s : σ) (i : ι) : σ :=
  match f s i with
  | .error _ => s
  | .ok (s', _) => s'

/-- A run of transactions. -/
def run : List ι → σ → σ
  | [], s => s
  | i :: is, s => run is (commit f s i)

/-- The transactions of a run that committed. -/
def committed : List ι → σ → List (Iteration σ ι ω)
  | [], _ => []
  | i :: is, s =>
    match f s i with
    | .error _ => committed is s
    | .ok (s', o) => ⟨s, i, s', o⟩ :: committed is s'

/-- A run in two parts. -/
lemma run_append (is js : List ι) (s : σ) : run f (is ++ js) s = run f js (run f is s) := by
  induction is generalizing s with
  | nil => rfl
  | cons i is ih => exact ih _

variable {f}

/-- A committed transaction is one of the inputs, applied to the state before it. -/
lemma committed_spec {is : List ι} {s : σ} {it : Iteration σ ι ω} (h : it ∈ committed f is s) :
    f it.before it.input = .ok (it.after, it.output) ∧ it.input ∈ is := by
  induction is generalizing s with
  | nil => simp [committed] at h
  | cons i is ih =>
    unfold committed at h
    split at h
    · exact ⟨(ih h).1, List.mem_cons_of_mem _ (ih h).2⟩
    · rename_i s' o hf
      rcases List.mem_cons.mp h with rfl | h
      · exact ⟨hf, List.mem_cons_self⟩
      · exact ⟨(ih h).1, List.mem_cons_of_mem _ (ih h).2⟩

/-- An invariant that every committed transaction keeps holds before every one of them. -/
lemma committed_inv {I : σ → Prop} {is : List ι} {s : σ} (hs : I s)
    (hstep : ∀ it ∈ committed f is s, I it.before → I it.after) :
    ∀ it ∈ committed f is s, I it.before := by
  induction is generalizing s with
  | nil => simp [committed]
  | cons i is ih =>
    unfold committed at hstep ⊢
    split
    · rename_i hf
      simp only [hf] at hstep
      exact ih hs hstep
    · rename_i s' o hf
      simp only [hf, List.forall_mem_cons] at hstep
      exact List.forall_mem_cons.mpr ⟨hs, ih (hstep.1 hs) hstep.2⟩

/-- An invariant that every committed transaction keeps holds at the end of the run. -/
lemma run_inv {I : σ → Prop} {is : List ι} {s : σ} (hs : I s)
    (hstep : ∀ it ∈ committed f is s, I it.before → I it.after) : I (run f is s) := by
  induction is generalizing s with
  | nil => exact hs
  | cons i is ih =>
    unfold committed at hstep
    unfold run commit
    cases hf : f s i with
    | error e =>
      simp only [hf] at hstep
      exact ih hs hstep
    | ok r =>
      simp only [hf, List.forall_mem_cons] at hstep
      exact ih (hstep.1 hs) hstep.2

/-- The committed transactions of a run lead from its first state to its last. -/
lemma run_links (is : List ι) (s : σ) :
    Links Iteration.before Iteration.after (committed f is s) s (run f is s) := by
  induction is generalizing s with
  | nil => rfl
  | cons i is ih =>
    unfold committed run commit
    cases f s i with
    | error e => exact ih s
    | ok r => exact ⟨rfl, ih r.1⟩

end Run

end Program
