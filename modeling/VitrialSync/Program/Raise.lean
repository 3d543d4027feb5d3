import Mathlib.Data.List.Forall2
import Mathlib.Tactic.Lemma
import Mathlib.Data.List.Basic

set_option relaxedAutoImplicit false
set_option autoImplicit false

/-!
# Computations that raise

Validation code is a sequence of checks, each of which raises or falls through. A computation is
an `Except`; the two questions asked of it are what it established when it returned, and which
exceptions it can end in.

## Main definitions

* `Program.raiseIf` — `if c: raise e`.
* `Program.Raises` — every exception of a computation satisfies a predicate.

## Main results

* `Program.bind_eq_ok`, `Program.forM_eq_ok`, `Program.foldlM_eq_ok_mem` — a sequence, or a loop,
  returned exactly when each of its parts did.
* `Program.foldlM_inv` — an invariant of the accumulator of a loop.
* `Program.foldlM_distinct` — a loop that refuses repeated keys returns distinct ones.
* `Program.Raises.bind`, `Program.Raises.forM`, `Program.Raises.foldlM` — the exceptions of a
  sequence and of a loop are those of their parts.
* `Program.Raises.eq_error` — what a computation does that does not return.
-/

namespace Program

variable {ε α β : Type}

/-- `if c: raise e`. -/
def raiseIf (c : Bool) (e : ε) : Except ε Unit := if c then .error e else .ok ()

/-- A check that fell through had a false condition. -/
@[simp]
lemma raiseIf_eq_ok {c : Bool} {e : ε} {u : Unit} : raiseIf c e = .ok u ↔ c = false := by
  cases c <;> simp [raiseIf]

/-- A check that raised. -/
@[simp]
lemma raiseIf_eq_error {c : Bool} {e e' : ε} : raiseIf c e = .error e' ↔ c = true ∧ e = e' := by
  cases c <;> simp [raiseIf]

/-- A sequence returned when both parts did. -/
lemma bind_eq_ok {x : Except ε α} {f : α → Except ε β} {b : β} :
    (x >>= f) = .ok b ↔ ∃ a, x = .ok a ∧ f a = .ok b := by
  cases x with
  | error e => simp [bind, Except.bind]
  | ok a => simp [bind, Except.bind]

/-- A sequence after a part that returned. -/
lemma ok_bind (a : α) (f : α → Except ε β) : ((.ok a : Except ε α) >>= f) = f a := rfl

/-- The return value of `pure`. -/
@[simp]
lemma pure_eq_ok {a b : α} : (pure a : Except ε α) = .ok b ↔ a = b := by
  simp [pure, Except.pure]

/-- A computation whose result is known returned it. -/
lemma toOption_eq_some {x : Except ε α} {a : α} (h : x.toOption = some a) : x = .ok a := by
  cases x with
  | error e => cases h
  | ok b => exact congrArg Except.ok (Option.some.inj h)

/-- Re-raising under another name does not change what is returned. -/
@[simp]
lemma mapError_eq_ok {ε' : Type} {x : Except ε α} {g : ε → ε'} {a : α} :
    x.mapError g = .ok a ↔ x = .ok a := by
  cases x <;> simp [Except.mapError]

/-- Using the result does not change what is returned. -/
lemma map_eq_ok {x : Except ε α} {g : α → β} {b : β} :
    x.map g = .ok b ↔ ∃ a, x = .ok a ∧ g a = b := by
  cases x <;> simp [Except.map]

/-- Using the result does not change whether one is returned. -/
lemma map_isOk_iff {x : Except ε α} {g : α → β} :
    (∃ b, x.map g = .ok b) ↔ ∃ a, x = .ok a := by
  simp only [map_eq_ok]
  exact ⟨fun ⟨_, a, h, _⟩ => ⟨a, h⟩, fun ⟨a, h⟩ => ⟨_, a, h, rfl⟩⟩

/-- A sequence after a conditional, as `do` writes it: the rest stands in both branches. -/
lemma ite_bind_eq_ok {c : Prop} [Decidable c] {x y : Except ε α} {f : α → Except ε β} {b : β} :
    (if c then x >>= f else y >>= f) = .ok b ↔
      ∃ a, (if c then x else y) = .ok a ∧ f a = .ok b := by
  by_cases h : c <;> simp only [h, ↓reduceIte, bind_eq_ok]

/-- The first iteration of a loop of checks. -/
lemma forM_cons (x : α) (xs : List α) (f : α → Except ε Unit) :
    (x :: xs).forM f = (f x >>= fun _ => xs.forM f) := rfl

/-- A loop of checks returned when every iteration did. -/
lemma forM_eq_ok {xs : List α} {f : α → Except ε Unit} :
    xs.forM f = .ok () ↔ ∀ x ∈ xs, f x = .ok () := by
  induction xs with
  | nil => simp
  | cons x xs ih =>
    rw [forM_cons, bind_eq_ok]
    simp only [ih, List.forall_mem_cons]
    exact ⟨fun ⟨_, hx, hxs⟩ => ⟨hx, hxs⟩, fun ⟨hx, hxs⟩ => ⟨(), hx, hxs⟩⟩

/-- Every iteration of a loop with an accumulator that returned has returned. -/
lemma foldlM_eq_ok_mem {xs : List α} {f : β → α → Except ε β} {b b' : β}
    (h : xs.foldlM f b = .ok b') : ∀ x ∈ xs, ∃ c c', f c x = .ok c' := by
  induction xs generalizing b with
  | nil => simp
  | cons x xs ih =>
    rw [List.foldlM_cons, bind_eq_ok] at h
    obtain ⟨c, hx, hxs⟩ := h
    exact List.forall_mem_cons.mpr ⟨⟨b, c, hx⟩, ih hxs⟩

/-- What every iteration of a loop keeps of the accumulator, the loop keeps. -/
lemma foldlM_inv {P : β → Prop} {f : β → α → Except ε β}
    (hf : ∀ b x b', P b → f b x = .ok b' → P b') {xs : List α} {b b' : β} (hb : P b)
    (h : xs.foldlM f b = .ok b') : P b' := by
  induction xs generalizing b with
  | nil =>
    rw [List.foldlM_nil, pure_eq_ok] at h
    exact h ▸ hb
  | cons x xs ih =>
    rw [List.foldlM_cons, bind_eq_ok] at h
    obtain ⟨c, hx, hxs⟩ := h
    exact ih (hf _ _ _ hb hx) hxs

/-- What a loop keeps of the entries it has gone through and of its accumulator. -/
lemma foldlM_inv_done {P : List α → β → Prop} {f : β → α → Except ε β} {xs : List α}
    (hf : ∀ done x rest b b', xs = done ++ x :: rest → P done b → f b x = .ok b' →
      P (done ++ [x]) b') {b b' : β} (hb : P [] b) (h : xs.foldlM f b = .ok b') : P xs b' := by
  suffices hrest : ∀ rest done c, xs = done ++ rest → P done c → rest.foldlM f c = .ok b' →
      P xs b' from hrest xs [] b rfl hb h
  intro rest
  induction rest with
  | nil =>
    intro done c hxs hc h
    rw [List.foldlM_nil, pure_eq_ok] at h
    rwa [hxs, List.append_nil, ← h]
  | cons x rest ih =>
    intro done c hxs hc h
    rw [List.foldlM_cons, bind_eq_ok] at h
    obtain ⟨c', hx, hrest⟩ := h
    refine ih (done ++ [x]) c' ?_ (hf done x rest c c' hxs hc hx) hrest
    rw [hxs, List.append_assoc, List.singleton_append]

/-- A loop that returned, split at one of its entries. -/
lemma foldlM_split {f : β → α → Except ε β} {done rest : List α} {x : α} {b b' : β} :
    (done ++ x :: rest).foldlM f b = .ok b' ↔
      ∃ c c', done.foldlM f b = .ok c ∧ f c x = .ok c' ∧ rest.foldlM f c' = .ok b' := by
  rw [List.foldlM_append, bind_eq_ok]
  simp only [List.foldlM_cons, bind_eq_ok]
  constructor
  · rintro ⟨c, hdone, c', hx, hrest⟩
    exact ⟨c, c', hdone, hx, hrest⟩
  · rintro ⟨c, c', hdone, hx, hrest⟩
    exact ⟨c, hdone, c', hx, hrest⟩

/-- A loop that collects the keys of its entries and raises at a key it has collected returns the keys
of all entries, each once.

**Proof sketch.** Induction on the entries: the key of the first one goes in front of what was
collected, and the rest of the loop starts from there. -/
lemma foldlM_distinct {key : α → Option β} {f : List β → α → Except ε (List β)}
    (hf : ∀ seen x seen', f seen x = .ok seen' →
      ∃ k, key x = some k ∧ k ∉ seen ∧ seen' = k :: seen)
    {xs : List α} {seen seen' : List β} (h : xs.foldlM f seen = .ok seen') :
    ∃ ids : List β, xs.map key = ids.map some ∧ seen' = ids.reverse ++ seen ∧
      (seen.Nodup → seen'.Nodup) := by
  induction xs generalizing seen with
  | nil =>
    rw [List.foldlM_nil, pure_eq_ok] at h
    subst h
    exact ⟨[], rfl, rfl, id⟩
  | cons x xs ih =>
    rw [List.foldlM_cons, bind_eq_ok] at h
    obtain ⟨next, hx, hxs⟩ := h
    obtain ⟨k, hkey, hnew, rfl⟩ := hf _ _ _ hx
    obtain ⟨ids, hids, rfl, hnodup⟩ := ih hxs
    refine ⟨k :: ids, ?_, ?_, ?_⟩
    · rw [List.map_cons, List.map_cons, hkey, hids]
    · rw [List.reverse_cons, List.append_assoc, List.singleton_append]
    · exact fun hseen => hnodup (List.nodup_cons.mpr ⟨hnew, hseen⟩)

/-- A mapped list returns exactly when every element returns its part. -/
lemma mapM_eq_ok_iff {xs : List α} {f : α → Except ε β} {ys : List β} :
    xs.mapM f = .ok ys ↔ List.Forall₂ (fun x y => f x = .ok y) xs ys := by
  induction xs generalizing ys with
  | nil =>
    rw [List.mapM_nil, pure_eq_ok, List.forall₂_nil_left_iff]
    exact eq_comm
  | cons x xs ih =>
    simp only [List.mapM_cons, bind_eq_ok, pure_eq_ok, List.forall₂_cons_left_iff]
    constructor
    · rintro ⟨y, hx, ys', hxs, rfl⟩
      exact ⟨y, ys', hx, ih.mp hxs, rfl⟩
    · rintro ⟨y, ys', hx, hxs, rfl⟩
      exact ⟨y, hx, ys', ih.mpr hxs, rfl⟩

/-- What a mapped list returned was returned for one of its elements. -/
lemma mapM_eq_ok_mem_right {xs : List α} {f : α → Except ε β} {ys : List β}
    (h : xs.mapM f = .ok ys) : ∀ y ∈ ys, ∃ x ∈ xs, f x = .ok y := by
  induction xs generalizing ys with
  | nil =>
    rw [List.mapM_nil, pure_eq_ok] at h
    simp [← h]
  | cons x xs ih =>
    rw [List.mapM_cons, bind_eq_ok] at h
    obtain ⟨y, hx, h⟩ := h
    obtain ⟨ys', hxs, h⟩ := bind_eq_ok.mp h
    rw [← pure_eq_ok.mp h]
    refine List.forall_mem_cons.mpr ⟨⟨x, List.mem_cons_self, hx⟩, fun z hz => ?_⟩
    obtain ⟨w, hw, hwz⟩ := ih hxs z hz
    exact ⟨w, List.mem_cons_of_mem _ hw, hwz⟩

/-- Every element of a mapped list that returned has returned. -/
lemma mapM_eq_ok_mem {xs : List α} {f : α → Except ε β} {ys : List β}
    (h : xs.mapM f = .ok ys) : ∀ x ∈ xs, ∃ y, f x = .ok y := by
  induction xs generalizing ys with
  | nil => simp
  | cons x xs ih =>
    rw [List.mapM_cons, bind_eq_ok] at h
    obtain ⟨y, hx, h⟩ := h
    obtain ⟨ys', hxs, -⟩ := bind_eq_ok.mp h
    exact List.forall_mem_cons.mpr ⟨⟨y, hx⟩, ih hxs⟩

/-- A mapped list returns when every element returns. -/
lemma mapM_isOk_iff {xs : List α} {f : α → Except ε β} :
    (∃ ys, xs.mapM f = .ok ys) ↔ ∀ x ∈ xs, ∃ y, f x = .ok y := by
  refine ⟨fun ⟨ys, h⟩ => mapM_eq_ok_mem h, fun h => ?_⟩
  induction xs with
  | nil => exact ⟨[], rfl⟩
  | cons x xs ih =>
    rw [List.forall_mem_cons] at h
    obtain ⟨⟨y, hx⟩, hxs⟩ := h
    obtain ⟨ys, hys⟩ := ih hxs
    exact ⟨y :: ys, by rw [List.mapM_cons, hx, ok_bind, hys]; rfl⟩

/-- Every exception the computation can end in satisfies `P`. -/
def Raises (P : ε → Prop) (x : Except ε α) : Prop := ∀ e, x = .error e → P e

namespace Raises

variable {P : ε → Prop}

/-- Returning raises nothing. -/
lemma ok (a : α) : Raises P (.ok a : Except ε α) := by
  intro e h
  cases h

/-- Returning raises nothing. -/
lemma pure (a : α) : Raises P (Pure.pure a : Except ε α) := ok a

/-- Raising an exception of the class. -/
lemma error {e : ε} (h : P e) : Raises P (.error e : Except ε α) := by
  intro e' he
  cases he
  exact h

/-- A check raises its exception. -/
lemma raiseIf {c : Bool} {e : ε} (h : P e) : Raises P (raiseIf c e) := by
  intro e' he
  obtain ⟨-, rfl⟩ := raiseIf_eq_error.mp he
  exact h

/-- A sequence raises what its parts raise; the second part runs after the first returned. -/
lemma bind {x : Except ε α} {f : α → Except ε β} (hx : Raises P x)
    (hf : ∀ a, x = .ok a → Raises P (f a)) : Raises P (x >>= f) := by
  intro e he
  cases x with
  | error e' =>
    cases he
    exact hx e rfl
  | ok a => exact hf a rfl e he

/-- A conditional raises what its branches raise. -/
lemma ite {c : Prop} [Decidable c] {x y : Except ε α} (hx : c → Raises P x)
    (hy : ¬ c → Raises P y) : Raises P (if c then x else y) := by
  by_cases h : c
  · simpa only [h, ↓reduceIte] using hx h
  · simpa only [h, ↓reduceIte] using hy h

/-- A loop raises what its iterations raise. -/
lemma forM {xs : List α} {f : α → Except ε Unit} (h : ∀ x ∈ xs, Raises P (f x)) :
    Raises P (xs.forM f) := by
  induction xs with
  | nil => exact pure ()
  | cons x xs ih =>
    rw [forM_cons]
    exact bind (h x List.mem_cons_self) fun _ _ => ih fun y hy => h y (List.mem_cons_of_mem _ hy)

/-- A loop with an accumulator raises what its iterations raise. -/
lemma foldlM {xs : List α} {f : β → α → Except ε β} (h : ∀ b, ∀ x ∈ xs, Raises P (f b x)) (b : β) :
    Raises P (xs.foldlM f b) := by
  induction xs generalizing b with
  | nil => exact pure b
  | cons x xs ih =>
    rw [List.foldlM_cons]
    exact bind (h b x List.mem_cons_self) fun b' _ =>
      ih (fun b y hy => h b y (List.mem_cons_of_mem _ hy)) b'

/-- A mapped list raises what its elements raise. -/
lemma mapM {xs : List α} {f : α → Except ε β} (h : ∀ x ∈ xs, Raises P (f x)) :
    Raises P (xs.mapM f) := by
  induction xs with
  | nil => exact pure []
  | cons x xs ih =>
    rw [List.mapM_cons]
    exact bind (h x List.mem_cons_self) fun _ _ =>
      bind (ih fun y hy => h y (List.mem_cons_of_mem _ hy)) fun _ _ => pure _

/-- A computation whose result is used raises what it raises itself. -/
lemma map {x : Except ε α} {f : α → β} (h : Raises P x) : Raises P (x.map f) := by
  intro e he
  cases x with
  | error e' =>
    cases he
    exact h e rfl
  | ok a => cases he

/-- A computation that raises one exception only returns or raises that one. -/
lemma eq_error {x : Except ε α} {e : ε} (h : Raises (· = e) x) (hno : ¬ ∃ a, x = .ok a) :
    x = .error e := by
  cases x with
  | error e' => rw [h e' rfl]
  | ok a => exact absurd ⟨a, rfl⟩ hno

/-- Re-raising under another name. -/
lemma mapError {ε' : Type} {x : Except ε' α} {g : ε' → ε} {Q : ε' → Prop} (h : Raises Q x)
    (hg : ∀ e, Q e → P (g e)) : Raises P (x.mapError g) := by
  intro e he
  cases x with
  | error e' =>
    cases he
    exact hg _ (h _ rfl)
  | ok a => cases he

end Raises

end Program
