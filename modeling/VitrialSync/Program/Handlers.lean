import Mathlib.Logic.Function.Basic
import Mathlib.Logic.Relation
import VitrialSync.Program.System

set_option relaxedAutoImplicit false
set_option autoImplicit false

/-!
# Request handlers on locked rows

The handlers of several requests work on one database at the same time. A handler reads what is
committed at that moment, waits for the lock on a row, and commits: what it writes is seen by others
from its commit on, and a write that breaks a constraint makes the transaction fail. Locks are held
until the transaction ends, and a commit that touches a locked row waits for it.

A commit is described by its effect. A handler is sound when each of its commits does what its
effect says, whatever other handlers commit between its steps; of these it only knows that they do
what their effects say and leave alone the rows that it has locked. Then the commits of all
handlers, in the order in which they happened, are a run of the effects.

## Main definitions

* `Program.Handler` — what a handler does.
* `Program.Backend`, `Program.HandlerStep` — handlers at work.
* `Program.Discipline` — what effects do, and the invariant that they keep.
* `Program.Discipline.Later` — what others may have committed in the meantime.
* `Program.Promise` — what is promised of the commits and of the answer of a handler.
* `Program.Handler.Sound` — every commit does what its effect says.
* `Program.Handler.alone` — a handler without others.
* `Program.Handler.watching` — a handler that only reads.

## Main results

* `Program.Discipline.later_keeps` — a fact that effects keep is true later.
* `Program.Coherent.step`, `Program.Coherent.trace` — sound handlers in any interleaving.
* `Program.Coherent.ledger` — their commits are a run of the effects.
* `Program.Coherent.renew` — a handler that begins later.
* `Program.read_of_answered` — the moment at which a handler read.
* `Program.serve_trace` — handlers one after another.
-/

namespace Program

variable {ι σ κ ε ρ : Type}

/-! ### Handlers -/

/-- What a handler does with the database: `κ` are the rows that can be locked, `ε` the effects of
commits, `ρ` the answers. -/
inductive Handler (σ κ ε ρ : Type) where
  | answer (result : ρ)
  | read (next : σ → Handler σ κ ε ρ)
  /-- A query that locks the row it finds, if any. -/
  | lock (row : σ → Option κ) (next : σ → Handler σ κ ε ρ)
  /-- Write and commit; a write that breaks a constraint gives no state. -/
  | commit (effect : ε) (touched : List κ) (write : σ → Option σ) (next refused : Handler σ κ ε ρ)

/-- A handler at work: what is left of it, if its connection was not lost, and the rows that it has
locked. -/
structure Handled (σ κ ε ρ : Type) where
  rest : Option (Handler σ κ ε ρ)
  held : List κ

/-- The committed rows, the handlers at work, and the commits so far. -/
structure Backend (ι σ κ ε ρ : Type) where
  rows : σ
  parties : ι → Handled σ κ ε ρ
  ledger : List (ι × ε)

/-- All handlers are about to begin. -/
def Backend.opening (program : ι → Handler σ κ ε ρ) (rows : σ) : Backend ι σ κ ε ρ :=
  ⟨rows, fun i => ⟨some (program i), []⟩, []⟩

/-- No other handler has locked the row. -/
def Backend.Free (s : Backend ι σ κ ε ρ) (i : ι) (row : κ) : Prop :=
  ∀ j, j ≠ i → row ∉ (s.parties j).held

variable [DecidableEq ι]

/-- The backend after a handler went on without a commit. -/
def Backend.move (s : Backend ι σ κ ε ρ) (i : ι) (rest : Option (Handler σ κ ε ρ))
    (held : List κ) : Backend ι σ κ ε ρ :=
  { s with parties := Function.update s.parties i ⟨rest, held⟩ }

/-- The backend after a commit. -/
def Backend.commit (s : Backend ι σ κ ε ρ) (i : ι) (effect : ε) (rows : σ)
    (next : Handler σ κ ε ρ) : Backend ι σ κ ε ρ :=
  ⟨rows, Function.update s.parties i ⟨some next, []⟩, s.ledger ++ [(i, effect)]⟩

/-- The steps of the backend; the label is the handler that takes the step. -/
inductive HandlerStep : Backend ι σ κ ε ρ → ι → Backend ι σ κ ε ρ → Prop
  | read {s : Backend ι σ κ ε ρ} {i : ι} {next : σ → Handler σ κ ε ρ} {held : List κ}
      (hparty : s.parties i = ⟨some (.read next), held⟩) :
      HandlerStep s i (s.move i (some (next s.rows)) held)
  | lock {s : Backend ι σ κ ε ρ} {i : ι} {row : σ → Option κ} {next : σ → Handler σ κ ε ρ}
      {held : List κ} (hparty : s.parties i = ⟨some (.lock row next), held⟩)
      (hfree : ∀ k ∈ (row s.rows).toList, s.Free i k) :
      HandlerStep s i (s.move i (some (next s.rows)) ((row s.rows).toList ++ held))
  | commit {s : Backend ι σ κ ε ρ} {i : ι} {effect : ε} {touched : List κ} {write : σ → Option σ}
      {next refused : Handler σ κ ε ρ} {held : List κ} {rows : σ}
      (hparty : s.parties i = ⟨some (.commit effect touched write next refused), held⟩)
      (hfree : ∀ k ∈ touched, s.Free i k) (hwrite : write s.rows = some rows) :
      HandlerStep s i (s.commit i effect rows next)
  | refuse {s : Backend ι σ κ ε ρ} {i : ι} {effect : ε} {touched : List κ} {write : σ → Option σ}
      {next refused : Handler σ κ ε ρ} {held : List κ}
      (hparty : s.parties i = ⟨some (.commit effect touched write next refused), held⟩)
      (hwrite : write s.rows = none) : HandlerStep s i (s.move i (some refused) [])
  /-- The request is answered, which ends the transaction. -/
  | release {s : Backend ι σ κ ε ρ} {i : ι} {result : ρ} {held : List κ}
      (hparty : s.parties i = ⟨some (.answer result), held⟩) :
      HandlerStep s i (s.move i (some (.answer result)) [])
  /-- The connection is lost, which ends the transaction too. -/
  | lose {s : Backend ι σ κ ε ρ} {i : ι} : HandlerStep s i (s.move i none [])

/-! ### What others do in the meantime -/

/-- What effects do to the rows, when a row is the same, and an invariant that effects keep. -/
structure Discipline (σ κ ε : Type) where
  does : ε → σ → σ → Prop
  same : κ → σ → σ → Prop
  Inv : σ → Prop
  keeps : ∀ e s s', Inv s → does e s s' → Inv s'

namespace Discipline

variable (D : Discipline σ κ ε)

/-- A commit of another handler, while some rows are locked. -/
def Apart (held : List κ) (s s' : σ) : Prop := (∃ e, D.does e s s') ∧ ∀ k ∈ held, D.same k s s'

/-- What others may have made of the rows in the meantime, while some of them are locked. -/
def Later (held : List κ) : σ → σ → Prop := Relation.ReflTransGen (D.Apart held)

/-- Nothing happened yet. -/
lemma later_refl (held : List κ) (s : σ) : D.Later held s s := .refl

variable {D}

/-- One commit. -/
lemma later_of_does {held : List κ} {e : ε} {s s' : σ} (h : D.does e s s')
    (hsame : ∀ k ∈ held, D.same k s s') : D.Later held s s' :=
  .single ⟨⟨e, h⟩, hsame⟩

/-- Later and still later. -/
lemma Later.trans {held : List κ} {s s' s'' : σ} (h : D.Later held s s')
    (h' : D.Later held s' s'') : D.Later held s s'' :=
  Relation.ReflTransGen.trans h h'

/-- With fewer rows locked, more can have happened. -/
lemma Later.mono {held held' : List κ} (hsub : ∀ k ∈ held', k ∈ held) {s s' : σ}
    (h : D.Later held s s') : D.Later held' s s' := by
  induction h with
  | refl => exact D.later_refl held' s
  | tail _ hapart ih => exact ih.tail ⟨hapart.1, fun k hk => hapart.2 k (hsub k hk)⟩

/-- With no row locked, more can have happened. -/
lemma Later.unlocked {held : List κ} {s s' : σ} (h : D.Later held s s') : D.Later [] s s' :=
  h.mono fun _ hk => absurd hk List.not_mem_nil

/-- **A fact that the effects keep** is true later; the invariant and the locked rows may be used.

**Proof sketch.** By induction on the commits, carrying the invariant along. -/
theorem later_keeps {held : List κ} {P : σ → Prop}
    (hP : ∀ e t t', D.Inv t → P t → D.does e t t' → (∀ k ∈ held, D.same k t t') → P t') {s s' : σ}
    (h : D.Later held s s') (hinv : D.Inv s) (hs : P s) : D.Inv s' ∧ P s' := by
  induction h with
  | refl => exact ⟨hinv, hs⟩
  | tail _ hapart ih =>
    obtain ⟨⟨e, hdoes⟩, hsame⟩ := hapart
    exact ⟨D.keeps e _ _ ih.1 hdoes, hP e _ _ ih.1 ih.2 hdoes hsame⟩

/-- The invariant is true later. -/
lemma later_inv {held : List κ} {s s' : σ} (h : D.Later held s s') (hinv : D.Inv s) : D.Inv s' :=
  (later_keeps (P := fun _ => True) (fun _ _ _ _ _ _ _ => trivial) h hinv trivial).1

end Discipline

/-! ### Sound handlers -/

/-- What is promised of the commits of a handler, and of its answer from then on. -/
structure Promise (σ ε ρ : Type) where
  commits : ε → Prop
  answers : ρ → σ → Prop

/-- From these rows on, and whatever others commit in the meantime: every commit of the handler is
one that was promised, does what its effect says and touches the rows it says, and so is the answer.
-/
def Handler.Sound (D : Discipline σ κ ε) (promise : Promise σ ε ρ) :
    Handler σ κ ε ρ → List κ → σ → Prop
  | .answer r, _, s => ∀ s', D.Later [] s s' → promise.answers r s'
  | .read next, held, s => ∀ s', D.Later held s s' → (next s').Sound D promise held s'
  | .lock row next, held, s =>
      ∀ s', D.Later held s s' → (next s').Sound D promise ((row s').toList ++ held) s'
  | .commit effect touched write next refused, held, s => ∀ s', D.Later held s s' →
      (∀ s'', write s' = some s'' → promise.commits effect ∧ D.does effect s' s'' ∧
        (∀ k, k ∉ touched → D.same k s' s'') ∧ next.Sound D promise [] s'') ∧
      (write s' = none → refused.Sound D promise [] s')

variable {D : Discipline σ κ ε} {promise : Promise σ ε ρ}

/-- A handler that is sound is sound later. -/
lemma Handler.Sound.later {handler : Handler σ κ ε ρ} {held : List κ} {s s' : σ}
    (h : handler.Sound D promise held s) (hlater : D.Later held s s') :
    handler.Sound D promise held s' := by
  cases handler with
  | answer r => exact fun t ht => h t (hlater.unlocked.trans ht)
  | read next => exact fun t ht => h t (hlater.trans ht)
  | lock row next => exact fun t ht => h t (hlater.trans ht)
  | commit effect touched write next refused => exact fun t ht => h t (hlater.trans ht)

/-- The handlers are sound where they stand, no two of them have locked the same row, and the
commits so far are a run of the effects and were promised. -/
structure Coherent (D : Discipline σ κ ε) (promises : ι → Promise σ ε ρ) (start : σ)
    (s : Backend ι σ κ ε ρ) : Prop where
  valid : D.Inv s.rows
  ledger : Trace (fun t (e : ι × ε) t' => D.does e.2 t t') start s.ledger s.rows
  promised : ∀ e ∈ s.ledger, (promises e.1).commits e.2
  sound : ∀ i rest, (s.parties i).rest = some rest →
    rest.Sound D (promises i) (s.parties i).held s.rows
  exclusive : ∀ i j k, i ≠ j → k ∈ (s.parties i).held → k ∉ (s.parties j).held

namespace Coherent

variable {promises : ι → Promise σ ε ρ} {start : σ}

omit [DecidableEq ι] in
/-- The backend is coherent before it opens, if its handlers are sound. -/
theorem opening {program : ι → Handler σ κ ε ρ} (hinv : D.Inv start)
    (hprogram : ∀ i, (program i).Sound D (promises i) [] start) :
    Coherent D promises start (Backend.opening program start) where
  valid := hinv
  ledger := .nil start
  promised := fun _ he => absurd he List.not_mem_nil
  sound := by
    rintro i rest hrest
    obtain rfl : program i = rest := Option.some.inj hrest
    exact hprogram i
  exclusive := fun _ _ _ _ hk => absurd hk List.not_mem_nil

variable {s : Backend ι σ κ ε ρ} {i : ι}

/-- A handler goes on without a commit: what is left of it has to be sound, and what it locks has to
be free.

**Proof sketch.** The other handlers stand where they stood, and the rows are the same. -/
lemma move (h : Coherent D promises start s) {rest : Option (Handler σ κ ε ρ)} {held : List κ}
    (hsound : ∀ r, rest = some r → r.Sound D (promises i) held s.rows)
    (hfree : ∀ k ∈ held, s.Free i k) : Coherent D promises start (s.move i rest held) where
  valid := h.valid
  ledger := h.ledger
  promised := h.promised
  sound := by
    intro j r hr
    by_cases hj : j = i
    · subst hj
      simp only [Backend.move, Function.update_self] at hr ⊢
      exact hsound r hr
    · simp only [Backend.move, Function.update_of_ne hj] at hr ⊢
      exact h.sound j r hr
  exclusive := by
    intro j l k hne hk
    by_cases hj : j = i
    · subst hj
      simp only [Backend.move, Function.update_self] at hk
      simp only [Backend.move, Function.update_of_ne hne.symm]
      exact hfree k hk l hne.symm
    · simp only [Backend.move, Function.update_of_ne hj] at hk
      by_cases hl : l = i
      · subst hl
        simp only [Backend.move, Function.update_self]
        exact fun hmem => hfree k hmem j hj hk
      · simp only [Backend.move, Function.update_of_ne hl]
        exact h.exclusive j l k hne hk

/-- A handler commits.

**Proof sketch.** For another handler this is one more commit that happened in the meantime: the
rows that it has locked are not among those that the commit touches. -/
lemma commit (h : Coherent D promises start s) {effect : ε} {touched : List κ} {rows : σ}
    {next : Handler σ κ ε ρ} (hpromised : (promises i).commits effect)
    (hdoes : D.does effect s.rows rows) (hsame : ∀ k, k ∉ touched → D.same k s.rows rows)
    (hfree : ∀ k ∈ touched, s.Free i k)
    (hsound : next.Sound D (promises i) [] rows) :
    Coherent D promises start (s.commit i effect rows next) where
  valid := D.keeps effect _ _ h.valid hdoes
  ledger := h.ledger.concat hdoes
  promised := by
    intro e he
    rcases List.mem_append.mp he with he | he
    · exact h.promised e he
    · obtain rfl := List.mem_singleton.mp he
      exact hpromised
  sound := by
    intro j r hr
    by_cases hj : j = i
    · subst hj
      simp only [Backend.commit, Function.update_self] at hr ⊢
      obtain rfl : next = r := Option.some.inj hr
      exact hsound
    · simp only [Backend.commit, Function.update_of_ne hj] at hr ⊢
      refine (h.sound j r hr).later (Discipline.later_of_does hdoes fun k hk => hsame k ?_)
      exact fun hmem => hfree k hmem j hj hk
  exclusive := by
    intro j l k hne hk
    by_cases hj : j = i
    · subst hj
      simp only [Backend.commit, Function.update_self] at hk
      exact absurd hk List.not_mem_nil
    · simp only [Backend.commit, Function.update_of_ne hj] at hk
      by_cases hl : l = i
      · subst hl
        simp only [Backend.commit, Function.update_self]
        exact List.not_mem_nil
      · simp only [Backend.commit, Function.update_of_ne hl]
        exact h.exclusive j l k hne hk

omit [DecidableEq ι] in
/-- What is left of a handler is sound. -/
lemma sound_of_party (h : Coherent D promises start s) {rest : Handler σ κ ε ρ} {held : List κ}
    (hparty : s.parties i = ⟨some rest, held⟩) : rest.Sound D (promises i) held s.rows := by
  have hsound := h.sound i rest (by rw [hparty])
  rwa [hparty] at hsound

omit [DecidableEq ι] in
/-- The rows that a handler has locked are free for it. -/
lemma free_held (h : Coherent D promises start s) {rest : Option (Handler σ κ ε ρ)}
    {held : List κ} (hparty : s.parties i = ⟨rest, held⟩) : ∀ k ∈ held, s.Free i k := by
  intro k hk j hne hmem
  exact h.exclusive j i k hne hmem (by rw [hparty]; exact hk)

/-- **Sound handlers stay sound** in a step of the backend.

**Proof sketch.** By cases on the step. A read and a lock are followed by what the handler does with
the present rows; a commit does what its effect says. -/
theorem step {s' : Backend ι σ κ ε ρ} (h : Coherent D promises start s)
    (hstep : HandlerStep s i s') : Coherent D promises start s' := by
  cases hstep with
  | read hparty =>
    refine h.move (fun r hr => ?_) (h.free_held hparty)
    obtain rfl := Option.some.inj hr
    exact h.sound_of_party hparty _ (D.later_refl _ _)
  | lock hparty hfree =>
    refine h.move (fun r hr => ?_) fun k hk => ?_
    · obtain rfl := Option.some.inj hr
      exact h.sound_of_party hparty _ (D.later_refl _ _)
    · rcases List.mem_append.mp hk with hk | hk
      · exact hfree k hk
      · exact h.free_held hparty k hk
  | commit hparty hfree hwrite =>
    obtain ⟨hpromised, hdoes, hsame, hnext⟩ :=
      (h.sound_of_party hparty _ (D.later_refl _ _)).1 _ hwrite
    exact h.commit hpromised hdoes hsame hfree hnext
  | refuse hparty hwrite =>
    refine h.move (fun r hr => ?_) fun _ hk => absurd hk List.not_mem_nil
    obtain rfl := Option.some.inj hr
    exact (h.sound_of_party hparty _ (D.later_refl _ _)).2 hwrite
  | release hparty =>
    refine h.move (fun r hr => ?_) fun _ hk => absurd hk List.not_mem_nil
    obtain rfl := Option.some.inj hr
    have hanswer := h.sound_of_party hparty
    exact hanswer
  | lose => exact h.move (fun r hr => by cases hr) fun _ hk => absurd hk List.not_mem_nil

/-- Sound handlers stay sound in every interleaving. -/
theorem trace {s' : Backend ι σ κ ε ρ} {events : List ι} (h : Coherent D promises start s)
    (htrace : Trace HandlerStep s events s') : Coherent D promises start s' :=
  htrace.inv h fun _ _ _ _ ht hstep => ht.step hstep

/-- Of a handler that is about to begin something else can be promised.

**Proof sketch.** It has no commit in the ledger, and the promises of the others stay. -/
theorem renew (h : Coherent D promises start s) {handler : Handler σ κ ε ρ}
    {promise : Promise σ ε ρ} (hnew : s.parties i = ⟨some handler, []⟩)
    (hnone : ∀ e ∈ s.ledger, e.1 ≠ i)
    (hsound : handler.Sound D promise [] s.rows) :
    Coherent D (Function.update promises i promise) start s where
  valid := h.valid
  ledger := h.ledger
  promised := by
    intro e he
    rw [Function.update_of_ne (hnone e he)]
    exact h.promised e he
  sound := by
    intro j rest hrest
    by_cases hj : j = i
    · subst hj
      rw [hnew] at hrest ⊢
      obtain rfl := Option.some.inj hrest
      rw [Function.update_self]
      exact hsound
    · rw [Function.update_of_ne hj]
      exact h.sound j rest hrest
  exclusive := h.exclusive

omit [DecidableEq ι] in
/-- An answer is one that was promised. -/
lemma answered (h : Coherent D promises start s) {result : ρ}
    (hanswer : (s.parties i).rest = some (.answer result)) :
    (promises i).answers result s.rows :=
  h.sound i _ hanswer _ (D.later_refl _ _)

end Coherent

/-! ### The moments of a handler -/

section Moments

variable {s s' : Backend ι σ κ ε ρ} {i : ι} {events : List ι}

/-- A step of another handler leaves this one where it stands. -/
lemma HandlerStep.parties_of_ne {j : ι} (h : HandlerStep s j s') (hne : i ≠ j) :
    s'.parties i = s.parties i := by
  cases h <;> simp [Backend.move, Backend.commit, Function.update_of_ne hne]

/-- A handler whose connection was lost stays lost. -/
lemma lost_of_trace (h : Trace HandlerStep s events s') (hlost : (s.parties i).rest = none) :
    (s'.parties i).rest = none := by
  refine h.inv (I := fun t => (t.parties i).rest = none) hlost fun j _ t t' ht hstep => ?_
  by_cases hj : i = j
  · subst hj
    cases hstep with
    | lose => simp [Backend.move]
    | read hparty | lock hparty | commit hparty | refuse hparty | release hparty =>
      rw [hparty] at ht
      cases ht
  · rw [hstep.parties_of_ne hj]
    exact ht

/-- **What an answered handler has read** is what was committed at a moment of the run, when it took
its next step.

**Proof sketch.** By induction on the run: the steps of others leave the handler where it stands,
and a handler whose connection is lost gives no answer. -/
theorem read_of_answered (h : Trace HandlerStep s events s') {next : σ → Handler σ κ ε ρ}
    {held : List κ} (hparty : s.parties i = ⟨some (.read next), held⟩) {result : ρ}
    (hanswer : (s'.parties i).rest = some (.answer result)) :
    ∃ (before after : List ι) (u u' : Backend ι σ κ ε ρ), events = before ++ i :: after ∧
      i ∉ before ∧ Trace HandlerStep s before u ∧ u.parties i = ⟨some (.read next), held⟩ ∧
      HandlerStep u i u' ∧ u'.parties i = ⟨some (next u.rows), held⟩ ∧
      Trace HandlerStep u' after s' := by
  induction h with
  | nil t =>
    rw [hparty] at hanswer
    cases hanswer
  | @cons t t' t'' j events head tail ih =>
    by_cases hj : i = j
    · subst hj
      cases head with
      | @read next' held' hparty' =>
        obtain ⟨rfl, rfl⟩ : next = next' ∧ held = held' := by simpa [hparty] using hparty'
        exact ⟨[], events, t, _, rfl, List.not_mem_nil, .nil t, hparty, .read hparty,
          by simp [Backend.move], tail⟩
      | lose =>
        have hlost := lost_of_trace (i := i) tail (by simp [Backend.move])
        rw [hlost] at hanswer
        cases hanswer
      | lock hparty' | commit hparty' | refuse hparty' | release hparty' =>
        rw [hparty] at hparty'
        cases hparty'
    · obtain ⟨before, after, u, u', rfl, hnew, hbefore, hrest⟩ :=
        ih (by rw [head.parties_of_ne hj, hparty]) hanswer
      refine ⟨j :: before, after, u, u', rfl, ?_, .cons head hbefore, hrest⟩
      exact fun hmem => (List.mem_cons.mp hmem).elim hj hnew

/-- An answer stays the same. -/
lemma answer_of_answered (h : Trace HandlerStep s events s') {result result' : ρ}
    (hrest : (s.parties i).rest = some (.answer result))
    (hanswer : (s'.parties i).rest = some (.answer result')) : result' = result := by
  have hstays : (s'.parties i).rest = some (.answer result) ∨ (s'.parties i).rest = none := by
    refine h.inv (I := fun t => (t.parties i).rest = some (.answer result) ∨
      (t.parties i).rest = none) (Or.inl hrest) fun j _ t t' ht hstep => ?_
    by_cases hj : i = j
    · subst hj
      cases hstep with
      | lose => exact Or.inr (by simp [Backend.move])
      | release hparty =>
        left
        rw [hparty] at ht
        simpa [Backend.move] using ht
      | read hparty | lock hparty | commit hparty | refuse hparty =>
        rw [hparty] at ht
        rcases ht with ht | ht <;> cases ht
    · rw [hstep.parties_of_ne hj]
      exact ht
  rw [hanswer] at hstays
  rcases hstays with hsame | hnone
  · cases hsame
    rfl
  · cases hnone

end Moments

/-! ### A handler without others -/

/-- What remains when a handler without others has come to its answer. -/
structure Handler.Outcome (σ ε ρ : Type) where
  answer : ρ
  rows : σ
  effects : List ε

/-- A handler without others. -/
def Handler.alone : Handler σ κ ε ρ → σ → Handler.Outcome σ ε ρ
  | .answer r, s => ⟨r, s, []⟩
  | .read next, s => (next s).alone s
  | .lock _ next, s => (next s).alone s
  | .commit effect _ write next refused, s =>
    match write s with
    | some s' => { next.alone s' with effects := effect :: (next.alone s').effects }
    | none => refused.alone s

/-- The backend when a handler has come to its answer without others. -/
def Backend.finish (s : Backend ι σ κ ε ρ) (i : ι) (handler : Handler σ κ ε ρ) :
    Backend ι σ κ ε ρ where
  rows := (handler.alone s.rows).rows
  parties := Function.update s.parties i ⟨some (.answer (handler.alone s.rows).answer), []⟩
  ledger := s.ledger ++ (handler.alone s.rows).effects.map fun e => (i, e)

/-- Every row is free for a handler after it went on. -/
lemma Backend.free_move {s : Backend ι σ κ ε ρ} {i : ι} (hfree : ∀ k, s.Free i k)
    (rest : Option (Handler σ κ ε ρ)) (held : List κ) : ∀ k, (s.move i rest held).Free i k := by
  intro k j hj
  simp only [Backend.move, Function.update_of_ne hj]
  exact hfree k j hj

/-- Every row is free for a handler after it committed. -/
lemma Backend.free_commit {s : Backend ι σ κ ε ρ} {i : ι} (hfree : ∀ k, s.Free i k) (effect : ε)
    (rows : σ) (next : Handler σ κ ε ρ) : ∀ k, (s.commit i effect rows next).Free i k := by
  intro k j hj
  simp only [Backend.commit, Function.update_of_ne hj]
  exact hfree k j hj

/-- **A handler without others** is a run of the backend, if nobody else holds a lock.

**Proof sketch.** By induction on the handler; every step it takes is possible, as every row is
free. -/
theorem alone_handled (handler : Handler σ κ ε ρ) (s : Backend ι σ κ ε ρ) (i : ι) (held : List κ)
    (hfree : ∀ k, s.Free i k) (hparty : s.parties i = ⟨some handler, held⟩) :
    ∃ events, Trace HandlerStep s events (s.finish i handler) := by
  induction handler generalizing s held with
  | answer r =>
    refine ⟨[i], .cons (.release hparty) ?_⟩
    have hfinish : s.move i (some (.answer r)) [] = s.finish i (.answer r) := by
      simp [Backend.move, Backend.finish, Handler.alone]
    rw [hfinish]
    exact .nil _
  | read next ih =>
    obtain ⟨events, htrace⟩ := ih s.rows (s.move i (some (next s.rows)) held) held
      (Backend.free_move hfree _ _) (by simp [Backend.move])
    refine ⟨i :: events, .cons (.read hparty) ?_⟩
    simpa [Backend.finish, Backend.move, Handler.alone] using htrace
  | lock row next ih =>
    obtain ⟨events, htrace⟩ := ih s.rows
      (s.move i (some (next s.rows)) ((row s.rows).toList ++ held)) _
      (Backend.free_move hfree _ _) (by simp [Backend.move]; rfl)
    refine ⟨i :: events, .cons (.lock hparty fun k _ => hfree k) ?_⟩
    simpa [Backend.finish, Backend.move, Handler.alone] using htrace
  | commit effect touched write next refused ih ihrefused =>
    cases hwrite : write s.rows with
    | some rows =>
      obtain ⟨events, htrace⟩ := ih (s.commit i effect rows next) []
        (Backend.free_commit hfree _ _ _) (by simp [Backend.commit])
      refine ⟨i :: events, .cons (.commit hparty (fun k _ => hfree k) hwrite) ?_⟩
      simpa [Backend.finish, Backend.commit, Handler.alone, hwrite] using htrace
    | none =>
      obtain ⟨events, htrace⟩ := ihrefused (s.move i (some refused) []) []
        (Backend.free_move hfree _ _) (by simp [Backend.move])
      refine ⟨i :: events, .cons (.refuse hparty hwrite) ?_⟩
      simpa [Backend.finish, Backend.move, Handler.alone, hwrite] using htrace

omit [DecidableEq ι] in
/-- Every row is free while nobody holds a lock. -/
lemma Backend.free_of_quiet {s : Backend ι σ κ ε ρ} (hquiet : ∀ j, (s.parties j).held = []) (i : ι)
    (k : κ) : s.Free i k := by
  intro j _
  rw [hquiet j]
  exact List.not_mem_nil

/-- Nobody holds a lock after a handler has come to its answer. -/
lemma Backend.quiet_finish {s : Backend ι σ κ ε ρ} (hquiet : ∀ j, (s.parties j).held = []) (i : ι)
    (handler : Handler σ κ ε ρ) : ∀ j, ((s.finish i handler).parties j).held = [] := by
  intro j
  by_cases hj : j = i
  · simp [Backend.finish, hj]
  · simpa [Backend.finish, hj] using hquiet j

/-- Handlers one after another. -/
def Backend.serve (program : ι → Handler σ κ ε ρ) : List ι → Backend ι σ κ ε ρ → Backend ι σ κ ε ρ
  | [], s => s
  | i :: is, s => Backend.serve program is (s.finish i (program i))

/-- Nobody holds a lock after handlers have come to their answers. -/
lemma Backend.quiet_serve (program : ι → Handler σ κ ε ρ) (is : List ι) {s : Backend ι σ κ ε ρ}
    (hquiet : ∀ j, (s.parties j).held = []) :
    ∀ j, ((Backend.serve program is s).parties j).held = [] := by
  induction is generalizing s with
  | nil => exact hquiet
  | cons i is ih => exact ih (Backend.quiet_finish hquiet i _)

/-- **Handlers one after another** are a run of the backend. -/
theorem serve_trace (program : ι → Handler σ κ ε ρ) {is : List ι} (hnodup : is.Nodup)
    {s : Backend ι σ κ ε ρ} (hquiet : ∀ j, (s.parties j).held = [])
    (hnew : ∀ i ∈ is, s.parties i = ⟨some (program i), []⟩) :
    ∃ events, Trace HandlerStep s events (Backend.serve program is s) := by
  induction is generalizing s with
  | nil => exact ⟨[], .nil s⟩
  | cons i is ih =>
    rw [List.forall_mem_cons] at hnew
    obtain ⟨first, hfirst⟩ := alone_handled (program i) s i []
      (Backend.free_of_quiet hquiet i) hnew.1
    obtain ⟨hi, hrest⟩ := List.nodup_cons.mp hnodup
    obtain ⟨rest, hlast⟩ := ih hrest (Backend.quiet_finish hquiet i _) fun j hj => by
      have hne : j ≠ i := by
        rintro rfl
        exact hi hj
      simpa [Backend.finish, Function.update_of_ne hne] using hnew.2 j hj
    exact ⟨first ++ rest, Trace.append_iff.mpr ⟨_, hfirst, hlast⟩⟩

/-! ### Handlers that only read -/

/-- The answer of a handler that only reads, when its reads find these rows. -/
def Handler.watching : Handler σ κ ε ρ → List σ → Option ρ
  | .answer r, _ => some r
  | .read next, s :: rest => (next s).watching rest
  | _, _ => none

end Program
