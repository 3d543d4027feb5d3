import Mathlib.Data.List.Perm.Basic
import Mathlib.Logic.Function.Basic
import VitrialSync.Program.System

set_option relaxedAutoImplicit false
set_option autoImplicit false

/-!
# Sessions on a table of rows

A session reads and inserts rows of one table in transactions, next to other sessions. Its isolation
is that of `READ COMMITTED`: every query sees the rows that are committed at that moment and those
that its own transaction has inserted. A unique constraint is given as a relation between two rows
that must not both be there. An insert next to an uncommitted row of another session that conflicts
with it waits until that row is committed or gone; a conflict with a visible row makes it fail, and
the transaction with it. Rows are not updated or deleted.

What a session may insert can depend on rows that it has seen. Since rows only come, these rows are
still there when its own are committed.

## Main definitions

* `Program.Session` — what a session does.
* `Program.Tables`, `Program.TxnStep` — the committed rows, the open sessions, and their steps.
* `Program.Session.Sound` — a session inserts only what the rows that it has seen justify.
* `Program.Session.runAlone` — a session without others.

## Main results

* `Program.Session.Sound.bind` — sessions one after the other.
* `Program.committed_stays` — a committed row stays.
* `Program.TxnStep.lawful` — committed rows have no conflicts, and each is justified by those before
  it.
* `Program.runAlone_trace` — a session without others is a run of the system.
-/

namespace Program

/-! ### Sessions -/

/-- What a session does with the rows of the table: `α` are the rows, `τ` what the database adds to
an inserted row, `ρ` the results. -/
inductive Session (α τ ρ : Type) where
  | done (result : ρ)
  /-- A query for the rows that satisfy a condition, in no fixed order. -/
  | select (p : α → Bool) (next : List α → Session α τ ρ)
  | insert (row : τ → α) (added : α → Session α τ ρ) (refused : Session α τ ρ)
  | commit (next : Session α τ ρ)
  | rollback (next : Session α τ ρ)

namespace Session

variable {α τ ρ σ : Type}

/-- Sessions one after the other. -/
def bind : Session α τ ρ → (ρ → Session α τ σ) → Session α τ σ
  | done r, f => f r
  | select p next, f => select p fun rows => bind (next rows) f
  | insert row added refused, f => insert row (fun a => bind (added a) f) (bind refused f)
  | commit next, f => commit (bind next f)
  | rollback next, f => rollback (bind next f)

/-- Sessions form a monad. -/
instance : Monad (Session α τ) where
  pure := done
  bind := bind

/-! ### Rows that justify others -/

/-- The session inserts only rows that are justified by the ones it has seen, and ends with a result
for which `post` holds. A failed insert and a rollback forget what was seen. -/
def Sound (justifies : List α → α → Prop) :
    Session α τ ρ → List α → (List α → ρ → Prop) → Prop
  | done r, seen, post => post seen r
  | select p next, seen, post => ∀ rows : List α, (∀ a ∈ rows, p a = true) →
      Sound justifies (next rows) (rows ++ seen) post
  | insert row added refused, seen, post =>
      (∀ t, justifies seen (row t) ∧ Sound justifies (added (row t)) (row t :: seen) post) ∧
        Sound justifies refused [] post
  | commit next, seen, post => Sound justifies next seen post
  | rollback next, _, post => Sound justifies next [] post

variable {justifies : List α → α → Prop}

/-- A weaker statement on the result. -/
lemma Sound.imp {s : Session α τ ρ} {seen : List α} {post post' : List α → ρ → Prop}
    (h : s.Sound justifies seen post) (himp : ∀ seen r, post seen r → post' seen r) :
    s.Sound justifies seen post' := by
  induction s generalizing seen with
  | done r => exact himp seen r h
  | select p next ih => exact fun rows hrows => ih rows (h rows hrows)
  | insert row added refused iha ihr =>
    exact ⟨fun t => ⟨(h.1 t).1, iha _ (h.1 t).2⟩, ihr h.2⟩
  | commit next ih => exact ih h
  | rollback next ih => exact ih h

/-- **Sessions one after the other.** -/
theorem Sound.bind {s : Session α τ ρ} {f : ρ → Session α τ σ} {seen : List α}
    {post : List α → σ → Prop}
    (h : s.Sound justifies seen fun seen' r => (f r).Sound justifies seen' post) :
    (s >>= f).Sound justifies seen post := by
  induction s generalizing seen with
  | done r => exact h
  | select p next ih => exact fun rows hrows => ih rows (h rows hrows)
  | insert row added refused iha ihr =>
    exact ⟨fun t => ⟨(h.1 t).1, iha _ (h.1 t).2⟩, ihr h.2⟩
  | commit next ih => exact ih h
  | rollback next ih => exact ih h

/-- Sessions that can raise, one after the other. -/
lemma Sound.bindE {ε : Type} {s : ExceptT ε (Session α τ) ρ} {f : ρ → ExceptT ε (Session α τ) σ}
    {seen : List α} {post : List α → Except ε σ → Prop}
    (h : s.run.Sound justifies seen fun seen' r =>
      match r with
      | .ok a => (f a).run.Sound justifies seen' post
      | .error e => post seen' (.error e)) :
    (s >>= f).run.Sound justifies seen post := by
  refine Sound.bind (h.imp fun seen' r hr => ?_)
  cases r with
  | ok a => exact hr
  | error e => exact hr

end Session

/-! ### The system -/

variable {α τ ρ ι : Type}

/-- An open session: what it will do, and the rows that its transaction has inserted. -/
structure Party (α τ ρ : Type) where
  session : Session α τ ρ
  added : List α

/-- The committed rows and the open sessions. -/
structure Tables (ι α τ ρ : Type) where
  committed : List α
  parties : ι → Option (Party α τ ρ)

/-- The rows that an open session sees. -/
def Tables.visible (s : Tables ι α τ ρ) (q : Party α τ ρ) : List α := s.committed ++ q.added

/-- No session is open. -/
def Tables.quiet (committed : List α) : Tables ι α τ ρ := ⟨committed, fun _ => none⟩

/-- The rows of a state without open sessions. -/
@[simp]
lemma Tables.quiet_committed (committed : List α) :
    (Tables.quiet committed : Tables ι α τ ρ).committed = committed := rfl

/-- The steps of the system; the label is the session that takes the step. A session that starts is
one that is `allowed`, and two rows with `conflict` cannot both be in the table. -/
inductive TxnStep [DecidableEq ι] (conflict : α → α → Prop) (allowed : Session α τ ρ → Prop) :
    Tables ι α τ ρ → ι → Tables ι α τ ρ → Prop
  | start {s : Tables ι α τ ρ} {i : ι} {session : Session α τ ρ} (hfree : s.parties i = none)
      (hallowed : allowed session) :
      TxnStep conflict allowed s i
        { s with parties := Function.update s.parties i (some ⟨session, []⟩) }
  | select {s : Tables ι α τ ρ} {i : ι} {p : α → Bool} {next : List α → Session α τ ρ}
      {added rows : List α} (hparty : s.parties i = some ⟨.select p next, added⟩)
      (hrows : rows.Perm ((s.committed ++ added).filter p)) :
      TxnStep conflict allowed s i
        { s with parties := Function.update s.parties i (some ⟨next rows, added⟩) }
  | insert {s : Tables ι α τ ρ} {i : ι} {row : τ → α} {next : α → Session α τ ρ}
      {refused : Session α τ ρ} {added : List α} (t : τ)
      (hparty : s.parties i = some ⟨.insert row next refused, added⟩)
      (hcommitted : ∀ a ∈ s.committed, ¬ conflict a (row t))
      (hopen : ∀ j q, s.parties j = some q → ∀ a ∈ q.added, ¬ conflict a (row t)) :
      TxnStep conflict allowed s i
        { s with
          parties := Function.update s.parties i (some ⟨next (row t), added ++ [row t]⟩) }
  /-- The insert fails, and with it the transaction. -/
  | refuse {s : Tables ι α τ ρ} {i : ι} {row : τ → α} {next : α → Session α τ ρ}
      {refused : Session α τ ρ} {added : List α} (t : τ) (a : α)
      (hparty : s.parties i = some ⟨.insert row next refused, added⟩)
      (hvisible : a ∈ s.committed ++ added) (hconflict : conflict a (row t)) :
      TxnStep conflict allowed s i
        { s with parties := Function.update s.parties i (some ⟨refused, []⟩) }
  | commit {s : Tables ι α τ ρ} {i : ι} {next : Session α τ ρ} {added : List α}
      (hparty : s.parties i = some ⟨.commit next, added⟩) :
      TxnStep conflict allowed s i
        { committed := s.committed ++ added
          parties := Function.update s.parties i (some ⟨next, []⟩) }
  | rollback {s : Tables ι α τ ρ} {i : ι} {next : Session α τ ρ} {added : List α}
      (hparty : s.parties i = some ⟨.rollback next, added⟩) :
      TxnStep conflict allowed s i
        { s with parties := Function.update s.parties i (some ⟨next, []⟩) }
  /-- The session ends, or the connection is lost: what was not committed is gone. -/
  | close {s : Tables ι α τ ρ} {i : ι} {q : Party α τ ρ} (hparty : s.parties i = some q) :
      TxnStep conflict allowed s i { s with parties := Function.update s.parties i none }

variable [DecidableEq ι] {conflict : α → α → Prop} {allowed : Session α τ ρ → Prop}

/-- A step adds committed rows at the end. -/
lemma TxnStep.committed_stays {s s' : Tables ι α τ ρ} {i : ι}
    (h : TxnStep conflict allowed s i s') : s.committed <+: s'.committed := by
  cases h with
  | commit hparty => exact List.prefix_append _ _
  | _ => exact List.prefix_rfl

/-- **A committed row stays**, unchanged and at its place. -/
theorem committed_stays {s s' : Tables ι α τ ρ} {events : List ι}
    (h : Trace (TxnStep conflict allowed) s events s') : s.committed <+: s'.committed := by
  induction h with
  | nil s => exact List.prefix_rfl
  | cons head tail ih => exact head.committed_stays.trans ih

/-! ### Lawful states -/

/-- Each row of a list is justified by the ones before it. -/
def Justified (justifies : List α → α → Prop) (rows : List α) : Prop :=
  ∀ before a after, rows = before ++ a :: after → justifies before a

section Lawful

variable {justifies : List α → α → Prop}

/-- A row is added at the end. -/
lemma Justified.concat {rows : List α} {a : α} (h : Justified justifies rows)
    (ha : justifies rows a) : Justified justifies (rows ++ [a]) := by
  intro before b after hsplit
  rcases List.eq_nil_or_concat after with rfl | ⟨after, c, rfl⟩
  · obtain ⟨rfl, hb⟩ := List.append_inj' hsplit rfl
    cases hb
    exact ha
  · rw [List.concat_eq_append, ← List.cons_append, ← List.append_assoc] at hsplit
    exact h before b after (List.append_inj_left' hsplit rfl)

/-- A first part of the rows. -/
lemma Justified.left {rows more : List α} (h : Justified justifies (rows ++ more)) :
    Justified justifies rows := by
  intro before a after hsplit
  refine h before a (after ++ more) ?_
  rw [hsplit, List.append_assoc, List.cons_append]

/-- Rows that were justified by others stay so when more rows come between.

**Proof sketch.** By induction on the rows at the end. -/
lemma Justified.insert (hmono : ∀ seen seen' a, seen ⊆ seen' → justifies seen a → justifies seen' a)
    {rows between more : List α} (h : Justified justifies (rows ++ more))
    (hbetween : Justified justifies (rows ++ between)) :
    Justified justifies (rows ++ between ++ more) := by
  induction more using List.reverseRecOn with
  | nil => rwa [List.append_nil]
  | append_singleton more a ih =>
    rw [← List.append_assoc] at h ⊢
    refine (ih h.left).concat (hmono _ _ a ?_ (h (rows ++ more) a [] rfl))
    exact List.append_subset.mpr
      ⟨List.subset_append_of_subset_left _ (List.subset_append_left _ _),
        List.subset_append_right _ _⟩

/-- **Invariant.** The rows that a session sees have no conflicts and each is justified by those
before it; the uncommitted rows of two sessions have no conflicts; and what an open session will do
is sound after the rows that it has seen, which are still there. -/
structure Tables.Lawful (conflict : α → α → Prop) (justifies : List α → α → Prop)
    (s : Tables ι α τ ρ) : Prop where
  distinct : s.committed.Pairwise fun a b => ¬ conflict a b
  justified : Justified justifies s.committed
  own : ∀ i q, s.parties i = some q → (s.visible q).Pairwise (fun a b => ¬ conflict a b) ∧
    Justified justifies (s.visible q) ∧
    ∃ seen, seen ⊆ s.visible q ∧ q.session.Sound justifies seen fun _ _ => True
  apart : ∀ i j q r, i ≠ j → s.parties i = some q → s.parties j = some r →
    ∀ a ∈ q.added, ∀ b ∈ r.added, ¬ conflict a b

omit [DecidableEq ι] in
/-- A state without open sessions. -/
lemma Tables.Lawful.quiet {committed : List α}
    (hdistinct : committed.Pairwise fun a b => ¬ conflict a b)
    (hjustified : Justified justifies committed) :
    (Tables.quiet committed : Tables ι α τ ρ).Lawful conflict justifies := by
  refine ⟨hdistinct, hjustified, fun i q hq => ?_, fun i j q r _ hq => ?_⟩
  · cases hq
  · cases hq

/-- A session goes on with the rows that it has, or with fewer.

**Proof sketch.** The committed rows and the other sessions are the same. -/
lemma Tables.Lawful.update {s : Tables ι α τ ρ} (h : s.Lawful conflict justifies) {i : ι}
    {q : Party α τ ρ}
    (hown : (s.visible q).Pairwise (fun a b => ¬ conflict a b) ∧
      Justified justifies (s.visible q) ∧
      ∃ seen, seen ⊆ s.visible q ∧ q.session.Sound justifies seen fun _ _ => True)
    (hapart : ∀ j r, j ≠ i → s.parties j = some r → ∀ a ∈ q.added, ∀ b ∈ r.added,
      ¬ conflict a b ∧ ¬ conflict b a) :
    Tables.Lawful conflict justifies
      { s with parties := Function.update s.parties i (some q) } := by
  refine ⟨h.distinct, h.justified, fun j r hr => ?_, fun j k r t hne hr ht => ?_⟩
  · by_cases hj : j = i
    · subst hj
      obtain rfl := Option.some.inj ((Function.update_self j (some q) s.parties).symm.trans hr)
      exact hown
    · dsimp only at hr
      rw [Function.update_of_ne hj] at hr
      exact h.own j r hr
  · dsimp only at hr ht
    by_cases hj : j = i
    · subst hj
      rw [Function.update_self, Option.some.injEq] at hr
      rw [Function.update_of_ne hne.symm] at ht
      subst hr
      exact fun a ha b hb => (hapart k t hne.symm ht a ha b hb).1
    · rw [Function.update_of_ne hj] at hr
      by_cases hk : k = i
      · subst hk
        rw [Function.update_self, Option.some.injEq] at ht
        subst ht
        exact fun a ha b hb => (hapart j r hj hr b hb a ha).2
      · rw [Function.update_of_ne hk] at ht
        exact h.apart j k r t hne hr ht

/-- **Step.** Every step keeps a state lawful.

**Proof sketch.** A query only adds to what a session has seen. An inserted row was compared with
the committed rows and with those of all open sessions, and the session was sound, so it is
justified by rows that are still there. A commit moves rows to the end of the committed ones, before
the rows of every other session, which have no conflicts with them. -/
theorem TxnStep.lawful (hsymm : ∀ a b, conflict a b → conflict b a)
    (hmono : ∀ seen seen' a, seen ⊆ seen' → justifies seen a → justifies seen' a)
    (hallowed : ∀ session, allowed session → session.Sound justifies [] fun _ _ => True)
    {s s' : Tables ι α τ ρ} {i : ι} (hstep : TxnStep conflict allowed s i s')
    (h : s.Lawful conflict justifies) : s'.Lawful conflict justifies := by
  have hgone : ∀ session : Session α τ ρ, session.Sound justifies [] (fun _ _ => True) →
      Tables.Lawful conflict justifies
        { s with parties := Function.update s.parties i (some ⟨session, []⟩) } := by
    intro session hsound
    refine h.update ?_ (by simp)
    rw [Tables.visible, List.append_nil]
    exact ⟨h.distinct, h.justified, [], List.nil_subset _, hsound⟩
  cases hstep with
  | start hfree hallow => exact hgone _ (hallowed _ hallow)
  | select hparty hrows =>
    rename_i p next added rows
    obtain ⟨hdistinct, hjustified, seen, hseen, hsound⟩ := h.own i _ hparty
    refine h.update ⟨hdistinct, hjustified, rows ++ seen, ?_, hsound rows fun a ha => ?_⟩ ?_
    · refine List.append_subset.mpr ⟨fun a ha => ?_, hseen⟩
      exact (List.mem_filter.mp (hrows.mem_iff.mp ha)).1
    · exact (List.mem_filter.mp (hrows.mem_iff.mp ha)).2
    · intro j r hj hr a ha b hb
      exact ⟨h.apart i j _ r hj.symm hparty hr a ha b hb,
        fun hba => h.apart j i r _ hj hr hparty b hb a ha hba⟩
  | insert t hparty hcommitted hopen =>
    rename_i row next refused added
    obtain ⟨hdistinct, hjustified, seen, hseen, hsound⟩ := h.own i _ hparty
    have hnew : ∀ a ∈ s.committed ++ added, ¬ conflict a (row t) :=
      List.forall_mem_append.mpr ⟨hcommitted, hopen i _ hparty⟩
    refine h.update ⟨?_, ?_, row t :: seen, ?_, (hsound.1 t).2⟩ ?_
    · rw [Tables.visible, ← List.append_assoc]
      refine List.pairwise_append.mpr ⟨hdistinct, List.pairwise_singleton _ _, fun a ha b hb => ?_⟩
      rw [List.mem_singleton.mp hb]
      exact hnew a ha
    · rw [Tables.visible, ← List.append_assoc]
      exact hjustified.concat (hmono _ _ _ hseen (hsound.1 t).1)
    · rw [Tables.visible, ← List.append_assoc]
      exact List.cons_subset.mpr ⟨by simp, List.subset_append_of_subset_left _ hseen⟩
    · intro j r hj hr a ha b hb
      rcases List.mem_append.mp ha with ha | ha
      · exact ⟨h.apart i j _ r hj.symm hparty hr a ha b hb,
          h.apart j i r _ hj hr hparty b hb a ha⟩
      · rw [List.mem_singleton.mp ha]
        exact ⟨fun hab => hopen j r hr b hb (hsymm _ _ hab), hopen j r hr b hb⟩
  | refuse t a hparty hvisible hconflict =>
    obtain ⟨-, -, seen, -, hsound⟩ := h.own i _ hparty
    exact hgone _ hsound.2
  | rollback hparty =>
    obtain ⟨-, -, seen, -, hsound⟩ := h.own i _ hparty
    exact hgone _ hsound
  | close hparty =>
    refine ⟨h.distinct, h.justified, fun j r hr => ?_, fun j k r t hne hr ht => ?_⟩
    · dsimp only at hr
      by_cases hj : j = i
      · subst hj
        rw [Function.update_self] at hr
        cases hr
      · rw [Function.update_of_ne hj] at hr
        exact h.own j r hr
    · dsimp only at hr ht
      by_cases hj : j = i
      · subst hj
        rw [Function.update_self] at hr
        cases hr
      · by_cases hk : k = i
        · subst hk
          rw [Function.update_self] at ht
          cases ht
        · rw [Function.update_of_ne hj] at hr
          rw [Function.update_of_ne hk] at ht
          exact h.apart j k r t hne hr ht
  | commit hparty =>
    rename_i next added
    obtain ⟨hdistinct, hjustified, seen, hseen, hsound⟩ := h.own i _ hparty
    refine ⟨hdistinct, hjustified, fun j r hr => ?_, fun j k r t hne hr ht => ?_⟩
    · dsimp only at hr
      by_cases hj : j = i
      · subst hj
        rw [Function.update_self, Option.some.injEq] at hr
        subst hr
        simp only [Tables.visible, List.append_nil]
        exact ⟨hdistinct, hjustified, seen, hseen, hsound⟩
      · rw [Function.update_of_ne hj] at hr
        obtain ⟨hdistinct', hjustified', seen', hseen', hsound'⟩ := h.own j r hr
        refine ⟨?_, hjustified'.insert hmono hjustified, seen', ?_, hsound'⟩
        · have hparts := List.pairwise_append.mp hdistinct'
          refine List.pairwise_append.mpr ⟨hdistinct, hparts.2.1, fun a ha b hb => ?_⟩
          rcases List.mem_append.mp ha with ha | ha
          · exact hparts.2.2 a ha b hb
          · exact h.apart i j _ r (Ne.symm hj) hparty hr a ha b hb
        · refine fun a ha => ?_
          rcases List.mem_append.mp (hseen' ha) with ha | ha
          · exact List.mem_append_left _ (List.mem_append_left _ ha)
          · exact List.mem_append_right _ ha
    · dsimp only at hr ht
      have hkeep : ∀ l u, Function.update s.parties i (some ⟨next, []⟩) l = some u →
          ∀ a ∈ u.added, ∃ v, s.parties l = some v ∧ a ∈ v.added := by
        intro l u hu a ha
        by_cases hl : l = i
        · subst hl
          rw [Function.update_self, Option.some.injEq] at hu
          subst hu
          cases ha
        · rw [Function.update_of_ne hl] at hu
          exact ⟨u, hu, ha⟩
      intro a ha b hb
      obtain ⟨r', hr', ha'⟩ := hkeep j r hr a ha
      obtain ⟨t', ht', hb'⟩ := hkeep k t ht b hb
      exact h.apart j k r' t' hne hr' ht' a ha' b hb'

/-- **Every reachable state is lawful.** -/
theorem lawful_of_trace (hsymm : ∀ a b, conflict a b → conflict b a)
    (hmono : ∀ seen seen' a, seen ⊆ seen' → justifies seen a → justifies seen' a)
    (hallowed : ∀ session, allowed session → session.Sound justifies [] fun _ _ => True)
    {s s' : Tables ι α τ ρ} {events : List ι}
    (htrace : Trace (TxnStep conflict allowed) s events s')
    (h : s.Lawful conflict justifies) : s'.Lawful conflict justifies :=
  htrace.inv h fun _ _ _ _ ht hstep => hstep.lawful hsymm hmono hallowed ht

end Lawful

/-! ### A session alone -/

variable (conflict) in
/-- The result of a session that runs alone at a fixed time, and the rows that are committed then.
A query returns the rows in the order of the table. -/
def Session.runAlone [DecidableRel conflict] (time : τ) :
    Session α τ ρ → List α → List α → ρ × List α
  | .done r, committed, _ => (r, committed)
  | .select p next, committed, added =>
    runAlone time (next ((committed ++ added).filter p)) committed added
  | .insert row next refused, committed, added =>
    if ∃ a ∈ committed ++ added, conflict a (row time) then runAlone time refused committed []
    else runAlone time (next (row time)) committed (added ++ [row time])
  | .commit next, committed, added => runAlone time next (committed ++ added) []
  | .rollback next, committed, _ => runAlone time next committed []

/-- **A session alone** is a run of the system.

**Proof sketch.** By induction on the session; no other session is open, so every insert is decided
by the rows that the session sees. -/
theorem runAlone_trace [DecidableRel conflict] (time : τ) (i : ι) (session : Session α τ ρ)
    (committed added : List α) :
    ∃ events, Trace (TxnStep conflict allowed)
      ⟨committed, Function.update (fun _ => none) i (some ⟨session, added⟩)⟩ events
      (Tables.quiet (session.runAlone conflict time committed added).2) := by
  have hparty : ∀ q : Party α τ ρ,
      Function.update (fun _ : ι => (none : Option (Party α τ ρ))) i (some q) i = some q :=
    fun q => by simp
  have hstep : ∀ {c c' : List α} {q q' : Party α τ ρ} {s' : Tables ι α τ ρ},
      TxnStep conflict allowed ⟨c, Function.update (fun _ => none) i (some q)⟩ i
        ⟨c', Function.update (Function.update (fun _ => none) i (some q)) i (some q')⟩ →
      (∃ events, Trace (TxnStep conflict allowed)
        ⟨c', Function.update (fun _ => none) i (some q')⟩ events s') →
      ∃ events, Trace (TxnStep conflict allowed)
        ⟨c, Function.update (fun _ => none) i (some q)⟩ events s' := by
    rintro c c' q q' s' hfirst ⟨events, hrest⟩
    rw [Function.update_idem] at hfirst
    exact ⟨i :: events, .cons hfirst hrest⟩
  induction session generalizing committed added with
  | done r =>
    have hclose : TxnStep conflict allowed
        ⟨committed, Function.update (fun _ => none) i (some ⟨.done r, added⟩)⟩ i _ :=
      .close (hparty _)
    rw [Function.update_idem] at hclose
    refine ⟨[i], .cons hclose ?_⟩
    have hnone : Function.update (fun _ : ι => (none : Option (Party α τ ρ))) i none =
        fun _ => none := Function.update_eq_self i fun _ : ι => (none : Option (Party α τ ρ))
    rw [hnone]
    exact .nil _
  | select p next ih =>
    exact hstep (.select (hparty _) (List.Perm.refl _)) (ih _ committed added)
  | insert row next refused iha ihr =>
    by_cases hconflict : ∃ a ∈ committed ++ added, conflict a (row time)
    · obtain ⟨a, ha, hab⟩ := hconflict
      have hrun : (Session.insert row next refused).runAlone conflict time committed added =
          refused.runAlone conflict time committed [] := if_pos ⟨a, ha, hab⟩
      rw [hrun]
      exact hstep (.refuse time a (hparty _) ha hab) (ihr committed [])
    · have hrun : (Session.insert row next refused).runAlone conflict time committed added =
          (next (row time)).runAlone conflict time committed (added ++ [row time]) :=
        if_neg hconflict
      rw [hrun]
      have hfree : ∀ a ∈ committed ++ added, ¬ conflict a (row time) :=
        fun a ha hab => hconflict ⟨a, ha, hab⟩
      refine hstep (.insert time (hparty _)
        (fun a ha => hfree a (List.mem_append_left _ ha)) fun j q hq a ha => ?_)
        (iha _ committed (added ++ [row time]))
      dsimp only at hq
      by_cases hj : j = i
      · subst hj
        rw [hparty, Option.some.injEq] at hq
        subst hq
        exact hfree a (List.mem_append_right _ ha)
      · rw [Function.update_of_ne hj] at hq
        cases hq
  | commit next ih => exact hstep (.commit (hparty _)) (ih (committed ++ added) [])
  | rollback next ih => exact hstep (.rollback (hparty _)) (ih committed [])

/-- Sessions one after the other, each alone, are a run of the system. -/
lemma runAlone_traces [DecidableRel conflict] (time : τ) (i : ι) (sessions : List (Session α τ ρ))
    (hallowed : ∀ session ∈ sessions, allowed session) (committed : List α) :
    ∃ events, Trace (TxnStep conflict allowed) (Tables.quiet committed : Tables ι α τ ρ) events
      (Tables.quiet (sessions.foldl
        (fun rows session => (session.runAlone conflict time rows []).2) committed)) := by
  induction sessions generalizing committed with
  | nil => exact ⟨[], .nil _⟩
  | cons session sessions ih =>
    rw [List.forall_mem_cons] at hallowed
    obtain ⟨first, hfirst⟩ : ∃ events, Trace (TxnStep conflict allowed) _ events _ :=
      runAlone_trace time i session committed []
    obtain ⟨second, hsecond⟩ := ih hallowed.2 (session.runAlone conflict time committed []).2
    exact ⟨i :: (first ++ second), .cons (.start rfl hallowed.1)
      (Trace.append_iff.mpr ⟨_, hfirst, hsecond⟩)⟩

end Program
