import Mathlib.Data.List.Nodup
import VitrialSync.Program.System

set_option relaxedAutoImplicit false
set_option autoImplicit false

/-!
# Clients that read, decide and write

Several clients share a state. A client reads it in steps, decides on what it has read, and then
either answers or writes in steps and answers after the last one. Every step is atomic, and the steps
of the clients interleave.

Nothing here locks. Such clients serialize if no client takes a step while another one is writing,
and none changes the state while another one has begun.

## Main definitions

* `Program.Client`, `Program.Client.run` — a client, and the client by itself.
* `Program.Client.step`, `Program.ClientStep` — its steps, and those of a family of clients.
* `Program.serial` — clients one after another.
* `Program.Exclusive` — the steps of clients that keep apart.

## Main results

* `Program.Serialized.step` — a step of clients that keep apart keeps the serial order.
* `Program.serialized_of_trace` — so does every interleaving of them.
* `Program.serial_trace` — clients that run one after another keep apart.
* `Program.overlap_trace` — two clients can decide on one state before either of them writes.
-/

namespace Program

variable {σ ρ α ι : Type}

/-! ### Clients -/

/-- A client: the steps of its reading, and its decision, which is an answer or writes with the
answer after them. -/
structure Client (σ ρ α : Type) where
  start : ρ
  reads : List (σ → ρ → ρ)
  decide : ρ → α ⊕ List (σ → Option σ) × (σ → α)
  /-- The answer when a write is refused. -/
  failed : α

/-- Where a client is. -/
inductive Phase (σ ρ α : Type) where
  | reading (seen : ρ) (rest : List (σ → ρ → ρ))
  | writing (rest : List (σ → Option σ)) (finish : σ → α)
  | done (answer : α)

namespace Client

variable (c : Client σ ρ α)

/-- Before its first step. -/
def begin : Phase σ ρ α := .reading c.start c.reads

/-- The phase after the last read. -/
def decided (seen : ρ) : Phase σ ρ α :=
  match c.decide seen with
  | .inl answer => .done answer
  | .inr (writes, finish) => .writing writes finish

/-- A step of a client. -/
def step : Phase σ ρ α → σ → Option (Phase σ ρ α × σ)
  | .reading seen (read :: rest), s => some (.reading (read s seen) rest, s)
  | .reading seen [], s => some (c.decided seen, s)
  | .writing (write :: rest) finish, s =>
    match write s with
    | some s' => some (.writing rest finish, s')
    | none => some (.done c.failed, s)
  | .writing [] finish, s => some (.done (finish s), s)
  | .done _, _ => none

/-- The writes one after another, up to one that is refused. -/
def writeAll (finish : σ → α) : List (σ → Option σ) → σ → α × σ
  | [], s => (finish s, s)
  | write :: rest, s =>
    match write s with
    | some s' => writeAll finish rest s'
    | none => (c.failed, s)

/-- What some reads bring from one state. -/
def seenBy (reads : List (σ → ρ → ρ)) (s : σ) : ρ :=
  reads.foldl (fun seen read => read s seen) c.start

/-- The client by itself. -/
def run (s : σ) : α × σ :=
  match c.decide (c.seenBy c.reads s) with
  | .inl answer => (answer, s)
  | .inr (writes, finish) => c.writeAll finish writes s

end Client

/-- Some writes one after another. -/
def writes (list : List (σ → Option σ)) (s : σ) : Option σ :=
  list.foldlM (fun s write => write s) s

/-- One more write. -/
lemma writes_concat {list : List (σ → Option σ)} {write : σ → Option σ} {s s' s'' : σ}
    (h : writes list s = some s') (hwrite : write s' = some s'') :
    writes (list ++ [write]) s = some s'' := by
  rw [writes] at h ⊢
  rw [List.foldlM_append, h]
  simp [hwrite]

/-- Writes that are followed by others. -/
lemma Client.writeAll_append {c : Client σ ρ α} {finish : σ → α} {past rest : List (σ → Option σ)}
    {s s' : σ} (h : writes past s = some s') :
    c.writeAll finish (past ++ rest) s = c.writeAll finish rest s' := by
  induction past generalizing s with
  | nil =>
    cases h
    rfl
  | cons write past ih =>
    rw [writes, List.foldlM_cons, Option.bind_eq_bind, Option.bind_eq_some_iff] at h
    obtain ⟨s₁, hwrite, hpast⟩ := h
    rw [List.cons_append, Client.writeAll, hwrite]
    exact ih hpast

/-- Writes that are all served. -/
lemma Client.writeAll_of_writes {c : Client σ ρ α} {finish : σ → α} {list : List (σ → Option σ)}
    {s s' : σ} (h : writes list s = some s') : c.writeAll finish list s = (finish s', s') := by
  have hall : c.writeAll finish (list ++ []) s = c.writeAll finish [] s' :=
    Client.writeAll_append h
  rwa [List.append_nil] at hall

/-- The state after clients that run one after another. -/
def serial (clients : ι → Client σ ρ α) (order : List ι) (s : σ) : σ :=
  order.foldl (fun s i => ((clients i).run s).2) s

/-- One more client. -/
lemma serial_concat {clients : ι → Client σ ρ α} {order : List ι} {i : ι} {s : σ} :
    serial clients (order ++ [i]) s = ((clients i).run (serial clients order s)).2 := by
  rw [serial, List.foldl_append]
  rfl

/-! ### Interleavings -/

/-- The shared state, and where each client is. -/
structure Clients (ι σ ρ α : Type) where
  shared : σ
  phase : ι → Phase σ ρ α

variable {clients : ι → Client σ ρ α}

/-- Before the first step. -/
def Clients.init (clients : ι → Client σ ρ α) (s : σ) : Clients ι σ ρ α :=
  ⟨s, fun i => (clients i).begin⟩

/-- A step of one of the clients. -/
def ClientStep (clients : ι → Client σ ρ α) (t : Clients ι σ ρ α) (i : ι) (t' : Clients ι σ ρ α) :
    Prop :=
  (clients i).step (t.phase i) t.shared = some (t'.phase i, t'.shared) ∧
    ∀ j, j ≠ i → t'.phase j = t.phase j

/-- A step at which the clients keep apart: no other client is writing, and if the step changes the
state, no other client has begun without having answered. -/
structure Exclusive (clients : ι → Client σ ρ α) (t : Clients ι σ ρ α) (i : ι)
    (t' : Clients ι σ ρ α) : Prop where
  writers : ∀ j, j ≠ i → ∀ rest finish, t.phase j ≠ .writing rest finish
  readers : t'.shared ≠ t.shared → ∀ j, j ≠ i →
    t.phase j = (clients j).begin ∨ ∃ answer, t.phase j = .done answer

/-- The clients that answered are in a serial order: each answered as in that order, and what the
others have read or written is on the state that it leads to. -/
structure Serialized (clients : ι → Client σ ρ α) (s : σ) (order : List ι) (t : Clients ι σ ρ α) :
    Prop where
  nodup : order.Nodup
  answered : ∀ i, i ∈ order ↔ ∃ answer, t.phase i = .done answer
  answers : ∀ past i future, order = past ++ i :: future →
    t.phase i = .done ((clients i).run (serial clients past s)).1
  /-- A client that has begun to read has read the state of the order. -/
  reading : ∀ i seen rest, t.phase i = .reading seen rest →
    ∃ past, (clients i).reads = past ++ rest ∧
      seen = (clients i).seenBy past (serial clients order s)
  begun : ∀ i seen rest, t.phase i = .reading seen rest → t.phase i ≠ (clients i).begin →
    t.shared = serial clients order s
  /-- A client that is writing has decided on that state, and the shared state is what its writes
  made of it. -/
  writing : ∀ i rest finish, t.phase i = .writing rest finish →
    ∃ past, (clients i).decide ((clients i).seenBy (clients i).reads (serial clients order s)) =
        .inr (past ++ rest, finish) ∧
      writes past (serial clients order s) = some t.shared
  idle : (∀ i rest finish, t.phase i ≠ .writing rest finish) → t.shared = serial clients order s
  unique : ∀ i j rest finish rest' finish', t.phase i = .writing rest finish →
    t.phase j = .writing rest' finish' → i = j

/-- No client has begun. -/
lemma serialized_init (clients : ι → Client σ ρ α) (s : σ) :
    Serialized clients s [] (.init clients s) where
  nodup := List.nodup_nil
  answered := by simp [Clients.init, Client.begin]
  answers := by simp
  reading := by
    intro i seen rest h
    cases h
    exact ⟨[], rfl, rfl⟩
  begun := fun i seen rest _ hbegun => absurd rfl hbegun
  writing := by simp [Clients.init, Client.begin]
  idle := fun _ => rfl
  unique := by simp [Clients.init, Client.begin]

section Step

variable {s : σ} {order : List ι} {t t' : Clients ι σ ρ α} {i : ι}

/-- No client is writing when a client that is not takes a step. -/
lemma Serialized.shared_of_reader (h : Serialized clients s order t)
    (hexclusive : Exclusive clients t i t') (hi : ∀ rest finish, t.phase i ≠ .writing rest finish) :
    t.shared = serial clients order s := by
  refine h.idle fun j => ?_
  by_cases hj : j = i
  · subst hj
    exact hi
  · exact hexclusive.writers j hj

/-- A client that has begun sees no change of the shared state in the step of another. -/
lemma Exclusive.shared_of_begun (hexclusive : Exclusive clients t i t') {j : ι} (hj : j ≠ i)
    {seen : ρ} {rest : List (σ → ρ → ρ)} (hphase : t.phase j = .reading seen rest)
    (hbegun : t.phase j ≠ (clients j).begin) : t'.shared = t.shared := by
  by_contra hne
  rcases hexclusive.readers hne j hj with hbegin | ⟨answer, hdone⟩
  · exact hbegun hbegin
  · rw [hphase] at hdone
    cases hdone

/-- A step after which the client has not answered.

**Proof sketch.** The order is the same, and what the other clients have done is as it was: those
that have begun see no change. What the client itself has done is given. -/
lemma Serialized.keeps (h : Serialized clients s order t) (hexclusive : Exclusive clients t i t')
    (hothers : ∀ j, j ≠ i → t'.phase j = t.phase j) (hbefore : ∀ answer, t.phase i ≠ .done answer)
    (hafter : ∀ answer, t'.phase i ≠ .done answer)
    (hreading : ∀ seen rest, t'.phase i = .reading seen rest →
      (∃ past, (clients i).reads = past ++ rest ∧
        seen = (clients i).seenBy past (serial clients order s)) ∧
        t'.shared = serial clients order s)
    (hwriting : ∀ rest finish, t'.phase i = .writing rest finish →
      ∃ past, (clients i).decide ((clients i).seenBy (clients i).reads (serial clients order s)) =
          .inr (past ++ rest, finish) ∧
        writes past (serial clients order s) = some t'.shared) :
    Serialized clients s order t' where
  nodup := h.nodup
  answered := by
    intro j
    by_cases hj : j = i
    · subst hj
      rw [h.answered]
      exact iff_of_false (fun ⟨answer, hd⟩ => hbefore answer hd) fun ⟨answer, hd⟩ => hafter answer hd
    · rw [hothers j hj, h.answered]
  answers := by
    intro past j future horder
    have hj : j ≠ i := by
      rintro rfl
      obtain ⟨answer, hdone⟩ := (h.answered j).mp (by rw [horder]; simp)
      exact hbefore answer hdone
    rw [hothers j hj]
    exact h.answers past j future horder
  reading := by
    intro j seen rest hphase
    by_cases hj : j = i
    · subst hj
      exact (hreading seen rest hphase).1
    · exact h.reading j seen rest (hothers j hj ▸ hphase)
  begun := by
    intro j seen rest hphase hbegun
    by_cases hj : j = i
    · subst hj
      exact (hreading seen rest hphase).2
    · rw [hothers j hj] at hphase hbegun
      rw [hexclusive.shared_of_begun hj hphase hbegun]
      exact h.begun j seen rest hphase hbegun
  writing := by
    intro j rest finish hphase
    by_cases hj : j = i
    · subst hj
      exact hwriting rest finish hphase
    · exact absurd (hothers j hj ▸ hphase) (hexclusive.writers j hj rest finish)
  idle := by
    intro hnone
    cases hphase : t'.phase i with
    | reading seen rest => exact (hreading seen rest hphase).2
    | writing rest finish => exact absurd hphase (hnone i rest finish)
    | done answer => exact absurd hphase (hafter answer)
  unique := by
    intro j k rest finish rest' finish' hj hk
    have hi : ∀ {j : ι} {rest : List (σ → Option σ)} {finish : σ → α},
        t'.phase j = .writing rest finish → j = i := by
      intro j rest finish hphase
      by_contra hj
      exact hexclusive.writers j hj rest finish (hothers j hj ▸ hphase)
    rw [hi hj, hi hk]

/-- A step at which the client answers as it would by itself: it is the last one of the order. -/
lemma Serialized.completes (h : Serialized clients s order t)
    (hexclusive : Exclusive clients t i t') (hothers : ∀ j, j ≠ i → t'.phase j = t.phase j)
    (hbefore : ∀ answer, t.phase i ≠ .done answer)
    (hrun : t'.phase i = .done ((clients i).run (serial clients order s)).1 ∧
      t'.shared = ((clients i).run (serial clients order s)).2) :
    Serialized clients s (order ++ [i]) t' where
  nodup := by
    rw [List.nodup_append]
    refine ⟨h.nodup, List.nodup_singleton i, ?_⟩
    rintro j hj k hk rfl
    obtain ⟨answer, hdone⟩ := (h.answered j).mp hj
    cases List.mem_singleton.mp hk
    exact hbefore answer hdone
  answered := by
    intro j
    rw [List.mem_append, List.mem_singleton, h.answered]
    by_cases hj : j = i
    · subst hj
      exact iff_of_true (Or.inr rfl) ⟨_, hrun.1⟩
    · simp [hothers j hj, hj]
  answers := by
    intro past j future horder
    rcases List.eq_nil_or_concat future with rfl | ⟨future, k, rfl⟩
    · obtain ⟨rfl, hj⟩ := List.append_inj' horder rfl
      cases hj
      exact hrun.1
    · rw [List.concat_eq_append, ← List.cons_append, ← List.append_assoc] at horder
      obtain ⟨rfl, -⟩ := List.append_inj' horder rfl
      have hj : j ≠ i := by
        rintro rfl
        obtain ⟨answer, hdone⟩ := (h.answered j).mp (by simp)
        exact hbefore answer hdone
      rw [hothers j hj]
      exact h.answers past j future rfl
  reading := by
    intro j seen rest hphase
    have hj : j ≠ i := by
      rintro rfl
      rw [hrun.1] at hphase
      cases hphase
    rw [hothers j hj] at hphase
    by_cases hbegun : t.phase j = (clients j).begin
    · rw [hbegun] at hphase
      cases hphase
      exact ⟨[], rfl, rfl⟩
    · have hshared := hexclusive.shared_of_begun hj hphase hbegun
      rw [serial_concat, ← hrun.2, hshared, h.begun j seen rest hphase hbegun]
      exact h.reading j seen rest hphase
  begun := by
    intro j seen rest _ _
    rw [serial_concat, hrun.2]
  writing := by
    intro j rest finish hphase
    have hj : j ≠ i := by
      rintro rfl
      rw [hrun.1] at hphase
      cases hphase
    exact absurd (hothers j hj ▸ hphase) (hexclusive.writers j hj rest finish)
  idle := by
    intro _
    rw [serial_concat, hrun.2]
  unique := by
    intro j k rest finish rest' finish' hj _
    have hji : j ≠ i := by
      rintro rfl
      rw [hrun.1] at hj
      cases hj
    exact absurd (hothers j hji ▸ hj) (hexclusive.writers j hji rest finish)

/-- **Serial order.** A step of clients that keep apart keeps the serial order: it is as it was, or
the client of the step is its last one.

**Proof sketch.** A case for each phase of the client. While it reads nobody writes, so it reads the
state of the order. While it writes the shared state is its own; when it answers it has done what it
does by itself. -/
theorem Serialized.step (h : Serialized clients s order t) (hexclusive : Exclusive clients t i t')
    (hstep : ClientStep clients t i t') :
    ∃ order', (order' = order ∨ order' = order ++ [i]) ∧ Serialized clients s order' t' := by
  obtain ⟨hstep, hothers⟩ := hstep
  cases hphase : t.phase i with
  | reading seen rest =>
    have hshared : t.shared = serial clients order s :=
      h.shared_of_reader hexclusive fun rest finish => by simp [hphase]
    obtain ⟨past, hreads, hseen⟩ := h.reading i seen rest hphase
    cases rest with
    | cons read rest =>
      rw [hphase, Client.step, Option.some.injEq, Prod.mk.injEq] at hstep
      obtain ⟨hafter, hsame⟩ := hstep
      refine ⟨order, Or.inl rfl, h.keeps hexclusive hothers (by simp [hphase])
        (by simp [← hafter]) ?_ (by simp [← hafter])⟩
      intro seen' rest' hphase'
      rw [← hafter] at hphase'
      cases hphase'
      refine ⟨⟨past ++ [read], by rw [hreads, List.append_assoc]; rfl, ?_⟩, hsame ▸ hshared⟩
      rw [Client.seenBy, List.foldl_append, ← Client.seenBy, ← hseen, hshared]
      rfl
    | nil =>
      rw [hphase, Client.step, Option.some.injEq, Prod.mk.injEq] at hstep
      obtain ⟨hafter, hsame⟩ := hstep
      rw [List.append_nil] at hreads
      rw [hseen, ← hreads] at hafter
      cases hdecide : (clients i).decide
          ((clients i).seenBy (clients i).reads (serial clients order s)) with
      | inl answer =>
        rw [Client.decided, hdecide] at hafter
        refine ⟨_, Or.inr rfl, h.completes hexclusive hothers (by simp [hphase]) ?_⟩
        rw [Client.run, hdecide]
        exact ⟨hafter.symm, hsame ▸ hshared⟩
      | inr decision =>
        obtain ⟨list, finish⟩ := decision
        rw [Client.decided, hdecide] at hafter
        refine ⟨order, Or.inl rfl, h.keeps hexclusive hothers (by simp [hphase])
          (by simp [← hafter]) (by simp [← hafter]) ?_⟩
        intro rest' finish' hphase'
        rw [← hafter] at hphase'
        cases hphase'
        exact ⟨[], hdecide, by rw [← hsame, hshared]; rfl⟩
  | writing rest finish =>
    obtain ⟨past, hdecide, hpast⟩ := h.writing i rest finish hphase
    have hrun : (clients i).run (serial clients order s) =
        (clients i).writeAll finish rest t.shared := by
      rw [Client.run, hdecide]
      exact Client.writeAll_append hpast
    cases rest with
    | cons write rest =>
      rw [hphase, Client.step] at hstep
      rw [Client.writeAll] at hrun
      cases hwrite : write t.shared with
      | some s' =>
        simp only [hwrite, Option.some.injEq, Prod.mk.injEq] at hstep
        obtain ⟨hafter, rfl⟩ := hstep
        refine ⟨order, Or.inl rfl, h.keeps hexclusive hothers (by simp [hphase])
          (by simp [← hafter]) (by simp [← hafter]) ?_⟩
        intro rest' finish' hphase'
        rw [← hafter] at hphase'
        cases hphase'
        exact ⟨past ++ [write], by rw [hdecide, List.append_assoc]; rfl, writes_concat hpast hwrite⟩
      | none =>
        simp only [hwrite, Option.some.injEq, Prod.mk.injEq] at hstep hrun
        refine ⟨_, Or.inr rfl, h.completes hexclusive hothers (by simp [hphase]) ?_⟩
        rw [hrun]
        exact ⟨hstep.1.symm, hstep.2.symm⟩
    | nil =>
      rw [hphase, Client.step, Option.some.injEq, Prod.mk.injEq] at hstep
      rw [Client.writeAll] at hrun
      refine ⟨_, Or.inr rfl, h.completes hexclusive hothers (by simp [hphase]) ?_⟩
      rw [hrun]
      exact ⟨hstep.1.symm, hstep.2.symm⟩
  | done answer =>
    rw [hphase] at hstep
    cases hstep

end Step

/-- **Clients that keep apart serialize.** After every interleaving of their steps the clients that
answered are in a serial order. -/
theorem serialized_of_trace {s : σ} {t : Clients ι σ ρ α} {events : List ι}
    (h : Trace (fun t i t' => ClientStep clients t i t' ∧ Exclusive clients t i t')
      (.init clients s) events t) : ∃ order, Serialized clients s order t := by
  refine h.inv (I := fun t => ∃ order, Serialized clients s order t)
    ⟨[], serialized_init clients s⟩ ?_
  rintro i - t t' ⟨order, ht⟩ ⟨hstep, hexclusive⟩
  obtain ⟨order', -, ht'⟩ := ht.step hexclusive hstep
  exact ⟨order', ht'⟩

/-- When every client that has begun has answered, the shared state is that of the serial order. -/
theorem Serialized.final {s : σ} {order : List ι} {t : Clients ι σ ρ α}
    (h : Serialized clients s order t)
    (hfinal : ∀ i, t.phase i = (clients i).begin ∨ ∃ answer, t.phase i = .done answer) :
    t.shared = serial clients order s := by
  refine h.idle fun i rest finish hphase => ?_
  rcases hfinal i with hbegin | ⟨answer, hdone⟩
  · rw [hphase] at hbegin
    cases hbegin
  · rw [hphase] at hdone
    cases hdone

/-! ### One client at a time -/

section Alone

variable [DecidableEq ι] {t : Clients ι σ ρ α} {i : ι}
  {allowed : Clients ι σ ρ α → ι → Clients ι σ ρ α → Prop}

/-- The state of the system after one client went on. -/
def Clients.put (t : Clients ι σ ρ α) (i : ι) (phase : Phase σ ρ α) (s : σ) : Clients ι σ ρ α :=
  ⟨s, Function.update t.phase i phase⟩

/-- The client that went on. -/
@[simp] lemma Clients.put_self (phase : Phase σ ρ α) (s : σ) : (t.put i phase s).phase i = phase :=
  Function.update_self ..

/-- The state is the new one. -/
@[simp] lemma Clients.put_shared (phase : Phase σ ρ α) (s : σ) : (t.put i phase s).shared = s :=
  rfl

/-- The other clients. -/
lemma Clients.put_of_ne {j : ι} (h : j ≠ i) (phase : Phase σ ρ α) (s : σ) :
    (t.put i phase s).phase j = t.phase j :=
  Function.update_of_ne h ..

/-- A client that is where it was. -/
lemma Clients.put_phase {phase : Phase σ ρ α} (h : t.phase i = phase) :
    t.put i phase t.shared = t := by
  rw [Clients.put, ← h, Function.update_eq_self]

/-- The last one of two steps of a client counts. -/
@[simp] lemma Clients.put_put (phase phase' : Phase σ ρ α) (s s' : σ) :
    (t.put i phase s).put i phase' s' = t.put i phase' s' := by
  simp [Clients.put]

/-- A step of one client as a step of the system. -/
lemma clientStep_put {phase : Phase σ ρ α} {s : σ}
    (h : (clients i).step (t.phase i) t.shared = some (phase, s)) :
    ClientStep clients t i (t.put i phase s) := by
  refine ⟨?_, fun j hj => Clients.put_of_ne hj phase s⟩
  rw [Clients.put_self]
  exact h

variable (clients allowed) in
/-- A client reads what is left to read, and decides. -/
lemma reads_trace {seen : ρ} {rest : List (σ → ρ → ρ)} (hphase : t.phase i = .reading seen rest)
    (hallowed : ∀ phase s phase' s', allowed (t.put i phase s) i (t.put i phase' s')) :
    ∃ events, Trace (fun t i t' => ClientStep clients t i t' ∧ allowed t i t') t events
      (t.put i ((clients i).decided (rest.foldl (fun seen read => read t.shared seen) seen))
        t.shared) := by
  have hstep : ∀ phase s, allowed t i (t.put i phase s) := by
    intro phase s
    have h := hallowed (t.phase i) t.shared phase s
    rwa [Clients.put_phase rfl] at h
  induction rest generalizing t seen with
  | nil => exact ⟨[i], .cons ⟨clientStep_put (by rw [hphase]; rfl), hstep _ _⟩ (.nil _)⟩
  | cons read rest ih =>
    obtain ⟨events, h⟩ := ih (t := t.put i (.reading (read t.shared seen) rest) t.shared)
      (Clients.put_self _ _) (by simpa using hallowed) (by simpa using hallowed _ _)
    rw [Clients.put_put] at h
    exact ⟨i :: events, .cons ⟨clientStep_put (by rw [hphase]; rfl), hstep _ _⟩ h⟩

variable (clients allowed) in
/-- A client writes what is left to write, and answers. -/
lemma writes_trace {rest : List (σ → Option σ)} {finish : σ → α}
    (hphase : t.phase i = .writing rest finish)
    (hallowed : ∀ phase s phase' s', allowed (t.put i phase s) i (t.put i phase' s')) :
    ∃ events, Trace (fun t i t' => ClientStep clients t i t' ∧ allowed t i t') t events
      (t.put i (.done ((clients i).writeAll finish rest t.shared).1)
        ((clients i).writeAll finish rest t.shared).2) := by
  have hstep : ∀ phase s, allowed t i (t.put i phase s) := by
    intro phase s
    have h := hallowed (t.phase i) t.shared phase s
    rwa [Clients.put_phase rfl] at h
  induction rest generalizing t with
  | nil => exact ⟨[i], .cons ⟨clientStep_put (by rw [hphase]; rfl), hstep _ _⟩ (.nil _)⟩
  | cons write rest ih =>
    rw [Client.writeAll]
    cases hwrite : write t.shared with
    | none =>
      refine ⟨[i], .cons ⟨clientStep_put ?_, hstep _ _⟩ (.nil _)⟩
      rw [hphase, Client.step, hwrite]
    | some s' =>
      obtain ⟨events, h⟩ := ih (t := t.put i (.writing rest finish) s') (Clients.put_self _ _)
        (by simpa using hallowed) (by simpa using hallowed _ _)
      rw [Clients.put_put] at h
      refine ⟨i :: events, .cons ⟨clientStep_put ?_, hstep _ _⟩ h⟩
      rw [hphase, Client.step, hwrite]

/-- A client that has not begun runs to its answer while no other one takes a step, if none of them
has begun without having answered. -/
lemma alone_trace (hbegin : t.phase i = (clients i).begin)
    (hothers : ∀ j, j ≠ i → t.phase j = (clients j).begin ∨ ∃ answer, t.phase j = .done answer) :
    ∃ events, Trace (fun t i t' => ClientStep clients t i t' ∧ Exclusive clients t i t') t events
      (t.put i (.done ((clients i).run t.shared).1) ((clients i).run t.shared).2) := by
  have hexclusive : ∀ phase s phase' s',
      Exclusive clients (t.put i phase s) i (t.put i phase' s') := by
    refine fun phase s phase' s' => ⟨fun j hj rest finish hwriting => ?_, fun _ j hj => ?_⟩
    · rw [Clients.put_of_ne hj] at hwriting
      rcases hothers j hj with h | ⟨answer, h⟩ <;> cases h.symm.trans hwriting
    · rw [Clients.put_of_ne hj]
      exact hothers j hj
  obtain ⟨events, hreads⟩ := reads_trace clients (Exclusive clients) hbegin hexclusive
  rw [← Client.seenBy, Client.decided] at hreads
  rw [Client.run]
  cases hdecide : (clients i).decide ((clients i).seenBy (clients i).reads t.shared) with
  | inl answer =>
    rw [hdecide] at hreads
    exact ⟨events, hreads⟩
  | inr decision =>
    obtain ⟨list, finish⟩ := decision
    rw [hdecide] at hreads
    obtain ⟨events', hwrites⟩ :=
      writes_trace clients (Exclusive clients) (t := t.put i (.writing list finish) t.shared)
        (Clients.put_self _ _) (by simpa using hexclusive)
    rw [Clients.put_put] at hwrites
    exact ⟨events ++ events', Trace.append_iff.mpr ⟨_, hreads, hwrites⟩⟩

variable (clients t) in
/-- **Serial orders.** Clients that run one after another keep apart. -/
theorem serial_trace {order : List ι} (hnodup : order.Nodup)
    (hbegin : ∀ i ∈ order, t.phase i = (clients i).begin)
    (hothers : ∀ i, t.phase i = (clients i).begin ∨ ∃ answer, t.phase i = .done answer) :
    ∃ events t', Trace (fun t i t' => ClientStep clients t i t' ∧ Exclusive clients t i t') t events
        t' ∧ t'.shared = serial clients order t.shared ∧
      (∀ i ∉ order, t'.phase i = t.phase i) ∧ ∀ i ∈ order, ∃ answer, t'.phase i = .done answer := by
  induction order generalizing t with
  | nil => exact ⟨[], t, .nil t, rfl, by simp, by simp⟩
  | cons i order ih =>
    rw [List.nodup_cons] at hnodup
    rw [List.forall_mem_cons] at hbegin
    obtain ⟨events, halone⟩ := alone_trace hbegin.1 fun j _ => hothers j
    have hne : ∀ j ∈ order, j ≠ i := by
      rintro j hj rfl
      exact hnodup.1 hj
    have hlater : ∀ j ∈ order, (t.put i (.done ((clients i).run t.shared).1)
        ((clients i).run t.shared).2).phase j = (clients j).begin := by
      intro j hj
      rw [Clients.put_of_ne (hne j hj)]
      exact hbegin.2 j hj
    obtain ⟨events', t', hrest, hshared, hkept, hdone⟩ := ih _ hnodup.2 hlater fun j => by
      by_cases hj : j = i
      · subst hj
        exact Or.inr ⟨_, Clients.put_self _ _⟩
      · rw [Clients.put_of_ne hj]
        exact hothers j
    refine ⟨events ++ events', t', Trace.append_iff.mpr ⟨_, halone, hrest⟩, hshared, ?_, ?_⟩
    · intro j hj
      rw [List.mem_cons, not_or] at hj
      rw [hkept j hj.2, Clients.put_of_ne hj.1]
    · refine List.forall_mem_cons.mpr ⟨?_, hdone⟩
      exact ⟨_, (hkept i hnodup.1).trans (Clients.put_self _ _)⟩

variable (clients) in
/-- **Overlaps.** Two clients can decide on one state before either of them writes.

**Proof sketch.** The one reads, then the other, then the one writes, then the other. -/
theorem overlap_trace {j : ι} {first second : List (σ → Option σ)} {finish finish' : σ → α}
    (hne : j ≠ i) (hi : t.phase i = (clients i).begin) (hj : t.phase j = (clients j).begin)
    (hfirst : (clients i).decide ((clients i).seenBy (clients i).reads t.shared) =
      .inr (first, finish))
    (hsecond : (clients j).decide ((clients j).seenBy (clients j).reads t.shared) =
      .inr (second, finish')) :
    ∃ events t', Trace (ClientStep clients) t events t' ∧ (∃ answer, t'.phase i = .done answer) ∧
      (∃ answer, t'.phase j = .done answer) ∧ t'.shared =
        ((clients j).writeAll finish' second ((clients i).writeAll finish first t.shared).2).2 := by
  let always : Clients ι σ ρ α → ι → Clients ι σ ρ α → Prop := fun _ _ _ => True
  obtain ⟨_, hreads⟩ := reads_trace clients always hi fun _ _ _ _ => trivial
  rw [← Client.seenBy, Client.decided, hfirst] at hreads
  obtain ⟨_, hreads'⟩ := reads_trace clients always (t := t.put i (.writing first finish) t.shared)
    ((Clients.put_of_ne hne _ _).trans hj) fun _ _ _ _ => trivial
  rw [← Client.seenBy, Client.decided] at hreads'
  rw [Clients.put_shared, hsecond] at hreads'
  obtain ⟨_, hwrites⟩ := writes_trace clients always
    (t := (t.put i (.writing first finish) t.shared).put j (.writing second finish') t.shared)
    ((Clients.put_of_ne hne.symm _ _).trans (Clients.put_self _ _)) fun _ _ _ _ => trivial
  rw [Clients.put_shared] at hwrites
  obtain ⟨_, hwrites'⟩ := writes_trace clients always
    (t := ((t.put i (.writing first finish) t.shared).put j (.writing second finish') t.shared).put
      i (.done ((clients i).writeAll finish first t.shared).1)
        ((clients i).writeAll finish first t.shared).2)
    ((Clients.put_of_ne hne _ _).trans (Clients.put_self _ _)) fun _ _ _ _ => trivial
  rw [Clients.put_shared] at hwrites'
  have hall := Trace.append_iff.mpr ⟨_, hreads, Trace.append_iff.mpr ⟨_, hreads',
    Trace.append_iff.mpr ⟨_, hwrites, hwrites'⟩⟩⟩
  simp only [always, and_true] at hall
  exact ⟨_, _, hall, ⟨_, (Clients.put_of_ne hne.symm _ _).trans (Clients.put_self _ _)⟩,
    ⟨_, Clients.put_self _ _⟩, rfl⟩

end Alone

end Program
