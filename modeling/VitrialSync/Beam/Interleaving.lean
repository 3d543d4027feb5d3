import VitrialSync.Beam.PartialWrites
import VitrialSync.Program.Log
import VitrialSync.Program.Serial

set_option relaxedAutoImplicit false
set_option autoImplicit false

/-!
# Pushes at the same time

The queries of a push, its decision and its statements are steps of their own, and nothing locks what
a push has read. Pushes of one organization serialize if they keep apart; two that overlap can commit
changes with one revision.

## Main definitions

* `VitrialSync.Beam.Push.client` — a push as a client of the database.
* `VitrialSync.Beam.Revisioned` — the changes of an organization have revisions of their own.
* `VitrialSync.Beam.serialPushes` — pushes one after another.

## Main results

* `VitrialSync.Beam.Walks.revisioned` — the statements of a push keep the revisions apart.
* `VitrialSync.Beam.pushes_serialize` — pushes that keep apart serialize.
-/

namespace VitrialSync.Beam

open Python Program
open Batch

/-! ### Pushes as clients -/

/-- A push as a client of the database: its queries are the reads, its statements the writes. -/
def Push.client (p : Push) : Client Database Loaded Answer where
  start := .start
  reads := (queries p.records).map fun q d l => q.answer p.principal.organizationId d l
  decide l :=
    match p.decide l with
    | .error exception => .inl (.raised exception)
    | .ok (.error denial) => .inl (.denied denial)
    | .ok (.ok run) =>
      match p.statements run with
      | .error exception => .inl (.raised exception)
      | .ok statements => .inr (statements.map fun x d => x.apply d, p.answer run)
  failed := .failed

/-- What the client has seen of one database after its last query is what is loaded of it. -/
lemma client_seen (p : Push) (d : Database) : p.client.seenBy p.client.reads d = p.load d := by
  rw [Client.seenBy, Push.client, List.foldl_map]
  rfl

/-- The statements of a client are executed as without faults. -/
lemma client_writeAll (p : Push) (run : Batch.Run) (statements : List Statement) (d : Database) :
    p.client.writeAll (p.answer run) (statements.map fun x d => x.apply d) d =
      let written := applyEffects (fun _ => .served) statements d
      if written.1 then (p.answer run written.2, written.2) else (.failed, written.2) := by
  induction statements generalizing d with
  | nil => rfl
  | cons x rest ih =>
    rw [List.map_cons, Client.writeAll, applyEffects]
    cases x.apply d with
    | none => rfl
    | some d' => exact ih d'

/-- The client by itself is the push without faults. -/
lemma client_run (p : Push) (d : Database) : p.client.run d = p.run .none d := by
  rw [Client.run, client_seen, Push.run, Faults.none, if_neg Bool.false_ne_true]
  cases hdecide : p.decide (p.load d) with
  | error exception => simp [Push.client, hdecide]
  | ok decided =>
    cases decided with
    | error denial => simp [Push.client, hdecide]
    | ok run =>
      cases hstatements : p.statements run with
      | error exception => simp [Push.client, Push.write, hdecide, hstatements]
      | ok statements =>
        have hall := client_writeAll p run statements d
        simp only [Push.client] at hall ⊢
        simp only [hdecide, hstatements, Push.write, Bool.false_eq_true, ↓reduceIte, Bool.not_false,
          Bool.and_true]
        exact hall

/-- The writes of a client as statements. -/
lemma writes_map (statements : List Statement) (d : Database) :
    writes (statements.map fun x d => x.apply d) d = applyAll statements d := by
  rw [writes, applyAll, List.foldlM_map]

/-- What a client decided to write: the statements of its run. -/
lemma client_decide {p : Push} {d : Database} {list : List (Database → Option Database)}
    {finish : Database → Answer} (h : p.client.decide (p.load d) = .inr (list, finish)) :
    ∃ run statements, p.decide (p.load d) = .ok (.ok run) ∧ p.statements run = .ok statements ∧
      list = statements.map fun x d => x.apply d := by
  simp only [Push.client] at h
  split at h
  · cases h
  · cases h
  · rename_i run hdecide
    split at h
    · cases h
    · rename_i statements hstatements
      cases h
      exact ⟨run, statements, hdecide, hstatements, rfl⟩

/-! ### Revisions -/

/-- The changes of an organization have revisions of their own, none above its sequence, and no
sequence was issued that is not there. -/
structure Revisioned (d : Database) (organizationId : Str) : Prop where
  distinct : ((d.changeLog.filter fun c => c.row.organizationId == organizationId).map
    fun c => c.row.serverRevision).Nodup
  bounded : ∀ c ∈ d.changeLog, c.row.organizationId = organizationId →
    c.row.serverRevision ≤ c.sequence
  issued : ∀ c ∈ d.changeLog, c.sequence ≤ d.lastSequence

section Revisions

variable {d d' : Database} {organizationId : Str}

/-- The highest sequence of an organization. -/
lemma maxSequence_eq (d : Database) (organizationId : Str) :
    d.maxSequence organizationId =
      advance Change.sequence 0
        (d.changeLog.filter fun c => c.row.organizationId == organizationId) := by
  rw [Database.maxSequence, advance, List.foldl_map]

/-- The change of an insert. -/
def Statement.change? : Statement → Option ChangelogRow
  | .changelogInsert row => some row
  | _ => none

/-- Changes that are inserted one after another. -/
def numbered (lastSequence : ℕ) (rows : List ChangelogRow) : List Change :=
  (rows.zipIdx (lastSequence + 1)).map fun r => ⟨r.2, r.1⟩

/-- What a list of statements adds to the change log. -/
lemma changeLog_applyAll {statements : List Statement} (h : applyAll statements d = some d') :
    d'.changeLog = d.changeLog ++
        numbered d.lastSequence (statements.filterMap Statement.change?) ∧
      d'.lastSequence = d.lastSequence + (statements.filterMap Statement.change?).length := by
  induction statements generalizing d with
  | nil =>
    cases h
    simp [numbered]
  | cons x rest ih =>
    obtain ⟨d₁, hhead, hrest⟩ := applyAll_cons.mp h
    obtain ⟨hlog, hlast⟩ := ih hrest
    have hother : x.change? = none → d₁.changeLog = d.changeLog ∧
        d₁.lastSequence = d.lastSequence := by
      intro hx
      cases x with
      | mutationInsert row =>
        obtain ⟨_, -, -, -, rfl⟩ := Statement.mutationInsert_eq_some.mp hhead
        exact ⟨rfl, rfl⟩
      | fingerprintInsert row =>
        obtain ⟨_, -, -, rfl⟩ := Statement.fingerprintInsert_eq_some.mp hhead
        exact ⟨rfl, rfl⟩
      | entityUpsert key columns =>
        cases hhead
        exact ⟨rfl, rfl⟩
      | changelogInsert row => cases hx
      | membershipGrant grant membershipId =>
        simp only [Statement.apply] at hhead
        split at hhead <;> cases hhead <;> exact ⟨rfl, rfl⟩
      | evidenceGcInsert row =>
        cases hhead
        exact ⟨rfl, rfl⟩
      | organizationRevisionUpdate revision id =>
        simp only [Statement.apply] at hhead
        split at hhead <;> cases hhead <;> exact ⟨rfl, rfl⟩
    cases hx : x.change? with
    | none =>
      obtain ⟨hlog₁, hlast₁⟩ := hother hx
      rw [List.filterMap_cons_none hx, hlog, hlast, hlog₁, hlast₁]
      exact ⟨rfl, rfl⟩
    | some row =>
      rw [List.filterMap_cons_some hx, hlog, hlast]
      cases x <;> cases hx
      cases hhead
      simp only [numbered, List.zipIdx_cons, List.map_cons, List.append_assoc,
        List.singleton_append, List.length_cons]
      exact ⟨trivial, by omega⟩

/-- The changes of the statements of a push. -/
lemma Walks.changes {p : Push} {store : Store} {s : State} {list : List Statement}
    (h : Walks p d store s) (hstatements : p.statements (runOf p.records s) = .ok list) :
    list.filterMap Statement.change? = s.effects.changelogRows := by
  obtain ⟨upserts, hupserts, rfl⟩ := h.statements_eq hstatements
  have hupsert : upserts.filterMap Statement.change? = [] := by
    rw [List.filterMap_eq_nil_iff]
    intro x hx
    obtain ⟨key, columns, rfl⟩ := upsert_of_mem hupserts x hx
    rfl
  have hrevision : (Writes.revisionUpdate s.effects.organizationAuthorizationRevision
      p.principal.organizationId).filterMap Statement.change? = [] := by
    unfold Writes.revisionUpdate
    split_ifs <;> rfl
  simp only [List.filterMap_append, List.filterMap_map, hupsert, hrevision]
  simp [Function.comp_def, Statement.change?, Writes.evidenceGcInsert]

/-- The changes of a push have the revisions that follow the highest sequence. -/
lemma Walks.change_revisions {p : Push} {store : Store} {s : State} (h : Walks p d store s) :
    s.effects.changelogRows.map ChangelogRow.serverRevision =
      List.range' (d.maxSequence p.principal.organizationId + 1) s.effects.changelogRows.length := by
  have hledger := (bookkept_walk h.walked).ledger
  have hmax : store.maxRevision = d.maxSequence p.principal.organizationId := by
    rw [((load_store d _).mp h.loaded).2]
  refine List.ext_getElem? fun k => ?_
  rw [List.getElem?_map]
  by_cases hk : k < s.effects.changelogRows.length
  · have hfresh := List.getElem?_eq_getElem (hledger.changes ▸ hk)
    obtain ⟨payload, -, -, hchange⟩ := hledger.posted k _ _ hfresh
    rw [hchange, List.getElem?_range' hk, one_mul, ← hmax]
    rfl
  · rw [List.getElem?_eq_none (not_lt.mp hk), List.getElem?_eq_none (by simpa using hk)]
    rfl

/-- A change that is numbered has the place of its row. -/
lemma mem_numbered {lastSequence : ℕ} {rows : List ChangelogRow} {c : Change} :
    c ∈ numbered lastSequence rows ↔
      ∃ k, rows[k]? = some c.row ∧ c.sequence = lastSequence + 1 + k := by
  simp only [numbered, List.mem_map, Prod.exists, List.mk_mem_zipIdx_iff_le_and_getElem?_sub]
  constructor
  · rintro ⟨row, n, ⟨hle, hrow⟩, rfl⟩
    exact ⟨n - (lastSequence + 1), hrow, (Nat.add_sub_cancel' hle).symm⟩
  · rintro ⟨k, hrow, hsequence⟩
    refine ⟨c.row, c.sequence, ⟨by omega, ?_⟩, rfl⟩
    rw [hsequence, Nat.add_sub_cancel_left]
    exact hrow

/-- The rows of the changes that are numbered. -/
lemma map_row_numbered (lastSequence : ℕ) (rows : List ChangelogRow) :
    (numbered lastSequence rows).map Change.row = rows := by
  rw [numbered, List.map_map]
  exact List.zipIdx_map_fst _ _

/-- The statements of a push, up to any of them, keep the revisions of its organization apart.

**Proof sketch.** The new changes have consecutive revisions after the highest sequence that was
loaded, which bounds the old ones; and their sequences are at least as high. -/
theorem Walks.revisioned {p : Push} {store : Store} {s : State} {past rest : List Statement}
    (h : Walks p d store s) (hstatements : p.statements (runOf p.records s) = .ok (past ++ rest))
    (hd : Revisioned d p.principal.organizationId) (happly : applyAll past d = some d') :
    Revisioned d' p.principal.organizationId := by
  obtain ⟨hlog, hlast⟩ := changeLog_applyAll happly
  have hchanges := h.changes hstatements
  have hrevisions := h.change_revisions
  rw [List.filterMap_append] at hchanges
  rw [← hchanges, List.map_append, List.length_append, ← List.range'_append_1] at hrevisions
  generalize past.filterMap Statement.change? = rows at hlog hlast hrevisions
  set highest := d.maxSequence p.principal.organizationId with hhighest
  -- the rows that were inserted are the first ones of the push
  have hrows : rows.map ChangelogRow.serverRevision = List.range' (highest + 1) rows.length :=
    List.append_inj_left hrevisions (by simp)
  have hnew : ∀ c ∈ numbered d.lastSequence rows, ∃ k < rows.length,
      c.row.serverRevision = highest + 1 + k ∧ c.sequence = d.lastSequence + 1 + k := by
    intro c hc
    obtain ⟨k, hk, hsequence⟩ := mem_numbered.mp hc
    have hlt : k < rows.length := (List.getElem?_eq_some_iff.mp hk).1
    have hat := congrArg (fun l => l[k]?) hrows
    simp only [List.getElem?_map, hk, Option.map_some, List.getElem?_range' hlt, one_mul,
      Option.some.injEq] at hat
    exact ⟨k, hlt, hat, hsequence⟩
  have hold : ∀ c ∈ d.changeLog, c.row.organizationId = p.principal.organizationId →
      c.row.serverRevision ≤ highest := by
    intro c hc horganization
    refine (hd.bounded c hc horganization).trans ?_
    rw [hhighest, maxSequence_eq]
    exact key_le_advance (List.mem_filter.mpr ⟨hc, by simpa using horganization⟩)
  have hissued : highest ≤ d.lastSequence := by
    rw [hhighest, maxSequence_eq]
    exact advance_le (Nat.zero_le _) fun c hc => hd.issued c (List.mem_of_mem_filter hc)
  refine ⟨?_, ?_, ?_⟩
  · rw [hlog, List.filter_append, List.map_append, List.nodup_append]
    refine ⟨hd.distinct, ?_, ?_⟩
    · have hdistinct : ((numbered d.lastSequence rows).map
          fun c => c.row.serverRevision).Nodup := by
        change ((numbered d.lastSequence rows).map
          (ChangelogRow.serverRevision ∘ Change.row)).Nodup
        rw [← List.map_map, map_row_numbered, hrows]
        exact List.nodup_range'
      exact (List.filter_sublist.map _).nodup hdistinct
    · intro _ hbefore _ hafter
      obtain ⟨c, hc, rfl⟩ := List.mem_map.mp hbefore
      obtain ⟨c', hc', rfl⟩ := List.mem_map.mp hafter
      rw [List.mem_filter, beq_iff_eq] at hc
      obtain ⟨k, -, hrevision, -⟩ := hnew c' (List.mem_of_mem_filter hc')
      have hle := hold c hc.1 hc.2
      omega
  · rw [hlog]
    refine List.forall_mem_append.mpr ⟨hd.bounded, ?_⟩
    intro c hc _
    obtain ⟨k, -, hrevision, hsequence⟩ := hnew c hc
    omega
  · rw [hlog, hlast]
    refine List.forall_mem_append.mpr ⟨fun c hc => (hd.issued c hc).trans (Nat.le_add_right _ _), ?_⟩
    intro c hc
    obtain ⟨k, hlt, -, hsequence⟩ := hnew c hc
    omega

/-- A push leaves the database, or what some of its statements made of it. -/
lemma run_applies (p : Push) (d : Database) :
    (p.run .none d).2 = d ∨ ∃ store s past rest, Walks p d store s ∧
      p.statements (runOf p.records s) = .ok (past ++ rest) ∧
        applyAll past d = some (p.run .none d).2 := by
  by_cases hsent : ∃ run statements, Faults.none.loading = false ∧
      Faults.none.connecting = false ∧ p.decide (p.load d) = .ok (.ok run) ∧
        p.statements run = .ok statements
  · obtain ⟨run, statements, hloading, hconnecting, hdecide, hstatements⟩ := hsent
    obtain ⟨store, s, hwalks, rfl⟩ := walks_of_decide hdecide
    have hexecuted := applyAll_executed Faults.none.fate statements d
    rw [← run_database hloading hconnecting hdecide hstatements] at hexecuted
    refine Or.inr ⟨store, s, _, statements.drop (executed Faults.none.fate statements d), hwalks,
      ?_, hexecuted⟩
    rw [List.take_append_drop]
    exact hstatements
  · exact Or.inl (run_unsent hsent)

/-- The statements of a push, up to any of them, leave the organizations and the memberships. -/
lemma Walks.members {p : Push} {store : Store} {s : State} {past rest : List Statement}
    (h : Walks p d store s) (hstatements : p.statements (runOf p.records s) = .ok (past ++ rest))
    (happly : applyAll past d = some d') : SameMembers d' d :=
  h.applyAll_members hstatements (fun _ hx => List.mem_append_left _ hx) ⟨rfl, rfl⟩ happly

/-- A push keeps the revisions of its organization apart. -/
lemma run_revisioned {p : Push} (hd : Revisioned d p.principal.organizationId) :
    Revisioned (p.run .none d).2 p.principal.organizationId := by
  rcases run_applies p d with hsame | ⟨store, s, past, rest, hwalks, hstatements, happly⟩
  · rw [hsame]
    exact hd
  · exact hwalks.revisioned hstatements hd happly

/-- A push leaves the organizations and the memberships. -/
lemma run_members (p : Push) (d : Database) : SameMembers (p.run .none d).2 d := by
  rcases run_applies p d with hsame | ⟨store, s, past, rest, hwalks, hstatements, happly⟩
  · rw [hsame]
    exact ⟨rfl, rfl⟩
  · exact hwalks.members hstatements happly

end Revisions

/-! ### Serial pushes -/

section Serial

variable {ι : Type} {pushes : ι → Push} {d : Database} {organizationId : Str}

/-- The database after pushes one after another. -/
def serialPushes (pushes : ι → Push) (order : List ι) (d : Database) : Database :=
  order.foldl (fun d i => ((pushes i).run .none d).2) d

/-- The clients of the pushes one after another. -/
lemma serial_client (order : List ι) :
    serial (fun i => (pushes i).client) order d = serialPushes pushes order d := by
  simp only [serial, serialPushes, client_run]

/-- Pushes of one organization one after another keep its revisions apart. -/
lemma serialPushes_revisioned (horganization : ∀ i, (pushes i).principal.organizationId =
    organizationId) (hd : Revisioned d organizationId) (order : List ι) :
    Revisioned (serialPushes pushes order d) organizationId := by
  induction order generalizing d with
  | nil => exact hd
  | cons i order ih =>
    refine ih (d := ((pushes i).run .none d).2) ?_
    rw [← horganization i] at hd ⊢
    exact run_revisioned hd

/-- They leave the organizations and the memberships. -/
lemma serialPushes_members (order : List ι) : SameMembers (serialPushes pushes order d) d := by
  induction order generalizing d with
  | nil => exact ⟨rfl, rfl⟩
  | cons i order ih =>
    obtain ⟨hfirst, hsecond⟩ := run_members (pushes i) d
    obtain ⟨hthird, hfourth⟩ := ih (d := ((pushes i).run .none d).2)
    exact ⟨hthird.trans hfirst, hfourth.trans hsecond⟩

/-- Pushes at the same time that are as in a serial order. -/
structure SerialPushes (pushes : ι → Push) (organizationId : Str) (d : Database) (order : List ι)
    (t : Clients ι Database Loaded Answer) : Prop where
  nodup : order.Nodup
  answered : ∀ i, i ∈ order ↔ ∃ answer, t.phase i = .done answer
  /-- Each push that answered has answered as in the order. -/
  answers : ∀ past i future, order = past ++ i :: future →
    t.phase i = .done ((pushes i).run .none (serialPushes pushes past d)).1
  /-- When no push is on its way, the database is that of the order. -/
  final : (∀ i, t.phase i = (pushes i).client.begin ∨ ∃ answer, t.phase i = .done answer) →
    t.shared = serialPushes pushes order d
  /-- A push that is writing has decided on the database of the order, and what is there is what its
  statements made of that: it overwrites nothing that it did not see. -/
  seen : ∀ i rest finish, t.phase i = .writing rest finish →
    ∃ run past future,
      (pushes i).decide ((pushes i).load (serialPushes pushes order d)) = .ok (.ok run) ∧
        (pushes i).statements run = .ok (past ++ future) ∧
          applyAll past (serialPushes pushes order d) = some t.shared ∧
            rest = future.map fun x d => x.apply d
  /-- No two changes of the organization have one revision. -/
  revisions : Revisioned t.shared organizationId
  /-- Nothing is granted, and the revision of the organization is as it was. -/
  members : SameMembers t.shared d

/-- **Pushes that keep apart serialize.** If no push takes a step while another one sends its
statements, and none sends a statement that changes something while another one has begun without
having answered, the pushes are as in a serial order, after every step.

**Proof sketch.** The clients are in a serial order by `serialized_of_trace`. Each of them by itself
keeps the revisions and the members; so do the statements, up to any of them, of a push that is still
writing. -/
theorem pushes_serialize {t : Clients ι Database Loaded Answer} {events : List ι}
    (horganization : ∀ i, (pushes i).principal.organizationId = organizationId)
    (hd : Revisioned d organizationId)
    (htrace : Trace (fun t i t' => ClientStep (fun i => (pushes i).client) t i t' ∧
      Exclusive (fun i => (pushes i).client) t i t')
        (.init (fun i => (pushes i).client) d) events t) :
    ∃ order, SerialPushes pushes organizationId d order t := by
  obtain ⟨order, hserial⟩ := serialized_of_trace htrace
  have hrevisioned := serialPushes_revisioned horganization hd order
  have hmembers : SameMembers (serialPushes pushes order d) d := serialPushes_members order
  have hseen : ∀ i rest finish, t.phase i = .writing rest finish →
      ∃ run past future,
        (pushes i).decide ((pushes i).load (serialPushes pushes order d)) = .ok (.ok run) ∧
          (pushes i).statements run = .ok (past ++ future) ∧
            applyAll past (serialPushes pushes order d) = some t.shared ∧
              rest = future.map fun x d => x.apply d := by
    intro i rest finish hphase
    obtain ⟨past, hdecide, hpast⟩ := hserial.writing i rest finish hphase
    rw [serial_client, client_seen] at hdecide
    rw [serial_client] at hpast
    obtain ⟨run, statements, hrun, hstatements, hlist⟩ := client_decide hdecide
    obtain ⟨before, after, rfl, rfl, rfl⟩ := List.append_eq_map_iff.mp hlist
    exact ⟨run, before, after, hrun, hstatements, (writes_map before _).symm.trans hpast, rfl⟩
  have hshared : t.shared = serialPushes pushes order d ∨
      ∃ i store s past rest, Walks (pushes i) (serialPushes pushes order d) store s ∧
        (pushes i).statements (runOf (pushes i).records s) = .ok (past ++ rest) ∧
          applyAll past (serialPushes pushes order d) = some t.shared := by
    by_cases hwriting : ∀ i rest finish, t.phase i ≠ .writing rest finish
    · rw [hserial.idle hwriting, serial_client]
      exact Or.inl rfl
    · simp only [not_forall, not_not] at hwriting
      obtain ⟨i, rest, finish, hphase⟩ := hwriting
      obtain ⟨run, past, future, hdecide, hstatements, happly, -⟩ := hseen i rest finish hphase
      obtain ⟨store, s, hwalks, rfl⟩ := walks_of_decide hdecide
      exact Or.inr ⟨i, store, s, past, future, hwalks, hstatements, happly⟩
  refine ⟨order, hserial.nodup, hserial.answered, ?_, ?_, hseen, ?_, ?_⟩
  · intro past i future horder
    rw [hserial.answers past i future horder, serial_client, client_run]
  · intro hfinal
    rw [hserial.final hfinal, serial_client]
  · rcases hshared with hsame | ⟨i, store, s, past, rest, hwalks, hstatements, happly⟩
    · rw [hsame]
      exact hrevisioned
    · rw [← horganization i] at hrevisioned ⊢
      exact hwalks.revisioned hstatements hrevisioned happly
  · rcases hshared with hsame | ⟨i, store, s, past, rest, hwalks, hstatements, happly⟩
    · rw [hsame]
      exact hmembers
    · obtain ⟨horganizations, hmemberships⟩ := hwalks.members hstatements happly
      exact ⟨horganizations.trans hmembers.1, hmemberships.trans hmembers.2⟩

end Serial

namespace Sample

/-- Two updates of the sample customer. -/
def pushes (second : Bool) : Push :=
  push [record .customer "c" (if second then "2" else "1") none [("id", .str "c")]]

/-- They are pushes of the sample organization. -/
lemma pushes_organization (second : Bool) :
    (pushes second).principal.organizationId = VitrialSync.Sample.principal.organizationId :=
  rfl

/-- The sample database has no change. -/
lemma revisioned_database (organizationId : Str) : Revisioned database organizationId := by
  refine ⟨List.nodup_nil, ?_, ?_⟩ <;> simp [database]

end Sample

/-- Two updates of a customer one after the other. -/
theorem pushes_serialize_customer :
    ∃ events t order, Trace (fun t i t' => ClientStep (fun i => (Sample.pushes i).client) t i t' ∧
        Exclusive (fun i => (Sample.pushes i).client) t i t')
          (.init (fun i => (Sample.pushes i).client) Sample.database) events t ∧
      (∀ i, ∃ answer, t.phase i = .done answer) ∧
        SerialPushes Sample.pushes VitrialSync.Sample.principal.organizationId Sample.database
          order t := by
  have horder : [false, true].Nodup := by decide
  obtain ⟨events, t, htrace, -, -, hdone⟩ :=
    serial_trace (fun i => (Sample.pushes i).client)
      (.init (fun i => (Sample.pushes i).client) Sample.database) horder (fun _ _ => rfl)
      fun _ => Or.inl rfl
  obtain ⟨order, hserial⟩ := pushes_serialize Sample.pushes_organization
    (Sample.revisioned_database _) htrace
  exact ⟨events, t, order, htrace, fun i => hdone i (by cases i <;> simp), hserial⟩

namespace Sample

/-- What a push decides on the sample database to send. -/
def statements (p : Push) : Option (List Statement) := do
  let run ← (p.decide (p.load database)).toOption.bind Except.toOption
  (p.statements run).toOption

/-- What a push decides to send, as its client does. -/
lemma decide_of_statements {p : Push} {list : List Statement} (h : statements p = some list) :
    ∃ finish, p.client.decide (p.load database) = .inr (list.map fun x d => x.apply d, finish) := by
  obtain ⟨run, hdecide, hstatements⟩ := Option.bind_eq_some_iff.mp h
  obtain ⟨decided, hdecided, hrun⟩ := Option.bind_eq_some_iff.mp hdecide
  have hdecide := toOption_eq_some hdecided
  rw [toOption_eq_some hrun] at hdecide
  refine ⟨p.answer run, ?_⟩
  simp only [Push.client, hdecide, toOption_eq_some hstatements]

/-- The revisions of the changes after both updates were decided on the sample database. -/
def overlapped : Option (List ℕ) := do
  let first ← statements (pushes false)
  let second ← statements (pushes true)
  let d ← applyAll (first ++ second) database
  return (d.changeLog.filter fun c =>
    c.row.organizationId == VitrialSync.Sample.principal.organizationId).map
      fun c => c.row.serverRevision

end Sample

/-- Two updates of a customer that both decide before one of them writes have one revision. -/
theorem not_serialPushes_customer :
    ∃ events t, Trace (ClientStep fun i => (Sample.pushes i).client)
        (.init (fun i => (Sample.pushes i).client) Sample.database) events t ∧
      (∀ i, ∃ answer, t.phase i = .done answer) ∧
        ¬Revisioned t.shared VitrialSync.Sample.principal.organizationId ∧
          ∀ order, t.shared ≠ serialPushes Sample.pushes order Sample.database := by
  have hoverlapped : Sample.overlapped = some [1, 1] := by decide +kernel
  rw [Sample.overlapped] at hoverlapped
  obtain ⟨first, hfirst, h⟩ := Option.bind_eq_some_iff.mp hoverlapped
  obtain ⟨second, hsecond, h⟩ := Option.bind_eq_some_iff.mp h
  obtain ⟨d, hd, hrevisions⟩ := Option.bind_eq_some_iff.mp h
  obtain ⟨finish, hfirst⟩ := Sample.decide_of_statements hfirst
  obtain ⟨finish', hsecond⟩ := Sample.decide_of_statements hsecond
  obtain ⟨d₁, hd₁, hd₂⟩ := applyAll_append.mp hd
  rw [← writes_map] at hd₁ hd₂
  obtain ⟨events, t, htrace, hfalse, htrue, hshared⟩ := overlap_trace
    (fun i => (Sample.pushes i).client) (i := false) (j := true)
    (t := .init (fun i => (Sample.pushes i).client) Sample.database) (by decide) rfl rfl
    (by rw [Clients.init, client_seen]; exact hfirst)
    (by rw [Clients.init, client_seen]; exact hsecond)
  have hafter : t.shared = d := by
    rw [hshared, Clients.init, Client.writeAll_of_writes hd₁, Client.writeAll_of_writes hd₂]
  have hnot : ¬Revisioned t.shared VitrialSync.Sample.principal.organizationId := by
    intro hrevisioned
    have hdistinct := hrevisioned.distinct
    rw [hafter, Option.some.inj hrevisions] at hdistinct
    exact absurd hdistinct (by decide)
  refine ⟨events, t, htrace, fun i => ?_, hnot, ?_⟩
  · cases i
    · exact hfalse
    · exact htrue
  · intro order horder
    rw [horder] at hnot
    exact hnot (serialPushes_revisioned Sample.pushes_organization (Sample.revisioned_database _)
      order)

end VitrialSync.Beam
