import Mathlib.Data.List.Nodup
import VitrialSync.Server.Settlement

set_option relaxedAutoImplicit false
set_option autoImplicit false

/-!
# Server revisions

The next revision of an organization is computed from its entities, which are overwritten in place;
the change log keeps every revision that was given. The invariant links the two: the log has
increasing sequences and, within an organization, increasing revisions, and an entity has the
revision of its last change. So no revision is given twice, and the optimistic check of a record is
against the version that its author named.

## Main definitions

* `VitrialSync.SyncChangeLog.key` — the entity that a change is about.
* `VitrialSync.Revisioned` — the invariant that links the change log and the entities.

## Main results

* `VitrialSync.Revisioned.lt_nextRevision` — the next revision exceeds every earlier one.
* `VitrialSync.runPushes_revisioned` — revisions over whole runs.
-/

namespace VitrialSync

open Python Program

/-- The entity that a change is about. -/
def SyncChangeLog.key (c : SyncChangeLog) : EntityKey :=
  (c.organizationId, c.entityType, c.entityId.text)

/-- The last change of an entity. -/
def lastChange (log : List SyncChangeLog) (k : EntityKey) : Option SyncChangeLog :=
  (log.filter fun c => c.key == k).getLast?

/-- The change log and the entities agree on the revisions. -/
structure Revisioned (db : Db) : Prop where
  bounded : ∀ c ∈ db.changeLog, c.sequence ≤ db.lastSequence
  sequences : db.changeLog.Pairwise fun a b => a.sequence < b.sequence
  revisions : db.changeLog.Pairwise fun a b =>
    a.organizationId = b.organizationId → a.serverRevision < b.serverRevision
  known : ∀ c ∈ db.changeLog, ∃ e, db.entities.get c.key = some e
  last : ∀ k e, db.entities.get k = some e →
    ∃ c, lastChange db.changeLog k = some c ∧ c.serverRevision = e.serverRevision

/-! ### Last changes -/

/-- The last change of an entity is one of the log and about it. -/
lemma lastChange_mem {log : List SyncChangeLog} {k : EntityKey} {c : SyncChangeLog}
    (h : lastChange log k = some c) : c ∈ log ∧ c.key = k := by
  have hmem := List.mem_of_getLast? h
  obtain ⟨hlog, hkey⟩ := List.mem_filter.mp hmem
  exact ⟨hlog, by simpa using hkey⟩

/-- The last change of an entity after one more change. -/
lemma lastChange_concat (log : List SyncChangeLog) (c : SyncChangeLog) (k : EntityKey) :
    lastChange (log ++ [c]) k = if c.key = k then some c else lastChange log k := by
  by_cases hk : c.key = k
  · simp [lastChange, hk]
  · simp [lastChange, hk]

/-- No change of an entity is newer than its last one. -/
lemma le_lastChange {log : List SyncChangeLog}
    (hlog : log.Pairwise fun a b =>
      a.organizationId = b.organizationId → a.serverRevision < b.serverRevision)
    {c last : SyncChangeLog} (hc : c ∈ log) (hlast : lastChange log c.key = some last) :
    c.serverRevision ≤ last.serverRevision := by
  have hfiltered := hlog.sublist (List.filter_sublist (p := fun d => d.key == c.key))
  obtain ⟨init, hinit⟩ : ∃ init, log.filter (fun d => d.key == c.key) = init ++ [last] :=
    List.getLast?_eq_some_iff.mp hlast
  have hmem : c ∈ log.filter fun d => d.key == c.key := List.mem_filter.mpr ⟨hc, by simp⟩
  rw [hinit] at hfiltered hmem
  rcases List.mem_append.mp hmem with hmem | hmem
  · have horg : c.organizationId = last.organizationId :=
      congrArg Prod.fst (lastChange_mem hlast).2.symm
    have hlt := (List.pairwise_append.mp hfiltered).2.2 c hmem last (List.mem_singleton_self _)
    exact (hlt horg).le
  · rw [List.mem_singleton.mp hmem]

/-! ### The next revision -/

/-- The next revision exceeds that of every entity of the organization. -/
lemma lt_nextRevision {db : Db} {k : EntityKey} {e : SyncEntity}
    (h : db.entities.get k = some e) : e.serverRevision < db.nextRevision k.1 := by
  have hfold : ∀ (l : List ℕ) (m : ℕ), m ≤ l.foldl max m ∧ ∀ x ∈ l, x ≤ l.foldl max m := by
    intro l
    induction l with
    | nil => exact fun m => ⟨le_rfl, by simp⟩
    | cons x l ih =>
      intro m
      obtain ⟨hm, hl⟩ := ih (max m x)
      refine ⟨(le_max_left m x).trans hm, List.forall_mem_cons.mpr ⟨?_, hl⟩⟩
      exact (le_max_right m x).trans hm
  refine Nat.lt_succ_of_le ((hfold _ 0).2 e.serverRevision ?_)
  refine List.mem_map.mpr ⟨(k, e), List.mem_filter.mpr ⟨?_, by simp⟩, rfl⟩
  exact (db.entities.mem_rows_iff k e).mpr h

/-- The next revision exceeds every revision that the log of the organization holds: the entity of a
change has at least its revision. -/
lemma Revisioned.lt_nextRevision {db : Db} (h : Revisioned db) {c : SyncChangeLog}
    (hc : c ∈ db.changeLog) : c.serverRevision < db.nextRevision c.organizationId := by
  obtain ⟨e, he⟩ := h.known c hc
  obtain ⟨last, hlast, hrevision⟩ := h.last _ e he
  have hle := le_lastChange h.revisions hc hlast
  rw [hrevision] at hle
  exact lt_of_le_of_lt hle (VitrialSync.lt_nextRevision he)

/-- No two entities of an organization have the same revision.

**Proof sketch.** Their last changes have that revision; in the log the revisions of an organization
are distinct, so the two changes are the same one, and so are the entities. -/
lemma Revisioned.key_eq {db : Db} (h : Revisioned db) {k k' : EntityKey} {e e' : SyncEntity}
    (he : db.entities.get k = some e) (he' : db.entities.get k' = some e') (horg : k.1 = k'.1)
    (hsame : e.serverRevision = e'.serverRevision) : k = k' := by
  obtain ⟨c, hc, hrevision⟩ := h.last k e he
  obtain ⟨c', hc', hrevision'⟩ := h.last k' e' he'
  obtain ⟨hmem, rfl⟩ := lastChange_mem hc
  obtain ⟨hmem', rfl⟩ := lastChange_mem hc'
  have hdistinct : (db.changeLog.map fun c => (c.organizationId, c.serverRevision)).Nodup := by
    refine List.pairwise_map.mpr (h.revisions.imp fun hlt heq => ?_)
    rw [Prod.mk.injEq] at heq
    exact (hlt heq.1).ne heq.2
  have hpair : (c.organizationId, c.serverRevision) = (c'.organizationId, c'.serverRevision) := by
    rw [hrevision, hrevision', hsame]
    exact congrArg (·, e'.serverRevision) horg
  rw [List.inj_on_of_nodup_map hdistinct hmem hmem' hpair]

/-! ### Runs -/

namespace RecordStep

variable {env : Env} {s : RecordStep} {payload : Payload} {grant : Authorized} {applied : Working}

/-- The change of a step is about the entity of its record. -/
lemma change_key (s : RecordStep) : s.change.key = s.key := rfl

/-- A committed record named the revision of the entity it met. -/
lemma Commits.base_eq (h : s.Commits env payload grant applied) :
    s.record.baseServerRevision = s.current.map SyncEntity.serverRevision := by
  have hfresh := h.fresh
  rwa [staleRevision, bne_eq_false_iff_eq] at hfresh

/-- **Step.** A step keeps the revisions in order. -/
lemma Valid.revisioned (h : s.Valid env) (hbefore : Revisioned s.before.db) :
    Revisioned s.after.db := by
  rcases h.keeps_or_commits with hkeeps | ⟨payload, grant, applied, hcommits⟩
  · obtain ⟨hbounded, hsequences, hrevisions, hknown, hlast⟩ := hbefore
    refine ⟨?_, ?_, ?_, ?_, ?_⟩
    · rwa [hkeeps.changeLog, hkeeps.lastSequence]
    · rwa [hkeeps.changeLog]
    · rwa [hkeeps.changeLog]
    · rwa [hkeeps.changeLog, hkeeps.entities]
    · rwa [hkeeps.changeLog, hkeeps.entities]
  refine ⟨?_, ?_, ?_, ?_, ?_⟩
  · intro c hc
    rw [hcommits.changeLog, List.mem_append, List.mem_singleton] at hc
    rw [hcommits.lastSequence]
    rcases hc with hc | rfl
    · exact (hbefore.bounded c hc).trans (Nat.le_succ _)
    · exact le_rfl
  · rw [hcommits.changeLog, List.pairwise_append]
    refine ⟨hbefore.sequences, List.pairwise_singleton _ _, fun a ha b hb => ?_⟩
    rw [List.mem_singleton.mp hb]
    exact Nat.lt_succ_of_le (hbefore.bounded a ha)
  · rw [hcommits.changeLog, List.pairwise_append]
    refine ⟨hbefore.revisions, List.pairwise_singleton _ _, fun a ha b hb horg => ?_⟩
    rw [List.mem_singleton.mp hb] at horg ⊢
    have hlt := hbefore.lt_nextRevision ha
    rwa [horg] at hlt
  · intro c hc
    rw [hcommits.changeLog, List.mem_append, List.mem_singleton] at hc
    rw [hcommits.entities]
    rcases hc with hc | rfl
    · obtain ⟨e, he⟩ := hbefore.known c hc
      obtain ⟨e', he', -⟩ := Table.exists_get_set (k := s.key) (P := fun _ => True)
        ⟨e, he, trivial⟩ (v := committedEntity s.record payload s.revision) fun _ => trivial
      exact ⟨e', he'⟩
    · exact ⟨_, Table.get_set_self _ _ _⟩
  · intro k e he
    rw [hcommits.changeLog, lastChange_concat, change_key]
    rw [hcommits.entities] at he
    rcases Table.get_set_eq_some he with ⟨rfl, rfl⟩ | ⟨hne, he⟩
    · exact ⟨s.change, if_pos rfl, rfl⟩
    · rw [if_neg fun heq => hne heq.symm]
      exact hbefore.last k e he

end RecordStep

/-- **Revision order.** Over every run: a committed record gets a revision greater than every one the
organization had before, in its entities and in its change log, and it named the revision of the
entity at that moment, or none for a new entity. In every state reached, the sequences of the change
log increase, and with them the revisions of an organization; every entity has the revision of its
last change; and no two entities of an organization share one. -/
theorem runPushes_revisioned (env : Env) (inputs : List PushInput) (db : Db)
    (hdb : Revisioned db) :
    (∀ s ∈ runSteps env inputs db, s.outcome.reason = .committed →
      ∃ revision, s.outcome.resultRevision = some revision ∧
        (s.after.db.entities.get s.key).map SyncEntity.serverRevision = some revision ∧
        (∀ k e, s.before.db.entities.get k = some e →
          k.1 = s.input.principal.organizationId → e.serverRevision < revision) ∧
        (∀ c ∈ s.before.db.changeLog, c.organizationId = s.input.principal.organizationId →
          c.serverRevision < revision) ∧
        s.record.baseServerRevision =
          (s.before.db.entities.get s.key).map SyncEntity.serverRevision) ∧
    Revisioned (runPushes env inputs db) ∧
    ∀ k k' e e', (runPushes env inputs db).entities.get k = some e →
      (runPushes env inputs db).entities.get k' = some e' → k.1 = k'.1 →
      e.serverRevision = e'.serverRevision → k = k' := by
  have hstep : ∀ s ∈ runSteps env inputs db, Revisioned s.before.db → Revisioned s.after.db :=
    fun s hs hbefore => (runSteps_valid hs).1.revisioned hbefore
  have hafter : Revisioned (runPushes env inputs db) := runPushes_inv hdb hstep
  refine ⟨?_, hafter, fun k k' e e' he he' horg hsame => hafter.key_eq he he' horg hsame⟩
  intro s hs hreason
  have hbefore := runSteps_inv hdb hstep s hs
  rcases (runSteps_valid hs).1.keeps_or_commits with hkeeps | ⟨payload, grant, applied, hcommits⟩
  · exact absurd hreason hkeeps.reason
  refine ⟨s.revision, by rw [hcommits.outcome], ?_, ?_, ?_, hcommits.base_eq⟩
  · rw [hcommits.entities, Table.get_set_self]
    rfl
  · intro k e he horg
    have hlt := lt_nextRevision he
    rwa [horg] at hlt
  · intro c hc horg
    have hlt := hbefore.lt_nextRevision hc
    rwa [horg] at hlt

/-- The revisions of the sample organization. -/
theorem runPushes_revisioned_sample :
    Revisioned (runPushes Sample.env Sample.setup Sample.db) := by
  refine (runPushes_revisioned Sample.env Sample.setup Sample.db ?_).2.1
  refine ⟨fun c hc => ?_, List.Pairwise.nil, List.Pairwise.nil, fun c hc => ?_, fun k e he => ?_⟩
  · cases hc
  · cases hc
  · cases he

end VitrialSync
