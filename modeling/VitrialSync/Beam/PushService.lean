import VitrialSync.Beam.Bookkeeping
import VitrialSync.Beam.Database

set_option relaxedAutoImplicit false
set_option autoImplicit false

/-!
# Pushes

`VitrialSync.PushService.push/4`: the queries, the decision, the statements of its effects and the
answer. A statement is sent by itself, outside of any transaction block, so each is a transaction of
its own; a statement whose answer does not arrive may have been executed nevertheless.

## Main definitions

* `VitrialSync.Beam.Push` — the arguments of a push.
* `VitrialSync.Beam.Push.decide` — the decision on what was loaded.
* `VitrialSync.Beam.applyEffects` — `apply_effects/3`.
* `VitrialSync.Beam.Push.run` — `push/4` under faults of the connections.

## Main results

* `VitrialSync.Beam.load_eq` — the world that the queries bring from one database.
* `VitrialSync.Beam.load_priors`, `VitrialSync.Beam.load_fingerprints` — what they bring under the
  mutation ids of the batch.
-/

namespace VitrialSync.Beam

open Python Program

/-! ### Pushes -/

/-- The arguments of `push/4`, and the clock that `apply_effects/3` reads. -/
structure Push where
  principal : Principal
  deviceId : Option Str
  records : List Record
  now : ℤ

/-- What `push/4` comes to. -/
inductive Answer where
  | pushed (run : Batch.Run)
  | denied (denial : Batch.Denial)
  /-- `{:error, reason}` of a connection or of the database. -/
  | failed
  | raised (exception : Raised)

/-- What becomes of a statement that is sent. -/
inductive Fate where
  | served
  /-- The server did not execute it. -/
  | refused
  /-- The server executed it, and the answer was lost. -/
  | lost
  deriving DecidableEq

/-- The faults of the connections during a push. -/
structure Faults where
  loading : Bool
  connecting : Bool
  /-- The fate of each statement. -/
  fate : ℕ → Fate
  reading : Bool

/-- No fault. -/
def Faults.none : Faults := ⟨false, false, fun _ => .served, false⟩

/-- `apply_effects/3`: whether every statement was answered, and the database after it. -/
def applyEffects (fate : ℕ → Fate) : List Statement → Database → Bool × Database
  | [], d => (true, d)
  | statement :: rest, d =>
    match fate 0, statement.apply d with
    | .served, some d' => applyEffects (fun k => fate (k + 1)) rest d'
    | .lost, some d' => (false, d')
    | _, _ => (false, d)

namespace Push

variable (p : Push)

/-- What the queries of the push bring. -/
def load (d : Database) : Loaded := Beam.load d p.records p.principal.organizationId

/-- `decide/5` after the queries. -/
def decide (l : Loaded) : Except Raised (Except Batch.Denial Batch.Run) := do
  let store ← l.store p.principal.organizationId
  Batch.run p.records p.deviceId p.principal store

/-- The statements of a run. -/
def statements (run : Batch.Run) : Except Raised (List Statement) :=
  Writes.effects run.effects p.principal.organizationId p.principal.membershipId p.now

/-- The answer, with the cursor that is read after the statements. -/
def answer (run : Batch.Run) (d : Database) : Answer :=
  match Batch.finish run (d.maxSequence p.principal.organizationId) with
  | .ok run => .pushed run
  | .error exception => .raised exception

/-- The second connection of `push/4`. -/
def write (faults : Faults) (run : Batch.Run) (d : Database) : Answer × Database :=
  if faults.connecting then (.failed, d)
  else
    match p.statements run with
    | .error exception => (.raised exception, d)
    | .ok statements =>
      let written := applyEffects faults.fate statements d
      if written.1 && !faults.reading then (p.answer run written.2, written.2)
      else (.failed, written.2)

/-- `push/4`. -/
def run (faults : Faults) (d : Database) : Answer × Database :=
  if faults.loading then (.failed, d)
  else
    match p.decide (p.load d) with
    | .error exception => (.raised exception, d)
    | .ok (.error denial) => (.denied denial, d)
    | .ok (.ok run) => p.write faults run d

end Push

/-! ### What is loaded -/

section Load

variable (d : Database) (organizationId : Str)

/-- A row that was found is read back; the other ids have what they had. -/
lemma get_putFound {ν : Type} (t : Table (Option Str) ν) (id : Str) (found : Option ν)
    (key : Option Str) :
    (putFound t id found).get key = if key = some id ∧ found.isSome then found else t.get key := by
  cases found with
  | none => simp [putFound]
  | some v =>
    by_cases h : key = some id
    · subst h
      simp [putFound]
    · simp [putFound, h, Table.get_set_of_ne]

/-- The rows under the ids that were looked up. -/
lemma get_foldl_putFound {ν : Type} (found : Str → Option ν) (ids : List Str)
    (t : Table (Option Str) ν) (id : Str) :
    (ids.foldl (fun t id => putFound t id (found id)) t).get (some id) =
      if id ∈ ids ∧ (found id).isSome then found id else t.get (some id) := by
  induction ids generalizing t with
  | nil => simp
  | cons head ids ih =>
    rw [List.foldl_cons, ih, get_putFound]
    by_cases hid : id = head
    · subst hid
      by_cases hfound : (found id).isSome <;> simp [hfound]
    · simp [hid]

/-- The queries for the mutations. -/
lemma foldl_syncMutation (ids : List Str) (l : Loaded) :
    (ids.map Query.syncMutation).foldl (fun l q => q.answer organizationId d l) l =
      { l with
        priors := ids.foldl (fun t id =>
          putFound t id ((d.mutations.get (organizationId, id)).map toPrior)) l.priors } := by
  induction ids generalizing l with
  | nil => rfl
  | cons id ids ih =>
    rw [List.map_cons, List.foldl_cons, ih]
    rfl

/-- The queries for the fingerprints. -/
lemma foldl_syncMutationFingerprint (ids : List Str) (l : Loaded) :
    (ids.map Query.syncMutationFingerprint).foldl (fun l q => q.answer organizationId d l) l =
      { l with
        fingerprints := ids.foldl (fun t id =>
          putFound t id (d.fingerprints.get (organizationId, id))) l.fingerprints } := by
  induction ids generalizing l with
  | nil => rfl
  | cons id ids ih =>
    rw [List.map_cons, List.foldl_cons, ih]
    rfl

variable (records : List Record)

/-- The world that the queries bring from one database. -/
def loadedTables : World where
  customers := d.customerRows
  projects := d.projectRows
  projectSectors := d.projectSectorRows
  items := d.itemRows
  itemChildren := d.itemChildRows
  projectChildren := d.projectChildRows
  entities := []
  evidenceBlobs := d.evidenceBlobRows
  membership := none
  organization := d.organizationStruct organizationId

/-- What the queries bring from one database. -/
lemma load_eq :
    load d records organizationId =
      { priors := (lookedUp records).foldl (fun t id =>
          putFound t id ((d.mutations.get (organizationId, id)).map toPrior)) .empty
        fingerprints := (lookedUp records).foldl (fun t id =>
          putFound t id (d.fingerprints.get (organizationId, id))) .empty
        world := loadedTables d organizationId
        memberships := d.membershipRows
        maxRevision := d.maxSequence organizationId } := by
  rw [load, queries, List.foldl_append, List.foldl_append, foldl_syncMutation,
    foldl_syncMutationFingerprint]
  rfl

/-- The prior of an id of the batch. -/
lemma load_priors {id : Str} (h : id ∈ lookedUp records) :
    (load d records organizationId).priors.get (some id) =
      (d.mutations.get (organizationId, id)).map toPrior := by
  rw [load_eq, get_foldl_putFound, Table.get_empty]
  cases d.mutations.get (organizationId, id) <;> simp [h]

/-- The fingerprint of an id of the batch. -/
lemma load_fingerprints {id : Str} (h : id ∈ lookedUp records) :
    (load d records organizationId).fingerprints.get (some id) =
      d.fingerprints.get (organizationId, id) := by
  rw [load_eq, get_foldl_putFound, Table.get_empty]
  cases d.fingerprints.get (organizationId, id) <;> simp [h]

variable {records}

/-- A store that was loaded. No row of the memberships becomes a struct, so it has none. -/
lemma load_store {store : Batch.Store} :
    (load d records organizationId).store organizationId = .ok store ↔
      membershipStruct d.membershipRows organizationId = .ok none ∧
        store = ⟨(load d records organizationId).priors,
          (load d records organizationId).fingerprints, loadedTables d organizationId,
          d.maxSequence organizationId⟩ := by
  have hmemberships : (load d records organizationId).memberships = d.membershipRows := by
    rw [load_eq]
  rw [Loaded.store, bind_eq_ok, hmemberships]
  constructor
  · rintro ⟨membership, hmembership, hstore⟩
    have hnone : membership = none := by
      unfold membershipStruct at hmembership
      split at hmembership <;> cases hmembership
      rfl
    subst hnone
    cases hstore
    refine ⟨hmembership, ?_⟩
    rw [load_eq]
    rfl
  · rintro ⟨hmembership, rfl⟩
    refine ⟨none, hmembership, ?_⟩
    rw [load_eq]
    rfl

end Load

end VitrialSync.Beam
