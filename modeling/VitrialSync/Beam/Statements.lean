import VitrialSync.Beam.Effects

set_option relaxedAutoImplicit false
set_option autoImplicit false

/-!
# What the statements of a push do

Each statement writes one table. The statements of a batch that accepted nothing write the rows of
the mutations, and the organization's revision as it was.

## Main definitions

* `VitrialSync.Beam.applyAll` — the statements of a list one after another.
* `VitrialSync.Beam.Statement.isInsert`, `VitrialSync.Beam.Database.size` — the statements that add
  a row, and the number of rows that they add to.

## Main results

* `VitrialSync.Beam.applyEffects_served` — without faults the statements are executed as a whole or
  stop at one that the server refuses.
* `VitrialSync.Beam.size_applyAll` — every insert is seen in the size of the database.
-/

namespace VitrialSync.Beam

open Python Program

/-! ### Lists of statements -/

/-- The statements of a list one after another. -/
def applyAll (statements : List Statement) (d : Database) : Option Database :=
  statements.foldlM Statement.apply d

/-- No statement. -/
@[simp]
lemma applyAll_nil (d : Database) : applyAll [] d = some d := rfl

/-- The first statement and the others. -/
lemma applyAll_cons {statement : Statement} {rest : List Statement} {d d' : Database} :
    applyAll (statement :: rest) d = some d' ↔
      ∃ d₁, statement.apply d = some d₁ ∧ applyAll rest d₁ = some d' := by
  rw [applyAll, List.foldlM_cons, Option.bind_eq_bind, Option.bind_eq_some_iff]
  rfl

/-- Two lists of statements. -/
lemma applyAll_append {first second : List Statement} {d d' : Database} :
    applyAll (first ++ second) d = some d' ↔
      ∃ d₁, applyAll first d = some d₁ ∧ applyAll second d₁ = some d' := by
  rw [applyAll, List.foldlM_append, Option.bind_eq_bind, Option.bind_eq_some_iff]
  rfl

/-- Statements that leave the database. -/
lemma applyAll_idle {statements : List Statement} {d : Database}
    (h : ∀ statement ∈ statements, statement.apply d = some d) : applyAll statements d = some d := by
  induction statements with
  | nil => rfl
  | cons statement rest ih =>
    rw [List.forall_mem_cons] at h
    exact applyAll_cons.mpr ⟨d, h.1, ih h.2⟩

/-- Without faults every statement is answered exactly if the server refuses none. -/
lemma applyEffects_served {statements : List Statement} {d d' : Database} :
    applyEffects (fun _ => .served) statements d = (true, d') ↔ applyAll statements d = some d' := by
  induction statements generalizing d with
  | nil => simp [applyEffects, applyAll]
  | cons statement rest ih =>
    rw [applyAll_cons, applyEffects]
    cases h : statement.apply d with
    | none => simp
    | some d₁ => simpa using ih

/-! ### Inserts -/

section Inserts

variable {κ ν : Type} [BEq κ]

/-- An assignment under a new key adds an entry. -/
lemma length_assign {l : List (κ × ν)} {k : κ} (v : ν) (h : l.lookup k = none) :
    (assign l k v).length = l.length + 1 := by
  induction l with
  | nil => rfl
  | cons e l ih =>
    obtain ⟨k', v'⟩ := e
    rw [List.lookup_cons] at h
    cases hk : k == k' with
    | true => simp [hk] at h
    | false =>
      rw [hk] at h
      simp [assign, hk, ih h]

variable [LawfulBEq κ]

/-- An insert wants a new key. -/
lemma insertNew_eq_some {t t' : Table κ ν} {k : κ} {v : ν} :
    insertNew t k v = some t' ↔ t.get k = none ∧ t' = t.set k v := by
  unfold insertNew
  split_ifs with h
  · simp [Option.isNone_iff_eq_none.mp h, eq_comm]
  · simp [Option.isNone_iff_eq_none.not.mp h]

/-- An assignment of the value that is there leaves the list. -/
lemma assign_lookup {l : List (κ × ν)} {k : κ} {v : ν} (h : l.lookup k = some v) :
    assign l k v = l := by
  induction l with
  | nil => cases h
  | cons e l ih =>
    obtain ⟨k', v'⟩ := e
    rw [List.lookup_cons] at h
    cases hk : k == k' with
    | true =>
      rw [hk] at h
      obtain rfl := beq_iff_eq.mp hk
      cases h
      simp [assign]
    | false =>
      rw [hk] at h
      simp [assign, hk, ih h]

/-- A row that is written as it was. -/
lemma set_get {t : Table κ ν} {k : κ} {v : ν} (h : t.get k = some v) : t.set k v = t := by
  obtain ⟨rows, hrows⟩ := t
  simp only [Table.set, Table.mk.injEq]
  exact assign_lookup h

end Inserts

namespace Statement

variable {d d' : Database}

/-- What an insert of a mutation does. -/
lemma mutationInsert_eq_some {row : Batch.MutationRow} :
    (mutationInsert row).apply d = some d' ↔
      ∃ id, row.clientMutationId = some id ∧ row.deviceId.isSome = true ∧
        d.mutations.get (row.organizationId, id) = none ∧
          d' = { d with mutations := d.mutations.set (row.organizationId, id) row } := by
  simp only [apply, bind, Option.bind_eq_some_iff, pure, Option.some.injEq]
  constructor
  · rintro ⟨id, hid, device, hdevice, t, ht, rfl⟩
    obtain ⟨hnew, rfl⟩ := insertNew_eq_some.mp ht
    exact ⟨id, hid, Option.isSome_iff_exists.mpr ⟨device, hdevice⟩, hnew, rfl⟩
  · rintro ⟨id, hid, hdevice, hnew, rfl⟩
    obtain ⟨device, hdevice⟩ := Option.isSome_iff_exists.mp hdevice
    exact ⟨id, hid, device, hdevice, _, insertNew_eq_some.mpr ⟨hnew, rfl⟩, rfl⟩

/-- What an insert of a fingerprint does. -/
lemma fingerprintInsert_eq_some {row : Batch.FingerprintRow} :
    (fingerprintInsert row).apply d = some d' ↔
      ∃ id, row.clientMutationId = some id ∧
        d.fingerprints.get (row.organizationId, id) = none ∧
          d' = { d with
            fingerprints := d.fingerprints.set (row.organizationId, id)
              row.requestFingerprint } := by
  simp only [apply, bind, Option.bind_eq_some_iff, pure, Option.some.injEq]
  constructor
  · rintro ⟨id, hid, t, ht, rfl⟩
    obtain ⟨hnew, rfl⟩ := insertNew_eq_some.mp ht
    exact ⟨id, hid, hnew, rfl⟩
  · rintro ⟨id, hid, hnew, rfl⟩
    exact ⟨id, hid, _, insertNew_eq_some.mpr ⟨hnew, rfl⟩, rfl⟩

/-- A revision that is written as it was. -/
lemma organizationRevisionUpdate_idle {revision : ℤ} {organizationId : Str}
    (h : ∀ row, d.organizations.get organizationId = some row →
      row.authorizationRevision = revision) :
    (organizationRevisionUpdate revision organizationId).apply d = some d := by
  cases hrow : d.organizations.get organizationId with
  | none => simp only [apply, hrow]
  | some row =>
    have hsame : d.organizations.set organizationId ⟨revision⟩ = d.organizations := by
      rw [← h row hrow]
      exact set_get hrow
    simp only [apply, hrow, hsame]

/-- The update of a revision that is as it was. -/
lemma revisionUpdate_idle {revision : ℤ} {organizationId : Str}
    (h : ∀ row, d.organizations.get organizationId = some row →
      row.authorizationRevision = revision) :
    ∀ statement ∈ Writes.revisionUpdate revision organizationId, statement.apply d = some d := by
  intro statement hmem
  unfold Writes.revisionUpdate at hmem
  split_ifs at hmem
  · cases List.mem_singleton.mp hmem
    exact organizationRevisionUpdate_idle h
  · cases hmem

/-- The statements that add a row. -/
def isInsert : Statement → Bool
  | mutationInsert _ | fingerprintInsert _ | changelogInsert _ | evidenceGcInsert _ => true
  | entityUpsert _ _ | membershipGrant _ _ | organizationRevisionUpdate _ _ => false

end Statement

/-- The number of rows in the tables that are only inserted into. -/
def Database.size (d : Database) : ℕ :=
  d.mutations.rows.length + d.fingerprints.rows.length + d.changeLog.length + d.evidenceGc.length

/-- An insert adds one row, and the other statements add none. -/
lemma size_apply {statement : Statement} {d d' : Database} (h : statement.apply d = some d') :
    d'.size = d.size + if statement.isInsert then 1 else 0 := by
  cases statement with
  | mutationInsert row =>
    obtain ⟨id, -, -, hnew, rfl⟩ := Statement.mutationInsert_eq_some.mp h
    have hlength := length_assign row hnew
    simp only [Database.size, Table.set, Statement.isInsert, if_true]
    omega
  | fingerprintInsert row =>
    obtain ⟨id, -, hnew, rfl⟩ := Statement.fingerprintInsert_eq_some.mp h
    have hlength := length_assign row.requestFingerprint hnew
    simp only [Database.size, Table.set, Statement.isInsert, if_true]
    omega
  | entityUpsert key columns =>
    cases h
    rfl
  | changelogInsert row =>
    cases h
    simp only [Database.size, List.length_append, List.length_singleton, Statement.isInsert,
      if_true]
    omega
  | membershipGrant grant membershipId =>
    simp only [Statement.apply] at h
    split at h <;> cases h <;> rfl
  | evidenceGcInsert row =>
    cases h
    simp only [Database.size, List.length_append, List.length_singleton, Statement.isInsert,
      if_true]
    omega
  | organizationRevisionUpdate revision organizationId =>
    simp only [Statement.apply] at h
    split at h <;> cases h <;> rfl

/-- Every insert of a list is seen in the size. -/
lemma size_applyAll {statements : List Statement} {d d' : Database}
    (h : applyAll statements d = some d') :
    d'.size = d.size + statements.countP Statement.isInsert := by
  induction statements generalizing d with
  | nil =>
    cases h
    rfl
  | cons statement rest ih =>
    obtain ⟨d₁, hhead, hrest⟩ := applyAll_cons.mp h
    rw [ih hrest, size_apply hhead, List.countP_cons]
    omega

/-! ### The rows of the mutations -/

section Rows

variable {organizationId : Str}

/-- A row of a list under a new id, and what the table has after its insert. -/
lemma recordedUnder_cons {ρ ν : Type} {id : ρ → Option Str} {read : ρ → ν} {row : ρ} {rows : List ρ}
    {t : Table OrgKey ν} {key : Str} (hkey : id row = some key) (hdistinct : id row ∉ rows.map id)
    (k : Str) :
    ((Batch.recordedUnder id rows (some k)).map read).or
        ((t.set (organizationId, key) (read row)).get (organizationId, k)) =
      ((Batch.recordedUnder id (row :: rows) (some k)).map read).or
        (t.get (organizationId, k)) := by
  rw [Batch.recordedUnder, Batch.recordedUnder, List.find?_cons, hkey]
  by_cases hk : k = key
  · subst hk
    rw [hkey] at hdistinct
    rw [← Batch.recordedUnder, Batch.recordedUnder_eq_none.mpr hdistinct]
    simp
  · have hkeys : (organizationId, k) ≠ (organizationId, key) := fun heq =>
      hk (Prod.ext_iff.mp heq).2
    have hne : (some key == some k) = false := by simpa using fun heq : key = k => hk heq.symm
    rw [Table.get_set_of_ne _ _ hkeys]
    simp [hne]

/-- The inserts of mutations with distinct ids. -/
lemma applyAll_mutationInserts {rows : List Batch.MutationRow} {d d' : Database}
    (horganization : ∀ row ∈ rows, row.organizationId = organizationId)
    (hdistinct : (rows.map Batch.MutationRow.clientMutationId).Nodup)
    (h : applyAll (rows.map .mutationInsert) d = some d') :
    ∃ t, d' = { d with mutations := t } ∧ ∀ id, t.get (organizationId, id) =
      (Batch.recordedUnder Batch.MutationRow.clientMutationId rows (some id)).or
        (d.mutations.get (organizationId, id)) := by
  induction rows generalizing d with
  | nil =>
    cases h
    exact ⟨_, rfl, fun _ => rfl⟩
  | cons row rows ih =>
    rw [List.forall_mem_cons] at horganization
    rw [List.map_cons, List.nodup_cons] at hdistinct
    obtain ⟨d₁, hhead, hrest⟩ := applyAll_cons.mp h
    obtain ⟨key, hkey, -, -, rfl⟩ := Statement.mutationInsert_eq_some.mp hhead
    obtain ⟨t, rfl, ht⟩ := ih horganization.2 hdistinct.2 hrest
    refine ⟨t, rfl, fun id => ?_⟩
    have hcons := @recordedUnder_cons organizationId _ _ _ (fun row => row) _ _ d.mutations _ hkey
      hdistinct.1 id
    simp only [Option.map_id_fun', id_eq] at hcons
    rw [ht, horganization.1, hcons]

/-- The inserts of fingerprints with distinct ids. -/
lemma applyAll_fingerprintInserts {rows : List Batch.FingerprintRow} {d d' : Database}
    (horganization : ∀ row ∈ rows, row.organizationId = organizationId)
    (hdistinct : (rows.map Batch.FingerprintRow.clientMutationId).Nodup)
    (h : applyAll (rows.map .fingerprintInsert) d = some d') :
    ∃ t, d' = { d with fingerprints := t } ∧ ∀ id, t.get (organizationId, id) =
      ((Batch.recordedUnder Batch.FingerprintRow.clientMutationId rows (some id)).map
        Batch.FingerprintRow.requestFingerprint).or (d.fingerprints.get (organizationId, id)) := by
  induction rows generalizing d with
  | nil =>
    cases h
    exact ⟨_, rfl, fun _ => rfl⟩
  | cons row rows ih =>
    rw [List.forall_mem_cons] at horganization
    rw [List.map_cons, List.nodup_cons] at hdistinct
    obtain ⟨d₁, hhead, hrest⟩ := applyAll_cons.mp h
    obtain ⟨key, hkey, -, rfl⟩ := Statement.fingerprintInsert_eq_some.mp hhead
    obtain ⟨t, rfl, ht⟩ := ih horganization.2 hdistinct.2 hrest
    refine ⟨t, rfl, fun id => ?_⟩
    rw [ht, horganization.1, recordedUnder_cons hkey hdistinct.1]

end Rows

end VitrialSync.Beam
