import VitrialSync.Server.Push

set_option relaxedAutoImplicit false
set_option autoImplicit false

/-!
# How a record is settled

Everything a step of a push can do, said once. A record has no mutation id, or repeats one, or is
stale, or is refused by the `try` block, or is committed; `Settles` lists these cases with what was
checked and what is written. The frame lemmas say which tables each part of a step leaves alone.

## Main definitions

* `VitrialSync.Settles` — the five ways a record is settled.
* `VitrialSync.Canonical` — the canonical ownership tables.
* `VitrialSync.Admitted` — what the `try` block established of a committed record.

## Main results

* `VitrialSync.processRecord_settles` — inversion of the loop body.
* `VitrialSync.apply_application` — inversion of the application of an authorization.
* `VitrialSync.applied_syncTables` — it writes no sync table.
* `VitrialSync.RecordStep.Valid.keeps_or_commits`, `VitrialSync.RecordStep.Valid.canonical` — what
  a step does to the entities and the change log, and to the canonical tables.
-/

namespace VitrialSync

open Python Program

section Inversion

variable (env : Env) (now : DateTime) (principal : Principal) (deviceId : Str) (w : Working)
  (record : SyncRecord)

/-- The stored entity of a record. -/
def currentEntity (w : Working) (principal : Principal) (record : SyncRecord) : Option SyncEntity :=
  w.db.entities.get (principal.organizationId, record.entityType, record.entityID.text)

/-- The five ways a record is settled. -/
inductive Settles : Working → Outcome → Prop
  /-- It has no mutation id. -/
  | unnamed (hm : mutationId? record = none) : Settles w ⟨false, .missingClientMutationId, none⟩
  /-- Its mutation id was used before. -/
  | answered {mutationId : Str} {prior : SyncMutation} (hm : mutationId? record = some mutationId)
      (hp : w.db.mutations.get (principal.organizationId, mutationId) = some prior) :
      Settles w (replayOutcome w.db principal mutationId record prior)
  /-- Its base revision is not the current one. -/
  | stale {mutationId : Str} (hm : mutationId? record = some mutationId)
      (hp : w.db.mutations.get (principal.organizationId, mutationId) = none)
      (hs : staleRevision record (currentEntity w principal record) = true) :
      Settles
        { w with
          db := recordMutation principal deviceId mutationId record .rejected
            ((currentEntity w principal record).map SyncEntity.serverRevision) w.db }
        ⟨false, .staleRevision, (currentEntity w principal record).map SyncEntity.serverRevision⟩
  /-- The `try` block raised a rejection. -/
  | refused {mutationId : Str} {e : Exc} {w' : Working}
      (hm : mutationId? record = some mutationId)
      (hp : w.db.mutations.get (principal.organizationId, mutationId) = none)
      (hs : staleRevision record (currentEntity w principal record) = false)
      (ha : attempt env now principal w record (currentEntity w principal record) = (.error e, w'))
      (hc : e.caught = true) :
      Settles
        { w' with
          db := recordMutation principal deviceId mutationId record .rejected
            ((currentEntity w principal record).map SyncEntity.serverRevision) w'.db }
        ⟨false, rejectionCode e,
          (currentEntity w principal record).map SyncEntity.serverRevision⟩
  /-- The `try` block returned. -/
  | committed {mutationId : Str} {payload : Payload} {w' : Working}
      (hm : mutationId? record = some mutationId)
      (hp : w.db.mutations.get (principal.organizationId, mutationId) = none)
      (hs : staleRevision record (currentEntity w principal record) = false)
      (ha : attempt env now principal w record (currentEntity w principal record) =
        (.ok payload, w')) :
      Settles { w' with db := commitRecord principal deviceId mutationId record payload w'.db }
        ⟨true, .committed, some (w'.db.nextRevision principal.organizationId)⟩

/-- Inversion of the loop body: it settles the record in one of the five ways.

**Proof sketch.** The branches of `processRecord` in order; the only other one raises. -/
theorem processRecord_settles {w' : Working} {o : Outcome}
    (h : processRecord env now principal deviceId w record = .ok (w', o)) :
    Settles env now principal deviceId w record w' o := by
  unfold processRecord at h
  split at h
  · rename_i hm
    simp only [Except.ok.injEq, Prod.mk.injEq] at h
    obtain ⟨rfl, rfl⟩ := h
    exact .unnamed hm
  · rename_i mutationId hm
    split at h
    · rename_i prior hp
      simp only [Except.ok.injEq, Prod.mk.injEq] at h
      obtain ⟨rfl, rfl⟩ := h
      exact .answered hm hp
    · rename_i hp
      dsimp only at h
      split_ifs at h with hs
      · simp only [Except.ok.injEq, Prod.mk.injEq] at h
        obtain ⟨rfl, rfl⟩ := h
        exact .stale hm hp hs
      · have hfresh : staleRevision record (currentEntity w principal record) = false := by
          exact Bool.eq_false_iff.mpr hs
        split at h
        · rename_i e w₁ ha
          split_ifs at h with hc
          simp only [Except.ok.injEq, Prod.mk.injEq] at h
          obtain ⟨rfl, rfl⟩ := h
          exact .refused hm hp hfresh ha hc
        · rename_i payload w₁ ha
          simp only [Except.ok.injEq, Prod.mk.injEq] at h
          obtain ⟨rfl, rfl⟩ := h
          exact .committed hm hp hfresh ha

/-- What the `try` block established of a committed record. -/
structure Admitted (payload : Payload) (grant : Authorized) (w' : Working) : Prop where
  decoded : decodePayload env record.payload = .ok payload
  authorized :
    authorize env principal w record (currentEntity w principal record) payload.items = .ok grant
  applied : grant.apply principal record w = (.ok (), w')

variable {env now principal w record}

/-- Inversion of a `try` block that returned. -/
lemma attempt_eq_ok {payload : Payload} {w' : Working}
    (h : attempt env now principal w record (currentEntity w principal record) =
      (.ok payload, w')) :
    ∃ authorized w₁, Admitted env principal w record payload authorized w₁ ∧
      w' = queueEvidenceGc env now principal record w₁ := by
  unfold attempt at h
  split at h
  · simp at h
  · rename_i p hdecode
    split at h
    · simp at h
    · rename_i authorized hauth
      split at h
      · simp at h
      · rename_i w₁ happly
        simp only [Prod.mk.injEq, Except.ok.injEq] at h
        obtain ⟨rfl, rfl⟩ := h
        exact ⟨authorized, w₁, ⟨hdecode, hauth, happly⟩, rfl⟩

/-- Inversion of a `try` block that raised: a check raised and nothing was written, or the
application of an authorization raised. -/
lemma attempt_eq_error {e : Exc} {w' : Working}
    (h : attempt env now principal w record (currentEntity w principal record) = (.error e, w')) :
    w' = w ∨ ∃ payload authorized, decodePayload env record.payload = .ok payload ∧
      authorize env principal w record (currentEntity w principal record) payload.items =
        .ok authorized ∧
      authorized.apply principal record w = (.error e, w') := by
  unfold attempt at h
  split at h
  · simp only [Prod.mk.injEq] at h
    exact Or.inl h.2.symm
  · rename_i p hdecode
    split at h
    · simp only [Prod.mk.injEq] at h
      exact Or.inl h.2.symm
    · rename_i authorized hauth
      split at h
      · rename_i happly
        simp only [Prod.mk.injEq, Except.error.injEq] at h
        obtain ⟨rfl, rfl⟩ := h
        exact Or.inr ⟨p, authorized, hdecode, hauth, happly⟩
      · simp at h

/-- A fresh record with a mutation id of its own that the `try` block admits is committed. -/
lemma processRecord_of_admitted {deviceId mutationId : Str} {payload : Payload}
    {grant : Authorized} {w' : Working} (hm : mutationId? record = some mutationId)
    (hp : w.db.mutations.get (principal.organizationId, mutationId) = none)
    (hs : staleRevision record (currentEntity w principal record) = false)
    (ha : Admitted env principal w record payload grant w') :
    processRecord env now principal deviceId w record =
      .ok ({ queueEvidenceGc env now principal record w' with
          db := commitRecord principal deviceId mutationId record payload
            (queueEvidenceGc env now principal record w').db },
        ⟨true, .committed, some ((queueEvidenceGc env now principal record w').db.nextRevision
          principal.organizationId)⟩) := by
  have hauthorized := ha.authorized
  simp only [currentEntity] at hs hauthorized
  simp only [processRecord, hm, hp, hs, attempt, ha.decoded, hauthorized, ha.applied,
    Bool.false_eq_true, ↓reduceIte]

/-- Inversion of the checks of the `try` block: deliveries have an authority of their own, every
other type goes through the lifecycle validators and `authorize_record`. -/
lemma authorize_eq_ok_iff {current : Option SyncEntity} {payload : Dict} {grant : Authorized} :
    authorize env principal w record current payload = .ok grant ↔
      requireAssemblyContract env record.entityType payload = .ok () ∧
      (record.entityType = .item → record.deletedAt.isSome →
        itemHasImmutableAuditHistory w.db principal.organizationId record.entityID.text = false) ∧
      (record.entityType = .deliveryExecution ∧
          (∃ projectId, Delivery.authorizeDeliveryExecution w.db principal w.scope
            record.entityID.text payload record.deletedAt current = .ok projectId ∧
            grant = .delivery projectId) ∨
        record.entityType ≠ .deliveryExecution ∧
          Lifecycle.validateLifecycleMutation w.db principal record.entityType
            record.entityID.text payload record.deletedAt current = .ok () ∧
          ∃ plan, Ownership.authorizeRecord env w.db principal w.scope record.entityType
            record.entityID.text payload record.deletedAt current.isSome = .ok plan ∧
            grant = .ownership plan) := by
  have hguard : (record.entityType == .item && record.deletedAt.isSome &&
      itemHasImmutableAuditHistory w.db principal.organizationId record.entityID.text) = false ↔
      (record.entityType = .item → record.deletedAt.isSome →
        itemHasImmutableAuditHistory w.db principal.organizationId record.entityID.text =
          false) := by
    by_cases htype : record.entityType = .item <;> simp [htype]
  simp only [authorize, bind_eq_ok, raiseIf_eq_ok, hguard, exists_const]
  constructor
  · rintro ⟨⟨⟩, hcontract, haudit, h⟩
    refine ⟨hcontract, haudit, ?_⟩
    split_ifs at h with htype
    · simp only [bind_eq_ok, pure_eq_ok] at h
      obtain ⟨projectId, hauth, rfl⟩ := h
      exact Or.inl ⟨htype, projectId, hauth, rfl⟩
    · simp only [bind_eq_ok, pure_eq_ok] at h
      obtain ⟨⟨⟩, hlifecycle, plan, hplan, rfl⟩ := h
      exact Or.inr ⟨htype, hlifecycle, plan, hplan, rfl⟩
  · rintro ⟨hcontract, haudit, ⟨htype, projectId, hauth, rfl⟩ |
      ⟨htype, hlifecycle, plan, hplan, rfl⟩⟩
    · refine ⟨(), hcontract, haudit, ?_⟩
      rw [if_pos htype, hauth]
      rfl
    · refine ⟨(), hcontract, haudit, ?_⟩
      rw [if_neg htype, hlifecycle, hplan]
      rfl

end Inversion

/-! ### Frames -/

/-- The canonical ownership tables. -/
structure Canonical where
  customers : Table OrgKey CanonicalCustomer
  projects : Table OrgKey CanonicalProject
  projectSectors : Table OrgKey CanonicalProjectSector
  items : Table OrgKey CanonicalItem
  projectChildren : Table EntityKey CanonicalProjectChild
  itemChildren : Table EntityKey CanonicalItemChild

/-- The canonical tables of a database. -/
def Db.canonical (db : Db) : Canonical :=
  ⟨db.customers, db.projects, db.projectSectors, db.items, db.projectChildren, db.itemChildren⟩

/-- Replace the canonical tables. -/
def Db.setCanonical (db : Db) (c : Canonical) : Db :=
  { db with
    customers := c.customers
    projects := c.projects
    projectSectors := c.projectSectors
    items := c.items
    projectChildren := c.projectChildren
    itemChildren := c.itemChildren }

/-- The tables that no authorization writes. -/
structure SyncTables where
  entities : Table EntityKey SyncEntity
  mutations : Table OrgKey SyncMutation
  fingerprints : Table OrgKey Str
  changeLog : List SyncChangeLog
  lastSequence : ℕ

/-- The sync tables of a database. -/
def Db.syncTables (db : Db) : SyncTables :=
  ⟨db.entities, db.mutations, db.fingerprints, db.changeLog, db.lastSequence⟩

/-- Granting scope writes neither sync tables nor canonical ones. -/
lemma grantCreatedScope_frame (principal : Principal) (customerId projectId : Option Str)
    (w : Working) :
    (Ownership.grantCreatedScope principal customerId projectId w).2.db.syncTables =
        w.db.syncTables ∧
      (Ownership.grantCreatedScope principal customerId projectId w).2.db.canonical =
        w.db.canonical ∧
      (Ownership.grantCreatedScope principal customerId projectId w).2.scope = w.scope := by
  unfold Ownership.grantCreatedScope
  split
  · split_ifs <;> exact ⟨rfl, rfl, rfl⟩
  · exact ⟨rfl, rfl, rfl⟩

/-- Granting scope keeps every organization. -/
lemma grantCreatedScope_organizations (principal : Principal) (customerId projectId : Option Str)
    (w : Working) (k : Str) (h : (w.db.organizations.get k).isSome) :
    ((Ownership.grantCreatedScope principal customerId projectId w).2.db.organizations.get
      k).isSome := by
  unfold Ownership.grantCreatedScope
  split
  · split_ifs
    · by_cases hk : k = principal.organizationId
      · subst hk
        simp
      · simpa [Table.get_set_of_ne _ _ hk] using h
    all_goals exact h
  · exact h

/-- The ways the application of an authorization ends: it raises and has written nothing, it has
written canonical tables, or it has created a customer or a project and grants scope to the
creator. -/
inductive Application (principal : Principal) (w : Working) (grant : Authorized) :
    Ownership.Applied → Prop
  | raised (e : Exc) : Application principal w grant (.error e, w)
  | written (c : Canonical) :
      Application principal w grant (.ok (), { w with db := w.db.setCanonical c })
  | customer (plan : Ownership.OwnershipPlan) (hgrant : grant = .ownership plan)
      (htype : plan.entityType = .customer)
      (hnew : w.db.customers.get (principal.organizationId, plan.entityId) = none) :
      Application principal w grant
        (Ownership.grantCreatedScope principal (some plan.entityId) none
          (Ownership.withCustomer principal plan w))
  | project (plan : Ownership.OwnershipPlan) (customerId : Str) (hgrant : grant = .ownership plan)
      (htype : plan.entityType = .project)
      (hnew : w.db.projects.get (principal.organizationId, plan.entityId) = none) :
      Application principal w grant
        (Ownership.grantCreatedScope principal none (some plan.entityId)
          (Ownership.withProject principal plan customerId w))

/-- Inversion of the application for a project child. -/
lemma applyProjectChild_application (principal : Principal) (plan : Ownership.OwnershipPlan)
    (w : Working) :
    Application principal w (.ownership plan) (Ownership.applyProjectChild principal plan w) := by
  simp only [Ownership.applyProjectChild]
  split
  · exact .raised _
  · split
    · exact .written { w.db.canonical with projectChildren := _ }
    · split_ifs
      · exact .raised _
      · exact .written { w.db.canonical with projectChildren := _ }

/-- Inversion of the application of an ownership plan.

**Proof sketch.** Every branch of `applyOwnershipPlan` raises or updates one canonical table; the
creation of a customer or a project also grants scope. -/
lemma applyOwnershipPlan_application (principal : Principal) (plan : Ownership.OwnershipPlan)
    (w : Working) :
    Application principal w (.ownership plan) (Ownership.applyOwnershipPlan principal plan w) := by
  unfold Ownership.applyOwnershipPlan
  split
  · rename_i htype
    simp only [Ownership.applyCustomer]
    split
    · rename_i hnew
      exact .customer plan rfl htype hnew
    · exact .written { w.db.canonical with customers := _ }
  · rename_i htype
    simp only [Ownership.applyProject]
    split
    · exact .raised _
    · split
      · rename_i hnew
        exact .project plan _ rfl htype hnew
      · split_ifs
        · exact .raised _
        · exact .written { w.db.canonical with projects := _ }
  · simp only [Ownership.applyProjectSector]
    split
    · split
      · exact .written { w.db.canonical with projectSectors := _ }
      · split_ifs
        · exact .raised _
        · exact .written { w.db.canonical with projectSectors := _ }
    · exact .raised _
  · simp only [Ownership.applyItem]
    split
    · split
      · exact .written { w.db.canonical with items := _ }
      · split_ifs
        · exact .raised _
        · exact .written { w.db.canonical with items := _ }
    · exact .raised _
  · exact applyProjectChild_application principal plan w
  · exact applyProjectChild_application principal plan w
  · simp only [Ownership.applyItemChild]
    split
    · exact .raised _
    · split
      · exact .written { w.db.canonical with itemChildren := _ }
      · split_ifs
        · exact .raised _
        · exact .written { w.db.canonical with itemChildren := _ }

/-- Inversion of the application of an authorization. -/
lemma apply_application (principal : Principal) (record : SyncRecord) (w : Working)
    (grant : Authorized) : Application principal w grant (grant.apply principal record w) := by
  cases grant with
  | ownership plan => exact applyOwnershipPlan_application principal plan w
  | delivery projectId =>
    simp only [Authorized.apply, Delivery.applyDeliveryExecutionOwnership]
    split
    · exact .written { w.db.canonical with projectChildren := _ }
    · split_ifs
      · exact .raised _
      · exact .raised _
      · exact .written w.db.canonical

/-- Application of an authorization leaves the sync tables alone. -/
lemma applied_syncTables (principal : Principal) (record : SyncRecord) (w : Working)
    (grant : Authorized) :
    (grant.apply principal record w).2.db.syncTables = w.db.syncTables := by
  have h := apply_application principal record w grant
  generalize grant.apply principal record w = applied at h ⊢
  cases h with
  | raised e => rfl
  | written c => rfl
  | customer plan hgrant htype hnew => exact (grantCreatedScope_frame _ _ _ _).1
  | project plan customerId hgrant htype hnew => exact (grantCreatedScope_frame _ _ _ _).1

/-- Queueing a blob for collection leaves the sync tables and the canonical ones alone. -/
lemma queueEvidenceGc_frame (env : Env) (now : DateTime) (principal : Principal)
    (record : SyncRecord) (w : Working) :
    (queueEvidenceGc env now principal record w).db.syncTables = w.db.syncTables ∧
      (queueEvidenceGc env now principal record w).db.canonical = w.db.canonical := by
  unfold queueEvidenceGc
  split_ifs
  · split <;> exact ⟨rfl, rfl⟩
  · exact ⟨rfl, rfl⟩

/-- Queueing a blob for collection leaves the scope alone. -/
lemma queueEvidenceGc_scope (env : Env) (now : DateTime) (principal : Principal)
    (record : SyncRecord) (w : Working) :
    (queueEvidenceGc env now principal record w).scope = w.scope := by
  unfold queueEvidenceGc
  split_ifs
  · split <;> rfl
  · rfl

/-- The next revision depends on the entities only. -/
lemma nextRevision_congr {db db' : Db} (h : db.syncTables = db'.syncTables) (organizationId : Str) :
    db.nextRevision organizationId = db'.nextRevision organizationId := by
  have hentities : db.entities = db'.entities := congrArg SyncTables.entities h
  rw [Db.nextRevision, Db.nextRevision, hentities]

/-! ### Record steps -/

namespace RecordStep

/-- The key of the record of a step. -/
def key (s : RecordStep) : EntityKey :=
  (s.input.principal.organizationId, s.record.entityType, s.record.entityID.text)

/-- The stored entity that a step meets. -/
def current (s : RecordStep) : Option SyncEntity :=
  currentEntity s.before s.input.principal s.record

/-- The revision that a step gives to its entity. -/
def revision (s : RecordStep) : ℕ := s.before.db.nextRevision s.input.principal.organizationId

/-- The mutation id of the record was not used before. -/
def Unanswered (s : RecordStep) : Prop :=
  ∃ mutationId, mutationId? s.record = some mutationId ∧
    s.before.db.mutations.get (s.input.principal.organizationId, mutationId) = none

/-- The row that a committed record adds to the change log. -/
def change (s : RecordStep) : SyncChangeLog :=
  { sequence := s.before.db.lastSequence + 1
    organizationId := s.input.principal.organizationId
    entityType := s.record.entityType
    entityId := s.record.entityID
    serverRevision := s.revision
    clientMutationId := s.record.clientMutationID
    operation := if s.record.deletedAt.isSome then .delete else .upsert }

/-- A step that leaves the entities and the change log alone. -/
structure Keeps (s : RecordStep) : Prop where
  entities : s.after.db.entities = s.before.db.entities
  changeLog : s.after.db.changeLog = s.before.db.changeLog
  lastSequence : s.after.db.lastSequence = s.before.db.lastSequence
  reason : s.outcome.reason ≠ .committed

/-- A step that commits its record. -/
structure Commits (env : Env) (s : RecordStep) (payload : Payload) (grant : Authorized)
    (applied : Working) : Prop where
  admitted : Admitted env s.input.principal s.before s.record payload grant applied
  unanswered : s.Unanswered
  fresh : staleRevision s.record s.current = false
  outcome : s.outcome = ⟨true, .committed, some s.revision⟩
  entities : s.after.db.entities =
    s.before.db.entities.set s.key (committedEntity s.record payload s.revision)
  changeLog : s.after.db.changeLog = s.before.db.changeLog ++ [s.change]
  lastSequence : s.after.db.lastSequence = s.before.db.lastSequence + 1
  canonical : s.after.db.canonical = applied.db.canonical

variable {env : Env} {s : RecordStep}

/-- A valid step settles its record. -/
lemma Valid.settles (h : s.Valid env) :
    Settles env s.input.now s.input.principal s.input.batch.deviceID.text s.before s.record s.after
      s.outcome :=
  processRecord_settles _ _ _ _ _ _ h

/-- No rejection is reported as a commit. -/
lemma rejectionCode_ne_committed (e : Exc) : rejectionCode e ≠ .committed := by
  cases e <;> simp [rejectionCode]

/-- A step without a committed record leaves the entities and the change log alone; otherwise it
writes one entity and one change.

**Proof sketch.** By the five ways a record is settled. A replay and a rejection write at most
mutation rows; the `try` block itself writes no sync table (`applied_syncTables`,
`queueEvidenceGc_frame`). -/
theorem Valid.keeps_or_commits (h : s.Valid env) :
    s.Keeps ∨ ∃ payload grant applied, s.Commits env payload grant applied := by
  obtain ⟨input, before, record, after, outcome⟩ := s
  have hsettles := h.settles
  dsimp only at hsettles
  cases hsettles with
  | unnamed hm => exact Or.inl ⟨rfl, rfl, rfl, by simp⟩
  | answered hm hp =>
    refine Or.inl ⟨rfl, rfl, rfl, ?_⟩
    simp only [replayOutcome]
    split_ifs <;> simp
  | stale hm hp hs => exact Or.inl ⟨rfl, rfl, rfl, by simp⟩
  | refused hm hp hs ha hc =>
    rename_i mutationId e w'
    have hsync : w'.db.syncTables = before.db.syncTables := by
      rcases attempt_eq_error ha with rfl | ⟨payload, grant, -, -, happly⟩
      · rfl
      · rw [← applied_syncTables input.principal record before grant, happly]
    exact Or.inl ⟨congrArg SyncTables.entities hsync, congrArg SyncTables.changeLog hsync,
      congrArg SyncTables.lastSequence hsync, rejectionCode_ne_committed e⟩
  | committed hm hp hs ha =>
    rename_i mutationId payload w'
    obtain ⟨grant, applied, hadmitted, rfl⟩ := attempt_eq_ok ha
    have hframe := queueEvidenceGc_frame env input.now input.principal record applied
    have hsync : (queueEvidenceGc env input.now input.principal record applied).db.syncTables =
        before.db.syncTables := by
      rw [hframe.1, ← applied_syncTables input.principal record before grant, hadmitted.applied]
    have hentities := congrArg SyncTables.entities hsync
    have hlog := congrArg SyncTables.changeLog hsync
    have hlast := congrArg SyncTables.lastSequence hsync
    have hrevision := nextRevision_congr hsync input.principal.organizationId
    simp only [Db.syncTables] at hentities hlog hlast
    refine Or.inr ⟨payload, grant, applied, hadmitted, ⟨mutationId, hm, hp⟩, hs, ?_, ?_, ?_, ?_,
      ?_⟩
    · simp only [revision, hrevision]
    · simp only [commitRecord, recordMutation, key, revision, hentities, hrevision]
    · simp only [commitRecord, recordMutation, change, revision, hlog, hlast, hrevision]
    · simp only [commitRecord, recordMutation, hlast]
    · exact hframe.2

/-- A step that reports a commit commits. -/
lemma Valid.commits_of_reason (h : s.Valid env) (hreason : s.outcome.reason = .committed) :
    ∃ payload grant applied, s.Commits env payload grant applied := by
  rcases h.keeps_or_commits with hkeeps | hcommits
  · exact absurd hreason hkeeps.reason
  · exact hcommits

/-- A fresh record with a mutation id of its own that the `try` block admits is committed. -/
lemma Valid.of_admitted (h : s.Valid env) (hu : s.Unanswered)
    (hs : staleRevision s.record s.current = false) {payload : Payload} {grant : Authorized}
    {applied : Working}
    (ha : Admitted env s.input.principal s.before s.record payload grant applied) :
    s.outcome.accepted = true ∧ s.after.db.canonical = applied.db.canonical := by
  obtain ⟨mutationId, hm, hp⟩ := hu
  rw [Valid, processRecord_of_admitted hm hp hs ha] at h
  simp only [Except.ok.injEq, Prod.mk.injEq] at h
  rw [← h.1, ← h.2]
  exact ⟨rfl, (queueEvidenceGc_frame env s.input.now s.input.principal s.record applied).2⟩

/-- What a step does to the canonical tables: nothing, or what the application of its
authorization does, whether or not that raised.

**Proof sketch.** By the five ways a record is settled; a rejected application leaves its writes
behind. -/
theorem Valid.canonical (h : s.Valid env) :
    s.after.db.canonical = s.before.db.canonical ∨
      ∃ payload grant, decodePayload env s.record.payload = .ok payload ∧ s.Unanswered ∧
        staleRevision s.record s.current = false ∧
        authorize env s.input.principal s.before s.record s.current payload.items = .ok grant ∧
        s.after.db.canonical =
          (grant.apply s.input.principal s.record s.before).2.db.canonical := by
  obtain ⟨input, before, record, after, outcome⟩ := s
  have hsettles := h.settles
  dsimp only at hsettles
  cases hsettles with
  | unnamed hm => exact Or.inl rfl
  | answered hm hp => exact Or.inl rfl
  | stale hm hp hs => exact Or.inl rfl
  | refused hm hp hs ha hc =>
    rename_i mutationId e w'
    rcases attempt_eq_error ha with rfl | ⟨payload, grant, hdecode, hauth, happly⟩
    · exact Or.inl rfl
    · refine Or.inr ⟨payload, grant, hdecode, ⟨mutationId, hm, hp⟩, hs, hauth, ?_⟩
      simp only [happly]
      rfl
  | committed hm hp hs ha =>
    rename_i mutationId payload w'
    obtain ⟨grant, applied, hadmitted, rfl⟩ := attempt_eq_ok ha
    refine Or.inr ⟨payload, grant, hadmitted.decoded, ⟨mutationId, hm, hp⟩, hs,
      hadmitted.authorized, ?_⟩
    simp only [hadmitted.applied]
    exact (queueEvidenceGc_frame env input.now input.principal record applied).2

end RecordStep

end VitrialSync
