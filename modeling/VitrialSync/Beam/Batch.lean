import VitrialSync.Beam.Admission
import VitrialSync.Program.Run

set_option relaxedAutoImplicit false
set_option autoImplicit false

/-!
# The walk over a batch

`VitrialSync.Batch`: the records of a push are sorted, parents before children, and decided one
after another. The walk threads a store, as the flush of a database would: what a record writes is
what the next one reads. The rows to write come back as effects, in the order of processing.

The walk puts the row of an accepted record into the world as it is, a map, in front of the structs
that were loaded.

## Main definitions

* `VitrialSync.Beam.Batch.Store`, `VitrialSync.Beam.Batch.Effects` — what the walk reads and writes.
* `VitrialSync.Beam.Batch.walkRecord` — `walk_record/4`.
* `VitrialSync.Beam.Batch.run`, `VitrialSync.Beam.Batch.finish` — `run/4` and `finish/2`.
-/

namespace VitrialSync.Beam

open Python Program

/-! ### Cursors and events -/

/-- `Cursor.encode/1`: its clause takes a position of a `BIGINT` column. -/
def Cursor.encode (position : ℕ) : Except Raised Str :=
  if position ≤ 2 ^ 63 - 1 then .ok (cursorText position) else .error .functionClauseError

/-- `MutationEvent.correlation_ref/1`. -/
def correlationRef : Option Str → Option Str
  | none => none
  | some value =>
    if value.isEmpty then none
    else some (Str.ofString "sha256:" ++ (Sha256.hexdigest (value.flatMap utf8)).take 16)

/-- `MutationEvent.t`. -/
structure MutationEvent where
  mutationRef : Option Str
  deviceRef : Option Str
  entityRef : Option Str
  entityType : EntityKind
  resultStatus : ResultStatus
  reason : Reason
  baseServerRevision : Option ℕ
  resultServerRevision : Option ℕ

/-- `MutationEvent.of/3`. -/
def MutationEvent.of (record : Record) (deviceId : Option Str) (outcome : Admission.Outcome) :
    MutationEvent where
  mutationRef := correlationRef record.clientMutationId
  deviceRef := correlationRef deviceId
  entityRef := correlationRef (some record.entityId)
  entityType := record.entityType
  resultStatus := outcome.status
  reason := outcome.reason
  baseServerRevision := record.baseServerRevision
  resultServerRevision := outcome.resultRevision

/-- `EntityOrder.order_for/1`. -/
def EntityKind.order : EntityKind → ℕ
  | known type => type.order
  | other _ => 100

namespace Batch

open Admission (Prior Context Decision)

/-! ### Rows -/

/-- `Batch.Store`. -/
structure Store where
  priors : Table (Option Str) Prior
  fingerprints : Table (Option Str) Str
  world : World
  maxRevision : ℕ

/-- The map of `mutation_row/5`. -/
structure MutationRow where
  organizationId : Str
  clientMutationId : Option Str
  submittedByUserId : Str
  membershipId : Str
  sessionId : Str
  authorizationRevision : ℤ
  deviceId : Option Str
  entityType : EntityKind
  entityId : Str
  baseServerRevision : Option ℕ
  resultServerRevision : Option ℕ
  resultStatus : ResultStatus

/-- The map of `fingerprint_row/2`. -/
structure FingerprintRow where
  organizationId : Str
  clientMutationId : Option Str
  requestFingerprint : Str

/-- The change log row of `accept/5`. -/
structure ChangelogRow where
  organizationId : Str
  entityType : EntityKind
  entityId : Str
  serverRevision : ℕ
  clientMutationId : Option Str
  operation : Operation

/-- `Batch.Effects`. -/
structure Effects where
  mutationRows : List MutationRow
  fingerprintRows : List FingerprintRow
  entityUpserts : List EntityRow
  changelogRows : List ChangelogRow
  membershipGrants : List Ownership.Grant
  evidenceGcRows : List GcRequest
  organizationAuthorizationRevision : ℤ

/-- The effects that a walk begins with. -/
def Effects.start (entryRevision : ℤ) : Effects := ⟨[], [], [], [], [], [], entryRevision⟩

/-- The state of the walk. -/
structure State where
  store : Store
  scope : EffectiveScope
  deviceId : Option Str
  effects : Effects
  results : Table ℕ Admission.Outcome
  events : List MutationEvent

/-! ### Writing -/

section Rows

variable (record : Record) (principal : Principal)

/-- `mutation_row/5`. -/
def mutationRow (status : ResultStatus) (resultRevision : Option ℕ) (deviceId : Option Str) :
    MutationRow where
  organizationId := principal.organizationId
  clientMutationId := record.clientMutationId
  submittedByUserId := principal.userId
  membershipId := principal.membershipId
  sessionId := principal.sessionId
  authorizationRevision := principal.authorizationRevision
  deviceId
  entityType := record.entityType
  entityId := record.entityId
  baseServerRevision := record.baseServerRevision
  resultServerRevision := resultRevision
  resultStatus := status

/-- `fingerprint_row/2`. -/
def fingerprintRow : Except Raised FingerprintRow := do
  return ⟨principal.organizationId, record.clientMutationId, ← record.fingerprint⟩

/-- The prior of `put_priors/4`. -/
def priorOf (status : ResultStatus) (resultRevision : Option ℕ) : Prior :=
  ⟨record.entityType, record.entityId, record.baseServerRevision, status, resultRevision⟩

/-- `put_priors/4`. -/
def putPriors (store : Store) (status : ResultStatus) (resultRevision : Option ℕ) :
    Except Raised Store := do
  let fingerprint ← record.fingerprint
  return { store with
    priors := store.priors.set record.clientMutationId (priorOf record status resultRevision)
    fingerprints := store.fingerprints.set record.clientMutationId fingerprint }

/-- `write_mutation/5`. -/
def writeMutation (s : State) (status : ResultStatus) (resultRevision : Option ℕ) :
    Except Raised State := do
  let fingerprintRow ← fingerprintRow record principal
  let store ← putPriors record s.store status resultRevision
  return { s with
    store
    effects := { s.effects with
      mutationRows := s.effects.mutationRows ++
        [mutationRow record principal status resultRevision s.deviceId]
      fingerprintRows := s.effects.fingerprintRows ++ [fingerprintRow] } }

/-- `write_mutation_if/4`. -/
def writeMutationIf (s : State) (outcome : Admission.Outcome) : Except Raised State :=
  if outcome.writesMutationRow then
    writeMutation record principal s outcome.status outcome.resultRevision
  else .ok s

/-- `record_outcome/4`. -/
def recordOutcome (s : State) (index : ℕ) (outcome : Admission.Outcome) : State :=
  { s with
    results := s.results.set index outcome
    events := s.events ++ [MutationEvent.of record s.deviceId outcome] }

/-- `settle/4`. -/
def settle (s : State) (index : ℕ) (outcome : Admission.Outcome) : Except Raised State := do
  let store ←
    if outcome.writesMutationRow then
      putPriors record s.store outcome.status outcome.resultRevision
    else .ok s.store
  return recordOutcome record { s with store } index outcome

end Rows

/-! ### The world -/

/-- `upsert_by/3`: the new row first. -/
def upsertBy {ρ κ : Type} [DecidableEq κ] (key : ρ → κ) (rows : List ρ) (row : ρ) : List ρ :=
  row :: rows.filter fun r => key r ≠ key row

/-- The key of an entity. -/
def entityKey (row : StoredEntity) : EntityKind × Str := (row.entityType, row.entityId)

/-- The row of a child of a project in the world. -/
def putProjectChild (w : World) (row : ProjectChild) : World :=
  { w with
    projectChildren := upsertBy (fun r => (r.entityType, r.entityId)) w.projectChildren row }

/-- `apply_upsert/2`. -/
def applyUpsert (w : World) : Ownership.Upsert → World
  | .customer row => { w with customers := upsertBy Customer.customerId w.customers row }
  | .project row => { w with projects := upsertBy Project.projectId w.projects row }
  | .projectSector row =>
    { w with
      projectSectors := upsertBy ProjectSector.projectSectorId w.projectSectors row }
  | .item row => { w with items := upsertBy Item.itemId w.items row }
  | .projectChild row => putProjectChild w row
  | .itemChild row =>
    { w with itemChildren := upsertBy (fun r => (r.entityType, r.entityId)) w.itemChildren row }

/-- `apply_canonical_effects/2`. -/
def applyCanonicalEffects (w : World) : Authorized → World
  | .generic _ ownership => ownership.upserts.foldl applyUpsert w
  | .delivery row => putProjectChild w row

/-- `advance_world/4`. -/
def advanceWorld (s : State) (authorized : Authorized) (row : EntityRow) (revision : ℕ) : State :=
  let entities := upsertBy entityKey s.store.world.entities (.map row)
  { s with
    store := { s.store with
      world := applyCanonicalEffects { s.store.world with entities } authorized
      maxRevision := revision } }

/-- `%Canonical.Membership{}`. -/
def emptyMembership : Membership := ⟨none, none, none, false, false, [], []⟩

/-- The membership with the ids of a grant. -/
def widenMembership (membership : Membership) (grant : Ownership.Grant) : Membership :=
  { membership with
    customerIds := membership.customerIds ++ grant.customerIds
    projectIds := membership.projectIds ++ grant.projectIds }

/-- `apply_grant/2`. -/
def applyGrant (s : State) : Authorized → State
  | .generic _ ownership =>
    if ownership.authorizationRevisionBump then
      { s with
        store := { s.store with
          world := { s.store.world with
            membership := some (widenMembership (s.store.world.membership.getD emptyMembership)
              ownership.scopeGrant) } }
        effects := { s.effects with
          membershipGrants := s.effects.membershipGrants ++ [ownership.scopeGrant]
          organizationAuthorizationRevision := s.effects.organizationAuthorizationRevision + 1 } }
    else s
  | .delivery _ => s

/-- `widen_working_scope/2`, on the scope. -/
def widenScope (scope : EffectiveScope) : Authorized → EffectiveScope
  | .generic plan _ =>
    if plan.entityType = .known .customer ∧ plan.isCreate then scope.addCustomer plan.entityId
    else if plan.entityType = .known .project ∧ plan.isCreate then scope.addProject plan.entityId
    else scope
  | .delivery _ => scope

/-- `widen_working_scope/2`. -/
def widenWorkingScope (s : State) (authorized : Authorized) : State :=
  { s with scope := widenScope s.scope authorized }

/-- `add_effects/4`. -/
def addEffects (s : State) (row : EntityRow) (change : ChangelogRow)
    (evidenceGc : Option GcRequest) : State :=
  { s with
    effects := { s.effects with
      entityUpserts := s.effects.entityUpserts ++ [row]
      changelogRows := s.effects.changelogRows ++ [change]
      evidenceGcRows := s.effects.evidenceGcRows ++ evidenceGc.toList } }

/-! ### The walk -/

/-- The row of an accepted record in `accept/5`. -/
def entityRow (record : Record) (principal : Principal) (payload : Object) (revision : ℕ) :
    EntityRow where
  organizationId := principal.organizationId
  entityType := record.entityType
  entityId := record.entityId
  serverRevision := revision
  payload := if record.tombstone then none else some payload
  updatedAt := record.updatedAt
  deletedAt := record.deletedAt

/-- The change of an accepted record in `accept/5`. -/
def changelogRow (record : Record) (principal : Principal) (revision : ℕ) : ChangelogRow where
  organizationId := principal.organizationId
  entityType := record.entityType
  entityId := record.entityId
  serverRevision := revision
  clientMutationId := record.clientMutationId
  operation := if record.tombstone then .delete else .upsert

/-- `accept/5`. -/
def accept (s : State) (index : ℕ) (record : Record) (principal : Principal)
    (admitted : Admitted) : Except Raised State := do
  let revision := s.store.maxRevision + 1
  let row := entityRow record principal admitted.payload revision
  let written ← writeMutation record principal s .accepted (some revision)
  let advanced := advanceWorld written admitted.authorized row revision
  let widened := widenWorkingScope (applyGrant advanced admitted.authorized) admitted.authorized
  settle record
    (addEffects widened row (changelogRow record principal revision) admitted.evidenceGc) index
    ⟨.accepted, .committed, some revision, true, some admitted.payload⟩

/-- `revision_of/1`: its clauses take `nil` and the struct. -/
def revisionOf : Option StoredEntity → Except Raised (Option ℕ)
  | none => .ok none
  | some (.struct e) => .ok e.serverRevision
  | some (.map _) => .error .functionClauseError

/-- The entity of a record in the threaded world. -/
def currentEntity (store : Store) (record : Record) : Option StoredEntity :=
  store.world.entity record.entityType record.entityId

/-- The context of a record. -/
def contextOf (store : Store) (record : Record) : Context where
  prior := store.priors.get record.clientMutationId
  priorFingerprint := store.fingerprints.get record.clientMutationId
  entityExists := (currentEntity store record).isSome
  currentServerRevision := (currentEntity store record).bind StoredEntity.serverRevision

/-- The decision about a record in a state of the walk. -/
def decideRecord (s : State) (record : Record) (principal : Principal) : Except Raised Decision :=
  Admission.decide record (contextOf s.store record) (currentEntity s.store record) principal
    s.scope s.store.world

/-- `walk_record/4`. -/
def walkRecord (principal : Principal) (s : State) (indexed : Record × ℕ) :
    Except Raised State := do
  let (record, index) := indexed
  match ← decideRecord s record principal with
  | .settled outcome => do
    let written ← writeMutationIf record principal s outcome
    settle record written index outcome
  | .rejected code => do
    let revision ← revisionOf (currentEntity s.store record)
    let written ← writeMutation record principal s .rejected revision
    settle record written index (Admission.reject code revision)
  | .admitted admitted => accept s index record principal admitted

/-- `EntityOrder.sort_key/2` as an order. -/
def precedes (a b : Record × ℕ) : Prop :=
  a.1.entityType.order < b.1.entityType.order ∨
    a.1.entityType.order = b.1.entityType.order ∧ a.2 ≤ b.2

instance : DecidableRel precedes := fun a b => by unfold precedes; infer_instance

/-- `EntityOrder.sort_records/1` of the indexed records. -/
def sortedRecords (records : List Record) : List (Record × ℕ) :=
  records.zipIdx.insertionSort precedes

/-- The revision of the organization that `walk/4` enters with. -/
def entryRevision (store : Store) : ℤ :=
  store.world.organization.elim 0 Organization.authorizationRevision

/-- The state that `walk/4` begins with. -/
def State.start (deviceId : Option Str) (principal : Principal) (store : Store) : State where
  store
  scope := .fromPrincipal principal
  deviceId
  effects := .start (entryRevision store)
  results := .empty
  events := []

/-- The last state of `walk/4`. -/
def walk (records : List Record) (deviceId : Option Str) (principal : Principal) (store : Store) :
    Except Raised State :=
  (sortedRecords records).foldlM (walkRecord principal) (.start deviceId principal store)

/-! ### Batches -/

/-- `Batch.Result`. -/
structure Result where
  acceptedRecordIds : List Str
  rejectedRecordIds : List Str
  nextCursor : Str
  deriving DecidableEq

/-- `Batch.Run`. -/
structure Run where
  records : List Record
  results : Table ℕ Admission.Outcome
  events : List MutationEvent
  effects : Effects
  result : Option Result

/-- The errors of `run/4`. -/
inductive Denial where
  | capabilityMissing
  | organizationUnavailable
  deriving DecidableEq

/-- The `%Run{}` of a walk. -/
def runOf (records : List Record) (s : State) : Run :=
  ⟨records, s.results, s.events, s.effects, none⟩

/-- `Batch.run/4`. -/
def run (records : List Record) (deviceId : Option Str) (principal : Principal) (store : Store) :
    Except Raised (Except Denial Run) :=
  if !principal.holds .sync then .ok (.error .capabilityMissing)
  else if store.world.organization.isNone then .ok (.error .organizationUnavailable)
  else do return .ok (runOf records (← walk records deviceId principal store))

/-- `Map.fetch!/2` on the results. -/
def fetchOutcome (results : Table ℕ Admission.Outcome) (index : ℕ) : Except Raised Admission.Outcome :=
  match results.get index with
  | some outcome => .ok outcome
  | none => .error .keyError

/-- `Batch.finish/2`. -/
def finish (run : Run) (maxSequence : Option ℕ) : Except Raised Run := do
  let settled ← run.records.zipIdx.mapM fun (record, index) => do
    return (record, ← fetchOutcome run.results index)
  let accepted := settled.filter fun r => r.2.status == .accepted
  let rejected := settled.filter fun r => r.2.status != .accepted
  let nextCursor ← Cursor.encode (maxSequence.getD 0)
  return { run with
    result := some ⟨accepted.map fun r => r.1.id, rejected.map fun r => r.1.id, nextCursor⟩ }

end Batch

/-! ### Samples -/

namespace Sample

/-- A record with the JSON text of an object as payload. -/
def record (entityType : EntityType) (entityId mutationId : String) (base : Option ℕ)
    (payload : Dict) (deletedAt : Option String := none) : Record where
  id := mutationId
  entityType := .known entityType
  entityId
  updatedAt := "2026-01-01T00:00:00Z"
  payload := asciiBytes (Json.dumps true (.dict payload))
  baseServerRevision := base
  clientMutationId := some mutationId
  deletedAt := deletedAt.map Str.ofString

/-- The world of an organization with one member and no rows. -/
def world : World :=
  { World.empty with
    membership := some ⟨some "o", some "u", some true, true, true, [], []⟩
    organization := some ⟨1⟩ }

/-- The store of an organization to which nothing has been pushed. -/
def store : Batch.Store := ⟨.empty, .empty, world, 0⟩

/-- A customer. -/
def customer : Record := record .customer "c" "1" none [("id", .str "c")]

/-- A customer, a project, a sector and an item. -/
def setup : List Record :=
  [customer, record .project "p" "2" none [("id", .str "p"), ("customerID", .str "c")],
    record .projectSector "ps" "3" none
      [("id", .str "ps"), ("projectID", .str "p"), ("sectorID", .str "x")],
    record .item "i" "4" none
      [("id", .str "i"), ("projectID", .str "p"), ("projectSectorID", .str "ps")]]

end Sample

end VitrialSync.Beam
