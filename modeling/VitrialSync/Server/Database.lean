import VitrialSync.Program.Table
import VitrialSync.Server.Schema

set_option relaxedAutoImplicit false
set_option autoImplicit false

/-!
# The database of the service

The tables of `app/models.py`, `app/idempotency.py` and `app/reference_models.py` that a push or a
pull reads or writes. A table is keyed by its primary key; the key columns are not repeated in the
row. The session flushes before every query, so a row is visible as soon as it was added, and the
model writes it at once.

`SyncChangeLog.sequence` and `EvidenceObjectGC.id` come from database sequences, which are modelled
by the counters `Db.lastSequence` and `Db.lastGcId`.

## Main definitions

* `VitrialSync.Db` — the tables.
* `VitrialSync.Db.nextRevision` — `_next_revision`.
* `VitrialSync.Db.maxSequence` — the highest sequence of an organization's changes.
* `VitrialSync.Working` — what a batch works on: the tables and the effective scope.
-/

namespace VitrialSync

open Python Program

/-! ### Rows -/

/-- `Organization`. -/
structure Organization where
  authorizationRevision : ℤ

/-- `Membership`. -/
structure Membership where
  organizationId : Str
  userId : Str
  active : Bool
  allCustomers : Bool
  allProjects : Bool
  customerIds : List Str
  projectIds : List Str

/-- `CanonicalCustomer`. -/
structure CanonicalCustomer where
  deletedAt : Option DateTime

/-- `CanonicalProject`. -/
structure CanonicalProject where
  customerId : Str
  deletedAt : Option DateTime

/-- `CanonicalProjectSector`. -/
structure CanonicalProjectSector where
  projectId : Str
  sectorId : Str
  deletedAt : Option DateTime

/-- `CanonicalItem`. -/
structure CanonicalItem where
  projectId : Str
  projectSectorId : Option Str
  deletedAt : Option DateTime

/-- `CanonicalProjectChild`. -/
structure CanonicalProjectChild where
  projectId : Str
  deletedAt : Option DateTime

/-- `CanonicalItemChild`. -/
structure CanonicalItemChild where
  itemId : Str
  deletedAt : Option DateTime

/-- `SyncEntity`. -/
structure SyncEntity where
  serverRevision : ℕ
  payloadJson : Option Payload
  updatedAt : DateTime
  deletedAt : Option DateTime

/-- `SyncMutation.result_status`. -/
inductive ResultStatus where
  | accepted
  | rejected
  deriving DecidableEq

/-- `SyncMutation`. -/
structure SyncMutation where
  submittedByUserId : Str
  membershipId : Str
  sessionId : Str
  authorizationRevision : ℤ
  deviceId : Str
  entityType : EntityType
  entityId : Str
  baseServerRevision : Option ℕ
  resultServerRevision : Option ℕ
  resultStatus : ResultStatus

/-- `SyncChangeLog.operation`. -/
inductive Operation where
  | upsert
  | delete
  deriving DecidableEq

/-- `SyncChangeLog`. -/
structure SyncChangeLog where
  sequence : ℕ
  organizationId : Str
  entityType : EntityType
  entityId : Identifier
  serverRevision : ℕ
  clientMutationId : Option ShortText
  operation : Operation

/-- `EvidenceBlob`. -/
structure EvidenceBlob where
  itemId : Str
  storageProvider : Str
  objectKey : Str

/-- `EvidenceObjectGC`. -/
structure EvidenceObjectGC where
  id : ℕ
  organizationId : Str
  documentId : Str
  storageProvider : Str
  objectKey : Str
  reason : Str
  notBefore : DateTime
  attempts : ℕ

/-- `ReferencePublication.kind`. -/
inductive PublicationKind where
  | catalog
  | compatibilityRules
  | priceBook
  deriving DecidableEq

/-- The column text of a publication kind. -/
def PublicationKind.name : PublicationKind → String
  | catalog => "catalog"
  | compatibilityRules => "compatibility_rules"
  | priceBook => "price_book"

/-- `ReferencePublication`, under its unique key of organization, kind and version. -/
structure ReferencePublication where
  contentSha256 : Str

/-! ### Tables -/

/-- An organization and an identifier. -/
abbrev OrgKey := Str × Str

/-- An organization, an entity type and an identifier. -/
abbrev EntityKey := Str × EntityType × Str

/-- The tables. -/
structure Db where
  organizations : Table Str Organization
  memberships : Table Str Membership
  customers : Table OrgKey CanonicalCustomer
  projects : Table OrgKey CanonicalProject
  projectSectors : Table OrgKey CanonicalProjectSector
  items : Table OrgKey CanonicalItem
  projectChildren : Table EntityKey CanonicalProjectChild
  itemChildren : Table EntityKey CanonicalItemChild
  entities : Table EntityKey SyncEntity
  mutations : Table OrgKey SyncMutation
  fingerprints : Table OrgKey Str
  changeLog : List SyncChangeLog
  lastSequence : ℕ
  evidenceBlobs : Table OrgKey EvidenceBlob
  evidenceGc : List EvidenceObjectGC
  lastGcId : ℕ
  publications : Table (Str × PublicationKind × Str) ReferencePublication

/-- `_next_revision`: one more than the highest revision of the organization's entities. -/
def Db.nextRevision (db : Db) (organizationId : Str) : ℕ :=
  ((db.entities.rows.filter fun r => r.1.1 == organizationId).map
    fun r => r.2.serverRevision).foldl max 0 + 1

/-- `select(func.coalesce(func.max(SyncChangeLog.sequence), 0))` of an organization. -/
def Db.maxSequence (db : Db) (organizationId : Str) : ℕ :=
  ((db.changeLog.filter fun c => c.organizationId == organizationId).map
    fun c => c.sequence).foldl max 0

/-- What a batch works on. -/
structure Working where
  db : Db
  scope : EffectiveScope

end VitrialSync
