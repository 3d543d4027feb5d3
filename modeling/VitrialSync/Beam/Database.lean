import VitrialSync.Beam.Batch
import VitrialSync.Beam.JsonEncoder

set_option relaxedAutoImplicit false
set_option autoImplicit false

/-!
# The database under the BEAM

The tables that `VitrialSync.Db.Reads` selects from and that `VitrialSync.Db.Writes` writes. They
are the tables of the reference. The canonical ones have the rows of the reference, since no
statement here writes them; the others take whatever text the column takes.

A query reads one table. A row comes back as a map, and only the organization and the membership of
a world are made structs. The canonical tables are selected whole: no query of them names an
organization, and what is selected for the blobs is the queue of the deletions.

The columns that the server clocks are left out.

## Main definitions

* `VitrialSync.Beam.Database` — the tables.
* `VitrialSync.Beam.Statement`, `VitrialSync.Beam.Statement.apply` — a statement of `Db.Writes`, and
  what it does.
* `VitrialSync.Beam.Writes.effects` — `Writes.effects/4`.
* `VitrialSync.Beam.Query`, `VitrialSync.Beam.Query.answer` — a query of `PushService.decide/5`.
* `VitrialSync.Beam.load` — the answers to all of them.

## Main results

* `VitrialSync.Beam.Writes.jsonParam_eq` — a parameter of JSON raises where `JSON.encode` does.
-/

namespace VitrialSync.Beam

open Python Program

/-! ### Tables -/

/-- The other columns of a row of `sync_entities`. -/
structure EntityColumns where
  serverRevision : ℕ
  payload : Option Dict
  updatedAt : Timestamp.Utc
  deletedAt : Option Timestamp.Utc

/-- A row of `sync_change_log`. -/
structure Change where
  sequence : ℕ
  row : Batch.ChangelogRow

/-- A row of `evidence_object_gc`; the time is in microseconds. -/
structure GcRow where
  organizationId : Str
  documentId : Str
  storageProvider : Str
  objectKey : Str
  reason : String
  notBefore : ℤ

/-- The tables. -/
structure Database where
  organizations : Table Str VitrialSync.Organization
  memberships : Table Str VitrialSync.Membership
  customers : Table OrgKey CanonicalCustomer
  projects : Table OrgKey CanonicalProject
  projectSectors : Table OrgKey CanonicalProjectSector
  items : Table OrgKey CanonicalItem
  projectChildren : Table EntityKey CanonicalProjectChild
  itemChildren : Table EntityKey CanonicalItemChild
  entities : Table (Str × EntityKind × Str) EntityColumns
  mutations : Table OrgKey Batch.MutationRow
  fingerprints : Table OrgKey Str
  changeLog : List Change
  lastSequence : ℕ
  evidenceGc : List GcRow

/-- `Reads.max_sequence/2`. -/
def Database.maxSequence (d : Database) (organizationId : Str) : ℕ :=
  ((d.changeLog.filter fun c => c.row.organizationId == organizationId).map
    Change.sequence).foldl max 0

/-! ### Writes -/

/-- The statements of `Db.Writes`, with their parameters. -/
inductive Statement where
  | mutationInsert (row : Batch.MutationRow)
  | fingerprintInsert (row : Batch.FingerprintRow)
  | entityUpsert (key : Str × EntityKind × Str) (columns : EntityColumns)
  | changelogInsert (row : Batch.ChangelogRow)
  | membershipGrant (grant : Ownership.Grant) (membershipId : Str)
  | evidenceGcInsert (row : GcRow)
  | organizationRevisionUpdate (revision : ℤ) (organizationId : Str)

namespace Writes

/-- `timestamp_param/1` of a text. -/
def timestampParam (iso : Str) : Except Raised Timestamp.Utc :=
  match Timestamp.fromIso8601? iso with
  | some t => .ok t
  | none => .error .argumentError

/-- `timestamp_param/1`. -/
def optionalTimestampParam : Option Str → Except Raised (Option Timestamp.Utc)
  | none => .ok none
  | some iso => (timestampParam iso).map some

/-- `Codec.encode_param/1` of a map or a list, as far as it raises. -/
def jsonParam (term : Value) : Except Raised Unit :=
  if term.texts.any fun s => s.any fun c => JSON.Unescapable c then .error .argumentError
  else .ok ()

/-- On strings of UTF-8 it raises when the encoder does.

**Proof sketch.** The encoder writes the term or raises this exception (`raises_encodeValue`), and
which terms it writes is known (`encodeValue_isOk_iff`). -/
lemma jsonParam_eq (runtime : Runtime) {term : Value} (h : ∀ s ∈ term.texts, JSON.Scalar s) :
    jsonParam term = (JSON.encode runtime term).map fun _ => () := by
  have hwritten := JSON.encodeValue_isOk_iff runtime term
  have hany : (term.texts.any fun s => s.any fun c => decide (JSON.Unescapable c)) = true ↔
      ¬ ∀ s ∈ term.texts, ∀ c ∈ s, ¬ JSON.Unescapable c := by
    simp
  by_cases hchars : ∀ s ∈ term.texts, ∀ c ∈ s, ¬ JSON.Unescapable c
  · obtain ⟨t, ht⟩ := hwritten.mpr fun s hs c hc => ⟨hchars s hs c hc, h s hs c hc⟩
    rw [jsonParam, if_neg fun hraises => hany.mp hraises hchars, JSON.encode, ht]
    rfl
  · have hraised := (JSON.raises_encodeValue runtime h).eq_error fun hok =>
      hchars fun s hs c hc => (hwritten.mp hok s hs c hc).1
    rw [jsonParam, if_pos (hany.mpr hchars), JSON.encode, hraised]
    rfl

/-- `encode/1` of a payload. -/
def payloadParam : Option Object → Except Raised (Option Dict)
  | none => .ok none
  | some payload => (jsonParam (.dict payload.items)).map fun _ => some payload.items

/-- `entity_upsert/1`. -/
def entityUpsert (row : EntityRow) : Except Raised Statement := do
  let payload ← payloadParam row.payload
  let updatedAt ← timestampParam row.updatedAt
  let deletedAt ← optionalTimestampParam row.deletedAt
  return .entityUpsert (row.organizationId, row.entityType, row.entityId)
    ⟨row.serverRevision, payload, updatedAt, deletedAt⟩

/-- `membership_grant/2`. -/
def membershipGrant (membershipId : Str) (grant : Ownership.Grant) : Except Raised Statement := do
  jsonParam (.list (grant.customerIds.map .str))
  jsonParam (.list (grant.projectIds.map .str))
  return .membershipGrant grant membershipId

/-- `evidence_gc_insert/3`. -/
def evidenceGcInsert (organizationId : Str) (now : ℤ) (request : GcRequest) : Statement :=
  .evidenceGcInsert
    { organizationId
      documentId := request.documentId
      storageProvider := request.storageProvider
      objectKey := request.objectKey
      reason := request.reason
      notBefore := now + request.graceSeconds * 1000000 }

/-- The revision update of `effects/4`. -/
def revisionUpdate (revision : ℤ) (organizationId : Str) : List Statement :=
  if 0 < revision then [.organizationRevisionUpdate revision organizationId] else []

/-- `effects/4`. The list is built before its first statement is sent. -/
def effects (fx : Batch.Effects) (organizationId membershipId : Str) (now : ℤ) :
    Except Raised (List Statement) := do
  let entityUpserts ← fx.entityUpserts.mapM entityUpsert
  let grants ← fx.membershipGrants.mapM (membershipGrant membershipId)
  return fx.mutationRows.map .mutationInsert ++ (fx.fingerprintRows.map .fingerprintInsert ++
    (entityUpserts ++ (fx.changelogRows.map .changelogInsert ++ (grants ++
      (fx.evidenceGcRows.map (evidenceGcInsert organizationId now) ++
        revisionUpdate fx.organizationAuthorizationRevision organizationId)))))

end Writes

/-- An insert under a unique key. -/
def insertNew {κ ν : Type} [BEq κ] [LawfulBEq κ] (t : Table κ ν) (k : κ) (v : ν) :
    Option (Table κ ν) :=
  if (t.get k).isNone then some (t.set k v) else none

/-- What a statement does; `none` if the server refuses it for a key that is there, or for a column
that may not be null. -/
def Statement.apply (d : Database) : Statement → Option Database
  | mutationInsert row => do
    let id ← row.clientMutationId
    let _ ← row.deviceId
    let mutations ← insertNew d.mutations (row.organizationId, id) row
    return { d with mutations }
  | fingerprintInsert row => do
    let id ← row.clientMutationId
    let fingerprints ← insertNew d.fingerprints (row.organizationId, id) row.requestFingerprint
    return { d with fingerprints }
  | entityUpsert key columns => some { d with entities := d.entities.set key columns }
  | changelogInsert row =>
    some { d with
      changeLog := d.changeLog ++ [⟨d.lastSequence + 1, row⟩]
      lastSequence := d.lastSequence + 1 }
  | membershipGrant grant membershipId =>
    match d.memberships.get membershipId with
    | none => some d
    | some row =>
      some { d with
        memberships := d.memberships.set membershipId
          { row with
            customerIds := row.customerIds ++ grant.customerIds
            projectIds := row.projectIds ++ grant.projectIds } }
  | evidenceGcInsert row => some { d with evidenceGc := d.evidenceGc ++ [row] }
  | organizationRevisionUpdate revision organizationId =>
    match d.organizations.get organizationId with
    | none => some d
    | some _ => some { d with organizations := d.organizations.set organizationId ⟨revision⟩ }

/-! ### Reads -/

/-- A time as it is decoded, of which only the presence is read. -/
def decodedTime (t : Option DateTime) : Option Str := t.map DateTime.isoformat

namespace Database

variable (d : Database)

/-- The rows of `@select_canonical_customers`. -/
def customerRows : List Customer :=
  d.customers.rows.map fun r => ⟨r.1.2, decodedTime r.2.deletedAt, false⟩

/-- The rows of `@select_canonical_projects`. -/
def projectRows : List Project :=
  d.projects.rows.map fun r => ⟨r.1.2, r.2.customerId, decodedTime r.2.deletedAt, false⟩

/-- The rows of `@select_canonical_project_sectors`. -/
def projectSectorRows : List ProjectSector :=
  d.projectSectors.rows.map fun r =>
    ⟨r.1.2, r.2.projectId, r.2.sectorId, decodedTime r.2.deletedAt, false⟩

/-- The rows of `@select_canonical_items`. -/
def itemRows : List Item :=
  d.items.rows.map fun r =>
    ⟨r.1.2, r.2.projectId, r.2.projectSectorId, decodedTime r.2.deletedAt, false⟩

/-- The rows of `@select_canonical_project_children`. -/
def projectChildRows : List ProjectChild :=
  d.projectChildren.rows.map fun r =>
    ⟨.known r.1.2.1, r.1.2.2, r.2.projectId, decodedTime r.2.deletedAt, false⟩

/-- The rows of `@select_canonical_item_children`. -/
def itemChildRows : List ItemChild :=
  d.itemChildren.rows.map fun r =>
    ⟨.known r.1.2.1, r.1.2.2, r.2.itemId, decodedTime r.2.deletedAt, false⟩

/-- The rows of `@select_evidence_blobs`. -/
def evidenceBlobRows : List EvidenceBlob :=
  d.evidenceGc.map fun r => ⟨r.documentId, r.storageProvider, r.objectKey⟩

/-- The rows of `@select_memberships`. -/
def membershipRows : List VitrialSync.Membership := d.memberships.rows.map Prod.snd

/-- The organization that `Reads.canonical/2` finds, as `organization_struct/1` makes it. -/
def organizationStruct (organizationId : Str) : Option Organization :=
  (d.organizations.get organizationId).map fun row => ⟨row.authorizationRevision⟩

end Database

/-! ### The queries of a push -/

/-- The queries of `PushService.decide/5`. -/
inductive Query where
  | syncMutation (id : Str)
  | syncMutationFingerprint (id : Str)
  | organizations
  | customers
  | projects
  | projectSectors
  | items
  | projectChildren
  | itemChildren
  | evidenceBlobs
  | memberships
  | maxSequence

/-- What the queries of a push have brought so far; the world has no membership yet. -/
structure Loaded where
  priors : Table (Option Str) Admission.Prior
  fingerprints : Table (Option Str) Str
  world : World
  memberships : List VitrialSync.Membership
  maxRevision : ℕ

/-- Before the first query. -/
def Loaded.start : Loaded := ⟨.empty, .empty, .empty, [], 0⟩

/-- `to_prior/1`. -/
def toPrior (row : Batch.MutationRow) : Admission.Prior :=
  ⟨row.entityType, row.entityId, row.baseServerRevision, row.resultStatus,
    row.resultServerRevision⟩

/-- A row that was found is put under its id. -/
def putFound {ν : Type} (t : Table (Option Str) ν) (id : Str) : Option ν → Table (Option Str) ν
  | none => t
  | some v => t.set (some id) v

/-- The answer to a query is added to what is loaded. -/
def Query.answer (organizationId : Str) (d : Database) (l : Loaded) : Query → Loaded
  | syncMutation id =>
    { l with
      priors := putFound l.priors id ((d.mutations.get (organizationId, id)).map toPrior) }
  | syncMutationFingerprint id =>
    { l with
      fingerprints := putFound l.fingerprints id (d.fingerprints.get (organizationId, id)) }
  | organizations =>
    { l with world := { l.world with organization := d.organizationStruct organizationId } }
  | customers => { l with world := { l.world with customers := d.customerRows } }
  | projects => { l with world := { l.world with projects := d.projectRows } }
  | projectSectors => { l with world := { l.world with projectSectors := d.projectSectorRows } }
  | items => { l with world := { l.world with items := d.itemRows } }
  | projectChildren => { l with world := { l.world with projectChildren := d.projectChildRows } }
  | itemChildren => { l with world := { l.world with itemChildren := d.itemChildRows } }
  | evidenceBlobs => { l with world := { l.world with evidenceBlobs := d.evidenceBlobRows } }
  | memberships => { l with memberships := d.membershipRows }
  | maxSequence => { l with maxRevision := d.maxSequence organizationId }

/-- The mutation ids that are looked up. -/
def lookedUp (records : List Record) : List Str :=
  (records.filterMap Record.clientMutationId).eraseDups

/-- The queries for a batch, in their order. -/
def queries (records : List Record) : List Query :=
  (lookedUp records).map .syncMutation ++ (lookedUp records).map .syncMutationFingerprint ++
    [.organizations, .customers, .projects, .projectSectors, .items, .projectChildren,
      .itemChildren, .evidenceBlobs, .memberships, .maxSequence]

/-- What the queries bring from one database. -/
def load (d : Database) (records : List Record) (organizationId : Str) : Loaded :=
  (queries records).foldl (fun l q => q.answer organizationId d l) .start

/-- `@seed_user_id`. -/
def seedUserId : Str := Str.ofString "user-1"

/-- `membership_struct/2`: a row has an `id`, its roles and its capabilities, which are no keys of
the struct. -/
def membershipStruct (rows : List VitrialSync.Membership) (organizationId : Str) :
    Except Raised (Option Membership) :=
  match rows.find? fun row => row.organizationId == organizationId && row.userId == seedUserId with
  | none => .ok none
  | some _ => .error .keyError

/-- The store of `decide/5`, with the world of `load_world/2`. -/
def Loaded.store (l : Loaded) (organizationId : Str) : Except Raised Batch.Store := do
  let membership ← membershipStruct l.memberships organizationId
  return ⟨l.priors, l.fingerprints, { l.world with membership }, l.maxRevision⟩

end VitrialSync.Beam
