import VitrialSync.Beam.Terms
import VitrialSync.Server.Database

set_option relaxedAutoImplicit false
set_option autoImplicit false

/-!
# The canonical state and the provenance of an event

`VitrialSync.Canonical`: the rows of one organization that the decisions of the push read, as lists
that are scanned from the head, and `VitrialSync.Provenance`. The principal and the scope have the
fields of `app.auth.Principal` and `EffectiveScope`, so both servers share these types.

The entities of a world are `%Canonical.Entity{}` structs when they are loaded. The walk over a
batch adds plain maps to the same list, and a clause that matches the struct does not match these;
the model keeps the two apart. The other rows are structs, too, or plain maps with the same keys, as
`Db.Rows` decodes them: a field of either can be read, but no clause for a struct takes a map.

## Main definitions

* `VitrialSync.Beam.World` — the rows, with the accessors `World.customer` to `World.entity`.
* `VitrialSync.Beam.payloadObject` — `Canonical.payload_object/1`.
* `VitrialSync.Beam.checkProvenance`, `VitrialSync.Beam.requireCurrentProvenance` —
  `Provenance.check/4` and `Provenance.require_current/2`.
-/

namespace VitrialSync.Beam

open Python Program

/-! ### Rows -/

/-- The type of a record: one of the contract's types, or any other text. -/
inductive EntityKind where
  | known (type : EntityType)
  | other (name : Str)
  deriving DecidableEq

/-- The equality test of entities decides equality. -/
instance (priority := 2000) EntityKind.lawfulBEq_key : LawfulBEq (Str × EntityKind × Str) :=
  inferInstance

/-- The text of a type. -/
def EntityKind.text : EntityKind → Str
  | known type => Str.ofString type.name
  | other name => name

/-- `Canonical.Customer`. -/
structure Customer where
  customerId : Str
  deletedAt : Option Str
  isStruct : Bool := true

/-- `Canonical.Project`. -/
structure Project where
  projectId : Str
  customerId : Str
  deletedAt : Option Str
  isStruct : Bool := true

/-- `Canonical.ProjectSector`. -/
structure ProjectSector where
  projectSectorId : Str
  projectId : Str
  sectorId : Str
  deletedAt : Option Str
  isStruct : Bool := true

/-- `Canonical.Item`. -/
structure Item where
  itemId : Str
  projectId : Str
  projectSectorId : Option Str
  deletedAt : Option Str
  isStruct : Bool := true

/-- `Canonical.ItemChild`. -/
structure ItemChild where
  entityType : EntityKind
  entityId : Str
  itemId : Str
  deletedAt : Option Str
  isStruct : Bool := true

/-- `Canonical.ProjectChild`. -/
structure ProjectChild where
  entityType : EntityKind
  entityId : Str
  projectId : Str
  deletedAt : Option Str
  isStruct : Bool := true

/-- A clause for a struct that is no tombstone, `%T{deleted_at: nil}`, takes a row. -/
def matchesLive (isStruct : Bool) (deletedAt : Option Str) : Bool := isStruct && deletedAt.isNone

/-- It takes the structs without a deletion. -/
@[simp]
lemma matchesLive_iff {isStruct : Bool} {deletedAt : Option Str} :
    matchesLive isStruct deletedAt = true ↔ isStruct = true ∧ deletedAt = none := by
  simp [matchesLive]

/-- A `case` with the clauses `nil` and `%T{}`. -/
def nilOrStruct {ρ : Type} (isStruct : ρ → Bool) : Option ρ → Except Fault (Option ρ)
  | none => .ok none
  | some row => if isStruct row then .ok (some row) else .error (.raised .caseClauseError)

/-- `Canonical.Entity`. -/
structure Entity where
  entityType : EntityKind
  entityId : Str
  payload : Term
  deletedAt : Option Str
  serverRevision : Option ℕ

/-- The map that an accepted record leaves in the world, and that becomes a row of the entities. -/
structure EntityRow where
  organizationId : Str
  entityType : EntityKind
  entityId : Str
  serverRevision : ℕ
  payload : Option Object
  updatedAt : Str
  deletedAt : Option Str

/-- What the list of entities holds: loaded structs, and the maps of the batch. -/
inductive StoredEntity where
  | struct (entity : Entity)
  | map (row : EntityRow)

namespace StoredEntity

/-- `row.entity_type`. -/
def entityType : StoredEntity → EntityKind
  | struct e => e.entityType
  | map r => r.entityType

/-- `row.entity_id`. -/
def entityId : StoredEntity → Str
  | struct e => e.entityId
  | map r => r.entityId

/-- `row.payload`. -/
def payload : StoredEntity → Value
  | struct e => e.payload.value
  | map r => r.payload.elim .none fun o => .dict o.items

/-- `row.deleted_at`. -/
def deletedAt : StoredEntity → Option Str
  | struct e => e.deletedAt
  | map r => r.deletedAt

/-- `row.server_revision`. -/
def serverRevision : StoredEntity → Option ℕ
  | struct e => e.serverRevision
  | map r => some r.serverRevision

end StoredEntity

/-- `Canonical.EvidenceBlob`. -/
structure EvidenceBlob where
  documentId : Str
  storageProvider : Str
  objectKey : Str

/-- `Canonical.Membership`. -/
structure Membership where
  organizationId : Option Str
  userId : Option Str
  active : Option Bool
  allCustomers : Bool
  allProjects : Bool
  customerIds : List Str
  projectIds : List Str

/-- `Canonical.Organization`. -/
structure Organization where
  authorizationRevision : ℤ

/-- `Canonical.World`. -/
structure World where
  customers : List Customer
  projects : List Project
  projectSectors : List ProjectSector
  items : List Item
  itemChildren : List ItemChild
  projectChildren : List ProjectChild
  entities : List StoredEntity
  evidenceBlobs : List EvidenceBlob
  membership : Option Membership
  organization : Option Organization

/-! ### Accessors -/

namespace World

/-- `Canonical.empty_world/0`. -/
def empty : World := ⟨[], [], [], [], [], [], [], [], none, none⟩

/-- `Canonical.customer/2`. -/
def customer (w : World) (customerId : Str) : Option Customer :=
  w.customers.find? fun row => row.customerId == customerId

/-- `Canonical.project/2`. -/
def project (w : World) (projectId : Str) : Option Project :=
  w.projects.find? fun row => row.projectId == projectId

/-- `Canonical.project_sector/2`. -/
def projectSector (w : World) (id : Str) : Option ProjectSector :=
  w.projectSectors.find? fun row => row.projectSectorId == id

/-- `Canonical.item/2`. -/
def item (w : World) (itemId : Str) : Option Item :=
  w.items.find? fun row => row.itemId == itemId

/-- `Canonical.item_child/3`. -/
def itemChild (w : World) (entityType : EntityKind) (entityId : Str) : Option ItemChild :=
  w.itemChildren.find? fun row => row.entityType == entityType && row.entityId == entityId

/-- `Canonical.project_child/3`. -/
def projectChild (w : World) (entityType : EntityKind) (entityId : Str) : Option ProjectChild :=
  w.projectChildren.find? fun row => row.entityType == entityType && row.entityId == entityId

/-- `Canonical.entity/3`. -/
def entity (w : World) (entityType : EntityKind) (entityId : Str) : Option StoredEntity :=
  w.entities.find? fun row => row.entityType == entityType && row.entityId == entityId

/-- `Canonical.evidence_blob/2`. -/
def evidenceBlob (w : World) (documentId : Str) : Option EvidenceBlob :=
  w.evidenceBlobs.find? fun row => row.documentId == documentId

/-- `Canonical.active_item_child/3`. -/
def activeItemChild (w : World) (entityType : EntityKind) (entityId : Str) : Option ItemChild :=
  (w.itemChild entityType entityId).filter fun child => matchesLive child.isStruct child.deletedAt

/-- `Canonical.item_has_live_audit_history?/2`. -/
def itemHasLiveAuditHistory (w : World) (itemId : Str) : Bool :=
  w.itemChildren.any fun row =>
    row.entityType == .known .itemAuditEvent && row.itemId == itemId && row.deletedAt.isNone

/-- `Canonical.item_has_live_sidecars?/2`. -/
def itemHasLiveSidecars (w : World) (itemId : Str) : Bool :=
  w.itemChildren.any fun row =>
    row.entityType != .known .itemAuditEvent && row.itemId == itemId && row.deletedAt.isNone

/-- `Canonical.customer_has_live_projects?/2`. -/
def customerHasLiveProjects (w : World) (customerId : Str) : Bool :=
  w.projects.any fun row => row.customerId == customerId && row.deletedAt.isNone

/-- `Canonical.project_has_live_children?/2`. -/
def projectHasLiveChildren (w : World) (projectId : Str) : Bool :=
  (w.projectSectors.any fun row => row.projectId == projectId && row.deletedAt.isNone) ||
    (w.items.any fun row => row.projectId == projectId && row.deletedAt.isNone) ||
    (w.projectChildren.any fun row => row.projectId == projectId && row.deletedAt.isNone)

/-- `Canonical.project_sector_has_live_items?/2`. -/
def projectSectorHasLiveItems (w : World) (projectSectorId : Str) : Bool :=
  w.items.any fun row => row.projectSectorId == some projectSectorId && row.deletedAt.isNone

/-- `jsonb_array_contains?/2`. -/
def jsonbArrayContains (values : Value) (evidenceId : Str) : Bool :=
  values.list?.any fun xs => xs.any fun x => x.isStr evidenceId

/-- `references_evidence?/2`. -/
def referencesEvidence (payload : Value) (evidenceId : Str) : Bool :=
  payload.dict?.any fun d =>
    jsonbArrayContains (d.get "evidenceReferences") evidenceId ||
      jsonbArrayContains (d.get "evidenceReferenceIDs") evidenceId

/-- `Canonical.evidence_referenced?/2`. -/
def evidenceReferenced (w : World) (evidenceId : Str) : Bool :=
  w.entities.any fun row =>
    (row.entityType == .known .measurement || row.entityType == .known .customerRequirement) &&
      row.deletedAt.isNone && referencesEvidence row.payload evidenceId

end World

/-- `Canonical.payload_object/1`: its clauses take `nil` and the struct. -/
def payloadObject : Option StoredEntity → Except Fault (Option Object)
  | none => .ok none
  | some (.struct e) => .ok e.payload.object?
  | some (.map _) => .error (.raised .functionClauseError)

/-- `%Canonical.Entity{deleted_at: nil} = row`: a struct that is not tombstoned. -/
def activeStruct : Option StoredEntity → Option Entity
  | some (.struct e) => if e.deletedAt.isNone then some e else none
  | _ => none

/-! ### Provenance -/

/-- The first arm of `Provenance.check/4`: an entry with all five fields. -/
def provenanceIncomplete (value : Dict) : Bool :=
  (normalized (value.get "actorID")).isNone || (normalized (value.get "organizationID")).isNone ||
    (normalized (value.get "membershipID")).isNone ||
    (normalized (value.get "sessionID")).isNone ||
    !(value.get "authorizationRevision").properInt?.any (0 ≤ ·)

/-- The last arm of `Provenance.check/4`: a field of the current actor that differs. -/
def provenanceMismatch (value : Dict) (principal : Principal) : Bool :=
  normalized (value.get "actorID") != some principal.userId ||
    normalized (value.get "membershipID") != some principal.membershipId ||
    normalized (value.get "sessionID") != some principal.sessionId ||
    pyNe (value.get "authorizationRevision") (.int principal.authorizationRevision)

/-- `Provenance.check/4`. -/
def checkProvenance (value : Dict) (principal : Option Principal) (currentActor : Bool)
    (texts : ProvenanceTexts) : Except Fault Unit :=
  if provenanceIncomplete value then refuse texts.incomplete
  else
    match principal with
    | none => .ok ()
    | some principal =>
      if normalized (value.get "organizationID") ≠ some principal.organizationId then
        refuse texts.organization
      else refuseIf (currentActor && provenanceMismatch value principal) texts.mismatch

/-- The fields of `Provenance.require_current/2`. -/
def currentProvenance (principal : Principal) : List (String × Value) :=
  [("actorID", .str principal.userId), ("organizationID", .str principal.organizationId),
    ("membershipID", .str principal.membershipId), ("sessionID", .str principal.sessionId),
    ("authorizationRevision", .int principal.authorizationRevision)]

/-- `Provenance.require_current/2`. -/
def requireCurrentProvenance (value : Dict) (principal : Principal) : Except Fault Unit :=
  (currentProvenance principal).forM fun (key, expected) =>
    refuseIf (!pyEq (value.get key) expected) (key ++ " does not match authenticated provenance")

end VitrialSync.Beam
