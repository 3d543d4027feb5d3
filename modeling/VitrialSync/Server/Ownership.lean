import VitrialSync.Server.Checks
import VitrialSync.Server.Assembly

set_option relaxedAutoImplicit false
set_option autoImplicit false

/-!
# Canonical ownership

`app/ownership.py`: authorization of a record from the canonical tables, and the application of the
ownership plan that authorization returns. Authorization only reads. Application writes, and a
raise inside it leaves what was written before it: the session has no savepoint per record.

`authorize_record` is split along its branches, one definition for each group of entity types.

## Main definitions

* `VitrialSync.Ownership.OwnershipPlan` — the plan.
* `VitrialSync.Ownership.authorizeRecord` — `authorize_record`.
* `VitrialSync.Ownership.applyOwnershipPlan` — `apply_ownership_plan`, with the working state kept
  also when it raises.
* `VitrialSync.Ownership.grantCreatedScope` — `_grant_created_scope`.
* `VitrialSync.Ownership.creatorCanonical` — the condition under which it does not raise.
-/

namespace VitrialSync

open Python Program

/-- `ITEM_CHILD_TYPES`. -/
def EntityType.isItemChild : EntityType → Bool
  | measurement | evidence | customerRequirement | configuration | configurationVersion | blocker
  | itemAuditEvent => true
  | _ => false

/-- `APPEND_ONLY_TYPES`. -/
def EntityType.isAppendOnly : EntityType → Bool
  | itemAuditEvent | configurationVersion => true
  | _ => false

/-- `PROJECT_CHILD_TYPES`. -/
def EntityType.isProjectChild : EntityType → Bool
  | quotation | deliveryExecution => true
  | _ => false

/-- `ENTITY_ORDER`. -/
def EntityType.order : EntityType → ℕ
  | customer => 0
  | project => 1
  | projectSector => 2
  | item => 3
  | itemAuditEvent => 4
  | evidence => 4
  | measurement => 4
  | blocker => 4
  | customerRequirement => 5
  | configuration => 6
  | configurationVersion => 7
  | quotation => 8
  | deliveryExecution => 9

namespace Ownership

/-- `raise AuthorizationRejected(message)`. -/
def rejected (message : String) : Exc := .authorizationRejected message

/-- `OwnershipPlan`. -/
structure OwnershipPlan where
  entityType : EntityType
  entityId : Str
  isCreate : Bool
  deletedAt : Option DateTime
  customerId : Option Str := none
  projectId : Option Str := none
  projectSectorId : Option Str := none
  sectorId : Option Str := none
  itemId : Option Str := none

/-! ### Field checks -/

/-- `_value`. -/
def value (payload : Dict) (key : String) : Except Exc Str :=
  match normalized (payload.get key) with
  | some s => .ok s
  | none => .error (rejected (key ++ " is required for canonical ownership"))

/-- `_require_identity`. -/
def requireIdentity (payload : Dict) (entityId : Str) (deleting : Bool) : Except Exc Unit :=
  let id := payload.get "id"
  raiseIf (!(deleting && id.isNone) && !(id.str?.any fun s => s.strip == entityId))
    (rejected "payload identity does not match canonical entityID")

/-- `_require_capability`. -/
def requireCapability (principal : Principal) (capability : Capability) : Except Exc Unit :=
  raiseIf (!principal.holds capability) (rejected (capability.name ++ " capability required"))

/-- One comparison of `_require_current_provenance`. -/
def requireCurrentField (payload : Dict) (key : String) (expected : Value) : Except Exc Unit :=
  raiseIf ((payload.get key).ne expected)
    (rejected (key ++ " does not match authenticated provenance"))

/-- `_require_current_provenance`. -/
def requireCurrentProvenance (principal : Principal) (payload : Dict) : Except Exc Unit := do
  requireCurrentField payload "actorID" (.str principal.userId)
  requireCurrentField payload "organizationID" (.str principal.organizationId)
  requireCurrentField payload "membershipID" (.str principal.membershipId)
  requireCurrentField payload "sessionID" (.str principal.sessionId)
  requireCurrentField payload "authorizationRevision" (.int principal.authorizationRevision)

/-- A supplied parent that is not `None` must be the canonical one. -/
def requireSameParent (payload : Dict) (key : String) (canonical : Str) (message : String) :
    Except Exc Unit :=
  let supplied := payload.get key
  raiseIf (!supplied.isNone && !supplied.isStr canonical) (rejected message)

/-- `v == text` for an optional column. -/
def isOptionalStr (v : Value) (text : Option Str) : Bool :=
  match text with
  | some s => v.isStr s
  | none => v.isNone

/-! ### Canonical rows -/

/-- `_project_for_scope`. -/
def projectForScope (db : Db) (principal : Principal) (scope : EffectiveScope) (projectId : Str) :
    Except Exc CanonicalProject :=
  match db.projects.get (principal.organizationId, projectId) with
  | none => .error (rejected "Project is not canonical and active")
  | some project => do
    raiseIf project.deletedAt.isSome (rejected "Project is not canonical and active")
    raiseIf (!scope.canAccessProject projectId project.customerId)
      (rejected "Project is outside authorized scope")
    return project

/-- The project sector of an item is active and in the item's project. -/
def sectorActiveIn (db : Db) (principal : Principal) (projectSectorId projectId : Str) : Bool :=
  (db.projectSectors.get (principal.organizationId, projectSectorId)).any
    fun s => s.deletedAt.isNone && s.projectId == projectId

/-- `not item.project_sector_id`: no sector, or an empty name. -/
def lacksSector (item : CanonicalItem) : Bool := item.projectSectorId.all List.isEmpty

/-- `_item_for_scope`. -/
def itemForScope (db : Db) (principal : Principal) (scope : EffectiveScope) (itemId : Str) :
    Except Exc (CanonicalItem × CanonicalProject) :=
  match db.items.get (principal.organizationId, itemId) with
  | none => .error (rejected "Item is not canonical and active")
  | some item => do
    raiseIf item.deletedAt.isSome (rejected "Item is not canonical and active")
    raiseIf (lacksSector item) (rejected "Item lacks canonical ProjectSector ownership")
    let project ← projectForScope db principal scope item.projectId
    raiseIf (!sectorActiveIn db principal (item.projectSectorId.getD []) item.projectId)
      (rejected "Item ProjectSector is not canonical and active")
    return (item, project)

/-- `_active_item_child`. -/
def activeItemChild (db : Db) (principal : Principal) (entityType : EntityType) (entityId : Str) :
    Option CanonicalItemChild :=
  (db.itemChildren.get (principal.organizationId, entityType, entityId)).filter
    fun c => c.deletedAt.isNone

/-- `_require_item_references`. -/
def requireItemReferences (db : Db) (principal : Principal) (itemId : Str)
    (entityType : EntityType) (ids : List Value) : Except Exc Unit :=
  ids.forM fun id =>
    match id.str? with
    | none => .error (rejected ("invalid " ++ entityType.name ++ " reference"))
    | some s => do
      raiseIf s.isEmpty (rejected ("invalid " ++ entityType.name ++ " reference"))
      raiseIf (!(activeItemChild db principal entityType s).any fun c => c.itemId == itemId)
        (rejected (entityType.name ++ " reference is not canonical for the same Item"))

/-- `_current_payload`. -/
def currentPayload (db : Db) (principal : Principal) (entityType : EntityType) (entityId : Str) :
    Option Payload :=
  (db.entities.get (principal.organizationId, entityType, entityId)).bind SyncEntity.payloadJson

/-! ### Guards of deletions -/

/-- `_ensure_customer_delete_safe`. -/
def ensureCustomerDeleteSafe (db : Db) (principal : Principal) (customerId : Str) :
    Except Exc Unit :=
  raiseIf (db.projects.any fun k p =>
      k.1 == principal.organizationId && p.customerId == customerId && p.deletedAt.isNone)
    (rejected "Customer cannot be deleted while Projects remain active")

/-- `_ensure_project_delete_safe`. -/
def ensureProjectDeleteSafe (db : Db) (principal : Principal) (projectId : Str) :
    Except Exc Unit :=
  raiseIf ((db.projectSectors.any fun k s =>
        k.1 == principal.organizationId && s.projectId == projectId && s.deletedAt.isNone) ||
      (db.items.any fun k i =>
        k.1 == principal.organizationId && i.projectId == projectId && i.deletedAt.isNone) ||
      db.projectChildren.any fun k c =>
        k.1 == principal.organizationId && c.projectId == projectId && c.deletedAt.isNone)
    (rejected "Project cannot be deleted while canonical children remain active")

/-- `_ensure_project_sector_delete_safe`. -/
def ensureProjectSectorDeleteSafe (db : Db) (principal : Principal) (projectSectorId : Str) :
    Except Exc Unit :=
  raiseIf (db.items.any fun k i =>
      k.1 == principal.organizationId && i.projectSectorId == some projectSectorId &&
        i.deletedAt.isNone)
    (rejected "ProjectSector cannot be deleted while Items remain active")

/-- `_ensure_item_delete_safe`: audit events are guarded elsewhere. -/
def ensureItemDeleteSafe (db : Db) (principal : Principal) (itemId : Str) : Except Exc Unit :=
  raiseIf (db.itemChildren.any fun k c =>
      k.1 == principal.organizationId && c.itemId == itemId && k.2.1 != .itemAuditEvent &&
        c.deletedAt.isNone)
    (rejected "Item cannot be deleted while sidecar/history records remain active")

/-- The `jsonb` test `payload @> {key: [id]}`. -/
def listsReference (payload : Dict) (key : String) (id : Str) : Bool :=
  (payload.get key).list?.any fun xs => xs.any fun v => v.isStr id

/-- `_ensure_evidence_delete_safe`, with `_evidence_reference_filter`. -/
def ensureEvidenceDeleteSafe (db : Db) (principal : Principal) (evidenceId : Str) :
    Except Exc Unit :=
  raiseIf (db.entities.any fun k e =>
      k.1 == principal.organizationId && (k.2.1 == .measurement || k.2.1 == .customerRequirement) &&
        e.deletedAt.isNone && e.payloadJson.any fun p =>
          listsReference p.items "evidenceReferences" evidenceId ||
            listsReference p.items "evidenceReferenceIDs" evidenceId)
    (rejected "Evidence cannot be deleted while referenced")

/-! ### Customers, projects, sectors and items -/

/-- `authorize_record` for a customer. -/
def authorizeCustomer (db : Db) (principal : Principal) (scope : EffectiveScope) (entityId : Str)
    (payload : Dict) (deletedAt : Option DateTime) (genericEntityExists : Bool) :
    Except Exc OwnershipPlan :=
  let deleting := deletedAt.isSome
  match db.customers.get (principal.organizationId, entityId) with
  | none => do
    raiseIf genericEntityExists (rejected "existing Customer lacks canonical ownership")
    raiseIf deleting (rejected "cannot tombstone an unknown Customer")
    requireCapability principal .customerCreate
    requireIdentity payload entityId false
    return { entityType := .customer, entityId, isCreate := true, deletedAt,
             customerId := some entityId }
  | some _ => do
    requireCapability principal .customerEdit
    raiseIf (!scope.canAccessCustomer entityId)
      (rejected "Customer is outside authorized scope")
    requireIdentity payload entityId deleting
    if deleting then ensureCustomerDeleteSafe db principal entityId else .ok ()
    return { entityType := .customer, entityId, isCreate := false, deletedAt,
             customerId := some entityId }

/-- `authorize_record` for a project. -/
def authorizeProject (db : Db) (principal : Principal) (scope : EffectiveScope) (entityId : Str)
    (payload : Dict) (deletedAt : Option DateTime) (genericEntityExists : Bool) :
    Except Exc OwnershipPlan :=
  let deleting := deletedAt.isSome
  match db.projects.get (principal.organizationId, entityId) with
  | none => do
    raiseIf genericEntityExists (rejected "existing Project lacks canonical ownership")
    raiseIf deleting (rejected "cannot tombstone an unknown Project")
    requireCapability principal .projectCreate
    requireIdentity payload entityId false
    let customerId ← value payload "customerID"
    raiseIf (!(db.customers.get (principal.organizationId, customerId)).any
        fun c => c.deletedAt.isNone)
      (rejected "Project parent Customer is not canonical and active")
    raiseIf (!scope.canAccessCustomer customerId)
      (rejected "Project parent Customer is outside authorized scope")
    return { entityType := .project, entityId, isCreate := true, deletedAt,
             customerId := some customerId, projectId := some entityId }
  | some canonical => do
    requireCapability principal .projectEdit
    raiseIf (!scope.canAccessProject entityId canonical.customerId)
      (rejected "Project is outside authorized scope")
    requireIdentity payload entityId deleting
    requireSameParent payload "customerID" canonical.customerId
      "Project Customer ownership is immutable"
    if deleting then ensureProjectDeleteSafe db principal entityId else .ok ()
    return { entityType := .project, entityId, isCreate := false, deletedAt,
             customerId := some canonical.customerId, projectId := some entityId }

/-- `authorize_record` for a project sector. -/
def authorizeProjectSector (db : Db) (principal : Principal) (scope : EffectiveScope)
    (entityId : Str) (payload : Dict) (deletedAt : Option DateTime) (genericEntityExists : Bool) :
    Except Exc OwnershipPlan :=
  let deleting := deletedAt.isSome
  match db.projectSectors.get (principal.organizationId, entityId) with
  | none => do
    raiseIf genericEntityExists (rejected "existing ProjectSector lacks canonical ownership")
    raiseIf deleting (rejected "cannot tombstone an unknown ProjectSector")
    requireCapability principal .projectEdit
    requireIdentity payload entityId false
    let projectId ← value payload "projectID"
    let sectorId ← value payload "sectorID"
    let project ← projectForScope db principal scope projectId
    return { entityType := .projectSector, entityId, isCreate := true, deletedAt,
             customerId := some project.customerId, projectId := some projectId,
             projectSectorId := some entityId, sectorId := some sectorId }
  | some canonical => do
    requireCapability principal .projectEdit
    let project ← projectForScope db principal scope canonical.projectId
    requireIdentity payload entityId deleting
    requireSameParent payload "projectID" canonical.projectId
      "ProjectSector Project ownership is immutable"
    requireSameParent payload "sectorID" canonical.sectorId
      "ProjectSector Sector identity is immutable"
    if deleting then ensureProjectSectorDeleteSafe db principal entityId else .ok ()
    return { entityType := .projectSector, entityId, isCreate := false, deletedAt,
             customerId := some project.customerId, projectId := some canonical.projectId,
             projectSectorId := some entityId, sectorId := some canonical.sectorId }

/-- `authorize_record` for an item. -/
def authorizeItem (db : Db) (principal : Principal) (scope : EffectiveScope) (entityId : Str)
    (payload : Dict) (deletedAt : Option DateTime) (genericEntityExists : Bool) :
    Except Exc OwnershipPlan :=
  let deleting := deletedAt.isSome
  match db.items.get (principal.organizationId, entityId) with
  | none => do
    raiseIf genericEntityExists (rejected "existing Item lacks canonical ownership")
    raiseIf deleting (rejected "cannot tombstone an unknown Item")
    requireCapability principal .itemCreate
    requireIdentity payload entityId false
    let projectId ← value payload "projectID"
    let projectSectorId ← value payload "projectSectorID"
    let project ← projectForScope db principal scope projectId
    raiseIf (!sectorActiveIn db principal projectSectorId projectId)
      (rejected "Item ProjectSector is not canonical for its Project")
    return { entityType := .item, entityId, isCreate := true, deletedAt,
             customerId := some project.customerId, projectId := some projectId,
             projectSectorId := some projectSectorId }
  | some canonical => do
    requireCapability principal .itemEdit
    raiseIf (lacksSector canonical)
      (rejected "existing Item lacks canonical ProjectSector ownership")
    let project ← projectForScope db principal scope canonical.projectId
    let projectSectorId := canonical.projectSectorId.getD []
    raiseIf (!sectorActiveIn db principal projectSectorId canonical.projectId)
      (rejected "Item canonical ProjectSector is missing or inactive")
    requireIdentity payload entityId deleting
    requireSameParent payload "projectID" canonical.projectId
      "Item Project ownership is immutable"
    requireSameParent payload "projectSectorID" projectSectorId
      "Item ProjectSector ownership is immutable"
    if deleting then ensureItemDeleteSafe db principal entityId else .ok ()
    return { entityType := .item, entityId, isCreate := false, deletedAt,
             customerId := some project.customerId, projectId := some canonical.projectId,
             projectSectorId := canonical.projectSectorId }

/-! ### Item children -/

/-- `ITEM_CHILD_CAPABILITIES`. -/
def itemChildCapability : EntityType → Option Capability
  | .measurement => some .itemMeasurementsManage
  | .evidence => some .itemEvidenceManage
  | .customerRequirement => some .itemRequirementsManage
  | .configuration => some .itemConfigurationManage
  | .configurationVersion => some .itemConfigurationManage
  | .blocker => some .itemBlockersManage
  | _ => none

/-- `_require_canonical_assembly_reference_pins`. -/
def requireCanonicalAssemblyReferencePins (env : Env) (db : Db) (principal : Principal)
    (configuration : Dict) : Except Exc Unit :=
  match Assembly.validateConfigurationAssembly env configuration with
  | .error (.valueError message) =>
    .error (.authorizationRejected (Str.ofString "assembly contract is invalid: " ++ message))
  | .error e => .error e
  | .ok none => .ok ()
  | .ok (some snapshot) =>
    let pins := snapshot.referenceData
    let expected : List (PublicationKind × Str × Str) :=
      [(.catalog, pins.catalogVersionID, pins.catalogContentSHA256.lower),
        (.compatibilityRules, pins.compatibilityRulesVersionID,
          pins.compatibilityRulesContentSHA256.lower),
        (.priceBook, pins.priceBookVersionID, pins.priceBookContentSHA256.lower)]
    expected.forM fun (kind, version, digest) =>
      match db.publications.get (principal.organizationId, kind, version) with
      | none =>
        .error (.authorizationRejected (Str.ofString ("assembly reference publication is not " ++
          "canonical: " ++ kind.name ++ " ") ++ version))
      | some row =>
        raiseIf (row.contentSha256.lower != digest)
          (.authorizationRejected (Str.ofString ("assembly reference publication digest " ++
            "mismatch: " ++ kind.name ++ " ") ++ version))

/-- `isinstance(v, int)`: the number, and its text in an f-string. -/
def intText? : Value → Option (ℤ × Str)
  | .int n => some (n, Str.ofInt n)
  | .bool true => some (1, Str.ofString "True")
  | .bool false => some (0, Str.ofString "False")
  | _ => none

/-- The item that a new child names; a configuration version names it through its configuration. -/
def itemOfNewChild (db : Db) (principal : Principal) (entityType : EntityType) (entityId : Str)
    (payload : Dict) : Except Exc Str :=
  if entityType = .configurationVersion then
    match (payload.get "configuration").dict? with
    | none => .error (rejected "configuration_version payload is malformed")
    | some configuration => do
      let itemId ← value configuration "itemID"
      let configurationId ← value configuration "id"
      match intText? (configuration.get "version") with
      | none => .error (rejected "configuration_version version is invalid")
      | some (version, text) => do
        raiseIf (version < 1) (rejected "configuration_version version is invalid")
        raiseIf (entityId != configurationId ++ Str.ofString "#v" ++ text)
          (rejected "configuration_version identity is invalid")
        raiseIf (!(activeItemChild db principal .configuration configurationId).any
            fun base => base.itemId == itemId)
          (rejected "configuration_version base configuration is not canonical")
        return itemId
  else value payload "itemID"

/-- The item of a known child, which the payload may repeat but not change. -/
def itemOfKnownChild (entityType : EntityType) (payload : Dict) (canonical : CanonicalItemChild) :
    Except Exc Str := do
  let supplied :=
    if entityType = .configurationVersion then
      match (payload.get "configuration").dict? with
      | some configuration => configuration.get "itemID"
      | none => .none
    else payload.get "itemID"
  raiseIf (!supplied.isNone && !supplied.isStr canonical.itemId)
    (rejected (entityType.name ++ " Item ownership is immutable"))
  return canonical.itemId

/-- The item of a child, new or known. -/
def itemOfChild (db : Db) (principal : Principal) (entityType : EntityType) (entityId : Str)
    (payload : Dict) (canonical : Option CanonicalItemChild) : Except Exc Str :=
  match canonical with
  | none => itemOfNewChild db principal entityType entityId payload
  | some child => itemOfKnownChild entityType payload child

/-- The before and after images of an audit event name the item and its parents. -/
def auditImageMatches (image : Value) (itemId : Str) : Bool :=
  image.dict?.any fun d => (d.get "id").isStr itemId

/-- The parents of an audit image are the canonical ones. -/
def auditParentsMatch (image : Value) (item : CanonicalItem) : Bool :=
  image.dict?.any fun d =>
    (d.get "projectID").isStr item.projectId &&
      isOptionalStr (d.get "projectSectorID") item.projectSectorId

/-- The branch of `authorize_record` for an audit event. -/
def authorizeAuditEvent (principal : Principal) (payload : Dict) (itemId : Str)
    (item : CanonicalItem) : Except Exc Unit := do
  let kind := payload.get "kind"
  if kind.isStr "created" then requireCapability principal .itemCreate
  else if kind.isStr "updated" then requireCapability principal .itemEdit
  else if kind.isStr "commercial_readiness_changed" then do
    requireCapability principal .itemReadinessChange
    match payload.get "readinessOverrideUsed" with
    | .bool true => requireCapability principal .itemReadinessOverride
    | _ => .ok ()
  else .error (rejected "item audit kind is invalid")
  let after := payload.get "after"
  let before := payload.get "before"
  raiseIf (!auditImageMatches after itemId)
    (rejected "item audit resulting Item identity is invalid")
  raiseIf (!auditParentsMatch after item)
    (rejected "item audit parent relationship is not canonical")
  raiseIf (!before.isNone && !auditImageMatches before itemId)
    (rejected "item audit prior Item identity is invalid")
  raiseIf (!before.isNone && !auditParentsMatch before item)
    (rejected "item audit prior parent relationship is not canonical")
  requireCurrentProvenance principal payload

/-- The evidence references of a measurement or a customer requirement. -/
def authorizeEvidenceReferences (db : Db) (principal : Principal) (payload : Dict) (itemId : Str)
    (key message : String) : Except Exc Unit :=
  match (payload.getOr key (.list [])).list? with
  | none => .error (rejected message)
  | some refs => requireItemReferences db principal itemId .evidence refs

/-- The stored configuration that the branch for configurations compares with: it is looked up by
the `id` of the payload as it stands, not stripped. -/
def previousConfiguration (db : Db) (principal : Principal) (configuration : Dict)
    (entityId : Str) : Option Payload :=
  (configuration.getOr "id" (.str entityId)).str?.bind
    fun id => currentPayload db principal .configuration id

/-- The capability that a change of a configuration to or from `complete` needs. -/
def requireCompletionCapability (principal : Principal) (complete wasComplete : Bool) :
    Except Exc Unit :=
  if complete && !wasComplete then requireCapability principal .itemConfigurationFinalize
  else if wasComplete && !complete then requireCapability principal .itemConfigurationReopen
  else .ok ()

/-- The branch of `authorize_record` for configurations and their versions. -/
def authorizeConfiguration (env : Env) (db : Db) (principal : Principal) (entityType : EntityType)
    (entityId : Str) (payload : Dict) (itemId : Str) : Except Exc Unit :=
  let configuration? :=
    if entityType = .configuration then some payload else (payload.get "configuration").dict?
  match configuration? with
  | none => .error (rejected "configuration payload is malformed")
  | some configuration => do
    let complete := (configuration.get "status").isStr "complete"
    let wasComplete := (previousConfiguration db principal configuration entityId).any
      fun current => (current.items.get "status").isStr "complete"
    requireCompletionCapability principal complete wasComplete
    match (configuration.getOr "customerRequirements" (.list [])).list?,
      (configuration.getOr "blockerIDs" (.list [])).list? with
    | some requirements, some blockers => do
      requireItemReferences db principal itemId .customerRequirement requirements
      requireItemReferences db principal itemId .blocker blockers
      if (configuration.get "assembly").isNone then .ok ()
      else requireCanonicalAssemblyReferencePins env db principal configuration
    | _, _ => .error (rejected "configuration references are invalid")

/-- The check of one blocker event in `authorize_record`. -/
def authorizeBlockerEvent (principal : Principal) (entityId itemId : Str) (event : Value) :
    Except Exc Unit :=
  match event.dict? with
  | none => .error (rejected "blocker event is malformed")
  | some event => do
    raiseIf (!(event.get "blockerID").isStr entityId || !(event.get "itemID").isStr itemId)
      (rejected "blocker event identity is invalid")
    raiseIf (normalized (event.get "organizationID") != some principal.organizationId)
      (rejected "blocker event organization is invalid")
    raiseIf (["actorID", "membershipID", "sessionID", "authorizationRevision"].any
        fun key => (event.get key).isNone)
      (rejected "blocker event provenance is incomplete")

/-- The branch of `authorize_record` for a blocker. -/
def authorizeBlocker (principal : Principal) (entityId : Str) (payload : Dict) (itemId : Str) :
    Except Exc Unit :=
  match (payload.get "events").list? with
  | none => .error (rejected "connected blocker history requires events")
  | some events => do
    raiseIf events.isEmpty (rejected "connected blocker history requires events")
    events.forM (authorizeBlockerEvent principal entityId itemId)
    match events.getLast?.bind Value.dict? with
    | none => .ok ()
    | some latest => requireCurrentProvenance principal latest

/-- The checks of `authorize_record` that depend on the type of an item child. -/
def authorizeItemChildContent (env : Env) (db : Db) (principal : Principal)
    (entityType : EntityType) (entityId : Str) (payload : Dict) (deleting : Bool) (itemId : Str)
    (item : CanonicalItem) : Except Exc Unit := do
  match itemChildCapability entityType with
  | none => authorizeAuditEvent principal payload itemId item
  | some capability => requireCapability principal capability
  match entityType, deleting with
  | .measurement, false =>
    authorizeEvidenceReferences db principal payload itemId "evidenceReferences"
      "measurement evidenceReferences is invalid"
  | .customerRequirement, false =>
    authorizeEvidenceReferences db principal payload itemId "evidenceReferenceIDs"
      "requirement evidenceReferenceIDs is invalid"
  | .configuration, false =>
    authorizeConfiguration env db principal .configuration entityId payload itemId
  | .configurationVersion, false =>
    authorizeConfiguration env db principal .configurationVersion entityId payload itemId
  | .blocker, false => authorizeBlocker principal entityId payload itemId
  | .evidence, true => ensureEvidenceDeleteSafe db principal entityId
  | _, _ => .ok ()

/-- `authorize_record` for the item children. -/
def authorizeItemChild (env : Env) (db : Db) (principal : Principal) (scope : EffectiveScope)
    (entityType : EntityType) (entityId : Str) (payload : Dict) (deletedAt : Option DateTime)
    (genericEntityExists : Bool) : Except Exc OwnershipPlan := do
  let deleting := deletedAt.isSome
  let canonical := db.itemChildren.get (principal.organizationId, entityType, entityId)
  raiseIf (entityType.isAppendOnly && (canonical.isSome || genericEntityExists))
    (rejected (entityType.name ++ " history is append-only"))
  raiseIf (deleting && entityType.isAppendOnly)
    (rejected (entityType.name ++ " history cannot be tombstoned"))
  raiseIf (canonical.isNone && genericEntityExists)
    (rejected ("existing " ++ entityType.name ++ " lacks canonical ownership"))
  raiseIf (canonical.isNone && deleting)
    (rejected ("cannot tombstone an unknown " ++ entityType.name))
  requireIdentity payload entityId deleting
  let itemId ← itemOfChild db principal entityType entityId payload canonical
  let (item, project) ← itemForScope db principal scope itemId
  authorizeItemChildContent env db principal entityType entityId payload deleting itemId item
  return { entityType, entityId, isCreate := canonical.isNone, deletedAt,
           customerId := some project.customerId, projectId := some item.projectId,
           projectSectorId := item.projectSectorId, itemId := some itemId }

/-! ### Quotations -/

/-- The capability that a quotation status needs. -/
def quotationCapabilities : List (String × Capability) :=
  [("sent", .quotationSend), ("approved", .quotationApprove), ("draft", .quotationCreate),
    ("ready", .quotationCreate), ("rejected", .quotationCreate),
    ("superseded", .quotationCreate)]

/-- The statuses whose latest event must be the principal's. -/
def quotationEventStatuses : List String := ["sent", "approved", "rejected", "superseded"]

/-- The design of a quotation line against its canonical configuration version: a `ValueError`
becomes a rejection, other exceptions pass. -/
def authorizeLineDesign (env : Env) (db : Db) (principal : Principal) (line : Dict)
    (version : Payload) : Except Exc Unit :=
  let check : Except Exc Unit := do
    match (version.items.get "configuration").dict? with
    | none =>
      .error (Assembly.invalid "canonical ConfigurationVersion payload is malformed")
    | some configuration => do
      requireCanonicalAssemblyReferencePins env db principal configuration
      Assembly.validateQuotationDesignAgainstConfigurationVersion env line version.items
  match check with
  | .error (.valueError message) =>
    .error (.authorizationRejected (Str.ofString ("Quotation assembly design does not match " ++
      "canonical ConfigurationVersion: ") ++ message))
  | r => r

/-- The check of one quotation line in `authorize_record`. -/
def authorizeQuotationLine (env : Env) (db : Db) (principal : Principal) (scope : EffectiveScope)
    (projectId : Str) (line : Value) : Except Exc Unit :=
  match line.dict? with
  | none => .error (rejected "Quotation line is malformed")
  | some line => do
    let itemId ← value line "itemID"
    let (item, _) ← itemForScope db principal scope itemId
    raiseIf (item.projectId != projectId)
      (rejected "Quotation line Item belongs to another Project")
    if (line.get "designSnapshot").isNone then .ok ()
    else do
      let versionId ← value line "configurationVersionID"
      match db.entities.get (principal.organizationId, .configurationVersion, versionId) with
      | some ⟨_, some version, _, none⟩ => authorizeLineDesign env db principal line version
      | _ =>
        .error (rejected "Quotation assembly ConfigurationVersion is not canonical and active")

/-- The check of one quotation event in `authorize_record`. -/
def authorizeQuotationEvent (principal : Principal) (event : Value) : Except Exc Unit :=
  match event.dict? with
  | none => .error (rejected "Quotation event is malformed")
  | some event =>
    let org := event.get "organizationID"
    raiseIf (!org.isNone && !org.isStr principal.organizationId)
      (rejected "Quotation event organization is invalid")

/-- The status of a quotation is known, and the principal may set it. -/
def requireQuotationStatus (principal : Principal) (status : Value) : Except Exc Unit := do
  match ← hashedName quotationCapabilities status with
  | none => .error (rejected "Quotation status is invalid")
  | some capability => requireCapability principal capability

/-- The lines of a quotation. -/
def authorizeQuotationLines (env : Env) (db : Db) (principal : Principal) (scope : EffectiveScope)
    (payload : Dict) (projectId : Str) : Except Exc Unit :=
  match (payload.getOr "lines" (.list [])).list? with
  | none => .error (rejected "Quotation must contain canonical Item lines")
  | some lines => do
    raiseIf lines.isEmpty (rejected "Quotation must contain canonical Item lines")
    lines.forM (authorizeQuotationLine env db principal scope projectId)

/-- The events of a quotation; the latest one is the principal's when the status records a
transition. -/
def authorizeQuotationEvents (principal : Principal) (payload : Dict) : Except Exc Unit :=
  let raw := payload.get "events"
  match (if raw.truthy then raw else .list []).list? with
  | none => .error (rejected "Quotation event history is invalid")
  | some events => do
    events.forM (authorizeQuotationEvent principal)
    if quotationEventStatuses.any fun s => (payload.get "status").isStr s then
      match events.getLast?.bind Value.dict? with
      | none => .error (rejected "Quotation lifecycle transition requires provenance")
      | some latest => requireCurrentProvenance principal latest
    else .ok ()

/-- The checks of `authorize_record` on the content of a quotation that is not deleted. -/
def authorizeQuotationContent (env : Env) (db : Db) (principal : Principal)
    (scope : EffectiveScope) (payload : Dict) (projectId : Str) (project : CanonicalProject) :
    Except Exc Unit := do
  raiseIf (!(payload.get "customerID").isStr project.customerId)
    (rejected "Quotation Customer does not match canonical Project")
  requireQuotationStatus principal (payload.get "status")
  authorizeQuotationLines env db principal scope payload projectId
  authorizeQuotationEvents principal payload

/-- The project of a quotation: a new one names it, a known one may repeat but not change it. -/
def projectOfQuotation (entityId : Str) (payload : Dict) (deleting genericEntityExists : Bool)
    (canonical : Option CanonicalProjectChild) : Except Exc Str :=
  match canonical with
  | none => do
    raiseIf genericEntityExists (rejected "existing quotation lacks canonical ownership")
    raiseIf deleting (rejected "cannot tombstone an unknown quotation")
    requireIdentity payload entityId false
    value payload "projectID"
  | some child => do
    requireIdentity payload entityId deleting
    requireSameParent payload "projectID" child.projectId
      "Quotation Project ownership is immutable"
    return child.projectId

/-- `authorize_record` for a quotation. -/
def authorizeQuotation (env : Env) (db : Db) (principal : Principal) (scope : EffectiveScope)
    (entityId : Str) (payload : Dict) (deletedAt : Option DateTime) (genericEntityExists : Bool) :
    Except Exc OwnershipPlan := do
  let deleting := deletedAt.isSome
  let canonical := db.projectChildren.get (principal.organizationId, .quotation, entityId)
  let projectId ← projectOfQuotation entityId payload deleting genericEntityExists canonical
  let project ← projectForScope db principal scope projectId
  if deleting then requireCapability principal .quotationCreate
  else authorizeQuotationContent env db principal scope payload projectId project
  return { entityType := .quotation, entityId, isCreate := canonical.isNone, deletedAt,
           customerId := some project.customerId, projectId := some projectId }

/-! ### Dispatch -/

/-- `authorize_record`. -/
def authorizeRecord (env : Env) (db : Db) (principal : Principal) (scope : EffectiveScope)
    (entityType : EntityType) (entityId : Str) (payload : Dict) (deletedAt : Option DateTime)
    (genericEntityExists : Bool) : Except Exc OwnershipPlan :=
  match entityType with
  | .customer =>
    authorizeCustomer db principal scope entityId payload deletedAt genericEntityExists
  | .project =>
    authorizeProject db principal scope entityId payload deletedAt genericEntityExists
  | .projectSector =>
    authorizeProjectSector db principal scope entityId payload deletedAt genericEntityExists
  | .item => authorizeItem db principal scope entityId payload deletedAt genericEntityExists
  | .quotation =>
    authorizeQuotation env db principal scope entityId payload deletedAt genericEntityExists
  | .deliveryExecution =>
    .error (rejected ("canonical authorization is not implemented for " ++ entityType.name))
  | entityType =>
    authorizeItemChild env db principal scope entityType entityId payload deletedAt
      genericEntityExists

/-! ### Application -/

/-- A result together with the working state it leaves behind, also when it raised. -/
abbrev Applied := Except Exc Unit × Working

/-- The membership of the principal is active and its own, and its organization exists. -/
def creatorCanonical (db : Db) (principal : Principal) : Bool :=
  match db.memberships.get principal.membershipId, db.organizations.get principal.organizationId with
  | some m, some _ =>
    m.active && m.organizationId == principal.organizationId && m.userId == principal.userId
  | _, _ => false

/-- The membership after a grant. -/
def Membership.grant (m : Membership) (customerId projectId : Option Str) : Membership :=
  { m with
    customerIds := m.customerIds ++
      (customerId.filter fun c => !m.allCustomers && !m.customerIds.contains c).toList
    projectIds := m.projectIds ++
      (projectId.filter fun p => !m.allProjects && !m.projectIds.contains p).toList }

/-- Whether a grant changes the membership. -/
def Membership.grantChanges (m : Membership) (customerId projectId : Option Str) : Bool :=
  (customerId.any fun c => !m.allCustomers && !m.customerIds.contains c) ||
    projectId.any fun p => !m.allProjects && !m.projectIds.contains p

/-- `_grant_created_scope`. -/
def grantCreatedScope (principal : Principal) (customerId projectId : Option Str) (w : Working) :
    Applied :=
  match w.db.memberships.get principal.membershipId,
    w.db.organizations.get principal.organizationId with
  | some membership, some organization =>
    if creatorCanonical w.db principal then
      if Membership.grantChanges membership customerId projectId then
        (.ok (), { w with
          db := { w.db with
            memberships := w.db.memberships.set principal.membershipId
              (Membership.grant membership customerId projectId)
            organizations := w.db.organizations.set principal.organizationId
              ⟨organization.authorizationRevision + 1⟩ } })
      else (.ok (), w)
    else (.error (rejected "creator membership is not canonical and active"), w)
  | _, _ => (.error (rejected "creator membership is not canonical and active"), w)

/-- The new customer row, and the scope that covers it. -/
def withCustomer (principal : Principal) (plan : OwnershipPlan) (w : Working) : Working :=
  { db := { w.db with
      customers := w.db.customers.set (principal.organizationId, plan.entityId)
        ⟨plan.deletedAt⟩ }
    scope := w.scope.addCustomer plan.entityId }

/-- The new project row, and the scope that covers it. -/
def withProject (principal : Principal) (plan : OwnershipPlan) (customerId : Str) (w : Working) :
    Working :=
  { db := { w.db with
      projects := w.db.projects.set (principal.organizationId, plan.entityId)
        ⟨customerId, plan.deletedAt⟩ }
    scope := w.scope.addProject plan.entityId }

/-- `apply_ownership_plan` for a customer. -/
def applyCustomer (principal : Principal) (plan : OwnershipPlan) (w : Working) : Applied :=
  let key := (principal.organizationId, plan.entityId)
  match w.db.customers.get key with
  -- the row is added and the scope grows before the grant is checked
  | none =>
    grantCreatedScope principal (some plan.entityId) none (withCustomer principal plan w)
  | some _ =>
    (.ok (), { w with db := { w.db with customers := w.db.customers.set key ⟨plan.deletedAt⟩ } })

/-- `apply_ownership_plan` for a project. -/
def applyProject (principal : Principal) (plan : OwnershipPlan) (w : Working) : Applied :=
  let key := (principal.organizationId, plan.entityId)
  match plan.customerId with
  | none => (.error (rejected "Project ownership plan is missing customer_id"), w)
  | some customerId =>
    match w.db.projects.get key with
    | none =>
      grantCreatedScope principal none (some plan.entityId)
        (withProject principal plan customerId w)
    | some model =>
      if model.customerId ≠ customerId then
        (.error (rejected "Project Customer ownership is immutable"), w)
      else
        (.ok (), { w with
          db := { w.db with
            projects := w.db.projects.set key { model with deletedAt := plan.deletedAt } } })

/-- `apply_ownership_plan` for a project sector. -/
def applyProjectSector (principal : Principal) (plan : OwnershipPlan) (w : Working) : Applied :=
  let key := (principal.organizationId, plan.entityId)
  match plan.projectId, plan.sectorId with
  | some projectId, some sectorId =>
    match w.db.projectSectors.get key with
    | none =>
      (.ok (), { w with
        db := { w.db with
          projectSectors := w.db.projectSectors.set key ⟨projectId, sectorId, plan.deletedAt⟩ } })
    | some model =>
      if model.projectId ≠ projectId ∨ model.sectorId ≠ sectorId then
        (.error (rejected "ProjectSector ownership is immutable"), w)
      else
        (.ok (), { w with
          db := { w.db with
            projectSectors :=
              w.db.projectSectors.set key { model with deletedAt := plan.deletedAt } } })
  | _, _ =>
    (.error (rejected "ProjectSector ownership plan is missing project_id or sector_id"), w)

/-- `apply_ownership_plan` for an item. -/
def applyItem (principal : Principal) (plan : OwnershipPlan) (w : Working) : Applied :=
  let key := (principal.organizationId, plan.entityId)
  match plan.projectId, plan.projectSectorId with
  | some projectId, some projectSectorId =>
    match w.db.items.get key with
    | none =>
      (.ok (), { w with
        db := { w.db with
          items := w.db.items.set key ⟨projectId, some projectSectorId, plan.deletedAt⟩ } })
    | some model =>
      if model.projectId ≠ projectId ∨ model.projectSectorId ≠ some projectSectorId then
        (.error (rejected "Item canonical ownership is immutable"), w)
      else
        (.ok (), { w with
          db := { w.db with
            items := w.db.items.set key { model with deletedAt := plan.deletedAt } } })
  | _, _ => (.error (rejected "Item ownership plan is missing project_id or project_sector_id"), w)

/-- `plan.entity_type.replace("_", " ").capitalize()` for a project child. -/
def projectChildLabel (entityType : EntityType) : String :=
  if entityType = .deliveryExecution then "Delivery execution" else "Quotation"

/-- `apply_ownership_plan` for a project child. -/
def applyProjectChild (principal : Principal) (plan : OwnershipPlan) (w : Working) : Applied :=
  let key := (principal.organizationId, plan.entityType, plan.entityId)
  match plan.projectId with
  | none => (.error (rejected "Project-child ownership plan is missing project_id"), w)
  | some projectId =>
    match w.db.projectChildren.get key with
    | none =>
      (.ok (), { w with
        db := { w.db with
          projectChildren := w.db.projectChildren.set key ⟨projectId, plan.deletedAt⟩ } })
    | some model =>
      if model.projectId ≠ projectId then
        (.error (rejected (projectChildLabel plan.entityType ++ " Project ownership is immutable")),
          w)
      else
        (.ok (), { w with
          db := { w.db with
            projectChildren :=
              w.db.projectChildren.set key { model with deletedAt := plan.deletedAt } } })

/-- `apply_ownership_plan` for an item child. -/
def applyItemChild (principal : Principal) (plan : OwnershipPlan) (w : Working) : Applied :=
  let key := (principal.organizationId, plan.entityType, plan.entityId)
  match plan.itemId with
  | none => (.error (rejected "Item-child ownership plan is missing item_id"), w)
  | some itemId =>
    match w.db.itemChildren.get key with
    | none =>
      (.ok (), { w with
        db := { w.db with
          itemChildren := w.db.itemChildren.set key ⟨itemId, plan.deletedAt⟩ } })
    | some model =>
      if model.itemId ≠ itemId then
        (.error (rejected (plan.entityType.name ++ " Item ownership is immutable")), w)
      else
        (.ok (), { w with
          db := { w.db with
            itemChildren :=
              w.db.itemChildren.set key { model with deletedAt := plan.deletedAt } } })

/-- `apply_ownership_plan`. -/
def applyOwnershipPlan (principal : Principal) (plan : OwnershipPlan) (w : Working) : Applied :=
  match plan.entityType with
  | .customer => applyCustomer principal plan w
  | .project => applyProject principal plan w
  | .projectSector => applyProjectSector principal plan w
  | .item => applyItem principal plan w
  | .quotation | .deliveryExecution => applyProjectChild principal plan w
  | _ => applyItemChild principal plan w

end Ownership

end VitrialSync
