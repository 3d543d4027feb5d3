import VitrialSync.Beam.Canonical
import VitrialSync.Server.Ownership

set_option relaxedAutoImplicit false
set_option autoImplicit false

/-!
# Canonical ownership on the BEAM

`VitrialSync.Ownership`: the authorization of a record from the canonical rows, and the rows and
the scope grant that its plan leads to. Nothing is written here: the rows come back as data.

## Main definitions

* `VitrialSync.Beam.Ownership.Plan` — the plan.
* `VitrialSync.Beam.Ownership.authorize` — `authorize/8`.
* `VitrialSync.Beam.Ownership.applyPlan` — `apply_plan/3`.
-/

namespace VitrialSync.Beam

open Python Program

/-- The text of a type in a message. -/
def EntityKind.label : EntityKind → String
  | known type => type.name
  | other name => String.ofList (name.map fun c => Char.ofNat c.val)

namespace Ownership

/-- `%Plan{}`. -/
structure Plan where
  entityType : EntityKind
  entityId : Str
  isCreate : Bool
  deletedAt : Option Str
  customerId : Option Str := none
  projectId : Option Str := none
  projectSectorId : Option Str := none
  sectorId : Option Str := none
  itemId : Option Str := none

/-! ### Shared checks -/

/-- `absent_canonical/3`. -/
def absentCanonical (label : String) (genericExists deleting : Bool) : Except Fault Unit :=
  if genericExists then refuse ("existing " ++ label ++ " lacks canonical ownership")
  else refuseIf deleting ("cannot tombstone an unknown " ++ label)

/-- `capability/2`. -/
def capability (principal : Principal) (name : Capability) : Except Fault Unit :=
  refuseIf (!principal.holds name) (name.name ++ " capability required")

/-- `check_identity/2`. -/
def checkIdentity (payload : Dict) (entityId : Str) : Except Fault Unit :=
  refuseIf (!(payload.get "id").str?.any fun s => trim s == entityId)
    "payload identity does not match canonical entityID"

/-- `identity/3`. -/
def identity (payload : Dict) (entityId : Str) (deleting : Bool) : Except Fault Unit :=
  if deleting && (payload.get "id").isNone then .ok () else checkIdentity payload entityId

/-- `immutable/4`. -/
def immutable (payload : Dict) (key : String) (canonical : Str) (message : String) :
    Except Fault Unit :=
  refuseIf (!(payload.get key).isNone && !pyEq (payload.get key) (.str canonical)) message

/-- `value/2`. -/
def value (payload : Dict) (key : String) : Except Fault Str :=
  match normalized (payload.get key) with
  | some text => .ok text
  | none => refuse (key ++ " is required for canonical ownership")

/-- `project_for_scope/3`. -/
def projectForScope (world : World) (scope : EffectiveScope) (projectId : Str) :
    Except Fault Project :=
  match (world.project projectId).filter
      fun project => matchesLive project.isStruct project.deletedAt with
  | none => refuse "Project is not canonical and active"
  | some project =>
    if scope.canAccessProject project.projectId project.customerId then .ok project
    else refuse "Project is outside authorized scope"

/-- `item_has_sector/1`, with the sector of the item: its first clause takes structs only. -/
def itemSector (item : Item) : Except Fault (Option Str) :=
  if item.isStruct && item.projectSectorId.isNone then
    refuse "existing Item lacks canonical ProjectSector ownership"
  else .ok item.projectSectorId

/-- `sector_of_project/4`; no sector has the id `nil`. -/
def sectorOfProject (world : World) (sectorId : Option Str) (projectId : Str) (message : String) :
    Except Fault ProjectSector :=
  match (sectorId.bind world.projectSector).filter fun sector =>
      matchesLive sector.isStruct sector.deletedAt && sector.projectId == projectId with
  | some sector => .ok sector
  | none => refuse message

/-- `item_for_scope/3`: the item and its project. -/
def itemForScope (world : World) (scope : EffectiveScope) (itemId : Str) :
    Except Fault (Item × Project) :=
  match (world.item itemId).filter fun item => matchesLive item.isStruct item.deletedAt with
  | none => refuse "Item is not canonical and active"
  | some item => do
    let sectorId ← itemSector item
    let project ← projectForScope world scope item.projectId
    let _ ← sectorOfProject world sectorId item.projectId
      "Item ProjectSector is not canonical and active"
    return (item, project)

/-! ### The hierarchy -/

section Hierarchy

variable (entityId : Str) (payload : Dict) (deletedAt : Option Str) (principal : Principal)
  (scope : EffectiveScope) (genericExists : Bool) (world : World)

/-- `authorize_customer/8`. -/
def authorizeCustomer : Except Fault Plan :=
  let deleting := deletedAt.isSome
  match world.customer entityId with
  | none => do
    absentCanonical "Customer" genericExists deleting
    capability principal .customerCreate
    identity payload entityId false
    return { entityType := .known .customer, entityId, isCreate := true, deletedAt,
             customerId := some entityId }
  | some canonical => do
    capability principal .customerEdit
    refuseIf (!scope.canAccessCustomer canonical.customerId) "Customer is outside authorized scope"
    identity payload entityId deleting
    refuseIf (deleting && world.customerHasLiveProjects canonical.customerId)
      "Customer cannot be deleted while Projects remain active"
    return { entityType := .known .customer, entityId, isCreate := false, deletedAt,
             customerId := some canonical.customerId }

/-- `authorize_project/8`. -/
def authorizeProject : Except Fault Plan :=
  let deleting := deletedAt.isSome
  match world.project entityId with
  | none => do
    absentCanonical "Project" genericExists deleting
    capability principal .projectCreate
    identity payload entityId false
    let customerId ← value payload "customerID"
    refuseIf (!(world.customer customerId).any
        fun customer => matchesLive customer.isStruct customer.deletedAt)
      "Project parent Customer is not canonical and active"
    refuseIf (!scope.canAccessCustomer customerId)
      "Project parent Customer is outside authorized scope"
    return { entityType := .known .project, entityId, isCreate := true, deletedAt,
             customerId := some customerId, projectId := some entityId }
  | some canonical => do
    capability principal .projectEdit
    let _ ← projectForScope world scope canonical.projectId
    identity payload entityId deleting
    immutable payload "customerID" canonical.customerId "Project Customer ownership is immutable"
    refuseIf (deleting && world.projectHasLiveChildren canonical.projectId)
      "Project cannot be deleted while canonical children remain active"
    return { entityType := .known .project, entityId, isCreate := false, deletedAt,
             customerId := some canonical.customerId, projectId := some canonical.projectId }

/-- `authorize_project_sector/8`. -/
def authorizeProjectSector : Except Fault Plan :=
  let deleting := deletedAt.isSome
  match world.projectSector entityId with
  | none => do
    absentCanonical "ProjectSector" genericExists deleting
    capability principal .projectEdit
    identity payload entityId false
    let projectId ← value payload "projectID"
    let sectorId ← value payload "sectorID"
    let project ← projectForScope world scope projectId
    return { entityType := .known .projectSector, entityId, isCreate := true, deletedAt,
             customerId := some project.customerId, projectId := some project.projectId,
             projectSectorId := some entityId, sectorId := some sectorId }
  | some canonical => do
    capability principal .projectEdit
    let project ← projectForScope world scope canonical.projectId
    identity payload entityId deleting
    immutable payload "projectID" canonical.projectId
      "ProjectSector Project ownership is immutable"
    immutable payload "sectorID" canonical.sectorId "ProjectSector Sector identity is immutable"
    refuseIf (deleting && world.projectSectorHasLiveItems canonical.projectSectorId)
      "ProjectSector cannot be deleted while Items remain active"
    return { entityType := .known .projectSector, entityId, isCreate := false, deletedAt,
             customerId := some project.customerId, projectId := some canonical.projectId,
             projectSectorId := some canonical.projectSectorId,
             sectorId := some canonical.sectorId }

/-- `authorize_item/8`. -/
def authorizeItem : Except Fault Plan :=
  let deleting := deletedAt.isSome
  match world.item entityId with
  | none => do
    absentCanonical "Item" genericExists deleting
    capability principal .itemCreate
    identity payload entityId false
    let projectId ← value payload "projectID"
    let sectorId ← value payload "projectSectorID"
    let project ← projectForScope world scope projectId
    let sector ← sectorOfProject world (some sectorId) projectId
      "Item ProjectSector is not canonical for its Project"
    return { entityType := .known .item, entityId, isCreate := true, deletedAt,
             customerId := some project.customerId, projectId := some project.projectId,
             projectSectorId := some sector.projectSectorId }
  | some canonical => do
    capability principal .itemEdit
    let sectorId ← itemSector canonical
    let project ← projectForScope world scope canonical.projectId
    let _ ← sectorOfProject world sectorId canonical.projectId
      "Item canonical ProjectSector is missing or inactive"
    identity payload entityId deleting
    immutable payload "projectID" canonical.projectId "Item Project ownership is immutable"
    -- a sector was found, so that there is an id
    immutable payload "projectSectorID" (sectorId.getD [])
      "Item ProjectSector ownership is immutable"
    refuseIf (deleting && world.itemHasLiveSidecars canonical.itemId)
      "Item cannot be deleted while sidecar/history records remain active"
    return { entityType := .known .item, entityId, isCreate := false, deletedAt,
             customerId := some project.customerId, projectId := some canonical.projectId,
             projectSectorId := canonical.projectSectorId }

end Hierarchy

/-! ### Item children -/

/-- `append_only_guard/4`. -/
def appendOnlyGuard (type : EntityType) (canonical : Option ItemChild) (genericExists : Bool) :
    Except Fault Unit :=
  refuseIf (type.isAppendOnly && (canonical.isSome || genericExists))
    (type.name ++ " history is append-only")

/-- `base_configuration/3`. -/
def baseConfiguration (world : World) (configurationId itemId : Str) : Except Fault Str :=
  if (world.activeItemChild (.known .configuration) configurationId).any
      fun child => child.itemId == itemId then .ok itemId
  else refuse "configuration_version base configuration is not canonical"

/-- `valid_version/1`: the version. -/
def validVersion (configuration : Dict) : Except Fault ℤ :=
  match (configuration.get "version").properInt? with
  | some version =>
    if 1 ≤ version then .ok version else refuse "configuration_version version is invalid"
  | none => refuse "configuration_version version is invalid"

/-- The first clause of `resolve_item_id/5`: a new version of a configuration. -/
def resolveVersionItem (entityId : Str) (payload : Dict) (world : World) : Except Fault Str :=
  match (payload.get "configuration").dict? with
  | none => refuse "configuration_version payload is malformed"
  | some configuration => do
    let itemId ← value configuration "itemID"
    let configurationId ← value configuration "id"
    let version ← validVersion configuration
    refuseIf (entityId != configurationId ++ Str.ofString "#v" ++ Str.ofInt version)
      "configuration_version identity is invalid"
    baseConfiguration world configurationId itemId

/-- `supplied_item_id/2`. -/
def suppliedItemId (type : EntityType) (payload : Dict) : Value :=
  match type with
  | .configurationVersion =>
    (payload.get "configuration").dict?.elim .none fun configuration => configuration.get "itemID"
  | _ => payload.get "itemID"

/-- `resolve_item_id/5`. -/
def resolveItemId (type : EntityType) (entityId : Str) (payload : Dict)
    (canonical : Option ItemChild) (world : World) : Except Fault Str :=
  match canonical with
  | none =>
    if type = .configurationVersion then resolveVersionItem entityId payload world
    else value payload "itemID"
  | some canonical =>
    let supplied := suppliedItemId type payload
    if !supplied.isNone && !pyEq supplied (.str canonical.itemId) then
      refuse (type.name ++ " Item ownership is immutable")
    else .ok canonical.itemId

/-- `audit_capability/2`. -/
def auditCapability (payload : Dict) (principal : Principal) : Except Fault Unit :=
  let kind := payload.get "kind"
  if kind.isStr "created" then capability principal .itemCreate
  else if kind.isStr "updated" then capability principal .itemEdit
  else if kind.isStr "commercial_readiness_changed" then do
    capability principal .itemReadinessChange
    match payload.get "readinessOverrideUsed" with
    | .bool true => capability principal .itemReadinessOverride
    | _ => .ok ()
  else refuse "item audit kind is invalid"

/-- `audit_snapshot/6`. -/
def auditSnapshot (snapshot : Value) (itemId : Str) (item : Item)
    (identityMessage parentMessage : String) : Except Fault Unit :=
  match snapshot.dict? with
  | none => refuse identityMessage
  | some snapshot => do
    refuseIf (!(snapshot.get "id").isStr itemId) identityMessage
    refuseIf (!(snapshot.get "projectID").isStr item.projectId ||
        !VitrialSync.Ownership.isOptionalStr (snapshot.get "projectSectorID")
          item.projectSectorId)
      parentMessage

/-- `audit_before/3`. -/
def auditBefore (payload : Dict) (itemId : Str) (item : Item) : Except Fault Unit :=
  if (payload.get "before").isNone then .ok ()
  else
    auditSnapshot (payload.get "before") itemId item
      "item audit prior Item identity is invalid"
      "item audit prior parent relationship is not canonical"

/-- `item_child_capability/6`. -/
def itemChildCapability (type : EntityType) (payload : Dict) (principal : Principal)
    (itemId : Str) (item : Item) : Except Fault Unit :=
  if type = .itemAuditEvent then do
    auditCapability payload principal
    auditSnapshot (payload.get "after") itemId item
      "item audit resulting Item identity is invalid"
      "item audit parent relationship is not canonical"
    auditBefore payload itemId item
    requireCurrentProvenance payload principal
  else
    match VitrialSync.Ownership.itemChildCapability type with
    | some name => capability principal name
    | none => .error (.raised .keyError)

/-- `item_references_ok?/4`. -/
def itemReferenceOk (itemId : Str) (referenceType : EntityType) (world : World)
    (reference : Value) : Except Fault Unit :=
  match reference with
  | .str reference =>
    if reference.isEmpty then refuse ("invalid " ++ referenceType.name ++ " reference")
    else
      refuseIf (!(world.activeItemChild (.known referenceType) reference).any
          fun child => child.itemId == itemId)
        (referenceType.name ++ " reference is not canonical for the same Item")
  | _ => refuse ("invalid " ++ referenceType.name ++ " reference")

/-- `require_references/5`. -/
def requireReferences (payload : Dict) (itemId : Str) (key : String)
    (referenceType : EntityType) (world : World) : Except Fault Unit :=
  match (payload.getOr key (.list [])).list? with
  | some references => references.forM (itemReferenceOk itemId referenceType world)
  | none => refuse ("invalid " ++ referenceType.name ++ " reference")

/-- `reference_list/2`. -/
def referenceList (configuration : Dict) (key : String) : Except Fault (List Value) :=
  match (configuration.getOr key (.list [])).list? with
  | some references => .ok references
  | none => refuse "configuration references are invalid"

/-- The configuration of a record: its payload, or the member of a version. -/
def configurationOf (type : EntityType) (payload : Dict) : Option Dict :=
  if type = .configuration then some payload else (payload.get "configuration").dict?

/-- `configuration_references/4`. -/
def configurationReferences (type : EntityType) (payload : Dict) (itemId : Str)
    (world : World) : Except Fault Unit :=
  match configurationOf type payload with
  | none => refuse "configuration payload is malformed"
  | some configuration => do
    let requirements ← referenceList configuration "customerRequirements"
    let blockers ← referenceList configuration "blockerIDs"
    requirements.forM (itemReferenceOk itemId .customerRequirement world)
    blockers.forM (itemReferenceOk itemId .blocker world)

/-- `item_child_references/6`. -/
def itemChildReferences (type : EntityType) (entityId : Str) (payload : Dict) (itemId : Str)
    (world : World) (deleting : Bool) : Except Fault Unit :=
  match type, deleting with
  | .measurement, false => requireReferences payload itemId "evidenceReferences" .evidence world
  | .customerRequirement, false =>
    requireReferences payload itemId "evidenceReferenceIDs" .evidence world
  | .configuration, false => configurationReferences .configuration payload itemId world
  | .configurationVersion, false =>
    configurationReferences .configurationVersion payload itemId world
  | .evidence, true =>
    refuseIf (world.evidenceReferenced entityId) "Evidence cannot be deleted while referenced"
  | _, _ => .ok ()

/-- `current_configuration_status/2`. -/
def currentConfigurationStatus (world : World) (configurationId : Value) : Except Fault Value := do
  let stored ← payloadObject (configurationId.str?.bind (world.entity (.known .configuration)))
  return stored.elim .none fun payload => payload.items.get "status"

/-- `configuration_status_capability/6`. -/
def configurationStatusCapability (world : World) (type : EntityType) (entityId : Str)
    (payload : Dict) (principal : Principal) (deleting : Bool) : Except Fault Unit :=
  if deleting || !(type == .configuration || type == .configurationVersion) then .ok ()
  else
    match configurationOf type payload with
    | none => refuse "configuration payload is malformed"
    | some configuration => do
      let status := configuration.get "status"
      let currentStatus ←
        currentConfigurationStatus world (configuration.getOr "id" (.str entityId))
      if status.isStr "complete" && !currentStatus.isStr "complete" then
        capability principal .itemConfigurationFinalize
      else if currentStatus.isStr "complete" && !status.isStr "complete" then
        capability principal .itemConfigurationReopen
      else .ok ()

/-- `blocker_events/1`. -/
def blockerEvents (payload : Dict) : Except Fault (List Value) :=
  match (payload.get "events").list? with
  | some events =>
    if events.isEmpty then refuse "connected blocker history requires events" else .ok events
  | none => refuse "connected blocker history requires events"

/-- One event of `connected_events/4`. -/
def connectedEvent (entityId itemId : Str) (principal : Principal) (event : Value) :
    Except Fault Unit :=
  match event.dict? with
  | none => refuse "blocker event is malformed"
  | some event => do
    refuseIf (!(event.get "blockerID").isStr entityId || !(event.get "itemID").isStr itemId)
      "blocker event identity is invalid"
    refuseIf (normalized (event.get "organizationID") != some principal.organizationId)
      "blocker event organization is invalid"
    refuseIf ((event.get "actorID").isNone || (event.get "membershipID").isNone ||
        (event.get "sessionID").isNone || (event.get "authorizationRevision").isNone)
      "blocker event provenance is incomplete"

/-- `Provenance.require_current(List.last(events), principal)`. -/
def requireCurrentEvent (event : Option Value) (principal : Principal) : Except Fault Unit :=
  match event.bind Value.dict? with
  | some event => requireCurrentProvenance event principal
  | none => .error (.raised .functionClauseError)

/-- `blocker_history/6`. -/
def blockerHistory (type : EntityType) (entityId : Str) (payload : Dict) (itemId : Str)
    (principal : Principal) (deleting : Bool) : Except Fault Unit :=
  if type = .blocker ∧ deleting = false then do
    let events ← blockerEvents payload
    events.forM (connectedEvent entityId itemId principal)
    requireCurrentEvent events.getLast? principal
  else .ok ()

/-- `authorize_item_child/9`. -/
def authorizeItemChild (type : EntityType) (entityId : Str) (payload : Dict)
    (deletedAt : Option Str) (principal : Principal) (scope : EffectiveScope)
    (genericExists : Bool) (world : World) : Except Fault Plan := do
  let deleting := deletedAt.isSome
  let canonical := world.itemChild (.known type) entityId
  appendOnlyGuard type canonical genericExists
  absentCanonical type.name (canonical.isNone && genericExists) (deleting && canonical.isNone)
  identity payload entityId deleting
  let itemId ← resolveItemId type entityId payload canonical world
  let (item, project) ← itemForScope world scope itemId
  itemChildCapability type payload principal itemId item
  itemChildReferences type entityId payload itemId world deleting
  configurationStatusCapability world type entityId payload principal deleting
  blockerHistory type entityId payload itemId principal deleting
  return { entityType := .known type, entityId, isCreate := canonical.isNone, deletedAt,
           customerId := some project.customerId, projectId := some project.projectId,
           projectSectorId := item.projectSectorId, itemId := some itemId }

/-! ### Quotations -/

/-- `quotation_project/5`. -/
def quotationProject (canonical : Option ProjectChild) (entityId : Str) (payload : Dict)
    (deleting genericExists : Bool) : Except Fault Str :=
  match canonical with
  | none => do
    absentCanonical "quotation" genericExists deleting
    identity payload entityId false
    value payload "projectID"
  | some canonical => do
    identity payload entityId deleting
    immutable payload "projectID" canonical.projectId "Quotation Project ownership is immutable"
    return canonical.projectId

/-- The text that every message of the design binding begins with. -/
def designMismatch (detail : String) : String :=
  "Quotation assembly design does not match canonical ConfigurationVersion: " ++ detail

/-- `canonical_configuration_version/2`. -/
def canonicalConfigurationVersion (world : World) (versionId : Str) : Except Fault Dict :=
  match (activeStruct (world.entity (.known .configurationVersion) versionId)).bind
      fun row => row.payload.object? with
  | some payload => .ok payload.items
  | none => refuse "Quotation assembly ConfigurationVersion is not canonical and active"

/-- `frozen_assembly/1`: the configuration and its assembly. -/
def frozenAssembly (canonical : Dict) : Except Fault (Dict × Dict) :=
  match (canonical.get "configuration").dict? with
  | none => refuse (designMismatch "canonical configuration_version payload is malformed")
  | some configuration =>
    match (configuration.get "assembly").dict? with
    | some assembly => .ok (configuration, assembly)
    | none =>
      refuse (designMismatch "canonical ConfigurationVersion has no frozen assembly snapshot")

/-- `snapshot_item_matches/3`. -/
def snapshotItemMatches (configuration line : Dict) : Except Fault Unit :=
  refuseIf (!(line.get "itemID").str?.any fun itemId => (configuration.get "itemID").isStr itemId)
    (designMismatch "quotation designSnapshot ConfigurationVersion belongs to another Item")

/-- The fields of `snapshot_fields_match/2`. -/
def snapshotFields : List String :=
  ["templateID", "templateVersion", "overall", "referenceData", "renderDescriptor"]

/-- `snapshot_fields_match/2`. -/
def snapshotFieldsMatch (snapshot assembly : Dict) : Except Fault Unit :=
  snapshotFields.forM fun label =>
    refuseIf (!pyEq (assembly.get label) (snapshot.get label))
      (designMismatch ("quotation designSnapshot " ++ label ++
        " differs from canonical ConfigurationVersion"))

/-- The summary of one section in `section_summary_matches/2`. -/
def sectionSummary (entry : Value) : Except Fault Value := do
  let sectionType ← mapGet entry "sectionType"
  let operation ← mapGet entry "operation"
  return .dict [("sectionType", sectionType), ("operation", operation)]

/-- `section_summary_matches/2`. -/
def sectionSummaryMatches (snapshot assembly : Dict) : Except Fault Unit := do
  let expected ← (listWrap (assembly.get "sections")).mapM sectionSummary
  let actual ← (listWrap (snapshot.get "sectionSummary")).mapM sectionSummary
  refuseIf (!listEq actual expected)
    (designMismatch ("quotation designSnapshot section summary differs from canonical " ++
      "ConfigurationVersion"))

/-- `bind_design_snapshot/4`. -/
def bindDesignSnapshot (snapshot : Dict) (versionId : Str) (line : Dict) (world : World) :
    Except Fault Unit := do
  let canonical ← canonicalConfigurationVersion world versionId
  refuseIf (!(snapshot.get "configurationVersionID").isStr versionId)
    (designMismatch "quotation designSnapshot does not reference canonical ConfigurationVersion")
  let (configuration, assembly) ← frozenAssembly canonical
  snapshotItemMatches configuration line
  snapshotFieldsMatch snapshot assembly
  sectionSummaryMatches snapshot assembly

/-- `design_snapshot/2`. -/
def designSnapshot (line : Dict) (world : World) : Except Fault Unit :=
  match line.get "designSnapshot" with
  | .none => .ok ()
  | .dict snapshot =>
    match (line.get "configurationVersionID").str? with
    | some versionId => bindDesignSnapshot snapshot versionId line world
    | none => .ok ()
  | _ => refuse (designMismatch "quotation line designSnapshot must be an object")

/-- `quotation_line/4`. -/
def quotationLine (project : Project) (scope : EffectiveScope) (world : World) (line : Value) :
    Except Fault Unit :=
  match line.dict? with
  | none => refuse "Quotation line is malformed"
  | some line => do
    let itemId ← value line "itemID"
    let (item, _) ← itemForScope world scope itemId
    refuseIf (item.projectId != project.projectId)
      "Quotation line Item belongs to another Project"
    designSnapshot line world

/-- `quotation_lines/5`. -/
def quotationLines (project : Project) (payload : Dict) (scope : EffectiveScope) (world : World) :
    Except Fault Unit :=
  match (payload.getOr "lines" (.list [])).list? with
  | none => refuse "Quotation must contain canonical Item lines"
  | some lines =>
    if lines.isEmpty then refuse "Quotation must contain canonical Item lines"
    else lines.forM (quotationLine project scope world)

/-- `quotation_capability/2`. -/
def quotationCapability (payload : Dict) (principal : Principal) : Except Fault Unit :=
  match findName VitrialSync.Ownership.quotationCapabilities (payload.get "status") with
  | some name => capability principal name
  | none => refuse "Quotation status is invalid"

/-- One event of `well_formed_quotation_events/2`. -/
def wellFormedQuotationEvent (principal : Principal) (event : Value) : Except Fault Unit :=
  match event.dict? with
  | none => refuse "Quotation event is malformed"
  | some event =>
    let organizationId := event.get "organizationID"
    refuseIf (!organizationId.isNone && !organizationId.isStr principal.organizationId)
      "Quotation event organization is invalid"

/-- `require_transition_provenance/2`. -/
def requireTransitionProvenance (events : List Value) (principal : Principal) :
    Except Fault Unit :=
  if events.isEmpty then refuse "Quotation lifecycle transition requires provenance"
  else requireCurrentEvent events.getLast? principal

/-- `quotation_events/2`. -/
def quotationEvents (payload : Dict) (principal : Principal) : Except Fault Unit :=
  let transition := member (payload.get "status") VitrialSync.Ownership.quotationEventStatuses
  match payload.get "events" with
  | .list events => do
    events.forM (wellFormedQuotationEvent principal)
    if transition then requireTransitionProvenance events principal else .ok ()
  | .none => refuseIf transition "Quotation lifecycle transition requires provenance"
  | _ => refuse "Quotation event history is invalid"

/-- `quotation_body/7`. -/
def quotationBody (project : Project) (payload : Dict) (deleting : Bool) (principal : Principal)
    (scope : EffectiveScope) (world : World) : Except Fault Unit :=
  if deleting then capability principal .quotationCreate
  else do
    refuseIf (!(payload.get "customerID").isStr project.customerId)
      "Quotation Customer does not match canonical Project"
    quotationCapability payload principal
    quotationLines project payload scope world
    quotationEvents payload principal

/-- `authorize_quotation/8`. -/
def authorizeQuotation (entityId : Str) (payload : Dict) (deletedAt : Option Str)
    (principal : Principal) (scope : EffectiveScope) (genericExists : Bool) (world : World) :
    Except Fault Plan := do
  let canonical := world.projectChild (.known .quotation) entityId
  let projectId ← quotationProject canonical entityId payload deletedAt.isSome genericExists
  let project ← projectForScope world scope projectId
  quotationBody project payload deletedAt.isSome principal scope world
  return { entityType := .known .quotation, entityId, isCreate := canonical.isNone, deletedAt,
           customerId := some project.customerId, projectId := some project.projectId }

/-! ### Authorization -/

/-- `authorize/8`, with `authorize_other/9` for the types that are not listed. -/
def authorize (entityType : EntityKind) (entityId : Str) (payload : Dict)
    (deletedAt : Option Str) (principal : Principal) (scope : EffectiveScope)
    (genericExists : Bool) (world : World) : Except Fault Plan :=
  match entityType with
  | .known .customer =>
    authorizeCustomer entityId payload deletedAt principal scope genericExists world
  | .known .project =>
    authorizeProject entityId payload deletedAt principal scope genericExists world
  | .known .projectSector =>
    authorizeProjectSector entityId payload deletedAt principal scope genericExists world
  | .known .item =>
    authorizeItem entityId payload deletedAt principal scope genericExists world
  | .known .quotation =>
    authorizeQuotation entityId payload deletedAt principal scope genericExists world
  | .known type =>
    if type.isItemChild then
      authorizeItemChild type entityId payload deletedAt principal scope genericExists world
    else refuse ("canonical authorization is not implemented for " ++ type.name)
  | .other _ =>
    refuse ("canonical authorization is not implemented for " ++ entityType.label)

/-! ### Application of a plan -/

/-- The tuples that `apply_plan/3` returns, with the fields of the rows they become. -/
inductive Upsert where
  | customer (row : Customer)
  | project (row : Project)
  | projectSector (row : ProjectSector)
  | item (row : Item)
  | projectChild (row : ProjectChild)
  | itemChild (row : ItemChild)

/-- A scope grant. -/
structure Grant where
  customerIds : List Str
  projectIds : List Str
  deriving DecidableEq

/-- `empty_grant/0`. -/
def Grant.empty : Grant := ⟨[], []⟩

/-- What `apply_plan/3` returns. -/
structure Applied where
  upserts : List Upsert
  scopeGrant : Grant
  authorizationRevisionBump : Bool

/-- `result/3` on the blank effect. -/
def result (grant : Grant) (upsert : Upsert) : Applied where
  upserts := [upsert]
  scopeGrant := grant
  authorizationRevisionBump := !grant.customerIds.isEmpty || !grant.projectIds.isEmpty

/-- `grant/3`. -/
def grant (principal : Principal) (world : World) (requested : Grant) : Except Fault Grant :=
  match world.membership, world.organization with
  | some membership, some _ => do
    refuseIf (membership.active != some true) "creator membership is not canonical and active"
    refuseIf (membership.organizationId != some principal.organizationId ||
        membership.userId != some principal.userId)
      "creator membership is not canonical and active"
    return {
      customerIds := if membership.allCustomers then []
        else requested.customerIds.diff membership.customerIds
      projectIds := if membership.allProjects then []
        else requested.projectIds.diff membership.projectIds }
  | _, _ => refuse "creator membership is not canonical and active"

/-- `new_customer_grant/3`. -/
def newCustomerGrant (plan : Plan) (world : World) (principal : Principal) : Except Fault Grant :=
  if (world.customer plan.entityId).isNone then grant principal world ⟨[plan.entityId], []⟩
  else .ok .empty

/-- `new_project_grant/3`. -/
def newProjectGrant (plan : Plan) (world : World) (principal : Principal) : Except Fault Grant := do
  match ← nilOrStruct Project.isStruct (world.project plan.entityId) with
  | none => grant principal world ⟨[], [plan.entityId]⟩
  | some project =>
    if some project.customerId = plan.customerId then .ok .empty
    else refuse "Project Customer ownership is immutable"

/-- `require_plan_field/2`, with the field. -/
def requirePlanField (field : Option Str) (message : String) : Except Fault Str :=
  match field with
  | some v => .ok v
  | none => refuse message

/-- `project_sector_write/2`. -/
def projectSectorWrite (world : World) (row : ProjectSector) : Except Fault Unit := do
  let stored ← nilOrStruct ProjectSector.isStruct (world.projectSector row.projectSectorId)
  refuseIf (stored.any fun stored =>
      stored.projectId != row.projectId || stored.sectorId != row.sectorId)
    "ProjectSector ownership is immutable"

/-- `item_write/2`. -/
def itemWrite (world : World) (row : Item) : Except Fault Unit := do
  let stored ← nilOrStruct Item.isStruct (world.item row.itemId)
  refuseIf (stored.any fun stored =>
      stored.projectId != row.projectId || stored.projectSectorId != row.projectSectorId)
    "Item canonical ownership is immutable"

/-- `plan_label/1` of a project child. -/
def planLabel (entityType : EntityKind) : String :=
  if entityType = .known .quotation then "Quotation" else "Delivery execution"

/-- `apply_project_child/3`. -/
def applyProjectChild (plan : Plan) (world : World) : Except Fault Applied := do
  let projectId ←
    requirePlanField plan.projectId "Project-child ownership plan is missing project_id"
  let stored ←
    nilOrStruct ProjectChild.isStruct (world.projectChild plan.entityType plan.entityId)
  refuseIf (stored.any fun stored => stored.projectId != projectId)
    (planLabel plan.entityType ++ " Project ownership is immutable")
  return result .empty
    (.projectChild { entityType := plan.entityType, entityId := plan.entityId, projectId,
                     deletedAt := plan.deletedAt })

/-- Whether the type of a plan is in `@item_child_types`. -/
def isItemChildPlan (plan : Plan) : Bool :=
  match plan.entityType with
  | .known type => type.isItemChild
  | .other _ => false

/-- `apply_item_child/3` with `write_item_child/3`. -/
def applyItemChild (plan : Plan) (world : World) : Except Fault Applied := do
  refuseIf (!isItemChildPlan plan)
    ("unsupported ownership plan \"" ++ plan.entityType.label ++ "\"")
  let itemId ← requirePlanField plan.itemId "Item-child ownership plan is missing item_id"
  let stored ← nilOrStruct ItemChild.isStruct (world.itemChild plan.entityType plan.entityId)
  refuseIf (stored.any fun stored => stored.itemId != itemId)
    (plan.entityType.label ++ " Item ownership is immutable")
  return result .empty
    (.itemChild { entityType := plan.entityType, entityId := plan.entityId, itemId,
                  deletedAt := plan.deletedAt })

/-- `apply_plan/3`. The plan of a project names its customer. -/
def applyPlan (plan : Plan) (world : World) (principal : Principal) : Except Fault Applied :=
  match plan.entityType with
  | .known .customer => do
    let granted ← newCustomerGrant plan world principal
    return result granted (.customer { customerId := plan.entityId, deletedAt := plan.deletedAt })
  | .known .project => do
    let granted ← newProjectGrant plan world principal
    return result granted
      (.project { projectId := plan.entityId, customerId := plan.customerId.getD [],
                  deletedAt := plan.deletedAt })
  | .known .projectSector => do
    let projectId ← requirePlanField plan.projectId
      "ProjectSector ownership plan is missing project_id or sector_id"
    let sectorId ← requirePlanField plan.sectorId
      "ProjectSector ownership plan is missing project_id or sector_id"
    let row : ProjectSector :=
      { projectSectorId := plan.entityId, projectId, sectorId, deletedAt := plan.deletedAt }
    projectSectorWrite world row
    return result .empty (.projectSector row)
  | .known .item => do
    let projectId ← requirePlanField plan.projectId
      "Item ownership plan is missing project_id or project_sector_id"
    let sectorId ← requirePlanField plan.projectSectorId
      "Item ownership plan is missing project_id or project_sector_id"
    let row : Item :=
      { itemId := plan.entityId, projectId, projectSectorId := some sectorId,
        deletedAt := plan.deletedAt }
    itemWrite world row
    return result .empty (.item row)
  | .known .quotation | .known .deliveryExecution => applyProjectChild plan world
  | _ => applyItemChild plan world

end Ownership

end VitrialSync.Beam
