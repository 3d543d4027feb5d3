import VitrialSync.Server.Lifecycle
import VitrialSync.Server.Ownership
import VitrialSync.Server.Delivery.Production
import VitrialSync.Server.Delivery.Installation

set_option relaxedAutoImplicit false
set_option autoImplicit false

/-!
# Delivery executions

`app/delivery_execution.py`: the event chain of a delivery, the handoffs of its plans, and its
authority: an active project in scope and the approved quotation it was raised against.

## Main definitions

* `VitrialSync.Delivery.validateMaterialsPlan`, `VitrialSync.Delivery.validateProcurementPlan` —
  the plans of the first stages.
* `VitrialSync.Delivery.replayEvents` — the chain of events, replayed from engineering review.
* `VitrialSync.Delivery.validateDeliveryExecutionPayload` —
  `validate_delivery_execution_payload`.
* `VitrialSync.Delivery.authorizeDeliveryExecution` — `authorize_delivery_execution`.
* `VitrialSync.Delivery.applyDeliveryExecutionOwnership` —
  `apply_delivery_execution_ownership`.
-/

namespace VitrialSync.Delivery

open Python Program

/-- `raise DeliveryExecutionRejected(message)`. -/
def rejected (message : String) : Exc := .deliveryExecutionRejected message

/-- `MATERIALS_FROZEN_STATUSES`. -/
def materialsFrozen : DeliveryStatus → Bool
  | .procurement | .production | .readyForInstallation | .scheduled | .installed | .complete => true
  | _ => false

/-- `PROCUREMENT_FROZEN_STATUSES`. -/
def procurementFrozen : DeliveryStatus → Bool
  | .production | .readyForInstallation | .scheduled | .installed | .complete => true
  | _ => false

/-- The statuses before procurement. -/
def beforeProcurement : DeliveryStatus → Bool
  | .engineeringReview | .materialsRequired => true
  | _ => false

/-- The statuses of a procurement requirement. -/
inductive RequirementStatus where
  | unconfirmed
  | ordered
  | shortage
  | available
  deriving DecidableEq

/-- `PROCUREMENT_REQUIREMENT_STATUSES`. -/
def requirementStatuses : List (String × RequirementStatus) :=
  [("unconfirmed", .unconfirmed), ("ordered", .ordered), ("shortage", .shortage),
    ("available", .available)]

/-- `IMMUTABLE_HANDOFF_KEYS`. -/
def immutableHandoffKeys : List String :=
  ["id", "quotationID", "quotationNumber", "quotationRevision", "projectID", "customerID",
    "currencyCode", "quotedTotal", "pricingVersion", "startedAt"]

/-! ### Amounts -/

/-- A decimal operation whose trapped signals escape. -/
def signalling {α : Type} (x : Except Decimal.Signal α) : Except Exc α :=
  x.mapError Exc.decimalSignal

/-- `_decimal`. -/
def decimal (v : Value) (name : String) : Except Exc Decimal :=
  match v.toDecimal? with
  | some d => .ok d
  | none => .error (rejected (name ++ " is invalid"))

/-- A decimal operation that returned gave no signal. -/
@[simp]
lemma signalling_eq_ok {α : Type} {x : Except Decimal.Signal α} {a : α} :
    signalling x = .ok a ↔ x = .ok a :=
  mapError_eq_ok

/-- The decimals that the conversion accepts. -/
@[simp]
lemma decimal_eq_ok {v : Value} {name : String} {d : Decimal} :
    decimal v name = .ok d ↔ v.toDecimal? = some d := by
  unfold decimal
  cases v.toDecimal? <;> simp

/-- `_quotation_revision` of the delivery module. -/
def quotationRevision (payload : Dict) : Except Exc ℤ :=
  Lifecycle.quotationRevisionOr (rejected "canonical quotation revision is invalid") payload

/-- One iteration of the loop of `_quotation_total`. -/
def addLineTotal (total : Decimal) (line : Value) : Except Exc Decimal :=
  match line.dict? with
  | none => .error (rejected "canonical quotation line is malformed")
  | some line => do
    let price ← decimal (line.get "totalPrice") "canonical quotation totalPrice"
    signalling (total.add price)

/-- `_quotation_total`. -/
def quotationTotal (payload : Dict) : Except Exc Decimal :=
  match (payload.get "lines").list? with
  | none => .error (rejected "canonical quotation lines are unavailable")
  | some lines => do
    raiseIf lines.isEmpty (rejected "canonical quotation lines are unavailable")
    lines.foldlM addLineTotal Decimal.zero

/-! ### Events -/

/-- `_events`. -/
def events (payload : Dict) : Except Exc (List Dict) :=
  match (payload.get "events").list? with
  | none => .error (rejected "delivery execution history is required")
  | some xs =>
    if xs.isEmpty then .error (rejected "delivery execution history is required")
    else
      match dicts? xs with
      | none => .error (rejected "delivery execution history is malformed")
      | some ds => .ok ds

/-- `_require_unique_event_ids`. -/
def requireUniqueEventIds (entries : List Dict) : Except Exc Unit :=
  requireUniqueIds "id" (rejected "delivery execution event id is required")
    (rejected "delivery execution event ids must be unique") entries []

/-- `_require_event_provenance`. -/
def requireEventProvenance (event : Dict) (principal : Principal) (currentActor : Bool) :
    Except Exc Unit :=
  requireProvenance (fun m => .deliveryExecutionRejected m)
    { incomplete := "delivery execution event provenance is incomplete"
      organization := "delivery execution event organization is invalid"
      mismatch := "delivery execution latest event does not match authenticated provenance" }
    event principal currentActor

/-- `_require_materials_plan_provenance`. -/
def requireMaterialsPlanProvenance (plan : Dict) (principal : Principal) (currentActor : Bool) :
    Except Exc Unit :=
  requireProvenance (fun m => .deliveryExecutionRejected m)
    { incomplete := "delivery materials plan provenance is incomplete"
      organization := "delivery materials plan organization is invalid"
      mismatch := "delivery materials plan does not match authenticated provenance" }
    plan principal currentActor

/-- `_require_procurement_plan_provenance`. -/
def requireProcurementPlanProvenance (plan : Dict) (principal : Principal)
    (currentActor : Bool) : Except Exc Unit :=
  requireProvenance (fun m => .deliveryExecutionRejected m)
    { incomplete := "delivery procurement plan provenance is incomplete"
      organization := "delivery procurement plan organization is invalid"
      mismatch := "delivery procurement plan does not match authenticated provenance" }
    plan principal currentActor

/-! ### Materials -/

/-- One iteration of the loop over material requirements; `seen` are the ids before. -/
def checkMaterial (seen : List Str) (requirement : Value) : Except Exc (List Str) :=
  match requirement.dict? with
  | none => .error (rejected "delivery material requirement is malformed")
  | some requirement =>
    match normalized (requirement.get "id") with
    | none => .error (rejected "delivery material requirement id is required")
    | some id => do
      raiseIf (seen.contains id) (rejected "delivery material requirement ids must be unique")
      raiseIf (normalized (requirement.get "description")).isNone
        (rejected "delivery material description is required")
      raiseIf (normalized (requirement.get "unit")).isNone
        (rejected "delivery material unit is required")
      let quantity ← decimal (requirement.get "quantity") "delivery material quantity"
      let notPositive ← signalling (quantity.le Decimal.zero)
      raiseIf notPositive (rejected "delivery material quantity must be greater than zero")
      raiseIf (noteInvalid (requirement.get "note")) (rejected "delivery material note is invalid")
      return id :: seen

/-- `_validate_materials_plan`. -/
def validateMaterialsPlan (plan : Value) (principal : Principal) : Except Exc (Option Dict) :=
  match plan with
  | .none => .ok none
  | .dict plan => do
    raiseIf (revision? (Dict.get plan "revision")).isNone
      (rejected "delivery materials plan revision is invalid")
    raiseIf (normalized (Dict.get plan "updatedAt")).isNone
      (rejected "delivery materials plan updatedAt is required")
    match (Dict.get plan "requirements").list? with
    | none => .error (rejected "delivery materials plan requires at least one material")
    | some requirements => do
      raiseIf requirements.isEmpty
        (rejected "delivery materials plan requires at least one material")
      let _ ← requirements.foldlM checkMaterial []
      requireMaterialsPlanProvenance plan principal false
      return some plan
  | _ => .error (rejected "delivery materials plan is malformed")

/-! ### Procurement -/

/-- `material_by_id`: the materials under their ids; the last one of an id counts. -/
def materialById (materialsPlan : Dict) : List (Str × Dict) :=
  ((materialsPlan.get "requirements").list?.getD []).reverse.filterMap fun requirement =>
    requirement.dict?.bind fun d => (normalized (d.get "id")).map fun id => (id, d)

/-- The quantities of a requirement: a shortage is positive and at most what is required. -/
def checkShortage (status : RequirementStatus) (requirement material : Dict) :
    Except Exc Unit :=
  if status = .shortage then do
    let shortage ← decimal (requirement.get "shortageQuantity")
      "delivery procurement shortage quantity"
    let required ← decimal (material.get "quantity") "delivery material quantity"
    let notPositive ← signalling (shortage.le Decimal.zero)
    -- `or` evaluates its second operand only when the first is false
    let tooLarge ← if notPositive then .ok true else signalling (required.lt shortage)
    raiseIf tooLarge (rejected "delivery procurement shortage quantity is invalid")
  else
    raiseIf (!(requirement.get "shortageQuantity").isNone)
      (rejected "delivery procurement shortage quantity is only valid for shortages")

/-- The fields of one procurement requirement against its material. -/
def checkRequirementFields (requirement material : Dict) : Except Exc Unit := do
  match ← hashedName requirementStatuses (requirement.get "status") with
  | none => .error (rejected "delivery procurement requirement status is invalid")
  | some status => do
    let leadTime := requirement.get "leadTimeDays"
    raiseIf (!leadTime.isNone && !leadTime.properInt?.any (0 ≤ ·))
      (rejected "delivery procurement requirement lead time is invalid")
    let expectedAvailableAt := requirement.get "expectedAvailableAt"
    raiseIf (!expectedAvailableAt.isNone && (normalized expectedAvailableAt).isNone)
      (rejected "delivery procurement expected availability is invalid")
    raiseIf (noteInvalid (requirement.get "note"))
      (rejected "delivery procurement requirement note is invalid")
    checkShortage status requirement material

/-- One iteration of the loop over procurement requirements; `seen` are the ids before. -/
def checkRequirement (materials : List (Str × Dict)) (seen : List Str) (requirement : Value) :
    Except Exc (List Str) :=
  match requirement.dict? with
  | none => .error (rejected "delivery procurement requirement is malformed")
  | some requirement =>
    match normalized (requirement.get "requirementID") with
    | none => .error (rejected "delivery procurement requirement id is required")
    | some id => do
      raiseIf (seen.contains id)
        (rejected "delivery procurement requirement ids must be unique")
      match materials.lookup id with
      | none =>
        .error (rejected "delivery procurement requirement references unknown frozen material")
      | some material => do
        checkRequirementFields requirement material
        return id :: seen

/-- `_validate_procurement_plan`. -/
def validateProcurementPlan (plan : Value) (materialsPlan : Option Dict) (principal : Principal) :
    Except Exc (Option Dict) :=
  match plan with
  | .none => .ok none
  | .dict plan =>
    match materialsPlan with
    | none => .error (rejected "delivery procurement plan requires a frozen materials plan")
    | some materialsPlan => do
      raiseIf (revision? (Dict.get plan "revision")).isNone
        (rejected "delivery procurement plan revision is invalid")
      raiseIf (!revisionMatches (Dict.get plan "materialsPlanRevision")
          (materialsPlan.get "revision"))
        (rejected "delivery procurement plan materials revision does not match frozen materials")
      raiseIf (normalized (Dict.get plan "updatedAt")).isNone
        (rejected "delivery procurement plan updatedAt is required")
      let materials := materialById materialsPlan
      match (Dict.get plan "requirements").list? with
      | none => .error (rejected "delivery procurement plan requires every frozen material")
      | some requirements => do
        raiseIf requirements.isEmpty
          (rejected "delivery procurement plan requires every frozen material")
        let seen ← requirements.foldlM (checkRequirement materials) []
        raiseIf ((keys materials).any fun id => !seen.contains id)
          (rejected "delivery procurement plan is missing frozen material requirements")
        raiseIf (seen.any fun id => !(keys materials).contains id)
          (rejected "delivery procurement plan requirements do not match frozen materials")
        requireProcurementPlanProvenance plan principal false
        return some plan
  | _ => .error (rejected "delivery procurement plan is malformed")

/-! ### Handoffs of the first two plans -/

/-- The part of `_validate_materials_handoff` that compares with the stored plan. -/
def requireMaterialsHandoff (payload : Dict) (principal : Principal) (status : DeliveryStatus)
    (plan currentPlan : Option Dict) (currentStatus : Option DeliveryStatus) : Except Exc Unit :=
  let changed := (planValue plan).ne (planValue currentPlan)
  if currentStatus.any materialsFrozen then
    raiseIf changed (rejected "delivery materials plan is immutable after Procurement starts")
  else if currentStatus = some .engineeringReview then
    raiseIf plan.isSome
      (rejected "enter Materials Required before authoring the delivery materials plan")
  else if currentStatus ≠ some .materialsRequired then .ok ()
  else if status = .procurement then do
    raiseIf currentPlan.isNone
      (rejected "save a delivery materials plan before starting Procurement")
    raiseIf changed
      (rejected "delivery materials plan must be saved before the Procurement transition")
  else if status ≠ .materialsRequired ∨ changed = false then .ok ()
  else
    match plan with
    | none => .error (rejected "delivery materials plan cannot be cleared")
    | some plan => do
      requireNextRevision (fun m => .deliveryExecutionRejected m)
        "delivery materials plan revision must advance by exactly one"
        "delivery materials plan updatedAt must match delivery execution updatedAt"
        plan currentPlan payload
      requireMaterialsPlanProvenance plan principal true

/-- `_validate_materials_handoff`. -/
def validateMaterialsHandoff (payload : Dict) (currentPayload : Option Dict)
    (principal : Principal) (status : DeliveryStatus) : Except Exc Unit := do
  let plan ← validateMaterialsPlan (payload.get "materialsPlan") principal
  raiseIf (status == .engineeringReview && plan.isSome)
    (rejected "delivery materials plan can only be authored during Materials Required")
  raiseIf (materialsFrozen status && plan.isNone)
    (rejected "delivery materials plan is required before Procurement")
  match currentPayload with
  | none => .ok ()
  | some stored => do
    let currentPlan ← validateMaterialsPlan (stored.get "materialsPlan") principal
    let currentStatus ← hashedName deliveryStatuses (stored.get "status")
    requireMaterialsHandoff payload principal status plan currentPlan currentStatus

/-- `_require_production_ready`. -/
def requireProductionReady (plan : Option Dict) : Except Exc Unit :=
  match plan with
  | none => .error (rejected "save delivery procurement readiness before starting Production")
  | some plan =>
    raiseIf (((plan.get "requirements").list?.getD []).any fun requirement =>
        !(((requirement.dict?.getD []).get "status").isStr "available"))
      (rejected "delivery Production is blocked until every frozen material is available")

/-- The part of `_validate_procurement_handoff` that compares with the stored plan. -/
def requireProcurementHandoff (payload : Dict) (principal : Principal) (status : DeliveryStatus)
    (plan currentPlan : Option Dict) (currentStatus : Option DeliveryStatus) : Except Exc Unit :=
  let changed := (planValue plan).ne (planValue currentPlan)
  if currentStatus.any procurementFrozen then
    raiseIf changed (rejected "delivery procurement plan is immutable after Production starts")
  else if currentStatus.any beforeProcurement then
    raiseIf plan.isSome
      (rejected "enter Procurement before authoring delivery procurement readiness")
  else if currentStatus ≠ some .procurement then .ok ()
  else if status = .production then do
    raiseIf currentPlan.isNone
      (rejected "save delivery procurement readiness before starting Production")
    raiseIf changed
      (rejected "delivery procurement plan must be saved before the Production transition")
    requireProductionReady plan
  else if status ≠ .procurement ∨ changed = false then .ok ()
  else
    match plan with
    | none => .error (rejected "delivery procurement plan cannot be cleared")
    | some plan => do
      requireNextRevision (fun m => .deliveryExecutionRejected m)
        "delivery procurement plan revision must advance by exactly one"
        "delivery procurement plan updatedAt must match delivery execution updatedAt"
        plan currentPlan payload
      requireProcurementPlanProvenance plan principal true

/-- `_validate_procurement_handoff`. -/
def validateProcurementHandoff (payload : Dict) (currentPayload : Option Dict)
    (principal : Principal) (status : DeliveryStatus) : Except Exc Unit := do
  let materialsPlan ← validateMaterialsPlan (payload.get "materialsPlan") principal
  let plan ← validateProcurementPlan (payload.get "procurementPlan") materialsPlan principal
  raiseIf (beforeProcurement status && plan.isSome)
    (rejected "delivery procurement plan can only be authored during Procurement")
  if procurementFrozen status then requireProductionReady plan else .ok ()
  match currentPayload with
  | none => .ok ()
  | some stored => do
    let currentMaterials ← validateMaterialsPlan (stored.get "materialsPlan") principal
    let currentPlan ←
      validateProcurementPlan (stored.get "procurementPlan") currentMaterials principal
    let currentStatus ← hashedName deliveryStatuses (stored.get "status")
    requireProcurementHandoff payload principal status plan currentPlan currentStatus

/-! ### The payload -/

/-- One iteration of the event chain after the first event. -/
def replayEvent (state : DeliveryStatus) (event : Dict) : Except Exc DeliveryStatus :=
  match findName deliveryStatuses (event.get "toStatus") with
  | none => .error (rejected "delivery execution event status is invalid")
  | some toStatus => do
    raiseIf (!(event.get "fromStatus").isStr state.name)
      (rejected "delivery execution event chain is discontinuous")
    raiseIf (some toStatus != state.next && !(state.revisable && toStatus == state))
      (rejected "delivery execution transition is invalid")
    return toStatus

/-- The chain of events: the first opens engineering review, every later one starts where the one
before ended. -/
def replayEvents (history : List Dict) : Except Exc DeliveryStatus :=
  match history with
  | [] => .ok .engineeringReview
  | first :: rest => do
    raiseIf (!(first.get "fromStatus").isNone || !(first.get "toStatus").isStr "engineeringReview")
      (rejected "delivery execution must start with Engineering Review")
    rest.foldlM replayEvent .engineeringReview

/-- `except (DeliveryProductionRejected, DeliveryInstallationRejected)`: re-raised as a delivery
rejection. -/
def reraise : Exc → Exc
  | .deliveryProductionRejected m => .deliveryExecutionRejected m
  | .deliveryInstallationRejected m => .deliveryExecutionRejected m
  | e => e

/-- The four handoffs of the plans, in order. -/
def validateHandoffs (payload : Dict) (currentPayload : Option Dict) (principal : Principal)
    (status : DeliveryStatus) : Except Exc Unit := do
  validateMaterialsHandoff payload currentPayload principal status
  validateProcurementHandoff payload currentPayload principal status
  (Production.validateProductionHandoff payload currentPayload principal status).mapError reraise
  (Installation.validateInstallationHandoff payload currentPayload principal status).mapError
    reraise

/-- The fields that may only change together with a new event. -/
def protectedKeys : List String :=
  ["status", "updatedAt", "materialsPlan", "procurementPlan", "productionPlan",
    "installationSchedule", "installationCompletion"]

/-- A self-transition in a status needs a change of one of the given fields. -/
def requireRevisionChange (payload stored newest : Dict) (status : DeliveryStatus)
    (fields : List String) (message : String) : Except Exc Unit :=
  raiseIf ((newest.get "fromStatus").isStr status.name && (newest.get "toStatus").isStr status.name &&
      fields.all fun key => !(stored.get key).ne (payload.get key))
    (rejected message)

/-- The checks on the one event that an update appends. -/
def requireAppendedEvent (payload stored newest : Dict) (principal : Principal) :
    Except Exc Unit := do
  requireRevisionChange payload stored newest .materialsRequired ["materialsPlan"]
    "Materials Required self-transition requires a materials plan revision"
  requireRevisionChange payload stored newest .procurement ["procurementPlan"]
    "Procurement self-transition requires a procurement plan revision"
  requireRevisionChange payload stored newest .production ["productionPlan"]
    "Production self-transition requires a production plan revision"
  requireRevisionChange payload stored newest .readyForInstallation ["installationSchedule"]
    "Installation schedule self-transition requires an installation schedule revision"
  requireRevisionChange payload stored newest .scheduled
    ["installationSchedule", "installationCompletion"]
    "Scheduled self-transition requires an installation schedule or completion revision"
  requireEventProvenance newest principal true

/-- The comparison of the event history with the stored one. -/
def requireExtendedHistory (payload stored : Dict) (principal : Principal) (history : List Dict) :
    Except Exc Unit :=
  match (stored.get "events").list?.bind dicts? with
  | none => .error (rejected "canonical delivery execution history is malformed")
  | some current => do
    raiseIf (history.length < current.length)
      (rejected "delivery execution history cannot be truncated")
    raiseIf (!startsWith history current) (rejected "delivery execution history is immutable")
    match history.drop current.length with
    | [] =>
      raiseIf (protectedKeys.any fun key => (stored.get key).ne (payload.get key))
        (rejected "delivery execution operational changes must append a lifecycle event")
    | [newest] => requireAppendedEvent payload stored newest principal
    | _ =>
      .error (rejected "delivery execution may append only one transition per mutation")

/-- The checks of `validate_delivery_execution_payload` against the stored payload. -/
def requireSameDelivery (payload stored : Dict) (principal : Principal) (history : List Dict) :
    Except Exc Unit := do
  immutableHandoffKeys.forM fun key =>
    raiseIf ((stored.get key).ne (payload.get key))
      (rejected ("delivery execution immutable handoff field " ++ key ++ " changed"))
  requireExtendedHistory payload stored principal history

/-- `validate_delivery_execution_payload`. -/
def validateDeliveryExecutionPayload (payload : Dict) (currentPayload : Option Dict)
    (principal : Principal) (entityId : Str) : Except Exc Unit := do
  raiseIf (!(payload.get "id").isStr entityId)
    (rejected "delivery execution payload identity is invalid")
  match findName deliveryStatuses (payload.get "status") with
  | none => .error (rejected "delivery execution status is invalid")
  | some status => do
    let history ← events payload
    requireUniqueEventIds history
    history.forM fun event => requireEventProvenance event principal false
    let state ← replayEvents history
    raiseIf (state != status)
      (rejected "delivery execution status does not match lifecycle history")
    raiseIf ((payload.get "updatedAt").ne ((history.getLast?.getD []).get "occurredAt"))
      (rejected "delivery execution updatedAt must match its latest immutable event")
    raiseIf ((payload.get "startedAt").ne ((history.head?.getD []).get "occurredAt"))
      (rejected "delivery execution startedAt must match its initial event")
    validateHandoffs payload currentPayload principal status
    match currentPayload with
    | none => requireEventProvenance (history.getLast?.getD []) principal true
    | some stored => requireSameDelivery payload stored principal history

/-! ### Authority -/

/-- The stored payload that continues a delivery: a known delivery is active and owned, a new one
is neither stored nor owned. -/
def continuity (child : Option CanonicalProjectChild) (current : Option SyncEntity) :
    Except Exc (Option Dict) :=
  match current with
  | some ⟨_, some stored, _, none⟩ =>
    match child with
    | none => .error (rejected "existing delivery execution lacks canonical ownership")
    | some child => do
      raiseIf child.deletedAt.isSome
        (rejected "existing delivery execution ownership is tombstoned")
      return some stored.items
  | some _ =>
    .error (rejected "existing delivery execution payload is not canonical and active")
  | none => do
    raiseIf child.isSome
      (rejected "delivery execution canonical ownership exists without canonical payload")
    return none

/-- A quotation has the event of its approval. -/
def hasApproval (quote : Dict) : Bool :=
  let raw := quote.get "events"
  (if raw.truthy then raw else .list []).list?.any fun events =>
    events.any fun event => event.dict?.any fun d => (d.get "kind").isStr "approved"

/-- The delivery repeats a field of its quotation. -/
def requireQuotationField (payload : Dict) (key : String) (expected : Value) : Except Exc Unit :=
  raiseIf ((payload.get key).ne expected)
    (rejected ("delivery execution " ++ key ++ " does not match canonical quotation"))

/-- The checks of `authorize_delivery_execution` against the quotation. -/
def requireQuotation (db : Db) (principal : Principal) (payload : Dict)
    (projectId customerId quotationId : Str) : Except Exc Unit :=
  match db.entities.get (principal.organizationId, .quotation, quotationId) with
  | some ⟨_, some quotation, _, none⟩ => do
    let quote := quotation.items
    raiseIf (!(quote.get "status").isStr "approved")
      (rejected "delivery execution requires an approved quotation")
    raiseIf (!(quote.get "projectID").isStr projectId || !(quote.get "customerID").isStr customerId)
      (rejected "delivery execution quotation ownership does not match Project")
    raiseIf (!hasApproval quote)
      (rejected "delivery execution quotation is missing immutable approval history")
    let revision ← quotationRevision quote
    requireQuotationField payload "quotationNumber" (quote.get "number")
    requireQuotationField payload "quotationRevision" (.int revision)
    requireQuotationField payload "currencyCode" (quote.get "currencyCode")
    requireQuotationField payload "pricingVersion" (quote.get "pricingVersion")
    let quotedTotal ← decimal (payload.get "quotedTotal") "quotedTotal"
    let total ← quotationTotal quote
    let differs ← signalling (quotedTotal.ne total)
    raiseIf differs (rejected "delivery execution quotedTotal does not match canonical quotation")
  | _ => .error (rejected "delivery execution requires a canonical approved quotation")

/-- The project of a delivery: active, of the named customer and in scope. -/
def requireProject (db : Db) (principal : Principal) (scope : EffectiveScope)
    (projectId customerId : Str) : Except Exc Unit :=
  match db.projects.get (principal.organizationId, projectId) with
  | none => .error (rejected "delivery execution Project is not canonical and active")
  | some project => do
    raiseIf project.deletedAt.isSome
      (rejected "delivery execution Project is not canonical and active")
    raiseIf (project.customerId != customerId)
      (rejected "delivery execution Customer does not match canonical Project")
    raiseIf (!scope.canAccessProject projectId project.customerId)
      (rejected "delivery execution Project is outside authorized scope")

/-- `authorize_delivery_execution`: the project of the delivery. -/
def authorizeDeliveryExecution (db : Db) (principal : Principal) (scope : EffectiveScope)
    (entityId : Str) (payload : Dict) (deletedAt : Option DateTime) (current : Option SyncEntity) :
    Except Exc Str := do
  raiseIf (!principal.holds .deliveryManage)
    (rejected (Capability.deliveryManage.name ++ " capability required"))
  raiseIf deletedAt.isSome (rejected "delivery execution history cannot be tombstoned")
  let child := db.projectChildren.get (principal.organizationId, .deliveryExecution, entityId)
  let currentPayload ← continuity child current
  validateDeliveryExecutionPayload payload currentPayload principal entityId
  match normalized (payload.get "projectID"), normalized (payload.get "customerID"),
    normalized (payload.get "quotationID") with
  | some projectId, some customerId, some quotationId => do
    requireProject db principal scope projectId customerId
    (Installation.validateInstallationEvidenceAuthority db principal payload currentPayload
      projectId).mapError reraise
    requireQuotation db principal payload projectId customerId quotationId
    raiseIf (child.any fun c => c.projectId != projectId)
      (rejected "delivery execution Project ownership is immutable")
    return projectId
  | _, _, _ =>
    .error (rejected "delivery execution project/customer/quotation identity is required")

/-- `apply_delivery_execution_ownership`. -/
def applyDeliveryExecutionOwnership (principal : Principal) (entityId projectId : Str)
    (w : Working) : Ownership.Applied :=
  let key := (principal.organizationId, EntityType.deliveryExecution, entityId)
  match w.db.projectChildren.get key with
  | none =>
    (.ok (), { w with
      db := { w.db with projectChildren := w.db.projectChildren.set key ⟨projectId, none⟩ } })
  | some child =>
    if child.deletedAt.isSome then
      (.error (rejected "delivery execution tombstoned ownership cannot be resurrected"), w)
    else if child.projectId ≠ projectId then
      (.error (rejected "delivery execution Project ownership is immutable"), w)
    else (.ok (), w)

end VitrialSync.Delivery
