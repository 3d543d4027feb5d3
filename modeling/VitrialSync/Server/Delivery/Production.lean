import VitrialSync.Server.Delivery.Status

set_option relaxedAutoImplicit false
set_option autoImplicit false

/-!
# Production plans

`app/delivery_production.py`: the production plan of a delivery execution and its handoff to
installation.

## Main definitions

* `VitrialSync.Delivery.Production.validatePlan` — `_validate_plan`.
* `VitrialSync.Delivery.Production.validateProductionHandoff` — `validate_production_handoff`.
-/

namespace VitrialSync.Delivery.Production

open Python Program

/-- `raise DeliveryProductionRejected(message)`. -/
def rejected (message : String) : Exc := .deliveryProductionRejected message

/-- `PRODUCTION_FROZEN_STATUSES`. -/
def frozen : DeliveryStatus → Bool
  | .readyForInstallation | .scheduled | .installed | .complete => true
  | _ => false

/-- The statuses before production. -/
def early : DeliveryStatus → Bool
  | .engineeringReview | .materialsRequired | .procurement => true
  | _ => false

/-- The statuses of a production step. -/
inductive StepStatus where
  | pending
  | inProgress
  | complete
  deriving DecidableEq

/-- `PRODUCTION_STEP_STATUSES`. -/
def stepStatuses : List (String × StepStatus) :=
  [("pending", .pending), ("inProgress", .inProgress), ("complete", .complete)]

/-- `_require_provenance`. -/
def requirePlanProvenance (plan : Dict) (principal : Principal) (currentActor : Bool) :
    Except Exc Unit :=
  requireProvenance (fun m => .deliveryProductionRejected m)
    { incomplete := "delivery production plan provenance is incomplete"
      organization := "delivery production plan organization is invalid"
      mismatch := "delivery production plan does not match authenticated provenance" }
    plan principal currentActor

/-- One iteration of the loop over the steps; `seen` are the ids of the steps before. -/
def checkStep (seen : List Str) (step : Value) : Except Exc (List Str) :=
  match step.dict? with
  | none => .error (rejected "delivery production step is malformed")
  | some step =>
    match normalized (step.get "id") with
    | none => .error (rejected "delivery production step id is required")
    | some id => do
      raiseIf (seen.contains id) (rejected "delivery production step ids must be unique")
      raiseIf (normalized (step.get "description")).isNone
        (rejected "delivery production step description is required")
      let status ← hashedName stepStatuses (step.get "status")
      raiseIf status.isNone (rejected "delivery production step status is invalid")
      raiseIf (noteInvalid (step.get "note")) (rejected "delivery production step note is invalid")
      return id :: seen

/-- `_validate_plan`. -/
def validatePlan (plan procurementPlan : Value) (principal : Principal) :
    Except Exc (Option Dict) :=
  match plan with
  | .none => .ok none
  | .dict plan =>
    match procurementPlan.dict? with
    | none => .error (rejected "delivery production plan requires a frozen procurement plan")
    | some procurement => do
      raiseIf (revision? (Dict.get plan "revision")).isNone
        (rejected "delivery production plan revision is invalid")
      raiseIf (!revisionMatches (Dict.get plan "procurementPlanRevision")
          (procurement.get "revision"))
        (rejected
          "delivery production plan procurement revision does not match frozen procurement")
      raiseIf (normalized (Dict.get plan "updatedAt")).isNone
        (rejected "delivery production plan updatedAt is required")
      match (Dict.get plan "steps").list? with
      | none =>
        .error (rejected "delivery production plan requires at least one production step")
      | some steps => do
        raiseIf steps.isEmpty
          (rejected "delivery production plan requires at least one production step")
        let _ ← steps.foldlM checkStep []
        requirePlanProvenance plan principal false
        return some plan
  | _ => .error (rejected "delivery production plan is malformed")

/-- `_require_installation_ready`. -/
def requireInstallationReady (plan : Option Dict) : Except Exc Unit :=
  match plan with
  | none =>
    .error (rejected "save delivery production work before marking Ready for Installation")
  | some plan =>
    raiseIf (((plan.get "steps").list?.getD []).any fun step =>
        !(((step.dict?.getD []).get "status").isStr "complete"))
      (rejected ("delivery Ready for Installation is blocked until every production step is " ++
        "complete"))

/-- The part of `validate_production_handoff` that compares with the stored plan. -/
def requireHandoff (payload : Dict) (principal : Principal) (status : DeliveryStatus)
    (plan currentPlan : Option Dict) (currentStatus : Option DeliveryStatus) : Except Exc Unit :=
  let changed := (planValue plan).ne (planValue currentPlan)
  if currentStatus.any frozen then
    raiseIf changed
      (rejected "delivery production plan is immutable after Ready for Installation")
  else if currentStatus.any early then
    raiseIf plan.isSome
      (rejected "enter Production before authoring delivery production work")
  else if currentStatus ≠ some .production then .ok ()
  else if status = .readyForInstallation then do
    raiseIf currentPlan.isNone
      (rejected "save delivery production work before marking Ready for Installation")
    raiseIf changed (rejected ("delivery production plan must be saved before the Ready for " ++
      "Installation transition"))
    requireInstallationReady plan
  else if status ≠ .production ∨ changed = false then .ok ()
  else
    match plan with
    | none => .error (rejected "delivery production plan cannot be cleared")
    | some plan => do
      requireNextRevision (fun m => .deliveryProductionRejected m)
        "delivery production plan revision must advance by exactly one"
        "delivery production plan updatedAt must match delivery execution updatedAt"
        plan currentPlan payload
      requirePlanProvenance plan principal true

/-- `validate_production_handoff`. -/
def validateProductionHandoff (payload : Dict) (currentPayload : Option Dict)
    (principal : Principal) (status : DeliveryStatus) : Except Exc Unit := do
  let plan ← validatePlan (payload.get "productionPlan") (payload.get "procurementPlan") principal
  raiseIf (early status && plan.isSome)
    (rejected "delivery production plan can only be authored during Production")
  if frozen status then requireInstallationReady plan else .ok ()
  match currentPayload with
  | none => .ok ()
  | some stored => do
    let currentPlan ←
      validatePlan (stored.get "productionPlan") (stored.get "procurementPlan") principal
    let currentStatus ← hashedName deliveryStatuses (stored.get "status")
    requireHandoff payload principal status plan currentPlan currentStatus

end VitrialSync.Delivery.Production
