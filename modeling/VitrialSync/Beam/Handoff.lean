import VitrialSync.Beam.Canonical
import VitrialSync.Beam.Decimal
import VitrialSync.Server.Delivery.Execution

set_option relaxedAutoImplicit false
set_option autoImplicit false

/-!
# Delivery handoffs on the BEAM

`VitrialSync.Delivery.Handoff`: the validators of the materials, procurement and production plans
and of the installation records. The status of the payload was checked before, so it is a status
here; the status of the stored payload is looked up, and a text that is none is in none of the sets.

## Main definitions

* `VitrialSync.Beam.Handoff.materials`, `VitrialSync.Beam.Handoff.procurement`,
  `VitrialSync.Beam.Handoff.production`, `VitrialSync.Beam.Handoff.installation` — the four
  handoffs.
* `VitrialSync.Beam.Handoff.preProduction` — the set `@pre_production`.
-/

namespace VitrialSync.Beam.Handoff

open Python Program
open VitrialSync.Delivery (DeliveryStatus deliveryStatuses planValue noteInvalid materialsFrozen
  procurementFrozen requirementStatuses)

/-! ### Status sets -/

/-- `@production_frozen`. -/
def productionFrozen : DeliveryStatus → Bool
  | .readyForInstallation | .scheduled | .installed | .complete => true
  | _ => false

/-- `@pre_production`. -/
def preProduction : DeliveryStatus → Bool
  | .engineeringReview | .materialsRequired | .procurement => true
  | _ => false

/-- `@installation_editable`. -/
def installationEditable : DeliveryStatus → Bool
  | .readyForInstallation | .scheduled => true
  | _ => false

/-- The status of a stored payload. -/
def currentStatus (current : Dict) : Option DeliveryStatus :=
  findName deliveryStatuses (current.get "status")

/-! ### Fields -/

/-- `freeze/3`. -/
def freeze (proposed current : Option Dict) (message : String) : Except Fault Unit :=
  refuseIf (pyNe (planValue proposed) (planValue current)) message

/-- `not Value.py_eq?(plan, current_plan)` on validated plans. -/
def changed (plan current : Option Dict) : Bool := !pyEq (planValue plan) (planValue current)

/-- `reject_unless_nil/2`. -/
def rejectUnlessNil (plan : Option Dict) (message : String) : Except Fault Unit :=
  refuseIf plan.isSome message

/-- `Value.int?(revision) and revision >= 1`. -/
def isRevision (v : Value) : Bool := v.properInt?.any (1 ≤ ·)

/-- `positive_revision/2`. -/
def positiveRevision (value : Dict) (label : String) : Except Fault Unit :=
  refuseIf (!isRevision (value.get "revision")) (label ++ " revision is invalid")

/-- `required_string/3`. -/
def requiredString (value : Dict) (key message : String) : Except Fault Unit :=
  refuseIf (normalized (value.get key)).isNone message

/-- `optional_string/3`. -/
def optionalString (value : Dict) (key message : String) : Except Fault Unit :=
  refuseIf (noteInvalid (value.get key)) message

/-- `non_empty_list/3`. -/
def nonEmptyList (value : Dict) (key message : String) : Except Fault (List Value) :=
  match (value.get key).list? with
  | some xs => if xs.isEmpty then refuse message else .ok xs
  | none => refuse message

/-- `decimal/2`. -/
def decimal (v : Value) (name : String) : Except Fault Decimal :=
  match Decimal.parse v with
  | some d => .ok d
  | none => refuse (name ++ " is invalid")

/-- `frozen_reference/4`. -/
def frozenReference (value : Dict) (key : String) (source : Dict) (message : String) :
    Except Fault Unit :=
  refuseIf (!(isRevision (value.get key) && pyEq (value.get key) (source.get "revision"))) message

/-- `unique_ids/3`; `seen` are the ids of the entries before. -/
def uniqueIds (key label : String) : (entries : List Value) → (seen : List Str) → Except Fault Unit
  | [], _ => .ok ()
  | entry :: entries, seen =>
    match entry.dict?.bind fun d => normalized (d.get key) with
    | none => refuse (label ++ " id is required")
    | some id =>
      if seen.contains id then refuse (label ++ " ids must be unique")
      else uniqueIds key label entries (id :: seen)

/-- `required_id/3`. -/
def requiredId (entry : Dict) (key message : String) : Except Fault Str :=
  match normalized (entry.get key) with
  | some id => .ok id
  | none => refuse message

/-- `Map.get(current, "revision") + 1`. -/
def revisionAfter (current : Dict) : Except Fault Value :=
  match current.get "revision" with
  | .int n => .ok (.int (n + 1))
  | .float x => .ok (.float (x.add (Binary64.ofInt 1)))
  | _ => .error (.raised .arithmeticError)

/-- `revision_number/3`. -/
def revisionNumber (plan : Dict) (current : Option Dict) (label : String) : Except Fault Unit :=
  match current with
  | none =>
    refuseIf (!termEq (plan.get "revision") (.int 1))
      (label ++ " revision must advance by exactly one")
  | some current => do
    let expected ← revisionAfter current
    refuseIf (!termEq (plan.get "revision") expected)
      (label ++ " revision must advance by exactly one")

/-- `timestamp_anchor/3`. -/
def timestampAnchor (payload plan : Dict) (label : String) : Except Fault Unit :=
  refuseIf (!termEq (plan.get "updatedAt") (payload.get "updatedAt"))
    (label ++ " updatedAt must match delivery execution updatedAt")

/-- `installation_revision_step/4`. -/
def installationRevisionStep (payload plan : Dict) (current : Option Dict) (label : String) :
    Except Fault Unit := do
  revisionNumber plan current label
  timestampAnchor payload plan label

/-- `revision_step/6`. -/
def revisionStep (payload plan : Dict) (current : Option Dict) (label : String)
    (principal : Principal) (messages : ProvenanceTexts) : Except Fault Unit := do
  revisionNumber plan current label
  timestampAnchor payload plan label
  checkProvenance plan principal true messages

/-! ### Materials -/

/-- `@materials_messages`. -/
def materialsMessages : ProvenanceTexts where
  incomplete := "delivery materials plan provenance is incomplete"
  organization := "delivery materials plan organization is invalid"
  mismatch := "delivery materials plan does not match authenticated provenance"

/-- One requirement of `materials_requirements/1`. -/
def materialsRequirement (requirement : Value) : Except Fault Unit := do
  let requirement ← asMap requirement
  requiredString requirement "description" "delivery material description is required"
  requiredString requirement "unit" "delivery material unit is required"
  let quantity ← decimal (requirement.get "quantity") "delivery material quantity"
  optionalString requirement "note" "delivery material note is invalid"
  refuseIf (!quantity.isPositive) "delivery material quantity must be greater than zero"

/-- `validate_materials_plan/2`. -/
def validateMaterialsPlan (plan : Value) (principal : Principal) : Except Fault (Option Dict) :=
  match plan with
  | .none => .ok none
  | .dict plan => do
    positiveRevision plan "delivery materials plan"
    requiredString plan "updatedAt" "delivery materials plan updatedAt is required"
    let requirements ← nonEmptyList plan "requirements"
      "delivery materials plan requires at least one material"
    uniqueIds "id" "delivery material requirement" requirements []
    requirements.forM materialsRequirement
    checkProvenance plan principal false materialsMessages
    return some plan
  | _ => refuse "delivery materials plan is malformed"

/-- `materials_stage/2`. -/
def materialsStage (plan : Option Dict) (status : DeliveryStatus) : Except Fault Unit :=
  if status = .engineeringReview ∧ plan.isSome then
    refuse "delivery materials plan can only be authored during Materials Required"
  else
    refuseIf (materialsFrozen status && plan.isNone)
      "delivery materials plan is required before Procurement"

/-- `materials_transition/6` with a stored payload. -/
def materialsTransition (payload : Dict) (plan : Option Dict) (current : Dict)
    (currentPlan : Option Dict) (status : DeliveryStatus) (principal : Principal) :
    Except Fault Unit :=
  if (currentStatus current).any materialsFrozen then
    freeze plan currentPlan "delivery materials plan is immutable after Procurement starts"
  else if currentStatus current = some .engineeringReview then
    rejectUnlessNil plan "enter Materials Required before authoring the delivery materials plan"
  else if currentStatus current ≠ some .materialsRequired then .ok ()
  else if status = .procurement then do
    refuseIf currentPlan.isNone "save a delivery materials plan before starting Procurement"
    refuseIf (changed plan currentPlan)
      "delivery materials plan must be saved before the Procurement transition"
  else if status ≠ .materialsRequired ∨ changed plan currentPlan = false then .ok ()
  else
    match plan with
    | none => refuse "delivery materials plan cannot be cleared"
    | some plan =>
      revisionStep payload plan currentPlan "delivery materials plan" principal materialsMessages

/-- `materials/4`. -/
def materials (payload : Dict) (currentPayload : Option Dict) (principal : Principal)
    (status : DeliveryStatus) : Except Fault Unit := do
  let plan ← validateMaterialsPlan (payload.get "materialsPlan") principal
  materialsStage plan status
  match currentPayload with
  | none => .ok ()
  | some current => do
    let currentPlan ← validateMaterialsPlan (current.get "materialsPlan") principal
    materialsTransition payload plan current currentPlan status principal

/-! ### Procurement -/

/-- `@procurement_messages`. -/
def procurementMessages : ProvenanceTexts where
  incomplete := "delivery procurement plan provenance is incomplete"
  organization := "delivery procurement plan organization is invalid"
  mismatch := "delivery procurement plan does not match authenticated provenance"

/-- One step of `frozen_materials/1`. -/
def addFrozenMaterial (frozen : List (Str × Dict)) (requirement : Value) :
    Except Fault (List (Str × Dict)) := do
  let requirement ← asMap requirement
  return match normalized (requirement.get "id") with
    | none => frozen
    | some id => assign frozen id requirement

/-- `frozen_materials/1`: the requirements of the materials under their ids. -/
def frozenMaterials (materialsPlan : Dict) : Except Fault (List (Str × Dict)) :=
  (listWrap (orEmptyList (materialsPlan.get "requirements"))).foldlM addFrozenMaterial []

/-- `valid_lead_time/1`. -/
def validLeadTime (requirement : Dict) : Except Fault Unit :=
  refuseIf (!(requirement.get "leadTimeDays").isNone &&
      !(requirement.get "leadTimeDays").properInt?.any (0 ≤ ·))
    "delivery procurement requirement lead time is invalid"

/-- `valid_expected_availability/1`. -/
def validExpectedAvailability (requirement : Dict) : Except Fault Unit :=
  refuseIf (!(requirement.get "expectedAvailableAt").isNone &&
      (normalized (requirement.get "expectedAvailableAt")).isNone)
    "delivery procurement expected availability is invalid"

/-- `valid_shortage/3`. -/
def validShortage (requirement : Dict) (frozen : List (Str × Dict)) (id : Str) :
    Except Fault Unit :=
  if (requirement.get "status").isStr "shortage" then do
    let material := (frozen.lookup id).getD []
    let shortage ← decimal (requirement.get "shortageQuantity")
      "delivery procurement shortage quantity"
    let required ← decimal (material.get "quantity") "delivery material quantity"
    refuseIf (!(shortage.isPositive && shortage.compare required != .gt))
      "delivery procurement shortage quantity is invalid"
  else
    refuseIf (!(requirement.get "shortageQuantity").isNone)
      "delivery procurement shortage quantity is only valid for shortages"

/-- `procurement_requirement/2`. -/
def procurementRequirement (requirement : Value) (frozen : List (Str × Dict)) :
    Except Fault Str := do
  let requirement ← asMap requirement
  let id ← requiredId requirement "requirementID" "delivery procurement requirement id is required"
  refuseIf (frozen.lookup id).isNone
    "delivery procurement requirement references unknown frozen material"
  refuseIf (!member (requirement.get "status") (requirementStatuses.map Prod.fst))
    "delivery procurement requirement status is invalid"
  validLeadTime requirement
  validExpectedAvailability requirement
  optionalString requirement "note" "delivery procurement requirement note is invalid"
  validShortage requirement frozen id
  return id

/-- One step of `procurement_requirements/2`; `seen` are the ids of the requirements before. -/
def collectRequirement (frozen : List (Str × Dict)) (seen : List Str) (requirement : Value) :
    Except Fault (List Str) := do
  let id ← procurementRequirement requirement frozen
  refuseIf (seen.contains id) "delivery procurement requirement ids must be unique"
  return id :: seen

/-- `procurement_requirements/2`. -/
def procurementRequirements (requirements : List Value) (frozen : List (Str × Dict)) :
    Except Fault (List Str) :=
  requirements.foldlM (collectRequirement frozen) []

/-- `covers_frozen_materials/2`. -/
def coversFrozenMaterials (requirements : List Value) (frozen : List (Str × Dict)) :
    Except Fault Unit := do
  let seen ← requirements.mapM fun requirement => do
    return normalized (← mapGet requirement "requirementID")
  let missing := (keys frozen).any fun id => !seen.contains (some id)
  let unknown := seen.any fun id => !((keys frozen).map some).contains id
  refuseIf missing "delivery procurement plan is missing frozen material requirements"
  refuseIf unknown "delivery procurement plan requirements do not match frozen materials"

/-- `validate_procurement_plan/3`. -/
def validateProcurementPlan (plan : Value) (materialsPlan : Option Dict) (principal : Principal) :
    Except Fault (Option Dict) :=
  match plan with
  | .none => .ok none
  | .dict plan =>
    match materialsPlan with
    | none => refuse "delivery procurement plan requires a frozen materials plan"
    | some materialsPlan => do
      positiveRevision plan "delivery procurement plan"
      frozenReference plan "materialsPlanRevision" materialsPlan
        "delivery procurement plan materials revision does not match frozen materials"
      requiredString plan "updatedAt" "delivery procurement plan updatedAt is required"
      let requirements ← nonEmptyList plan "requirements"
        "delivery procurement plan requires every frozen material"
      let frozen ← frozenMaterials materialsPlan
      let _ ← procurementRequirements requirements frozen
      coversFrozenMaterials requirements frozen
      checkProvenance plan principal false procurementMessages
      return some plan
  | _ => refuse "delivery procurement plan is malformed"

/-- An entry of a plan that is not in the given status. -/
def notIn (status : String) (entry : Value) : Bool :=
  !entry.dict?.any fun d => (d.get "status").isStr status

/-- `require_production_ready/1`. -/
def requireProductionReady (plan : Option Dict) : Except Fault Unit :=
  match plan with
  | none => refuse "save delivery procurement readiness before starting Production"
  | some plan => do
    let requirements ← enumerate (orEmptyList (plan.get "requirements"))
    refuseIf (requirements.any (notIn "available"))
      "delivery Production is blocked until every frozen material is available"

/-- `procurement_stage/2`. -/
def procurementStage (plan : Option Dict) (status : DeliveryStatus) : Except Fault Unit :=
  if (status = .engineeringReview ∨ status = .materialsRequired) ∧ plan.isSome then
    refuse "delivery procurement plan can only be authored during Procurement"
  else if procurementFrozen status then requireProductionReady plan
  else .ok ()

/-- `procurement_transition/6` with a stored payload. -/
def procurementTransition (payload : Dict) (plan : Option Dict) (current : Dict)
    (currentPlan : Option Dict) (status : DeliveryStatus) (principal : Principal) :
    Except Fault Unit :=
  if (currentStatus current).any procurementFrozen then
    freeze plan currentPlan "delivery procurement plan is immutable after Production starts"
  else if (currentStatus current).any preProduction then
    rejectUnlessNil plan "enter Procurement before authoring delivery procurement readiness"
  else if currentStatus current ≠ some .procurement then .ok ()
  else if status = .production then do
    refuseIf currentPlan.isNone "save delivery procurement readiness before starting Production"
    refuseIf (changed plan currentPlan)
      "delivery procurement plan must be saved before the Production transition"
    requireProductionReady plan
  else if status ≠ .procurement ∨ changed plan currentPlan = false then .ok ()
  else
    match plan with
    | none => refuse "delivery procurement plan cannot be cleared"
    | some plan =>
      revisionStep payload plan currentPlan "delivery procurement plan" principal
        procurementMessages

/-- `procurement/4`. -/
def procurement (payload : Dict) (currentPayload : Option Dict) (principal : Principal)
    (status : DeliveryStatus) : Except Fault Unit := do
  let materialsPlan ← validateMaterialsPlan (payload.get "materialsPlan") principal
  let plan ← validateProcurementPlan (payload.get "procurementPlan") materialsPlan principal
  procurementStage plan status
  match currentPayload with
  | none => .ok ()
  | some current => do
    let currentMaterials ← validateMaterialsPlan (current.get "materialsPlan") principal
    let currentPlan ←
      validateProcurementPlan (current.get "procurementPlan") currentMaterials principal
    procurementTransition payload plan current currentPlan status principal

/-! ### Production -/

/-- `@production_messages`. -/
def productionMessages : ProvenanceTexts where
  incomplete := "delivery production plan provenance is incomplete"
  organization := "delivery production plan organization is invalid"
  mismatch := "delivery production plan does not match authenticated provenance"

/-- One step of `production_steps/1`. -/
def productionStep (step : Value) : Except Fault Unit :=
  match step.dict? with
  | none => refuse "delivery production step is malformed"
  | some step => do
    refuseIf (normalized (step.get "id")).isNone "delivery production step id is required"
    refuseIf (normalized (step.get "description")).isNone
      "delivery production step description is required"
    refuseIf (!member (step.get "status")
        (VitrialSync.Delivery.Production.stepStatuses.map Prod.fst))
      "delivery production step status is invalid"
    optionalString step "note" "delivery production step note is invalid"

/-- `validate_production_plan/3`. -/
def validateProductionPlan (plan procurementPlan : Value) (principal : Principal) :
    Except Fault (Option Dict) :=
  match plan with
  | .none => .ok none
  | .dict plan =>
    match procurementPlan.dict? with
    | none => refuse "delivery production plan requires a frozen procurement plan"
    | some procurement => do
      positiveRevision plan "delivery production plan"
      frozenReference plan "procurementPlanRevision" procurement
        "delivery production plan procurement revision does not match frozen procurement"
      requiredString plan "updatedAt" "delivery production plan updatedAt is required"
      let steps ← nonEmptyList plan "steps"
        "delivery production plan requires at least one production step"
      uniqueIds "id" "delivery production step" steps []
      steps.forM productionStep
      checkProvenance plan principal false productionMessages
      return some plan
  | _ => refuse "delivery production plan is malformed"

/-- `require_installation_ready/1`. -/
def requireInstallationReady (plan : Option Dict) : Except Fault Unit :=
  match plan with
  | none => refuse "save delivery production work before marking Ready for Installation"
  | some plan => do
    let steps ← enumerate (orEmptyList (plan.get "steps"))
    refuseIf (steps.any (notIn "complete"))
      "delivery Ready for Installation is blocked until every production step is complete"

/-- `production_stage/2`. -/
def productionStage (plan : Option Dict) (status : DeliveryStatus) : Except Fault Unit :=
  if preProduction status ∧ plan.isSome then
    refuse "delivery production plan can only be authored during Production"
  else if productionFrozen status then requireInstallationReady plan
  else .ok ()

/-- `production_transition/6` with a stored payload. -/
def productionTransition (plan : Option Dict) (current : Dict) (currentPlan : Option Dict)
    (status : DeliveryStatus) (payload : Dict) (principal : Principal) : Except Fault Unit :=
  if (currentStatus current).any productionFrozen then
    freeze plan currentPlan "delivery production plan is immutable after Ready for Installation"
  else if (currentStatus current).any preProduction then
    rejectUnlessNil plan "enter Production before authoring delivery production work"
  else if currentStatus current ≠ some .production then .ok ()
  else if status = .readyForInstallation then do
    refuseIf currentPlan.isNone
      "save delivery production work before marking Ready for Installation"
    refuseIf (changed plan currentPlan)
      "delivery production plan must be saved before the Ready for Installation transition"
    requireInstallationReady plan
  else if status ≠ .production ∨ changed plan currentPlan = false then .ok ()
  else
    match plan with
    | none => refuse "delivery production plan cannot be cleared"
    | some plan =>
      revisionStep payload plan currentPlan "delivery production plan" principal
        productionMessages

/-- `production/4`. -/
def production (payload : Dict) (currentPayload : Option Dict) (principal : Principal)
    (status : DeliveryStatus) : Except Fault Unit := do
  let plan ← validateProductionPlan (payload.get "productionPlan") (payload.get "procurementPlan")
    principal
  productionStage plan status
  match currentPayload with
  | none => .ok ()
  | some current => do
    let currentPlan ← validateProductionPlan (current.get "productionPlan")
      (current.get "procurementPlan") principal
    productionTransition plan current currentPlan status payload principal

/-! ### Installation records -/

/-- `installation_messages/1`. -/
def installationMessages (label : String) : ProvenanceTexts where
  incomplete := "delivery installation " ++ label ++ " provenance is incomplete"
  organization := "delivery installation " ++ label ++ " organization is invalid"
  mismatch := "delivery installation " ++ label ++ " does not match authenticated provenance"

/-- `production_ready?/1`. -/
def productionReady (productionPlan : Dict) : Bool :=
  (productionPlan.get "steps").list?.any fun steps =>
    !steps.isEmpty && steps.all fun step => !notIn "complete" step

/-- `validate_installer_assignment/1`. -/
def validateInstallerAssignment (value : Value) : Except Fault Unit :=
  match value with
  | .none => .ok ()
  | .dict value => do
    requiredString value "id" "delivery installation installer assignment id is required"
    requiredString value "displayName" "delivery installation installer displayName is required"
    refuseIf (!(Dict.get value "phone").isNone && (normalized (Dict.get value "phone")).isNone)
      "delivery installation installer phone is invalid"
  | _ => refuse "delivery installation installer assignment is malformed"

/-- `require_installer_assignment/1`. -/
def requireInstallerAssignment (schedule : Dict) : Except Fault Unit :=
  refuseIf (schedule.get "installerAssignment").isNone
    "delivery installation installer assignment is required for a new schedule revision"

/-- `validate_schedule/3`. -/
def validateSchedule (schedule productionPlan : Value) (principal : Principal) :
    Except Fault (Option Dict) :=
  match schedule with
  | .none => .ok none
  | .dict schedule =>
    match productionPlan.dict? with
    | none => refuse "delivery installation schedule requires a frozen production plan"
    | some production => do
      refuseIf (!productionReady production)
        "delivery installation schedule requires completed Production work"
      positiveRevision schedule "delivery installation schedule"
      frozenReference schedule "productionPlanRevision" production
        "delivery installation schedule production revision does not match frozen Production"
      requiredString schedule "scheduledFor" "delivery installation scheduledFor is required"
      requiredString schedule "updatedAt" "delivery installation schedule updatedAt is required"
      validateInstallerAssignment (Dict.get schedule "installerAssignment")
      optionalString schedule "note" "delivery installation schedule note is invalid"
      checkProvenance schedule principal false (installationMessages "schedule")
      return some schedule
  | _ => refuse "delivery installation schedule is malformed"

/-- `reference_shape/2`: the reference with its key in `collect_references/4`. -/
def referenceShape (reference : Value) (label : String) : Except Fault (Value × Value) :=
  match reference.dict? with
  | none => refuse ("delivery installation " ++ label ++ " evidence reference is malformed")
  | some reference =>
    if (normalized (reference.get "itemID")).isNone ||
        (normalized (reference.get "documentID")).isNone then
      refuse ("delivery installation " ++ label ++
        " evidence reference requires itemID and documentID")
    else .ok (reference.get "itemID", reference.get "documentID")

/-- `collect_references/4`; `seen` are the keys of the references before. The parts of a key are
texts, so a set compares them as texts. -/
def collectReferences (label : String) : (references : List Value) →
    (seen : List (Value × Value)) → Except Fault Unit
  | [], _ => .ok ()
  | reference :: references, seen => do
    let key ← referenceShape reference label
    if seen.any fun other => termEq other.1 key.1 && termEq other.2 key.2 then
      refuse ("delivery installation " ++ label ++ " evidence references must be unique")
    else collectReferences label references (key :: seen)

/-- `validated_references/3`. -/
def validatedReferences (references : Value) (label : String) (requireNonempty : Bool) :
    Except Fault (List Value) :=
  let malformed := "delivery installation " ++ label ++
    if requireNonempty then " requires at least one evidence reference"
    else " evidence references are malformed"
  match references.list? with
  | none => refuse malformed
  | some references =>
    if requireNonempty && references.isEmpty then refuse malformed
    else do
      collectReferences label references []
      return references

/-- `validate_completion/3`. -/
def validateCompletion (completion : Value) (schedule : Option Dict) (principal : Principal) :
    Except Fault (Option Dict) :=
  match completion with
  | .none => .ok none
  | .dict completion =>
    match schedule with
    | none => refuse "delivery installation completion requires a saved installation schedule"
    | some schedule => do
      positiveRevision completion "delivery installation completion"
      frozenReference completion "installationScheduleRevision" schedule
        "delivery installation completion schedule revision does not match saved schedule"
      requiredString completion "completedAt" "delivery installation completedAt is required"
      requiredString completion "updatedAt"
        "delivery installation completion updatedAt is required"
      optionalString completion "note" "delivery installation completion note is invalid"
      let _ ← validatedReferences (Dict.get completion "evidenceReferences") "completion" true
      checkProvenance completion principal false (installationMessages "completion")
      return some completion
  | _ => refuse "delivery installation completion is malformed"

/-- `closeout_body/3`. -/
def closeoutBody (closeout completion : Dict) (principal : Principal) :
    Except Fault (Option Dict) := do
  let revision := closeout.get "installationCompletionRevision"
  refuseIf (revision.properInt?.isNone || !pyEq revision (completion.get "revision"))
    "delivery closeout completion revision does not match installed completion"
  requiredString closeout "closedAt" "delivery closeout closedAt is required"
  requiredString closeout "updatedAt" "delivery closeout updatedAt is required"
  optionalString closeout "note" "delivery closeout note is invalid"
  let references ← validatedReferences (closeout.get "evidenceReferences") "closeout" false
  refuseIf (references.isEmpty && (normalized (closeout.get "note")).isNone)
    "delivery closeout requires a final note or at least one evidence reference"
  checkProvenance closeout principal false (installationMessages "closeout")
  return some closeout

/-- `validate_closeout/3`. -/
def validateCloseout (closeout : Value) (completion : Option Dict) (principal : Principal) :
    Except Fault (Option Dict) :=
  match closeout with
  | .none => .ok none
  | .dict closeout =>
    match completion with
    | none => refuse "delivery closeout requires recorded installation completion"
    | some completion =>
      let revision := Dict.get closeout "revision"
      if pyNe revision (.int 1) || (revision matches .bool _) then
        refuse "delivery closeout revision must be exactly one"
      else closeoutBody closeout completion principal
  | _ => refuse "delivery closeout is malformed"

/-! ### Installation -/

/-- The validated records of a payload. -/
structure Records where
  schedule : Option Dict
  completion : Option Dict
  closeout : Option Dict

/-- `installation_stage/4`. -/
def installationStage (r : Records) (status : DeliveryStatus) : Except Fault Unit :=
  let early := status = .engineeringReview ∨ status = .materialsRequired ∨
    status = .procurement ∨ status = .production
  if early ∧ r.schedule.isSome then
    refuse "delivery installation schedule can only be authored after Production is complete"
  else if (status = .scheduled ∨ status = .installed ∨ status = .complete) ∧ r.schedule.isNone then
    refuse "save delivery installation schedule before moving work to Scheduled"
  else if (early ∨ status = .readyForInstallation) ∧ r.completion.isSome then
    refuse "delivery installation completion can only be authored while Scheduled"
  else if (status = .installed ∨ status = .complete) ∧ r.completion.isNone then
    refuse "save installation completion evidence before marking delivery Installed"
  else if status ≠ .complete ∧ r.closeout.isSome then
    refuse "delivery closeout can only be recorded with the Complete transition"
  else if status = .complete ∧ r.closeout.isNone then
    refuse "record delivery closeout before marking delivery Complete"
  else .ok ()

/-- The arm of `installed_or_editable/10` for a delivery that is complete. -/
def completeTransition (r current : Records) : Except Fault Unit := do
  refuseIf (changed r.schedule current.schedule)
    "delivery installation schedule is immutable after installation is recorded"
  refuseIf (changed r.completion current.completion)
    "delivery installation completion is immutable after installation is recorded"
  refuseIf (changed r.closeout current.closeout)
    "delivery closeout is immutable after delivery is Complete"

/-- `installed_transition/9`. -/
def installedTransition (payload : Dict) (r current : Records) (status : DeliveryStatus)
    (principal : Principal) : Except Fault Unit := do
  refuseIf (changed r.schedule current.schedule)
    "delivery installation schedule is immutable after installation is recorded"
  refuseIf (changed r.completion current.completion)
    "delivery installation completion is immutable after installation is recorded"
  if status = .complete then
    if current.closeout.isSome then refuse "delivery closeout is already recorded"
    else
      match r.closeout with
      | none => refuse "record delivery closeout before marking delivery Complete"
      | some closeout => do
        refuseIf (!termEq (closeout.get "updatedAt") (payload.get "updatedAt"))
          "delivery closeout updatedAt must match delivery execution updatedAt"
        checkProvenance closeout principal true (installationMessages "closeout")
  else
    refuseIf (changed r.closeout current.closeout)
      "delivery closeout can only be recorded with the Complete transition"

/-- The next revision of the schedule, in `ready_transition/6` and `scheduled_transition/6`. -/
def scheduleRevision (payload : Dict) (schedule currentSchedule : Option Dict)
    (principal : Principal) : Except Fault Unit :=
  match schedule with
  | none => refuse "delivery installation schedule cannot be cleared"
  | some schedule => do
    installationRevisionStep payload schedule currentSchedule "delivery installation schedule"
    requireInstallerAssignment schedule
    checkProvenance schedule principal true (installationMessages "schedule")

/-- `ready_transition/6`. -/
def readyTransition (payload : Dict) (schedule completion currentSchedule : Option Dict)
    (status : DeliveryStatus) (principal : Principal) : Except Fault Unit :=
  if completion.isSome then refuse "enter Scheduled before authoring installation completion"
  else if status = .scheduled then do
    refuseIf currentSchedule.isNone
      "save delivery installation schedule before moving work to Scheduled"
    refuseIf (changed schedule currentSchedule)
      "delivery installation schedule must be saved before the Scheduled transition"
  else if status ≠ .readyForInstallation ∨ changed schedule currentSchedule = false then .ok ()
  else scheduleRevision payload schedule currentSchedule principal

/-- `recording_installation/4`. -/
def recordingInstallation (schedule completion currentSchedule currentCompletion : Option Dict) :
    Except Fault Unit := do
  refuseIf currentSchedule.isNone
    "delivery installation schedule is required before recording installation"
  refuseIf currentCompletion.isNone
    "save installation completion evidence before marking delivery Installed"
  refuseIf (changed schedule currentSchedule)
    "delivery installation schedule must be saved before recording installation"
  refuseIf (changed completion currentCompletion)
    "delivery installation completion must be saved before recording installation"

/-- `scheduled_transition/6`. -/
def scheduledTransition (payload : Dict)
    (schedule completion currentSchedule currentCompletion : Option Dict) (principal : Principal) :
    Except Fault Unit :=
  let scheduleChanged := changed schedule currentSchedule
  let completionChanged := changed completion currentCompletion
  if scheduleChanged && completionChanged then
    refuse ("delivery installation may revise either schedule or completion per mutation, " ++
      "not both")
  else if scheduleChanged then
    if currentCompletion.isSome then
      refuse "delivery installation schedule is frozen once completion evidence is recorded"
    else scheduleRevision payload schedule currentSchedule principal
  else if !completionChanged then .ok ()
  else
    match completion with
    | none => refuse "delivery installation completion cannot be cleared"
    | some completion => do
      installationRevisionStep payload completion currentCompletion
        "delivery installation completion"
      checkProvenance completion principal true (installationMessages "completion")

/-- `installed_or_editable/10`. -/
def installedOrEditable (payload : Dict) (r current : Records)
    (currentStatus : Option DeliveryStatus) (status : DeliveryStatus) (principal : Principal) :
    Except Fault Unit :=
  if currentStatus = some .complete then completeTransition r current
  else if currentStatus = some .installed then
    installedTransition payload r current status principal
  else if !currentStatus.any installationEditable then
    if r.schedule.isSome then
      refuse "enter Ready for Installation before authoring an installation schedule"
    else
      refuseIf r.completion.isSome "enter Scheduled before authoring installation completion"
  else if currentStatus = some .readyForInstallation then
    readyTransition payload r.schedule r.completion current.schedule status principal
  else if status = .installed then
    recordingInstallation r.schedule r.completion current.schedule current.completion
  else if status ≠ .scheduled then .ok ()
  else
    scheduledTransition payload r.schedule r.completion current.schedule current.completion
      principal

/-- `schedule_frozen_by_completion/3`. -/
def scheduleFrozenByCompletion (currentPayload : Option Dict) (schedule : Option Dict)
    (principal : Principal) : Except Fault Unit :=
  match currentPayload with
  | none => .ok ()
  | some current =>
    if (current.get "status").isStr "scheduled" &&
        !(current.get "installationCompletion").isNone then do
      let currentSchedule ← validateSchedule (current.get "installationSchedule")
        (current.get "productionPlan") principal
      refuseIf (changed schedule currentSchedule)
        "delivery installation schedule is frozen once completion evidence is recorded"
    else .ok ()

/-- `installation_transition/7` with a stored payload. -/
def installationTransition (payload : Dict) (r : Records) (current : Dict) (principal : Principal)
    (status : DeliveryStatus) : Except Fault Unit := do
  let currentSchedule ← validateSchedule (current.get "installationSchedule")
    (current.get "productionPlan") principal
  let currentCompletion ←
    validateCompletion (current.get "installationCompletion") currentSchedule principal
  let currentCloseout ←
    validateCloseout (current.get "deliveryCloseout") currentCompletion principal
  installedOrEditable payload r ⟨currentSchedule, currentCompletion, currentCloseout⟩
    (currentStatus current) status principal

/-- `installation/4`. -/
def installation (payload : Dict) (currentPayload : Option Dict) (principal : Principal)
    (status : DeliveryStatus) : Except Fault Unit := do
  let schedule ← validateSchedule (payload.get "installationSchedule")
    (payload.get "productionPlan") principal
  scheduleFrozenByCompletion currentPayload schedule principal
  let completion ← validateCompletion (payload.get "installationCompletion") schedule principal
  let closeout ← validateCloseout (payload.get "deliveryCloseout") completion principal
  installationStage ⟨schedule, completion, closeout⟩ status
  match currentPayload with
  | none => .ok ()
  | some current =>
    installationTransition payload ⟨schedule, completion, closeout⟩ current principal status

end VitrialSync.Beam.Handoff
