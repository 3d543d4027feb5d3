import VitrialSync.Server.Delivery.Status

set_option relaxedAutoImplicit false
set_option autoImplicit false

/-!
# Installation schedules, completions and closeouts

`app/delivery_installation.py`: what a delivery execution records from the installation schedule to
the closeout, and the evidence it refers to.

## Main definitions

* `VitrialSync.Delivery.Installation.validateSchedule`,
  `VitrialSync.Delivery.Installation.validateCompletion`,
  `VitrialSync.Delivery.Installation.validateCloseout` — the three records.
* `VitrialSync.Delivery.Installation.validateInstallationHandoff` —
  `validate_installation_handoff`.
* `VitrialSync.Delivery.Installation.validateInstallationEvidenceAuthority` —
  `validate_installation_evidence_authority`.
-/

namespace VitrialSync.Delivery.Installation

open Python Program

/-- `raise DeliveryInstallationRejected(message)`. -/
def rejected (message : String) : Exc := .deliveryInstallationRejected message

/-- The statuses up to production. -/
def beforeInstallation : DeliveryStatus → Bool
  | .engineeringReview | .materialsRequired | .procurement | .production => true
  | _ => false

/-- The statuses that need a schedule. -/
def needsSchedule : DeliveryStatus → Bool
  | .scheduled | .installed | .complete => true
  | _ => false

/-- The statuses that need a completion. -/
def needsCompletion : DeliveryStatus → Bool
  | .installed | .complete => true
  | _ => false

/-- `_require_provenance`. -/
def requireRecordProvenance (value : Dict) (principal : Principal) (currentActor : Bool)
    (label : String) : Except Exc Unit :=
  requireProvenance (fun m => .deliveryInstallationRejected m)
    { incomplete := "delivery installation " ++ label ++ " provenance is incomplete"
      organization := "delivery installation " ++ label ++ " organization is invalid"
      mismatch := "delivery installation " ++ label ++ " does not match authenticated provenance" }
    value principal currentActor

/-- `_validate_installer_assignment`. -/
def validateInstallerAssignment (value : Value) : Except Exc Unit :=
  match value with
  | .none => .ok ()
  | .dict value => do
    raiseIf (normalized (Dict.get value "id")).isNone
      (rejected "delivery installation installer assignment id is required")
    raiseIf (normalized (Dict.get value "displayName")).isNone
      (rejected "delivery installation installer displayName is required")
    let phone := Dict.get value "phone"
    raiseIf (!phone.isNone && (normalized phone).isNone)
      (rejected "delivery installation installer phone is invalid")
  | _ => .error (rejected "delivery installation installer assignment is malformed")

/-- `_require_installer_assignment_for_revision`. -/
def requireInstallerAssignmentForRevision (schedule : Dict) : Except Exc Unit :=
  raiseIf (schedule.get "installerAssignment").isNone
    (rejected ("delivery installation installer assignment is required for a new schedule " ++
      "revision"))

/-- `_production_ready`. -/
def productionReady (productionPlan : Dict) : Bool :=
  (productionPlan.get "steps").list?.any fun steps =>
    !steps.isEmpty && steps.all fun step =>
      step.dict?.any fun d => (d.get "status").isStr "complete"

/-- `_validate_schedule`. -/
def validateSchedule (schedule productionPlan : Value) (principal : Principal) :
    Except Exc (Option Dict) :=
  match schedule with
  | .none => .ok none
  | .dict schedule =>
    match productionPlan.dict? with
    | none => .error (rejected "delivery installation schedule requires a frozen production plan")
    | some production => do
      raiseIf (!productionReady production)
        (rejected "delivery installation schedule requires completed Production work")
      raiseIf (revision? (Dict.get schedule "revision")).isNone
        (rejected "delivery installation schedule revision is invalid")
      raiseIf (!revisionMatches (Dict.get schedule "productionPlanRevision")
          (production.get "revision"))
        (rejected ("delivery installation schedule production revision does not match frozen " ++
          "Production"))
      raiseIf (normalized (Dict.get schedule "scheduledFor")).isNone
        (rejected "delivery installation scheduledFor is required")
      raiseIf (normalized (Dict.get schedule "updatedAt")).isNone
        (rejected "delivery installation schedule updatedAt is required")
      validateInstallerAssignment (Dict.get schedule "installerAssignment")
      raiseIf (noteInvalid (Dict.get schedule "note"))
        (rejected "delivery installation schedule note is invalid")
      requireRecordProvenance schedule principal false "schedule"
      return some schedule
  | _ => .error (rejected "delivery installation schedule is malformed")

/-- One iteration of the loop of `_validated_references`; `seen` are the references before. -/
def checkReference (label : String) (seen : List (Str × Str)) (reference : Value) :
    Except Exc (List (Str × Str)) :=
  match reference.dict? with
  | none =>
    .error (rejected ("delivery installation " ++ label ++ " evidence reference is malformed"))
  | some reference =>
    match normalized (reference.get "itemID"), normalized (reference.get "documentID") with
    | some itemId, some documentId => do
      raiseIf (seen.contains (itemId, documentId))
        (rejected ("delivery installation " ++ label ++ " evidence references must be unique"))
      return (itemId, documentId) :: seen
    | _, _ =>
      .error (rejected ("delivery installation " ++ label ++
        " evidence reference requires itemID and documentID"))

/-- `_validated_references`. -/
def validatedReferences (references : Value) (label : String) (requireNonempty : Bool) :
    Except Exc (List Value) :=
  let malformed := rejected ("delivery installation " ++ label ++
    if requireNonempty then " requires at least one evidence reference"
    else " evidence references are malformed")
  match references.list? with
  | none => .error malformed
  | some refs => do
    raiseIf (requireNonempty && refs.isEmpty) malformed
    let _ ← refs.foldlM (checkReference label) []
    return refs

/-- `_validate_completion`. -/
def validateCompletion (completion : Value) (schedule : Option Dict) (principal : Principal) :
    Except Exc (Option Dict) :=
  match completion with
  | .none => .ok none
  | .dict completion =>
    match schedule with
    | none =>
      .error (rejected "delivery installation completion requires a saved installation schedule")
    | some schedule => do
      raiseIf (revision? (Dict.get completion "revision")).isNone
        (rejected "delivery installation completion revision is invalid")
      raiseIf (!revisionMatches (Dict.get completion "installationScheduleRevision")
          (schedule.get "revision"))
        (rejected
          "delivery installation completion schedule revision does not match saved schedule")
      raiseIf (normalized (Dict.get completion "completedAt")).isNone
        (rejected "delivery installation completion completedAt is required")
      raiseIf (normalized (Dict.get completion "updatedAt")).isNone
        (rejected "delivery installation completion updatedAt is required")
      raiseIf (noteInvalid (Dict.get completion "note"))
        (rejected "delivery installation completion note is invalid")
      let _ ← validatedReferences (Dict.get completion "evidenceReferences") "completion" true
      requireRecordProvenance completion principal false "completion"
      return some completion
  | _ => .error (rejected "delivery installation completion is malformed")

/-- `_validate_closeout`. -/
def validateCloseout (closeout : Value) (completion : Option Dict) (principal : Principal) :
    Except Exc (Option Dict) :=
  match closeout with
  | .none => .ok none
  | .dict closeout =>
    match completion with
    | none => .error (rejected "delivery closeout requires recorded installation completion")
    | some completion => do
      let revision := Dict.get closeout "revision"
      -- `1.0` passes, `True` does not
      raiseIf (revision.ne (.int 1) || (revision matches .bool _))
        (rejected "delivery closeout revision must be exactly one")
      raiseIf (!(Dict.get closeout "installationCompletionRevision").properInt?.any
          fun n => !(Value.int n).ne (completion.get "revision"))
        (rejected "delivery closeout completion revision does not match installed completion")
      raiseIf (normalized (Dict.get closeout "closedAt")).isNone
        (rejected "delivery closeout closedAt is required")
      raiseIf (normalized (Dict.get closeout "updatedAt")).isNone
        (rejected "delivery closeout updatedAt is required")
      raiseIf (noteInvalid (Dict.get closeout "note"))
        (rejected "delivery closeout note is invalid")
      let references ←
        validatedReferences (Dict.get closeout "evidenceReferences") "closeout" false
      raiseIf (references.isEmpty && (normalized (Dict.get closeout "note")).isNone)
        (rejected "delivery closeout requires a final note or at least one evidence reference")
      requireRecordProvenance closeout principal false "closeout"
      return some closeout
  | _ => .error (rejected "delivery closeout is malformed")

/-! ### Handoff -/

/-- The validated installation records of a payload. -/
structure Records where
  schedule : Option Dict
  completion : Option Dict
  closeout : Option Dict

/-- `a != b` on validated records. -/
def recordChanged (a b : Option Dict) : Bool := (planValue a).ne (planValue b)

/-- What each status requires of the records. -/
def requireStatusRecords (status : DeliveryStatus) (r : Records) : Except Exc Unit := do
  raiseIf (beforeInstallation status && r.schedule.isSome)
    (rejected "delivery installation schedule can only be authored after Production is complete")
  raiseIf (needsSchedule status && r.schedule.isNone)
    (rejected "save delivery installation schedule before moving work to Scheduled")
  raiseIf ((beforeInstallation status || status == .readyForInstallation) && r.completion.isSome)
    (rejected "delivery installation completion can only be authored while Scheduled")
  raiseIf (needsCompletion status && r.completion.isNone)
    (rejected "save installation completion evidence before marking delivery Installed")
  raiseIf (status != .complete && r.closeout.isSome)
    (rejected "delivery closeout can only be recorded with the Complete transition")
  raiseIf (status == .complete && r.closeout.isNone)
    (rejected "record delivery closeout before marking delivery Complete")

/-- Schedule and completion are frozen once installation is recorded. -/
def requireInstalledFrozen (r current : Records) : Except Exc Unit := do
  raiseIf (recordChanged r.schedule current.schedule)
    (rejected "delivery installation schedule is immutable after installation is recorded")
  raiseIf (recordChanged r.completion current.completion)
    (rejected "delivery installation completion is immutable after installation is recorded")

/-- A changed schedule is the next revision, names an installer and the principal. -/
def requireScheduleRevision (payload : Dict) (principal : Principal) (schedule : Option Dict)
    (current : Option Dict) : Except Exc Unit :=
  match schedule with
  | none => .error (rejected "delivery installation schedule cannot be cleared")
  | some schedule => do
    requireNextRevision (fun m => .deliveryInstallationRejected m)
      "delivery installation schedule revision must advance by exactly one"
      "delivery installation schedule updatedAt must match delivery execution updatedAt"
      schedule current payload
    requireInstallerAssignmentForRevision schedule
    requireRecordProvenance schedule principal true "schedule"

/-- The branch for a delivery stored as installed. -/
def handoffFromInstalled (payload : Dict) (principal : Principal) (status : DeliveryStatus)
    (r current : Records) : Except Exc Unit := do
  requireInstalledFrozen r current
  if status = .complete then do
    raiseIf current.closeout.isSome (rejected "delivery closeout is already recorded")
    match r.closeout with
    | none => .error (rejected "record delivery closeout before marking delivery Complete")
    | some closeout => do
      raiseIf ((closeout.get "updatedAt").ne (payload.get "updatedAt"))
        (rejected "delivery closeout updatedAt must match delivery execution updatedAt")
      requireRecordProvenance closeout principal true "closeout"
  else
    raiseIf (recordChanged r.closeout current.closeout)
      (rejected "delivery closeout can only be recorded with the Complete transition")

/-- The branch for a delivery stored as ready for installation. -/
def handoffFromReady (payload : Dict) (principal : Principal) (status : DeliveryStatus)
    (r current : Records) : Except Exc Unit := do
  raiseIf r.completion.isSome
    (rejected "enter Scheduled before authoring installation completion")
  if status = .scheduled then do
    raiseIf current.schedule.isNone
      (rejected "save delivery installation schedule before moving work to Scheduled")
    raiseIf (recordChanged r.schedule current.schedule)
      (rejected "delivery installation schedule must be saved before the Scheduled transition")
  else if status ≠ .readyForInstallation ∨ recordChanged r.schedule current.schedule = false then
    .ok ()
  else requireScheduleRevision payload principal r.schedule current.schedule

/-- The branch for a delivery stored as scheduled. -/
def handoffFromScheduled (payload : Dict) (principal : Principal) (status : DeliveryStatus)
    (r current : Records) : Except Exc Unit :=
  if status = .installed then do
    raiseIf current.schedule.isNone
      (rejected "delivery installation schedule is required before recording installation")
    raiseIf current.completion.isNone
      (rejected "save installation completion evidence before marking delivery Installed")
    raiseIf (recordChanged r.schedule current.schedule)
      (rejected "delivery installation schedule must be saved before recording installation")
    raiseIf (recordChanged r.completion current.completion)
      (rejected "delivery installation completion must be saved before recording installation")
  else if status ≠ .scheduled then .ok ()
  else do
    let scheduleChanged := recordChanged r.schedule current.schedule
    let completionChanged := recordChanged r.completion current.completion
    raiseIf (scheduleChanged && completionChanged)
      (rejected ("delivery installation may revise either schedule or completion per mutation, " ++
        "not both"))
    if scheduleChanged then do
      raiseIf current.completion.isSome
        (rejected "delivery installation schedule is frozen once completion evidence is recorded")
      requireScheduleRevision payload principal r.schedule current.schedule
    else if completionChanged then
      match r.completion with
      | none => .error (rejected "delivery installation completion cannot be cleared")
      | some completion => do
        requireNextRevision (fun m => .deliveryInstallationRejected m)
          "delivery installation completion revision must advance by exactly one"
          "delivery installation completion updatedAt must match delivery execution updatedAt"
          completion current.completion payload
        requireRecordProvenance completion principal true "completion"
    else .ok ()

/-- The part of `validate_installation_handoff` that compares with the stored records. -/
def requireHandoff (payload : Dict) (principal : Principal) (status : DeliveryStatus)
    (r current : Records) (currentStatus : Option DeliveryStatus) : Except Exc Unit :=
  match currentStatus with
  | some .complete => do
    requireInstalledFrozen r current
    raiseIf (recordChanged r.closeout current.closeout)
      (rejected "delivery closeout is immutable after delivery is Complete")
  | some .installed => handoffFromInstalled payload principal status r current
  | some .readyForInstallation => handoffFromReady payload principal status r current
  | some .scheduled => handoffFromScheduled payload principal status r current
  | _ => do
    raiseIf r.schedule.isSome
      (rejected "enter Ready for Installation before authoring an installation schedule")
    raiseIf r.completion.isSome
      (rejected "enter Scheduled before authoring installation completion")

/-- The freeze of the schedule once a completion is stored, checked before the new completion. -/
def requireScheduleFreeze (currentPayload : Option Dict) (principal : Principal)
    (schedule : Option Dict) : Except Exc Unit :=
  match currentPayload with
  | none => .ok ()
  | some stored =>
    if (stored.get "status").isStr "scheduled" && !(stored.get "installationCompletion").isNone then
      do
        let current ← validateSchedule (stored.get "installationSchedule")
          (stored.get "productionPlan") principal
        raiseIf (recordChanged schedule current)
          (rejected ("delivery installation schedule is frozen once completion evidence is " ++
            "recorded"))
    else .ok ()

/-- `validate_installation_handoff`. -/
def validateInstallationHandoff (payload : Dict) (currentPayload : Option Dict)
    (principal : Principal) (status : DeliveryStatus) : Except Exc Unit := do
  let schedule ← validateSchedule (payload.get "installationSchedule")
    (payload.get "productionPlan") principal
  requireScheduleFreeze currentPayload principal schedule
  let completion ← validateCompletion (payload.get "installationCompletion") schedule principal
  let closeout ← validateCloseout (payload.get "deliveryCloseout") completion principal
  requireStatusRecords status ⟨schedule, completion, closeout⟩
  match currentPayload with
  | none => .ok ()
  | some stored => do
    let currentSchedule ← validateSchedule (stored.get "installationSchedule")
      (stored.get "productionPlan") principal
    let currentCompletion ←
      validateCompletion (stored.get "installationCompletion") currentSchedule principal
    let currentCloseout ←
      validateCloseout (stored.get "deliveryCloseout") currentCompletion principal
    let currentStatus ← hashedName deliveryStatuses (stored.get "status")
    requireHandoff payload principal status ⟨schedule, completion, closeout⟩
      ⟨currentSchedule, currentCompletion, currentCloseout⟩ currentStatus

/-! ### Evidence -/

/-- One iteration of the loop of `_validate_evidence_authority`. -/
def checkEvidence (db : Db) (principal : Principal) (projectId : Str) (label : String)
    (reference : Value) : Except Exc Unit :=
  match reference.dict? with
  | none =>
    .error (rejected ("delivery installation " ++ label ++ " evidence reference is malformed"))
  | some reference =>
    match normalized (reference.get "itemID"), normalized (reference.get "documentID") with
    | some itemId, some documentId => do
      raiseIf (!(db.items.get (principal.organizationId, itemId)).any
          fun i => i.deletedAt.isNone && i.projectId == projectId)
        (rejected ("delivery installation " ++ label ++
          " evidence Item is not active in the delivery Project"))
      raiseIf (!(db.itemChildren.get (principal.organizationId, .evidence, documentId)).any
          fun e => e.deletedAt.isNone && e.itemId == itemId)
        (rejected ("delivery installation " ++ label ++
          " evidence is not canonical for the referenced Item"))
    | _, _ =>
      .error (rejected ("delivery installation " ++ label ++
        " evidence reference requires itemID and documentID"))

/-- The evidence of one record, when it changed. -/
def requireRecordEvidence (db : Db) (principal : Principal) (payload : Dict)
    (currentPayload : Option Dict) (projectId : Str) (key label malformed : String) :
    Except Exc Unit :=
  let record := payload.get key
  let current := currentPayload.elim .none fun stored => stored.get key
  if record.isNone || !record.ne current then .ok ()
  else
    match record.dict? with
    | none => .error (rejected malformed)
    | some d =>
      -- a validated record has a list of references here
      ((d.getOr "evidenceReferences" (.list [])).list?.getD []).forM
        (checkEvidence db principal projectId label)

/-- `validate_installation_evidence_authority`. -/
def validateInstallationEvidenceAuthority (db : Db) (principal : Principal) (payload : Dict)
    (currentPayload : Option Dict) (projectId : Str) : Except Exc Unit := do
  requireRecordEvidence db principal payload currentPayload projectId "installationCompletion"
    "completion" "delivery installation completion is malformed"
  requireRecordEvidence db principal payload currentPayload projectId "deliveryCloseout"
    "closeout" "delivery closeout is malformed"

end VitrialSync.Delivery.Installation
