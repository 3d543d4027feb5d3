import VitrialSync.Beam.Handoff

set_option relaxedAutoImplicit false
set_option autoImplicit false

/-!
# Delivery authority on the BEAM

`VitrialSync.Delivery`: the gate that authorizes a delivery execution, and the row of its
ownership. The event chain, the handoffs of the plans and the comparison with the stored history
are checked in this order; the status of the payload is checked to be a status, and nothing else.

## Main definitions

* `VitrialSync.Beam.Delivery.validatePayload` — `validate_payload/4`.
* `VitrialSync.Beam.Delivery.authorize`, `VitrialSync.Beam.Delivery.applyOwnership` —
  `authorize/7` and `apply_ownership/3`.
-/

namespace VitrialSync.Beam.Delivery

open Python Program
open VitrialSync.Delivery (DeliveryStatus deliveryStatuses immutableHandoffKeys protectedKeys)

/-! ### Events -/

/-- `delivery_events/1`. -/
def deliveryEvents (payload : Dict) : Except Fault (List Dict) :=
  match eventList (payload.get "events") true with
  | .ok events => .ok events
  | .error .required => refuse "delivery execution history is required"
  | .error .malformed => refuse "delivery execution history is malformed"

/-- `unique_event_ids/1`; `seen` are the ids of the events before. -/
def uniqueEventIds : (events : List Dict) → (seen : List Str) → Except Fault Unit
  | [], _ => .ok ()
  | event :: events, seen =>
    match normalized (event.get "id") with
    | none => refuse "delivery execution event id is required"
    | some id =>
      if seen.contains id then refuse "delivery execution event ids must be unique"
      else uniqueEventIds events (id :: seen)

/-- `delivery_provenance_messages/1`: the texts are the same for both arguments. -/
def deliveryProvenanceMessages : ProvenanceTexts where
  incomplete := "delivery execution event provenance is incomplete"
  organization := "delivery execution event organization is invalid"
  mismatch := "delivery execution latest event does not match authenticated provenance"

/-- `event_provenance/2`. -/
def eventProvenance (events : List Dict) (principal : Principal) : Except Fault Unit :=
  events.forM fun event => checkProvenance event principal false deliveryProvenanceMessages

/-- `start_in_engineering_review/1`; a required history is not empty. -/
def startInEngineeringReview (events : List Dict) : Except Fault Unit :=
  match events with
  | [] => .error (.raised .functionClauseError)
  | first :: _ =>
    refuseIf (!(first.get "fromStatus").isNone ||
        !(first.get "toStatus").isStr "engineeringReview")
      "delivery execution must start with Engineering Review"

/-- `allowed_transition?/2`. -/
def allowedTransition (state toStatus : DeliveryStatus) : Bool :=
  state.next == some toStatus || (state.revisable && toStatus == state)

/-- `walk_transitions/3`; there is no state before the first event. -/
def walkTransitions : (events : List Dict) → (state : Option DeliveryStatus) → Except Fault Unit
  | [], _ => .ok ()
  | event :: events, state =>
    match findName deliveryStatuses (event.get "toStatus") with
    | none => refuse "delivery execution event status is invalid"
    | some toStatus => do
      refuseIf (state.any fun s => !(event.get "fromStatus").isStr s.name)
        "delivery execution event chain is discontinuous"
      refuseIf (state.any fun s => !allowedTransition s toStatus)
        "delivery execution transition is invalid"
      walkTransitions events (some toStatus)

/-- `anchor_timestamps/2`. -/
def anchorTimestamps (payload : Dict) (events : List Dict) : Except Fault Unit := do
  refuseIf (!termEq (payload.get "updatedAt") ((events.getLast?.getD []).get "occurredAt"))
    "delivery execution updatedAt must match its latest immutable event"
  refuseIf (!termEq (payload.get "startedAt") ((events.head?.getD []).get "occurredAt"))
    "delivery execution startedAt must match its initial event"

/-! ### The stored history -/

/-- `handoffs/4`. -/
def handoffs (payload : Dict) (currentPayload : Option Dict) (principal : Principal)
    (status : DeliveryStatus) : Except Fault Unit := do
  Handoff.materials payload currentPayload principal status
  Handoff.procurement payload currentPayload principal status
  Handoff.production payload currentPayload principal status
  Handoff.installation payload currentPayload principal status

/-- `immutable_handoff_fields/2`. -/
def immutableHandoffFields (current payload : Dict) : Except Fault Unit :=
  immutableHandoffKeys.forM fun key =>
    refuseIf (!pyEq (current.get key) (payload.get key))
      ("delivery execution immutable handoff field " ++ key ++ " changed")

/-- `operational_change_requires_event/2`. -/
def operationalChangeRequiresEvent (payload current : Dict) : Except Fault Unit :=
  refuseIf (protectedKeys.any fun key => !pyEq (current.get key) (payload.get key))
    "delivery execution operational changes must append a lifecycle event"

/-- An arm of `self_transition_revision/3`: an event that stays in a status while the given fields
are unchanged. -/
def idleTransition (payload current newest : Dict) (status : DeliveryStatus)
    (fields : List String) : Bool :=
  (newest.get "fromStatus").isStr status.name && (newest.get "toStatus").isStr status.name &&
    fields.all fun key => pyEq (current.get key) (payload.get key)

/-- `self_transition_revision/3`. -/
def selfTransitionRevision (payload current newest : Dict) : Except Fault Unit := do
  refuseIf (idleTransition payload current newest .materialsRequired ["materialsPlan"])
    "Materials Required self-transition requires a materials plan revision"
  refuseIf (idleTransition payload current newest .procurement ["procurementPlan"])
    "Procurement self-transition requires a procurement plan revision"
  refuseIf (idleTransition payload current newest .production ["productionPlan"])
    "Production self-transition requires a production plan revision"
  refuseIf (idleTransition payload current newest .readyForInstallation ["installationSchedule"])
    "Installation schedule self-transition requires an installation schedule revision"
  refuseIf (idleTransition payload current newest .scheduled
      ["installationSchedule", "installationCompletion"])
    "Scheduled self-transition requires an installation schedule or completion revision"

/-- `appended_rules/4`. -/
def appendedRules (payload current : Dict) (currentEvents events : List Dict)
    (principal : Principal) : Except Fault Unit :=
  match events.drop currentEvents.length with
  | [] => operationalChangeRequiresEvent payload current
  | [newest] => do
    selfTransitionRevision payload current newest
    checkProvenance newest principal true deliveryProvenanceMessages
  | _ => refuse "delivery execution may append only one transition per mutation"

/-- `enforce_history/4`. -/
def enforceHistory (payload : Dict) (currentPayload : Option Dict) (events : List Dict)
    (principal : Principal) : Except Fault Unit :=
  match currentPayload with
  | none =>
    checkProvenance (events.getLast?.getD []) principal true deliveryProvenanceMessages
  | some current => do
    immutableHandoffFields current payload
    match (current.get "events").list?.bind dicts? with
    | none => refuse "canonical delivery execution history is malformed"
    | some currentEvents => do
      refuseIf (events.length < currentEvents.length)
        "delivery execution history cannot be truncated"
      refuseIf (!listEq ((events.take currentEvents.length).map .dict) (currentEvents.map .dict))
        "delivery execution history is immutable"
      appendedRules payload current currentEvents events principal

/-- The part of `validate_payload/4` that reads the event chain of the payload: its status and its
events. -/
def readHistory (payload : Dict) (principal : Principal) (entityId : Str) :
    Except Fault (DeliveryStatus × List Dict) := do
  refuseIf (!(payload.get "id").isStr entityId) "delivery execution payload identity is invalid"
  match findName deliveryStatuses (payload.get "status") with
  | none => refuse "delivery execution status is invalid"
  | some status => do
    let events ← deliveryEvents payload
    uniqueEventIds events []
    eventProvenance events principal
    startInEngineeringReview events
    walkTransitions events none
    return (status, events)

/-- `validate_payload/4`. -/
def validatePayload (payload : Dict) (currentPayload : Option Dict) (principal : Principal)
    (entityId : Str) : Except Fault Unit := do
  let (status, events) ← readHistory payload principal entityId
  anchorTimestamps payload events
  handoffs payload currentPayload principal status
  enforceHistory payload currentPayload events principal

/-! ### Authority -/

/-- `require_capability/1`. -/
def requireCapability (principal : Principal) : Except Fault Unit :=
  refuseIf (!principal.holds .deliveryManage)
    (Capability.deliveryManage.name ++ " capability required")

/-- `refuse_tombstone/1`. -/
def refuseTombstone (deletedAt : Option Str) : Except Fault Unit :=
  refuseIf deletedAt.isSome "delivery execution history cannot be tombstoned"

/-- `continuity/3`: its clauses take `nil` and the struct. -/
def continuity (entityId : Str) (current : Option StoredEntity) (world : World) :
    Except Fault (Option Dict) :=
  let child := world.projectChild (.known .deliveryExecution) entityId
  match current with
  | none =>
    if child.isSome then
      refuse "delivery execution canonical ownership exists without canonical payload"
    else .ok none
  | some (.map _) => .error (.raised .functionClauseError)
  | some (.struct e) =>
    match e.payload.object? with
    | none => refuse "existing delivery execution payload is not canonical and active"
    | some stored =>
      if e.deletedAt.isSome then
        refuse "existing delivery execution payload is not canonical and active"
      else
        match child with
        | none => refuse "existing delivery execution lacks canonical ownership"
        | some child =>
          if matchesLive child.isStruct child.deletedAt then .ok (some stored.items)
          else refuse "existing delivery execution ownership is tombstoned"

/-- `resolve_identity/1`: the project and the customer. -/
def resolveIdentity (payload : Dict) : Except Fault (Str × Str) :=
  match normalized (payload.get "projectID"), normalized (payload.get "customerID"),
    normalized (payload.get "quotationID") with
  | some projectId, some customerId, some _ => .ok (projectId, customerId)
  | _, _, _ => refuse "delivery execution project/customer/quotation identity is required"

/-- `require_active_project/4`. -/
def requireActiveProject (world : World) (projectId customerId : Str) (scope : EffectiveScope) :
    Except Fault Unit :=
  match world.project projectId with
  | none => refuse "delivery execution Project is not canonical and active"
  | some project => do
    refuseIf (!matchesLive project.isStruct project.deletedAt)
      "delivery execution Project is not canonical and active"
    refuseIf (project.customerId != customerId)
      "delivery execution Customer does not match canonical Project"
    refuseIf (!scope.canAccessProject project.projectId project.customerId)
      "delivery execution Project is outside authorized scope"

/-- `check_evidence_item/5`. -/
def checkEvidenceItem (world : World) (projectId itemId documentId : Str) (label : String) :
    Except Fault Unit := do
  refuseIf (!(world.item itemId).any
      fun i => matchesLive i.isStruct i.deletedAt && i.projectId == projectId)
    ("delivery installation " ++ label ++ " evidence Item is not active in the delivery Project")
  refuseIf (!(world.itemChild (.known .evidence) documentId).any fun e =>
      matchesLive e.isStruct e.deletedAt && e.itemId == itemId)
    ("delivery installation " ++ label ++
      " evidence is not canonical for the referenced Item")

/-- `evidence_reference/4`. -/
def evidenceReference (world : World) (projectId : Str) (label : String) (reference : Value) :
    Except Fault Unit :=
  match reference.dict? with
  | none => refuse ("delivery installation " ++ label ++ " evidence reference is malformed")
  | some reference =>
    match normalized (reference.get "itemID"), normalized (reference.get "documentID") with
    | some itemId, some documentId => checkEvidenceItem world projectId itemId documentId label
    | _, _ =>
      refuse ("delivery installation " ++ label ++
        " evidence reference requires itemID and documentID")

/-- `evidence_references/5`; `malformed` is the text for a record that is no object. -/
def evidenceReferences (value currentValue : Value) (world : World) (projectId : Str)
    (label malformed : String) : Except Fault Unit :=
  if value.isNone || pyEq value currentValue then .ok ()
  else
    match value.dict? with
    | none => refuse malformed
    | some record => do
      let references ← enumerate (orEmptyList (record.get "evidenceReferences"))
      references.forM (evidenceReference world projectId label)

/-- `current_payload && Map.get(current_payload, key)`. -/
def storedField (currentPayload : Option Dict) (key : String) : Value :=
  currentPayload.elim .none fun current => current.get key

/-- `installation_evidence_authority/4`. -/
def installationEvidenceAuthority (payload : Dict) (currentPayload : Option Dict) (world : World)
    (projectId : Str) : Except Fault Unit := do
  evidenceReferences (payload.get "installationCompletion")
    (storedField currentPayload "installationCompletion") world projectId "completion"
    "delivery installation completion is malformed"
  evidenceReferences (payload.get "deliveryCloseout")
    (storedField currentPayload "deliveryCloseout") world projectId "closeout"
    "delivery closeout is malformed"

/-! ### The quotation -/

/-- `canonical_quotation/2`. -/
def canonicalQuotation (world : World) (quotationId : Option Str) : Except Fault Dict :=
  match (activeStruct (quotationId.bind (world.entity (.known .quotation)))).bind
      fun row => row.payload.object? with
  | some quote => .ok quote.items
  | none => refuse "delivery execution requires a canonical approved quotation"

/-- `require_approval_history/1`. -/
def requireApprovalHistory (quote : Dict) : Except Fault Unit :=
  refuseIf (!(quote.get "events").list?.any fun events =>
      events.any fun event => event.dict?.any fun d => (d.get "kind").isStr "approved")
    "delivery execution quotation is missing immutable approval history"

/-- `canonical_quotation_revision/1`. -/
def canonicalQuotationRevision (quote : Dict) : Except Fault Value :=
  match quote.get "revision" with
  | .none => .ok (.int 1)
  | value =>
    if Handoff.isRevision value then .ok value
    else refuse "canonical quotation revision is invalid"

/-- The fields of `match_quotation_fields/3`. -/
def quotationFields (quote : Dict) (revision : Value) : List (String × Value) :=
  [("quotationNumber", quote.get "number"), ("quotationRevision", revision),
    ("currencyCode", quote.get "currencyCode"), ("pricingVersion", quote.get "pricingVersion")]

/-- `match_quotation_fields/3`. -/
def matchQuotationFields (payload quote : Dict) (revision : Value) : Except Fault Unit :=
  (quotationFields quote revision).forM fun (key, value) =>
    refuseIf (!pyEq (payload.get key) value)
      ("delivery execution " ++ key ++ " does not match canonical quotation")

/-- One line of `quotation_total/1`. -/
def addLine (total : Decimal) (line : Value) : Except Fault Decimal :=
  match line.dict? with
  | none => refuse "canonical quotation line is malformed"
  | some line =>
    match Decimal.parse (line.get "totalPrice") with
    | none => refuse "canonical quotation totalPrice is invalid"
    | some price => .ok (total.add price)

/-- `quotation_total/1`. -/
def quotationTotal (quote : Dict) : Except Fault Decimal :=
  match (quote.get "lines").list? with
  | none => refuse "canonical quotation lines are unavailable"
  | some lines =>
    if lines.isEmpty then refuse "canonical quotation lines are unavailable"
    else lines.foldlM addLine Decimal.zero

/-- `quoted_total/1`. -/
def quotedTotal (value : Value) : Except Fault Decimal :=
  match Decimal.parse value with
  | some d => .ok d
  | none => refuse "quotedTotal is invalid"

/-- `match_quoted_total/2`. -/
def matchQuotedTotal (payload quote : Dict) : Except Fault Unit := do
  let quoted ← quotedTotal (payload.get "quotedTotal")
  let total ← quotationTotal quote
  refuseIf (quoted.notEq total) "delivery execution quotedTotal does not match canonical quotation"

/-- `require_approved_quotation/4`. -/
def requireApprovedQuotation (world : World) (payload : Dict) (projectId customerId : Str) :
    Except Fault Unit := do
  let quote ← canonicalQuotation world (normalized (payload.get "quotationID"))
  refuseIf (!(quote.get "status").isStr "approved")
    "delivery execution requires an approved quotation"
  refuseIf (!(quote.get "projectID").isStr projectId || !(quote.get "customerID").isStr customerId)
    "delivery execution quotation ownership does not match Project"
  requireApprovalHistory quote
  let revision ← canonicalQuotationRevision quote
  matchQuotationFields payload quote revision
  matchQuotedTotal payload quote

/-! ### The gate -/

/-- `authorize/7`: the project of the delivery. -/
def authorize (entityId : Str) (payload : Dict) (deletedAt : Option Str)
    (current : Option StoredEntity) (principal : Principal) (scope : EffectiveScope)
    (world : World) : Except Fault Str := do
  requireCapability principal
  refuseTombstone deletedAt
  let currentPayload ← continuity entityId current world
  validatePayload payload currentPayload principal entityId
  let (projectId, customerId) ← resolveIdentity payload
  requireActiveProject world projectId customerId scope
  installationEvidenceAuthority payload currentPayload world projectId
  requireApprovedQuotation world payload projectId customerId
  refuseIf ((world.projectChild (.known .deliveryExecution) entityId).any
      fun child => !(child.isStruct && child.projectId == projectId))
    "delivery execution Project ownership is immutable"
  return projectId

/-- `apply_ownership/3`: the row of the ownership. -/
def applyOwnership (entityId projectId : Str) (world : World) : Except Fault ProjectChild := do
  let row : ProjectChild :=
    { entityType := .known .deliveryExecution, entityId, projectId, deletedAt := none }
  match ← nilOrStruct ProjectChild.isStruct
      (world.projectChild (.known .deliveryExecution) entityId) with
  | none => return row
  | some child =>
    if child.deletedAt.isSome then
      refuse "delivery execution tombstoned ownership cannot be resurrected"
    else if child.projectId ≠ projectId then
      refuse "delivery execution Project ownership is immutable"
    else return row

end VitrialSync.Beam.Delivery
