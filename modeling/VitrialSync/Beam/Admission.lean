import VitrialSync.Beam.Delivery
import VitrialSync.Beam.Fingerprint
import VitrialSync.Beam.Json
import VitrialSync.Beam.Lifecycle
import VitrialSync.Beam.Ownership
import VitrialSync.Server.Push

set_option relaxedAutoImplicit false
set_option autoImplicit false

/-!
# The decision about one record

`VitrialSync.Admission` and `VitrialSync.Authority`: the eight steps that decide a record, in the
order in which the server takes them. The first four need the record and what is stored under its
mutation id; the others need the canonical state.

A message is dropped where the step that refused has one rejection code, and an exception is not
caught, so from the fifth step on a decision ends early with a code or with an exception.

## Main definitions

* `VitrialSync.Beam.Record` — a record of a push.
* `VitrialSync.Beam.Admission.settle` — `Admission.decide/2`, the first four steps.
* `VitrialSync.Beam.Authority.decide` — `Authority.decide/6`, the other four.
* `VitrialSync.Beam.Admission.decide` — `Admission.decide/6`.
-/

namespace VitrialSync.Beam

open Python Program

/-! ### Records -/

/-- `VitrialSync.Record`. -/
structure Record where
  id : Str
  entityType : EntityKind
  entityId : Str
  updatedAt : Str
  payload : Bytes
  baseServerRevision : Option ℕ
  clientMutationId : Option Str
  deletedAt : Option Str

namespace Record

/-- `Record.mutation/1`. -/
def mutation (r : Record) : Fingerprint.Mutation :=
  ⟨r.entityType.text, r.entityId, r.baseServerRevision, r.updatedAt, r.deletedAt, r.payload⟩

/-- `Record.tombstone?/1`. -/
def tombstone (r : Record) : Bool := r.deletedAt.isSome

/-- The fingerprint of the record. -/
def fingerprint (r : Record) : Except Raised Str := Fingerprint.of r.mutation

end Record

/-- What ends a decision early: a rejection code, or an exception. -/
inductive Halt where
  | rejected (code : Reason)
  | raised (exception : Raised)
  deriving DecidableEq

/-- The code that stands for the messages of a step. -/
def Fault.coded (code : Reason) : Fault → Halt
  | .refused _ => .rejected code
  | .raised exception => .raised exception

/-- A step whose refusals have a rejection code. -/
def coded {α : Type} (code : Reason) (x : Except Fault α) : Except Halt α :=
  x.mapError (Fault.coded code)

/-! ### Steps five to eight -/

/-- `ItemDeleteGuard.decide/2`. -/
def itemDeleteGuard (record : Record) (world : World) : Except Halt Unit :=
  raiseIf (record.entityType == .known .item && record.tombstone &&
      world.itemHasLiveAuditHistory record.entityId)
    (.rejected .authorizationRejected)

/-- `EvidenceGC.request`. -/
structure GcRequest where
  documentId : Str
  storageProvider : Str
  objectKey : Str
  reason : String
  graceSeconds : ℕ

/-- `EvidenceGC.decide/3` with the default grace. -/
def evidenceGc (record : Record) (world : World) : Option GcRequest :=
  if record.entityType == .known .evidence && record.tombstone then
    (world.evidenceBlob record.entityId).map fun blob =>
      ⟨blob.documentId, blob.storageProvider, blob.objectKey, "metadata_tombstone", 86400⟩
  else none

/-- What the authority of a record leads to: a plan with its rows, or the row of a delivery. -/
inductive Authorized where
  | generic (plan : Ownership.Plan) (ownership : Ownership.Applied)
  | delivery (projectChild : ProjectChild)

/-- `Authority.effects`, with the payload that `Admission.decide/6` puts into it. -/
structure Admitted where
  authorized : Authorized
  evidenceGc : Option GcRequest
  payload : Object

namespace Authority

variable (record : Record) (payload : Object) (current : Option StoredEntity)
  (principal : Principal) (scope : EffectiveScope) (world : World)

/-- `step_lifecycle/5`. -/
def stepLifecycle : Except Halt Unit :=
  coded .lifecycleRejected
    (Lifecycle.decide record.entityType record.entityId record.deletedAt payload (some principal)
      current world)

/-- `delivery_authority/6`. -/
def deliveryAuthority : Except Halt Authorized :=
  coded .deliveryRejected do
    let projectId ← Delivery.authorize record.entityId payload.items record.deletedAt current
      principal scope world
    let child ← Delivery.applyOwnership record.entityId projectId world
    return .delivery child

/-- `generic_authority/6`. -/
def genericAuthority : Except Halt Authorized :=
  coded .authorizationRejected do
    let plan ← Ownership.authorize record.entityType record.entityId payload.items
      record.deletedAt principal scope current.isSome world
    let applied ← Ownership.applyPlan plan world principal
    return .generic plan applied

/-- `step_authority/6` after the lifecycle. -/
def authority : Except Halt Authorized :=
  if record.entityType = .known .deliveryExecution then
    deliveryAuthority record payload current principal scope world
  else genericAuthority record payload current principal scope world

/-- `Authority.decide/6`. -/
def decide : Except Halt Admitted := do
  itemDeleteGuard record world
  stepLifecycle record payload current principal world
  let authorized ← authority record payload current principal scope world
  return ⟨authorized, evidenceGc record world, payload⟩

end Authority

namespace Admission

/-! ### Steps one to four -/

/-- `Admission.Outcome`. -/
structure Outcome where
  status : ResultStatus
  reason : Reason
  resultRevision : Option ℕ
  writesMutationRow : Bool
  payload : Option Object

/-- `Admission.prior`: the row that is stored under a mutation id. -/
structure Prior where
  entityType : EntityKind
  entityId : Str
  baseServerRevision : Option ℕ
  resultStatus : ResultStatus
  resultServerRevision : Option ℕ

/-- `Admission.context`. -/
structure Context where
  prior : Option Prior
  priorFingerprint : Option Str
  entityExists : Bool
  currentServerRevision : Option ℕ

/-- `step_missing_id/1`: an id that is `nil` or empty. -/
def missingId (record : Record) : Bool := record.clientMutationId.all List.isEmpty

/-- The outcome of `step_missing_id/1`. -/
def missingOutcome : Outcome := ⟨.rejected, .missingClientMutationId, none, false, none⟩

/-- `reject/2`. -/
def reject (reason : Reason) (resultRevision : Option ℕ) : Outcome :=
  ⟨.rejected, reason, resultRevision, true, none⟩

/-- `same_request?/3`. -/
def sameRequest (record : Record) (prior : Prior) (priorFingerprint : Option Str) :
    Except Raised Bool :=
  match priorFingerprint with
  | some stored => do return (← record.fingerprint) == stored
  | none =>
    .ok (record.entityType == prior.entityType && record.entityId == prior.entityId &&
      record.baseServerRevision == prior.baseServerRevision)

/-- `replay_reason/2`. -/
def replayReason (sameRequest acceptedReplay : Bool) : Reason :=
  if !sameRequest then .mutationIdCollision
  else if acceptedReplay then .idempotentReplay
  else .rejectedMutationIdReuse

/-- The outcome of `step_prior_mutation/2` with a prior row. -/
def replayOutcome (prior : Prior) (same : Bool) : Outcome :=
  let acceptedReplay := same && prior.resultStatus == .accepted
  { status := if acceptedReplay then .accepted else .rejected
    reason := replayReason same acceptedReplay
    resultRevision := prior.resultServerRevision
    writesMutationRow := false
    payload := none }

/-- `stale_revision?/2`. -/
def staleRevision (record : Record) (context : Context) : Bool :=
  if context.entityExists then record.baseServerRevision != context.currentServerRevision
  else record.baseServerRevision.isSome

/-- `step_revision_guard/2` with `step_payload_decode/2`. -/
def stepRevisionGuard (record : Record) (context : Context) : Outcome :=
  if staleRevision record context then reject .staleRevision context.currentServerRevision
  else
    match Payload.decode record.payload with
    | .ok payload => ⟨.accepted, .committed, none, true, some payload⟩
    | .error _ => reject .invalidMutation context.currentServerRevision

/-- `Admission.decide/2`. -/
def settle (record : Record) (context : Context) : Except Raised Outcome :=
  if missingId record then .ok missingOutcome
  else
    match context.prior with
    | some prior => do
      return replayOutcome prior (← sameRequest record prior context.priorFingerprint)
    | none => .ok (stepRevisionGuard record context)

/-! ### The decision -/

/-- What `Admission.decide/6` returns. -/
inductive Decision where
  | settled (outcome : Outcome)
  | rejected (code : Reason)
  | admitted (effects : Admitted)

/-- The answer of the authority as a decision. -/
def Decision.ofAuthority : Except Halt Admitted → Except Raised Decision
  | .ok effects => .ok (.admitted effects)
  | .error (.rejected code) => .ok (.rejected code)
  | .error (.raised exception) => .error exception

/-- `Admission.decide/6`. -/
def decide (record : Record) (context : Context) (current : Option StoredEntity)
    (principal : Principal) (scope : EffectiveScope) (world : World) : Except Raised Decision := do
  let outcome ← settle record context
  match outcome.status, outcome.payload with
  | .accepted, some payload =>
    Decision.ofAuthority (Authority.decide record payload current principal scope world)
  | _, _ => return .settled outcome

end Admission

end VitrialSync.Beam
