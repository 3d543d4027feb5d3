import VitrialSync.Program.Run
import VitrialSync.Server.Delivery.Execution

set_option relaxedAutoImplicit false
set_option autoImplicit false

/-!
# Push

The push half of `app/sync_service.py`: a batch is processed record by record, parents first, in
one transaction. A record is answered from an earlier mutation with the same id, rejected, or
applied; a rejection of one record does not stop the batch, any other exception aborts it.

## Main definitions

* `VitrialSync.decodePayload` — `decode_payload`.
* `VitrialSync.requestFingerprint` — `request_fingerprint`.
* `VitrialSync.attempt` — the `try` block of a record, with the working state it leaves behind.
* `VitrialSync.processRecord` — one iteration of the loop of `_apply_push_once`.
* `VitrialSync.applyPushOnce` — `_apply_push_once`.
* `VitrialSync.runPushes`, `VitrialSync.runSteps` — a sequence of pushes, and the records it
  settled.

## Main results

* `VitrialSync.runPushes_inv`, `VitrialSync.runSteps_inv` — an invariant of every settled record
  holds in every state of a run.
* `VitrialSync.runSteps_links` — the settled records of a run lead from its first state to its last.
-/

namespace VitrialSync

open Python Program

/-! ### Payloads and fingerprints -/

/-- The value of a payload: base64 of a JSON text, or else the JSON text itself. -/
def decodeValue (raw : Bytes) : Option Value :=
  ((b64decode? raw).bind Json.loads).orElse fun _ => Json.loads raw

/-- A decoded payload has no repeated keys. -/
lemma decodeValue_wellFormed {raw : Bytes} {v : Value} (h : decodeValue raw = some v) :
    v.WellFormed := by
  rcases Json.orElse_eq_some h with h | h
  · obtain ⟨decoded, -, hloads⟩ := Option.bind_eq_some_iff.mp h
    exact Json.loads_wellFormed hloads
  · exact Json.loads_wellFormed h

/-- `decode_payload`. -/
def decodePayload (env : Env) (raw : Bytes) : Except Exc Payload :=
  match h : decodeValue raw with
  | some (.dict items) => .ok ⟨items, decodeValue_wellFormed h⟩
  | some _ =>
    .error (.invalidMutation
      (Str.ofString "invalid payload: typed payload must decode to a JSON object"))
  | none => .error (.invalidMutation (Str.ofString "invalid payload: " ++ env.loadsError raw))

/-- The payload of bytes whose value is an object. -/
lemma decodePayload_eq_ok {env : Env} {raw : Bytes} {items : Dict}
    (h : decodeValue raw = some (.dict items)) :
    ∃ payload, decodePayload env raw = .ok payload ∧ payload.items = items := by
  unfold decodePayload
  split
  · rename_i items' h'
    rw [h] at h'
    cases h'
    exact ⟨_, rfl, rfl⟩
  · rename_i v hv h'
    rw [h] at h'
    cases h'
    exact absurd rfl (hv items)
  · rename_i h'
    rw [h] at h'
    cases h'

/-- `str.encode()` of ASCII text. -/
def asciiBytes (s : Str) : Bytes := s.map fun c => byte c.val

/-- An optional number of the fingerprint material. -/
def optionalInt : Option ℕ → Value
  | some n => .int n
  | none => .none

/-- `request_fingerprint`. -/
def requestFingerprint (record : SyncRecord) : Str :=
  let material : Dict :=
    [(Str.ofString "entityType", .str record.entityType.name),
      (Str.ofString "entityID", .str record.entityID.text),
      (Str.ofString "baseServerRevision", optionalInt record.baseServerRevision),
      (Str.ofString "updatedAt", .str record.updatedAt.isoformat),
      (Str.ofString "deletedAt", record.deletedAt.elim .none fun t => .str t.isoformat),
      (Str.ofString "payload", .str ((b64encode record.payload).map Byte.toCodePoint))]
  Sha256.hexdigest (asciiBytes (Json.dumps true (.dict material)))

/-! ### The try block -/

/-- `_item_has_immutable_audit_history`. -/
def itemHasImmutableAuditHistory (db : Db) (organizationId itemId : Str) : Bool :=
  db.itemChildren.any fun k c =>
    k.1 == organizationId && k.2.1 == .itemAuditEvent && c.itemId == itemId && c.deletedAt.isNone

/-- What authorization of a record returns. -/
inductive Authorized where
  | ownership (plan : Ownership.OwnershipPlan)
  | delivery (projectId : Str)

/-- `validate_assembly_contract_mutation`, with its `ValueError` turned into a rejection. -/
def requireAssemblyContract (env : Env) (entityType : EntityType) (payload : Dict) :
    Except Exc Unit :=
  match Assembly.validateAssemblyContractMutation env entityType payload with
  | .error (.valueError message) =>
    .error (.invalidMutation (Str.ofString "invalid assembly contract: " ++ message))
  | r => r

/-- The checks of the `try` block, which only read. -/
def authorize (env : Env) (principal : Principal) (w : Working) (record : SyncRecord)
    (current : Option SyncEntity) (payload : Dict) : Except Exc Authorized := do
  requireAssemblyContract env record.entityType payload
  raiseIf (record.entityType == .item && record.deletedAt.isSome &&
      itemHasImmutableAuditHistory w.db principal.organizationId record.entityID.text)
    (Ownership.rejected "Item cannot be deleted while immutable audit history remains")
  if record.entityType = .deliveryExecution then do
    let projectId ← Delivery.authorizeDeliveryExecution w.db principal w.scope
      record.entityID.text payload record.deletedAt current
    return .delivery projectId
  else do
    Lifecycle.validateLifecycleMutation w.db principal record.entityType record.entityID.text
      payload record.deletedAt current
    let plan ← Ownership.authorizeRecord env w.db principal w.scope record.entityType
      record.entityID.text payload record.deletedAt current.isSome
    return .ownership plan

/-- The writes of the canonical tables. -/
def Authorized.apply (principal : Principal) (record : SyncRecord) (w : Working) :
    Authorized → Ownership.Applied
  | .ownership plan => Ownership.applyOwnershipPlan principal plan w
  | .delivery projectId =>
    Delivery.applyDeliveryExecutionOwnership principal record.entityID.text projectId w

/-- `queue_blob_gc`. -/
def queueBlobGc (env : Env) (now : DateTime) (organizationId documentId : Str)
    (blob : EvidenceBlob) (reason : Str) (db : Db) : Db :=
  { db with
    lastGcId := db.lastGcId + 1
    evidenceGc := db.evidenceGc ++
      [{ id := db.lastGcId + 1
         organizationId, documentId
         storageProvider := blob.storageProvider
         objectKey := blob.objectKey
         reason
         notBefore := now.addSeconds (max 0 env.evidenceGcGraceSeconds)
         attempts := 0 }] }

/-- A tombstone of evidence queues the deletion of its blob. -/
def queueEvidenceGc (env : Env) (now : DateTime) (principal : Principal) (record : SyncRecord)
    (w : Working) : Working :=
  if record.entityType = .evidence ∧ record.deletedAt.isSome then
    match w.db.evidenceBlobs.get (principal.organizationId, record.entityID.text) with
    | none => w
    | some blob =>
      { w with
        db := queueBlobGc env now principal.organizationId record.entityID.text blob
          (Str.ofString "metadata_tombstone") w.db }
  else w

/-- The `try` block of a record: its payload, or an exception, and the working state in both
cases. -/
def attempt (env : Env) (now : DateTime) (principal : Principal) (w : Working)
    (record : SyncRecord) (current : Option SyncEntity) : Except Exc Payload × Working :=
  match decodePayload env record.payload with
  | .error e => (.error e, w)
  | .ok payload =>
    match authorize env principal w record current payload.items with
    | .error e => (.error e, w)
    | .ok authorized =>
      match authorized.apply principal record w with
      | (.error e, w') => (.error e, w')
      | (.ok _, w') => (.ok payload, queueEvidenceGc env now principal record w')

/-! ### Outcomes -/

/-- The `reason` of an outcome. -/
inductive Reason where
  | missingClientMutationId
  | mutationIdCollision
  | idempotentReplay
  | rejectedMutationIdReuse
  | staleRevision
  | invalidMutation
  | authorizationRejected
  | lifecycleRejected
  | deliveryRejected
  | committed
  | internalError
  deriving DecidableEq

/-- `rejection_code`. -/
def rejectionCode : Exc → Reason
  | .invalidMutation _ => .invalidMutation
  | .authorizationRejected _ => .authorizationRejected
  | .lifecycleRejected _ => .lifecycleRejected
  | .deliveryExecutionRejected _ => .deliveryRejected
  | .deliveryProductionRejected _ => .deliveryRejected
  | .deliveryInstallationRejected _ => .deliveryRejected
  | _ => .internalError

/-- The outcome of a record, as `_outcome_event` reports it. -/
structure Outcome where
  accepted : Bool
  reason : Reason
  resultRevision : Option ℕ
  deriving DecidableEq

/-- `_record_mutation`, with `_mutation_row`. -/
def recordMutation (principal : Principal) (deviceId mutationId : Str) (record : SyncRecord)
    (status : ResultStatus) (resultRevision : Option ℕ) (db : Db) : Db :=
  let key := (principal.organizationId, mutationId)
  { db with
    mutations := db.mutations.set key
      { submittedByUserId := principal.userId
        membershipId := principal.membershipId
        sessionId := principal.sessionId
        authorizationRevision := principal.authorizationRevision
        deviceId
        entityType := record.entityType
        entityId := record.entityID.text
        baseServerRevision := record.baseServerRevision
        resultServerRevision := resultRevision
        resultStatus := status }
    fingerprints := db.fingerprints.set key (requestFingerprint record) }

/-- The answer to a mutation id that was used before. -/
def replayOutcome (db : Db) (principal : Principal) (mutationId : Str) (record : SyncRecord)
    (prior : SyncMutation) : Outcome :=
  let sameRequest :=
    match db.fingerprints.get (principal.organizationId, mutationId) with
    | some fingerprint => fingerprint == requestFingerprint record
    | none =>
      prior.entityType == record.entityType && prior.entityId == record.entityID.text &&
        prior.baseServerRevision == record.baseServerRevision
  let accepted := sameRequest && prior.resultStatus == .accepted
  { accepted
    reason := if !sameRequest then .mutationIdCollision
      else if accepted then .idempotentReplay
      else .rejectedMutationIdReuse
    resultRevision := prior.resultServerRevision }

/-- The entity row after an accepted record. The columns hold instants, read back in UTC. -/
def committedEntity (record : SyncRecord) (payload : Payload) (revision : ℕ) : SyncEntity :=
  { serverRevision := revision
    payloadJson := if record.deletedAt.isNone then some payload else none
    updatedAt := record.updatedAt.toUtc
    deletedAt := record.deletedAt.map DateTime.toUtc }

/-- The writes of an accepted record: the entity, the mutation and the change. -/
def commitRecord (principal : Principal) (deviceId mutationId : Str) (record : SyncRecord)
    (payload : Payload) (db : Db) : Db :=
  let revision := db.nextRevision principal.organizationId
  let stored := { db with
    entities := db.entities.set
      (principal.organizationId, record.entityType, record.entityID.text)
      (committedEntity record payload revision) }
  let recorded :=
    recordMutation principal deviceId mutationId record .accepted (some revision) stored
  { recorded with
    lastSequence := recorded.lastSequence + 1
    changeLog := recorded.changeLog ++
      [{ sequence := recorded.lastSequence + 1
         organizationId := principal.organizationId
         entityType := record.entityType
         entityId := record.entityID
         serverRevision := revision
         clientMutationId := record.clientMutationID
         operation := if record.deletedAt.isSome then .delete else .upsert }] }

/-- A base revision that is not the current one; without an entity there must be none. -/
def staleRevision (record : SyncRecord) (current : Option SyncEntity) : Bool :=
  record.baseServerRevision != current.map SyncEntity.serverRevision

/-! ### The loop -/

/-- `record.clientMutationID` when it is neither `None` nor empty. -/
def mutationId? (record : SyncRecord) : Option Str :=
  (record.clientMutationID.map ShortText.text).filter fun s => !s.isEmpty

/-- One iteration of the loop of `_apply_push_once`: the exceptions that are not caught abort the
batch. -/
def processRecord (env : Env) (now : DateTime) (principal : Principal) (deviceId : Str)
    (w : Working) (record : SyncRecord) : Except Exc (Working × Outcome) :=
  match mutationId? record with
  | none => .ok (w, ⟨false, .missingClientMutationId, none⟩)
  | some mutationId =>
    match w.db.mutations.get (principal.organizationId, mutationId) with
    | some prior => .ok (w, replayOutcome w.db principal mutationId record prior)
    | none =>
      let current :=
        w.db.entities.get (principal.organizationId, record.entityType, record.entityID.text)
      let currentRevision := current.map SyncEntity.serverRevision
      let reject (w : Working) (reason : Reason) : Working × Outcome :=
        ({ w with
            db := recordMutation principal deviceId mutationId record .rejected currentRevision
              w.db },
          ⟨false, reason, currentRevision⟩)
      if staleRevision record current then .ok (reject w .staleRevision)
      else
        match attempt env now principal w record current with
        | (.error e, w') => if e.caught then .ok (reject w' (rejectionCode e)) else .error e
        | (.ok payload, w') =>
          .ok ({ w' with db := commitRecord principal deviceId mutationId record payload w'.db },
            ⟨true, .committed, some (w'.db.nextRevision principal.organizationId)⟩)

/-- `mutation_sort_key` as an order. -/
def precedes (a b : SyncRecord × ℕ) : Prop :=
  a.1.entityType.order < b.1.entityType.order ∨
    a.1.entityType.order = b.1.entityType.order ∧ a.2 ≤ b.2

instance : DecidableRel precedes := fun a b => by unfold precedes; infer_instance

/-- The records of a batch with their positions, parents first. -/
def sortedRecords (batch : SyncBatch) : List (SyncRecord × ℕ) :=
  batch.records.zipIdx.insertionSort precedes

/-- The body of the loop for one indexed record. -/
def processIndexed (env : Env) (now : DateTime) (principal : Principal) (deviceId : Str)
    (w : Working) (indexed : SyncRecord × ℕ) : Except Exc (Working × Outcome) :=
  processRecord env now principal deviceId w indexed.1

/-- `outcomes.get(index) is True`. -/
def acceptedAt (outcomes : List ((SyncRecord × ℕ) × Outcome)) (index : ℕ) : Bool :=
  outcomes.any fun o => o.1.2 == index && o.2.accepted

/-- What a push reports: the result, and the outcomes in the order of processing. -/
structure PushReport where
  result : SyncResult
  outcomes : List ((SyncRecord × ℕ) × Outcome)

/-- The result of a push. -/
def syncResult (db : Db) (principal : Principal) (batch : SyncBatch)
    (outcomes : List ((SyncRecord × ℕ) × Outcome)) : SyncResult :=
  { acceptedRecordIDs :=
      (batch.records.zipIdx.filter fun r => acceptedAt outcomes r.2).map fun r => r.1.id
    rejectedRecordIDs :=
      (batch.records.zipIdx.filter fun r => !acceptedAt outcomes r.2).map fun r => r.1.id
    nextCursor := cursorText (db.maxSequence principal.organizationId) }

/-- The state a batch starts from. -/
def Working.start (db : Db) (principal : Principal) : Working :=
  ⟨db, EffectiveScope.fromPrincipal principal⟩

/-- `_apply_push_once`: the committed tables and the report. -/
def applyPushOnce (env : Env) (now : DateTime) (principal : Principal) (batch : SyncBatch)
    (db : Db) : Except Exc (Db × PushReport) :=
  if !principal.holds .sync then
    .error (.permissionError (Str.ofString "sync capability required"))
  else if (db.organizations.get principal.organizationId).isNone then
    .error (.permissionError (Str.ofString "organization unavailable"))
  else
    match loop (processIndexed env now principal batch.deviceID.text) (sortedRecords batch)
      (Working.start db principal) with
    | .error e => .error e
    | .ok (w, outcomes) => .ok (w.db, ⟨syncResult w.db principal batch outcomes, outcomes⟩)

/-! ### Runs -/

/-- A push request: when, by whom and what. -/
structure PushInput where
  now : DateTime
  principal : Principal
  batch : SyncBatch

/-- One push as a transaction. -/
def push (env : Env) (db : Db) (input : PushInput) : Except Exc (Db × PushReport) :=
  applyPushOnce env input.now input.principal input.batch db

/-- The tables after a sequence of pushes; an aborted push leaves them as they were. -/
def runPushes (env : Env) (inputs : List PushInput) (db : Db) : Db := run (push env) inputs db

/-- A settled record of a push. -/
structure RecordStep where
  input : PushInput
  before : Working
  record : SyncRecord
  after : Working
  outcome : Outcome

/-- The records of a batch in the order of processing, up to an exception that aborts it. -/
def pushSteps (env : Env) (db : Db) (input : PushInput) : List RecordStep :=
  if !input.principal.holds .sync ||
      (db.organizations.get input.principal.organizationId).isNone then []
  else
    (iterations (processIndexed env input.now input.principal input.batch.deviceID.text)
      (sortedRecords input.batch) (Working.start db input.principal)).map
      fun it => ⟨input, it.before, it.input.1, it.after, it.output⟩

/-- The records that the committed pushes of a run settled, in order. -/
def runSteps (env : Env) (inputs : List PushInput) (db : Db) : List RecordStep :=
  (committed (push env) inputs db).flatMap fun it => pushSteps env it.before it.input

/-- A record step is one iteration of the loop. -/
def RecordStep.Valid (env : Env) (s : RecordStep) : Prop :=
  processRecord env s.input.now s.input.principal s.input.batch.deviceID.text s.before s.record =
    .ok (s.after, s.outcome)

/-- The steps of a push are iterations of the loop. -/
lemma pushSteps_valid {env : Env} {db : Db} {input : PushInput} {s : RecordStep}
    (h : s ∈ pushSteps env db input) : s.Valid env ∧ s.input = input := by
  unfold pushSteps at h
  split_ifs at h
  · simp at h
  · obtain ⟨it, hit, rfl⟩ := List.mem_map.mp h
    exact ⟨(iterations_spec hit).1, rfl⟩

/-- The steps of a run are iterations of the loop. -/
lemma runSteps_valid {env : Env} {inputs : List PushInput} {db : Db} {s : RecordStep}
    (h : s ∈ runSteps env inputs db) : s.Valid env ∧ s.input ∈ inputs := by
  obtain ⟨it, hit, hs⟩ := List.mem_flatMap.mp h
  obtain ⟨hvalid, hinput⟩ := pushSteps_valid hs
  exact ⟨hvalid, hinput ▸ (committed_spec hit).2⟩

/-- An invariant of the working state that every step of a push keeps holds before every step. -/
lemma pushSteps_workingInv {env : Env} {I : Working → Prop} {db : Db} {input : PushInput}
    (hstart : I (Working.start db input.principal))
    (hstep : ∀ s ∈ pushSteps env db input, I s.before → I s.after) :
    ∀ s ∈ pushSteps env db input, I s.before := by
  unfold pushSteps at hstep ⊢
  split_ifs with hc
  · simp
  · simp only [hc, Bool.false_eq_true, ↓reduceIte, List.forall_mem_map] at hstep ⊢
    exact iterations_inv hstart hstep

/-- An invariant of the tables that every step of a push keeps holds before every step. -/
lemma pushSteps_inv {env : Env} {I : Db → Prop} {db : Db} {input : PushInput} (hdb : I db)
    (hstep : ∀ s ∈ pushSteps env db input, I s.before.db → I s.after.db) :
    ∀ s ∈ pushSteps env db input, I s.before.db :=
  pushSteps_workingInv (I := fun w => I w.db) hdb hstep

/-- An invariant of the tables that every step of a push keeps holds after the push. -/
lemma push_inv {env : Env} {I : Db → Prop} {db db' : Db} {input : PushInput}
    {report : PushReport} (h : push env db input = .ok (db', report)) (hdb : I db)
    (hstep : ∀ s ∈ pushSteps env db input, I s.before.db → I s.after.db) : I db' := by
  unfold push applyPushOnce at h
  unfold pushSteps at hstep
  split_ifs at h with hsync horg
  split at h
  · cases h
  · rename_i w outcomes hloop
    simp only [Except.ok.injEq, Prod.mk.injEq] at h
    simp only [hsync, horg, Bool.or_self, Bool.false_eq_true, ↓reduceIte,
      List.forall_mem_map] at hstep
    have hstart : I (Working.start db input.principal).db := hdb
    exact h.1 ▸ loop_inv (I := fun w : Working => I w.db) hloop hstart hstep

/-- A committed push of a run keeps what its steps keep. -/
lemma committed_push_inv {env : Env} {I : Db → Prop} {inputs : List PushInput} {db : Db}
    (hstep : ∀ s ∈ runSteps env inputs db, I s.before.db → I s.after.db) :
    ∀ it ∈ committed (push env) inputs db, I it.before → I it.after := by
  intro it hit hbefore
  exact push_inv (committed_spec hit).1 hbefore fun s hs =>
    hstep s (List.mem_flatMap.mpr ⟨it, hit, hs⟩)

/-- **Run rule.** An invariant of the tables that every settled record of a run keeps holds at the
end of the run.

**Proof sketch.** A committed push is a loop over its records (`push_inv`), a run is a sequence of
committed pushes (`Program.run_inv`). -/
theorem runPushes_inv {env : Env} {I : Db → Prop} {inputs : List PushInput} {db : Db} (hdb : I db)
    (hstep : ∀ s ∈ runSteps env inputs db, I s.before.db → I s.after.db) :
    I (runPushes env inputs db) :=
  run_inv hdb (committed_push_inv hstep)

/-- An invariant of the tables that every settled record of a run keeps holds before every settled
record. -/
theorem runSteps_inv {env : Env} {I : Db → Prop} {inputs : List PushInput} {db : Db} (hdb : I db)
    (hstep : ∀ s ∈ runSteps env inputs db, I s.before.db → I s.after.db) :
    ∀ s ∈ runSteps env inputs db, I s.before.db := by
  intro s hs
  obtain ⟨it, hit, hpush⟩ := List.mem_flatMap.mp hs
  have hbefore := committed_inv hdb (committed_push_inv hstep) it hit
  exact pushSteps_inv hbefore
    (fun t ht => hstep t (List.mem_flatMap.mpr ⟨it, hit, ht⟩)) s hpush

/-- The steps of a committed push lead from the tables before it to the tables after it. -/
lemma push_links {env : Env} {db db' : Db} {input : PushInput} {report : PushReport}
    (h : push env db input = .ok (db', report)) :
    Links (fun s : RecordStep => s.before.db) (fun s => s.after.db) (pushSteps env db input) db
      db' := by
  unfold push applyPushOnce at h
  unfold pushSteps
  split_ifs at h with hsync horg
  split at h
  · cases h
  · rename_i w outcomes hloop
    simp only [Except.ok.injEq, Prod.mk.injEq] at h
    simp only [hsync, horg, Bool.or_self, Bool.false_eq_true, ↓reduceIte]
    rw [← h.1]
    exact (loop_links hloop).map (q := Working.db) fun it => ⟨rfl, rfl⟩

/-- **Steps of a run.** The settled records of a run lead from the tables before it to the tables
after it. -/
theorem runSteps_links (env : Env) (inputs : List PushInput) (db : Db) :
    Links (fun s : RecordStep => s.before.db) (fun s => s.after.db) (runSteps env inputs db) db
      (runPushes env inputs db) :=
  (run_links inputs db).flatMap fun _ hit => push_links (committed_spec hit).1

/-- A run in two parts. -/
lemma runPushes_append (env : Env) (first second : List PushInput) (db : Db) :
    runPushes env (first ++ second) db = runPushes env second (runPushes env first db) :=
  run_append _ _ _ _

/-- A push of one record. -/
lemma runPushes_single {env : Env} {input : PushInput} {record : SyncRecord} {db : Db}
    {w : Working} {o : Outcome} (hbatch : input.batch.records = [record])
    (hsync : input.principal.holds .sync = true)
    (horg : (db.organizations.get input.principal.organizationId).isNone = false)
    (h : processRecord env input.now input.principal input.batch.deviceID.text
      (Working.start db input.principal) record = .ok (w, o)) :
    runPushes env [input] db = w.db ∧
      runSteps env [input] db = [⟨input, Working.start db input.principal, record, w, o⟩] := by
  have hsorted : sortedRecords input.batch = [(record, 0)] := by
    simp [sortedRecords, hbatch]
  constructor
  · simp only [runPushes, run, commit, push, applyPushOnce, hsync, horg, hsorted, loop,
      processIndexed, h, Bool.not_true, Bool.false_eq_true, ↓reduceIte]
  · simp only [runSteps, committed, push, applyPushOnce, pushSteps, iterations, hsync, horg,
      hsorted, loop, processIndexed, h, Bool.not_true, Bool.false_eq_true, Bool.or_self,
      ↓reduceIte, List.flatMap_cons, List.flatMap_nil, List.map_cons, List.map_nil,
      List.append_nil]

/-! ### A sample organization

One organization with one active member, and requests of that member with one record each. The
later modules run them to show that their hypotheses can be met and their conditions can fail. -/

namespace Sample

/-- Parameters of the service for records without assemblies. -/
def env : Env :=
  { assemblyFields := fun _ => .error []
    designFields := fun _ => .error []
    loadsError := fun _ => []
    evidenceGcGraceSeconds := 0 }

/-- The time of every request. -/
def time : DateTime := ⟨2026, 1, 1, 0, 0, 0, 0, some 0, DateTime.InRange.newYear⟩

/-- A member with an unbounded scope and every capability that the sample records need, except to
reopen a configuration. -/
def principal : Principal :=
  { userId := "u"
    organizationId := "o"
    membershipId := "m"
    sessionId := "s"
    authorizationRevision := 1
    capabilities := [.sync, .customerCreate, .customerEdit, .projectCreate, .projectEdit,
      .itemCreate, .itemEdit, .itemBlockersManage, .itemConfigurationManage,
      .itemConfigurationFinalize, .quotationCreate, .quotationSend, .quotationApprove,
      .deliveryManage]
    customerIds := []
    projectIds := []
    allCustomers := true
    allProjects := true }

/-- The organization and its membership; nothing has been pushed. -/
def db : Db :=
  { organizations := Table.empty.set "o" ⟨1⟩
    memberships := Table.empty.set "m" ⟨"o", "u", true, true, true, [], []⟩
    customers := .empty
    projects := .empty
    projectSectors := .empty
    items := .empty
    projectChildren := .empty
    itemChildren := .empty
    entities := .empty
    mutations := .empty
    fingerprints := .empty
    changeLog := []
    lastSequence := 0
    evidenceBlobs := .empty
    evidenceGc := []
    lastGcId := 0
    publications := .empty }

/-- A short identifier. -/
def identifier (text : String) : Identifier :=
  if h : 1 ≤ (Str.ofString text).length ∧ (Str.ofString text).length ≤ maxSyncIdentifierLength ∧
      (Str.ofString text).any CodePoint.isSurrogate = false then
    ⟨text, h.1, h.2.1, h.2.2⟩
  else ⟨[0], by simp, by simp [maxSyncIdentifierLength], by simp [Encodable, CodePoint.isSurrogate]⟩

/-- A record with the JSON text of an object as payload. -/
def record (entityType : EntityType) (entityID mutationID : String) (base : Option ℕ)
    (payload : Dict) (deletedAt : Option DateTime := none) : SyncRecord :=
  let mutation := identifier mutationID
  { id := mutation
    entityType
    entityID := identifier entityID
    updatedAt := time
    payload := (asciiBytes (Json.dumps true (.dict payload))).take maxSyncV1WirePayloadBytes
    baseServerRevision := base
    serverRevision := none
    clientMutationID := some ⟨mutation.text, mutation.bounded, mutation.encodable⟩
    deletedAt
    payload_le := List.length_take_le _ _ }

/-- The push of one record. -/
def input (record : SyncRecord) : PushInput :=
  { now := time
    principal
    batch :=
      { deviceID := identifier "d"
        cursor := none
        records := [record]
        records_le := by simp [maxSyncRecords]
        payload_le := by
          simpa [payloadBytes, maxSyncV1BatchPayloadBytes, maxSyncV1WirePayloadBytes] using
            record.payload_le } }

/-- A customer, a project, a sector and an item. -/
def setup : List PushInput :=
  [input (record .customer "c" "1" none [("id", .str "c")]),
    input (record .project "p" "2" none [("id", .str "p"), ("customerID", .str "c")]),
    input (record .projectSector "ps" "3" none
      [("id", .str "ps"), ("projectID", .str "p"), ("sectorID", .str "x")]),
    input (record .item "i" "4" none
      [("id", .str "i"), ("projectID", .str "p"), ("projectSectorID", .str "ps")])]

end Sample

end VitrialSync
