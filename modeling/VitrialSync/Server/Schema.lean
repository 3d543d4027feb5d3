import VitrialSync.Program.Raise
import VitrialSync.Python.Decimal
import VitrialSync.Python.Codec
import VitrialSync.Python.Calendar

set_option relaxedAutoImplicit false
set_option autoImplicit false

/-!
# Wire schema, principals and exceptions

The request models of the sync protocol (`app/schemas.py`), the authenticated principal and its
working scope (`app/auth.py`, `EffectiveScope` of `app/ownership.py`) and the exceptions that the
push and the pull raise. The request models carry the bounds that validation enforces, so that a
value of the type is a request that passed it.

## Main definitions

* `VitrialSync.EntityType`, `VitrialSync.Capability` — the closed vocabularies of the wire.
* `VitrialSync.SyncRecord`, `VitrialSync.SyncBatch` — validated records and batches.
* `VitrialSync.Principal`, `VitrialSync.EffectiveScope` — who pushes, and what it may reach.
* `VitrialSync.Exc`, `VitrialSync.Exc.caught` — exceptions, and those a push turns into a rejected
  record.
* `VitrialSync.hashedName` — membership of a payload value in a set of names.
* `VitrialSync.normalized` — `_normalized`.
-/

namespace VitrialSync

open Python Program

/-! ### Vocabularies -/

/-- `EntityType`. -/
inductive EntityType where
  | customer
  | project
  | projectSector
  | item
  | itemAuditEvent
  | measurement
  | evidence
  | customerRequirement
  | configuration
  | configurationVersion
  | blocker
  | quotation
  | deliveryExecution
  deriving DecidableEq

/-- The equality test of entities decides equality. -/
instance (priority := 2000) EntityType.lawfulBEq_key : LawfulBEq (Str × EntityType × Str) :=
  inferInstance

/-- The wire name of an entity type. -/
def EntityType.name : EntityType → String
  | customer => "customer"
  | project => "project"
  | projectSector => "project_sector"
  | item => "item"
  | itemAuditEvent => "item_audit_event"
  | measurement => "measurement"
  | evidence => "evidence"
  | customerRequirement => "customer_requirement"
  | configuration => "configuration"
  | configurationVersion => "configuration_version"
  | blocker => "blocker"
  | quotation => "quotation"
  | deliveryExecution => "delivery_execution"

/-- `Capability`. -/
inductive Capability where
  | customerCreate
  | customerEdit
  | projectCreate
  | projectEdit
  | itemCreate
  | itemEdit
  | itemReadinessChange
  | itemReadinessOverride
  | itemBlockersManage
  | itemMeasurementsManage
  | itemEvidenceManage
  | itemRequirementsManage
  | itemConfigurationManage
  | itemConfigurationFinalize
  | itemConfigurationReopen
  | quotationCreate
  | quotationSend
  | quotationApprove
  | deliveryManage
  | catalogManage
  | pricingManage
  | organizationMembersManage
  | organizationRolesManage
  | sync
  deriving DecidableEq

/-- The wire name of a capability. -/
def Capability.name : Capability → String
  | customerCreate => "customer.create"
  | customerEdit => "customer.edit"
  | projectCreate => "project.create"
  | projectEdit => "project.edit"
  | itemCreate => "item.create"
  | itemEdit => "item.edit"
  | itemReadinessChange => "item.readiness.change"
  | itemReadinessOverride => "item.readiness.override"
  | itemBlockersManage => "item.blockers.manage"
  | itemMeasurementsManage => "item.measurements.manage"
  | itemEvidenceManage => "item.evidence.manage"
  | itemRequirementsManage => "item.requirements.manage"
  | itemConfigurationManage => "item.configuration.manage"
  | itemConfigurationFinalize => "item.configuration.finalize"
  | itemConfigurationReopen => "item.configuration.reopen"
  | quotationCreate => "quotation.create"
  | quotationSend => "quotation.send"
  | quotationApprove => "quotation.approve"
  | deliveryManage => "delivery.manage"
  | catalogManage => "catalog.manage"
  | pricingManage => "pricing.manage"
  | organizationMembersManage => "organization.members.manage"
  | organizationRolesManage => "organization.roles.manage"
  | sync => "sync"

/-! ### Request models -/

/-- `MAX_SYNC_RECORDS`. -/
def maxSyncRecords : ℕ := 200

/-- `MAX_SYNC_V1_BATCH_PAYLOAD_BYTES`. -/
def maxSyncV1BatchPayloadBytes : ℕ := 2100000

/-- `MAX_SYNC_IDENTIFIER_LENGTH`. -/
def maxSyncIdentifierLength : ℕ := 256

/-- `MAX_SYNC_V1_WIRE_PAYLOAD_BYTES`. -/
def maxSyncV1WirePayloadBytes : ℕ := 2100000

/-- Text that a validated `str` field may hold: it has a UTF-8 form. -/
def Encodable (s : Str) : Prop := s.any CodePoint.isSurrogate = false

instance (s : Str) : Decidable (Encodable s) := by unfold Encodable; infer_instance

/-- A validated identifier: between 1 and 256 characters. -/
structure Identifier where
  text : Str
  nonempty : 1 ≤ text.length
  bounded : text.length ≤ maxSyncIdentifierLength
  encodable : Encodable text
  deriving DecidableEq

/-- A validated optional text: at most 256 characters. -/
structure ShortText where
  text : Str
  bounded : text.length ≤ maxSyncIdentifierLength
  encodable : Encodable text
  deriving DecidableEq

/-- `SyncRecord`. -/
structure SyncRecord where
  id : Identifier
  entityType : EntityType
  entityID : Identifier
  updatedAt : DateTime
  payload : Bytes
  baseServerRevision : Option ℕ
  serverRevision : Option ℕ
  clientMutationID : Option ShortText
  deletedAt : Option DateTime
  payload_le : payload.length ≤ maxSyncV1WirePayloadBytes

/-- The payload bytes of a list of records. -/
def payloadBytes (records : List SyncRecord) : ℕ := (records.map fun r => r.payload.length).sum

/-- `SyncBatch`, with `aggregate_payload_must_be_bounded`. -/
structure SyncBatch where
  deviceID : Identifier
  cursor : Option ShortText
  records : List SyncRecord
  records_le : records.length ≤ maxSyncRecords
  payload_le : payloadBytes records ≤ maxSyncV1BatchPayloadBytes

/-- `SyncResult`. -/
structure SyncResult where
  acceptedRecordIDs : List Identifier
  rejectedRecordIDs : List Identifier
  nextCursor : Str

/-- The prefix of a cursor. -/
def cursorPrefix : Str := Str.ofString "seq:"

/-- `f"seq:{n}"`. -/
def cursorText (n : ℕ) : Str := cursorPrefix ++ Str.ofNat n

/-- A payload: the object that `decode_payload` returns. A `dict` has no repeated keys. -/
structure Payload where
  items : Dict
  wellFormed : Value.WellFormed (.dict items)

/-! ### Principals -/

/-- `Principal`. -/
structure Principal where
  userId : Str
  organizationId : Str
  membershipId : Str
  sessionId : Str
  authorizationRevision : ℤ
  capabilities : List Capability
  customerIds : List Str
  projectIds : List Str
  allCustomers : Bool
  allProjects : Bool

/-- `capability in principal.capabilities`. -/
def Principal.holds (p : Principal) (c : Capability) : Bool := p.capabilities.contains c

/-- `EffectiveScope`: the scope of a batch, which grows with the records it creates. -/
structure EffectiveScope where
  allCustomers : Bool
  allProjects : Bool
  customerIds : List Str
  projectIds : List Str

namespace EffectiveScope

/-- `EffectiveScope.from_principal`. -/
def fromPrincipal (p : Principal) : EffectiveScope :=
  ⟨p.allCustomers, p.allProjects, p.customerIds, p.projectIds⟩

/-- `can_access_customer`. -/
def canAccessCustomer (s : EffectiveScope) (customerId : Str) : Bool :=
  s.allCustomers || s.customerIds.contains customerId

/-- `can_access_project`. -/
def canAccessProject (s : EffectiveScope) (projectId customerId : Str) : Bool :=
  s.canAccessCustomer customerId && (s.allProjects || s.projectIds.contains projectId)

/-- `scope.customer_ids.add(customer_id)`. -/
def addCustomer (s : EffectiveScope) (customerId : Str) : EffectiveScope :=
  { s with customerIds := s.customerIds.insert customerId }

/-- `scope.project_ids.add(project_id)`. -/
def addProject (s : EffectiveScope) (projectId : Str) : EffectiveScope :=
  { s with projectIds := s.projectIds.insert projectId }

end EffectiveScope

/-! ### Exceptions -/

/-- The exceptions of the push and the pull, with their messages. -/
inductive Exc where
  | invalidMutation (message : Str)
  | authorizationRejected (message : Str)
  | lifecycleRejected (message : Str)
  | deliveryExecutionRejected (message : Str)
  | deliveryProductionRejected (message : Str)
  | deliveryInstallationRejected (message : Str)
  | permissionError (message : Str)
  /-- `ValueError`, of which pydantic's `ValidationError` is a subclass. -/
  | valueError (message : Str)
  /-- `TypeError: unhashable type`. -/
  | typeError
  /-- A trapped signal of the `decimal` module. -/
  | decimalSignal (signal : Decimal.Signal)
  deriving DecidableEq

/-- The four classes that a push catches: the record is rejected and the batch goes on. -/
def Exc.caught : Exc → Bool
  | invalidMutation _ => true
  | authorizationRejected _ => true
  | lifecycleRejected _ => true
  | deliveryExecutionRejected _ => true
  | _ => false

/-! ### Names in payloads -/

/-- The entry of a vocabulary that a value spells: `v == name`, tried in order. This is `in` on a
tuple of strings. -/
def findName {α : Type} (vocabulary : List (String × α)) (v : Value) : Option α :=
  (vocabulary.find? fun e => v.isStr e.1).map Prod.snd

/-- The same for `in` on a set and for `dict.get`: the value is hashed first, and a list or a
dictionary has no hash. -/
def hashedName {α : Type} (vocabulary : List (String × α)) (v : Value) : Except Exc (Option α) :=
  if v.hashable then .ok (findName vocabulary v) else .error .typeError

/-- A value that is found spells one of the entries. -/
lemma findName_eq_some {α : Type} {vocabulary : List (String × α)} {v : Value} {a : α}
    (h : findName vocabulary v = some a) : ∃ name, (name, a) ∈ vocabulary ∧ v = .str name := by
  obtain ⟨entry, hentry, rfl⟩ := Option.map_eq_some_iff.mp h
  refine ⟨entry.1, List.mem_of_find?_eq_some hentry, ?_⟩
  have hspelled := List.find?_some hentry
  rwa [Value.isStr_iff] at hspelled

/-- A hashed lookup that returns is a lookup. -/
lemma hashedName_eq_ok {α : Type} {vocabulary : List (String × α)} {v : Value} {a? : Option α}
    (h : hashedName vocabulary v = .ok a?) : findName vocabulary v = a? := by
  rw [hashedName] at h
  split_ifs at h
  exact Except.ok.inj h

/-- `_normalized`: the stripped text of a string that is not blank. The modules of the service
each have a copy of it. -/
def normalized (v : Value) : Option Str :=
  match v with
  | .str s => if s.strip.isEmpty then none else some s.strip
  | _ => none

/-- A name that is normalized is stripped and not empty. -/
lemma normalized_eq_some {v : Value} {s : Str} :
    normalized v = some s ↔ ∃ t, v = .str t ∧ t.strip = s ∧ s ≠ [] := by
  cases v with
  | str t =>
    simp only [normalized, Value.str.injEq, exists_eq_left']
    by_cases h : t.strip.isEmpty
    · simp only [h, ↓reduceIte, reduceCtorEq, false_iff, not_and, not_not]
      rintro rfl
      simpa using h
    · simp only [h, Bool.false_eq_true, ↓reduceIte, Option.some.injEq]
      constructor
      · rintro rfl
        exact ⟨rfl, by simpa using h⟩
      · exact fun h => h.1
  | _ => simp [normalized]

/-- Equal fields have equal names. -/
lemma normalized_of_same {v w : Value} {s : Str} (h : Value.same v w = true)
    (hv : normalized v = some s) : normalized w = some s := by
  obtain ⟨t, rfl, ht⟩ := normalized_eq_some.mp hv
  exact normalized_eq_some.mpr ⟨t, Value.eq_str_of_same h rfl, ht⟩

end VitrialSync
