import VitrialSync.Beam.Json
import VitrialSync.Beam.Persistence

set_option relaxedAutoImplicit false
set_option autoImplicit false

/-!
# The reply to a push

`VitrialWeb.Handlers.sync_push/2`: authentication, the records of the body, `PushService.push/4`,
and the body that is rendered from what it returned. The handler hands over what it has: the
principal that `VitrialAuth` makes, a struct of its own, and the records as `JSON.decode/1` leaves
them, maps with strings for keys. `push/4` and what it calls read the fields of
`VitrialSync.Record`, and match on `VitrialSync.Canonical.Principal`.

`push/4` returns the whole `%Batch.Run{}` of `Batch.finish/2`, whose `result` field holds the
`%Batch.Result{}`; the handler reads the fields of the result from the run itself, which has none of
them.

What `VitrialSync.Auth.authenticate/3` comes to is taken as given, as is the term that the standard
library decodes the body to. A binary that the handler concatenates is text here, and its bytes are
the UTF-8 of the text.

## Main definitions

* `VitrialSync.Beam.Handlers.Arguments.run` — `push/4` on the terms that it is handed.
* `VitrialSync.Beam.Handlers.encodePushResult` — `encode_push_result/1`.
* `VitrialSync.Beam.Handlers.syncPush` — `sync_push/2`, with the rescue around it.
* `VitrialSync.Beam.Handlers.Request.Carries` — a request with a given push for its contents.
* `VitrialSync.Beam.Handlers.Faithful` — the reply and the events say what the batch came to.

## Main results

* `VitrialSync.Beam.Handlers.Arguments.run_structs` — on structs of its own types, `push/4` is the
  push of `VitrialSync.Beam.Push.run`.
* `VitrialSync.Beam.Handlers.syncPush_authenticated` — every request with a principal and records is
  answered with 500, and writes nothing.
* `VitrialSync.Beam.Handlers.not_faithful` — no reply to a batch that `push/4` commits is faithful.
-/

namespace VitrialSync.Beam.Handlers

open Python Program

/-! ### The arguments of a push -/

/-- A principal as a term. The two structs have the same fields. -/
inductive PrincipalTerm where
  /-- `%VitrialSync.Canonical.Principal{}`. -/
  | canonical (fields : Principal)
  /-- `%VitrialAuth.Principal{}`. -/
  | auth (fields : Principal)

/-- `principal.organization_id`. -/
def PrincipalTerm.organizationId : PrincipalTerm → Str
  | canonical fields => fields.organizationId
  | auth fields => fields.organizationId

/-- The clause of `Canonical.capable?/2`, which takes the struct of the engine. -/
def PrincipalTerm.matched : PrincipalTerm → Except Raised Principal
  | canonical fields => .ok fields
  | auth _ => .error .functionClauseError

/-- A record as a term. -/
inductive RecordTerm where
  /-- `%VitrialSync.Record{}`. -/
  | struct (record : Record)
  /-- What `JSON.decode/1` made of the record. -/
  | decoded (term : Value)

/-- `& &1.client_mutation_id`, which a struct has. The keys of a decoded map are strings; `nil`,
`true` and `false` are taken for modules. -/
def RecordTerm.read : RecordTerm → Except Raised Record
  | struct record => .ok record
  | decoded (.dict _) => .error .keyError
  | decoded .none => .error .undefinedFunctionError
  | decoded (.bool _) => .error .undefinedFunctionError
  | decoded _ => .error .argumentError

/-- The arguments of `push/4` as they are handed over, and the clock that it reads. -/
structure Arguments where
  principal : PrincipalTerm
  deviceId : Option Str
  records : List RecordTerm
  now : ℤ

namespace Arguments

variable (a : Arguments)

/-- `decide/5`: `load_priors/3` reads the mutation ids of all records before its first query, and
`capability_guard/1` is the first to match on the principal. With the decision comes the push that
the terms were read as. -/
def decide (d : Database) : Except Raised (Push × Except Batch.Denial Batch.Run) := do
  let records ← a.records.mapM RecordTerm.read
  let store ← (load d records a.principal.organizationId).store a.principal.organizationId
  let principal ← a.principal.matched
  return (⟨principal, a.deviceId, records, a.now⟩, ← Batch.run records a.deviceId principal store)

/-- `push/4`. -/
def run (faults : Faults) (d : Database) : Answer × Database :=
  if faults.loading then (.failed, d)
  else
    match a.decide d with
    | .error exception => (.raised exception, d)
    | .ok (_, .error denial) => (.denied denial, d)
    | .ok (p, .ok run) => p.write faults run d

end Arguments

/-- The arguments of a push, in the types of the specification of `push/4`. -/
def pushArguments (p : Push) : Arguments :=
  ⟨.canonical p.principal, p.deviceId, p.records.map .struct, p.now⟩

/-- Structs are read. -/
lemma mapM_read_struct (records : List Record) :
    (records.map RecordTerm.struct).mapM RecordTerm.read = .ok records := by
  induction records with
  | nil => rfl
  | cons record records ih =>
    rw [List.map_cons, List.mapM_cons, ih]
    rfl

/-- On structs of its own types, `push/4` is the push. -/
theorem Arguments.run_structs (p : Push) (faults : Faults) (d : Database) :
    (pushArguments p).run faults d = p.run faults d := by
  have hdecide : (pushArguments p).decide d =
      (p.decide (p.load d)).map fun decision => (p, decision) := by
    simp only [decide, pushArguments, mapM_read_struct, ok_bind, Push.decide, Push.load,
      PrincipalTerm.organizationId, PrincipalTerm.matched]
    cases (load d p.records p.principal.organizationId).store p.principal.organizationId with
    | error exception => rfl
    | ok store =>
      simp only [ok_bind]
      cases Batch.run p.records p.deviceId p.principal store <;> rfl
  simp only [run, Push.run, hdecide]
  rcases p.decide (p.load d) with exception | denial | run <;> rfl

/-- A principal of `VitrialAuth` is taken by no clause. -/
lemma Arguments.decide_auth (fields : Principal) (deviceId : Option Str)
    (records : List RecordTerm) (now : ℤ) (d : Database) :
    ∃ exception, (Arguments.mk (.auth fields) deviceId records now).decide d =
      .error exception := by
  unfold decide
  cases records.mapM RecordTerm.read with
  | error exception => exact ⟨exception, rfl⟩
  | ok read =>
    simp only [ok_bind, PrincipalTerm.organizationId, PrincipalTerm.matched]
    cases (load d read fields.organizationId).store fields.organizationId with
    | error exception => exact ⟨exception, rfl⟩
    | ok store => exact ⟨.functionClauseError, rfl⟩

/-! ### Rendering -/

/-- A struct that the handler may be handed. -/
inductive Struct where
  | run (run : Batch.Run)
  | result (result : Batch.Result)

/-- `result.accepted_record_ids`: a `%Batch.Run{}` has no such field. -/
def Struct.acceptedRecordIds : Struct → Except Raised (List Str)
  | run _ => .error .keyError
  | result r => .ok r.acceptedRecordIds

/-- `result.rejected_record_ids`. -/
def Struct.rejectedRecordIds : Struct → Except Raised (List Str)
  | run _ => .error .keyError
  | result r => .ok r.rejectedRecordIds

/-- `result.next_cursor`. -/
def Struct.nextCursor : Struct → Except Raised Value
  | run _ => .error .keyError
  | result r => .ok (.str r.nextCursor)

/-- The quotation mark. -/
def quote : CodePoint := CodePoint.ofChar '"'

/-- The backslash. -/
def backslash : CodePoint := CodePoint.ofChar '\\'

/-- `escape/1`: the backslashes are doubled first, then the quotation marks are escaped. Control
characters stay as they are. -/
def escape (value : Str) : Str :=
  let slashed := value.flatMap fun c => if c = backslash then [backslash, backslash] else [c]
  let quoted := slashed.flatMap fun c => if c = quote then [backslash, quote] else [c]
  [quote] ++ quoted ++ [quote]

/-- `encode_ids/1`, of a list. -/
def encodeIds (ids : List Str) : Str :=
  Str.ofString "[" ++ (Str.ofString ",").intercalate (ids.map escape) ++ Str.ofString "]"

/-- `encode_integer/1`: what is no integer is written as zero. -/
def encodeInteger : Value → Str
  | .int n => Str.ofInt n
  | _ => Str.ofString "0"

/-- `encode_push_result/1`. -/
def encodePushResult (result : Struct) : Except Raised Str := do
  return Str.ofString "\x7b\"acceptedRecordIDs\":" ++ encodeIds (← result.acceptedRecordIds) ++
    Str.ofString ",\"rejectedRecordIDs\":" ++ encodeIds (← result.rejectedRecordIds) ++
    Str.ofString ",\"nextCursor\":" ++ encodeInteger (← result.nextCursor) ++
    Str.ofString "\x7d"

/-! ### Replies -/

/-- The reasons of `{:error, reason}` that `sync_push/2` meets. -/
inductive Reason where
  | authenticationRequired
  | sessionExpiredOrRevoked
  | membershipInactive
  | sessionMembershipMismatch
  | invalidBatch
  /-- `{:load, _reason}`. -/
  | load
  | capabilityMissing
  | organizationUnavailable
  /-- Another atom. -/
  | atom (name : Str)
  /-- Any other term, as `inspect/1` writes it. -/
  | other (inspected : Str)

/-- `PushService.refusal_status/1`. -/
def refusalStatus : Reason → ℕ
  | .load => 500
  | .authenticationRequired => 401
  | .sessionExpiredOrRevoked => 401
  | .membershipInactive => 401
  | .sessionMembershipMismatch => 401
  | .capabilityMissing => 403
  | .organizationUnavailable => 403
  | _ => 400

/-- A text in quotation marks, as it is. -/
def quoted (text : Str) : Str := [quote] ++ text ++ [quote]

/-- `detail/1`. -/
def detail : Reason → Str
  | .authenticationRequired => quoted (Str.ofString "authentication required")
  | .invalidBatch => quoted (Str.ofString "invalid batch")
  | .load => quoted (Str.ofString "database unavailable")
  | .sessionExpiredOrRevoked => quoted (Str.ofString "session_expired_or_revoked")
  | .membershipInactive => quoted (Str.ofString "membership_inactive")
  | .sessionMembershipMismatch => quoted (Str.ofString "session_membership_mismatch")
  | .capabilityMissing => quoted (Str.ofString "capability_missing")
  | .organizationUnavailable => quoted (Str.ofString "organization_unavailable")
  | .atom name => quoted name
  | .other inspected => inspected

/-- `Handlers.reply`. -/
structure Reply where
  status : ℕ
  contentType : String
  body : Str
  deriving DecidableEq

/-- `json/3`. -/
def json (status : ℕ) (body : Str) : Reply := ⟨status, "application/json", body⟩

/-- `internal_server_error/0`: what the rescue of the handler answers. -/
def internalServerError : Reply :=
  ⟨500, "text/plain; charset=utf-8", Str.ofString "Internal Server Error"⟩

/-- The reply to a reason. -/
def refusal (reason : Reason) : Reply :=
  json (refusalStatus reason)
    (Str.ofString "\x7b\"detail\":" ++ detail reason ++ Str.ofString "\x7d")

/-- The reason of a denied batch. -/
def denialReason : Batch.Denial → Reason
  | .capabilityMissing => .capabilityMissing
  | .organizationUnavailable => .organizationUnavailable

/-- What `VitrialSync.Auth.authenticate/3` comes to. -/
inductive Authentication where
  /-- `{:ok, principal, event}`, with the struct of `VitrialAuth`. -/
  | ok (fields : Principal)
  /-- `{:error, reason}`. -/
  | error (reason : Reason)
  /-- `{:load, reason}`, which the `else` of the handler has no clause for. -/
  | load

/-- A request for a push. -/
structure Request where
  authentication : Authentication
  /-- What `JSON.decode/1` makes of the body; nothing when it refuses it. -/
  body : Option Value
  /-- The header `x-device-id`. -/
  deviceId : Option Str
  now : ℤ

/-- `batch_records/1`. -/
def batchRecords : Option Value → Except Reason (List Value)
  | some (.dict items) =>
    match items.lookup (Str.ofString "records") with
    | some (.list records) => .ok records
    | _ => .error .invalidBatch
  | _ => .error .invalidBatch

/-- The arguments that the handler hands to `push/4`. It authenticates before it reads the body. -/
def Request.arguments (r : Request) : Except Raised (Except Reason Arguments) :=
  match r.authentication with
  | .load => .error .withClauseError
  | .error reason => .ok (.error reason)
  | .ok fields =>
    .ok ((batchRecords r.body).map fun records =>
      ⟨.auth fields, some (r.deviceId.getD []), records.map .decoded, r.now⟩)

/-- What `push/4` returned, or raised. The model of a push has one answer for all errors of the
connections; `failure` is the reason that it came with. -/
def returned (failure : Reason) : Answer → Except Raised (Except Reason Struct)
  | .pushed run => .ok (.ok (.run run))
  | .denied denial => .ok (.error (denialReason denial))
  | .failed => .ok (.error failure)
  | .raised exception => .error exception

/-- The body of `sync_push/2` after the push. -/
def reply : Except Reason Struct → Except Raised Reply
  | .ok result => return json 200 (← encodePushResult result)
  | .error reason => .ok (refusal reason)

/-- `sync_push/2`, with the rescue of `VitrialWeb.Handler` around it. -/
def syncPush (r : Request) (faults : Faults) (failure : Reason) (d : Database) :
    Reply × Database :=
  match r.arguments with
  | .error _ => (internalServerError, d)
  | .ok (.error reason) => (refusal reason, d)
  | .ok (.ok a) =>
    let outcome := a.run faults d
    match returned failure outcome.1 >>= reply with
    | .ok reply => (reply, outcome.2)
    | .error _ => (internalServerError, outcome.2)

/-- The events that `push/4` hands on. -/
def handedOn (run : Batch.Run) : List MutationEvent := run.events.reverse

/-- A request with a principal and records is answered with the text of the rescue, and nothing is
written.

**Proof sketch.** What the handler hands over has the principal of `VitrialAuth`, which no clause
takes, so the decision raises before the second connection is had. -/
theorem syncPush_authenticated {r : Request} {fields : Principal} {records : List Value}
    {faults : Faults} (hprincipal : r.authentication = .ok fields)
    (hrecords : batchRecords r.body = .ok records) (hloading : faults.loading = false)
    (failure : Reason) (d : Database) : syncPush r faults failure d = (internalServerError, d) := by
  have harguments : r.arguments = .ok (.ok ⟨.auth fields, some (r.deviceId.getD []),
      records.map .decoded, r.now⟩) := by
    simp [Request.arguments, hprincipal, hrecords, Except.map]
  obtain ⟨exception, hdecide⟩ := Arguments.decide_auth fields (some (r.deviceId.getD []))
    (records.map .decoded) r.now d
  have hrun : (Arguments.mk (.auth fields) (some (r.deviceId.getD [])) (records.map .decoded)
      r.now).run faults d = (.raised exception, d) := by
    simp [Arguments.run, hloading, hdecide]
  have hraised : returned failure (.raised exception) >>= reply = .error exception := rfl
  simp [syncPush, harguments, hrun, hraised]

/-! ### Faithfulness -/

/-- The items of a map on the wire are those of a record. The payload is text there; the keys of an
optional field may be missing. -/
structure WireForm (record : Record) (items : Dict) : Prop where
  id : items.lookup (Str.ofString "id") = some (.str record.id)
  entityType : items.lookup (Str.ofString "entityType") = some (.str record.entityType.text)
  entityId : items.lookup (Str.ofString "entityID") = some (.str record.entityId)
  updatedAt : items.lookup (Str.ofString "updatedAt") = some (.str record.updatedAt)
  payload : ∃ text, items.lookup (Str.ofString "payload") = some (.str text) ∧
    text.flatMap utf8 = record.payload
  baseServerRevision : items.get (Str.ofString "baseServerRevision") =
    record.baseServerRevision.elim .none fun n => .int n
  clientMutationId : items.get (Str.ofString "clientMutationID") =
    record.clientMutationId.elim .none .str
  deletedAt : items.get (Str.ofString "deletedAt") = record.deletedAt.elim .none .str

/-- The request comes from the principal of the push, and its body has the records of the push. -/
structure Request.Carries (r : Request) (p : Push) : Prop where
  principal : r.authentication = .ok p.principal
  deviceId : p.deviceId = some (r.deviceId.getD [])
  records : ∃ terms : List Dict, batchRecords r.body = .ok (terms.map .dict) ∧
    List.Forall₂ WireForm p.records terms
  now : r.now = p.now

/-- The reply and the events say what a committed batch came to. The run has its events in the order
of processing. -/
structure Faithful (organizationId : Str) (run : Batch.Run) (reply : Reply) (d : Database) :
    Prop where
  /-- The body is an object with the ids in the client's order and the cursor. -/
  body : ∃ items : Dict, JSON.decode (reply.body.flatMap utf8) = .ok (.dict items) ∧
    items.lookup (Str.ofString "acceptedRecordIDs") =
      some (.list ((Batch.idsWhere (Batch.acceptedAt run.results) run.records).map .str)) ∧
    items.lookup (Str.ofString "rejectedRecordIDs") =
      some (.list ((Batch.idsWhere (fun i => !Batch.acceptedAt run.results i) run.records).map
        .str)) ∧
    items.lookup (Str.ofString "nextCursor") =
      some (.str (cursorText (d.maxSequence organizationId)))
  events : handedOn run = run.events

/-- The text of the rescue is no JSON. -/
lemma decode_internalServerError :
    (JSON.decode (internalServerError.body.flatMap utf8)).toOption = none := by
  decide +kernel

/-- That text says nothing about a batch. -/
lemma not_faithful_internalServerError (organizationId : Str) (run : Batch.Run) (d : Database) :
    ¬Faithful organizationId run internalServerError d := by
  intro hfaithful
  obtain ⟨items, hdecode, -⟩ := hfaithful.body
  have hnone := decode_internalServerError
  rw [hdecode] at hnone
  cases hnone

/-- A push that went through had its first connection. -/
lemma loading_of_pushed {a : Arguments} {faults : Faults} {d d' : Database} {run : Batch.Run}
    (h : a.run faults d = (.pushed run, d')) : faults.loading = false := by
  by_contra hloading
  rw [Bool.not_eq_false] at hloading
  simp [Arguments.run, hloading] at h

/-- So a request that carries a push which would be committed writes nothing. -/
lemma syncPush_carries {r : Request} {p : Push} {faults : Faults} {d d' : Database}
    {run : Batch.Run} (hcarries : r.Carries p)
    (hrun : (pushArguments p).run faults d = (.pushed run, d')) (failure : Reason) :
    syncPush r faults failure d = (internalServerError, d) := by
  obtain ⟨terms, hrecords, -⟩ := hcarries.records
  exact syncPush_authenticated hcarries.principal hrecords (loading_of_pushed hrun) failure d

/-- **No reply to a batch that `push/4` commits is faithful.** What `push/4` returns for it is not
rendered, whoever hands it over; and a request that carries the batch is answered with 500 and
nothing is written, as what the handler hands over is taken by no clause.

**Proof sketch.** The fields that the body is rendered from are read from the run, which has none
of them. The reply to the request is that of `syncPush_carries`, which is no JSON. -/
theorem not_faithful {r : Request} {p : Push} {faults : Faults} {d d' : Database}
    {run : Batch.Run} (hcarries : r.Carries p)
    (hrun : (pushArguments p).run faults d = (.pushed run, d')) (failure : Reason) :
    returned failure ((pushArguments p).run faults d).1 >>= reply = .error .keyError ∧
      syncPush r faults failure d = (internalServerError, d) ∧
      ¬Faithful p.principal.organizationId run (syncPush r faults failure d).1
        (syncPush r faults failure d).2 := by
  have hreply := syncPush_carries hcarries hrun failure
  refine ⟨?_, hreply, ?_⟩
  · rw [hrun]
    rfl
  · rw [hreply]
    exact not_faithful_internalServerError _ run d

namespace Sample

/-- A record of the samples on the wire. -/
def wire (record : Record) (payload : String) : Dict :=
  [("id", .str record.id), ("entityType", .str record.entityType.text),
    ("entityID", .str record.entityId), ("updatedAt", .str record.updatedAt),
    ("payload", .str payload),
    ("baseServerRevision", record.baseServerRevision.elim .none fun n => .int n),
    ("clientMutationID", record.clientMutationId.elim .none .str)]

/-- A request of the sample principal with one record. -/
def request (record : Record) (payload : String) : Request where
  authentication := .ok VitrialSync.Sample.principal
  body := some (.dict [("records", .list [.dict (wire record payload)])])
  deviceId := some "d"
  now := 0

/-- The payload of the sample customer. -/
def payload : String := "\x7b\"id\":\"c\"\x7d"

/-- The request carries the push of its record. -/
lemma request_carries {record : Record}
    (hpayload : (Str.ofString payload).flatMap utf8 = record.payload)
    (hdeletedAt : record.deletedAt = none) :
    (request record payload).Carries (Beam.Sample.push [record]) where
  principal := rfl
  deviceId := rfl
  records := by
    refine ⟨[wire record payload], rfl, .cons ?_ .nil⟩
    exact ⟨rfl, rfl, rfl, rfl, ⟨_, rfl, hpayload⟩, rfl, rfl, by rw [hdeletedAt]; rfl⟩
  now := rfl

end Sample

/-- A stale update of the customer: `push/4` commits it as a conflict, and the reply to the request
is not faithful. -/
theorem not_faithful_stale :
    ∃ run d', (pushArguments (Beam.Sample.push [Beam.Sample.staleCustomer])).run .none
        Beam.Sample.database = (.pushed run, d') ∧
      ¬Faithful (Str.ofString "o") run
        (syncPush (Sample.request Beam.Sample.staleCustomer Sample.payload) .none .load
          Beam.Sample.database).1
        (syncPush (Sample.request Beam.Sample.staleCustomer Sample.payload) .none .load
          Beam.Sample.database).2 := by
  have hrun : ((Beam.Sample.push [Beam.Sample.staleCustomer]).run .none
      Beam.Sample.database).1.run?.map (fun run => run.effects.mutationRows.length) = some 1 := by
    decide +kernel
  obtain ⟨run, d', hpushed, -⟩ := pushed_of_run? hrun
  rw [← Arguments.run_structs] at hpushed
  exact ⟨run, d', hpushed,
    (not_faithful (Sample.request_carries (by decide +kernel) rfl) hpushed .load).2.2⟩

/-- An update of the customer: `push/4` commits it with its change; the request that carries it is
answered with 500 and no JSON, and the customer is as before. -/
theorem not_faithful_customer :
    ∃ run d', (pushArguments (Beam.Sample.push [Beam.Sample.customer])).run .none
        Beam.Sample.database = (.pushed run, d') ∧
      run.effects.changelogRows.length = 1 ∧
      (Sample.request Beam.Sample.customer Sample.payload).Carries
        (Beam.Sample.push [Beam.Sample.customer]) ∧
      syncPush (Sample.request Beam.Sample.customer Sample.payload) .none .load
        Beam.Sample.database = (internalServerError, Beam.Sample.database) ∧
      ¬Faithful (Str.ofString "o") run
        (syncPush (Sample.request Beam.Sample.customer Sample.payload) .none .load
          Beam.Sample.database).1
        (syncPush (Sample.request Beam.Sample.customer Sample.payload) .none .load
          Beam.Sample.database).2 := by
  have hrun : ((Beam.Sample.push [Beam.Sample.customer]).run .none
      Beam.Sample.database).1.run?.map (fun run => run.effects.changelogRows.length) = some 1 := by
    decide +kernel
  obtain ⟨run, d', hpushed, hlength⟩ := pushed_of_run? hrun
  rw [← Arguments.run_structs] at hpushed
  have hcarries : (Sample.request Beam.Sample.customer Sample.payload).Carries
      (Beam.Sample.push [Beam.Sample.customer]) := Sample.request_carries (by decide +kernel) rfl
  have hreply := syncPush_carries hcarries hpushed .load
  refine ⟨run, d', hpushed, hlength, hcarries, hreply, ?_⟩
  rw [hreply]
  exact not_faithful_internalServerError _ run _

end VitrialSync.Beam.Handlers
