import VitrialSync.Program.Log
import VitrialSync.Server.Visibility

set_option relaxedAutoImplicit false
set_option autoImplicit false

/-!
# Pull

The pull half of `app/sync_service.py`: the changes of the organization after a cursor are scanned
in order, and those that are visible are sent as records until one does not fit the page. The
cursor advances past every change that was consumed.

## Main definitions

* `VitrialSync.startSequence` — the sequence a cursor names.
* `VitrialSync.modelDumpJson` — `SyncBatch.model_dump_json()`.
* `VitrialSync.pullPageAccepts` — `pull_page_accepts`.
* `VitrialSync.pullLoop`, `VitrialSync.pullSince` — `pull_since`.

## Main results

* `VitrialSync.startSequence_cursorText` — a cursor that the service wrote is read back.
-/

namespace VitrialSync

open Python Program

/-! ### Cursors -/

/-- `MAX_SYNC_PULL_SCAN_CHANGES`. -/
def maxSyncPullScanChanges : ℕ := 500

/-- `MAX_SYNC_PULL_RESPONSE_BYTES`. -/
def maxSyncPullResponseBytes : ℕ := 2250000

/-- `MAX_CURSOR_SEQUENCE`. -/
def maxCursorSequence : ℕ := 2 ^ 63 - 1

/-- `MAX_CURSOR_DIGITS`. -/
def maxCursorDigits : ℕ := 19

/-- `InvalidMutation("invalid cursor")`. -/
def invalidCursor : Exc := .invalidMutation (Str.ofString "invalid cursor")

/-- The start of a pull: 0 without a cursor, else the number that the cursor names. -/
def startSequence : Option Str → Except Exc ℕ
  | none => .ok 0
  | some cursor =>
    if cursor.isEmpty then .ok 0
    else if !cursorPrefix.isPrefixOf cursor || !Str.isDigit (cursor.drop 4) then
      .error invalidCursor
    else if maxCursorDigits < (cursor.drop 4).length then .error invalidCursor
    else
      match Str.digitsValue? (cursor.drop 4) with
      -- `isdigit` accepts digits that `int` does not
      | none =>
        .error (.valueError (Str.ofString "invalid literal for int() with base 10: '" ++
          cursor.drop 4 ++ Str.ofString "'"))
      | some n => if maxCursorSequence < n then .error invalidCursor else .ok n

/-- A cursor that the service wrote is read back. -/
lemma startSequence_cursorText {n : ℕ} (h : n ≤ maxCursorSequence) :
    startSequence (some (cursorText n)) = .ok n := by
  have hdrop : (cursorText n).drop 4 = Str.ofNat n := rfl
  have hleading : cursorPrefix.isPrefixOf (cursorText n) = true := by
    rw [List.isPrefixOf_iff_prefix]
    exact List.prefix_append _ _
  have hlength : (Str.ofNat n).length ≤ maxCursorDigits := by
    refine Str.length_ofNat_le (by decide) (lt_of_le_of_lt h ?_)
    decide
  have hempty : (cursorText n).isEmpty = false := rfl
  simp only [startSequence, hempty, hleading, hdrop, Str.isDigit_ofNat, Str.digitsValue?_ofNat]
  simp [not_lt.mpr hlength, not_lt.mpr h]

/-- The start of a pull is a position the change log can have. -/
lemma startSequence_le {cursor : Option Str} {start : ℕ} (h : startSequence cursor = .ok start) :
    start ≤ maxCursorSequence := by
  unfold startSequence at h
  split at h
  · cases h
    exact Nat.zero_le _
  · split_ifs at h
    · cases h
      exact Nat.zero_le _
    · split at h
      · cases h
      · split_ifs at h with hle
        cases h
        exact not_lt.mp hle

/-! ### Validation of the response -/

/-- `Field(min_length=1, max_length=256)`. -/
def identifier? (s : Str) : Except Exc Identifier :=
  if h : 1 ≤ s.length ∧ s.length ≤ maxSyncIdentifierLength ∧ Encodable s then
    .ok ⟨s, h.1, h.2.1, h.2.2⟩
  else .error (.valueError (Str.ofString "String should have at most 256 characters"))

/-- `Field(max_length=256)`. -/
def shortText? (s : Str) : Except Exc ShortText :=
  if h : s.length ≤ maxSyncIdentifierLength ∧ Encodable s then .ok ⟨s, h.1, h.2⟩
  else .error (.valueError (Str.ofString "String should have at most 256 characters"))

/-- `SyncBatch(deviceID="server", cursor=f"seq:{sequence}", records=records)`. -/
def serverBatch (sequence : ℕ) (records : List SyncRecord) : Except Exc SyncBatch := do
  let deviceID ← identifier? (Str.ofString "server")
  let cursor ← shortText? (cursorText sequence)
  if hcount : records.length ≤ maxSyncRecords then
    if hbytes : payloadBytes records ≤ maxSyncV1BatchPayloadBytes then
      return ⟨deviceID, some cursor, records, hcount, hbytes⟩
    else
      throw (.valueError (Str.ofString "aggregate sync payload exceeds 2100000 bytes"))
  else throw (.valueError (Str.ofString "List should have at most 200 items"))

/-- The fields of a valid response. -/
lemma serverBatch_spec {sequence : ℕ} {records : List SyncRecord} {batch : SyncBatch}
    (h : serverBatch sequence records = .ok batch) :
    batch.deviceID.text = Str.ofString "server" ∧
      batch.cursor.map ShortText.text = some (cursorText sequence) ∧ batch.records = records := by
  unfold serverBatch at h
  obtain ⟨device, hdevice, h⟩ := bind_eq_ok.mp h
  obtain ⟨cursor, hcursor, h⟩ := bind_eq_ok.mp h
  split_ifs at h
  rw [pure_eq_ok] at h
  subst h
  refine ⟨?_, ?_, rfl⟩
  · unfold identifier? at hdevice
    split_ifs at hdevice
    cases hdevice
    rfl
  · unfold shortText? at hcursor
    split_ifs at hcursor
    cases hcursor
    rfl

/-- The JSON payload of an entity, as `json.dumps` writes it. -/
def entityJson (entity : SyncEntity) : Str :=
  Json.dumps true (.dict (entity.payloadJson.elim [] Payload.items))

/-- The record of a change: the entity as it is now, under the sequence of the change. -/
def pullRecord (change : SyncChangeLog) (entity : SyncEntity) : Except Exc SyncRecord := do
  let encodedPayload := b64encode (asciiBytes (entityJson entity))
  let id ← identifier? (Str.ofString "server:" ++ Str.ofNat change.sequence)
  if h : encodedPayload.length ≤ maxSyncV1WirePayloadBytes then
    return {
      id
      entityType := change.entityType
      entityID := change.entityId
      updatedAt := entity.updatedAt
      payload := encodedPayload
      baseServerRevision := none
      serverRevision := some entity.serverRevision
      clientMutationID := change.clientMutationId
      deletedAt := entity.deletedAt
      payload_le := h }
  else throw (.valueError (Str.ofString "Data should have at most 2100000 bytes"))

/-! ### The serialized response -/

/-- A member of a serialized object. -/
def jsonField (name : String) (value : Str) : Str :=
  Json.writeString false (Str.ofString name) ++ Json.ch ':' :: value

/-- A serialized object. -/
def jsonObject (fields : List Str) : Str :=
  Json.ch '{' :: (Json.joinComma fields ++ [Json.ch '}'])

/-- A serialized optional value. -/
def jsonOption {α : Type} (f : α → Str) : Option α → Str
  | none => Str.ofString "null"
  | some a => f a

/-- The JSON of a record in the response; the payload is written as the text of its bytes. -/
def SyncRecord.toJson (r : SyncRecord) : Str :=
  jsonObject
    [jsonField "id" (Json.writeString false r.id.text),
      jsonField "entityType" (Json.writeString false (Str.ofString r.entityType.name)),
      jsonField "entityID" (Json.writeString false r.entityID.text),
      jsonField "updatedAt" (Json.writeString false r.updatedAt.jsonText),
      jsonField "payload" (Json.writeString false (r.payload.map Byte.toCodePoint)),
      jsonField "baseServerRevision" (jsonOption Str.ofNat r.baseServerRevision),
      jsonField "serverRevision" (jsonOption Str.ofNat r.serverRevision),
      jsonField "clientMutationID"
        (jsonOption (fun t => Json.writeString false t.text) r.clientMutationID),
      jsonField "deletedAt"
        (jsonOption (fun t => Json.writeString false t.jsonText) r.deletedAt)]

/-- `model_dump_json`. -/
def modelDumpJson (batch : SyncBatch) : Str :=
  jsonObject
    [jsonField "deviceID" (Json.writeString false batch.deviceID.text),
      jsonField "cursor" (jsonOption (fun t => Json.writeString false t.text) batch.cursor),
      jsonField "records"
        (Json.ch '[' :: (Json.joinComma (batch.records.map SyncRecord.toJson) ++ [Json.ch ']']))]

/-- `pull_page_accepts`. -/
def pullPageAccepts (records : List SyncRecord) (record : SyncRecord) (sequence : ℕ) :
    Except Exc Bool :=
  if maxSyncRecords ≤ records.length then .ok false
  else if maxSyncV1BatchPayloadBytes < payloadBytes records + record.payload.length then .ok false
  else do
    let candidate ← serverBatch sequence (records ++ [record])
    return utf8Length (modelDumpJson candidate) ≤ maxSyncPullResponseBytes

/-! ### The loop -/

/-- The change log of an organization. -/
def organizationLog (db : Db) (organizationId : Str) : List SyncChangeLog :=
  db.changeLog.filter fun c => c.organizationId == organizationId

/-- The changes of the principal's organization after a cursor, in order. -/
def pendingChanges (db : Db) (principal : Principal) (start : ℕ) : List SyncChangeLog :=
  pending SyncChangeLog.sequence (organizationLog db principal.organizationId) start

/-- The changes that a pull scans. -/
def scannedChanges (db : Db) (principal : Principal) (start : ℕ) : List SyncChangeLog :=
  (pendingChanges db principal start).take maxSyncPullScanChanges

/-- Whether the loop takes a change for visible. -/
def pageVisible (page : PageContext) (change : SyncChangeLog) : Bool :=
  if change.entityType = .deliveryExecution then resolveDeliveryVisible page change.entityId.text
  else resolveVisible page change.entityType change.entityId.text

/-- The entity that a change delivers, if it is visible and there is one. -/
def pageEntity (page : PageContext) (change : SyncChangeLog) : Option SyncEntity :=
  if pageVisible page change then
    page.entities.get (page.organizationId, change.entityType, change.entityId.text)
  else none

/-- The loop of `pull_since`: the records of the page and the last consumed sequence. -/
def pullLoop (page : PageContext) :
    List SyncChangeLog → List SyncRecord → ℕ → Except Exc (List SyncRecord × ℕ)
  | [], records, maxSeq => .ok (records, maxSeq)
  | change :: changes, records, maxSeq =>
    match pageEntity page change with
    | none => pullLoop page changes records (max maxSeq change.sequence)
    | some entity => do
      let record ← pullRecord change entity
      let fits ← pullPageAccepts records record change.sequence
      if fits then pullLoop page changes (records ++ [record]) (max maxSeq change.sequence)
      else return (records, maxSeq)

/-- `pull_since`. -/
def pullSince (db : Db) (principal : Principal) (cursor : Option Str) : Except Exc SyncBatch :=
  if !principal.holds .sync then
    .error (.permissionError (Str.ofString "sync capability required"))
  else do
    let start ← startSequence cursor
    let changes := scannedChanges db principal start
    let (records, maxSeq) ← pullLoop (loadPageContext db principal changes) changes [] start
    serverBatch maxSeq records

end VitrialSync
