import VitrialSync.Beam.Batch
import VitrialSync.Program.Log

set_option relaxedAutoImplicit false
set_option autoImplicit false

/-!
# Pages

`VitrialSync.Page`: one page of a pull from the changes that were scanned, and `CanonicalJSON` of a
payload. The sizes are added up as the records are appended.

A change that is not visible or has no entity is consumed; at the first deliverable one that does not
fit the page ends. So a page delivers every deliverable change that its cursor passes.

## Main definitions

* `VitrialSync.Beam.CanonicalJSON.encode` — `CanonicalJSON.encode/1`.
* `VitrialSync.Beam.Page.Candidate` — a change with the facts that the page needs.
* `VitrialSync.Beam.Page.recordByteSize` — `record_byte_size/1`.
* `VitrialSync.Beam.Page.walk`, `VitrialSync.Beam.Page.assemble` — `walk/2` and `assemble/2`.

## Main results

* `VitrialSync.Beam.Page.assemble_undelivered` — a page without a deliverable change.
-/

namespace VitrialSync.Beam

open Python Program

/-! ### Canonical JSON -/

namespace CanonicalJSON

mutual

/-- `encode_value/2`. `float/1` writes the digits of the runtime in the form that `repr` has. -/
def encodeValue : Value → Str
  | .none => Str.ofString "null"
  | .bool b => Str.ofString (if b then "true" else "false")
  | .int n => Str.ofInt n
  | .float x => Json.writeFloat x
  | .str s => quoted s
  | .list xs =>
    Str.ofString "[" ++ ((encodeElements xs).intersperse (Str.ofString ",")).flatten ++
      Str.ofString "]"
  | .dict d =>
    let members := (Json.sortMembers (encodeMembers d)).map fun m =>
      quoted m.1 ++ Str.ofString ":" ++ m.2
    Str.ofString "\x7b" ++ (members.intersperse (Str.ofString ",")).flatten ++ Str.ofString "\x7d"

/-- The elements of a list. -/
def encodeElements : List Value → List Str
  | [] => []
  | x :: xs => encodeValue x :: encodeElements xs

/-- The values of a map under their keys. -/
def encodeMembers : List (Str × Value) → List (Str × Str)
  | [] => []
  | (k, v) :: d => (k, encodeValue v) :: encodeMembers d

end

/-- `encode/1`, which is ASCII; its only clause takes a map. -/
def encode : Value → Except Raised Bytes
  | .dict d => .ok ((encodeValue (.dict d)).map fun c => byte c.val)
  | _ => .error .functionClauseError

end CanonicalJSON

namespace Page

/-! ### Ceilings -/

/-- `@max_records`. -/
def maxRecords : ℕ := 200

/-- `@max_batch_payload_bytes`. -/
def maxBatchPayloadBytes : ℕ := 2100000

/-- `@max_response_bytes`. -/
def maxResponseBytes : ℕ := 2250000

/-- `@max_scan_changes`. -/
def maxScanChanges : ℕ := 500

/-- `@wire_prefix`. -/
def wirePrefix : Str := "\x7b\"deviceID\":\"server\",\"cursor\":\""

/-- `@wire_mid`. -/
def wireMid : Str := "\",\"records\":["

/-- `@wire_suffix`. -/
def wireSuffix : Str := "]\x7d"

/-- `@record_keys`. -/
def recordKeys : Str :=
  Str.ofString ("\x7b\"id\":,\"entityType\":,\"entityID\":,\"updatedAt\":,\"payload\":," ++
    "\"baseServerRevision\":,\"serverRevision\":,\"clientMutationID\":,\"deletedAt\":\x7d")

/-! ### Records -/

/-- `%Page.Candidate{}`. -/
structure Candidate where
  sequence : ℕ
  entityType : EntityKind
  entityId : Str
  payloadJson : Value
  serverRevision : ℕ
  clientMutationId : Option Str
  updatedAt : Str
  deletedAt : Option Str
  visible : Bool
  entityPresent : Bool

/-- The `%Record{}` of a page. -/
structure PageRecord where
  id : Str
  entityType : EntityKind
  entityId : Str
  updatedAt : Str
  payload : Bytes
  baseServerRevision : Option ℕ
  serverRevision : Option ℕ
  clientMutationId : Option Str
  deletedAt : Option Str

/-- `value || %{}`. -/
def orEmpty : Value → Value
  | .none => .dict []
  | .bool false => .dict []
  | v => v

/-- `to_record/1`. -/
def toRecord (candidate : Candidate) : Except Raised PageRecord := do
  let payload ← CanonicalJSON.encode (orEmpty candidate.payloadJson)
  return {
    id := Str.ofString "server:" ++ Str.ofNat candidate.sequence
    entityType := candidate.entityType
    entityId := candidate.entityId
    updatedAt := candidate.updatedAt
    payload := b64encode payload
    baseServerRevision := none
    serverRevision := some candidate.serverRevision
    clientMutationId := candidate.clientMutationId
    deletedAt := candidate.deletedAt }

/-! ### Sizes -/

/-- `escape_char/1` of the response, which leaves everything beyond ASCII as it is. -/
def escapeChar (char : CodePoint) : Str :=
  match CanonicalJSON.shortEscapes.lookup char.val with
  | some escaped => Str.ofString escaped
  | none => if char.val < 0x20 then CanonicalJSON.escapeUnit char.val else [char]

/-- `escaped_byte_size/1`. -/
def escapedByteSize (text : Str) : ℕ := utf8Length (text.flatMap escapeChar)

/-- `quoted/1`. -/
def quotedSize (text : Str) : ℕ := 2 + escapedByteSize text

/-- `nullable_quoted/1`. -/
def nullableQuotedSize : Option Str → ℕ
  | none => 4
  | some text => 2 + escapedByteSize text

/-- `number/1`. -/
def numberSize : Option ℕ → ℕ
  | none => 4
  | some n => utf8Length (Str.ofNat n)

/-- `record_byte_size/1`. -/
def recordByteSize (record : PageRecord) : ℕ :=
  quotedSize record.id + quotedSize record.entityType.text + quotedSize record.entityId +
    quotedSize record.updatedAt + quotedSize (record.payload.map Byte.toCodePoint) +
    numberSize record.baseServerRevision + numberSize record.serverRevision +
    nullableQuotedSize record.clientMutationId + nullableQuotedSize record.deletedAt +
    utf8Length recordKeys

/-! ### The page -/

/-- `%PageBuilder{}`; the records are in reverse. -/
structure PageBuilder where
  cursorSequence : ℕ
  records : List PageRecord
  recordBytes : ℕ
  payloadBytes : ℕ
  count : ℕ
  stoppedAt : Option ℕ

/-- The builder before the first change. -/
def PageBuilder.start (startSequence : ℕ) : PageBuilder := ⟨startSequence, [], 0, 0, 0, none⟩

/-- `consume/2`. -/
def consume (builder : PageBuilder) (sequence : ℕ) : PageBuilder :=
  { builder with cursorSequence := max builder.cursorSequence sequence }

/-- `append/3`. -/
def append (builder : PageBuilder) (record : PageRecord) (sequence : ℕ) : PageBuilder :=
  { builder with
    records := record :: builder.records
    recordBytes := builder.recordBytes + recordByteSize record
    payloadBytes := builder.payloadBytes + record.payload.length
    count := builder.count + 1
    cursorSequence := max builder.cursorSequence sequence }

/-- `response_bytes_with/3`. -/
def responseBytesWith (builder : PageBuilder) (record : PageRecord) (sequence : ℕ) :
    Except Raised ℕ := do
  let cursor ← Cursor.encode sequence
  return utf8Length wirePrefix + escapedByteSize cursor + utf8Length wireMid +
    (builder.recordBytes + recordByteSize record) + builder.count + utf8Length wireSuffix

/-- `accepts?/3`. -/
def accepts (builder : PageBuilder) (record : PageRecord) (sequence : ℕ) : Except Raised Bool :=
  if maxRecords ≤ builder.count then .ok false
  else if maxBatchPayloadBytes < builder.payloadBytes + record.payload.length then .ok false
  else do
    let bytes ← responseBytesWith builder record sequence
    return bytes ≤ maxResponseBytes

/-- `walk/2`; a builder that has stopped takes no further step. -/
def walk (builder : PageBuilder) : List Candidate → Except Raised PageBuilder
  | [] => .ok builder
  | candidate :: rest =>
    if !candidate.visible then walk (consume builder candidate.sequence) rest
    else if !candidate.entityPresent then walk (consume builder candidate.sequence) rest
    else do
      let record ← toRecord candidate
      let fits ← accepts builder record candidate.sequence
      if fits then walk (append builder record candidate.sequence) rest
      else return { builder with stoppedAt := some candidate.sequence }

/-- The map of `result/1`. -/
structure PageResult where
  records : List PageRecord
  cursorSequence : ℕ
  stoppedAt : Option ℕ

/-- `assemble/2`. -/
def assemble (startSequence : ℕ) (candidates : List Candidate) : Except Raised PageResult := do
  let builder ← walk (.start startSequence) candidates
  return ⟨builder.records.reverse, builder.cursorSequence, builder.stoppedAt⟩

/-! ### What a page delivers -/

/-- A candidate that has to be delivered. -/
def Candidate.deliverable (candidate : Candidate) : Bool :=
  candidate.visible && candidate.entityPresent

section Walk

variable {builder builder' : PageBuilder} {candidate : Candidate} {candidates : List Candidate}

/-- A candidate that cannot be delivered is consumed. -/
lemma walk_consumed (h : candidate.deliverable = false) :
    walk builder (candidate :: candidates) =
      walk (consume builder candidate.sequence) candidates := by
  rw [walk]
  cases hvisible : candidate.visible
  · rfl
  · cases hpresent : candidate.entityPresent
    · rfl
    · rw [Candidate.deliverable, hvisible, hpresent] at h
      cases h

/-- A candidate that can be delivered is delivered, or the page ends. -/
lemma walk_deliverable (h : candidate.deliverable = true) :
    walk builder (candidate :: candidates) = (do
      let record ← toRecord candidate
      let fits ← accepts builder record candidate.sequence
      if fits then walk (append builder record candidate.sequence) candidates
      else return { builder with stoppedAt := some candidate.sequence }) := by
  rw [Candidate.deliverable, Bool.and_eq_true] at h
  rw [walk, h.1, h.2]
  rfl

/-- A page none of whose candidates can be delivered is empty, and its cursor is past all of them. -/
theorem assemble_undelivered (startSequence : ℕ)
    (h : ∀ c ∈ candidates, Candidate.deliverable c = false) :
    assemble startSequence candidates =
      .ok ⟨[], advance Candidate.sequence startSequence candidates, none⟩ := by
  have hwalk : ∀ {builder : PageBuilder}, walk builder candidates =
      .ok { builder with
        cursorSequence := advance Candidate.sequence builder.cursorSequence candidates } := by
    induction candidates with
    | nil => exact fun {builder} => rfl
    | cons candidate candidates ih =>
      intro builder
      rw [List.forall_mem_cons] at h
      rw [walk_consumed h.1, ih h.2]
      rfl
  rw [assemble, hwalk]
  rfl

end Walk

end Page

end VitrialSync.Beam
