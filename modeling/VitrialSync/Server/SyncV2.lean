import VitrialSync.Python.JsonBytes
import VitrialSync.Server.ConcurrentPull
import VitrialSync.Server.Interchange

set_option relaxedAutoImplicit false
set_option autoImplicit false

/-!
# The second protocol

The payloads of `app/sync_v2.py` are JSON objects instead of bytes; a push is rewritten as one of the
first protocol, and a pull takes the page of the first protocol and validates its records again. That
validation has limits of its own: a string must have a UTF-8 form, the canonical text of a payload
may have at most 1,500,000 bytes, and `JsonValue` must accept the object. A page of the first
protocol is one of the second when every payload that it sends is within these limits; the limit of
the whole batch follows from that of the first protocol.

## Main definitions

* `VitrialSync.canonicalJsonBytes` — `_canonical_json_bytes`.
* `VitrialSync.SyncRecordV2`, `VitrialSync.SyncBatchV2` — the validated models.
* `VitrialSync.toV1Batch`, `VitrialSync.pullSinceV2` — pushes and pulls.
* `VitrialSync.pulledItems` — the object that a pull sends for a stored payload.
* `VitrialSync.Carried` — the payloads that the second protocol can send.

## Main results

* `VitrialSync.pullSinceV2_eq_ok` — where the stored payloads are carried, a page of the first
  protocol is a page of the second.
* `VitrialSync.runPushes_pullV2` — in every run of pushes with such payloads.
* `VitrialSync.runPushes_pullV2_raises` — a payload with a lone surrogate.
-/

namespace VitrialSync

open Python Program

/-! ### Models -/

/-- `MAX_SYNC_V2_PAYLOAD_BYTES`. -/
def maxSyncV2PayloadBytes : ℕ := 1500000

/-- `_canonical_json_bytes`, `none` for the `UnicodeEncodeError` of a surrogate. -/
def canonicalJsonBytes (payload : Dict) : Option Bytes :=
  encodeUtf8? (Json.dumps false (.dict payload))

/-- `len(_canonical_json_bytes(payload))`. -/
def canonicalLength (payload : Dict) : ℕ := ((canonicalJsonBytes payload).getD []).length

/-- `SyncRecordV2`, with `payload_must_be_bounded`. -/
structure SyncRecordV2 where
  id : Identifier
  entityType : EntityType
  entityID : Identifier
  updatedAt : DateTime
  payload : Payload
  entitySchemaVersion : ℕ
  baseServerRevision : Option ℕ
  serverRevision : Option ℕ
  clientMutationID : Option ShortText
  deletedAt : Option DateTime
  schemaVersion_pos : 1 ≤ entitySchemaVersion
  payload_encodes : (canonicalJsonBytes payload.items).isSome
  payload_le : canonicalLength payload.items ≤ maxSyncV2PayloadBytes

/-- The bytes of the canonical texts of a list of records. -/
def canonicalBytes (records : List SyncRecordV2) : ℕ :=
  (records.map fun r => canonicalLength r.payload.items).sum

/-- `SyncBatchV2`, with `aggregate_payload_must_be_bounded`. -/
structure SyncBatchV2 where
  deviceID : Identifier
  cursor : Option ShortText
  records : List SyncRecordV2
  records_le : records.length ≤ maxSyncRecords
  payload_le : canonicalBytes records ≤ maxSyncV1BatchPayloadBytes

/-! ### Pushes -/

/-- `_to_v1_record`. -/
def toV1Record (record : SyncRecordV2) : Except Exc SyncRecord :=
  if record.entitySchemaVersion ≠ 1 then
    .error (.invalidMutation (Str.ofString "unsupported entity schema version " ++
      Str.ofNat record.entitySchemaVersion ++ Str.ofString "; current version is 1"))
  else
    .ok {
      id := record.id
      entityType := record.entityType
      entityID := record.entityID
      updatedAt := record.updatedAt
      payload := (canonicalJsonBytes record.payload.items).getD []
      baseServerRevision := record.baseServerRevision
      serverRevision := record.serverRevision
      clientMutationID := record.clientMutationID
      deletedAt := record.deletedAt
      payload_le := record.payload_le.trans (by decide) }

/-- The batch of the first protocol that `apply_push_v2` applies. -/
def toV1Batch (batch : SyncBatchV2) : Except Exc SyncBatch := do
  let records ← batch.records.mapM toV1Record
  if hcount : records.length ≤ maxSyncRecords then
    if hbytes : payloadBytes records ≤ maxSyncV1BatchPayloadBytes then
      return ⟨batch.deviceID, batch.cursor, records, hcount, hbytes⟩
    else throw (.valueError (Str.ofString "aggregate sync payload exceeds 2100000 bytes"))
  else throw (.valueError (Str.ofString "List should have at most 200 items"))

/-- A push of the second protocol. -/
structure PushInputV2 where
  now : DateTime
  principal : Principal
  batch : SyncBatchV2

/-- The push of the first protocol that a push of the second one makes; one that raises before makes
none. -/
def PushInputV2.toV1? (input : PushInputV2) : Option PushInput :=
  (toV1Batch input.batch).toOption.map fun batch => ⟨input.now, input.principal, batch⟩

/-- The pushes of both protocols, as pushes of the first one. -/
def pushesOf (inputs : List (PushInput ⊕ PushInputV2)) : List PushInput :=
  inputs.filterMap fun input => input.elim some PushInputV2.toV1?

/-! ### Pulls -/

/-- `SyncRecordV2(…, payload=payload, entitySchemaVersion=1, …)` with the fields of a record, once the
payload is validated. -/
def SyncRecord.withPayload (record : SyncRecord) (payload : Payload)
    (hencodes : (canonicalJsonBytes payload.items).isSome)
    (hbytes : canonicalLength payload.items ≤ maxSyncV2PayloadBytes) : SyncRecordV2 where
  id := record.id
  entityType := record.entityType
  entityID := record.entityID
  updatedAt := record.updatedAt
  payload := payload
  entitySchemaVersion := 1
  baseServerRevision := record.baseServerRevision
  serverRevision := record.serverRevision
  clientMutationID := record.clientMutationID
  deletedAt := record.deletedAt
  schemaVersion_pos := le_rfl
  payload_encodes := hencodes
  payload_le := hbytes

/-- `_from_v1_record`. The argument `jsonValue` says which objects `dict[str, JsonValue]` accepts. -/
def fromV1Record (env : Env) (jsonValue : Dict → Bool) (record : SyncRecord) :
    Except Exc SyncRecordV2 := do
  let payload ← decodePayload env record.payload
  raiseIf (!jsonValue payload.items) (.valueError (Str.ofString "input was not a valid JSON value"))
  if hencodes : (canonicalJsonBytes payload.items).isSome then
    if hbytes : canonicalLength payload.items ≤ maxSyncV2PayloadBytes then
      return record.withPayload payload hencodes hbytes
    else throw (.valueError (Str.ofString "canonical payload exceeds 1500000 bytes"))
  else throw (.valueError (Str.ofString "surrogates not allowed"))

/-- `pull_since_v2`. -/
def pullSinceV2 (env : Env) (jsonValue : Dict → Bool) (db : Db) (principal : Principal)
    (cursor : Option Str) : Except Exc SyncBatchV2 := do
  let v1Batch ← pullSince db principal cursor
  let records ← v1Batch.records.mapM (fromV1Record env jsonValue)
  if hcount : records.length ≤ maxSyncRecords then
    if hbytes : canonicalBytes records ≤ maxSyncV1BatchPayloadBytes then
      return ⟨v1Batch.deviceID, v1Batch.cursor, records, hcount, hbytes⟩
    else throw (.valueError (Str.ofString "aggregate sync payload exceeds 2100000 bytes"))
  else throw (.valueError (Str.ofString "List should have at most 200 items"))

/-! ### What a pull sends -/

/-- The object that a pull sends for a stored payload: sorted by keys, and with pairs of surrogates
joined. -/
def pulledItems (items : Dict) : Dict :=
  Json.build (((Json.Style.compact true).order items).map (Json.rereadMember (.compact true)))

/-- The bytes of a record of a pull decode to that object. -/
lemma decodePayload_pulled (env : Env) {items : Dict} (hshort : Json.AllShort (.dict items)) :
    ∃ payload, decodePayload env (b64encode (asciiBytes (Json.dumps true (.dict items)))) =
      .ok payload ∧ payload.items = pulledItems items := by
  apply decodePayload_eq_ok
  have hloads := Json.loads_write_object hshort
  rw [Json.write_compact, Json.reread_dict] at hloads
  rw [decodeValue, b64decode?_b64encode, Option.bind_some, asciiBytes, hloads]
  rfl

/-- The records of some changes are those of the entities that they deliver. -/
lemma mem_deliveredRecords {entity : SyncChangeLog → Option SyncEntity}
    {changes : List SyncChangeLog} {records : List SyncRecord}
    (h : deliveredRecords entity changes = .ok records) :
    ∀ record ∈ records, ∃ c ∈ changes, ∃ e, entity c = some e ∧ pullRecord c e = .ok record := by
  rw [deliveredRecords, mapM_eq_ok_iff] at h
  have hmem : ∀ d ∈ deliveries entity changes, d.1 ∈ changes ∧ entity d.1 = some d.2 := by
    intro d hd
    obtain ⟨c, hc, hmap⟩ := List.mem_filterMap.mp hd
    obtain ⟨e, he, rfl⟩ := Option.map_eq_some_iff.mp hmap
    exact ⟨hc, he⟩
  generalize deliveries entity changes = ds at h hmem
  induction h with
  | nil => exact fun _ h => absurd h List.not_mem_nil
  | @cons d record ds records hpull _ ih =>
    rw [List.forall_mem_cons] at hmem ⊢
    exact ⟨⟨d.1, hmem.1.1, d.2, hmem.1.2, hpull⟩, ih hmem.2⟩

/-- What a record of a pull is made of. -/
lemma pullRecord_eq_ok {change : SyncChangeLog} {entity : SyncEntity} {record : SyncRecord}
    (h : pullRecord change entity = .ok record) :
    record.payload = b64encode (asciiBytes (entityJson entity)) := by
  unfold pullRecord at h
  obtain ⟨id, -, h⟩ := bind_eq_ok.mp h
  split_ifs at h
  rw [pure_eq_ok] at h
  rw [← h]

/-! ### Carried payloads -/

/-- The payloads that the second protocol can send: without surrogates once the pairs are joined, with
a canonical text within the limit, and accepted by `JsonValue`. -/
structure Carried (jsonValue : Dict → Bool) (items : Dict) : Prop where
  encodable : ∀ s ∈ (Value.dict (pulledItems items)).texts, Encodable s
  bounded : utf8Length (Json.dumps false (.dict (pulledItems items))) ≤ maxSyncV2PayloadBytes
  accepted : jsonValue (pulledItems items) = true

/-- The canonical text of a carried payload. -/
lemma Carried.canonical {jsonValue : Dict → Bool} {items : Dict} (h : Carried jsonValue items) :
    canonicalJsonBytes (pulledItems items) =
      some ((Json.dumps false (.dict (pulledItems items))).flatMap utf8) := by
  have hencode := Json.encodeUtf8?_write h.encodable
  rwa [Json.write_compact] at hencode

/-- It is not longer than the text that the first protocol encodes. -/
lemma Carried.canonicalLength_le {jsonValue : Dict → Bool} {items : Dict}
    (h : Carried jsonValue items) :
    canonicalLength (pulledItems items) ≤ (Json.dumps true (.dict items)).length := by
  have hle := Json.utf8Length_reread_le (.dict items)
  rw [Json.reread_dict, Json.write_compact, Json.write_compact] at hle
  rw [canonicalLength, h.canonical]
  exact hle

/-- What the second protocol sends for a record of the first one: the same ids, revisions and times,
and the object that the payload decodes to. -/
structure SameRecord (env : Env) (record : SyncRecord) (record' : SyncRecordV2) : Prop where
  id : record'.id = record.id
  entityType : record'.entityType = record.entityType
  entityID : record'.entityID = record.entityID
  updatedAt : record'.updatedAt = record.updatedAt
  deletedAt : record'.deletedAt = record.deletedAt
  baseServerRevision : record'.baseServerRevision = record.baseServerRevision
  serverRevision : record'.serverRevision = record.serverRevision
  clientMutationID : record'.clientMutationID = record.clientMutationID
  payload : decodePayload env record.payload = .ok record'.payload

/-- The stored payloads can be read back, and are carried. -/
def CarriesV2 (jsonValue : Dict → Bool) (db : Db) : Prop :=
  ∀ key payload, storedPayload db key = some payload →
    Json.AllShort (.dict payload.items) ∧ Carried jsonValue payload.items

section Pull

variable {env : Env} {jsonValue : Dict → Bool} {db : Db}

/-- The record of a stored entity is one of the second protocol. -/
lemma fromV1Record_eq_ok (hempty : jsonValue [] = true) {change : SyncChangeLog}
    {entity : SyncEntity} {record : SyncRecord} (hpull : pullRecord change entity = .ok record)
    (hcarried : ∀ payload, entity.payloadJson = some payload →
      Json.AllShort (.dict payload.items) ∧ Carried jsonValue payload.items) :
    ∃ record', fromV1Record env jsonValue record = .ok record' ∧ SameRecord env record record' ∧
      canonicalLength record'.payload.items ≤ record.payload.length := by
  -- an entity without a payload is sent as the empty object
  obtain ⟨items, hjson, hshort, hitems⟩ : ∃ items, entityJson entity =
      Json.dumps true (.dict items) ∧ Json.AllShort (.dict items) ∧ Carried jsonValue items := by
    rw [entityJson]
    cases hpayload : entity.payloadJson with
    | some payload => exact ⟨payload.items, rfl, hcarried payload hpayload⟩
    | none =>
      refine ⟨[], rfl, Json.allShort_of_leaves fun n hn => absurd hn List.not_mem_nil, ?_, ?_, ?_⟩
      · exact fun s hs => absurd hs List.not_mem_nil
      · decide
      · exact hempty
  have hpayload := pullRecord_eq_ok hpull
  rw [hjson] at hpayload
  obtain ⟨payload, hdecode, hpulled⟩ := decodePayload_pulled env hshort
  rw [← hpayload] at hdecode
  have hencodes : (canonicalJsonBytes payload.items).isSome := by
    rw [hpulled, hitems.canonical]
    rfl
  have hlength : canonicalLength payload.items ≤ maxSyncV2PayloadBytes := by
    rw [hpulled, canonicalLength, hitems.canonical]
    exact hitems.bounded
  have haccepted : (!jsonValue payload.items) = false := by
    rw [hpulled, hitems.accepted]
    rfl
  refine ⟨record.withPayload payload hencodes hlength, ?_,
    ⟨rfl, rfl, rfl, rfl, rfl, rfl, rfl, rfl, hdecode⟩, ?_⟩
  · simp only [fromV1Record, hdecode, ok_bind, haccepted, raiseIf, Bool.false_eq_true, ↓reduceIte,
      dif_pos hencodes, dif_pos hlength]
    rfl
  · change canonicalLength payload.items ≤ _
    rw [hpulled, hpayload, length_b64encode, asciiBytes, List.length_map]
    have hle := hitems.canonicalLength_le
    omega

/-- **Every page of the first protocol is one of the second**, where the stored payloads are carried.

**Proof sketch.** A record of the page holds the base64 form of the text in ASCII of a stored payload,
which decodes to the object that is carried. Its canonical text in UTF-8 is not longer than that text
in ASCII, and so the limit of the batch follows from that of the first protocol. -/
theorem pullSinceV2_eq_ok (hempty : jsonValue [] = true) (hdb : CarriesV2 jsonValue db)
    {principal : Principal} {cursor : Option Str} {batch : SyncBatch}
    (hpull : pullSince db principal cursor = .ok batch) :
    ∃ batch', pullSinceV2 env jsonValue db principal cursor = .ok batch' ∧
      batch'.cursor = batch.cursor ∧
      List.Forall₂ (SameRecord env) batch.records batch'.records := by
  have hsent : ∀ record ∈ batch.records, ∃ record', fromV1Record env jsonValue record = .ok record' ∧
      SameRecord env record record' ∧
        canonicalLength record'.payload.items ≤ record.payload.length := by
    unfold pullSince at hpull
    split_ifs at hpull
    obtain ⟨start, -, hpull⟩ := bind_eq_ok.mp hpull
    obtain ⟨⟨records, last⟩, hloop, hbatch⟩ := bind_eq_ok.mp hpull
    obtain ⟨consumed, rest, new, hsplit, -, hnew, hdelivered, -⟩ := pullLoop_eq_ok hloop
    have hrecords : batch.records = new := by
      unfold serverBatch at hbatch
      obtain ⟨_, -, hbatch⟩ := bind_eq_ok.mp hbatch
      obtain ⟨_, -, hbatch⟩ := bind_eq_ok.mp hbatch
      split_ifs at hbatch
      rw [pure_eq_ok] at hbatch
      rw [← hbatch]
      exact hnew
    rw [hrecords]
    intro record hrecord
    obtain ⟨c, hc, e, hentity, hpulled⟩ := mem_deliveredRecords hdelivered record hrecord
    refine fromV1Record_eq_ok hempty hpulled fun payload hpayload => ?_
    rw [pageEntity_eq (hsplit ▸ List.mem_append_left _ hc), deliverable] at hentity
    have hstored : db.entities.get (principal.organizationId, c.entityType, c.entityId.text) =
        some e := by
      split_ifs at hentity
      all_goals exact hentity
    exact hdb _ payload (by rw [storedPayload, hstored]; exact hpayload)
  obtain ⟨records, hrecords, hsame, hbytes⟩ : ∃ records,
      batch.records.mapM (fromV1Record env jsonValue) = .ok records ∧
        List.Forall₂ (SameRecord env) batch.records records ∧
        canonicalBytes records ≤ payloadBytes batch.records := by
    clear hpull
    generalize batch.records = sent at hsent
    induction sent with
    | nil => exact ⟨[], rfl, .nil, le_rfl⟩
    | cons record sent ih =>
      rw [List.forall_mem_cons] at hsent
      obtain ⟨⟨record', hrecord, hsame, hle⟩, hrest⟩ := hsent
      obtain ⟨records, hrecords, hsames, hbytes⟩ := ih hrest
      refine ⟨record' :: records, ?_, .cons hsame hsames, ?_⟩
      · rw [List.mapM_cons, hrecord, ok_bind, hrecords]
        rfl
      · simp only [canonicalBytes, payloadBytes, List.map_cons, List.sum_cons] at hbytes ⊢
        omega
  have hcount : records.length ≤ maxSyncRecords := hsame.length_eq ▸ batch.records_le
  have htotal : canonicalBytes records ≤ maxSyncV1BatchPayloadBytes :=
    hbytes.trans batch.payload_le
  refine ⟨⟨batch.deviceID, batch.cursor, records, hcount, htotal⟩, ?_, rfl, hsame⟩
  simp only [pullSinceV2, hpull, ok_bind, hrecords, dif_pos hcount, dif_pos htotal]
  rfl

end Pull

/-! ### Runs -/

/-- The payload of a fresh upsert is carried. -/
def RecordStep.CarriedV2 (env : Env) (jsonValue : Dict → Bool) (s : RecordStep) : Prop :=
  s.record.deletedAt = none → s.Unanswered → staleRevision s.record s.current = false →
    ∀ payload, decodePayload env s.record.payload = .ok payload → Carried jsonValue payload.items

/-- **Pages of both protocols.** In every state that a run of pushes of both protocols reaches, a page
that the first protocol returns is one of the second, if the payloads of the fresh upserts of the run
are carried.

**Proof sketch.** What is stored was decoded from a record (`decodeValue_allShort`), and is
carried. -/
theorem runPushes_pullV2 (env : Env) (jsonValue : Dict → Bool) (hempty : jsonValue [] = true)
    (inputs : List (PushInput ⊕ PushInputV2)) (db : Db) (hdb : CarriesV2 jsonValue db)
    (hcarried : ∀ s ∈ runSteps env (pushesOf inputs) db, s.CarriedV2 env jsonValue)
    (principal : Principal) (cursor : Option Str) (batch : SyncBatch)
    (hpull : pullSince (runPushes env (pushesOf inputs) db) principal cursor = .ok batch) :
    ∃ batch', pullSinceV2 env jsonValue (runPushes env (pushesOf inputs) db) principal cursor =
        .ok batch' ∧
      batch'.cursor = batch.cursor ∧
      List.Forall₂ (SameRecord env) batch.records batch'.records := by
  refine pullSinceV2_eq_ok hempty ?_ hpull
  refine runPushes_inv hdb fun s hs hbefore key payload hstored => ?_
  rcases (runSteps_valid hs).1.storedPayload_after hstored with
    hold | ⟨-, hupsert, grant, applied, hcommits⟩
  · exact hbefore key payload hold
  · have hdecoded := hcommits.admitted.decoded
    exact ⟨decodeValue_allShort (decodeValue_of_decodePayload hdecoded),
      hcarried s hs hupsert hcommits.unanswered hcommits.fresh payload hdecoded⟩

/-- The first page of the sample organization. -/
theorem runPushes_pullV2_sample : ∃ batch,
    pullSince (runPushes Sample.env (pushesOf (Sample.setup.map .inl)) Sample.db) Sample.principal
        none = .ok batch ∧
      ∃ batch', pullSinceV2 Sample.env (fun _ => true)
          (runPushes Sample.env (pushesOf (Sample.setup.map .inl)) Sample.db) Sample.principal none =
            .ok batch' ∧
        batch'.cursor = batch.cursor ∧
        List.Forall₂ (SameRecord Sample.env) batch.records batch'.records := by
  have hpull : (pullSince (runPushes Sample.env (pushesOf (Sample.setup.map .inl)) Sample.db)
      Sample.principal none).toOption.isSome = true := by
    decide +kernel
  have hcarried : ∀ s ∈ runSteps Sample.env (pushesOf (Sample.setup.map .inl)) Sample.db,
      ((decodePayload Sample.env s.record.payload).toOption.all fun payload =>
        ((Value.dict (pulledItems payload.items)).texts.all fun t => !t.any CodePoint.isSurrogate) &&
          decide (utf8Length (Json.dumps false (.dict (pulledItems payload.items))) ≤
            maxSyncV2PayloadBytes)) = true := by
    decide +kernel
  obtain ⟨batch, hbatch⟩ := Option.isSome_iff_exists.mp hpull
  replace hbatch := toOption_eq_some hbatch
  refine ⟨batch, hbatch, ?_⟩
  refine runPushes_pullV2 Sample.env (fun _ => true) rfl (Sample.setup.map .inl) Sample.db ?_ ?_
    Sample.principal none batch hbatch
  · intro key payload hstored
    cases hstored
  · intro s hs _ _ _ payload hdecoded
    have hs' := hcarried s hs
    rw [hdecoded] at hs'
    simp only [Except.toOption, Option.all_some, Bool.and_eq_true, List.all_eq_true,
      Bool.not_eq_true', decide_eq_true_eq] at hs'
    exact ⟨hs'.1, hs'.2, rfl⟩

/-- The push of a customer with a high surrogate that stands alone. -/
def Sample.loneSurrogate : List (PushInput ⊕ PushInputV2) :=
  [.inl (input (record .customer "c" "1" none [("id", .str "c"), ("name", .str [0xd800])]))]

/-- A customer whose name has a lone surrogate is accepted and sent by the first protocol; the second
one raises, whatever `JsonValue` accepts. -/
theorem runPushes_pullV2_raises : ∃ batch,
    pullSince (runPushes Sample.env (pushesOf Sample.loneSurrogate) Sample.db) Sample.principal none =
        .ok batch ∧
      ∀ jsonValue batch', pullSinceV2 Sample.env jsonValue
        (runPushes Sample.env (pushesOf Sample.loneSurrogate) Sample.db) Sample.principal none ≠
          .ok batch' := by
  have hpull : ((pullSince (runPushes Sample.env (pushesOf Sample.loneSurrogate) Sample.db)
      Sample.principal none).toOption.any fun batch => batch.records.any fun record =>
        (decodePayload Sample.env record.payload).toOption.all fun payload =>
          (canonicalJsonBytes payload.items).isNone) = true := by
    decide +kernel
  obtain ⟨batch, hbatch, hrecords⟩ := (Option.any_eq_true _ _).mp hpull
  replace hbatch := toOption_eq_some hbatch
  refine ⟨batch, hbatch, fun jsonValue batch' h => ?_⟩
  obtain ⟨record, hrecord, hnone⟩ := List.any_eq_true.mp hrecords
  rw [pullSinceV2, hbatch, ok_bind] at h
  obtain ⟨records, hmap, -⟩ := bind_eq_ok.mp h
  obtain ⟨record', hrecord'⟩ := mapM_eq_ok_mem hmap record hrecord
  rw [fromV1Record] at hrecord'
  obtain ⟨payload, hdecoded, hrecord'⟩ := bind_eq_ok.mp hrecord'
  obtain ⟨_, -, hrecord'⟩ := bind_eq_ok.mp hrecord'
  rw [hdecoded] at hnone
  simp only [Except.toOption, Option.all_some, Option.isNone_iff_eq_none] at hnone
  split_ifs at hrecord' with hencodes
  rw [hnone] at hencodes
  cases hencodes

end VitrialSync
